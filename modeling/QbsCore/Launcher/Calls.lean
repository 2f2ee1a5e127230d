import QbsCore.Tools.Process
import Mathlib.Data.List.Basic
import Mathlib.Data.List.Induction

/-!
# Calls of processes

What the user of a process handle may see: each call is a request to start a process and
is answered once, with what became of the process that was launched for it.

Main results:

- Definition {lit}`Launcher.Phase.next`: the specification of one process handle.
- Theorem {lit}`Launcher.calls_of_phaseAfter`: a history that the specification accepts is a
  sequence of answered calls and at most one open call.

Current gaps:

- None.
-/

namespace Qbs

namespace Launcher

abbrev QByteArray :=
  List UInt8

/-- The packet that asks the launcher to start a process. -/
structure StartProcessPacket where
  command : String
  arguments : List String
  workingDir : String
  env : List String
deriving DecidableEq

/-- What can be observed of one process handle: the calls of its user, what happens to the
processes that are launched for it, the signals it emits, and the complaints that it or the
launcher writes to the log. -/
inductive Event where
  | start (request : StartProcessPacket)
  | launched (request : StartProcessPacket)
  | output (stdOut stdErr : QByteArray)
  | failedToStart (errorString : String)
  | ended (exitCode : Int)
  | givenUp
  | errorOccurred (error : ProcessError) (errorString : String)
  | finished (exitCode : Int) (stdOut stdErr : QByteArray)
  | startRefused
  | assertionFailed
deriving DecidableEq

/-- What a call is at. -/
inductive Phase where
  | idle
  | requested (request : StartProcessPacket)
  | running (stdOut stdErr : QByteArray)
  | failed (errorString : String)
  | ended (exitCode : Int) (stdOut stdErr : QByteArray)

/-- The specification of a process handle.  A call that was cancelled before its process
was launched is answered with an error; a process that does not react to being killed is
given up and counts as one that exits with -1. -/
def Phase.next : Phase → Event → Option Phase
  | .idle, .start request => some (.requested request)
  | .requested request, .launched request' =>
      if request' = request then some (.running [] []) else none
  | .requested _, .errorOccurred .failedToStart _ => some .idle
  | .running stdOut stdErr, .output out err => some (.running (stdOut ++ out) (stdErr ++ err))
  | .running _ _, .failedToStart errorString => some (.failed errorString)
  | .running stdOut stdErr, .ended exitCode => some (.ended exitCode stdOut stdErr)
  | .running stdOut stdErr, .givenUp => some (.ended (-1) stdOut stdErr)
  | .failed errorString, .errorOccurred .failedToStart text =>
      if text = errorString then some .idle else none
  | .ended exitCode stdOut stdErr, .finished code out err =>
      if code = exitCode ∧ out = stdOut ∧ err = stdErr then some .idle else none
  | _, _ => none

/-- The phase after a history, if the specification accepts it. -/
def phaseAfter (history : List Event) : Option Phase :=
  history.foldlM Phase.next .idle

@[simp]
theorem phaseAfter_nil : phaseAfter [] = some .idle :=
  rfl

theorem phaseAfter_append (history new : List Event) :
    phaseAfter (history ++ new) = (phaseAfter history).bind fun phase => new.foldlM Phase.next phase := by
  unfold phaseAfter
  rw [List.foldlM_append]
  rfl

/-! ## Answered and open calls -/

/-- The output of a process, piece by piece. -/
def outputs (pieces : List (QByteArray × QByteArray)) : List Event :=
  pieces.map fun piece => .output piece.1 piece.2

def stdOutOf (pieces : List (QByteArray × QByteArray)) : QByteArray :=
  (pieces.map Prod.fst).flatten

def stdErrOf (pieces : List (QByteArray × QByteArray)) : QByteArray :=
  (pieces.map Prod.snd).flatten

/-- The history of a call from the request to its only answer. -/
inductive AnsweredCall : List Event → Prop
  | cancelled (request : StartProcessPacket) (text : String) :
      AnsweredCall [.start request, .errorOccurred .failedToStart text]
  | failed (request : StartProcessPacket) (pieces : List (QByteArray × QByteArray)) (text : String) :
      AnsweredCall ([.start request, .launched request] ++ outputs pieces ++
        [.failedToStart text, .errorOccurred .failedToStart text])
  | ended (request : StartProcessPacket) (pieces : List (QByteArray × QByteArray))
      (exitCode : Int) :
      AnsweredCall ([.start request, .launched request] ++ outputs pieces ++
        [.ended exitCode, .finished exitCode (stdOutOf pieces) (stdErrOf pieces)])
  | givenUp (request : StartProcessPacket) (pieces : List (QByteArray × QByteArray)) :
      AnsweredCall ([.start request, .launched request] ++ outputs pieces ++
        [.givenUp, .finished (-1) (stdOutOf pieces) (stdErrOf pieces)])

/-- The history of a call that has not been answered yet, or of no call at all. -/
inductive OpenCall : Phase → List Event → Prop
  | none : OpenCall .idle []
  | requested (request : StartProcessPacket) : OpenCall (.requested request) [.start request]
  | running (request : StartProcessPacket) (pieces : List (QByteArray × QByteArray)) :
      OpenCall (.running (stdOutOf pieces) (stdErrOf pieces))
        ([.start request, .launched request] ++ outputs pieces)
  | failed (request : StartProcessPacket) (pieces : List (QByteArray × QByteArray)) (text : String) :
      OpenCall (.failed text)
        ([.start request, .launched request] ++ outputs pieces ++ [.failedToStart text])
  | ended (request : StartProcessPacket) (pieces : List (QByteArray × QByteArray))
      (exitCode : Int) :
      OpenCall (.ended exitCode (stdOutOf pieces) (stdErrOf pieces))
        ([.start request, .launched request] ++ outputs pieces ++ [.ended exitCode])
  | givenUp (request : StartProcessPacket) (pieces : List (QByteArray × QByteArray)) :
      OpenCall (.ended (-1) (stdOutOf pieces) (stdErrOf pieces))
        ([.start request, .launched request] ++ outputs pieces ++ [.givenUp])

variable {history : List Event} {phase : Phase}

/-- An event that the specification accepts continues the open call or answers it. -/
theorem OpenCall.next {phase' : Phase} {e : Event} (h : OpenCall phase history)
    (hnext : phase.next e = some phase') :
    OpenCall phase' (history ++ [e]) ∨ phase' = .idle ∧ AnsweredCall (history ++ [e]) := by
  cases h with
  | none =>
      cases e with
      | start request =>
          simp only [Phase.next, Option.some.injEq] at hnext
          subst hnext
          exact Or.inl (.requested request)
      | _ => simp [Phase.next] at hnext
  | requested request =>
      cases e with
      | launched request' =>
          simp only [Phase.next] at hnext
          split at hnext <;> rename_i hsame
          · cases hnext
            rw [hsame]
            exact Or.inl (.running request [])
          · cases hnext
      | errorOccurred error text =>
          cases error with
          | failedToStart =>
              simp only [Phase.next, Option.some.injEq] at hnext
              exact Or.inr ⟨hnext.symm, .cancelled request text⟩
          | _ => simp [Phase.next] at hnext
      | _ => simp [Phase.next] at hnext
  | running request pieces =>
      cases e with
      | output out err =>
          simp only [Phase.next, Option.some.injEq] at hnext
          subst hnext
          have hopen := OpenCall.running request (pieces ++ [(out, err)])
          simp only [stdOutOf, stdErrOf, outputs, List.map_append, List.flatten_append] at hopen ⊢
          left
          simpa using hopen
      | failedToStart text =>
          simp only [Phase.next, Option.some.injEq] at hnext
          subst hnext
          exact Or.inl (.failed request pieces text)
      | ended exitCode =>
          simp only [Phase.next, Option.some.injEq] at hnext
          subst hnext
          exact Or.inl (.ended request pieces exitCode)
      | givenUp =>
          simp only [Phase.next, Option.some.injEq] at hnext
          subst hnext
          exact Or.inl (.givenUp request pieces)
      | _ => simp [Phase.next] at hnext
  | failed request pieces errorString =>
      cases e with
      | errorOccurred error text =>
          cases error with
          | failedToStart =>
              simp only [Phase.next] at hnext
              split at hnext <;> rename_i hsame
              · cases hnext
                rw [hsame, List.append_assoc]
                exact Or.inr ⟨rfl, .failed request pieces errorString⟩
              · cases hnext
          | _ => simp [Phase.next] at hnext
      | _ => simp [Phase.next] at hnext
  | ended request pieces exitCode =>
      cases e with
      | finished code out err =>
          simp only [Phase.next] at hnext
          split at hnext <;> rename_i hsame
          · cases hnext
            rcases hsame with ⟨rfl, rfl, rfl⟩
            rw [List.append_assoc]
            exact Or.inr ⟨rfl, .ended request pieces code⟩
          · cases hnext
      | _ => simp [Phase.next] at hnext
  | givenUp request pieces =>
      cases e with
      | finished code out err =>
          simp only [Phase.next] at hnext
          split at hnext <;> rename_i hsame
          · cases hnext
            rcases hsame with ⟨rfl, rfl, rfl⟩
            rw [List.append_assoc]
            exact Or.inr ⟨rfl, .givenUp request pieces⟩
          · cases hnext
      | _ => simp [Phase.next] at hnext

/-- An accepted history consists of answered calls and at most one open call. -/
theorem calls_of_phaseAfter (h : phaseAfter history = some phase) :
    ∃ (calls : List (List Event)) (rest : List Event), history = calls.flatten ++ rest ∧
      (∀ call, call ∈ calls → AnsweredCall call) ∧ OpenCall phase rest := by
  induction history using List.reverseRecOn generalizing phase with
  | nil =>
      cases h
      exact ⟨[], [], rfl, by simp, .none⟩
  | append_singleton history e ih =>
      rw [phaseAfter_append, Option.bind_eq_some_iff] at h
      rcases h with ⟨before, hbefore, hnext⟩
      have hstep : before.next e = some phase := by
        simpa [List.foldlM_cons, List.foldlM_nil] using hnext
      rcases ih hbefore with ⟨calls, rest, rfl, hcalls, hopen⟩
      rcases hopen.next hstep with hopen' | ⟨rfl, hcall⟩
      · exact ⟨calls, rest ++ [e], by rw [List.append_assoc], hcalls, hopen'⟩
      · refine ⟨calls ++ [rest ++ [e]], [], by simp, ?_, .none⟩
        intro call hmem
        rcases List.mem_append.mp hmem with hmem | hmem
        · exact hcalls call hmem
        · rw [List.mem_singleton.mp hmem]
          exact hcall

/-- Each event of an accepted history is accepted in some phase. -/
theorem exists_next_of_mem {e : Event} (h : phaseAfter history = some phase) (he : e ∈ history) :
    ∃ before after, Phase.next before e = some after := by
  induction history using List.reverseRecOn generalizing phase with
  | nil => cases he
  | append_singleton history e' ih =>
      rw [phaseAfter_append, Option.bind_eq_some_iff] at h
      rcases h with ⟨before, hbefore, hnext⟩
      rcases List.mem_append.mp he with he | he
      · exact ih hbefore he
      · rw [List.mem_singleton.mp he]
        exact ⟨before, phase, by simpa [List.foldlM_cons, List.foldlM_nil] using hnext⟩

/-- There are no complaints in an accepted history. -/
theorem no_complaint (h : phaseAfter history = some phase) :
    .startRefused ∉ history ∧ .assertionFailed ∉ history := by
  constructor
  · intro he
    rcases exists_next_of_mem h he with ⟨before, after, hnext⟩
    cases before <;> simp [Phase.next] at hnext
  · intro he
    rcases exists_next_of_mem h he with ⟨before, after, hnext⟩
    cases before <;> simp [Phase.next] at hnext

end Launcher

end Qbs
