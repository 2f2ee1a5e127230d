import QbsCore.Launcher.System
import QbsCore.Library.TransitionSystem

/-!
# Answers of the process launcher

Whatever the order of calls, deliveries, processes and timers is, the history of each handle
is one that the specification of a handle accepts.

Main results:

- Theorem {lit}`Launcher.System.simulates_perform`: each action is a step of the specification
  for each handle.
- Theorem {lit}`Launcher.System.calls_answered`: each call is answered once, with what became
  of its own process.

Current gaps:

- None.
-/

namespace Qbs

namespace Launcher

open Lanes

/-! ## What concerns one handle -/

/-- The part of the system that belongs to one token. -/
structure View where
  client : QbsProcess
  requests : List Request
  answers : List Answer
  process : Option Process
  connected : Bool
  readyPosted : Bool

/-- There is no request to start a process among the requests. -/
def OnlyStops (requests : List Request) : Prop :=
  ∀ r, r ∈ requests → r = .stopProcess

/-- The stage a handle, its packets and its process are at. -/
inductive Stage (v : View) : Phase → Prop
  | idle (hstate : v.client.state = .notRunning) (hrequests : OnlyStops v.requests)
      (hanswers : v.answers = []) (hrest : v.process.getD .setup = .setup) : Stage v .idle
  | starting (hstate : v.client.state = .starting) (hrequests : OnlyStops v.requests)
      (hanswers : v.answers = []) (hrest : v.process.getD .setup = .setup)
      (hready : v.connected = true → v.readyPosted = true) :
      Stage v (.requested v.client.startPacket)
  | requested (request : StartProcessPacket) (before after : List Request)
      (hstate : v.client.state = .running)
      (hrequests : v.requests = before ++ .startProcess request :: after)
      (hbefore : OnlyStops before) (hafter : OnlyStops after) (hanswers : v.answers = [])
      (hrest : v.process.getD .setup = .setup) : Stage v (.requested request)
  | running (p : Process) (hstate : v.client.state = .running) (hrequests : OnlyStops v.requests)
      (hanswers : v.answers = []) (hprocess : v.process = some p) (hruns : p.state ≠ .notRunning)
      (hsilent : p.state = .starting → p.stdOut = [] ∧ p.stdErr = []) :
      Stage v (.running p.stdOut p.stdErr)
  | failed (text : String) (hstate : v.client.state = .running) (hrequests : OnlyStops v.requests)
      (hanswers : v.answers = [.processError ⟨.failedToStart, text⟩])
      (hrest : v.process.getD .setup = .setup) : Stage v (.failed text)
  | ended (packet : ProcessFinishedPacket) (hstate : v.client.state = .running)
      (hrequests : OnlyStops v.requests) (hanswers : v.answers = [.processFinished packet])
      (hrest : v.process.getD .setup = .setup) :
      Stage v (.ended packet.exitCode packet.stdOut packet.stdErr)

/-- A handle whose connection works is at the stage that belongs to a phase. -/
structure Agrees (v : View) (phase : Phase) : Prop where
  socketError : v.client.socketError = false
  connected : v.readyPosted = true → v.connected = true
  stage : Stage v phase

variable {phase : Phase} {v : View}

/-- Whether there is a connection only matters to a handle that is starting. -/
theorem Stage.connection (h : Stage v phase) {connected readyPosted socketError : Bool}
    (hready : v.client.state = .starting → connected = true → readyPosted = true) :
    Stage { v with
      client := { v.client with socketError := socketError }
      connected := connected
      readyPosted := readyPosted } phase := by
  cases h with
  | idle hs hrequests hanswers hrest => exact .idle hs hrequests hanswers hrest
  | starting hs hrequests hanswers hrest _ =>
      exact .starting hs hrequests hanswers hrest (hready hs)
  | requested request before after hs hrequests hbefore hafter hanswers hrest =>
      exact .requested request before after hs hrequests hbefore hafter hanswers hrest
  | running p hs hrequests hanswers hprocess hruns hsilent =>
      exact .running p hs hrequests hanswers hprocess hruns hsilent
  | failed text hs hrequests hanswers hrest => exact .failed text hs hrequests hanswers hrest
  | ended packet hs hrequests hanswers hrest => exact .ended packet hs hrequests hanswers hrest

theorem onlyStops_nil : OnlyStops [] := by
  simp [OnlyStops]

variable {requests rest : List Request}

theorem onlyStops_snoc (h : OnlyStops requests) :
    OnlyStops (requests ++ [.stopProcess]) := by
  intro r hr
  rcases List.mem_append.mp hr with hr | hr
  · exact h r hr
  · exact List.mem_singleton.mp hr

theorem onlyStops_cons {r : Request} (h : OnlyStops (r :: requests)) :
    r = .stopProcess ∧ OnlyStops requests :=
  ⟨h r List.mem_cons_self, fun r' hr' => h r' (List.mem_cons_of_mem r hr')⟩

/-- The state of a handle that is not running. -/
theorem Agrees.of_notRunning (h : Agrees v phase) (hstate : v.client.state = .notRunning) :
    phase = .idle ∧ OnlyStops v.requests ∧ v.answers = [] ∧ v.process.getD .setup = .setup := by
  cases h.stage with
  | idle _ hrequests hanswers hrest => exact ⟨rfl, hrequests, hanswers, hrest⟩
  | starting hs _ _ _ _ => simp [hs] at hstate
  | requested _ _ _ hs _ _ _ _ _ => simp [hs] at hstate
  | running _ hs _ _ _ _ _ => simp [hs] at hstate
  | failed _ hs _ _ _ => simp [hs] at hstate
  | ended _ hs _ _ _ => simp [hs] at hstate

/-- The state of a handle that waits for the connection. -/
theorem Agrees.of_starting (h : Agrees v phase) (hstate : v.client.state = .starting) :
    phase = .requested v.client.startPacket ∧ OnlyStops v.requests ∧ v.answers = [] ∧
      v.process.getD .setup = .setup := by
  cases h.stage with
  | starting _ hrequests hanswers hrest _ => exact ⟨rfl, hrequests, hanswers, hrest⟩
  | idle hs _ _ _ => simp [hs] at hstate
  | requested _ _ _ hs _ _ _ _ _ => simp [hs] at hstate
  | running _ hs _ _ _ _ _ => simp [hs] at hstate
  | failed _ hs _ _ _ => simp [hs] at hstate
  | ended _ hs _ _ _ => simp [hs] at hstate

/-- The state of a handle whose process object is in use. -/
theorem Agrees.of_process (h : Agrees v phase) (hbusy : v.process.getD .setup ≠ .setup) :
    ∃ p, v.process = some p ∧ p.state ≠ .notRunning ∧ phase = .running p.stdOut p.stdErr ∧
      v.client.state = .running ∧ OnlyStops v.requests ∧ v.answers = [] ∧
      (p.state = .starting → p.stdOut = [] ∧ p.stdErr = []) := by
  cases h.stage with
  | running p hstate hrequests hanswers hprocess hruns hsilent =>
      exact ⟨p, hprocess, hruns, rfl, hstate, hrequests, hanswers, hsilent⟩
  | idle _ _ _ hrest => exact absurd hrest hbusy
  | starting _ _ _ hrest _ => exact absurd hrest hbusy
  | requested _ _ _ _ _ _ _ _ hrest => exact absurd hrest hbusy
  | failed _ _ _ _ hrest => exact absurd hrest hbusy
  | ended _ _ _ _ hrest => exact absurd hrest hbusy

/-- A request to stop that arrives leaves the handle at its stage. -/
theorem Agrees.pop_stop (h : Agrees v phase) (hhead : v.requests = .stopProcess :: rest) :
    Agrees { v with requests := rest } phase := by
  refine ⟨h.socketError, h.connected, ?_⟩
  cases h.stage with
  | idle hs hrequests hanswers hrest =>
      exact .idle hs (onlyStops_cons (hhead ▸ hrequests)).2 hanswers hrest
  | starting hs hrequests hanswers hrest hready =>
      exact .starting hs (onlyStops_cons (hhead ▸ hrequests)).2 hanswers hrest hready
  | requested request before after hs hrequests hbefore hafter hanswers hrest =>
      rw [hhead] at hrequests
      cases before with
      | nil => simp at hrequests
      | cons b before =>
          simp only [List.cons_append, List.cons.injEq] at hrequests
          exact .requested request before after hs hrequests.2 (onlyStops_cons hbefore).2 hafter
            hanswers hrest
  | running p hs hrequests hanswers hprocess hruns hsilent =>
      exact .running p hs (onlyStops_cons (hhead ▸ hrequests)).2 hanswers hprocess hruns hsilent
  | failed text hs hrequests hanswers hrest =>
      exact .failed text hs (onlyStops_cons (hhead ▸ hrequests)).2 hanswers hrest
  | ended packet hs hrequests hanswers hrest =>
      exact .ended packet hs (onlyStops_cons (hhead ▸ hrequests)).2 hanswers hrest

/-- A request to start a process arrives while the process object is at rest. -/
theorem Agrees.pop_start {packet : StartProcessPacket} (h : Agrees v phase)
    (hhead : v.requests = .startProcess packet :: rest) :
    phase = .requested packet ∧ v.client.state = .running ∧ OnlyStops rest ∧ v.answers = [] ∧
      v.process.getD .setup = .setup := by
  have hno : ¬OnlyStops v.requests := by
    intro honly
    rw [hhead] at honly
    cases (onlyStops_cons honly).1
  cases h.stage with
  | idle _ hrequests _ _ => exact absurd hrequests hno
  | starting _ hrequests _ _ _ => exact absurd hrequests hno
  | requested request before after hs hrequests hbefore hafter hanswers hrest =>
      rw [hhead] at hrequests
      cases before with
      | nil =>
          simp only [List.nil_append, List.cons.injEq, Request.startProcess.injEq] at hrequests
          exact ⟨by rw [hrequests.1], hs, hrequests.2 ▸ hafter, hanswers, hrest⟩
      | cons b before =>
          simp only [List.cons_append, List.cons.injEq] at hrequests
          have hstop := (onlyStops_cons hbefore).1
          rw [← hrequests.1] at hstop
          cases hstop
  | running _ _ hrequests _ _ _ _ => exact absurd hrequests hno
  | failed _ _ hrequests _ _ => exact absurd hrequests hno
  | ended _ _ hrequests _ _ => exact absurd hrequests hno

/-- The state of a handle to which an answer is under way. -/
theorem Agrees.pop_answer {a : Answer} {rest : List Answer} (h : Agrees v phase)
    (hhead : v.answers = a :: rest) :
    rest = [] ∧ v.client.state = .running ∧ OnlyStops v.requests ∧
      v.process.getD .setup = .setup ∧
      ((∃ text, a = .processError ⟨.failedToStart, text⟩ ∧ phase = .failed text) ∨
        ∃ packet, a = .processFinished packet ∧
          phase = .ended packet.exitCode packet.stdOut packet.stdErr) := by
  cases h.stage with
  | idle _ _ hanswers _ => simp [hanswers] at hhead
  | starting _ _ hanswers _ _ => simp [hanswers] at hhead
  | requested _ _ _ _ _ _ _ hanswers _ => simp [hanswers] at hhead
  | running _ _ _ hanswers _ _ _ => simp [hanswers] at hhead
  | failed text hs hrequests hanswers hrest =>
      rw [hanswers] at hhead
      cases hhead
      exact ⟨rfl, hs, hrequests, hrest, Or.inl ⟨text, rfl, rfl⟩⟩
  | ended packet hs hrequests hanswers hrest =>
      rw [hanswers] at hhead
      cases hhead
      exact ⟨rfl, hs, hrequests, hrest, Or.inr ⟨packet, rfl, rfl⟩⟩

namespace System

variable {s s' : System} {t u : Token}

def view (s : System) (t : Token) : View where
  client := s.client t
  requests := lane t s.toLauncher ++ lane t s.socket.requests
  answers := lane t s.toClient
  process := s.processes t
  connected := s.socket.isReady
  readyPosted := s.readyPosted t

/-- What has been observed of a handle. -/
def events (s : System) (t : Token) : List Event :=
  lane t s.history

@[simp]
theorem view_record (t u : Token) (e : Event) : (s.record u e).view t = s.view t :=
  rfl

theorem events_record_self (t : Token) (e : Event) :
    (s.record t e).events t = s.events t ++ [e] := by
  simp [events, record]

theorem events_record_of_ne (h : u ≠ t) (e : Event) : (s.record u e).events t = s.events t := by
  simp [events, record, lane_cons_of_ne h]

@[simp]
theorem view_modifyClient_self (t : Token) (f : QbsProcess → QbsProcess) :
    (s.modifyClient t f).view t = { s.view t with client := f (s.client t) } := by
  simp [view, modifyClient]

theorem view_modifyClient_of_ne (h : u ≠ t) (f : QbsProcess → QbsProcess) :
    (s.modifyClient u f).view t = s.view t := by
  simp [view, modifyClient, Function.update_of_ne (Ne.symm h)]

@[simp]
theorem events_modifyClient (t u : Token) (f : QbsProcess → QbsProcess) :
    (s.modifyClient u f).events t = s.events t :=
  rfl

theorem view_sendData_self (hready : s.socket.isReady = true) (t : Token) (r : Request) :
    (s.sendData t r).view t = { s.view t with requests := (s.view t).requests ++ [r] } := by
  simp [view, sendData, hready]

theorem view_sendData_of_ne (h : u ≠ t) (r : Request) : (s.sendData u r).view t = s.view t := by
  unfold sendData
  split
  · simp [view, lane_cons_of_ne h]
  · rfl

@[simp]
theorem events_sendData (t u : Token) (r : Request) : (s.sendData u r).events t = s.events t := by
  unfold sendData
  split <;> rfl

@[simp]
theorem view_setProcess_self (t : Token) (p : Option Process) :
    (s.setProcess t p).view t = { s.view t with process := p } := by
  simp [view, setProcess]

theorem view_setProcess_of_ne (h : u ≠ t) (p : Option Process) :
    (s.setProcess u p).view t = s.view t := by
  simp [view, setProcess, Function.update_of_ne (Ne.symm h)]

@[simp]
theorem events_setProcess (t u : Token) (p : Option Process) :
    (s.setProcess u p).events t = s.events t :=
  rfl

@[simp]
theorem view_sendPacket_self (t : Token) (a : Answer) :
    (s.sendPacket t a).view t = { s.view t with answers := (s.view t).answers ++ [a] } := by
  simp [view, sendPacket]

theorem view_sendPacket_of_ne (h : u ≠ t) (a : Answer) : (s.sendPacket u a).view t = s.view t := by
  simp [view, sendPacket, lane_cons_of_ne h]

@[simp]
theorem events_sendPacket (t u : Token) (a : Answer) : (s.sendPacket u a).events t = s.events t :=
  rfl

/-! ## Other handles -/

/-- Nothing that concerns a handle changes. -/
structure Unaffected (t : Token) (s s' : System) : Prop where
  view : s'.view t = s.view t
  events : s'.events t = s.events t

namespace Unaffected

theorem refl (t : Token) (s : System) : Unaffected t s s :=
  ⟨rfl, rfl⟩

theorem trans {s s' s'' : System} (h : Unaffected t s s') (h' : Unaffected t s' s'') :
    Unaffected t s s'' :=
  ⟨h'.view.trans h.view, h'.events.trans h.events⟩

theorem record (h : u ≠ t) (s : System) (e : Event) : Unaffected t s (s.record u e) :=
  ⟨rfl, events_record_of_ne h e⟩

theorem modifyClient (h : u ≠ t) (s : System) (f : QbsProcess → QbsProcess) :
    Unaffected t s (s.modifyClient u f) :=
  ⟨view_modifyClient_of_ne h f, rfl⟩

theorem sendData (h : u ≠ t) (s : System) (r : Request) : Unaffected t s (s.sendData u r) :=
  ⟨view_sendData_of_ne h r, events_sendData t u r⟩

theorem setProcess (h : u ≠ t) (s : System) (p : Option Process) :
    Unaffected t s (s.setProcess u p) :=
  ⟨view_setProcess_of_ne h p, rfl⟩

theorem sendPacket (h : u ≠ t) (s : System) (a : Answer) : Unaffected t s (s.sendPacket u a) :=
  ⟨view_sendPacket_of_ne h a, rfl⟩

theorem doStart (h : u ≠ t) (s : System) : Unaffected t s (s.doStart u) :=
  (modifyClient h s _).trans (sendData h _ _)

theorem start (h : u ≠ t) (s : System) (request : StartProcessPacket) :
    Unaffected t s (s.start u request) := by
  have hcalled := record h s (.start request)
  unfold System.start
  dsimp only
  split
  · exact (hcalled.trans (modifyClient h _ _)).trans (record h _ _)
  · split
    · exact (hcalled.trans (modifyClient h _ _)).trans (doStart h _)
    · exact hcalled.trans (modifyClient h _ _)

theorem cancel (h : u ≠ t) (s : System) : Unaffected t s (s.cancel u) := by
  unfold System.cancel
  split
  · exact refl t s
  · exact (modifyClient h s _).trans (record h _ _)
  · exact sendData h s _

theorem readyPosted (h : u ≠ t) (s : System) (b : Bool) :
    Unaffected t s { s with readyPosted := Function.update s.readyPosted u b } :=
  ⟨by simp [System.view, Function.update_of_ne (Ne.symm h)], rfl⟩

theorem handleSocketReady (h : u ≠ t) (s : System) : Unaffected t s (s.handleSocketReady u) := by
  have hseen := (modifyClient h s fun p => { p with socketError := false }).trans
    (readyPosted h _ false)
  unfold System.handleSocketReady
  dsimp only
  split
  · exact hseen.trans (doStart h _)
  · exact hseen

theorem handlePacket (h : u ≠ t) (s : System) (a : Answer) : Unaffected t s (s.handlePacket u a) := by
  cases a with
  | processError packet =>
      simp only [System.handlePacket, handleErrorPacket]
      split
      · exact record h s _
      · exact (modifyClient h s _).trans (record h _ _)
  | processFinished packet =>
      simp only [System.handlePacket, handleFinishedPacket]
      split
      · exact record h s _
      · exact (modifyClient h s _).trans (record h _ _)

theorem forgotten (s : System) (l : List Process) : Unaffected t s { s with forgotten := l } :=
  ⟨rfl, rfl⟩

theorem handleProcessError (h : u ≠ t) (s : System) (p : Process) (error : ProcessError)
    (errorString : String) : Unaffected t s (s.handleProcessError u p error errorString) := by
  unfold System.handleProcessError
  split
  · exact refl t s
  · exact (setProcess h s _).trans (sendPacket h _ _)

theorem cancelProcess (h : u ≠ t) (s : System) (p : Process) :
    Unaffected t s (s.cancelProcess u p) := by
  unfold System.cancelProcess
  split
  · exact (((record h s _).trans (setProcess h _ _)).trans (forgotten _ _)).trans (sendPacket h _ _)
  · exact setProcess h s _

theorem handleRequest (h : u ≠ t) (s : System) (r : Request) :
    Unaffected t s (s.handleRequest u r) := by
  cases r with
  | startProcess packet =>
      simp only [System.handleRequest, handleStartPacket]
      split
      · exact (setProcess h s _).trans (record h _ _)
      · exact (setProcess h s _).trans (record h _ _)
  | stopProcess =>
      simp only [System.handleRequest, handleStopPacket]
      split
      · exact refl t s
      · split
        · exact refl t s
        · exact cancelProcess h s _

end Unaffected

/-! ## The handle itself -/

/-- What is observed of a handle from one state to the next is what the specification
accepts, and the stages agree with the phases. -/
def Simulates (t : Token) (s s' : System) : Prop :=
  ∀ phase, Agrees (s.view t) phase → ∃ new phase', s'.events t = s.events t ++ new ∧
    new.foldlM Phase.next phase = some phase' ∧ Agrees (s'.view t) phase'

theorem simulates_silent (hevents : s'.events t = s.events t)
    (hagrees : ∀ phase, Agrees (s.view t) phase → Agrees (s'.view t) phase) : Simulates t s s' :=
  fun phase h => ⟨[], phase, by simpa using hevents, rfl, hagrees phase h⟩

theorem Unaffected.simulates (h : Unaffected t s s') : Simulates t s s' :=
  simulates_silent h.events fun _ hphase => h.view ▸ hphase

/-- The request to start a process is sent. -/
theorem agrees_doStart (hready : s.socket.isReady = true)
    (hsocket : (s.client t).socketError = false)
    (hrequests : OnlyStops (s.view t).requests) (hanswers : (s.view t).answers = [])
    (hrest : (s.processes t).getD .setup = .setup) :
    Agrees ((s.doStart t).view t) (.requested (s.client t).startPacket) := by
  have hview : (s.doStart t).view t = { s.view t with
      client := { s.client t with state := .running }
      requests := (s.view t).requests ++ [.startProcess (s.client t).startPacket] } := by
    unfold doStart
    rw [view_sendData_self (by exact hready), view_modifyClient_self]
  rw [hview]
  exact ⟨hsocket, fun _ => hready, .requested _ _ [] rfl rfl hrequests onlyStops_nil hanswers hrest⟩

theorem simulates_start (hstate : (s.client t).state = .notRunning) (request : StartProcessPacket) :
    Simulates t s (s.start t request) := by
  intro phase h
  have hsocket : (s.client t).socketError = false := h.socketError
  rcases h.of_notRunning hstate with ⟨rfl, hrequests, hanswers, hrest⟩
  refine ⟨[.start request], .requested request, ?_, by simp [Phase.next], ?_⟩
  · simp only [System.start, hsocket, Bool.false_eq_true, if_false]
    split
    · rw [doStart, events_sendData, events_modifyClient, events_modifyClient, events_record_self]
    · rw [events_modifyClient, events_record_self]
  · simp only [System.start, hsocket, Bool.false_eq_true, if_false]
    split <;> rename_i hready
    · have hsent := agrees_doStart (s := (s.record t (.start request)).modifyClient t fun p =>
        { p with
          command := request.command
          arguments := request.arguments
          environment := request.env
          workingDirectory := request.workingDir
          state := .starting }) (t := t) hready (by simp [modifyClient, record, hsocket])
        (by rw [view_modifyClient_self]; exact hrequests)
        (by rw [view_modifyClient_self]; exact hanswers) hrest
      simpa [modifyClient, QbsProcess.startPacket] using hsent
    · rw [view_modifyClient_self]
      refine ⟨hsocket, h.connected, .starting rfl hrequests hanswers hrest fun hconnected => ?_⟩
      exact absurd hconnected hready

theorem simulates_cancel : Simulates t s (s.cancel t) := by
  intro phase h
  unfold System.cancel
  split <;> rename_i hstate
  · exact ⟨[], phase, by simp, rfl, h⟩
  · rcases h.of_starting hstate with ⟨rfl, hrequests, hanswers, hrest⟩
    refine ⟨_, .idle, events_record_self t _, by simp [modifyClient, Phase.next], ?_⟩
    rw [emitErrorOccurred, view_record, view_modifyClient_self]
    exact ⟨h.socketError, h.connected, .idle rfl hrequests hanswers hrest⟩
  · refine ⟨[], phase, by simp, rfl, ?_⟩
    by_cases hready : s.socket.isReady = true
    · rw [view_sendData_self hready]
      refine ⟨h.socketError, h.connected, ?_⟩
      cases h.stage with
      | idle hs _ _ _ =>
          have hs : (s.client t).state = .notRunning := hs
          simp [hs] at hstate
      | starting hs _ _ _ _ =>
          have hs : (s.client t).state = .starting := hs
          simp [hs] at hstate
      | requested request before after hs hrequests hbefore hafter hanswers hrest =>
          refine .requested request before (after ++ [.stopProcess]) hs ?_ hbefore
            (onlyStops_snoc hafter) hanswers hrest
          simp [hrequests]
      | running p hs hrequests hanswers hprocess hruns hsilent =>
          exact .running p hs (onlyStops_snoc hrequests) hanswers hprocess hruns hsilent
      | failed text hs hrequests hanswers hrest =>
          exact .failed text hs (onlyStops_snoc hrequests) hanswers hrest
      | ended packet hs hrequests hanswers hrest =>
          exact .ended packet hs (onlyStops_snoc hrequests) hanswers hrest
    · have hsame : s.sendData t .stopProcess = s := by
        simp [sendData, hready]
      rw [hsame]
      exact h

theorem simulates_handleSocketReady (hposted : s.readyPosted t = true) :
    Simulates t s (s.handleSocketReady t) := by
  intro phase h
  have hsocket : (s.client t).socketError = false := h.socketError
  have hready : s.socket.isReady = true := h.connected hposted
  have hview : ({ s.modifyClient t (fun p => { p with socketError := false }) with
      readyPosted := Function.update s.readyPosted t false } : System).view t =
      { s.view t with
        client := { s.client t with socketError := false }
        readyPosted := false } := by
    simp [view, modifyClient]
  unfold handleSocketReady
  dsimp only
  split <;> rename_i hstate
  · rcases h.of_starting hstate with ⟨rfl, hrequests, hanswers, hrest⟩
    refine ⟨[], _, ?_, rfl, ?_⟩
    · rw [doStart, events_sendData, events_modifyClient, List.append_nil]
      rfl
    · have hsent := agrees_doStart (s := { s.modifyClient t (fun p => { p with
          socketError := false }) with readyPosted := Function.update s.readyPosted t false })
        (t := t) hready (by simp [modifyClient]) (by rw [hview]; exact hrequests)
        (by rw [hview]; exact hanswers) hrest
      simpa [modifyClient, QbsProcess.startPacket, view] using hsent
  · refine ⟨[], phase, by simp [events, modifyClient], rfl, ?_⟩
    rw [hview]
    exact ⟨rfl, fun hp => (by cases hp), h.stage.connection fun hs => absurd hs hstate⟩

/-- The connection is made while no handle is past the stage of starting. -/
theorem simulates_setSocket : Simulates t s s.setSocket := by
  intro phase h
  unfold setSocket
  split
  · exact ⟨[], phase, by simp, rfl, h⟩
  · exact ⟨[], phase, by simp [events], rfl, h.socketError, fun _ => rfl,
      h.stage.connection fun _ _ => rfl⟩

theorem simulates_handleRequests : Simulates t s s.handleRequests := by
  apply Unaffected.simulates
  unfold handleRequests
  split
  · exact ⟨by simp [view], rfl⟩
  · exact ⟨rfl, rfl⟩

/-! ### The launcher -/

/-- A step of the stop procedure of a process that is being run. -/
theorem simulates_cancelProcess {p q : Process} (hprocess : s.processes t = some p)
    (hruns : p.state ≠ .notRunning) (hstate : q.state = p.state) (hout : q.stdOut = p.stdOut)
    (herr : q.stdErr = p.stdErr) : Simulates t s (s.cancelProcess t q) := by
  intro phase h
  have hbusy : (s.view t).process.getD .setup ≠ .setup := by
    intro hsetup
    have hp : p = .setup := by simpa [view, hprocess] using hsetup
    exact hruns (by rw [hp]; rfl)
  rcases h.of_process hbusy with ⟨p', hp', -, rfl, hs, hrequests, hanswers, hsilent⟩
  have hsame : p' = p := by
    have hboth : some p' = some p := hp'.symm.trans hprocess
    simpa using hboth
  subst hsame
  have hkeep : ∀ r : Process, r.state = p'.state → r.stdOut = p'.stdOut → r.stdErr = p'.stdErr →
      Agrees ((s.setProcess t (some r)).view t) (.running p'.stdOut p'.stdErr) := by
    intro r hr hrout hrerr
    rw [view_setProcess_self, ← hrout, ← hrerr]
    refine ⟨h.socketError, h.connected, .running r hs hrequests hanswers rfl (hr ▸ hruns) ?_⟩
    rw [hr, hrout, hrerr]
    exact hsilent
  unfold cancelProcess
  cases hstop : q.stopState with
  | inactive =>
      simp only [Process.cancel, hstop]
      exact ⟨[], _, by simp, rfl, hkeep _ hstate hout herr⟩
  | terminating =>
      simp only [Process.cancel, hstop]
      exact ⟨[], _, by simp, rfl, hkeep _ hstate hout herr⟩
  | killing =>
      simp only [Process.cancel, hstop]
      refine ⟨[.givenUp], .ended (-1) q.stdOut q.stdErr, ?_, by simp [Phase.next, hout, herr], ?_⟩
      · rw [handleStopFailure, events_sendPacket]
        exact events_record_self t .givenUp
      · rw [handleStopFailure, view_sendPacket_self]
        refine ⟨h.socketError, h.connected,
          .ended ⟨"", q.stdOut, q.stdErr, .crashExit, .crashed, -1⟩ hs hrequests ?_ ?_⟩
        · change (s.view t).answers ++ [_] = [_]
          rw [hanswers]
          rfl
        · simp [view, setProcess]

theorem Simulates.after_silent {r : System} (hevents : r.events t = s.events t)
    (hagrees : ∀ phase, Agrees (s.view t) phase → Agrees (r.view t) phase)
    (h : Simulates t r s') : Simulates t s s' := by
  intro phase hphase
  rcases h phase (hagrees phase hphase) with ⟨new, phase', hnew, hnext, h'⟩
  exact ⟨new, phase', by rw [hnew, hevents], hnext, h'⟩

theorem simulates_handleStopPacket : Simulates t s (s.handleStopPacket t) := by
  unfold handleStopPacket
  split
  · exact simulates_silent rfl fun _ h => h
  · rename_i p hprocess
    split <;> rename_i hstate
    · exact simulates_silent rfl fun _ h => h
    · exact simulates_cancelProcess hprocess hstate rfl rfl rfl

/-- A request that arrives finds the process object as it should be. -/
theorem simulates_deliverRequest {r : Request} {rest : List (Token × Request)}
    (hhead : s.toLauncher = (t, r) :: rest) :
    Simulates t s ({ s with toLauncher := rest }.handleRequest t r) := by
  have hrequests : (s.view t).requests = r :: ({ s with toLauncher := rest }.view t).requests := by
    simp [view, hhead]
  cases r with
  | stopProcess =>
      refine Simulates.after_silent (r := { s with toLauncher := rest }) rfl (fun phase h => ?_)
        simulates_handleStopPacket
      exact h.pop_stop hrequests
  | startProcess packet =>
      intro phase h
      rcases h.pop_start hrequests with ⟨rfl, hs, honly, hanswers, hrest⟩
      have hsetup : ({ s with toLauncher := rest } : System).process t = .setup := hrest
      have hidle : Process.setup.state = .notRunning := rfl
      simp only [handleRequest, handleStartPacket, hsetup, hidle, ne_eq, not_true_eq_false, if_false]
      refine ⟨[.launched packet], .running [] [], events_record_self t _, by simp [Phase.next], ?_⟩
      rw [view_record, view_setProcess_self]
      exact ⟨h.socketError, h.connected, .running { Process.setup with state := .starting } hs honly
        hanswers rfl (by simp) fun _ => ⟨rfl, rfl⟩⟩

/-- An error that arrives while the handle is running is passed on. -/
theorem handleErrorPacket_of_running (hstate : (s.client t).state = .running)
    (packet : ProcessErrorPacket) :
    (s.handleErrorPacket t packet).events t =
        s.events t ++ [.errorOccurred packet.error packet.errorString] ∧
      (s.handleErrorPacket t packet).view t = { s.view t with
        client := { s.client t with
          error := packet.error
          errorString := packet.errorString
          state := .notRunning } } := by
  unfold handleErrorPacket
  rw [if_neg (by simp [hstate]), emitErrorOccurred, events_record_self, view_record,
    view_modifyClient_self]
  exact ⟨by simp [modifyClient, events], rfl⟩

/-- The end of the process that arrives while the handle is running is passed on. -/
theorem handleFinishedPacket_of_running (hstate : (s.client t).state = .running)
    (packet : ProcessFinishedPacket) :
    (s.handleFinishedPacket t packet).events t =
        s.events t ++ [.finished packet.exitCode packet.stdOut packet.stdErr] ∧
      (s.handleFinishedPacket t packet).view t = { s.view t with
        client := { s.client t with
          state := .notRunning
          exitCode := packet.exitCode
          stdOut := packet.stdOut
          stdErr := packet.stdErr
          errorString := packet.errorString } } := by
  unfold handleFinishedPacket
  rw [if_neg (by simp [hstate]), events_record_self, view_record, view_modifyClient_self]
  exact ⟨rfl, rfl⟩

/-- An answer that arrives finds the handle running. -/
theorem simulates_deliverAnswer {a : Answer} {rest : List (Token × Answer)}
    (hhead : s.toClient = (t, a) :: rest) :
    Simulates t s ({ s with toClient := rest }.handlePacket t a) := by
  intro phase h
  have hanswers : (s.view t).answers = a :: ({ s with toClient := rest }.view t).answers := by
    simp [view, hhead]
  rcases h.pop_answer hanswers with ⟨hnil, hs, hrequests, hrest, hcases⟩
  have hstate : (({ s with toClient := rest } : System).client t).state = .running := hs
  rcases hcases with ⟨text, rfl, rfl⟩ | ⟨packet, rfl, rfl⟩
  · rcases handleErrorPacket_of_running hstate ⟨.failedToStart, text⟩ with ⟨hevents, hview⟩
    refine ⟨_, .idle, hevents, by simp [Phase.next], ?_⟩
    rw [handlePacket, hview]
    exact ⟨h.socketError, h.connected, .idle rfl hrequests hnil hrest⟩
  · rcases handleFinishedPacket_of_running hstate packet with ⟨hevents, hview⟩
    refine ⟨_, .idle, hevents, by simp [Phase.next], ?_⟩
    rw [handlePacket, hview]
    exact ⟨h.socketError, h.connected, .idle rfl hrequests hnil hrest⟩

/-! ### Processes -/

theorem process_eq {p : Process} (hprocess : s.processes t = some p) : s.process t = p := by
  simp [process, hprocess]

/-- A process that is not at rest is being run for the handle. -/
theorem simulates_busy (hbusy : s.process t ≠ .setup)
    (h : ∀ p, s.processes t = some p → p.state ≠ .notRunning →
      (p.state = .starting → p.stdOut = [] ∧ p.stdErr = []) → (s.client t).state = .running →
      OnlyStops (s.view t).requests → (s.view t).answers = [] → (s.client t).socketError = false →
      (s.readyPosted t = true → s.socket.isReady = true) →
      ∃ new phase', s'.events t = s.events t ++ new ∧
        new.foldlM Phase.next (.running p.stdOut p.stdErr) = some phase' ∧
        Agrees (s'.view t) phase') : Simulates t s s' := by
  intro phase hphase
  rcases hphase.of_process hbusy with ⟨p, hp, hruns, rfl, hs, hrequests, hanswers, hsilent⟩
  exact h p hp hruns hsilent hs hrequests hanswers hphase.socketError hphase.connected

theorem ne_setup_of_state {p : Process} (h : p.state ≠ .notRunning) : p ≠ .setup := by
  rintro rfl
  exact h rfl

theorem simulates_processStarted (hstate : (s.process t).state = .starting) :
    Simulates t s (s.setProcess t (some { s.process t with state := .running })) := by
  apply simulates_busy (ne_setup_of_state (by rw [hstate]; decide))
  intro p hp _ _ hs hrequests hanswers hsocket hconnected
  refine ⟨[], _, by simp, rfl, ?_⟩
  rw [view_setProcess_self, process_eq hp]
  exact ⟨hsocket, hconnected, .running { p with state := .running } hs hrequests hanswers rfl
    (by simp) (by simp)⟩

theorem simulates_processOutput (hstate : (s.process t).state = .running)
    (stdOut stdErr : QByteArray) :
    Simulates t s (s.perform (.processOutput t stdOut stdErr)) := by
  apply simulates_busy (ne_setup_of_state (by rw [hstate]; decide))
  intro p hp hruns _ hs hrequests hanswers hsocket hconnected
  have hp' := process_eq hp
  rw [hp'] at hstate
  refine ⟨[.output stdOut stdErr], _, ?_, by simp [Phase.next]; rfl, ?_⟩
  · rw [perform, events_setProcess, events_record_self]
  · rw [perform, view_setProcess_self, hp']
    exact ⟨hsocket, hconnected, .running
      { p with stdOut := p.stdOut ++ stdOut, stdErr := p.stdErr ++ stdErr } hs hrequests hanswers
      rfl hruns (by simp [hstate])⟩

/-- A process that could not be started is answered with an error. -/
theorem simulates_processFailedToStart (hstate : (s.process t).state = .starting) (text : String) :
    Simulates t s (s.perform (.processFailedToStart t text)) := by
  apply simulates_busy (ne_setup_of_state (by rw [hstate]; decide))
  intro p hp _ hsilent hs hrequests hanswers hsocket hconnected
  have hp' := process_eq hp
  rw [hp'] at hstate
  rcases hsilent hstate with ⟨hout, herr⟩
  refine ⟨[.failedToStart text], .failed text, ?_, by simp [Phase.next], ?_⟩
  · simp only [perform, handleProcessError, ne_eq, not_true_eq_false, if_false, events_sendPacket,
      events_setProcess, events_record_self]
  · simp only [perform, handleProcessError, ne_eq, not_true_eq_false, if_false,
      view_sendPacket_self, view_setProcess_self, view_record, hanswers, List.nil_append]
    refine ⟨hsocket, hconnected, .failed text hs hrequests rfl ?_⟩
    simp [Process.stopStopProcedure, hp', hout, herr, Process.setup]

/-- A process that has finished is answered with its exit code and output. -/
theorem simulates_processFinished (hstate : (s.process t).state = .running) (exitCode : Int)
    (exitStatus : ExitStatus) (error : ProcessError) (text : String) :
    Simulates t s (s.perform (.processFinished t exitCode exitStatus error text)) := by
  apply simulates_busy (ne_setup_of_state (by rw [hstate]; decide))
  intro p hp _ _ hs hrequests hanswers hsocket hconnected
  have hp' := process_eq hp
  refine ⟨[.ended exitCode], .ended exitCode p.stdOut p.stdErr, ?_, by simp [Phase.next], ?_⟩
  · simp only [perform, handleProcessFinished, events_sendPacket, events_setProcess,
      events_record_self]
  · simp only [perform, handleProcessFinished, view_sendPacket_self, view_setProcess_self,
      view_record, hanswers, List.nil_append, hp']
    exact ⟨hsocket, hconnected, .ended ⟨text, p.stdOut, p.stdErr, exitStatus, error, exitCode⟩ hs
      hrequests rfl rfl⟩

theorem simulates_stopTimeout (hactive : (s.process t).stopTimerActive = true) :
    Simulates t s (s.perform (.stopTimeout t)) := by
  intro phase h
  have hbusy : s.process t ≠ .setup := by
    intro hsetup
    rw [hsetup] at hactive
    cases hactive
  rcases h.of_process hbusy with ⟨p, hp, hruns, -⟩
  have hp' : s.processes t = some p := hp
  have hEq := process_eq hp'
  exact simulates_cancelProcess hp' hruns (by rw [hEq]) (by rw [hEq]) (by rw [hEq]) phase h

/-- Each action is a step of the specification for each handle. -/
theorem simulates_perform {a : Action} (henabled : s.enabled a = true) (t : Token) :
    Simulates t s (s.perform a) := by
  cases a with
  | start u request =>
      by_cases hu : u = t
      · subst hu
        exact simulates_start (by simpa [enabled] using henabled) request
      · exact (Unaffected.start hu s request).simulates
  | cancel u =>
      by_cases hu : u = t
      · subst hu
        exact simulates_cancel
      · exact (Unaffected.cancel hu s).simulates
  | setSocket => exact simulates_setSocket
  | socketReady u =>
      by_cases hu : u = t
      · subst hu
        exact simulates_handleSocketReady henabled
      · exact (Unaffected.handleSocketReady hu s).simulates
  | handleRequests => exact simulates_handleRequests
  | deliverRequest =>
      cases hhead : s.toLauncher with
      | nil => simp [enabled, hhead] at henabled
      | cons x rest =>
          rcases x with ⟨u, r⟩
          simp only [perform, hhead]
          by_cases hu : u = t
          · subst hu
            exact simulates_deliverRequest hhead
          · refine Unaffected.simulates (.trans ?_ (.handleRequest hu _ r))
            exact ⟨by simp [view, hhead, lane_cons_of_ne hu], rfl⟩
  | deliverAnswer =>
      cases hhead : s.toClient with
      | nil => simp [enabled, hhead] at henabled
      | cons x rest =>
          rcases x with ⟨u, a⟩
          simp only [perform, hhead]
          by_cases hu : u = t
          · subst hu
            exact simulates_deliverAnswer hhead
          · refine Unaffected.simulates (.trans ?_ (.handlePacket hu _ a))
            exact ⟨by simp [view, hhead, lane_cons_of_ne hu], rfl⟩
  | processStarted u =>
      by_cases hu : u = t
      · subst hu
        exact simulates_processStarted (of_decide_eq_true henabled)
      · exact (Unaffected.setProcess hu s _).simulates
  | processFailedToStart u text =>
      by_cases hu : u = t
      · subst hu
        exact simulates_processFailedToStart (of_decide_eq_true henabled) text
      · exact ((Unaffected.record hu s _).trans (.handleProcessError hu _ _ _ _)).simulates
  | processError u error text =>
      have herror : error ≠ .failedToStart := by
        simp only [enabled, Bool.and_eq_true, decide_eq_true_eq] at henabled
        exact henabled.2
      have hsame : s.perform (.processError u error text) = s := by
        simp [perform, handleProcessError, herror]
      rw [hsame]
      exact simulates_silent rfl fun _ h => h
  | processOutput u stdOut stdErr =>
      by_cases hu : u = t
      · subst hu
        exact simulates_processOutput (of_decide_eq_true henabled) stdOut stdErr
      · exact ((Unaffected.record hu s _).trans (.setProcess hu _ _)).simulates
  | processFinished u exitCode exitStatus error text =>
      by_cases hu : u = t
      · subst hu
        exact simulates_processFinished (of_decide_eq_true henabled) exitCode
          exitStatus error text
      · exact (((Unaffected.record hu s _).trans (.setProcess hu _ _)).trans
          (.sendPacket hu _ _)).simulates
  | stopTimeout u =>
      by_cases hu : u = t
      · subst hu
        exact simulates_stopTimeout henabled
      · exact (Unaffected.cancelProcess hu s _).simulates
  | forgottenTimeout index => exact (Unaffected.forgotten s _).simulates

/-! ## Runs -/

/-- After every run the history of each handle is accepted. -/
theorem agrees_of_run {trace : List (System × Action)}
    (hrun : TransitionSystem.Run Step initial trace s) (t : Token) :
    ∃ phase, phaseAfter (s.events t) = some phase ∧ Agrees (s.view t) phase := by
  refine hrun.invariant
    (P := fun s => ∃ phase, phaseAfter (s.events t) = some phase ∧ Agrees (s.view t) phase)
    (fun _ _ => True) ?_ ?_ fun _ _ => trivial
  · rintro s a s' ⟨phase, hphase, hagrees⟩ - ⟨henabled, rfl⟩
    rcases simulates_perform henabled t phase hagrees with ⟨new, phase', hnew, hnext, hagrees'⟩
    refine ⟨phase', ?_, hagrees'⟩
    rw [hnew, phaseAfter_append, hphase]
    exact hnext
  · exact ⟨.idle, rfl, rfl, fun h => (by cases h), .idle rfl onlyStops_nil rfl rfl⟩

/-- Requests that are queued will be written. -/
def RequestsPosted (s : System) : Prop :=
  s.socket.requests ≠ [] → s.socket.isReady = true ∧ s.socket.requestsPosted = true

section RequestsPosted

theorem requestsPosted_of_socket (h : s.RequestsPosted) (hsocket : s'.socket = s.socket) :
    s'.RequestsPosted := by
  unfold RequestsPosted
  rw [hsocket]
  exact h

theorem RequestsPosted.sendData (h : s.RequestsPosted) (t : Token) (r : Request) :
    (s.sendData t r).RequestsPosted := by
  unfold System.sendData
  split <;> rename_i hready
  · intro _
    refine ⟨hready, ?_⟩
    cases hrequests : s.socket.requests with
    | nil => simp
    | cons x l =>
        have hposted := (h (by simp [hrequests])).2
        simp [hposted]
  · exact h

theorem RequestsPosted.doStart (h : s.RequestsPosted) (t : Token) :
    (s.doStart t).RequestsPosted :=
  RequestsPosted.sendData (s := s.modifyClient t fun p => { p with state := .running }) h t _

theorem socket_cancelProcess (t : Token) (p : Process) :
    (s.cancelProcess t p).socket = s.socket := by
  unfold cancelProcess
  split <;> rfl

theorem socket_handleRequest (t : Token) (r : Request) : (s.handleRequest t r).socket = s.socket := by
  cases r with
  | startProcess packet =>
      simp only [handleRequest, handleStartPacket]
      split <;> rfl
  | stopProcess =>
      simp only [handleRequest, handleStopPacket]
      split
      · rfl
      · split
        · rfl
        · exact socket_cancelProcess t _

theorem socket_handlePacket (t : Token) (a : Answer) : (s.handlePacket t a).socket = s.socket := by
  cases a with
  | processError packet =>
      simp only [handlePacket, handleErrorPacket]
      split <;> rfl
  | processFinished packet =>
      simp only [handlePacket, handleFinishedPacket]
      split <;> rfl

theorem socket_handleProcessError (t : Token) (p : Process) (error : ProcessError) (text : String) :
    (s.handleProcessError t p error text).socket = s.socket := by
  unfold handleProcessError
  split <;> rfl

theorem RequestsPosted.perform (h : s.RequestsPosted) (a : Action) :
    (s.perform a).RequestsPosted := by
  cases a with
  | start t request =>
      simp only [System.perform, System.start]
      split
      · exact h
      · split
        · exact RequestsPosted.doStart
            (s := (s.record t (.start request)).modifyClient t fun p => { p with
              command := request.command
              arguments := request.arguments
              environment := request.env
              workingDirectory := request.workingDir
              state := .starting }) h t
        · exact h
  | cancel t =>
      simp only [System.perform, System.cancel]
      split
      · exact h
      · exact h
      · exact h.sendData t .stopProcess
  | setSocket =>
      simp only [System.perform, setSocket]
      split
      · exact h
      · exact fun hrequests => ⟨rfl, (h hrequests).2⟩
  | socketReady t =>
      simp only [System.perform, handleSocketReady]
      split
      · exact RequestsPosted.doStart
          (s := { s.modifyClient t (fun p => { p with socketError := false }) with
            readyPosted := Function.update s.readyPosted t false }) h t
      · exact h
  | handleRequests =>
      simp only [System.perform, System.handleRequests]
      split <;> rename_i hready
      · exact fun hrequests => absurd rfl hrequests
      · exact fun hrequests => absurd (h hrequests).1 hready
  | deliverRequest =>
      simp only [System.perform]
      split
      · exact h
      · exact requestsPosted_of_socket h (socket_handleRequest _ _)
  | deliverAnswer =>
      simp only [System.perform]
      split
      · exact h
      · exact requestsPosted_of_socket h (socket_handlePacket _ _)
  | processStarted t => exact h
  | processFailedToStart t text =>
      exact requestsPosted_of_socket h (socket_handleProcessError _ _ _ _)
  | processError t error text =>
      exact requestsPosted_of_socket h (socket_handleProcessError _ _ _ _)
  | processOutput t stdOut stdErr => exact h
  | processFinished t exitCode exitStatus error text => exact h
  | stopTimeout t => exact requestsPosted_of_socket h (socket_cancelProcess _ _)
  | forgottenTimeout index => exact h

end RequestsPosted

/-- A handle has nothing to wait for: the connection is there, no packet of it is under way,
and its process has ended or was given up. -/
structure Settled (s : System) (t : Token) : Prop where
  isReady : s.socket.isReady = true
  readyPosted : s.readyPosted t = false
  requests : ∀ r, (t, r) ∉ s.socket.requests
  toLauncher : ∀ r, (t, r) ∉ s.toLauncher
  toClient : ∀ a, (t, a) ∉ s.toClient
  process : (s.process t).state = .notRunning

/-- A settled handle is idle. -/
theorem Settled.idle (h : s.Settled t) {phase : Phase} (hagrees : Agrees (s.view t) phase) :
    phase = .idle := by
  have hrequests : (s.view t).requests = [] := by
    simp only [view, (lane_eq_nil_iff t _).mpr h.toLauncher, (lane_eq_nil_iff t _).mpr h.requests,
      List.append_nil]
  have hanswers : (s.view t).answers = [] := (lane_eq_nil_iff t _).mpr h.toClient
  cases hagrees.stage with
  | idle _ _ _ _ => rfl
  | starting _ _ _ _ hready =>
      have hposted := hready h.isReady
      have hnot : (s.view t).readyPosted = false := h.readyPosted
      rw [hnot] at hposted
      cases hposted
  | requested request before after _ hreq _ _ _ _ => simp [hrequests] at hreq
  | running p _ _ _ hprocess hruns _ =>
      have hstate := h.process
      rw [process_eq (show s.processes t = some p from hprocess)] at hstate
      exact absurd hstate hruns
  | failed _ _ _ hans _ => simp [hanswers] at hans
  | ended _ _ _ hans _ => simp [hanswers] at hans

/-- In every run the history of each handle consists of answered calls and at most one open
call, and there is no open call once nothing is left to wait for.  No request to start a
process finds the old one running, no assertion fails, and no queued request is forgotten. -/
theorem calls_answered {trace : List (System × Action)}
    (hrun : TransitionSystem.Run Step initial trace s) (t : Token) :
    (∃ (calls : List (List Event)) (rest : List Event) (phase : Phase),
      s.events t = calls.flatten ++ rest ∧ (∀ call, call ∈ calls → AnsweredCall call) ∧
        OpenCall phase rest ∧ (s.Settled t → rest = [])) ∧
      .startRefused ∉ s.events t ∧ .assertionFailed ∉ s.events t ∧ s.RequestsPosted := by
  rcases agrees_of_run hrun t with ⟨phase, hphase, hagrees⟩
  rcases calls_of_phaseAfter hphase with ⟨calls, rest, hevents, hcalls, hopen⟩
  refine ⟨⟨calls, rest, phase, hevents, hcalls, hopen, fun hsettled => ?_⟩, ?_, ?_, ?_⟩
  · have hidle := hsettled.idle hagrees
    subst hidle
    cases hopen
    rfl
  · exact (no_complaint hphase).1
  · exact (no_complaint hphase).2
  · refine hrun.invariant (P := RequestsPosted) (fun _ _ => True) ?_ (fun h => absurd rfl h)
      fun _ _ => trivial
    rintro s a s' h - ⟨-, rfl⟩
    exact h.perform a

/-! ## A run -/

/-- A sequence of actions. -/
def performAll : List Action → System → System
  | [], s => s
  | a :: as, s => performAll as (s.perform a)

/-- Each action of a sequence can occur. -/
def allEnabled : List Action → System → Bool
  | [], _ => true
  | a :: as, s => s.enabled a && allEnabled as (s.perform a)

theorem run_performAll (as : List Action) {s₀ s : System} {trace : List (System × Action)}
    (hrun : TransitionSystem.Run Step s₀ trace s) (h : allEnabled as s = true) :
    ∃ trace', TransitionSystem.Run Step s₀ trace' (performAll as s) := by
  induction as generalizing s trace with
  | nil => exact ⟨trace, hrun⟩
  | cons a as ih =>
      simp only [allEnabled, Bool.and_eq_true] at h
      exact ih (.snoc hrun ⟨h.1, rfl⟩) h.2

/-- A process that is killed in vain, and a second one that finishes, while another handle
is cancelled before the connection is there. -/
def sampleActions : List Action :=
  [.start 0 ⟨"cc", [], "/", []⟩, .start 1 ⟨"ld", [], "/", []⟩, .cancel 1, .setSocket,
    .socketReady 0, .socketReady 1, .handleRequests, .deliverRequest, .processStarted 0,
    .cancel 0, .handleRequests, .deliverRequest, .stopTimeout 0, .stopTimeout 0, .deliverAnswer,
    .start 0 ⟨"cc", [], "/", []⟩, .handleRequests, .deliverRequest, .processStarted 0,
    .processOutput 0 [111, 107] [], .processFinished 0 0 .normalExit .unknownError "",
    .deliverAnswer]

theorem calls_answered_sample :
    (∃ (calls : List (List Event)) (rest : List Event) (phase : Phase),
      (performAll sampleActions initial).events 0 = calls.flatten ++ rest ∧
        (∀ call, call ∈ calls → AnsweredCall call) ∧ OpenCall phase rest ∧
          ((performAll sampleActions initial).Settled 0 → rest = [])) ∧
      .startRefused ∉ (performAll sampleActions initial).events 0 ∧
      .assertionFailed ∉ (performAll sampleActions initial).events 0 ∧
      (performAll sampleActions initial).RequestsPosted := by
  have henabled : allEnabled sampleActions initial = true := by decide
  rcases run_performAll sampleActions .nil henabled with ⟨trace, hrun⟩
  exact calls_answered hrun 0

/-- The end of the second process of the run is reported for the second call. -/
example : (performAll sampleActions initial).events 0 =
    [.start ⟨"cc", [], "/", []⟩, .launched ⟨"cc", [], "/", []⟩, .givenUp, .finished (-1) [] [],
      .start ⟨"cc", [], "/", []⟩, .launched ⟨"cc", [], "/", []⟩, .output [111, 107] [], .ended 0,
      .finished 0 [111, 107] []] := by
  decide

end System

end Launcher

end Qbs
