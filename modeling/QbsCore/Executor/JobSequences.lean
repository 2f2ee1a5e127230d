import QbsCore.Executor.JobMemory
import QbsCore.Library.TransitionSystem

/-!
# Sequences of commands of a job

A job whose earlier commands have neither failed to start nor timed out nor been cancelled
treats a command like a new job does.

Main results:

- Theorem {lit}`ExecutorJob.memoryless`: the report for a command does not depend on earlier
  undisturbed commands, and a normal exit is a success.
- Theorem {lit}`ExecutorJob.failedStart_remembered`: a process that could not be started makes
  a later process fail.

Current gaps:

- None.
-/

namespace Qbs

namespace ExecutorJob

open Qbs.ExecutorJob.Session

/-! ## Undisturbed commands -/

/-- An event takes a branch that leaves something behind for later commands: the process is
not started, the command exceeds its timeout or the command is cancelled. -/
def disturbs (s : Session) (current : Command) (e : Event) : Bool :=
  match current, e with
  | .process _, .cancel => true
  | .process _, .processWatchdog => s.processExecutor.watchdogActive
  | .process _, .socketError _ => s.processExecutor.process.state ≠ .notRunning
  | .process _, .errorPacket error _ =>
      s.processExecutor.process.state ≠ .notRunning && error ≠ .unknownError
  | .javaScript _, .cancel => s.jsExecutor.running
  | .javaScript _, .jsWatchdog => s.jsExecutor.running && s.jsExecutor.watchdogActive
  | _, _ => false

/-- None of the events that are handled disturbs the current command. -/
def quietEvents (current : Command) : List Event → Session → Bool
  | [], _ => true
  | e :: es, s =>
      s.report.finished.isSome ||
        (!disturbs s current e && quietEvents current es (s.handle current e))

/-- Nothing disturbs a command; a process is not started without a connection. -/
def undisturbed (s : Session) (r : CommandRun) : Bool :=
  match r.command with
  | .process cmd =>
      (cmd.skipped || cmd.setupError.isSome || !s.processExecutor.process.socketError) &&
        quietEvents r.command r.events
          ({ s with report := .empty }.start r.command r.socketReady)
  | .javaScript _ =>
      quietEvents r.command r.events ({ s with report := .empty }.start r.command r.socketReady)

variable {s : Session}

/-- What is kept by all events that do not disturb a command. -/
theorem handleAll_of_quiet {P : Session → Prop} {current : Command}
    (hhandle : ∀ (s : Session) (e : Event), P s → disturbs s current e = false →
      P (s.handle current e)) {es : List Event} {s : Session} (h : P s)
    (hquiet : quietEvents current es s = true) : P (s.handleAll current es) := by
  induction es generalizing s with
  | nil => exact h
  | cons e es ih =>
      simp only [quietEvents, Bool.or_eq_true, Bool.and_eq_true, Bool.not_eq_true'] at hquiet
      simp only [Session.handleAll]
      split <;> rename_i hdone
      · exact h
      · rcases hquiet.resolve_left hdone with ⟨hevent, hrest⟩
        exact ih (hhandle s e h hevent) hrest

/-! ## Undisturbed process commands -/

/-- A process command in the absence of disturbances. -/
structure ProcessQuiet (cmd : ProcessCommand) (s : Session) : Prop where
  command : s.processExecutor.command = some cmd
  jobError : s.error = none
  error : s.processExecutor.process.error = .unknownError
  cancelReason : s.processExecutor.cancelReason = none
  resultConnected : s.processExecutor.resultConnected = true
  executed : s.processExecutor.process.state = .running → s.report.executed = true
  watchdogActive : s.report.finished.isSome = true → s.processExecutor.watchdogActive = false
  js : JsIdle s

namespace ProcessQuiet

variable {cmd : ProcessCommand} {s : Session}

theorem clean (h : ProcessQuiet cmd s) (hdone : s.report.finished.isSome = true) :
    ProcessClean s :=
  ⟨h.error, h.cancelReason, h.resultConnected, h.watchdogActive hdone⟩

theorem processFinished (h : ProcessQuiet cmd s) (err : Option ErrorInfo) :
    ProcessQuiet cmd (s.processFinished err) :=
  ⟨h.command, rfl, h.error, h.cancelReason, h.resultConnected, h.executed, fun _ => rfl,
    h.js.congr rfl⟩

theorem sendProcessOutput (h : ProcessQuiet cmd s)
    (hrunning : s.processExecutor.process.state = .notRunning) :
    ProcessQuiet cmd s.sendProcessOutput := by
  unfold Session.sendProcessOutput
  rw [h.command]
  apply processFinished
  exact ⟨h.command, h.jobError, h.error, h.cancelReason, h.resultConnected,
    fun hr => by simp [hrunning] at hr, h.watchdogActive,
    h.js.congr rfl⟩

theorem onProcessError (h : ProcessQuiet cmd s) : ProcessQuiet cmd s.onProcessError := by
  have hsame : s.onProcessError = s := by
    simp [Session.onProcessError, h.command, h.cancelReason, h.error]
  rw [hsame]
  exact h

theorem with_js (h : ProcessQuiet cmd s) {js : JsCommandExecutor}
    (hjs : JsIdle { s with jsExecutor := js }) : ProcessQuiet cmd { s with jsExecutor := js } :=
  { h with js := hjs }

/-- An event that does not disturb the command keeps this so. -/
theorem handle (h : ProcessQuiet cmd s) {e : Event}
    (hquiet : disturbs s (.process cmd) e = false) :
    ProcessQuiet cmd (s.handle (.process cmd) e) := by
  cases e with
  | socketReady =>
      simp only [Session.handle, handleSocketReady]
      split
      · exact ⟨h.command, h.jobError, h.error, h.cancelReason, h.resultConnected, fun _ => rfl,
          h.watchdogActive, h.js.congr rfl⟩
      · exact ⟨h.command, h.jobError, h.error, h.cancelReason, h.resultConnected, h.executed,
          h.watchdogActive, h.js.congr rfl⟩
  | socketError message =>
      have hstate : s.processExecutor.process.state = .notRunning := by
        simpa [disturbs] using hquiet
      simp only [Session.handle, handleSocketError, hstate, ne_eq, not_true_eq_false, if_false]
      exact ⟨h.command, h.jobError, h.error, h.cancelReason, h.resultConnected, h.executed,
        h.watchdogActive, h.js.congr rfl⟩
  | errorPacket error errorString =>
      simp only [Session.handle, handleErrorPacket]
      split <;> rename_i hstate
      · exact h
      · have herror : error = .unknownError := by
          simpa [disturbs, hstate] using hquiet
        apply onProcessError
        exact ⟨h.command, h.jobError, herror, h.cancelReason, h.resultConnected,
          fun hr => (by cases hr), h.watchdogActive, h.js.congr rfl⟩
  | finishedPacket exitCode errorString =>
      simp only [Session.handle, handleFinishedPacket]
      split
      · apply sendProcessOutput
        · exact ⟨h.command, h.jobError, h.error, h.cancelReason, h.resultConnected,
            fun hr => (by cases hr), h.watchdogActive, h.js.congr rfl⟩
        · rfl
      · exact h
  | processWatchdog =>
      have hactive : s.processExecutor.watchdogActive = false := by
        simpa [disturbs] using hquiet
      simpa [Session.handle, hactive] using h
  | processFinishPosted =>
      simp only [Session.handle, processFinishPosted]
      split
      · apply processFinished
        exact ⟨h.command, h.jobError, h.error, h.cancelReason, h.resultConnected, h.executed,
          h.watchdogActive, h.js.congr rfl⟩
      · exact h
  | cancel => simp [disturbs] at hquiet
  | threadStart => simpa [Session.handle, threadStart, h.js.threadState] using h
  | scriptDone exception => simpa [Session.handle, scriptDone, h.js.threadState] using h
  | threadCancel =>
      rcases threadCancel_idle h.js with ⟨js, hEq, hidle⟩
      simp only [Session.handle, hEq]
      exact h.with_js hidle
  | finishedDelivered =>
      simpa [Session.handle, onJavaScriptCommandFinished, h.js.threadState] using h
  | jsWatchdog =>
      rcases jsWatchdog_idle h.js (.process cmd) with ⟨js, hEq, hidle⟩
      rw [hEq]
      exact h.with_js hidle
  | jsFinishPosted => simpa [Session.handle, jsFinishPosted, h.js.finishPosted] using h

theorem handleAll {es : List Event} {s : Session} (h : ProcessQuiet cmd s)
    (hquiet : quietEvents (.process cmd) es s = true) :
    ProcessQuiet cmd (s.handleAll (.process cmd) es) :=
  handleAll_of_quiet (fun _ _ h hevent => h.handle hevent) h hquiet

/-- A command with a connection starts undisturbed. -/
theorem startProcessCommand (hs : Between s) (hclean : ProcessClean s)
    (hnone : s.report.finished = none) (socketReady : Bool)
    (hsocket : cmd.skipped = true ∨ cmd.setupError.isSome = true ∨
      s.processExecutor.process.socketError = false) :
    ProcessQuiet cmd (s.startProcessCommand cmd socketReady) := by
  have hidle : s.processExecutor.process.state ≠ .running := by
    rw [hs.process.state]
    decide
  unfold Session.startProcessCommand
  dsimp only
  rw [if_neg (by simp [hs.process.state])]
  split <;> rename_i hskipped
  · exact ⟨rfl, hs.error, hclean.error, hclean.cancelReason, hclean.resultConnected,
      fun hr => absurd hr hidle, fun hdone => by simp [hnone] at hdone, hs.js.congr rfl⟩
  · split <;> rename_i hsetup
    · exact ⟨rfl, rfl, hclean.error, hclean.cancelReason, hclean.resultConnected,
        fun hr => absurd hr hidle, fun _ => rfl, hs.js.congr rfl⟩
    · have hconnected := (hsocket.resolve_left hskipped).resolve_left hsetup
      have hstarted : ProcessQuiet cmd (Session.startProcess { s with
          processExecutor := { s.processExecutor with command := some cmd } } socketReady) ∧
          (Session.startProcess { s with processExecutor := { s.processExecutor with
            command := some cmd } } socketReady).report.finished = none := by
        unfold startProcess
        rw [if_neg (by simp [hconnected])]
        dsimp only
        split
        · exact ⟨⟨rfl, hs.error, hclean.error, hclean.cancelReason, hclean.resultConnected,
            fun _ => rfl, fun _ => hclean.watchdogActive, hs.js.congr rfl⟩, hnone⟩
        · exact ⟨⟨rfl, hs.error, hclean.error, hclean.cancelReason, hclean.resultConnected,
            fun hr => (by cases hr), fun _ => hclean.watchdogActive, hs.js.congr rfl⟩, hnone⟩
      split
      · exact hstarted.1
      · rcases hstarted with ⟨hquiet, hfinished⟩
        exact { hquiet with
          watchdogActive := fun hdone => by simp [hfinished] at hdone
          js := hquiet.js.congr rfl }

end ProcessQuiet

/-! ## Undisturbed JavaScript commands -/

/-- A JavaScript command in the absence of disturbances. -/
structure JsQuiet (s : Session) : Prop where
  jobError : s.jsExecutor.running = true → s.error = none
  cancelled : s.jsExecutor.cancelled = false
  postedCancels : s.jsExecutor.postedCancels = []
  executed : s.jsExecutor.threadState = .evaluating ∨ s.jsExecutor.threadState = .finishedPosted →
    s.report.executed = true
  watchdogActive : s.report.finished.isSome = true → s.jsExecutor.watchdogActive = false
  processSuccess : s.report.processSuccess = none
  process : ProcessIdle s

namespace JsQuiet

variable {s : Session}

theorem clean (h : JsQuiet s) (hdone : s.report.finished.isSome = true) : JsClean s :=
  ⟨h.cancelled, h.postedCancels, h.watchdogActive hdone⟩

theorem idle (h : JsQuiet s) {s' : Session} (hs : s'.processExecutor = s.processExecutor) :
    ProcessIdle s' :=
  ⟨hs ▸ h.process.state, hs ▸ h.process.finishPosted⟩

theorem jsFinished (h : JsQuiet s) (err : Option ErrorInfo) : JsQuiet (s.jsFinished err) :=
  ⟨fun _ => rfl, h.cancelled, h.postedCancels, h.executed, fun _ => rfl,
    h.processSuccess, h.idle rfl⟩

/-- An event that does not disturb the command keeps this so. -/
theorem handle (h : JsQuiet s) {cmd : JavaScriptCommand} {e : Event}
    (hquiet : disturbs s (.javaScript cmd) e = false) :
    JsQuiet (s.handle (.javaScript cmd) e) := by
  cases hprocess : e.isForProcess with
  | true =>
      rcases processOnly_handle h.process (.javaScript cmd) hprocess with
        ⟨hreport, herror, hjs, hidle⟩
      refine ⟨?_, hjs ▸ h.cancelled, hjs ▸ h.postedCancels, ?_, ?_,
        hreport ▸ h.processSuccess, hidle⟩
      · rw [hjs, herror]
        exact h.jobError
      · rw [hjs, hreport]
        exact h.executed
      · rw [hjs, hreport]
        exact h.watchdogActive
  | false =>
      cases e with
      | cancel =>
          have hrunning : s.jsExecutor.running = false := by
            simpa [disturbs] using hquiet
          simp only [Session.handle, cancel, cancelJsCommand, hrunning]
          exact ⟨fun hr => by simp [hrunning] at hr, h.cancelled, h.postedCancels, h.executed,
            h.watchdogActive, h.processSuccess,
            h.idle rfl⟩
      | threadStart =>
          simp only [Session.handle, threadStart, h.cancelled, Bool.false_eq_true, if_false]
          split
          · exact ⟨h.jobError, rfl, h.postedCancels, fun _ => rfl, h.watchdogActive, h.processSuccess,
            h.idle rfl⟩
          · exact h
      | scriptDone exception =>
          simp only [Session.handle, scriptDone]
          split <;> rename_i hstate
          · exact ⟨h.jobError, h.cancelled, h.postedCancels, fun _ => h.executed (Or.inl hstate),
              h.watchdogActive, h.processSuccess,
            h.idle rfl⟩
          · exact h
      | threadCancel => simpa [Session.handle, threadCancel, h.postedCancels] using h
      | finishedDelivered =>
          simp only [Session.handle, onJavaScriptCommandFinished]
          split <;> rename_i hstate
          · apply jsFinished
            exact ⟨fun hr => (by cases hr), h.cancelled, h.postedCancels,
              fun hthread => (by rcases hthread with ht | ht <;> cases ht), h.watchdogActive,
              h.processSuccess, h.idle rfl⟩
          · exact h
      | jsWatchdog =>
          simp only [Session.handle]
          split <;> rename_i hactive
          · have hrunning : s.jsExecutor.running = false := by
              simpa [disturbs, hactive] using hquiet
            simp only [cancelJsCommand, hrunning, Bool.false_eq_true, if_false]
            exact ⟨fun hr => (by cases hr), h.cancelled, h.postedCancels, h.executed, fun _ => rfl,
    h.processSuccess, h.idle rfl⟩
          · exact h
      | jsFinishPosted =>
          simp only [Session.handle, jsFinishPosted]
          split
          · apply jsFinished
            exact ⟨h.jobError, h.cancelled, h.postedCancels, h.executed, h.watchdogActive,
              h.processSuccess, h.idle rfl⟩
          · exact h
      | _ => cases hprocess

theorem handleAll {cmd : JavaScriptCommand} {es : List Event} {s : Session} (h : JsQuiet s)
    (hquiet : quietEvents (.javaScript cmd) es s = true) :
    JsQuiet (s.handleAll (.javaScript cmd) es) :=
  handleAll_of_quiet (fun _ _ h hevent => h.handle hevent) h hquiet

theorem startJsCommand (hs : Between s) (hclean : JsClean s) (hreport : s.report = .empty)
    (cmd : JavaScriptCommand) : JsQuiet (s.startJsCommand cmd) := by
  unfold Session.startJsCommand
  rw [if_neg (by simp [hs.js.running])]
  split
  · exact ⟨fun _ => hs.error, hclean.cancelled, hclean.postedCancels,
      fun hthread => by simp [hs.js.threadState] at hthread, fun _ => hclean.watchdogActive,
      by rw [hreport]; rfl, hs.process.congr rfl⟩
  · exact ⟨fun _ => hs.error, hclean.cancelled, hclean.postedCancels,
      fun hthread => by simp at hthread, fun hdone => by simp [hreport, Report.empty] at hdone,
      by rw [hreport]; rfl, hs.process.congr rfl⟩

end JsQuiet

/-! ## One command -/

variable {socketReady : Bool} {events : List Event} {cmd : ProcessCommand}

/-- The start of an undisturbed command that finds its executor clean. -/
theorem processQuiet_start (hs : Between s) (hclean : ProcessClean s)
    (hquiet : undisturbed s ⟨.process cmd, socketReady, events⟩ = true) :
    ProcessQuiet cmd ({ s with report := .empty }.startProcessCommand cmd socketReady) := by
  simp only [undisturbed, Bool.and_eq_true, Bool.or_eq_true, Bool.not_eq_true'] at hquiet
  apply ProcessQuiet.startProcessCommand
  · exact ⟨hs.process.congr rfl, hs.js.congr rfl, hs.error⟩
  · exact ⟨hclean.error, hclean.cancelReason, hclean.resultConnected, hclean.watchdogActive⟩
  · rfl
  · rcases hquiet.1 with (hskipped | hsetup) | hsocket
    · exact Or.inl hskipped
    · exact Or.inr (Or.inl hsetup)
    · exact Or.inr (Or.inr hsocket)

theorem processQuiet_runCommand (hs : Between s) (hclean : ProcessClean s)
    (hquiet : undisturbed s ⟨.process cmd, socketReady, events⟩ = true) :
    ProcessQuiet cmd (runCommand s ⟨.process cmd, socketReady, events⟩) := by
  have hstart := processQuiet_start hs hclean hquiet
  simp only [undisturbed, Bool.and_eq_true] at hquiet
  exact hstart.handleAll hquiet.2

theorem jsQuiet_runCommand (hs : Between s) (hclean : JsClean s) {cmd : JavaScriptCommand}
    (hquiet : undisturbed s ⟨.javaScript cmd, socketReady, events⟩ = true) :
    JsQuiet (runCommand s ⟨.javaScript cmd, socketReady, events⟩) := by
  have hstart : JsQuiet ({ s with report := .empty }.startJsCommand cmd) := by
    apply JsQuiet.startJsCommand
    · exact ⟨hs.process.congr rfl, hs.js.congr rfl, hs.error⟩
    · exact ⟨hclean.cancelled, hclean.postedCancels, hclean.watchdogActive⟩
    · rfl
  exact hstart.handleAll hquiet

/-- An undisturbed command leaves its executor clean. -/
theorem clean_runCommand (hs : Between s) (r : CommandRun) (hclean : Clean s r.command)
    (hquiet : undisturbed s r = true) (hdone : (runCommand s r).report.finished.isSome = true) :
    Clean (runCommand s r) r.command := by
  rcases r with ⟨command, socketReady, events⟩
  cases command with
  | process cmd => exact (processQuiet_runCommand hs hclean hquiet).clean hdone
  | javaScript cmd => exact (jsQuiet_runCommand hs hclean hquiet).clean hdone

/-- A new job is between two commands. -/
theorem between_new : Between Session.new :=
  ⟨⟨rfl, rfl⟩, ⟨rfl, rfl, rfl⟩, rfl⟩

theorem between_renew (s : Session) : Between s.renew :=
  ⟨⟨rfl, rfl⟩, ⟨rfl, rfl, rfl⟩, rfl⟩

theorem clean_new (command : Command) : Clean Session.new command := by
  cases command with
  | process cmd => exact ⟨rfl, rfl, rfl, rfl⟩
  | javaScript cmd => exact ⟨rfl, rfl, rfl⟩

theorem clean_renew (s : Session) (command : Command) : Clean s.renew command := by
  cases command with
  | process cmd => exact ⟨rfl, rfl, rfl, rfl⟩
  | javaScript cmd => exact ⟨rfl, rfl, rfl⟩

/-! ## Normal exits -/

/-- The report for a command that has been executed successfully. -/
def Report.success : Command → Report
  | .process _ => ⟨true, some true, some none⟩
  | .javaScript _ => ⟨true, none, some none⟩

/-- A command exits normally: after undisturbed events its process finishes with an allowed
exit code, or its script has come to its end without an exception. -/
def NormalExit (s : Session) (r : CommandRun) : Prop :=
  ∃ events e, r.events = events ++ [e] ∧
    undisturbed s { r with events } = true ∧
    (runCommand s { r with events }).report.finished = none ∧
    match r.command with
    | .process cmd =>
        (runCommand s { r with events }).processExecutor.process.state = .running ∧
          cmd.outputSaved = true ∧
          ∃ exitCode errorString, e = .finishedPacket exitCode errorString ∧
            toUInt32 exitCode ≤ toUInt32 cmd.maxExitCode
    | .javaScript _ =>
        (runCommand s { r with events }).jsExecutor.threadState = .finishedPosted ∧
          (runCommand s { r with events }).jsExecutor.result.success = true ∧
          e = .finishedDelivered

/-- The last event comes after all others. -/
theorem handleAll_concat (current : Command) (es : List Event) (e : Event)
    (hnone : (s.handleAll current es).report.finished = none) :
    s.handleAll current (es ++ [e]) = (s.handleAll current es).handle current e := by
  induction es generalizing s with
  | nil =>
      have hopen : ¬s.report.finished.isSome = true := by
        simpa [Session.handleAll] using hnone
      simp only [List.nil_append, Session.handleAll, if_neg hopen]
  | cons e' es ih =>
      simp only [List.cons_append, Session.handleAll] at hnone ⊢
      split at hnone <;> rename_i hdone
      · simp [hnone] at hdone
      · rw [if_neg hdone, if_neg hdone]
        exact ih hnone

/-- A process that finishes with an allowed exit code. -/
theorem report_finishedPacket (h : ProcessQuiet cmd s)
    (hrunning : s.processExecutor.process.state = .running) (hsaved : cmd.outputSaved = true)
    {exitCode : Int} (hcode : toUInt32 exitCode ≤ toUInt32 cmd.maxExitCode) (errorString : String) :
    (s.handle (.process cmd) (.finishedPacket exitCode errorString)).report =
      ⟨true, some true, some none⟩ := by
  have hexecuted := h.executed hrunning
  simp only [Session.handle, handleFinishedPacket, hrunning, if_true]
  simp [sendProcessOutput, modifyProcess, h.command, outputError, h.cancelReason, resultError,
    h.error, hsaved, hcode, h.resultConnected, processFinished, onCommandFinished,
    hexecuted, h.jobError]

/-- A script whose end is delivered while its result is a success. -/
theorem report_finishedDelivered {cmd : JavaScriptCommand} (h : JsQuiet s)
    (hrunning : s.jsExecutor.running = true)
    (hfinished : s.jsExecutor.threadState = .finishedPosted)
    (hsuccess : s.jsExecutor.result.success = true) :
    (s.handle (.javaScript cmd) .finishedDelivered).report =
      ⟨true, none, some none⟩ := by
  have hexecuted := h.executed (Or.inr hfinished)
  have herror := h.jobError hrunning
  simp [Session.handle, onJavaScriptCommandFinished, hfinished, jsFinished, onCommandFinished,
    resultErrorInfo, hsuccess, hexecuted, herror, h.processSuccess]

/-- A command that exits normally after its executor has been found clean is a success. -/
theorem report_of_normalExit (hs : Between s) {r : CommandRun} (hclean : Clean s r.command)
    (hexit : NormalExit s r) :
    (runCommand s r).report = Report.success r.command := by
  rcases r with ⟨command, socketReady, all⟩
  rcases hexit with ⟨events, e, hall, hquiet, hnone, hexit⟩
  have hlast : runCommand s ⟨command, socketReady, all⟩ =
      (runCommand s ⟨command, socketReady, events⟩).handle command e := by
    change all = events ++ [e] at hall
    rw [hall]
    exact handleAll_concat command events e hnone
  rw [hlast]
  cases command with
  | process cmd =>
      rcases hexit with ⟨hrunning, hsaved, exitCode, errorString, rfl, hcode⟩
      exact report_finishedPacket (processQuiet_runCommand hs hclean hquiet) hrunning hsaved hcode _
  | javaScript cmd =>
      rcases hexit with ⟨hfinished, hsuccess, rfl⟩
      have hstart : JsRun ({ s with report := .empty }.startJsCommand cmd) := by
        apply JsRun.startJsCommand
        · exact ⟨hs.process.congr rfl, hs.js.congr rfl, hs.error⟩
        · rfl
      have hrun : JsRun (runCommand s ⟨.javaScript cmd, socketReady, events⟩) :=
        handleAll_keeps (fun _ e h hnone => h.handle hnone cmd e) events hstart
      have hrunning := hrun.running_eq fun hidle => by simp [hfinished] at hidle
      exact report_finishedDelivered (jsQuiet_runCommand hs hclean hquiet) hrunning hfinished hsuccess

/-! ## Sequences of commands -/

/-- A command runs after others and finishes. -/
def Step (s : Session) (r : CommandRun) (s' : Session) : Prop :=
  s' = runCommand s r ∧ s'.report.finished.isSome = true

/-- After undisturbed commands of a kind the executor for this kind is clean. -/
theorem clean_of_run {trace : List (Session × CommandRun)}
    (hrun : TransitionSystem.Run Step Session.new trace s) (command : Command)
    (hquiet : ∀ e, e ∈ trace → e.2.command.sameKind command = true → undisturbed e.1 e.2 = true) :
    Between s ∧ Clean s command := by
  refine hrun.invariant (P := fun t => Between t ∧ Clean t command)
    (fun t r => r.command.sameKind command = true → undisturbed t r = true) ?_
    ⟨between_new, clean_new command⟩ hquiet
  rintro t r u ⟨hbetween, hclean⟩ hok ⟨rfl, hdone⟩
  refine ⟨between_runCommand hbetween r hdone, ?_⟩
  cases hkind : r.command.sameKind command with
  | false => exact clean_runCommand_of_not_sameKind hbetween r hkind hclean
  | true =>
      have hown : ∀ u : Session, Clean u r.command ↔ Clean u command := by
        intro u
        cases hr : r.command <;> cases command <;> simp_all [Command.sameKind, Clean]
      exact (hown _).mp (clean_runCommand hbetween r ((hown t).mpr hclean) (hok hkind) hdone)

/-- If no earlier command of its kind has been disturbed, a command is reported as by a new
job, and a command that exits normally is reported as a success and executed. -/
theorem memoryless {trace : List (Session × CommandRun)} {s : Session}
    (hrun : TransitionSystem.Run Step Session.new trace s) (r : CommandRun)
    (hquiet : ∀ e, e ∈ trace → e.2.command.sameKind r.command = true →
      undisturbed e.1 e.2 = true) :
    (runCommand s r).report = (runCommand s.renew r).report ∧
      (NormalExit s.renew r → (runCommand s r).report = Report.success r.command) := by
  rcases clean_of_run hrun r.command hquiet with ⟨hbetween, hclean⟩
  have hEq := runCommand_renew hbetween r hclean
  refine ⟨hEq, fun hexit => ?_⟩
  rw [hEq]
  exact report_of_normalExit (between_renew s) (clean_renew s r.command) hexit

/-! ## Commands that leave something behind -/

/-- A command for the launcher that is allowed to exit with 0 only. -/
def ProcessCommand.sample : ProcessCommand where
  program := "cc"
  errorPrefixString := ""
  shellInvocation := "cc -c a.c"
  maxExitCode := 0
  timeout := -1
  skipped := false
  setupError := none
  outputSaved := true

/-- A process that exits with a code. -/
def exitingRun (exitCode : Int) : CommandRun where
  command := .process .sample
  socketReady := true
  events := [.finishedPacket exitCode ""]

/-- A process that cannot be started. -/
def failingRun : CommandRun where
  command := .process .sample
  socketReady := true
  events := [.errorPacket .failedToStart "No such file or directory"]

/-- A script that comes to its end, after other events. -/
def scriptRun (timeout : Int) (events : List Event) : CommandRun where
  command := .javaScript ⟨timeout, false⟩
  socketReady := true
  events := .threadStart :: events ++ [.scriptDone none, .finishedDelivered]

theorem run_single {r : CommandRun}
    (hdone : (runCommand Session.new r).report.finished.isSome = true) :
    TransitionSystem.Run Step Session.new [(Session.new, r)] (runCommand Session.new r) :=
  show TransitionSystem.Run Step Session.new ([] ++ [(Session.new, r)]) _ from
    .snoc .nil ⟨rfl, hdone⟩

theorem memoryless_afterFailure :
    (runCommand (runCommand Session.new (exitingRun 1)) (exitingRun 0)).report =
      Report.success (.process .sample) := by
  have hexit : NormalExit (runCommand Session.new (exitingRun 1)).renew (exitingRun 0) :=
    ⟨[], .finishedPacket 0 "", rfl, by decide, by decide, by decide, rfl, 0, "", rfl, by decide⟩
  refine (memoryless (run_single (r := exitingRun 1) (by decide)) (exitingRun 0) ?_).2 hexit
  simp only [List.mem_singleton, forall_eq]
  decide

/-- After a process that could not be started a process that exits with 0 is an error, and
after a script that took too long another script is not evaluated. -/
theorem failedStart_remembered :
    TransitionSystem.Run Step Session.new [(Session.new, failingRun)]
        (runCommand Session.new failingRun) ∧
      (runCommand (runCommand Session.new failingRun) (exitingRun 0)).report =
        ⟨true, some false, some (some (.message ""))⟩ ∧
      (runCommand Session.new (exitingRun 0)).report = ⟨true, some true, some none⟩ ∧
      TransitionSystem.Run Step Session.new
        [(Session.new, scriptRun 1 [.jsWatchdog, .threadCancel])]
        (runCommand Session.new (scriptRun 1 [.jsWatchdog, .threadCancel])) ∧
      (runCommand (runCommand Session.new (scriptRun 1 [.jsWatchdog, .threadCancel]))
        (scriptRun (-1) [])).report = ⟨false, none, some (some timeoutReason)⟩ ∧
      (runCommand Session.new (scriptRun (-1) [])).report = ⟨true, none, some none⟩ :=
  ⟨run_single (by decide), by decide, by decide, run_single (by decide), by decide, by decide⟩

end ExecutorJob

end Qbs
