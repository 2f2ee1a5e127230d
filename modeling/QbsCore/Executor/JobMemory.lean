import QbsCore.Executor.JobCommands

/-!
# What a job remembers of its earlier commands

The executors of a job keep an error of a process, a reason for cancelling and a cancelled
thread object, and what they keep decides about later commands.

Main results:

- Theorem {lit}`ExecutorJob.runCommand_renew`: a command that finds its executor clean is
  reported as by a new job.
- Theorem {lit}`ExecutorJob.between_runCommand`: no part of a finished command is left running.

Current gaps:

- None.
-/

namespace Qbs

namespace ExecutorJob

open Qbs.ExecutorJob.Session

/-- A new job whose process handle knows about the same error of the socket. -/
def Session.renew (s : Session) : Session :=
  Session.new.modifyProcess fun p => { p with
    socketError := s.processExecutor.process.socketError
    errorString :=
      if s.processExecutor.process.socketError then s.processExecutor.process.errorString else "" }

/-- No process command is running. -/
structure ProcessIdle (s : Session) : Prop where
  state : s.processExecutor.process.state = .notRunning
  finishPosted : s.processExecutor.finishPosted = false

/-- No JavaScript command is running. -/
structure JsIdle (s : Session) : Prop where
  running : s.jsExecutor.running = false
  threadState : s.jsExecutor.threadState = .idle
  finishPosted : s.jsExecutor.finishPosted = false

/-- The state of a job between two commands. -/
structure Between (s : Session) : Prop where
  process : ProcessIdle s
  js : JsIdle s
  error : s.error = none

/-- Nothing is left of earlier process commands. -/
structure ProcessClean (s : Session) : Prop where
  error : s.processExecutor.process.error = .unknownError
  cancelReason : s.processExecutor.cancelReason = none
  resultConnected : s.processExecutor.resultConnected = true
  watchdogActive : s.processExecutor.watchdogActive = false

/-- Nothing is left of earlier JavaScript commands. -/
structure JsClean (s : Session) : Prop where
  cancelled : s.jsExecutor.cancelled = false
  postedCancels : s.jsExecutor.postedCancels = []
  watchdogActive : s.jsExecutor.watchdogActive = false

variable {s s' : Session}

theorem ProcessIdle.congr (h : ProcessIdle s) (hs : s'.processExecutor = s.processExecutor) :
    ProcessIdle s' :=
  ⟨hs ▸ h.state, hs ▸ h.finishPosted⟩

theorem JsIdle.congr (h : JsIdle s) (hs : s'.jsExecutor = s.jsExecutor) :
    JsIdle s' :=
  ⟨hs ▸ h.running, hs ▸ h.threadState, hs ▸ h.finishPosted⟩

theorem ProcessClean.congr (h : ProcessClean s) (hs : s'.processExecutor = s.processExecutor) :
    ProcessClean s' :=
  ⟨hs ▸ h.error, hs ▸ h.cancelReason, hs ▸ h.resultConnected, hs ▸ h.watchdogActive⟩

theorem JsClean.congr (h : JsClean s) (hs : s'.jsExecutor = s.jsExecutor) :
    JsClean s' :=
  ⟨hs ▸ h.cancelled, hs ▸ h.postedCancels, hs ▸ h.watchdogActive⟩

/-- Nothing is left of earlier commands of the same kind. -/
def Clean (s : Session) : Command → Prop
  | .process _ => ProcessClean s
  | .javaScript _ => JsClean s

/-- What is kept by all events before a command has finished. -/
theorem handleAll_keeps {P : Session → Prop} {current : Command}
    (hhandle : ∀ (s : Session) (e : Event), P s → s.report.finished = none → P (s.handle current e))
    (es : List Event) (h : P s) :
    P (s.handleAll current es) := by
  induction es generalizing s with
  | nil => exact h
  | cons e es ih =>
      simp only [Session.handleAll]
      split <;> rename_i hdone
      · exact h
      · exact ih (hhandle s e h (by simpa using hdone))

/-! ## What matters for process commands -/

/-- Two sessions that differ only in what does not matter for process commands: the last exit
code, the text of an error that is over, and the thread for JavaScript commands. -/
structure SameForProcess (s t : Session) : Prop where
  report : s.report = t.report
  error : s.error = t.error
  command : s.processExecutor.command = t.processExecutor.command
  cancelReason : s.processExecutor.cancelReason = t.processExecutor.cancelReason
  resultConnected : s.processExecutor.resultConnected = t.processExecutor.resultConnected
  watchdogActive : s.processExecutor.watchdogActive = t.processExecutor.watchdogActive
  finishPosted : s.processExecutor.finishPosted = t.processExecutor.finishPosted
  state : s.processExecutor.process.state = t.processExecutor.process.state
  processError : s.processExecutor.process.error = t.processExecutor.process.error
  socketError : s.processExecutor.process.socketError = t.processExecutor.process.socketError
  errorString : t.processExecutor.process.socketError = true →
    s.processExecutor.process.errorString = t.processExecutor.process.errorString
  js : JsIdle s ∧ JsIdle t

namespace SameForProcess

variable {s t : Session}

/-- Sessions with the same threads as two sessions without running threads. -/
theorem idle (h : SameForProcess s t) {s' t' : Session} (hs : s'.jsExecutor = s.jsExecutor)
    (ht : t'.jsExecutor = t.jsExecutor) : JsIdle s' ∧ JsIdle t' :=
  ⟨h.js.1.congr hs, h.js.2.congr ht⟩

theorem modifyProcess (h : SameForProcess s t) {f g : QbsProcess → QbsProcess}
    (hstate : (f s.processExecutor.process).state = (g t.processExecutor.process).state)
    (herror : (f s.processExecutor.process).error = (g t.processExecutor.process).error)
    (hsocket : (f s.processExecutor.process).socketError = (g t.processExecutor.process).socketError)
    (htext : (g t.processExecutor.process).socketError = true →
      (f s.processExecutor.process).errorString = (g t.processExecutor.process).errorString) :
    SameForProcess (s.modifyProcess f) (t.modifyProcess g) :=
  ⟨h.report, h.error, h.command, h.cancelReason, h.resultConnected, h.watchdogActive,
    h.finishPosted, hstate, herror, hsocket, htext,
    h.idle rfl rfl⟩

theorem processFinished (h : SameForProcess s t) (err : Option ErrorInfo) :
    SameForProcess (s.processFinished err) (t.processFinished err) :=
  ⟨by simp only [Session.processFinished, onCommandFinished, h.report, h.error], rfl, h.command,
    h.cancelReason, h.resultConnected, rfl, h.finishPosted, h.state, h.processError, h.socketError,
    h.errorString, h.idle rfl rfl⟩

/-- The text of an error that has just been set is read. -/
theorem onProcessError (h : SameForProcess s t)
    (htext : s.processExecutor.process.errorString = t.processExecutor.process.errorString) :
    SameForProcess s.onProcessError t.onProcessError := by
  unfold Session.onProcessError
  rw [h.command]
  split
  · exact h
  · rw [h.cancelReason, h.processError, htext]
    split
    · exact h
    · split
      · exact h.processFinished _
      · exact h

/-- The exit code and the text of a process that has just ended are read. -/
theorem sendProcessOutput (h : SameForProcess s t)
    (htext : s.processExecutor.process.errorString = t.processExecutor.process.errorString)
    (hcode : s.processExecutor.process.exitCode = t.processExecutor.process.exitCode) :
    SameForProcess s.sendProcessOutput t.sendProcessOutput := by
  unfold Session.sendProcessOutput
  rw [h.command]
  split
  · exact h
  · rename_i cmd _
    have herr : outputError s.processExecutor cmd = outputError t.processExecutor cmd := by
      unfold outputError resultError
      rw [h.cancelReason, h.processError, htext, hcode]
    dsimp only
    rw [herr]
    apply processFinished
    exact ⟨by simp only [h.report, h.resultConnected], h.error, h.command, h.cancelReason,
      h.resultConnected, h.watchdogActive, h.finishPosted, h.state, h.processError, h.socketError,
      h.errorString, h.idle rfl rfl⟩

theorem execute (h : SameForProcess s t) : SameForProcess s.execute t.execute :=
  ⟨by simp only [Session.execute, h.report], h.error, h.command, h.cancelReason, h.resultConnected,
    h.watchdogActive, h.finishPosted, h.state, h.processError, h.socketError, h.errorString,
    h.idle rfl rfl⟩

theorem doStartProcess (h : SameForProcess s t) :
    SameForProcess s.doStartProcess t.doStartProcess :=
  (h.modifyProcess rfl h.processError h.socketError h.errorString).execute

theorem handleSocketReady (h : SameForProcess s t) :
    SameForProcess s.handleSocketReady t.handleSocketReady := by
  have hready : SameForProcess (s.modifyProcess fun p => { p with socketError := false })
      (t.modifyProcess fun p => { p with socketError := false }) :=
    h.modifyProcess h.state h.processError rfl (by simp)
  unfold Session.handleSocketReady
  rw [h.state]
  split
  · exact hready.doStartProcess
  · exact hready

theorem handleSocketError (h : SameForProcess s t) (message : String) :
    SameForProcess (s.handleSocketError message) (t.handleSocketError message) := by
  unfold Session.handleSocketError
  rw [h.state]
  split
  · apply onProcessError
    · exact (h.modifyProcess h.state h.processError rfl fun _ => rfl).modifyProcess rfl rfl rfl
        fun _ => rfl
    · rfl
  · exact h.modifyProcess h.state h.processError rfl fun _ => rfl

theorem handleErrorPacket (h : SameForProcess s t) (error : ProcessError) (errorString : String) :
    SameForProcess (s.handleErrorPacket error errorString)
      (t.handleErrorPacket error errorString) := by
  unfold Session.handleErrorPacket
  rw [h.state]
  split
  · exact h
  · exact (h.modifyProcess rfl rfl h.socketError fun _ => rfl).onProcessError rfl

theorem handleFinishedPacket (h : SameForProcess s t) (exitCode : Int) (errorString : String) :
    SameForProcess (s.handleFinishedPacket exitCode errorString)
      (t.handleFinishedPacket exitCode errorString) := by
  unfold Session.handleFinishedPacket
  rw [h.state]
  split
  · exact (h.modifyProcess rfl h.processError h.socketError fun _ => rfl).sendProcessOutput rfl rfl
  · exact h

theorem cancelProcessCommand (h : SameForProcess s t) (reason : Option ErrorInfo) :
    SameForProcess (s.cancelProcessCommand reason) (t.cancelProcessCommand reason) := by
  have hcancelled : SameForProcess
      { s with processExecutor := { s.processExecutor with
        resultConnected := false, cancelReason := reason } }
      { t with processExecutor := { t.processExecutor with
        resultConnected := false, cancelReason := reason } } :=
    ⟨h.report, h.error, h.command, rfl, rfl, h.watchdogActive, h.finishPosted, h.state,
      h.processError, h.socketError, h.errorString,
      h.idle rfl rfl⟩
  unfold Session.cancelProcessCommand Session.cancelProcess
  dsimp only
  rw [h.state]
  split
  · exact (hcancelled.modifyProcess rfl rfl h.socketError fun _ => rfl).onProcessError rfl
  · exact hcancelled

/-- What an idle thread does is of no importance. -/
theorem js_left (h : SameForProcess s t) {js : JsCommandExecutor}
    (hjs : JsIdle { s with jsExecutor := js }) : SameForProcess { s with jsExecutor := js } t :=
  { h with js := ⟨hjs, h.js.2⟩ }

theorem js_right (h : SameForProcess s t) {js : JsCommandExecutor}
    (hjs : JsIdle { t with jsExecutor := js }) : SameForProcess s { t with jsExecutor := js } :=
  { h with js := ⟨h.js.1, hjs⟩ }

end SameForProcess

/-- An idle thread stays idle when it sees a request to cancel. -/
theorem threadCancel_idle (h : JsIdle s) :
    ∃ js, s.threadCancel = { s with jsExecutor := js } ∧ JsIdle { s with jsExecutor := js } := by
  unfold threadCancel
  split
  · exact ⟨s.jsExecutor, rfl, h⟩
  · exact ⟨_, rfl, h.running, h.threadState, h.finishPosted⟩

/-- A watchdog that is left over does not wake an idle thread. -/
theorem jsWatchdog_idle (h : JsIdle s) (current : Command) :
    ∃ js, s.handle current .jsWatchdog = { s with jsExecutor := js } ∧
      JsIdle { s with jsExecutor := js } := by
  simp only [handle, cancelJsCommand, h.running]
  split
  · exact ⟨_, rfl, rfl, h.threadState, h.finishPosted⟩
  · exact ⟨s.jsExecutor, rfl, h⟩

namespace SameForProcess

variable {s t : Session}

/-- No event tells the sessions apart while a process command is the current one. -/
theorem handle (h : SameForProcess s t) (cmd : ProcessCommand) (e : Event) :
    SameForProcess (s.handle (.process cmd) e) (t.handle (.process cmd) e) := by
  rcases h.js with ⟨hs, ht⟩
  cases e with
  | socketReady => exact h.handleSocketReady
  | socketError message => exact h.handleSocketError message
  | errorPacket error errorString => exact h.handleErrorPacket error errorString
  | finishedPacket exitCode errorString => exact h.handleFinishedPacket exitCode errorString
  | processWatchdog =>
      simp only [Session.handle, h.watchdogActive]
      split
      · apply cancelProcessCommand
        exact { h with watchdogActive := rfl, js := h.idle rfl rfl }
      · exact h
  | processFinishPosted =>
      simp only [Session.handle, Session.processFinishPosted, h.finishPosted]
      split
      · apply processFinished
        exact { h with finishPosted := rfl, js := h.idle rfl rfl }
      · exact h
  | cancel =>
      apply cancelProcessCommand
      exact { h with error := rfl, js := h.idle rfl rfl }
  | threadStart => simpa [Session.handle, Session.threadStart, hs.threadState, ht.threadState] using h
  | scriptDone exception =>
      simpa [Session.handle, Session.scriptDone, hs.threadState, ht.threadState] using h
  | threadCancel =>
      rcases threadCancel_idle hs with ⟨js, hsEq, hjs⟩
      rcases threadCancel_idle ht with ⟨js', htEq, hjs'⟩
      simp only [Session.handle, hsEq, htEq]
      exact (h.js_left hjs).js_right hjs'
  | finishedDelivered =>
      simpa [Session.handle, onJavaScriptCommandFinished, hs.threadState, ht.threadState] using h
  | jsWatchdog =>
      rcases jsWatchdog_idle hs (.process cmd) with ⟨js, hsEq, hjs⟩
      rcases jsWatchdog_idle ht (.process cmd) with ⟨js', htEq, hjs'⟩
      rw [hsEq, htEq]
      exact (h.js_left hjs).js_right hjs'
  | jsFinishPosted =>
      simpa [Session.handle, Session.jsFinishPosted, hs.finishPosted, ht.finishPosted] using h

theorem handleAll (cmd : ProcessCommand) (es : List Event) {s t : Session}
    (h : SameForProcess s t) :
    SameForProcess (s.handleAll (.process cmd) es) (t.handleAll (.process cmd) es) := by
  induction es generalizing s t with
  | nil => exact h
  | cons e es ih =>
      simp only [Session.handleAll, h.report]
      split
      · exact h
      · exact ih (h.handle cmd e)

theorem startProcess (h : SameForProcess s t) (socketReady : Bool) :
    SameForProcess (s.startProcess socketReady) (t.startProcess socketReady) := by
  unfold Session.startProcess
  rw [h.socketError]
  split
  · rename_i hsocket
    have htext := h.errorString hsocket
    exact (h.modifyProcess h.state rfl h.socketError h.errorString).onProcessError htext
  · have hstarting : SameForProcess (s.modifyProcess fun p => { p with state := .starting })
        (t.modifyProcess fun p => { p with state := .starting }) :=
      h.modifyProcess rfl h.processError h.socketError h.errorString
    dsimp only
    split
    · exact hstarting.doStartProcess
    · exact hstarting

/-- Starting a command sets the command of the executor. -/
theorem startProcessCommand (cmd : ProcessCommand) (socketReady : Bool)
    (h : SameForProcess
      { s with processExecutor := { s.processExecutor with command := some cmd } }
      { t with processExecutor := { t.processExecutor with command := some cmd } }) :
    SameForProcess (s.startProcessCommand cmd socketReady)
      (t.startProcessCommand cmd socketReady) := by
  have hstate : s.processExecutor.process.state = t.processExecutor.process.state := h.state
  unfold Session.startProcessCommand
  dsimp only
  rw [hstate]
  split
  · exact h
  · split
    · exact { h with finishPosted := rfl, js := h.idle rfl rfl }
    · split
      · exact h.processFinished _
      · have hstarted := h.startProcess socketReady
        split
        · exact hstarted
        · exact { hstarted with watchdogActive := rfl, js := hstarted.idle rfl rfl }

end SameForProcess

/-! ## What matters for JavaScript commands -/

/-- Two sessions that differ only in what does not matter for JavaScript commands: the process
handle, and the result before the thread has started to evaluate. -/
structure SameForJs (s t : Session) : Prop where
  report : s.report = t.report
  error : s.error = t.error
  running : s.jsExecutor.running = t.jsExecutor.running
  threadState : s.jsExecutor.threadState = t.jsExecutor.threadState
  cancelled : s.jsExecutor.cancelled = t.jsExecutor.cancelled
  postedCancels : s.jsExecutor.postedCancels = t.jsExecutor.postedCancels
  watchdogActive : s.jsExecutor.watchdogActive = t.jsExecutor.watchdogActive
  finishPosted : s.jsExecutor.finishPosted = t.jsExecutor.finishPosted
  result : s.jsExecutor.result = t.jsExecutor.result ∨
    t.jsExecutor.cancelled = false ∧
      (t.jsExecutor.threadState = .idle ∨ t.jsExecutor.threadState = .startPosted)
  process : ProcessIdle s ∧ ProcessIdle t

/-- Without a running process the events of process commands change nothing that matters. -/
structure ProcessOnly (s s' : Session) : Prop where
  report : s'.report = s.report
  error : s'.error = s.error
  js : s'.jsExecutor = s.jsExecutor
  idle : ProcessIdle s'

/-- The events of process commands. -/
def Event.isForProcess : Event → Bool
  | .socketReady | .socketError _ | .errorPacket _ _ | .finishedPacket _ _ | .processWatchdog
  | .processFinishPosted => true
  | _ => false

theorem processOnly_handle (h : ProcessIdle s) (current : Command) {e : Event}
    (he : e.isForProcess = true) : ProcessOnly s (s.handle current e) := by
  rcases h with ⟨hstate, hfinish⟩
  cases e with
  | socketReady =>
      simp only [Session.handle, handleSocketReady, hstate]
      exact ⟨rfl, rfl, rfl, hstate, hfinish⟩
  | socketError message =>
      simp only [Session.handle, handleSocketError, hstate]
      exact ⟨rfl, rfl, rfl, hstate, hfinish⟩
  | errorPacket error errorString =>
      simp only [Session.handle, handleErrorPacket, hstate, if_true]
      exact ⟨rfl, rfl, rfl, hstate, hfinish⟩
  | finishedPacket exitCode errorString =>
      simp only [Session.handle, handleFinishedPacket, hstate]
      exact ⟨rfl, rfl, rfl, hstate, hfinish⟩
  | processWatchdog =>
      simp only [Session.handle, cancelProcessCommand, cancelProcess, hstate]
      split
      · exact ⟨rfl, rfl, rfl, hstate, hfinish⟩
      · exact ⟨rfl, rfl, rfl, hstate, hfinish⟩
  | processFinishPosted =>
      simp only [Session.handle, processFinishPosted, hfinish]
      exact ⟨rfl, rfl, rfl, hstate, hfinish⟩
  | cancel => cases he
  | threadStart => cases he
  | scriptDone exception => cases he
  | threadCancel => cases he
  | finishedDelivered => cases he
  | jsWatchdog => cases he
  | jsFinishPosted => cases he

namespace SameForJs

variable {s t : Session}

/-- The fields of the thread decide, and no process is running. -/
theorem of_js (h : SameForJs s t) {s' t' : Session} (hs : ProcessOnly s s')
    (ht : ProcessOnly t t') : SameForJs s' t' := by
  constructor
  · rw [hs.report, ht.report, h.report]
  · rw [hs.error, ht.error, h.error]
  · rw [hs.js, ht.js, h.running]
  · rw [hs.js, ht.js, h.threadState]
  · rw [hs.js, ht.js, h.cancelled]
  · rw [hs.js, ht.js, h.postedCancels]
  · rw [hs.js, ht.js, h.watchdogActive]
  · rw [hs.js, ht.js, h.finishPosted]
  · rw [hs.js, ht.js]
    exact h.result
  · exact ⟨hs.idle, ht.idle⟩

/-- Sessions with the same processes as two sessions without running processes. -/
theorem idle (h : SameForJs s t) {s' t' : Session}
    (hs : s'.processExecutor = s.processExecutor) (ht : t'.processExecutor = t.processExecutor) :
    ProcessIdle s' ∧ ProcessIdle t' :=
  ⟨h.process.1.congr hs, h.process.2.congr ht⟩

theorem jsFinished (h : SameForJs s t) (err : Option ErrorInfo) :
    SameForJs (s.jsFinished err) (t.jsFinished err) :=
  ⟨by simp only [Session.jsFinished, onCommandFinished, h.report, h.error], rfl, h.running,
    h.threadState, h.cancelled, h.postedCancels, rfl, h.finishPosted, h.result, h.idle rfl rfl⟩

theorem cancelJsCommand (h : SameForJs s t) (reason : Option ErrorInfo) :
    SameForJs (s.cancelJsCommand reason) (t.cancelJsCommand reason) := by
  unfold Session.cancelJsCommand
  rw [h.running]
  split
  · exact { h with
      postedCancels := by rw [h.postedCancels]
      process := h.idle rfl rfl }
  · exact h

theorem threadStart (h : SameForJs s t) : SameForJs s.threadStart t.threadStart := by
  unfold Session.threadStart
  rw [h.threadState, h.cancelled]
  split
  · split <;> rename_i hcancelled
    · refine { h with threadState := rfl, result := Or.inl ?_, process := h.idle rfl rfl }
      exact h.result.resolve_right fun hr => by simp [hcancelled] at hr
    · exact { h with
        report := by simp only [execute, h.report]
        threadState := rfl
        result := Or.inl rfl
        process := h.idle rfl rfl }
  · exact h

theorem scriptDone (h : SameForJs s t) (exception : Option String) :
    SameForJs (s.scriptDone exception) (t.scriptDone exception) := by
  unfold Session.scriptDone
  rw [h.threadState]
  split <;> rename_i hstate
  · have hresult : s.jsExecutor.result = t.jsExecutor.result :=
      h.result.resolve_right fun hr => by simp [hstate] at hr
    refine { h with threadState := rfl, result := Or.inl ?_, process := h.idle rfl rfl }
    dsimp only
    rw [hresult]
  · exact h

theorem threadCancel (h : SameForJs s t) : SameForJs s.threadCancel t.threadCancel := by
  unfold Session.threadCancel
  rw [h.postedCancels]
  split
  · exact h
  · exact { h with
      cancelled := rfl
      postedCancels := rfl
      result := Or.inl rfl
      process := h.idle rfl rfl }

theorem onJavaScriptCommandFinished (h : SameForJs s t) :
    SameForJs s.onJavaScriptCommandFinished t.onJavaScriptCommandFinished := by
  unfold Session.onJavaScriptCommandFinished
  rw [h.threadState]
  split <;> rename_i hstate
  · have hresult : s.jsExecutor.result = t.jsExecutor.result :=
      h.result.resolve_right fun hr => by simp [hstate] at hr
    rw [hresult]
    apply jsFinished
    exact { h with
      running := rfl
      threadState := rfl
      result := Or.inl hresult
      process := h.idle rfl rfl }
  · exact h

/-- No event tells the sessions apart while a JavaScript command is the current one. -/
theorem handle (h : SameForJs s t) (cmd : JavaScriptCommand) (e : Event) :
    SameForJs (s.handle (.javaScript cmd) e) (t.handle (.javaScript cmd) e) := by
  cases hprocess : e.isForProcess with
  | true =>
      exact h.of_js (processOnly_handle h.process.1 _ hprocess)
        (processOnly_handle h.process.2 _ hprocess)
  | false =>
      cases e with
      | cancel =>
          apply cancelJsCommand
          exact { h with error := rfl, process := h.idle rfl rfl }
      | threadStart => exact h.threadStart
      | scriptDone exception => exact h.scriptDone exception
      | threadCancel => exact h.threadCancel
      | finishedDelivered => exact h.onJavaScriptCommandFinished
      | jsWatchdog =>
          simp only [Session.handle, h.watchdogActive]
          split
          · apply cancelJsCommand
            exact { h with watchdogActive := rfl, process := h.idle rfl rfl }
          · exact h
      | jsFinishPosted =>
          simp only [Session.handle, Session.jsFinishPosted, h.finishPosted]
          split
          · apply jsFinished
            exact { h with finishPosted := rfl, process := h.idle rfl rfl }
          · exact h
      | _ => cases hprocess

theorem handleAll (cmd : JavaScriptCommand) (es : List Event) {s t : Session}
    (h : SameForJs s t) :
    SameForJs (s.handleAll (.javaScript cmd) es) (t.handleAll (.javaScript cmd) es) := by
  induction es generalizing s t with
  | nil => exact h
  | cons e es ih =>
      simp only [Session.handleAll, h.report]
      split
      · exact h
      · exact ih (h.handle cmd e)

theorem startJsCommand (h : SameForJs s t) (cmd : JavaScriptCommand)
    (hcancelled : t.jsExecutor.cancelled = false) :
    SameForJs (s.startJsCommand cmd) (t.startJsCommand cmd) := by
  unfold Session.startJsCommand
  rw [h.running]
  split
  · exact h
  · split
    · exact { h with finishPosted := rfl, process := h.idle rfl rfl }
    · exact { h with
        running := rfl
        threadState := rfl
        watchdogActive := by rw [h.watchdogActive]
        result := Or.inr ⟨hcancelled, Or.inr rfl⟩
        process := h.idle rfl rfl }

end SameForJs

/-! ## A clean executor behaves like a new one -/

/-- A command that finds its executor clean is reported as by a new job. -/
theorem runCommand_renew (hs : Between s) (r : CommandRun) (hclean : Clean s r.command) :
    (runCommand s r).report = (runCommand s.renew r).report := by
  rcases r with ⟨command, socketReady, events⟩
  cases command with
  | process cmd =>
      have hclean : ProcessClean s := hclean
      have hsame : SameForProcess
          { s with
            processExecutor := { s.processExecutor with command := some cmd }
            report := .empty }
          { s.renew with
            processExecutor := { s.renew.processExecutor with command := some cmd }
            report := .empty } :=
        ⟨rfl, hs.error, rfl, hclean.cancelReason, hclean.resultConnected, hclean.watchdogActive,
          hs.process.finishPosted, hs.process.state, hclean.error, rfl,
          fun h => (if_pos h).symm, hs.js.congr rfl,
          ⟨rfl, rfl, rfl⟩⟩
      have hrun := (SameForProcess.startProcessCommand (s := { s with report := .empty })
        (t := { s.renew with report := .empty }) cmd socketReady hsame).handleAll cmd events
      exact hrun.report
  | javaScript cmd =>
      have hclean : JsClean s := hclean
      have hsame : SameForJs { s with report := .empty } { s.renew with report := .empty } :=
        ⟨rfl, hs.error, hs.js.running, hs.js.threadState, hclean.cancelled, hclean.postedCancels,
          hclean.watchdogActive, hs.js.finishPosted, Or.inr ⟨rfl, Or.inl rfl⟩,
          hs.process.congr rfl, ⟨rfl, rfl⟩⟩
      have hrun := (hsame.startJsCommand cmd rfl).handleAll cmd events
      exact hrun.report

/-! ## The job after a command -/

section ProcessRun

/-- While a process command is the current one, and after it has finished. -/
structure ProcessRun (s : Session) : Prop where
  js : JsIdle s
  posted : s.processExecutor.finishPosted = true → s.processExecutor.process.state = .notRunning
  done : s.report.finished.isSome = true → ProcessIdle s ∧ s.error = none

variable {s : Session}

theorem processRun_processFinished (hjs : JsIdle s) (hidle : ProcessIdle s)
    (err : Option ErrorInfo) : ProcessRun (s.processFinished err) :=
  ⟨hjs.congr rfl, fun _ => hidle.state,
    fun _ => ⟨⟨hidle.state, hidle.finishPosted⟩, rfl⟩⟩

theorem processRun_of_none (hjs : JsIdle s) (hidle : ProcessIdle s)
    (hnone : s.report.finished = none) : ProcessRun s :=
  ⟨hjs, fun _ => hidle.state, fun h => by simp [hnone] at h⟩

theorem processRun_onProcessError (hjs : JsIdle s) (hidle : ProcessIdle s)
    (hnone : s.report.finished = none) : ProcessRun s.onProcessError := by
  unfold onProcessError
  split
  · exact processRun_of_none hjs hidle hnone
  · split
    · exact processRun_of_none hjs hidle hnone
    · split
      · exact processRun_processFinished hjs hidle _
      · exact processRun_of_none hjs hidle hnone

theorem processRun_sendProcessOutput (hjs : JsIdle s) (hidle : ProcessIdle s)
    (hnone : s.report.finished = none) : ProcessRun s.sendProcessOutput := by
  unfold sendProcessOutput
  split
  · exact processRun_of_none hjs hidle hnone
  · apply processRun_processFinished
    · exact hjs.congr rfl
    · exact hidle.congr rfl

namespace ProcessRun

/-- A process that is not idle has no posted end. -/
theorem finishPosted_eq (h : ProcessRun s) (hstate : s.processExecutor.process.state ≠ .notRunning) :
    s.processExecutor.finishPosted = false := by
  rw [← Bool.not_eq_true]
  exact fun hposted => hstate (h.posted hposted)

theorem cancelProcessCommand (h : ProcessRun s) (hnone : s.report.finished = none)
    (reason : Option ErrorInfo) : ProcessRun (s.cancelProcessCommand reason) := by
  unfold Session.cancelProcessCommand cancelProcess
  dsimp only
  split <;> rename_i hstate
  · exact processRun_onProcessError (h.js.congr rfl)
      ⟨rfl, h.finishPosted_eq (by rw [hstate]; decide)⟩ hnone
  · exact ⟨h.js.congr rfl, h.posted,
      fun hdone => by simp [hnone] at hdone⟩

/-- An event keeps the state of a process command in order. -/
theorem handle (h : ProcessRun s) (hnone : s.report.finished = none) (cmd : ProcessCommand)
    (e : Event) : ProcessRun (s.handle (.process cmd) e) := by
  cases e with
  | socketReady =>
      simp only [Session.handle, handleSocketReady]
      split <;> rename_i hstate
      · refine ⟨h.js.congr rfl, fun hposted => ?_, fun hdone => ?_⟩
        · have hfinish := h.finishPosted_eq (by rw [hstate]; decide)
          change s.processExecutor.finishPosted = true at hposted
          rw [hfinish] at hposted
          cases hposted
        · simp [doStartProcess, execute, modifyProcess, hnone] at hdone
      · exact ⟨h.js.congr rfl, h.posted, fun hdone => by simp [modifyProcess, hnone] at hdone⟩
  | socketError message =>
      simp only [Session.handle, handleSocketError]
      split <;> rename_i hstate
      · exact processRun_onProcessError (h.js.congr rfl) ⟨rfl, h.finishPosted_eq hstate⟩ hnone
      · exact ⟨h.js.congr rfl, h.posted, fun hdone => by simp [modifyProcess, hnone] at hdone⟩
  | errorPacket error errorString =>
      simp only [Session.handle, handleErrorPacket]
      split <;> rename_i hstate
      · exact h
      · exact processRun_onProcessError (h.js.congr rfl) ⟨rfl, h.finishPosted_eq hstate⟩ hnone
  | finishedPacket exitCode errorString =>
      simp only [Session.handle, handleFinishedPacket]
      split <;> rename_i hstate
      · exact processRun_sendProcessOutput (h.js.congr rfl)
          ⟨rfl, h.finishPosted_eq (by rw [hstate]; decide)⟩ hnone
      · exact h
  | processWatchdog =>
      simp only [Session.handle]
      split
      · apply cancelProcessCommand
        · exact ⟨h.js.congr rfl, h.posted, fun hdone => by simp [hnone] at hdone⟩
        · exact hnone
      · exact h
  | processFinishPosted =>
      simp only [Session.handle, processFinishPosted]
      split <;> rename_i hposted
      · apply processRun_processFinished
        · exact h.js.congr rfl
        · exact ⟨h.posted hposted, rfl⟩
      · exact h
  | cancel =>
      apply cancelProcessCommand
      · exact ⟨h.js.congr rfl, h.posted, fun hdone => by simp [hnone] at hdone⟩
      · exact hnone
  | threadStart => simpa [Session.handle, threadStart, h.js.threadState] using h
  | scriptDone exception => simpa [Session.handle, scriptDone, h.js.threadState] using h
  | threadCancel =>
      rcases threadCancel_idle h.js with ⟨js, hEq, hidle⟩
      simp only [Session.handle, hEq]
      exact ⟨hidle, h.posted, fun hdone => by simp [hnone] at hdone⟩
  | finishedDelivered =>
      simpa [Session.handle, onJavaScriptCommandFinished, h.js.threadState] using h
  | jsWatchdog =>
      rcases jsWatchdog_idle h.js (.process cmd) with ⟨js, hEq, hidle⟩
      rw [hEq]
      exact ⟨hidle, h.posted, fun hdone => by simp [hnone] at hdone⟩
  | jsFinishPosted => simpa [Session.handle, jsFinishPosted, h.js.finishPosted] using h

/-- Starting a process command begins its run. -/
theorem startProcessCommand (hs : Between s) (hnone : s.report.finished = none)
    (cmd : ProcessCommand) (socketReady : Bool) :
    ProcessRun (s.startProcessCommand cmd socketReady) := by
  have hidle := hs.process
  unfold Session.startProcessCommand
  dsimp only
  rw [if_neg (by simp [hidle.state])]
  split
  · exact ⟨hs.js.congr rfl, fun _ => hidle.state, fun hdone => by simp [hnone] at hdone⟩
  · split
    · apply processRun_processFinished
      · exact hs.js.congr rfl
      · exact ⟨hidle.state, hidle.finishPosted⟩
    · have hstarted : ProcessRun (Session.startProcess { s with
          processExecutor := { s.processExecutor with command := some cmd } } socketReady) := by
        unfold startProcess
        split
        · apply processRun_onProcessError
          · exact hs.js.congr rfl
          · exact ⟨hidle.state, hidle.finishPosted⟩
          · exact hnone
        · have hposted : ∀ b : Bool, s.processExecutor.finishPosted = true → b = true := by
            intro b hb
            rw [hidle.finishPosted] at hb
            cases hb
          split
          · exact ⟨hs.js.congr rfl, fun hb => by simpa using hposted false hb,
              fun hdone => by simp [doStartProcess, execute, modifyProcess, hnone] at hdone⟩
          · exact ⟨hs.js.congr rfl, fun hb => by simpa using hposted false hb,
              fun hdone => by simp [modifyProcess, hnone] at hdone⟩
      split
      · exact hstarted
      · exact ⟨hstarted.js.congr rfl, hstarted.posted, fun hdone =>
          ⟨⟨(hstarted.done hdone).1.state, (hstarted.done hdone).1.finishPosted⟩,
            (hstarted.done hdone).2⟩⟩

end ProcessRun

end ProcessRun

section JsRun

/-- While a JavaScript command is the current one, and after it has finished. -/
structure JsRun (s : Session) : Prop where
  process : ProcessIdle s
  thread : s.jsExecutor.running = false → s.jsExecutor.threadState = .idle
  posted : s.jsExecutor.finishPosted = true → s.jsExecutor.running = false
  done : s.report.finished.isSome = true → JsIdle s ∧ s.error = none

variable {s : Session}

namespace JsRun

theorem running_eq (h : JsRun s) (hstate : s.jsExecutor.threadState ≠ .idle) :
    s.jsExecutor.running = true := by
  rw [← Bool.not_eq_false]
  exact fun hrunning => hstate (h.thread hrunning)

theorem finishPosted_eq (h : JsRun s) (hstate : s.jsExecutor.threadState ≠ .idle) :
    s.jsExecutor.finishPosted = false := by
  rw [← Bool.not_eq_true]
  intro hposted
  have hrunning := h.running_eq hstate
  rw [h.posted hposted] at hrunning
  cases hrunning

theorem cancelJsCommand (h : JsRun s) (hnone : s.report.finished = none)
    (reason : Option ErrorInfo) : JsRun (s.cancelJsCommand reason) := by
  unfold Session.cancelJsCommand
  split
  · exact ⟨h.process.congr rfl, h.thread, h.posted, fun hdone => by simp [hnone] at hdone⟩
  · exact h

/-- An event keeps the state of a JavaScript command in order. -/
theorem handle (h : JsRun s) (hnone : s.report.finished = none) (cmd : JavaScriptCommand)
    (e : Event) : JsRun (s.handle (.javaScript cmd) e) := by
  cases hprocess : e.isForProcess with
  | true =>
      rcases processOnly_handle h.process (.javaScript cmd) hprocess with ⟨hreport, herror, hjs, hidle⟩
      refine ⟨hidle, hjs ▸ h.thread, hjs ▸ h.posted, fun hdone => ?_⟩
      rw [hreport, hnone] at hdone
      cases hdone
  | false =>
      cases e with
      | cancel =>
          apply cancelJsCommand
          · exact ⟨h.process.congr rfl, h.thread, h.posted, fun hdone => by simp [hnone] at hdone⟩
          · exact hnone
      | threadStart =>
          simp only [Session.handle, threadStart]
          split <;> rename_i hstate
          · have hrunning := h.running_eq (by rw [hstate]; decide)
            split
            · exact ⟨h.process.congr rfl, fun hr => by simp [hrunning] at hr, h.posted,
                fun hdone => by simp [hnone] at hdone⟩
            · exact ⟨h.process.congr rfl, fun hr => by simp [execute, hrunning] at hr, h.posted,
                fun hdone => by simp [execute, hnone] at hdone⟩
          · exact h
      | scriptDone exception =>
          simp only [Session.handle, scriptDone]
          split <;> rename_i hstate
          · have hrunning := h.running_eq (by rw [hstate]; decide)
            exact ⟨h.process.congr rfl, fun hr => by simp [hrunning] at hr, h.posted,
              fun hdone => by simp [hnone] at hdone⟩
          · exact h
      | threadCancel =>
          simp only [Session.handle, threadCancel]
          split
          · exact h
          · exact ⟨h.process.congr rfl, h.thread, h.posted, fun hdone => by simp [hnone] at hdone⟩
      | finishedDelivered =>
          simp only [Session.handle, onJavaScriptCommandFinished]
          split <;> rename_i hstate
          · have hfinish := h.finishPosted_eq (by rw [hstate]; decide)
            exact ⟨h.process.congr rfl, fun _ => rfl, fun _ => rfl, fun _ => ⟨⟨rfl, rfl, hfinish⟩, rfl⟩⟩
          · exact h
      | jsWatchdog =>
          simp only [Session.handle]
          split
          · apply cancelJsCommand
            · exact ⟨h.process.congr rfl, h.thread, h.posted, fun hdone => by simp [hnone] at hdone⟩
            · exact hnone
          · exact h
      | jsFinishPosted =>
          simp only [Session.handle, jsFinishPosted]
          split <;> rename_i hposted
          · have hrunning := h.posted hposted
            exact ⟨h.process.congr rfl, h.thread, fun _ => hrunning,
              fun _ => ⟨⟨hrunning, h.thread hrunning, rfl⟩, rfl⟩⟩
          · exact h
      | _ => cases hprocess

/-- Starting a JavaScript command begins its run. -/
theorem startJsCommand (hs : Between s) (hnone : s.report.finished = none)
    (cmd : JavaScriptCommand) : JsRun (s.startJsCommand cmd) := by
  unfold Session.startJsCommand
  rw [if_neg (by simp [hs.js.running])]
  split
  · exact ⟨hs.process.congr rfl, fun _ => hs.js.threadState, fun _ => hs.js.running,
      fun hdone => by simp [hnone] at hdone⟩
  · exact ⟨hs.process.congr rfl, fun hr => by simp at hr, fun hp => by simp [hs.js.finishPosted] at hp,
      fun hdone => by simp [hnone] at hdone⟩

end JsRun

end JsRun

/-- After a command has finished the job is between two commands. -/
theorem between_runCommand (hs : Between s) (r : CommandRun)
    (hdone : (runCommand s r).report.finished.isSome = true) : Between (runCommand s r) := by
  have hstart : Between { s with report := .empty } :=
    ⟨hs.process.congr rfl, hs.js.congr rfl, hs.error⟩
  rcases r with ⟨command, socketReady, events⟩
  cases command with
  | process cmd =>
      have hrun := handleAll_keeps (fun _ e h hnone => ProcessRun.handle h hnone cmd e) events
        (ProcessRun.startProcessCommand hstart rfl cmd socketReady)
      exact ⟨(hrun.done hdone).1, hrun.js, (hrun.done hdone).2⟩
  | javaScript cmd =>
      have hrun := handleAll_keeps (fun _ e h hnone => JsRun.handle h hnone cmd e) events
        (JsRun.startJsCommand hstart rfl cmd)
      exact ⟨hrun.process, (hrun.done hdone).1, (hrun.done hdone).2⟩

/-! ## Commands of the other kind -/

section OtherKind

variable {s : Session}

@[simp]
theorem jsExecutor_processFinished (err : Option ErrorInfo) :
    (s.processFinished err).jsExecutor = s.jsExecutor :=
  rfl

@[simp]
theorem jsExecutor_modifyProcess (f : QbsProcess → QbsProcess) :
    (s.modifyProcess f).jsExecutor = s.jsExecutor :=
  rfl

@[simp]
theorem jsExecutor_onProcessError : s.onProcessError.jsExecutor = s.jsExecutor := by
  unfold onProcessError
  split
  · rfl
  · split
    · rfl
    · split <;> rfl

@[simp]
theorem jsExecutor_sendProcessOutput : s.sendProcessOutput.jsExecutor = s.jsExecutor := by
  unfold sendProcessOutput
  split <;> rfl

@[simp]
theorem jsExecutor_cancelProcessCommand (reason : Option ErrorInfo) :
    (s.cancelProcessCommand reason).jsExecutor = s.jsExecutor := by
  unfold cancelProcessCommand cancelProcess
  dsimp only
  split <;> simp

@[simp]
theorem jsExecutor_startProcessCommand (cmd : ProcessCommand) (socketReady : Bool) :
    (s.startProcessCommand cmd socketReady).jsExecutor = s.jsExecutor := by
  have hstart : ∀ u : Session, (u.startProcess socketReady).jsExecutor = u.jsExecutor := by
    intro u
    unfold startProcess
    split
    · simp
    · dsimp only
      split <;> rfl
  unfold startProcessCommand
  dsimp only
  split
  · rfl
  · split
    · rfl
    · split
      · rfl
      · split <;> simp [hstart]

/-- A process command does nothing to a clean thread. -/
theorem jsExecutor_handle (hidle : JsIdle s) (hclean : JsClean s) (cmd : ProcessCommand)
    (e : Event) : (s.handle (.process cmd) e).jsExecutor = s.jsExecutor := by
  cases e with
  | socketReady =>
      simp only [handle, handleSocketReady]
      split <;> rfl
  | socketError message =>
      simp only [handle, handleSocketError]
      split <;> simp
  | errorPacket error errorString =>
      simp only [handle, handleErrorPacket]
      split <;> simp
  | finishedPacket exitCode errorString =>
      simp only [handle, handleFinishedPacket]
      split <;> simp
  | processWatchdog =>
      simp only [handle]
      split <;> simp
  | processFinishPosted =>
      simp only [handle, processFinishPosted]
      split <;> simp
  | cancel => simp [handle, cancel]
  | threadStart => simp [handle, threadStart, hidle.threadState]
  | scriptDone exception => simp [handle, scriptDone, hidle.threadState]
  | threadCancel => simp [handle, threadCancel, hclean.postedCancels]
  | finishedDelivered => simp [handle, onJavaScriptCommandFinished, hidle.threadState]
  | jsWatchdog => simp [handle, hclean.watchdogActive]
  | jsFinishPosted => simp [handle, jsFinishPosted, hidle.finishPosted]

theorem jsExecutor_handleAll (cmd : ProcessCommand) (es : List Event) {s : Session}
    (hidle : JsIdle s) (hclean : JsClean s) :
    (s.handleAll (.process cmd) es).jsExecutor = s.jsExecutor :=
  handleAll_keeps (P := fun u => u.jsExecutor = s.jsExecutor)
    (fun _ e hu _ => (jsExecutor_handle (hidle.congr hu) (hclean.congr hu) cmd e).trans hu) es rfl

/-- A JavaScript command leaves nothing behind for process commands. -/
theorem processClean_handle (hidle : ProcessIdle s) (hclean : ProcessClean s)
    (cmd : JavaScriptCommand) (e : Event) :
    ProcessIdle (s.handle (.javaScript cmd) e) ∧ ProcessClean (s.handle (.javaScript cmd) e) := by
  have hsame : ∀ u : Session, u.processExecutor = s.processExecutor →
      ProcessIdle u ∧ ProcessClean u := fun u hu => ⟨hidle.congr hu, hclean.congr hu⟩
  cases e with
  | socketReady =>
      simp only [handle, handleSocketReady, hidle.state]
      exact ⟨⟨hidle.state, hidle.finishPosted⟩,
        ⟨hclean.error, hclean.cancelReason, hclean.resultConnected, hclean.watchdogActive⟩⟩
  | socketError message =>
      simp only [handle, handleSocketError, hidle.state]
      exact ⟨⟨hidle.state, hidle.finishPosted⟩,
        ⟨hclean.error, hclean.cancelReason, hclean.resultConnected, hclean.watchdogActive⟩⟩
  | errorPacket error errorString =>
      simp only [handle, handleErrorPacket, hidle.state, if_true]
      exact ⟨hidle, hclean⟩
  | finishedPacket exitCode errorString =>
      simp only [handle, handleFinishedPacket, hidle.state]
      exact ⟨hidle, hclean⟩
  | processWatchdog =>
      simp only [handle, hclean.watchdogActive]
      exact ⟨hidle, hclean⟩
  | processFinishPosted =>
      simp only [handle, processFinishPosted, hidle.finishPosted]
      exact ⟨hidle, hclean⟩
  | cancel =>
      apply hsame
      simp only [handle, cancel, cancelJsCommand]
      split <;> rfl
  | threadStart =>
      apply hsame
      simp only [handle, threadStart]
      split
      · split <;> rfl
      · rfl
  | scriptDone exception =>
      apply hsame
      simp only [handle, scriptDone]
      split <;> rfl
  | threadCancel =>
      apply hsame
      simp only [handle, threadCancel]
      split <;> rfl
  | finishedDelivered =>
      apply hsame
      simp only [handle, onJavaScriptCommandFinished]
      split <;> rfl
  | jsWatchdog =>
      apply hsame
      simp only [handle, cancelJsCommand]
      split
      · split <;> rfl
      · rfl
  | jsFinishPosted =>
      apply hsame
      simp only [handle, jsFinishPosted]
      split <;> rfl

theorem processClean_handleAll (cmd : JavaScriptCommand) (es : List Event) {s : Session}
    (hidle : ProcessIdle s) (hclean : ProcessClean s) :
    ProcessClean (s.handleAll (.javaScript cmd) es) := by
  have hboth := handleAll_keeps (P := fun u => ProcessIdle u ∧ ProcessClean u)
    (fun _ e hu _ => processClean_handle hu.1 hu.2 cmd e) es ⟨hidle, hclean⟩
  exact hboth.2

end OtherKind

/-- Two commands are of the same kind. -/
def Command.sameKind : Command → Command → Bool
  | .process _, .process _ | .javaScript _, .javaScript _ => true
  | _, _ => false

theorem jsExecutor_runCommand (hs : Between s) (hclean : JsClean s) (cmd : ProcessCommand)
    (socketReady : Bool) (events : List Event) :
    (runCommand s ⟨.process cmd, socketReady, events⟩).jsExecutor = s.jsExecutor := by
  have hstart : ({ s with report := .empty }.startProcessCommand cmd socketReady).jsExecutor =
      s.jsExecutor :=
    jsExecutor_startProcessCommand cmd socketReady
  have hAll := jsExecutor_handleAll cmd events
    (s := { s with report := .empty }.startProcessCommand cmd socketReady)
    (hs.js.congr hstart) (hclean.congr hstart)
  exact hAll.trans hstart

theorem processExecutor_startJsCommand (s : Session) (cmd : JavaScriptCommand) :
    (s.startJsCommand cmd).processExecutor = s.processExecutor := by
  unfold startJsCommand
  split
  · rfl
  · split <;> rfl

theorem processClean_runCommand (hs : Between s) (hclean : ProcessClean s) (cmd : JavaScriptCommand)
    (socketReady : Bool) (events : List Event) :
    ProcessClean (runCommand s ⟨.javaScript cmd, socketReady, events⟩) := by
  have hstart := processExecutor_startJsCommand { s with report := .empty } cmd
  exact processClean_handleAll cmd events (hs.process.congr hstart) (hclean.congr hstart)

/-- A command keeps the executor for commands of the other kind clean. -/
theorem clean_runCommand_of_not_sameKind (hs : Between s) (r : CommandRun) {command : Command}
    (hkind : r.command.sameKind command = false) (hclean : Clean s command) :
    Clean (runCommand s r) command := by
  rcases r with ⟨own, socketReady, events⟩
  cases own with
  | process cmd =>
      cases command with
      | process cmd' => cases hkind
      | javaScript cmd' =>
          exact JsClean.congr hclean (jsExecutor_runCommand hs hclean cmd socketReady events)
  | javaScript cmd =>
      cases command with
      | process cmd' => exact processClean_runCommand hs hclean cmd socketReady events
      | javaScript cmd' => cases hkind

end ExecutorJob

end Qbs
