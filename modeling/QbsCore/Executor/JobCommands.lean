import QbsCore.Tools.Error
import QbsCore.Tools.Process

/-!
# The commands of a job

A job runs process commands through a process handle and JavaScript commands in a thread.
Executors, handle and thread object live as long as the job and are used for one command
after the other.

Main results:

- Definition {lit}`ExecutorJob.handle`: what a job does with an event.
- Definition {lit}`ExecutorJob.runCommand`: one command with the events that occur while it
  is the current one.

Current gaps:

- A slot that is delayed because the script engine of the main thread is active counts as an
  event that arrives later.
- Output filters and the text of the output are left out.
-/

namespace Qbs

namespace ExecutorJob

/-- The handle of a process in the launcher. -/
structure QbsProcess where
  state : ProcessState
  error : ProcessError
  errorString : String
  exitCode : Int
  socketError : Bool
deriving DecidableEq

/-- A process command, with what its setup finds out. -/
structure ProcessCommand where
  program : String
  errorPrefixString : String
  shellInvocation : String
  maxExitCode : Int
  timeout : Int
  /-- A dry run skips the command. -/
  skipped : Bool
  /-- The working directory is invalid or the response file cannot be written. -/
  setupError : Option ErrorInfo
  /-- Redirected output can be saved. -/
  outputSaved : Bool
deriving DecidableEq

/-- A JavaScript command. -/
structure JavaScriptCommand where
  timeout : Int
  /-- A dry run skips the command. -/
  skipped : Bool
deriving DecidableEq

inductive Command where
  | process (cmd : ProcessCommand)
  | javaScript (cmd : JavaScriptCommand)
deriving DecidableEq

structure ProcessCommandExecutor where
  process : QbsProcess
  command : Option ProcessCommand
  cancelReason : Option ErrorInfo
  /-- The results of processes are still reported. -/
  resultConnected : Bool
  watchdogActive : Bool
  finishPosted : Bool
deriving DecidableEq

structure JavaScriptCommandResult where
  success : Bool
  errorMessage : String
deriving DecidableEq

/-- What the thread for JavaScript commands is at. -/
inductive ThreadState where
  | idle
  | startPosted
  | evaluating
  | finishedPosted
deriving DecidableEq

structure JsCommandExecutor where
  running : Bool
  threadState : ThreadState
  result : JavaScriptCommandResult
  cancelled : Bool
  /-- Requests to cancel that the thread has not seen yet. -/
  postedCancels : List (Option ErrorInfo)
  watchdogActive : Bool
  finishPosted : Bool
deriving DecidableEq

/-- What is reported for a command: whether it was executed, the result of the process, and
the error it has finished with, if any. -/
structure Report where
  executed : Bool
  processSuccess : Option Bool
  finished : Option (Option ErrorInfo)
deriving DecidableEq

/-- A job with the report for its current command. -/
structure Session where
  processExecutor : ProcessCommandExecutor
  jsExecutor : JsCommandExecutor
  error : Option ErrorInfo
  report : Report
deriving DecidableEq

/-- What can happen while a command is the current one. -/
inductive Event where
  | socketReady
  | socketError (message : String)
  | errorPacket (error : ProcessError) (errorString : String)
  | finishedPacket (exitCode : Int) (errorString : String)
  | processWatchdog
  | processFinishPosted
  | cancel
  | threadStart
  | scriptDone (exception : Option String)
  | threadCancel
  | finishedDelivered
  | jsWatchdog
  | jsFinishPosted
deriving DecidableEq

namespace Session

variable (s : Session)

def modifyProcess (f : QbsProcess → QbsProcess) : Session :=
  { s with processExecutor := { s.processExecutor with process := f s.processExecutor.process } }

/-- The command counts as executed. -/
def execute : Session :=
  { s with report := { s.report with executed := true } }

/-- The job reacts to the end of its command: an error of its own comes first. -/
def onCommandFinished (err : Option ErrorInfo) : Session :=
  { s with
    error := none
    report := { s.report with finished := some (s.error.or err) } }

/-! ## Process commands -/

/-- The executor for process commands has finished. -/
def processFinished (err : Option ErrorInfo) : Session :=
  let stopped := { s with processExecutor := { s.processExecutor with watchdogActive := false } }
  stopped.onCommandFinished err

/-- Send the request to start the process. -/
def doStartProcess : Session :=
  (s.modifyProcess fun p => { p with state := .running }).execute

/-- The error for a process that has not been started. -/
def startError (cmd : ProcessCommand) (errorString : String) : ErrorInfo :=
  .message (s!"The process '{cmd.program}' could not be started: {cmd.errorPrefixString}" ++
    s!"{errorString}. The full command line invocation was: {cmd.shellInvocation}")

/-- Only a process that has not been started ends its command here. -/
def onProcessError : Session :=
  match s.processExecutor.command with
  | none => s
  | some cmd =>
      if s.processExecutor.cancelReason.isSome then s
      else if s.processExecutor.process.error = .failedToStart then
        s.processFinished (some (startError cmd s.processExecutor.process.errorString))
      else s

/-- The code as an unsigned number with 32 bits. -/
def toUInt32 (code : Int) : Int :=
  code % 0x100000000

/-- The error of the process or else of saving its output. -/
def resultError (executor : ProcessCommandExecutor) (cmd : ProcessCommand) : ProcessError :=
  if executor.process.error = .unknownError && !cmd.outputSaved then .writeError
  else executor.process.error

/-- The error a process command that has come to its end finishes with. -/
def outputError (executor : ProcessCommandExecutor) (cmd : ProcessCommand) : Option ErrorInfo :=
  if executor.cancelReason.isSome then executor.cancelReason
  else if resultError executor cmd ≠ .unknownError then some (.message executor.process.errorString)
  else if toUInt32 executor.process.exitCode > toUInt32 cmd.maxExitCode then
    some (.message s!"Process failed with exit code {executor.process.exitCode}.")
  else none

/-- Report the result of the process and finish. -/
def sendProcessOutput : Session :=
  match s.processExecutor.command with
  | none => s
  | some cmd =>
      let err := outputError s.processExecutor cmd
      let reported := { s with report := { s.report with
        processSuccess :=
          if s.processExecutor.resultConnected then some err.isNone
          else s.report.processSuccess } }
      reported.processFinished err

/-- Start the process; without a connection this fails at once. -/
def startProcess (socketReady : Bool) : Session :=
  if s.processExecutor.process.socketError then
    (s.modifyProcess fun p => { p with error := .failedToStart }).onProcessError
  else
    let starting := s.modifyProcess fun p => { p with state := .starting }
    if socketReady then starting.doStartProcess else starting

/-- Start a process command; the watchdog is started last. -/
def startProcessCommand (cmd : ProcessCommand) (socketReady : Bool) : Session :=
  let current := { s with processExecutor := { s.processExecutor with command := some cmd } }
  if s.processExecutor.process.state ≠ .notRunning then current
  else if cmd.skipped then
    { current with processExecutor := { current.processExecutor with finishPosted := true } }
  else if cmd.setupError.isSome then current.processFinished cmd.setupError
  else
    let started := current.startProcess socketReady
    if cmd.timeout ≤ 0 then started
    else { started with
      processExecutor := { started.processExecutor with watchdogActive := true } }

/-- Cancel the process. -/
def cancelProcess : Session :=
  if s.processExecutor.process.state = .starting then
    (s.modifyProcess fun p => { p with
      errorString := "Process canceled before it was started."
      error := .failedToStart
      state := .notRunning }).onProcessError
  else s

/-- Cancel the process command for a reason. -/
def cancelProcessCommand (reason : Option ErrorInfo) : Session :=
  let cancelled := { s with processExecutor := { s.processExecutor with
    resultConnected := false
    cancelReason := reason } }
  cancelled.cancelProcess

def handleSocketReady : Session :=
  let ready := s.modifyProcess fun p => { p with socketError := false }
  if s.processExecutor.process.state = .starting then ready.doStartProcess else ready

def handleSocketError (message : String) : Session :=
  let failed := s.modifyProcess fun p => { p with
    socketError := true
    errorString := s!"Internal socket error: {message}" }
  if s.processExecutor.process.state ≠ .notRunning then
    (failed.modifyProcess fun p => { p with state := .notRunning, error := .failedToStart }
      ).onProcessError
  else failed

def handleErrorPacket (error : ProcessError) (errorString : String) : Session :=
  if s.processExecutor.process.state = .notRunning then s
  else
    (s.modifyProcess fun p => { p with error, errorString, state := .notRunning }
      ).onProcessError

def handleFinishedPacket (exitCode : Int) (errorString : String) : Session :=
  if s.processExecutor.process.state = .running then
    (s.modifyProcess fun p => { p with exitCode, errorString, state := .notRunning }
      ).sendProcessOutput
  else s

/-- The posted end of a command that a dry run has skipped. -/
def processFinishPosted : Session :=
  if s.processExecutor.finishPosted then
    { s with processExecutor := { s.processExecutor with finishPosted := false } }.processFinished
      none
  else s

/-! ## JavaScript commands -/

/-- The executor for JavaScript commands has finished. -/
def jsFinished (err : Option ErrorInfo) : Session :=
  let stopped := { s with jsExecutor := { s.jsExecutor with watchdogActive := false } }
  stopped.onCommandFinished err

/-- Start a JavaScript command: the thread is asked to evaluate it. -/
def startJsCommand (cmd : JavaScriptCommand) : Session :=
  if s.jsExecutor.running then s
  else if cmd.skipped then { s with jsExecutor := { s.jsExecutor with finishPosted := true } }
  else { s with jsExecutor := { s.jsExecutor with
    running := true
    threadState := .startPosted
    watchdogActive := if cmd.timeout ≤ 0 then s.jsExecutor.watchdogActive else true } }

/-- Ask the thread to cancel a running command. -/
def cancelJsCommand (reason : Option ErrorInfo) : Session :=
  if s.jsExecutor.running then
    { s with jsExecutor := { s.jsExecutor with
      postedCancels := s.jsExecutor.postedCancels ++ [reason] } }
  else s

/-- The thread starts a command; a cancelled thread object only reports its end. -/
def threadStart : Session :=
  if s.jsExecutor.threadState = .startPosted then
    if s.jsExecutor.cancelled then
      { s with jsExecutor := { s.jsExecutor with threadState := .finishedPosted } }
    else
      { s with jsExecutor := { s.jsExecutor with
        threadState := .evaluating
        result := ⟨true, ""⟩ } }.execute
  else s

/-- The script comes to its end, possibly with an exception. -/
def scriptDone (exception : Option String) : Session :=
  if s.jsExecutor.threadState = .evaluating then
    { s with jsExecutor := { s.jsExecutor with
      threadState := .finishedPosted
      result :=
        match exception with
        | some message => ⟨false, message⟩
        | none => s.jsExecutor.result } }
  else s

/-- The text of a reason. -/
def reasonText : Option ErrorInfo → String
  | some (.message text) => text
  | some (.check condition) => condition
  | some .outOfFuel | none => ""

/-- The thread sees a request to cancel. -/
def threadCancel : Session :=
  match s.jsExecutor.postedCancels with
  | [] => s
  | reason :: rest =>
      { s with jsExecutor := { s.jsExecutor with
        result := ⟨reason.isNone, reasonText reason⟩
        cancelled := true
        postedCancels := rest } }

/-- The error in the result of a script. -/
def resultErrorInfo (result : JavaScriptCommandResult) : Option ErrorInfo :=
  if result.success then none else some (.message result.errorMessage)

/-- The end of a JavaScript command arrives. -/
def onJavaScriptCommandFinished : Session :=
  if s.jsExecutor.threadState = .finishedPosted then
    { s with jsExecutor := { s.jsExecutor with running := false, threadState := .idle } }.jsFinished
      (resultErrorInfo s.jsExecutor.result)
  else s

/-- The posted end of a command that a dry run has skipped. -/
def jsFinishPosted : Session :=
  if s.jsExecutor.finishPosted then
    { s with jsExecutor := { s.jsExecutor with finishPosted := false } }.jsFinished none
  else s

/-! ## Events -/

/-- The reason for cancelling a command that takes too long. -/
def timeoutReason : ErrorInfo :=
  .message "Command cancelled because it exceeded the timeout."

/-- Cancel the current command of the job. -/
def cancel (current : Command) : Session :=
  let failed := { s with error := some (.message "Transformer execution canceled.") }
  match current with
  | .process _ => failed.cancelProcessCommand none
  | .javaScript _ => failed.cancelJsCommand none

/-- What a job does with an event. -/
def handle (current : Command) : Event → Session
  | .socketReady => s.handleSocketReady
  | .socketError message => s.handleSocketError message
  | .errorPacket error errorString => s.handleErrorPacket error errorString
  | .finishedPacket exitCode errorString => s.handleFinishedPacket exitCode errorString
  | .processWatchdog =>
      if s.processExecutor.watchdogActive then
        { s with processExecutor := { s.processExecutor with watchdogActive := false }
          }.cancelProcessCommand (some timeoutReason)
      else s
  | .processFinishPosted => s.processFinishPosted
  | .cancel => s.cancel current
  | .threadStart => s.threadStart
  | .scriptDone exception => s.scriptDone exception
  | .threadCancel => s.threadCancel
  | .finishedDelivered => s.onJavaScriptCommandFinished
  | .jsWatchdog =>
      if s.jsExecutor.watchdogActive then
        { s with jsExecutor := { s.jsExecutor with watchdogActive := false } }.cancelJsCommand
          (some timeoutReason)
      else s
  | .jsFinishPosted => s.jsFinishPosted

/-- Handle events until the current command has finished. -/
def handleAll (current : Command) : List Event → Session → Session
  | [], s => s
  | e :: es, s => if s.report.finished.isSome then s else handleAll current es (s.handle current e)

/-- Start a command. -/
def start (current : Command) (socketReady : Bool) : Session :=
  match current with
  | .process cmd => s.startProcessCommand cmd socketReady
  | .javaScript cmd => s.startJsCommand cmd

end Session

/-- A command with the state of the socket and the events while it is the current one. -/
structure CommandRun where
  command : Command
  socketReady : Bool
  events : List Event

/-- Nothing is reported yet. -/
def Report.empty : Report :=
  ⟨false, none, none⟩

/-- Run a command after the ones before it. -/
def runCommand (s : Session) (r : CommandRun) : Session :=
  Session.handleAll r.command r.events
    ({ s with report := .empty }.start r.command r.socketReady)

/-- A new job. -/
def Session.new : Session where
  processExecutor := {
    process := ⟨.notRunning, .unknownError, "", 0, false⟩
    command := none
    cancelReason := none
    resultConnected := true
    watchdogActive := false
    finishPosted := false }
  jsExecutor := {
    running := false
    threadState := .idle
    result := ⟨false, ""⟩
    cancelled := false
    postedCancels := []
    watchdogActive := false
    finishPosted := false }
  error := none
  report := .empty

end ExecutorJob

end Qbs
