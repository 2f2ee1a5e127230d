import QbsCore.Launcher.Calls
import QbsCore.Library.Lanes
import Mathlib.Logic.Function.Basic

/-!
# The process launcher

Process handles send requests through the launcher socket to the launcher process, which
runs the processes, one for each token, and sends back what became of them.

Main results:

- Definition {lit}`Launcher.System`: the handles, both streams and the launcher.
- Definition {lit}`Launcher.System.perform`: what the calls of users, deliveries, processes
  and timers do.

Current gaps:

- The connection is made once and is not lost; the launcher is not shut down.
- A handle gets its environment and working directory together with the call that starts it.
- The output of a process is part of the signal that reports its end; reading it from the
  handle is left out.
- A process object that was forgotten is not connected to anything, and only its stop
  procedure is modelled.
-/

namespace Qbs

namespace Launcher

open Lanes

/-- The address of a process handle. -/
abbrev Token :=
  Nat

inductive ExitStatus where
  | normalExit
  | crashExit
deriving DecidableEq

structure ProcessErrorPacket where
  error : ProcessError
  errorString : String
deriving DecidableEq

structure ProcessFinishedPacket where
  errorString : String
  stdOut : QByteArray
  stdErr : QByteArray
  exitStatus : ExitStatus
  error : ProcessError
  exitCode : Int
deriving DecidableEq

/-- The packets for the launcher. -/
inductive Request where
  | startProcess (packet : StartProcessPacket)
  | stopProcess
deriving DecidableEq

/-- The packets for process handles. -/
inductive Answer where
  | processError (packet : ProcessErrorPacket)
  | processFinished (packet : ProcessFinishedPacket)
deriving DecidableEq

/-- A process handle. -/
structure QbsProcess where
  command : String
  arguments : List String
  environment : List String
  workingDirectory : String
  stdOut : QByteArray
  stdErr : QByteArray
  errorString : String
  error : ProcessError
  exitCode : Int
  state : ProcessState
  socketError : Bool
deriving DecidableEq

/-- The request that a handle sends. -/
def QbsProcess.startPacket (p : QbsProcess) : StartProcessPacket where
  command := p.command
  arguments := p.arguments
  env := p.environment
  workingDir := p.workingDirectory

/-- The socket of the client with the packets that are not written yet. -/
structure LauncherSocket where
  isReady : Bool
  requests : List (Token × Request)
  /-- A call of the function that writes the packets has been posted. -/
  requestsPosted : Bool

inductive StopState where
  | inactive
  | terminating
  | killing
deriving DecidableEq

/-- A process of the launcher. -/
structure Process where
  state : ProcessState
  stopState : StopState
  stopTimerActive : Bool
  stdOut : QByteArray
  stdErr : QByteArray
deriving DecidableEq

namespace Process

/-- What a request to stop does to a running process. -/
inductive StopEffect where
  | terminate
  | kill
  | failedToStop
deriving DecidableEq

/-- The next step of the stop procedure; the last one gives up. -/
def cancel (p : Process) : Process × StopEffect :=
  match p.stopState with
  | .inactive => ({ p with stopState := .terminating, stopTimerActive := true }, .terminate)
  | .terminating => ({ p with stopState := .killing, stopTimerActive := true }, .kill)
  | .killing => ({ p with stopState := .inactive }, .failedToStop)

def stopStopProcedure (p : Process) : Process :=
  { p with stopState := .inactive, stopTimerActive := false }

/-- A process object that has just been set up. -/
def setup : Process where
  state := .notRunning
  stopState := .inactive
  stopTimerActive := false
  stdOut := []
  stdErr := []

end Process

/-- All parties and streams, with a record of what has been observed. -/
structure System where
  client : Token → QbsProcess
  socket : LauncherSocket
  /-- The handle has not seen yet that the socket is ready. -/
  readyPosted : Token → Bool
  toLauncher : List (Token × Request)
  processes : Token → Option Process
  forgotten : List Process
  toClient : List (Token × Answer)
  history : List (Token × Event)

namespace System

variable (s : System)

def record (t : Token) (e : Event) : System :=
  { s with history := s.history ++ [(t, e)] }

/-! ## Process handles -/

def modifyClient (t : Token) (f : QbsProcess → QbsProcess) : System :=
  { s with client := Function.update s.client t (f (s.client t)) }

/-- Queue a packet; the first one in the queue posts a call that writes them all. -/
def sendData (t : Token) (r : Request) : System :=
  if s.socket.isReady then
    { s with socket := { s.socket with
      requests := s.socket.requests ++ [(t, r)]
      requestsPosted := s.socket.requestsPosted || s.socket.requests.isEmpty } }
  else s

/-- Send the request to start the process. -/
def doStart (t : Token) : System :=
  (s.modifyClient t fun p => { p with state := .running }).sendData t
    (.startProcess (s.client t).startPacket)

def emitErrorOccurred (t : Token) : System :=
  s.record t (.errorOccurred (s.client t).error (s.client t).errorString)

/-- A user starts a process. -/
def start (t : Token) (request : StartProcessPacket) : System :=
  let called := s.record t (.start request)
  if (s.client t).socketError then
    (called.modifyClient t fun p => { p with error := .failedToStart }).emitErrorOccurred t
  else
    let starting := called.modifyClient t fun p => { p with
      command := request.command
      arguments := request.arguments
      environment := request.env
      workingDirectory := request.workingDir
      state := .starting }
    if s.socket.isReady then starting.doStart t else starting

/-- A user cancels a process. -/
def cancel (t : Token) : System :=
  match (s.client t).state with
  | .notRunning => s
  | .starting =>
      (s.modifyClient t fun p => { p with
        errorString := "Process canceled before it was started."
        error := .failedToStart
        state := .notRunning }).emitErrorOccurred t
  | .running => s.sendData t .stopProcess

/-- A handle sees that the socket is ready. -/
def handleSocketReady (t : Token) : System :=
  let seen := { s.modifyClient t (fun p => { p with socketError := false }) with
    readyPosted := Function.update s.readyPosted t false }
  if (s.client t).state = .starting then seen.doStart t else seen

def handleErrorPacket (t : Token) (packet : ProcessErrorPacket) : System :=
  if (s.client t).state = .notRunning then s.record t .assertionFailed
  else
    (s.modifyClient t fun p => { p with
      error := packet.error
      errorString := packet.errorString
      state := .notRunning }).emitErrorOccurred t

def handleFinishedPacket (t : Token) (packet : ProcessFinishedPacket) : System :=
  if (s.client t).state ≠ .running then s.record t .assertionFailed
  else
    (s.modifyClient t fun p => { p with
      state := .notRunning
      exitCode := packet.exitCode
      stdOut := packet.stdOut
      stdErr := packet.stdErr
      errorString := packet.errorString }).record t
        (.finished packet.exitCode packet.stdOut packet.stdErr)

def handlePacket (t : Token) : Answer → System
  | .processError packet => s.handleErrorPacket t packet
  | .processFinished packet => s.handleFinishedPacket t packet

/-! ## The launcher socket -/

/-- The launcher has connected; all handles are told. -/
def setSocket : System :=
  if s.socket.isReady then s
  else { s with
    socket := { s.socket with isReady := true }
    readyPosted := fun _ => true }

/-- Write the queued packets. -/
def handleRequests : System :=
  if s.socket.isReady then
    { s with
      toLauncher := s.toLauncher ++ s.socket.requests
      socket := { s.socket with requests := [], requestsPosted := false } }
  else { s with socket := { s.socket with requestsPosted := false } }

/-! ## The launcher -/

def setProcess (t : Token) (p : Option Process) : System :=
  { s with processes := Function.update s.processes t p }

def sendPacket (t : Token) (a : Answer) : System :=
  { s with toClient := s.toClient ++ [(t, a)] }

/-- A process reports an error; only a failure to start ends it. -/
def handleProcessError (t : Token) (p : Process) (error : ProcessError) (errorString : String) :
    System :=
  if error ≠ .failedToStart then s
  else
    (s.setProcess t (some p.stopStopProcedure)).sendPacket t (.processError ⟨error, errorString⟩)

/-- A process has finished; its output is read. -/
def handleProcessFinished (t : Token) (p : Process) (exitCode : Int) (exitStatus : ExitStatus)
    (error : ProcessError) (errorString : String) : System :=
  (s.setProcess t (some { p.stopStopProcedure with stdOut := [], stdErr := [] })).sendPacket t
    (.processFinished ⟨errorString, p.stdOut, p.stdErr, exitStatus, error, exitCode⟩)

/-- A process did not react to being killed: forget about it and report it as crashed. -/
def handleStopFailure (t : Token) (p : Process) : System :=
  let gone := { s.setProcess t none with
    forgotten := s.forgotten ++ [{ p with stdOut := [], stdErr := [] }] }
  gone.sendPacket t (.processFinished ⟨"", p.stdOut, p.stdErr, .crashExit, .crashed, -1⟩)

/-- A step of the stop procedure of a process. -/
def cancelProcess (t : Token) (p : Process) : System :=
  match p.cancel with
  | (p', .failedToStop) => (s.record t .givenUp).handleStopFailure t p'
  | (p', _) => s.setProcess t (some p')

/-- The process object for a token, set up if it is not there. -/
def process (t : Token) : Process :=
  (s.processes t).getD .setup

def handleStartPacket (t : Token) (packet : StartProcessPacket) : System :=
  if (s.process t).state ≠ .notRunning then
    (s.setProcess t (some (s.process t))).record t .startRefused
  else
    (s.setProcess t (some { s.process t with state := .starting })).record t (.launched packet)

def handleStopPacket (t : Token) : System :=
  match s.processes t with
  | none => s
  | some p => if p.state = .notRunning then s else s.cancelProcess t p

def handleRequest (t : Token) : Request → System
  | .startProcess packet => s.handleStartPacket t packet
  | .stopProcess => s.handleStopPacket t

end System

/-! ## Steps -/

/-- What can happen: users start and cancel processes, the launcher connects, queued calls
and packets arrive, processes start, write output and end, and stop timers expire. -/
inductive Action where
  | start (t : Token) (request : StartProcessPacket)
  | cancel (t : Token)
  | setSocket
  | socketReady (t : Token)
  | handleRequests
  | deliverRequest
  | deliverAnswer
  | processStarted (t : Token)
  | processFailedToStart (t : Token) (errorString : String)
  | processError (t : Token) (error : ProcessError) (errorString : String)
  | processOutput (t : Token) (stdOut stdErr : QByteArray)
  | processFinished (t : Token) (exitCode : Int) (exitStatus : ExitStatus) (error : ProcessError)
      (errorString : String)
  | stopTimeout (t : Token)
  | forgottenTimeout (index : Nat)
deriving DecidableEq

namespace System

variable (s : System)

/-- The state of the process for a token, if there is one. -/
def processState (t : Token) : ProcessState :=
  (s.process t).state

/-- An action can occur.  Users only start processes that are not running, only a starting
process fails to start, and only a running one writes output or finishes. -/
def enabled : Action → Bool
  | .start t _ => (s.client t).state = .notRunning
  | .cancel _ => true
  | .setSocket => !s.socket.isReady
  | .socketReady t => s.readyPosted t
  | .handleRequests => s.socket.requestsPosted
  | .deliverRequest => !s.toLauncher.isEmpty
  | .deliverAnswer => !s.toClient.isEmpty
  | .processStarted t | .processFailedToStart t _ => s.processState t = .starting
  | .processError t error _ => s.processState t ≠ .notRunning && error ≠ .failedToStart
  | .processOutput t _ _ | .processFinished t _ _ _ _ => s.processState t = .running
  | .stopTimeout t => (s.process t).stopTimerActive
  | .forgottenTimeout _ => true

/-- The system after an action. -/
def perform : Action → System
  | .start t request => s.start t request
  | .cancel t => s.cancel t
  | .setSocket => s.setSocket
  | .socketReady t => s.handleSocketReady t
  | .handleRequests => s.handleRequests
  | .deliverRequest =>
      match s.toLauncher with
      | [] => s
      | (t, r) :: rest => { s with toLauncher := rest }.handleRequest t r
  | .deliverAnswer =>
      match s.toClient with
      | [] => s
      | (t, a) :: rest => { s with toClient := rest }.handlePacket t a
  | .processStarted t => s.setProcess t (some { s.process t with state := .running })
  | .processFailedToStart t errorString =>
      (s.record t (.failedToStart errorString)).handleProcessError t
        { s.process t with state := .notRunning } .failedToStart errorString
  | .processError t error errorString => s.handleProcessError t (s.process t) error errorString
  | .processOutput t stdOut stdErr =>
      (s.record t (.output stdOut stdErr)).setProcess t (some { s.process t with
        stdOut := (s.process t).stdOut ++ stdOut
        stdErr := (s.process t).stdErr ++ stdErr })
  | .processFinished t exitCode exitStatus error errorString =>
      (s.record t (.ended exitCode)).handleProcessFinished t
        { s.process t with state := .notRunning } exitCode exitStatus error errorString
  | .stopTimeout t => s.cancelProcess t { s.process t with stopTimerActive := false }
  | .forgottenTimeout index =>
      { s with forgotten := s.forgotten.modify index fun p =>
        if p.stopTimerActive then ({ p with stopTimerActive := false } : Process).cancel.1 else p }

/-- A step of the system. -/
def Step (a : Action) (s' : System) : Prop :=
  s.enabled a = true ∧ s' = s.perform a

/-- No process has been started and the launcher has not connected yet. -/
def initial : System where
  client := fun _ => ⟨"", [], [], "", [], [], "", .unknownError, 0, .notRunning, false⟩
  socket := ⟨false, [], false⟩
  readyPosted := fun _ => false
  toLauncher := []
  processes := fun _ => none
  forgotten := []
  toClient := []
  history := []

end System

end Launcher

end Qbs
