/-!
# Processes

The states of a process and the errors it can end with.

Main results:

- Definitions {lit}`ProcessState` and {lit}`ProcessError`.

Current gaps:

- None.
-/

namespace Qbs

inductive ProcessState where
  | notRunning
  | starting
  | running
deriving DecidableEq

inductive ProcessError where
  | failedToStart
  | crashed
  | timedout
  | writeError
  | readError
  | unknownError
deriving DecidableEq

end Qbs
