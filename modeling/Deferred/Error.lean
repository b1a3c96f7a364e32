import Deferred.Error.System
import Deferred.Time

/-!
# Errors

Every way in which a call on the executor, its configuration or its telemetry can fail.
`Error.message` is the text of an error, `Error.isResourceExhaustion` tells the failures that
running out of room causes, and `Error.source` is the text of the failure underneath.
-/

namespace Deferred

/-- Why an input or output operation failed. -/
inductive IoFailure
  /-- The operating system refused. -/
  | system (error : SystemError)
  /-- The operation was refused before the operating system saw it. -/
  | other (text : String)
  deriving DecidableEq, Repr

/-- The text of an input or output failure. -/
def IoFailure.text : IoFailure → String
  | .system e => e.display
  | .other text => text

/-- The ways in which a call can fail. -/
inductive Error
  /-- An argument makes no sense. -/
  | invalidArgument (text : String)
  /-- The queue could not get the memory for one more task. No call fails so here: memory has no
  bound. -/
  | outOfMemory
  /-- The queue holds as many tasks as its limit allows. -/
  | queueFull (capacity : Nat)
  /-- The executor takes no more tasks. -/
  | shutDown
  /-- The executor could not be started. -/
  | executor (text : String)
  /-- The configuration is not valid. -/
  | config (text : String)
  /-- A panic has ended the worker. -/
  | workerPanic (text : String)
  /-- Telemetry could not be set up or written. -/
  | telemetry (text : String)
  /-- An input or output operation failed. -/
  | io (failure : IoFailure)
  deriving DecidableEq, Repr

namespace Error

/-- The name of the kind of error. -/
def kind : Error → String
  | invalidArgument _ => "InvalidArgument"
  | outOfMemory => "OutOfMemory"
  | queueFull _ => "QueueFull"
  | shutDown => "ShutDown"
  | executor _ => "Executor"
  | config _ => "Config"
  | workerPanic _ => "WorkerPanic"
  | telemetry _ => "Telemetry"
  | io _ => "Io"

/-- The text of an error. -/
def message : Error → String
  | invalidArgument text => s!"invalid argument: {text}"
  | outOfMemory => "out of memory: task queue could not grow"
  | queueFull capacity => s!"task queue full ({capacity} pending)"
  | shutDown => "executor has been shut down"
  | executor text => s!"executor error: {text}"
  | config text => s!"config error: {text}"
  | workerPanic text => s!"worker panic: {text}"
  | telemetry text => s!"telemetry error: {text}"
  | io failure => s!"I/O error: {failure.text}"

/-- The failures that running out of room causes. -/
def isResourceExhaustion : Error → Bool
  | outOfMemory | queueFull _ => true
  | _ => false

/-- The text of the failure underneath, if there is one. -/
def source : Error → Option String
  | io failure => some failure.text
  | _ => none

/-- The delay ends after the last instant that the clock can show. -/
def delayOverflows (delay : Duration) : Error :=
  .invalidArgument s!"delay {delay.text} overflows the monotonic clock"

/-- A task was offered to a worker that a panic has ended. -/
def workerDead : Error := .workerPanic "worker thread terminated by a panicking task"

/-- The operating system refused to start the worker. -/
def spawnFailed (refusal : SystemError) : Error := .executor s!"spawn failed: {refusal.display}"

end Error

end Deferred
