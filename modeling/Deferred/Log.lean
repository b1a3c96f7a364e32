import Deferred.Config
import Deferred.Task

/-!
# Log lines

Everything that the library reports to its log, as data: `LogLine.level` is how grave a line is and
`LogLine.text` how it reads.
-/

namespace Deferred

/-- How grave a log line is. -/
inductive Level
  | error
  | warn
  | info
  | debug
  | trace
  deriving DecidableEq, Repr

namespace Level

/-- The name of a level in small letters. -/
def name : Level → String
  | error => "error"
  | warn => "warn"
  | info => "info"
  | debug => "debug"
  | trace => "trace"

/-- The name of a level in capital letters, as a log shows it. -/
def label : Level → String
  | error => "ERROR"
  | warn => "WARN"
  | info => "INFO"
  | debug => "DEBUG"
  | trace => "TRACE"

/-- The levels in order, the gravest lowest. -/
def rank : Level → Nat
  | error => 1
  | warn => 2
  | info => 3
  | debug => 4
  | trace => 5

end Level

/-- What the library reports to its log. -/
inductive LogLine
  /-- The worker has begun to look for tasks. -/
  | workerStarted
  /-- The worker has seen that it is to end, and ends. -/
  | workerStopped
  /-- A panic leaves the worker, and so many tasks stay behind. -/
  | workerUnwinding (pending : Nat)
  /-- The worker is about to run a task, so many nanoseconds after its deadline. -/
  | taskBegun (task : TaskId) (lateness : UInt64)
  /-- A callable has panicked, and the panic was swallowed. -/
  | taskPanicked (message : String)
  /-- A callable has panicked, and the process is about to end. -/
  | taskAborted (message : String)
  /-- An executor runs. -/
  | executorStarted (name : String) (strategy : PanicStrategy) (policy : ShutdownPolicy)
  /-- A task has been scheduled, and has so long to wait. -/
  | taskScheduled (task : TaskId) (wait : Duration) (cancelable : Bool)
  /-- A call of `cancelAll` is over. -/
  | tasksCanceled (removed invoked : Nat)
  /-- A callable on the worker has shut its own executor down. -/
  | shutDownFromWorker (name : String)
  /-- The worker that was waited for had ended in a panic. -/
  | workerPanicked (name message : String)
  /-- A shutdown has discarded what was left. -/
  | stoppedDiscarding (name : String) (removed : Nat)
  /-- A shutdown has canceled what was left. -/
  | stoppedCanceling (name : String) (removed invoked : Nat)
  /-- The shutdown that dropping the executor makes has failed. -/
  | shutdownFailed (name : String) (error : Error)
  deriving DecidableEq, Repr

namespace LogLine

/-- The line about a task that has been scheduled. -/
@[simp] def scheduled {α : Type} (task : Task α) (now : Instant) : LogLine :=
  .taskScheduled task.id (.ofNanos (task.deadline.since now)) task.isCancelable

/-- The line about a task that is about to be run. -/
@[simp] def begun {α : Type} (task : Task α) (now : Instant) : LogLine :=
  .taskBegun task.id (now.since task.deadline).toUInt64

/-- How grave a log line is. -/
def level : LogLine → Level
  | workerUnwinding _ | taskAborted _ | workerPanicked _ _ | shutdownFailed _ _ => .error
  | taskPanicked _ | shutDownFromWorker _ => .warn
  | workerStarted | workerStopped | executorStarted _ _ _ | tasksCanceled _ _
  | stoppedDiscarding _ _ | stoppedCanceling _ _ _ => .debug
  | taskBegun _ _ | taskScheduled _ _ _ => .trace

/-- How a log line reads. -/
def text : LogLine → String
  | workerStarted => "delayed worker started"
  | workerStopped => "delayed worker stopped"
  | workerUnwinding pending =>
    s!"delayed worker unwinding, {pending} pending tasks left for shutdown"
  | taskBegun task lateness => s!"running task {task.text} ({lateness}ns past deadline)"
  | taskPanicked message => s!"task panicked: {message}"
  | taskAborted message => s!"task panicked (abort strategy): {message}"
  | executorStarted name strategy policy =>
    s!"started executor '{name}' (panic strategy {strategy.name}, " ++
      s!"shutdown policy {policy.name})"
  | taskScheduled task wait cancelable =>
    s!"scheduled task {task.text} in {wait.text} (cancelable: {cancelable})"
  | tasksCanceled removed invoked =>
    s!"canceled {removed} pending tasks ({invoked} cancellation callbacks run)"
  | shutDownFromWorker name =>
    s!"executor '{name}' shut down from its own worker thread, not joining"
  | workerPanicked name message => s!"worker '{name}' panicked: {message}"
  | stoppedDiscarding name removed =>
    s!"executor '{name}' stopped, {removed} pending tasks discarded"
  | stoppedCanceling name removed invoked =>
    s!"executor '{name}' stopped, {removed} pending tasks canceled ({invoked} callbacks run)"
  | shutdownFailed name error => s!"executor '{name}' shutdown failed: {error.message}"

end LogLine

end Deferred
