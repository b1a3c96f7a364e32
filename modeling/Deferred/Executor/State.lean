import Deferred.Executor.Trace
import Deferred.Guarded
import Deferred.Panic.Handler
import Deferred.Telemetry.Metrics

/-!
# Executors

The state of an executor: what all threads share, and how far each of them has come in the call that
it is making. A thread that runs a callable which makes a call in turn has a stack of callables in
progress.

* `Batch` are the tasks that one call has removed and is settling.
* `Frame` is a callable in progress, `Control` what a thread does next, `Activity` both.
* `Executor` is the state, and `Executor.start` the one in which an executor begins.
-/

namespace Deferred

/-! ## Threads -/

/-- Whether callers and callables can reach the executor. -/
inductive Access
  /-- They can. -/
  | available
  /-- They cannot, while a call is ending it. -/
  | engaged
  /-- They cannot any more. -/
  | dropped
  deriving DecidableEq, Repr

/-- The two calls that end an executor. -/
inductive Closing
  | shutdown
  | drop
  deriving DecidableEq, Repr

namespace Closing

/-- Whether the executor can be reached after a call that has ended it. -/
def access : Closing → Access
  | shutdown => .available
  | drop => .dropped

/-- What a call that ends an executor is about. -/
def topic : Closing → Topic
  | shutdown => .shutdown
  | drop => .drop

/-- What a call that ends an executor answers; dropping never fails. -/
def answer (failure : Option Error) : Closing → Answer
  | shutdown =>
    match failure with
    | some error => .failed error
    | none => .ok
  | drop => .ok

end Closing

/-- Why tasks have been removed. -/
inductive Purpose
  /-- By a call of `cancelAll`. -/
  | cancelAll
  /-- At the end of the executor; `failure` is what the call will answer if it gets that far. -/
  | closing (how : Closing) (failure : Option Error)
  deriving DecidableEq

/-- Tasks that one call has removed, and how far it has come with them. -/
structure Batch where
  purpose : Purpose
  /-- The tasks not yet dealt with. -/
  tasks : Queue Script
  removed : Nat
  /-- How many cancellation callbacks have been run. -/
  invoked : Nat := 0

namespace Batch

/-- A batch of which no task has been dealt with. -/
def ofQueue (purpose : Purpose) (tasks : Queue Script) : Batch :=
  { purpose, tasks, removed := tasks.size }

/-- A batch after one more cancellation callback. -/
def goOn (b : Batch) : Batch := { b with invoked := b.invoked + 1 }

/-- The line that is logged when a batch of the executor of a name has been settled. -/
def line (b : Batch) (name : String) : LogLine :=
  match b.purpose with
  | .cancelAll => .tasksCanceled b.removed b.invoked
  | .closing _ _ => .stoppedCanceling name b.removed b.invoked

end Batch

/-- A callable in progress, with what is left of its script. -/
inductive Frame
  /-- The worker runs an action. -/
  | action (task : TaskId) (deadline started : Instant) (rest : Script)
  /-- A thread runs the cancellation callback of a task that it has removed with others. -/
  | callback (task : TaskId) (batch : Batch) (rest : Script)

/-- What is left of the script of a callable in progress. -/
def Frame.rest : Frame → Script
  | action _ _ _ rest | callback _ _ rest => rest

/-- The callable in progress at another point of its script. -/
def Frame.goOn (rest : Script) : Frame → Frame
  | action task deadline started _ => action task deadline started rest
  | callback task batch _ => callback task batch rest

/-- The task of a callable in progress. -/
def Frame.task : Frame → TaskId
  | action task _ _ _ | callback task _ _ => task

/-- What a thread does next. -/
inductive Control
  /-- Go on with the callable on top of the stack. -/
  | ready
  /-- Take the lock and add a task that has been made. -/
  | enqueue (task : Task Script)
  /-- Wake the worker for a task that has become the first one. -/
  | notify (task : Task Script)
  /-- Count a task that has been added. -/
  | record (task : Task Script)
  /-- Deal with the next of the removed tasks. -/
  | settle (batch : Batch)
  /-- Count a callable that has ended. -/
  | ended (frame : Frame) (swallowed : Bool)
  /-- Take the panic to the next callable of the stack. -/
  | unwind (payload : Payload)
  /-- End the process. -/
  | abort
  /-- Take the lock and have the worker end. -/
  | flag (how : Closing)
  /-- Wake the worker so that it ends. -/
  | rouse (how : Closing)
  /-- Wait until the worker has ended. -/
  | join (how : Closing)
  /-- Take the lock and remove the tasks that are left. -/
  | drain (how : Closing) (failure : Option Error)

/-- How far a thread is: what it does next, and the callables in progress, the latest first. -/
structure Activity where
  control : Control := .ready
  stack : List Frame := []

namespace Activity

/-- A caller that makes no call. -/
def idle : Activity := {}

instance : Inhabited Activity := ⟨idle⟩

/-- Whether a caller makes no call. -/
def isIdle : Activity → Bool
  | ⟨.ready, []⟩ => true
  | _ => false

end Activity

/-- How far the worker has come. -/
inductive WorkerState
  /-- It is about to take the lock and look for work. -/
  | polling
  /-- It sleeps, until woken or until an instant. -/
  | parked (deadline : Option Instant)
  /-- It runs an action. -/
  | busy (activity : Activity)
  /-- It has ended as it was told to. -/
  | stopped
  /-- A panic has ended it. -/
  | died (payload : Payload)

/-! ## The whole state -/

/-- An executor and the threads that use it. Tasks are numbered from one, as in a process that has
no other executor: with others, which take numbers from the same counter, there would be gaps. -/
structure Executor where
  config : Config
  telemetry : Telemetry
  handler : Handler
  guarded : Guarded Script
  clock : Instant
  /-- When the executor was started. -/
  startedAt : Instant
  nextId : Nat := 1
  access : Access := .available
  /-- No call has yet set out to end the executor. -/
  joinable : Bool := true
  worker : WorkerState := .polling
  callers : List Activity := []
  /-- A panic has ended the process, and no thread makes a further step. -/
  aborted : Bool := false
  /-- What has happened, the latest first. -/
  trace : List Entry := []

namespace Executor

/-- The activity of a caller. -/
def caller (e : Executor) (n : Nat) : Activity := (e.callers[n]?).getD .idle

/-- The executor with the activity of a caller changed. -/
def setCaller (e : Executor) (n : Nat) (a : Activity) : Executor :=
  { e with callers :=
      (e.callers ++ List.replicate (n + 1 - e.callers.length) Activity.idle).set n a }

/-- The executor with the activity of a thread changed. -/
def setActivity (e : Executor) (a : Activity) : ThreadId → Executor
  | .worker => { e with worker := .busy a }
  | .caller n => e.setCaller n a

/-- Notes what happens in a thread. -/
def note (e : Executor) (t : ThreadId) (event : Event) : Executor :=
  { e with trace := ⟨t, event⟩ :: e.trace }

/-- Notes a log line. -/
def log (e : Executor) (t : ThreadId) (line : LogLine) : Executor := e.note t (.logged line)

/-- Something happens to the metrics. -/
def count (e : Executor) (f : Metrics → Metrics) : Executor :=
  { e with telemetry := e.telemetry.update f }

/-- The name of a thread. -/
def threadName (e : Executor) : ThreadId → String
  | .worker => e.config.threadName
  | .caller 0 => "main"
  | .caller n => s!"caller-{n}"

/-- What the metrics say. -/
def snapshot (e : Executor) : Snapshot :=
  e.telemetry.snapshot (.ofNanos (e.clock.since e.startedAt))

/-! ## Starting -/

/-- The state in which an executor begins. -/
def initial (config : Config) (telemetry : Telemetry) (clock : Instant) : Executor :=
  let e : Executor :=
    { config, telemetry, clock, startedAt := clock
      handler := { strategy := config.panicStrategy }
      guarded := { pending := .empty config.maxPending } }
  (e.log .worker .workerStarted).log (.caller 0)
    (.executorStarted config.threadName config.panicStrategy config.shutdownPolicy)

/-- Starts an executor, if its configuration is valid and the operating system does not refuse to
start its worker. -/
def start (config : Config) (telemetry : Telemetry) (clock : Instant)
    (refusal : Option SystemError := none) : Except Error Executor := do
  config.validate
  match refusal with
  | some error => .error (.spawnFailed error)
  | none => .ok (initial config telemetry clock)

/-- An executor that has started has not been refused a thread. -/
theorem start_of_ok {config : Config} {telemetry : Telemetry} {clock : Instant}
    {refusal : Option SystemError} {e : Executor}
    (h : start config telemetry clock refusal = .ok e) : start config telemetry clock = .ok e := by
  cases refusal with
  | none => exact h
  | some error =>
    unfold start at h
    cases hvalid : config.validate <;> rw [hvalid] at h <;> cases h

end Executor

end Deferred
