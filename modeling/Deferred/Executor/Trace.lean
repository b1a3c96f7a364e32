import Deferred.Executor.Script
import Deferred.Log

/-!
# Traces

What happens in an executor and in the threads that use it, event by event.

* `Event` is one thing that happens, `Entry` adds the thread in which it does.
* `Answer` is what a call answers.
-/

namespace Deferred

/-- A thread: the executor's own, or one of any number of callers. -/
inductive ThreadId
  | worker
  | caller (number : Nat)
  deriving DecidableEq, Repr

/-- The two kinds of callables of a task. -/
inductive Role
  /-- What is run at the deadline. -/
  | action
  /-- What is run if the task is canceled first. -/
  | callback
  deriving DecidableEq, Repr

/-- What a call answers. -/
inductive Answer
  /-- The task has been scheduled. -/
  | scheduled (task : TaskId)
  /-- The call has failed. -/
  | failed (error : Error)
  /-- So many tasks. -/
  | count (tasks : Nat)
  /-- The name of the thread. -/
  | name (text : String)
  /-- It is done. -/
  | ok
  /-- The executor cannot be reached. -/
  | gone
  deriving DecidableEq

/-- What happens. -/
inductive Event
  /-- A task has been added to the queue. -/
  | accepted (task : TaskId)
  /-- Tasks have been removed from the queue together. -/
  | removed (tasks : List TaskId)
  /-- A callable of a task has been begun. -/
  | started (role : Role) (task : TaskId) (label : String)
  /-- A callable of a task has panicked. -/
  | raised (task : TaskId) (payload : Payload)
  /-- A call made by a callable has been answered. -/
  | answered (topic : Topic) (answer : Answer)
  /-- A call made by a caller has been answered. -/
  | returned (answer : Answer)
  /-- A panic has unwound a call made by a caller. -/
  | unwound (payload : Payload)
  /-- A line has been logged. -/
  | logged (line : LogLine)
  deriving DecidableEq

/-- An event and its thread. -/
structure Entry where
  thread : ThreadId
  event : Event
  deriving DecidableEq

end Deferred
