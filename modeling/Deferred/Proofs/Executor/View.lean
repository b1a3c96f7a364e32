import Deferred.Executor.Move

/-!
# What is seen of an executor

Two executors are compared by what can be seen of them and of the threads that use them: what has
happened, and how they stand. How far a thread has come is not seen, but which moves can be made is.

* `Executor.View` and `Executor.view`: what can be seen of an executor.
* `Executor.observe`: what is seen of an executor that is started and then makes moves.
* `Executor.View.sift`: a view in which events are seen differently.
-/

namespace Deferred

/-- An event as it is seen, if it is. -/
def Entry.sift (f : Event → Option Event) (entry : Entry) : Option Entry :=
  (f entry.event).map (⟨entry.thread, ·⟩)

@[simp] theorem Entry.sift_some : Entry.sift some = some := rfl

namespace Executor

/-- What can be seen of an executor and of the threads that use it. -/
structure View where
  /-- What has happened, the latest first: answers, callables and log lines. -/
  trace : List Entry
  /-- The pending tasks in the order in which they are run. -/
  queue : List (Task Script)
  pending : Nat
  isIdle : Bool
  nextDeadline : Option Instant
  terminating : Bool
  workerPanicked : Bool
  access : Access
  /-- Whether the process has ended. -/
  aborted : Bool
  panicCount : Nat
  metrics : Snapshot

/-- A view in which events are seen differently, or not at all. -/
def View.sift (f : Event → Option Event) (v : View) : View :=
  { v with trace := v.trace.filterMap (Entry.sift f) }

/-- What can be seen of an executor. -/
def view (e : Executor) : View where
  trace := e.trace
  queue := e.guarded.pending.drain
  pending := e.guarded.pending.size
  isIdle := e.guarded.pending.isEmpty
  nextDeadline := e.guarded.pending.nextDeadline?
  terminating := e.guarded.terminating
  workerPanicked := e.guarded.workerPanicked
  access := e.access
  aborted := e.aborted
  panicCount := e.handler.panicCount
  metrics := e.snapshot

/-- What is seen of an executor that is started and then makes moves: an error if it does not start,
nothing if it cannot make them. -/
def observe (config : Config) (telemetry : Telemetry) (clock : Instant)
    (refusal : Option SystemError) (ms : List Move) : Except Error (Option View) :=
  (start config telemetry clock refusal).map fun e => (e.moves? ms).map view

end Executor

end Deferred
