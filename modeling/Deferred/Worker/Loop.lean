import Deferred.Worker.Routine

/-!
# The worker's loop

The worker looks for a task, runs it under the panic handler, counts it, and looks again, until it
finds that it is to end, a panic goes on unwinding through it, or a panic ends the process. While
nothing is due it sleeps, and the clock moves on to the next deadline.

* `Workplace.iterate` is one turn of the loop, `Workplace.run` the whole of it.
* `Workplace.round` pushes some tasks and then runs the loop.
-/

namespace Deferred

namespace Workplace

/-! ## One turn -/

/-- What a turn of the loop comes to. -/
inductive Turn
  /-- There is another turn. -/
  | again
  /-- The loop has ended as it was told to. -/
  | stopped
  /-- A panic has ended the loop. -/
  | unwound (payload : Payload)
  /-- A panic has ended the process. -/
  | aborted
  /-- The worker sleeps, and nothing will wake it. -/
  | asleep
  deriving DecidableEq

/-- What the worker counts for an action that it has run to the end or whose panic was swallowed. -/
def recordRun (w : Workplace) (task : Task Routine) (swallowed : Bool) : Workplace :=
  let executed := w.metrics.recordExecution (w.clock.since task.deadline).toUInt64 0
  { w with metrics := if swallowed then executed.recordPanic else executed }

/-- Logs the warning that the handler gives for a panic, if it gives one. -/
def warn (w : Workplace) (payload : Payload) : Workplace :=
  match w.handler.warning payload with
  | some line => w.log line
  | none => w

/-- Logs and notes that a task is begun. -/
def beginTask (w : Workplace) (task : Task Routine) : Workplace :=
  (w.log (.begun task w.clock)).note (.ran task.label)

/-- Runs a task under the panic handler. -/
def runTask (w : Workplace) (task : Task Routine) : Workplace × Turn :=
  match (w.beginTask task).perform task.action with
  | (w, none) => (w.recordRun task false, .again)
  | (w, some payload) =>
    let w := { w with handler := w.handler.count }
    match w.handler.strategy with
    | .propagate =>
      let w := { w with guarded := w.guarded.unwound }
      (w.log (.workerUnwinding w.guarded.pending.size), .unwound payload)
    | .abort => (w.log (.taskAborted payload.message), .aborted)
    | .isolate | .logAndContinue => ((w.warn payload).recordRun task true, .again)

/-- One turn of the loop. -/
def iterate (w : Workplace) : Workplace × Turn :=
  match w.guarded.poll w.clock with
  | (.stop, _) => (w.log .workerStopped, .stopped)
  | (.park, _) => (w, .asleep)
  | (.parkUntil deadline, _) => ({ w with clock := deadline }, .again)
  | (.run task, guarded) => { w with guarded }.runTask task

/-! ## The loop -/

/-- Takes up to so many turns. -/
def turns : Nat → Workplace → Workplace × Turn
  | 0, w => (w, .again)
  | fuel + 1, w =>
    match w.iterate with
    | (w, .again) => turns fuel w
    | ended => ended

/-- The number of tasks that are pending or can still be pushed. -/
def tasksAhead (w : Workplace) : Nat := w.guarded.pending.sum fun t => t.action.tasks + 1

/-- Runs the loop. A task takes at most two turns, one to sleep and one to run. -/
def run (w : Workplace) : Workplace × Turn :=
  turns (2 * w.tasksAhead + 1) (w.log .workerStarted)

/-! ## Rounds -/

/-- A task to push before the loop is run. -/
structure Order where
  label : String
  deadline : Instant
  routine : Routine

/-- Pushes tasks in order. -/
def pushAll (w : Workplace) : List Order → Workplace × List (Except Error Unit)
  | [] => (w, [])
  | o :: rest =>
    let (w, result) := w.push o.label o.deadline o.routine
    let (w, results) := w.pushAll rest
    (w, result :: results)

/-- Pushes tasks, sets the flag if a value is given for it, and runs the loop. -/
def round (w : Workplace) (orders : List Order) (terminating : Option Bool) :
    Workplace × List (Except Error Unit) × Turn :=
  let (w, results) := w.pushAll orders
  let flag := terminating.getD w.guarded.terminating
  let (w, turn) := { w with guarded := { w.guarded with terminating := flag } }.run
  (w, results, turn)

end Workplace

end Deferred
