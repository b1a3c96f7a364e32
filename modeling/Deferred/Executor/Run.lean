import Deferred.Executor.Move
import Deferred.Executor.Weight

/-!
# Running to rest

One way to choose among the moves, in which a single caller and the worker take turns: the caller's
call goes first, the worker moves when the caller has to wait for it, and after the call the worker
runs until nothing is due. Every step takes some time, the clock moves on while all sleep, and a
sleeper wakes a little late.

* `Executor.perform` makes a call and carries it to its end.
* `Executor.settle` lets the worker run until it sleeps or has ended; `Executor.runUntilStarted` and
  `Executor.runUntil` let it run until it has begun a certain action, or until an instant.
-/

namespace Deferred

namespace Executor

/-! ## Turns -/

/-- What a step takes, in nanoseconds. -/
def stepTime : Nat := 1009

/-- How late a sleeper wakes, in nanoseconds. -/
def wakeTime : Nat := 80000

/-- How far ahead a deadline may lie that is waited for: ten minutes. -/
def patience : Nat := 600 * nanosPerSecond

/-- Time for a step passes, and a thread makes it, if it can. -/
def turn? (e : Executor) (t : ThreadId) : Option Executor :=
  { e with clock := e.clock.later stepTime }.step? t

/-- The worker moves: it makes a step, or looks for work at a deadline up to the horizon. -/
def workerTurn? (e : Executor) (horizon : Instant) : Option Executor :=
  match e.worker with
  | .parked none => none
  | .parked (some deadline) =>
    if e.aborted = false ∧ deadline ≤ horizon then
      some { e with clock := if e.clock < deadline then deadline.later wakeTime else e.clock }.look
    else none
  | _ => e.turn? .worker

/-- The worker moves up to so many times, until it is to halt or nothing is due up to the
horizon. -/
def workerTurns (halt : Executor → Bool) (horizon : Executor → Instant) : Nat → Executor → Executor
  | 0, e => e
  | fuel + 1, e =>
    if halt e then e
    else match e.workerTurn? (horizon e) with
      | none => e
      | some e => workerTurns halt horizon fuel e

/-- The instant up to which deadlines are waited for. -/
def soon (e : Executor) : Instant := e.clock.later patience

/-- The worker looks for work, and runs until it is to halt or nothing is due up to the horizon. -/
def runWorker (halt : Executor → Bool) (horizon : Executor → Instant) (e : Executor) : Executor :=
  workerTurns halt horizon (e.wakeWorker.weight + 1) e.wakeWorker

/-- The worker runs until it sleeps, with nothing due soon, or has ended. -/
def settle (e : Executor) : Executor := e.runWorker (fun _ => false) soon

/-- Whether the last thing that has happened is that an action has been begun. -/
def hasJustStarted (task : TaskId) (e : Executor) : Bool :=
  match e.trace.head? with
  | some ⟨_, .started .action id _⟩ => id = task
  | _ => false

/-- The worker runs until it has begun an action, and no further. -/
def runUntilStarted (task : TaskId) (e : Executor) : Executor :=
  e.runWorker (hasJustStarted task) soon

/-- The worker runs until an instant, which then has come. -/
def runUntil (e : Executor) (horizon : Instant) : Executor :=
  let e := e.runWorker (fun _ => false) (fun _ => horizon)
  { e with clock := if e.clock < horizon then horizon else e.clock }

/-- A caller's call goes on; while the caller has to wait, the worker moves. -/
def callTurns (n : Nat) : Nat → Executor → Executor
  | 0, e => e
  | fuel + 1, e =>
    if (e.caller n).isIdle then e
    else match e.turn? (.caller n) with
      | some e => callTurns n fuel e
      | none =>
        match e.workerTurn? e.soon with
        | some e => callTurns n fuel e
        | none => e

/-- How a caller's call has ended. -/
inductive Completion
  | answered (answer : Answer)
  | unwound (payload : Payload)
  deriving DecidableEq

/-- How the latest call of a caller has ended. -/
def completion? (n : Nat) (trace : List Entry) : Option Completion :=
  trace.findSome? fun entry =>
    if entry.thread = .caller n then
      match entry.event with
      | .returned answer => some (.answered answer)
      | .unwound payload => some (.unwound payload)
      | _ => none
    else none

/-- A caller makes a call, which is carried to its end; there is none once the process has ended. -/
def perform (e : Executor) (n : Nat) (request : Request) : Executor × Option Completion :=
  if e.aborted then (e, none)
  else
    let e := { e with clock := e.clock.later stepTime }.begin (.caller n) [] request
    let e := callTurns n (e.weight + 1) e
    (e, if e.aborted then none else completion? n e.trace)

end Executor

end Deferred
