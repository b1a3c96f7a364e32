import Deferred.Executor.Step

/-!
# Moves

All that can happen to an executor next: a caller makes a call, a thread makes a step, the worker
wakes up, or time passes. The moves may come in any order, so that the reachable states are those of
all interleavings of any number of threads. Once a panic has ended the process, only time passes.

* `Executor.move?` is what a move does, where it can be made.
* `Executor.Reachable` are the states that some moves lead to.
* `eq_of_aborted`, `Reachable.of_aborted`: nothing happens any more once the process has ended.
-/

namespace Deferred

/-- What can happen next. -/
inductive Move
  /-- A caller that makes no call makes one. -/
  | call (caller : Nat) (request : Request)
  /-- A thread makes a step. -/
  | step (thread : ThreadId)
  /-- The worker wakes up, because its time has come or for no reason. -/
  | wake
  /-- Time passes. -/
  | tick (nanos : Nat)
  deriving DecidableEq

namespace Executor

/-- What a move does, where it can be made. -/
def move? (e : Executor) : Move → Option Executor
  | .call n request =>
    if e.aborted = false ∧ (e.caller n).isIdle = true then some (e.begin (.caller n) [] request)
    else none
  | .step t => e.step? t
  | .wake =>
    match e.aborted, e.worker with
    | false, .parked _ => some e.wakeWorker
    | _, _ => none
  | .tick nanos => some { e with clock := e.clock.later nanos }

/-- What moves do one after the other, if all of them can be made. -/
def moves? (e : Executor) : List Move → Option Executor
  | [] => some e
  | m :: rest => (e.move? m).bind (·.moves? rest)

/-- The states that moves lead to from a state. -/
inductive Reachable (e : Executor) : Executor → Prop
  | refl : Reachable e e
  | move {before after : Executor} (m : Move) : Reachable e before →
      before.move? m = some after → Reachable e after

theorem Reachable.of_moves {e start after : Executor} (h : Reachable e start) (ms : List Move)
    (hm : start.moves? ms = some after) : Reachable e after := by
  induction ms generalizing start with
  | nil =>
    obtain rfl : start = after := by simpa [moves?] using hm
    exact h
  | cons m rest ih =>
    obtain ⟨middle, hfirst, hrest⟩ := Option.bind_eq_some_iff.1 hm
    exact ih (h.move m hfirst) hrest

/-- A property that no move destroys holds of all states reached from one that has it. -/
theorem Reachable.invariant {P : Executor → Prop} {e after : Executor} (h : Reachable e after)
    (h0 : P e) (hstep : ∀ before m next, P before → before.move? m = some next → P next) :
    P after := by
  induction h with
  | refl => exact h0
  | move m _ hm ih => exact hstep _ m _ ih hm

/-! ## After the end of the process -/

theorem step?_of_aborted {e : Executor} (h : e.aborted = true) (t : ThreadId) :
    e.step? t = none := by
  simp [step?, h]

/-- In a process that has ended nothing can be done; only time passes. -/
theorem eq_of_aborted {e next : Executor} {m : Move} (h : e.aborted = true)
    (hm : e.move? m = some next) : next = { e with clock := next.clock } := by
  cases m with
  | call n request => simp [move?, h] at hm
  | step t => simp [move?, step?_of_aborted h] at hm
  | wake => simp [move?, h] at hm
  | tick nanos =>
    obtain rfl := Option.some.inj hm
    rfl

theorem Reachable.of_aborted {e after : Executor} (hr : Reachable e after)
    (h : e.aborted = true) : after = { e with clock := after.clock } := by
  induction hr with
  | refl => rfl
  | move m _ hm ih =>
    have hnext := eq_of_aborted (by rw [ih]; exact h) hm
    rw [ih] at hnext
    exact hnext

end Executor

end Deferred
