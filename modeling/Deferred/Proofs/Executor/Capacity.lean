import Deferred.Proofs.Executor.Invariant

/-!
# The limit on pending tasks

The queue of an executor has the limit of the configuration from the beginning, and no section under
the lock gives it another one or lets it grow beyond: not even the one in which all tasks are taken
out at once and an empty queue is put in the place of the old one.

* `Queue.Changes`: what a section under the lock can do to the queue.
* `Local.changes`, `WorkerStep.changes`: every step does one of these things.
* `capacity_of_start`: in every reachable state the queue has the limit and keeps to it.
-/

namespace Deferred

namespace Queue

variable {α : Type} {q next : Queue α}

/-- A queue has no more tasks than its limit allows. -/
def IsWithin (q : Queue α) : Prop := ∀ capacity, q.limit = some capacity → q.size ≤ capacity

/-- What a section under the lock can do to a queue. -/
inductive Changes (q : Queue α) : Queue α → Prop
  | stays : Changes q q
  | pushes {t : Task α} {grown : Queue α} (h : q.push t = .ok grown) : Changes q grown
  | pops {t : Task α} {rest : Queue α} (h : q.pop? = some (t, rest)) : Changes q rest
  | clears : Changes q (.empty q.limit)

theorem isWithin_empty (limit : Option Nat) : (empty limit : Queue α).IsWithin :=
  fun capacity _ => Nat.zero_le capacity

theorem Changes.limit_eq (h : q.Changes next) : next.limit = q.limit := by
  cases h with
  | stays | clears => rfl
  | pushes h => exact limit_of_push h
  | pops h => exact limit_of_pop h

/-- A queue that keeps to its limit goes on doing so. -/
theorem Changes.isWithin (h : q.Changes next) (hq : q.IsWithin) : next.IsWithin := by
  intro capacity hl
  rw [h.limit_eq] at hl
  have hle := hq capacity hl
  cases h with
  | stays => exact hle
  | pushes h =>
    rw [size_push h]
    exact lt_of_push h hl
  | pops h =>
    have hsize := size_pop h
    omega
  | clears => exact Nat.zero_le capacity

end Queue

namespace Executor

variable {e next : Executor} {t : ThreadId} {a b : Activity} {c : Change} {v w : WorkerState}

/-! ## What a step does to the queue -/

theorem Opens.changes {stack : List Frame} {request : Request} (h : Opens e t stack request c b) :
    e.guarded.pending.Changes c.guarded.pending := by
  cases h with
  | cancelAll => exact .clears
  | _ => exact .stays

theorem Catches.changes {payload : Payload} {frame : Frame} {stack : List Frame}
    (h : Catches e payload frame stack c b) : e.guarded.pending.Changes c.guarded.pending := by
  cases h <;> exact .stays

theorem Local.changes (h : Local e t a c b) : e.guarded.pending.Changes c.guarded.pending := by
  cases h with
  | opens _ ho | call _ ho => exact ho.changes
  | raise _ hc => exact (hc.changes :)
  | unwind hc => exact hc.changes
  | accept ha =>
    obtain ⟨-, -, pending, hpush, rfl, -⟩ := Guarded.accept_ok ha
    exact .pushes hpush
  | discard | drain => exact .clears
  | _ => exact .stays

theorem WorkerStep.changes (h : WorkerStep e v c w) :
    e.guarded.pending.Changes c.guarded.pending := by
  cases h with
  | run _ hp => exact .pops (Queue.pop_of_popDue hp)
  | _ => exact .stays

theorem changes_of_happens (h : Happens e next) :
    e.guarded.pending.Changes next.guarded.pending := by
  cases h with
  | goes _ hl =>
    rw [guarded_after]
    exact hl.changes
  | turns _ hw => exact hw.changes
  | ticks => exact .stays

/-! ## The invariant -/

/-- The queue has the limit of the configuration, and keeps to it. -/
structure HasCapacity (e : Executor) : Prop where
  limit : e.guarded.pending.limit = e.config.maxPending
  within : e.guarded.pending.IsWithin

theorem HasCapacity.happens (hi : e.HasCapacity) (h : Happens e next) : next.HasCapacity where
  limit := by rw [(changes_of_happens h).limit_eq, config_of_happens h, hi.limit]
  within := (changes_of_happens h).isWithin hi.within

theorem capacity_of_start {config : Config} {telemetry : Telemetry} {clock : Instant}
    {start last : Executor} (hs : Executor.start config telemetry clock = .ok start)
    (hr : start.Reachable last) : last.HasCapacity :=
  invariant_of_start hs hr ⟨rfl, Queue.isWithin_empty _⟩ fun _ _ _ hi hh => hi.happens hh

end Executor

end Deferred
