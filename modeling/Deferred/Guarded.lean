import Deferred.Queue

/-!
# The guarded state

What an executor's lock guards, the queue of pending tasks and two flags, and the sections of code
that run while the lock is held. Every section is one function, so that between two of them any
other thread may run.

* `Guarded.accept` is how a task gets in, `Guarded.takeAll` how all tasks get out at once.
* `Guarded.poll` is how the worker looks for its next task.
* `Guarded.terminate` and `Guarded.unwound` set the flags, which are never cleared.
-/

namespace Deferred

/-- The pending tasks, and what has happened to the worker. -/
structure Guarded (α : Type) where
  pending : Queue α
  /-- The worker is to end. -/
  terminating : Bool := false
  /-- A panic has ended the worker. -/
  workerPanicked : Bool := false

namespace Guarded

variable {α : Type}

/-- Adds a task, unless the worker is dead or ending or the queue is full. The flag says whether the
task is now the first one, for which the worker has to be woken. -/
def accept (g : Guarded α) (t : Task α) : Except Error (Guarded α × Bool) :=
  if g.workerPanicked then .error .workerDead
  else if g.terminating then .error .shutDown
  else match g.pending.push t with
    | .error e => .error e
    | .ok pending => .ok ({ g with pending }, pending.firstId? = some t.id)

/-- Removes all tasks. -/
def takeAll (g : Guarded α) : Queue α × Guarded α :=
  let (taken, rest) := g.pending.takeAll
  (taken, { g with pending := rest })

/-- Has the worker end. -/
def terminate (g : Guarded α) : Guarded α := { g with terminating := true }

/-- Notes that a panic ends the worker. -/
def unwound (g : Guarded α) : Guarded α := { g with terminating := true, workerPanicked := true }

/-! ## Looking for work -/

/-- What the worker is to do. -/
inductive Poll (α : Type)
  /-- End. -/
  | stop
  /-- Sleep until woken. -/
  | park
  /-- Sleep until woken, or until an instant. -/
  | parkUntil (deadline : Instant)
  /-- Run a task, which is pending no more. -/
  | run (task : Task α)

/-- What the worker finds to do at an instant. A pending task that is not due lies ahead. -/
def poll (g : Guarded α) (now : Instant) : Poll α × Guarded α :=
  if g.terminating then (.stop, g)
  else match g.pending.popDue? now, g.pending.nextDeadline? with
    | some (task, rest), _ => (.run task, { g with pending := rest })
    | none, some deadline => (.parkUntil deadline, g)
    | none, none => (.park, g)

/-- The worker sleeps without end if no task is pending. -/
theorem poll_park {g rest : Guarded α} {now : Instant} (h : g.poll now = (.park, rest)) :
    g.pending.nextDeadline? = none := by
  unfold poll at h
  split at h
  · simp at h
  split at h
  · simp at h
  · simp at h
  next hnext => exact hnext

/-- The worker sleeps until the first deadline, which has not come. -/
theorem poll_parkUntil {g rest : Guarded α} {now deadline : Instant}
    (h : g.poll now = (.parkUntil deadline, rest)) :
    g.pending.nextDeadline? = some deadline ∧ g.pending.popDue? now = none := by
  unfold poll at h
  split at h
  · simp at h
  split at h
  · simp at h
  next hpop hnext =>
    obtain ⟨rfl, -⟩ : _ = deadline ∧ _ = rest := by simpa using h
    exact ⟨hnext, hpop⟩
  · simp at h

end Guarded

end Deferred
