import Deferred.Proofs.Worker.Outcome

/-!
# The worker's loop drains the queue

The tasks ahead of the loop, those included that they can push, are finite in number. Every action
that is begun is one of them, so that the loop begins no more actions than there were tasks ahead.

* `Workplace.actionsRun`: how many actions have been begun.
* `Workplace.spends_iterate`: a turn that begins an action leaves fewer tasks ahead.
* `Workplace.RunsDry`, `runsDry`: what a run of the loop comes to.
-/

namespace Deferred

namespace Workplace

variable {w last after : Workplace} {turn : Turn} {t : Tally} {act : Task Routine → Routine}

/-- How many actions have been begun. -/
def actionsRun (w : Workplace) : Nat := (w.events.filterMap WorkEvent.ran?).length

/-! ## Turns -/

theorem actionsRun_of_shows (h : w.Shows t after) :
    after.actionsRun = w.actionsRun + t.ran.length := by
  obtain ⟨events, hevents, hseen⟩ := h
  have hran := congrArg List.length hseen.ran
  rw [List.filterMap_reverse, List.length_reverse, List.length_map] at hran
  rw [actionsRun, hevents, List.filterMap_append, List.length_append, hran, Nat.add_comm,
    actionsRun]

/-- A turn begins a task whose action pushes no more than it says, or nothing. -/
theorem accepted_turnTally (w : Workplace) :
    ahead (w.turnTally (·.action)).accepted + (w.turnTally (·.action)).ran.length ≤
      ahead (w.turnTally (·.action)).ran := by
  unfold turnTally
  split
  next task rest _ =>
    have hle := ahead_accepted_le (w.begun task rest) task.action
    simp only [Tally.accepted_append, Tally.ran_append, ran_tally, List.append_nil, List.nil_append,
      ahead_cons, ahead_nil, List.length_singleton]
    omega
  · exact Nat.le_refl 0

/-- What a turn begins is taken from what is ahead. -/
theorem spends_iterate (w : Workplace) :
    w.iterate.1.actionsRun + w.iterate.1.tasksAhead ≤ w.actionsRun + w.tasksAhead := by
  have hbooks := books_turn w (·.action)
  rw [turn_action] at hbooks
  have hsum := ahead_of_balances hbooks.balanced
  have hran := actionsRun_of_shows hbooks.seen
  have hle := w.accepted_turnTally
  simp only [ahead_pending] at hsum
  omega

theorem spends_turns (n : Nat) (w : Workplace) :
    (turns n w).1.actionsRun + (turns n w).1.tasksAhead ≤ w.actionsRun + w.tasksAhead := by
  induction n generalizing w with
  | zero => exact Nat.le_refl _
  | succ n ih =>
    have hstep := w.spends_iterate
    unfold turns
    split
    next next h =>
      rw [h] at hstep
      exact Nat.le_trans (ih next) hstep
    · exact hstep

/-! ## The end of the loop -/

/-- The worker has ended, as it was told to or by a panic, or it sleeps and no task is pending. Only
where panics abort has the process ended. -/
def Drained (last : Workplace) : Turn → Prop
  | .again => False
  | .stopped => last.guarded.terminating = true
  | .unwound _ => last.guarded.workerPanicked = true
  | .aborted => last.handler.strategy = .abort
  | .asleep => last.guarded.pending.tasks = []

/-- A worker that sleeps without end has found no task. -/
theorem tasks_eq_nil_of_asleep (h : w.turn act = (last, .asleep)) :
    last.guarded.pending.tasks = [] := by
  cases hpoll : w.guarded.poll w.clock with
  | mk poll rest =>
    cases poll with
    | stop =>
      rw [(turn_stop _ hpoll).1] at h
      cases h
    | park =>
      rw [(turn_park _ hpoll).1] at h
      obtain rfl := congrArg Prod.fst h
      exact Queue.nextDeadline?_eq_none (Guarded.poll_park hpoll)
    | parkUntil =>
      rw [(turn_parkUntil _ hpoll).1] at h
      cases h
    | run task =>
      rw [(turn_run _ hpoll).1] at h
      unfold runTask at h
      split at h
      · cases h
      · simp only at h
        split at h <;> cases h

theorem drained_of_turn (h : w.turn act = (last, turn)) (ha : turn ≠ .again) :
    last.Drained turn := by
  have hbooks := books_turn w act
  rw [h] at hbooks
  cases turn with
  | again => exact absurd rfl ha
  | stopped => exact hbooks.terminating (terminating_of_stopped (congrArg Prod.snd h))
  | unwound p => exact (hbooks.unwound p rfl).2.2
  | aborted => exact hbooks.strategy.trans (hbooks.aborted_iff.1 rfl).1
  | asleep => exact tasks_eq_nil_of_asleep h

/-- What a run of the loop comes to that starts in `w`. -/
structure RunsDry (w : Workplace) : Prop where
  /-- The run comes to an end. -/
  ends : w.run.1.Drained w.run.2
  /-- The strategy is what it was. -/
  strategy : w.run.1.handler.strategy = w.handler.strategy
  /-- After any number of its turns, no more actions have been begun than there were tasks ahead. -/
  ran_le : ∀ n, (turns n (w.log .workerStarted)).1.actionsRun ≤ w.actionsRun + w.tasksAhead

theorem runsDry (w : Workplace) : w.RunsDry where
  ends := by
    obtain ⟨visits, hcourse⟩ := course_run w
    obtain ⟨u, act, -, hturn⟩ := hcourse.exists_last
    exact drained_of_turn hturn hcourse.ne_again
  strategy := by
    obtain ⟨visits, hcourse⟩ := course_run w
    exact hcourse.books.strategy
  ran_le n := Nat.le_trans (Nat.le_add_right _ _) (spends_turns n (w.log .workerStarted))

end Workplace

end Deferred
