import Deferred.Proofs.Worker.Turn

/-!
# What a run of the worker's loop comes to

The loop is taken turn after turn. Between two turns the clock may move on, and a worker that sleeps
may wake at any time, also when nothing has woken it; what the actions do is left open.

* `Workplace.Course` is a course that the loop can take up to an end of it, with all its turns.
* `Workplace.course_turns`: the loop as it is run comes to an end, by such a course.
* `Course.books`: after every course, every task and every panic is accounted for.
* `Workplace.run_outcome`: what a run of the loop comes to.
-/

namespace Deferred

namespace Workplace

/-! ## Courses -/

/-- A turn of the loop: the state in which it found the workplace, what became of the tasks, and the
state in which it left the workplace. -/
structure Visit where
  found : Workplace
  tally : Tally
  left : Workplace

/-- The turn in which the action of a task does what `act` says. -/
def visit (w : Workplace) (act : Task Routine → Routine) : Visit :=
  ⟨w, w.turnTally act, (w.turn act).1⟩

/-- What has become of the tasks over all the turns. -/
def Visit.total (visits : List Visit) : Tally := (visits.map Visit.tally).foldr (· ++ ·) {}

/-- A course that the loop can take from a state to an end, turn by turn. The actions may do
something else every turn, and a worker that sleeps may be at an end or wake. -/
inductive Course : Workplace → List Visit → Workplace → Turn → Prop
  /-- The last turn. -/
  | ends {w : Workplace} (act : Task Routine → Routine) (h : (w.turn act).2 ≠ .again) :
    Course w [w.visit act] (w.turn act).1 (w.turn act).2
  /-- A turn after which there is another one, at what time ever. -/
  | goes {w last : Workplace} {visits : List Visit} {turn : Turn} (act : Task Routine → Routine)
      (clock : Instant) (h : (w.turn act).2 = .again ∨ (w.turn act).2 = .asleep)
      (hrest : Course { (w.turn act).1 with clock } visits last turn) :
    Course w (w.visit act :: visits) last turn

variable {w last : Workplace} {visits : List Visit} {turn : Turn} {p : Payload}
variable {act : Task Routine → Routine}

theorem unwinds_eq_zero (h : turn = .again ∨ turn = .asleep) : turn.unwinds = 0 := by
  rcases h with rfl | rfl <;> rfl

/-- After every course, every task and every panic is accounted for. -/
theorem Course.books (h : Course w visits last turn) : w.Books (Visit.total visits) last turn := by
  induction h with
  | ends act h => simpa [Visit.total, visit] using books_turn _ act
  | goes act clock h _ ih => exact Books.trans (books_turn _ act) (unwinds_eq_zero h) { ih with }

/-! ## The end of a course -/

theorem runTask_ne_stopped (w : Workplace) (task : Task Routine) :
    (w.runTask task).2 ≠ .stopped := by
  unfold runTask
  split
  · simp
  · dsimp only
    split <;> simp

/-- The loop ends as it was told to only in a turn that finds that the worker is to end. -/
theorem terminating_of_stopped (h : (w.turn act).2 = .stopped) :
    w.guarded.terminating = true := by
  cases hpoll : w.guarded.poll w.clock with
  | mk poll rest =>
    cases poll with
    | stop => exact Guarded.poll_stop hpoll
    | park =>
      rw [(turn_park _ hpoll).1] at h
      cases h
    | parkUntil =>
      rw [(turn_parkUntil _ hpoll).1] at h
      cases h
    | run task =>
      rw [(turn_run _ hpoll).1] at h
      exact absurd h (runTask_ne_stopped _ _)

/-- A worker that is to end takes one more turn, in which it does nothing. -/
theorem Course.of_terminating (h : Course w visits last turn)
    (ht : w.guarded.terminating = true) :
    turn = .stopped ∧ last = w.log .workerStopped ∧ visits = [⟨w, {}, last⟩] := by
  cases h with
  | ends act h =>
    obtain ⟨hturn, htally⟩ := turn_of_terminating act ht
    simp [visit, hturn, htally]
  | goes act clock h hrest =>
    rw [(turn_of_terminating act ht).1] at h
    simp at h

/-- A turn runs at most one task. -/
theorem ran_turnTally (w : Workplace) (act : Task Routine → Routine) :
    (w.turnTally act).ran = [] ∨ ∃ task, (w.turnTally act).ran = [task] := by
  unfold turnTally
  split
  next task guarded _ =>
    refine .inr ⟨task, ?_⟩
    rw [Tally.ran_append, ran_tally]
    rfl
  · exact .inl rfl

/-- A course comes to what its last turn comes to. -/
theorem Course.exists_last (h : Course w visits last turn) :
    ∃ (u : Workplace) (act : Task Routine → Routine),
      visits.getLast? = some (u.visit act) ∧ u.turn act = (last, turn) := by
  induction h with
  | ends act h => exact ⟨_, act, rfl, rfl⟩
  | goes act clock h _ ih =>
    obtain ⟨u, act, hlast, hu⟩ := ih
    exact ⟨u, act, by rw [List.getLast?_cons, hlast]; rfl, hu⟩

/-- After the last turn there is none. -/
theorem Course.ne_again (h : Course w visits last turn) : turn ≠ .again := by
  induction h with
  | ends act h => exact h
  | goes act clock h _ ih => exact ih

/-- If the loop ends as it was told to, then in a turn that found that the worker is to end. -/
theorem Course.stopped (h : Course w visits last .stopped) :
    ∃ v, visits.getLast? = some v ∧ v.found.guarded.terminating = true := by
  obtain ⟨u, act, hlast, hu⟩ := h.exists_last
  have hstopped : (u.turn act).2 = .stopped := by rw [hu]
  exact ⟨_, hlast, terminating_of_stopped hstopped⟩

/-- If a panic unwinds the loop, then it is the panic of the action that the last turn has run. -/
theorem Course.unwound (h : Course w visits last (.unwound p)) :
    ∃ v task, visits.getLast? = some v ∧ v.tally.ran = [task] ∧ v.tally.panics = [p] := by
  obtain ⟨u, act, hlast, hu⟩ := h.exists_last
  have hbooks := books_turn u act
  rw [hu] at hbooks
  obtain ⟨hpanics, -⟩ := hbooks.unwound p rfl
  rcases ran_turnTally u act with hran | ⟨task, hran⟩
  · have hle := hbooks.panics_le
    rw [hpanics, hran] at hle
    cases hle
  · exact ⟨_, task, hlast, hran, hpanics⟩

/-- No action is begun in a turn that finds that the worker is to end. -/
theorem Course.ran_eq_nil (h : Course w visits last turn) :
    ∀ v ∈ visits, v.found.guarded.terminating = true → v.tally.ran = [] := by
  have hvisit : ∀ (u : Workplace) (act : Task Routine → Routine),
      u.guarded.terminating = true → (u.visit act).tally.ran = [] := by
    intro u act ht
    rw [visit, (turn_of_terminating act ht).2]
  induction h with
  | ends act h =>
    intro v hv ht
    rw [List.mem_singleton] at hv
    subst hv
    exact hvisit _ act ht
  | goes act clock h _ ih =>
    intro v hv ht
    rcases List.mem_cons.1 hv with rfl | hv
    · exact hvisit _ act ht
    · exact ih v hv ht

/-- No action is begun after a turn that has left the worker to end. -/
theorem Course.pairwise (h : Course w visits last turn) :
    visits.Pairwise fun u v => u.left.guarded.terminating = true → v.tally.ran = [] := by
  induction h with
  | ends act h => exact List.pairwise_singleton _ _
  | goes act clock h hrest ih =>
    refine List.pairwise_cons.2 ⟨fun v hv ht => ?_, ih⟩
    obtain ⟨-, -, rfl⟩ := hrest.of_terminating ht
    rw [List.mem_singleton.1 hv]

/-! ## The loop comes to an end -/

/-- How many tasks a list of tasks comes to, those that they can push included. -/
def ahead (tasks : List (Task Routine)) : Nat := sumOf (fun t => t.action.tasks + 1) tasks

@[simp] theorem ahead_nil : ahead [] = 0 := rfl

@[simp] theorem ahead_cons (t : Task Routine) (tasks : List (Task Routine)) :
    ahead (t :: tasks) = t.action.tasks + 1 + ahead tasks := rfl

theorem ahead_append (tasks others : List (Task Routine)) :
    ahead (tasks ++ others) = ahead tasks + ahead others :=
  sumOf_append _ tasks others

theorem ahead_pending (w : Workplace) : ahead w.guarded.pending.tasks = w.tasksAhead := rfl

/-- The tasks of a balanced tally come to as many before as after. -/
theorem ahead_of_balances {t : Tally} {before after : List (Task Routine)}
    (h : t.Balances before after) :
    ahead before + ahead t.accepted = ahead t.ran + ahead t.cleared + ahead after := by
  have hperm : (before ++ t.accepted).Perm (t.ran ++ t.cleared ++ after) :=
    Multiset.coe_eq_coe.1 (by simpa only [Tally.Balances, Multiset.coe_add] using h)
  have hsum := sumOf_perm (fun t : Task Routine => t.action.tasks + 1) hperm
  rwa [← ahead, ← ahead, ahead_append, ahead_append, ahead_append] at hsum

/-- What a routine pushes comes to no more tasks than it says. -/
theorem ahead_accepted_le (w : Workplace) (routine : Routine) :
    ahead (w.tally routine).accepted ≤ routine.tasks := by
  induction routine generalizing w with
  | done | panic => exact Nat.zero_le _
  | push label deadline routine next _ ih =>
    simp only [tally]
    cases w.push label deadline routine with
    | mk pushed result =>
      cases result with
      | ok =>
        have hnext := ih (pushed.note (.pushed label))
        simp only [Tally.accepted_append, List.singleton_append, ahead_cons, made, Routine.tasks]
        omega
      | error e =>
        have hnext := ih (pushed.note (.rejected label e))
        simp only [Routine.tasks]
        omega
  | length next ih | clear next ih | terminate next ih => exact ih _

/-- A turn that runs a task leaves fewer tasks ahead. -/
theorem tasksAhead_run {task : Task Routine} {rest : Guarded Routine}
    (h : w.guarded.poll w.clock = (.run task, rest)) : w.iterate.1.tasksAhead < w.tasksAhead := by
  have hbooks := books_turn w (·.action)
  rw [turn_action, (turn_run _ h).2] at hbooks
  have hsum := ahead_of_balances hbooks.balanced
  have hle := ahead_accepted_le (w.begun task rest) task.action
  simp only [Tally.accepted_append, Tally.ran_append, ran_tally, List.nil_append, List.append_nil,
    ahead_cons, ahead_nil, ahead_pending] at hsum
  omega

/-- The first task is due. -/
def Due (w : Workplace) : Prop := w.guarded.pending.popDue? w.clock ≠ none

/-- A worker that sleeps until the first deadline then finds a task due. -/
theorem due_of_parkUntil {deadline : Instant} {rest : Guarded Routine}
    (h : w.guarded.poll w.clock = (.parkUntil deadline, rest)) :
    ¬ w.Due ∧ { w with clock := deadline }.Due := by
  obtain ⟨hnext, hpop⟩ := Guarded.poll_parkUntil h
  exact ⟨fun hdue => hdue hpop, Queue.popDue_ne_none hnext (Int.le_refl _)⟩

theorem Due.tasksAhead_pos (h : w.Due) : 0 < w.tasksAhead := by
  obtain ⟨⟨task, rest⟩, hpop⟩ := Option.ne_none_iff_exists'.1 h
  have hperm := Queue.perm_pop (Queue.pop_of_popDue hpop)
  have hsum : w.tasksAhead = ahead (task :: rest.tasks) := sumOf_perm _ hperm
  rw [hsum, ahead_cons]
  omega

/-- If there is another turn, the loop has come closer to its end: a task that is ahead takes at
most two turns, and one that is due at most one. -/
theorem nearer_of_again {next : Workplace} (h : w.iterate = (next, .again)) :
    next.tasksAhead < w.tasksAhead ∨ next.tasksAhead = w.tasksAhead ∧ ¬ w.Due ∧ next.Due := by
  rw [← turn_action] at h
  cases hpoll : w.guarded.poll w.clock with
  | mk poll rest =>
    cases poll with
    | stop => simp [(turn_stop _ hpoll).1] at h
    | park => simp [(turn_park _ hpoll).1] at h
    | parkUntil deadline =>
      rw [(turn_parkUntil _ hpoll).1] at h
      obtain rfl : { w with clock := deadline } = next := congrArg Prod.fst h
      exact .inr ⟨rfl, due_of_parkUntil hpoll⟩
    | run task =>
      have hlt := tasksAhead_run hpoll
      rw [← turn_action, h] at hlt
      exact .inl hlt

/-- The loop comes to an end in twice as many turns as there are tasks ahead and one more, or in one
turn less if the first task is due. -/
theorem course_turns (fuel : Nat) (w : Workplace)
    (h : 2 * w.tasksAhead < fuel ∨ w.Due ∧ 2 * w.tasksAhead ≤ fuel) :
    ∃ visits, Course w visits (turns fuel w).1 (turns fuel w).2 := by
  induction fuel generalizing w with
  | zero =>
    rcases h with h | ⟨hdue, h⟩
    · exact absurd h (Nat.not_lt_zero _)
    · have hpos := hdue.tasksAhead_pos
      omega
  | succ fuel ih =>
    have hiter := w.turn_action
    cases hnext : w.iterate with
    | mk next turn =>
      rw [hnext] at hiter
      by_cases hagain : turn = .again
      · subst hagain
        have hturns : turns (fuel + 1) w = turns fuel next := by rw [turns, hnext]
        have hfuel : 2 * next.tasksAhead < fuel ∨ next.Due ∧ 2 * next.tasksAhead ≤ fuel := by
          rcases nearer_of_again hnext with hlt | ⟨heq, hnot, hdue⟩
          · left
            omega
          · rcases h with h | h
            · exact .inr ⟨hdue, by omega⟩
            · exact absurd h.1 hnot
        obtain ⟨visits, hcourse⟩ := ih next hfuel
        have hgoes := Course.goes (w := w) (·.action) next.clock (.inl (by rw [hiter]))
          (by rw [hiter]; exact hcourse)
        rw [hturns]
        exact ⟨_, hgoes⟩
      · have hturns : turns (fuel + 1) w = (next, turn) := by
          cases turn with
          | again => exact absurd rfl hagain
          | _ => rw [turns, hnext]
        rw [hturns]
        have hends := Course.ends (w := w) (·.action) (by rwa [hiter])
        rw [hiter] at hends
        exact ⟨_, hends⟩

/-- The loop as it is run comes to an end, by one of its courses. -/
theorem course_run (w : Workplace) :
    ∃ visits, Course (w.log .workerStarted) visits w.run.1 w.run.2 :=
  course_turns _ _ (.inl (Nat.lt_succ_self _))

/-! ## What a run comes to -/

/-- What a run of the loop that starts in `w` comes to. -/
structure RunOutcome (w : Workplace) (visits : List Visit) (last : Workplace) (turn : Turn) :
    Prop where
  /-- Every task and every panic is accounted for. -/
  books : w.Books (Visit.total visits) last turn
  /-- The run has come to an end. -/
  ended : turn ≠ .again
  /-- If the worker is to end on entry, the run ends at once and leaves everything as it was. -/
  entry : w.guarded.terminating = true → turn = .stopped ∧ last.guarded = w.guarded ∧
    last.metrics = w.metrics ∧ last.handler = w.handler ∧ ∀ v ∈ visits, v.tally = {}
  /-- The run ends as it was told to only in a turn that finds that the worker is to end. -/
  stopped : turn = .stopped →
    ∃ v, visits.getLast? = some v ∧ v.found.guarded.terminating = true
  /-- A turn that finds that the worker is to end begins no action, -/
  ran_eq_nil : ∀ v ∈ visits, v.found.guarded.terminating = true → v.tally.ran = []
  /-- and neither does a turn after the one in which that was decided. -/
  obedient : visits.Pairwise fun u v => u.left.guarded.terminating = true → v.tally.ran = []
  /-- A panic that unwinds the run is the one of the action that was run last. -/
  unwound : ∀ p, turn = .unwound p →
    ∃ v task, visits.getLast? = some v ∧ v.tally.ran = [task] ∧ v.tally.panics = [p]

/-- A run of the loop comes to an end by one of its courses. After every course, the tasks are
conserved, the counters have grown by what was run and what panicked, no action has been begun once
the worker was to end, and a panic has unwound the loop if and only if it ended an action under the
strategy that lets it. The worker has never missed a task that was due. -/
theorem run_outcome (w : Workplace) :
    (∃ visits, Course (w.log .workerStarted) visits w.run.1 w.run.2) ∧
    (∀ visits last turn, Course (w.log .workerStarted) visits last turn →
      w.RunOutcome visits last turn) ∧
    ∀ (g : Guarded Routine) (now : Instant), g.look now = some (g.poll now) := by
  refine ⟨course_run w, fun visits last turn h => ?_, Guarded.look_eq⟩
  have hstart : w.Books {} (w.log .workerStarted) .again :=
    books_idle rfl rfl rfl (shows_log _ _) rfl
  exact
    { books := hstart.trans rfl h.books
      ended := h.ne_again
      entry := by
        intro ht
        obtain ⟨hturn, hlast, hvisits⟩ := h.of_terminating ht
        refine ⟨hturn, by rw [hlast]; rfl, by rw [hlast]; rfl, by rw [hlast]; rfl, ?_⟩
        intro v hv
        rw [hvisits, List.mem_singleton] at hv
        rw [hv]
      stopped := by
        rintro rfl
        exact h.stopped
      ran_eq_nil := h.ran_eq_nil
      obedient := h.pairwise
      unwound := by
        rintro p rfl
        exact h.unwound }

/-- The only task pushes another one and panics. Where the panic goes on unwinding the other one is
left, and the action is not counted. Where it is swallowed, an action that clears the queue, pushes
a third task and has the worker end is counted, the third task is left, and another run ends at
once. -/
theorem run_outcome_unwound :
    (∃ (w : Workplace) (visits : List Visit),
      Course (w.log .workerStarted) visits w.run.1 w.run.2 ∧
      w.RunOutcome visits w.run.1 w.run.2 ∧ w.guarded.pending.size = 1 ∧
      w.run.2 = .unwound (.literal "stop") ∧ w.run.1.guarded.workerPanicked = true ∧
      w.run.1.guarded.pending.size = 1 ∧ w.run.1.metrics.executed = 0) ∧
    ∃ (w : Workplace) (visits again : List Visit),
      Course (w.log .workerStarted) visits w.run.1 w.run.2 ∧
      w.RunOutcome visits w.run.1 w.run.2 ∧ w.run.2 = .stopped ∧
      (∃ v, visits.getLast? = some v ∧ v.found.guarded.terminating = true) ∧
      w.run.1.events.reverse = [.logged .workerStarted, .logged (.taskBegun ⟨1⟩ 0), .ran "first",
        .pushed "second", .cleared 1, .pushed "third", .logged (.taskPanicked "stop"),
        .logged .workerStopped] ∧
      w.run.1.metrics.executed = 1 ∧ w.run.1.metrics.panicked = 1 ∧
      Course (w.run.1.log .workerStarted) again w.run.1.run.1 w.run.1.run.2 ∧
      w.run.1.run.2 = .stopped ∧ w.run.1.run.1.guarded.pending.size = 1 ∧
      w.run.1.run.1.metrics = w.run.1.metrics := by
  let empty (strategy : PanicStrategy) : Workplace :=
    { guarded := { pending := .empty (some 1) }, handler := { strategy } }
  constructor
  · let routine : Routine := .push "second" ⟨7⟩ .done (.panic (.literal "stop") .done)
    obtain ⟨⟨visits, hcourse⟩, houtcome, -⟩ :=
      run_outcome ((empty .propagate).push "first" ⟨5⟩ routine).1
    exact ⟨_, visits, hcourse, houtcome _ _ _ hcourse, by decide, by decide, by decide, by decide,
      by decide⟩
  · let routine : Routine := .push "second" ⟨7⟩ .done (.clear (.push "third" ⟨7⟩ .done
      (.terminate (.panic (.literal "stop") .done))))
    let w := ((empty .logAndContinue).push "first" ⟨5⟩ routine).1
    obtain ⟨⟨visits, hcourse⟩, houtcome, -⟩ := run_outcome w
    obtain ⟨⟨again, hagain⟩, hentry, -⟩ := run_outcome w.run.1
    have hruns := houtcome _ _ _ hcourse
    have hstopped : w.run.2 = .stopped := by decide
    have hleft : w.run.1.guarded.pending.size = 1 := by decide
    obtain ⟨hturn, hguarded, hmetrics, -⟩ := (hentry _ _ _ hagain).entry (by decide)
    exact ⟨w, visits, again, hcourse, hruns, hstopped, hruns.stopped hstopped, by decide, by decide,
      by decide, hagain, hturn, by rw [hguarded, hleft], hmetrics⟩

end Workplace

end Deferred
