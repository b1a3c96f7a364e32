import Deferred.Worker.Loop
import Deferred.Proofs.Worker.Tally

/-!
# One turn of the worker's loop

What a turn of the loop comes to, whatever the action does that it runs. What a task's action does
need not be the routine with which the task was pushed, so that an action may also push itself
again, or go by what it finds.

* `Guarded.look_eq`: the worker always finds a task to run when the first deadline has come.
* `Workplace.turn`, `Workplace.turnTally` are a turn and its tally.
* `Workplace.Books` says what a tally accounts for; `Books.trans` joins the books of two stretches
  of the loop.
* `Workplace.books_turn`: after every turn, every task and every panic is accounted for.
-/

namespace Deferred

/-! ## Looking for work -/

namespace Guarded

variable {α : Type}

/-- What the worker finds to do, one question after the other: whether it is to end, what the first
deadline is, whether it has come, and which task is due then. Nothing if no task is. -/
def look (g : Guarded α) (now : Instant) : Option (Poll α × Guarded α) :=
  if g.terminating then some (.stop, g)
  else match g.pending.nextDeadline? with
    | none => some (.park, g)
    | some deadline =>
      if now < deadline then some (.parkUntil deadline, g)
      else (g.pending.popDue? now).map fun (task, rest) => (.run task, { g with pending := rest })

/-- The worker always finds something to do: when the first deadline has come, a task is due. -/
theorem look_eq (g : Guarded α) (now : Instant) : g.look now = some (g.poll now) := by
  unfold look poll
  split
  · rfl
  cases hnext : g.pending.nextDeadline? with
  | none =>
    have hfirst : g.pending.first? = none := Option.map_eq_none_iff.1 hnext
    simp [Queue.popDue?, hfirst]
  | some deadline =>
    by_cases hlt : now < deadline
    · obtain ⟨task, hfirst, rfl⟩ := Option.map_eq_some_iff.1 hnext
      have hdue : ¬ task.deadline ≤ now := Int.not_le.2 hlt
      simp [Queue.popDue?, hfirst, Task.isDue, hlt, hdue]
    · have hpop := Queue.popDue_ne_none hnext (Int.not_lt.1 hlt)
      obtain ⟨⟨task, rest⟩, hpop⟩ := Option.ne_none_iff_exists'.1 hpop
      simp [hlt, hpop]

end Guarded

namespace Workplace

variable {w mid after : Workplace} {s t : Tally} {first last : Turn} {task : Task Routine}
variable {act : Task Routine → Routine} {rest : Guarded Routine} {deadline : Instant} {p : Payload}

/-! ## A turn -/

/-- The state in which the action of a task is begun that was popped. -/
def begun (w : Workplace) (task : Task Routine) (guarded : Guarded Routine) : Workplace :=
  { w with guarded }.beginTask task

/-- One turn of the loop, in which the action of a task does what `act` says. -/
def turn (w : Workplace) (act : Task Routine → Routine) : Workplace × Turn :=
  match w.guarded.poll w.clock with
  | (.run task, guarded) => { w with guarded }.runTask { task with action := act task }
  | _ => w.iterate

/-- What becomes of the tasks in such a turn. -/
def turnTally (w : Workplace) (act : Task Routine → Routine) : Tally :=
  match w.guarded.poll w.clock with
  | (.run task, guarded) => { ran := [task] } ++ (w.begun task guarded).tally (act task)
  | _ => {}

theorem turn_action (w : Workplace) : w.turn (·.action) = w.iterate := by
  unfold turn iterate
  split <;> simp_all

theorem turn_stop (act : Task Routine → Routine) (h : w.guarded.poll w.clock = (.stop, rest)) :
    w.turn act = (w.log .workerStopped, .stopped) ∧ w.turnTally act = {} := by
  simp [turn, turnTally, iterate, h]

theorem turn_park (act : Task Routine → Routine) (h : w.guarded.poll w.clock = (.park, rest)) :
    w.turn act = (w, .asleep) ∧ w.turnTally act = {} := by
  simp [turn, turnTally, iterate, h]

theorem turn_parkUntil (act : Task Routine → Routine)
    (h : w.guarded.poll w.clock = (.parkUntil deadline, rest)) :
    w.turn act = ({ w with clock := deadline }, .again) ∧ w.turnTally act = {} := by
  simp [turn, turnTally, iterate, h]

theorem turn_run (act : Task Routine → Routine) (h : w.guarded.poll w.clock = (.run task, rest)) :
    w.turn act = { w with guarded := rest }.runTask { task with action := act task } ∧
      w.turnTally act = { ran := [task] } ++ (w.begun task rest).tally (act task) := by
  simp [turn, turnTally, h]

/-- A worker that is to end does so, and does nothing else. -/
theorem turn_of_terminating (act : Task Routine → Routine) (h : w.guarded.terminating = true) :
    w.turn act = (w.log .workerStopped, .stopped) ∧ w.turnTally act = {} :=
  turn_stop act (show w.guarded.poll w.clock = (.stop, w.guarded) by simp [Guarded.poll, h])

/-! ## The books -/

/-- How many actions were begun and not counted in the end. -/
def Turn.unwinds : Turn → Nat
  | .unwound _ | .aborted => 1
  | _ => 0

/-- What has become of the tasks over a stretch of the loop accounts for all that has changed. -/
structure Books (w : Workplace) (t : Tally) (after : Workplace) (turn : Turn) : Prop where
  balanced : t.Balances w.guarded.pending.tasks after.guarded.pending.tasks
  seen : w.Shows t after
  strategy : after.handler.strategy = w.handler.strategy
  panicCount : after.handler.panicCount = w.handler.panicCount + t.panics.length
  executed : after.metrics.executed =
    w.metrics.executed + .ofNat (t.ran.length - turn.unwinds)
  panicked : after.metrics.panicked =
    w.metrics.panicked + .ofNat (t.panics.length - turn.unwinds)
  unwinds_le : turn.unwinds ≤ t.panics.length
  panics_le : t.panics.length ≤ t.ran.length
  unwound_iff : ∀ p, turn = .unwound p ↔ w.handler.strategy = .propagate ∧ p ∈ t.panics
  aborted_iff : turn = .aborted ↔ w.handler.strategy = .abort ∧ t.panics ≠ []
  /-- A panic that unwinds the worker is the only one, and leaves both flags set. -/
  unwound : ∀ p, turn = .unwound p → t.panics = [p] ∧
    after.guarded.terminating = true ∧ after.guarded.workerPanicked = true
  workerPanicked : (∀ p, turn ≠ .unwound p) →
    after.guarded.workerPanicked = w.guarded.workerPanicked
  terminating : w.guarded.terminating = true → after.guarded.terminating = true

/-- The books of a stretch of the loop that goes on, and those of the rest of the loop. -/
theorem Books.trans (hs : w.Books s mid first) (hfirst : first.unwinds = 0)
    (ht : mid.Books t after last) : w.Books (s ++ t) after last := by
  have hgoes : ∀ p, first ≠ .unwound p := by
    rintro p rfl
    cases hfirst
  -- a stretch after which the loop goes on has had no panic that was not swallowed
  have hquiet : w.handler.strategy = .propagate → s.panics = [] := fun hw =>
    List.eq_nil_iff_forall_not_mem.2 fun p hp => hgoes p ((hs.unwound_iff p).2 ⟨hw, hp⟩)
  have hsurvives : w.handler.strategy = .abort → s.panics = [] := by
    intro hw
    by_contra hne
    rw [hs.aborted_iff.2 ⟨hw, hne⟩] at hfirst
    cases hfirst
  have hiff : ∀ p, last = .unwound p ↔
      w.handler.strategy = .propagate ∧ p ∈ (s ++ t).panics := by
    intro p
    rw [ht.unwound_iff, hs.strategy, Tally.panics_append, List.mem_append]
    refine and_congr_right fun hw => ?_
    simp [hquiet hw]
  exact
    { balanced := hs.balanced.append ht.balanced
      seen := hs.seen.trans ht.seen
      strategy := ht.strategy.trans hs.strategy
      panicCount := by
        rw [ht.panicCount, hs.panicCount, Tally.panics_append, List.length_append]
        omega
      executed := by
        have hle := ht.unwinds_le.trans ht.panics_le
        rw [ht.executed, hs.executed, UInt64.add_assoc, ← UInt64.ofNat_add, hfirst,
          Tally.ran_append, List.length_append, Nat.add_sub_assoc hle, Nat.sub_zero]
      panicked := by
        rw [ht.panicked, hs.panicked, UInt64.add_assoc, ← UInt64.ofNat_add, hfirst,
          Tally.panics_append, List.length_append, Nat.add_sub_assoc ht.unwinds_le, Nat.sub_zero]
      unwinds_le := by
        rw [Tally.panics_append, List.length_append]
        exact Nat.le_add_left_of_le ht.unwinds_le
      panics_le := by
        rw [Tally.panics_append, Tally.ran_append, List.length_append, List.length_append]
        exact Nat.add_le_add hs.panics_le ht.panics_le
      unwound_iff := hiff
      aborted_iff := by
        rw [ht.aborted_iff, hs.strategy, Tally.panics_append]
        refine and_congr_right fun hw => ?_
        rw [hsurvives hw, List.nil_append]
      unwound := by
        intro p hp
        obtain ⟨hpanics, hflags⟩ := ht.unwound p hp
        rw [Tally.panics_append, hquiet ((hiff p).1 hp).1, hpanics]
        exact ⟨rfl, hflags⟩
      workerPanicked := fun hlast =>
        (ht.workerPanicked hlast).trans (hs.workerPanicked hgoes)
      terminating := fun h => ht.terminating (hs.terminating h) }

/-- A turn in which no action is run. -/
theorem books_idle (hg : after.guarded = w.guarded) (hh : after.handler = w.handler)
    (hm : after.metrics = w.metrics)
    (hseen : w.Shows {} after) (hlast : last.unwinds = 0) : w.Books {} after last where
  balanced := by
    rw [hg]
    exact Tally.balances_nil _
  seen := hseen
  strategy := by rw [hh]
  panicCount := by rw [hh]; rfl
  executed := by simp [hm]
  panicked := by simp [hm]
  unwinds_le := hlast.le
  panics_le := Nat.le_refl 0
  unwound_iff p := by
    refine iff_of_false ?_ (by simp)
    rintro rfl
    cases hlast
  aborted_iff := by
    refine iff_of_false ?_ (by simp)
    rintro rfl
    cases hlast
  unwound p hp := by
    subst hp
    cases hlast
  workerPanicked _ := by rw [hg]
  terminating h := by rwa [hg]

/-! ## The end of an action -/

@[simp] theorem warn_guarded (w : Workplace) (p : Payload) : (w.warn p).guarded = w.guarded := by
  unfold warn
  split <;> rfl

@[simp] theorem warn_handler (w : Workplace) (p : Payload) : (w.warn p).handler = w.handler := by
  unfold warn
  split <;> rfl

@[simp] theorem warn_metrics (w : Workplace) (p : Payload) : (w.warn p).metrics = w.metrics := by
  unfold warn
  split <;> rfl

theorem shows_warn (w : Workplace) (p : Payload) : w.Shows {} (w.warn p) := by
  unfold warn
  split
  · exact shows_log _ _
  · exact ⟨[], rfl, rfl, rfl, rfl⟩

/-- A task that is due goes from the queue to the worker. -/
theorem effect_begun (h : w.guarded.poll w.clock = (.run task, rest)) :
    w.Effect { ran := [task] } (w.begun task rest) := by
  obtain ⟨-, pending, hpop, rfl⟩ := Guarded.poll_run h
  refine ⟨?_, ⟨[.ran task.label, .logged (.begun task w.clock)], rfl, rfl, rfl, rfl⟩, rfl, rfl, rfl,
    id⟩
  have hperm := Multiset.coe_eq_coe.2 (Queue.perm_pop (Queue.pop_of_popDue hpop))
  simp [Tally.Balances, begun, beginTask, log, note, hperm]

/-- An action that has come to its end. -/
theorem Effect.books_done (he : w.Effect t after) (hran : t.ran.length = 1) (hp : t.panics = []) :
    w.Books t (after.recordRun task false) .again where
  balanced := he.balanced
  seen := he.seen
  strategy := by rw [recordRun, he.handler]
  panicCount := by rw [recordRun, he.handler, hp]; rfl
  executed := by simp [recordRun, Metrics.recordExecution, he.metrics, hran, Turn.unwinds]
  panicked := by simp [recordRun, Metrics.recordExecution, he.metrics, hp]
  unwinds_le := Nat.zero_le _
  panics_le := by simp [hp]
  unwound_iff := by simp [hp]
  aborted_iff := by simp [hp]
  unwound := by simp
  workerPanicked _ := he.workerPanicked
  terminating := he.terminating

/-- An action whose panic is swallowed. -/
theorem Effect.books_swallowed (he : w.Effect t after) (hran : t.ran.length = 1)
    (hp : t.panics = [p]) (hs : after.handler.strategy.swallows = true) :
    w.Books t (({ after with handler := after.handler.count }.warn p).recordRun task true)
      .again where
  balanced := by simpa [recordRun] using he.balanced
  seen := by
    rw [← t.append_nil]
    exact he.seen.trans (shows_warn { after with handler := after.handler.count } p)
  strategy := by simp [recordRun, Handler.count, he.handler]
  panicCount := by simp [recordRun, Handler.count, he.handler, hp]
  executed := by
    simp [recordRun, Metrics.recordExecution, Metrics.recordPanic, he.metrics, hran, Turn.unwinds]
  panicked := by
    simp [recordRun, Metrics.recordExecution, Metrics.recordPanic, he.metrics, hp, Turn.unwinds]
  unwinds_le := Nat.zero_le _
  panics_le := by simp [hp, hran]
  unwound_iff q := by
    refine iff_of_false (by simp) fun h => ?_
    exact (PanicStrategy.ne_of_swallows (he.handler ▸ hs)).1 h.1
  aborted_iff := by
    refine iff_of_false (by simp) fun h => ?_
    exact (PanicStrategy.ne_of_swallows (he.handler ▸ hs)).2 h.1
  unwound := by simp
  workerPanicked _ := by simpa [recordRun] using he.workerPanicked
  terminating h := by simpa [recordRun] using he.terminating h

/-- An action whose panic goes on unwinding. -/
theorem Effect.books_unwound (he : w.Effect t after) (hran : t.ran.length = 1)
    (hp : t.panics = [p]) (hs : after.handler.strategy = .propagate) (line : LogLine) :
    w.Books t ({ after with
      handler := after.handler.count, guarded := after.guarded.unwound }.log line)
      (.unwound p) where
  balanced := he.balanced
  seen := by
    rw [← t.append_nil]
    exact he.seen.trans (shows_log _ line)
  strategy := by simp [log, note, Handler.count, he.handler]
  panicCount := by simp [log, note, Handler.count, he.handler, hp]
  executed := by simp [log, note, he.metrics, hran, Turn.unwinds]
  panicked := by simp [log, note, he.metrics, hp, Turn.unwinds]
  unwinds_le := by simp [hp, Turn.unwinds]
  panics_le := by simp [hp, hran]
  unwound_iff q := by
    rw [he.handler] at hs
    simp [hs, hp, eq_comm]
  aborted_iff := by
    rw [he.handler] at hs
    simp [hs]
  unwound q hq := by
    obtain rfl : p = q := by simpa using hq
    exact ⟨hp, rfl, rfl⟩
  workerPanicked h := absurd rfl (h p)
  terminating _ := rfl

/-- An action whose panic ends the process. -/
theorem Effect.books_aborted (he : w.Effect t after) (hran : t.ran.length = 1)
    (hp : t.panics = [p]) (hs : after.handler.strategy = .abort) (line : LogLine) :
    w.Books t ({ after with handler := after.handler.count }.log line) .aborted where
  balanced := he.balanced
  seen := by
    rw [← t.append_nil]
    exact he.seen.trans (shows_log _ line)
  strategy := by simp [log, note, Handler.count, he.handler]
  panicCount := by simp [log, note, Handler.count, he.handler, hp]
  executed := by simp [log, note, he.metrics, hran, Turn.unwinds]
  panicked := by simp [log, note, he.metrics, hp, Turn.unwinds]
  unwinds_le := by simp [hp, Turn.unwinds]
  panics_le := by simp [hp, hran]
  unwound_iff q := by
    rw [he.handler] at hs
    simp [hs]
  aborted_iff := by
    rw [he.handler] at hs
    simp [hs, hp]
  unwound q hq := by cases hq
  workerPanicked _ := he.workerPanicked
  terminating := he.terminating

theorem runTask_of_done (h : (w.beginTask task).perform task.action = (after, none)) :
    w.runTask task = (after.recordRun task false, .again) := by
  simp [runTask, h]

theorem runTask_of_swallowed
    (h : (w.beginTask task).perform task.action = (after, some p))
    (hs : after.handler.strategy.swallows = true) :
    w.runTask task =
      (({ after with handler := after.handler.count }.warn p).recordRun task true, .again) := by
  have hcounted : after.handler.count.strategy = after.handler.strategy := rfl
  unfold runTask
  rw [h]
  simp only [hcounted]
  cases hstrategy : after.handler.strategy with
  | isolate | logAndContinue => rfl
  | propagate | abort =>
    rw [hstrategy] at hs
    cases hs

theorem runTask_of_unwound
    (h : (w.beginTask task).perform task.action = (after, some p))
    (hs : after.handler.strategy = .propagate) :
    w.runTask task =
      ({ after with handler := after.handler.count, guarded := after.guarded.unwound }.log
        (.workerUnwinding after.guarded.pending.size), .unwound p) := by
  simp [runTask, h, Handler.count, hs, Guarded.unwound]

theorem runTask_of_aborted
    (h : (w.beginTask task).perform task.action = (after, some p))
    (hs : after.handler.strategy = .abort) :
    w.runTask task =
      ({ after with handler := after.handler.count }.log (.taskAborted p.message), .aborted) := by
  simp [runTask, h, Handler.count, hs]

/-- The books of a turn that runs a task. -/
theorem books_run (h : w.guarded.poll w.clock = (.run task, rest)) :
    w.Books (w.turnTally act) (w.turn act).1 (w.turn act).2 := by
  obtain ⟨hturn, htally⟩ := turn_run act h
  have heffect := (effect_begun h).trans ((w.begun task rest).effect_perform (act task))
  have hran : ({ ran := [task] } ++ (w.begun task rest).tally (act task)).ran.length = 1 := by
    rw [Tally.ran_append, ran_tally]
    rfl
  have hpanics : ({ ran := [task] } ++ (w.begun task rest).tally (act task)).panics =
      ((w.begun task rest).perform (act task)).2.toList :=
    panics_tally _ _
  rw [htally]
  cases hperform : (w.begun task rest).perform (act task) with
  | mk done panic? =>
    rw [hperform] at heffect hpanics
    cases panic? with
    | none =>
      rw [hturn.trans (runTask_of_done hperform)]
      exact heffect.books_done hran hpanics
    | some p =>
      rcases done.handler.strategy.swallows_or with hs | hs | hs
      · rw [hturn.trans (runTask_of_swallowed hperform hs)]
        exact heffect.books_swallowed hran hpanics hs
      · rw [hturn.trans (runTask_of_unwound hperform hs)]
        exact heffect.books_unwound hran hpanics hs _
      · rw [hturn.trans (runTask_of_aborted hperform hs)]
        exact heffect.books_aborted hran hpanics hs _

/-- After every turn, every task and every panic is accounted for. -/
theorem books_turn (w : Workplace) (act : Task Routine → Routine) :
    w.Books (w.turnTally act) (w.turn act).1 (w.turn act).2 := by
  cases h : w.guarded.poll w.clock with
  | mk poll rest =>
    cases poll with
    | stop =>
      rw [(turn_stop act h).1, (turn_stop act h).2]
      exact books_idle rfl rfl rfl (shows_log _ _) rfl
    | park =>
      rw [(turn_park act h).1, (turn_park act h).2]
      exact books_idle rfl rfl rfl ⟨[], rfl, rfl, rfl, rfl⟩ rfl
    | parkUntil deadline =>
      rw [(turn_parkUntil act h).1, (turn_parkUntil act h).2]
      exact books_idle rfl rfl rfl ⟨[], rfl, rfl, rfl, rfl⟩ rfl
    | run task => exact books_run h

end Workplace

end Deferred
