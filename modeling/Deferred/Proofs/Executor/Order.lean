import Deferred.Proofs.Executor.Whereabouts
import Deferred.Proofs.Queue.Order
import Mathlib.Data.List.Nodup

/-!
# The order of the actions

The actions of a run are not begun in the order of their deadlines, because a task may be added when
later ones have been run. What holds is said of every look for work: the task that the worker takes
up is due, and it is run before all others that are pending at that moment.

* `TakesUp`: the worker begins the action of a task, which is then pending no more.
* `TakesUp.isFirst`: such a task is due, and before all that are left.
* `RunsAfter`, `runs_in_order`: two tasks that are pending together are begun in their order.
* `number_lt_of_calledBefore`: calls that do not overlap give numbers in their order.
-/

namespace Deferred

namespace Executor

variable {e next last : Executor} {t : ThreadId} {a b : Activity} {c : Change} {v w : WorkerState}
variable {task sooner later : Task Script}

/-! ## Taking up a task -/

/-- The worker begins the action of a task in a move, and the task is pending no more. -/
structure TakesUp (e : Executor) (task : Task Script) (next : Executor) : Prop where
  move : ∃ m, e.move? m = some next
  begun : next.startedIds .action = task.id :: e.startedIds .action
  left : e.guarded.pending.tasks.Perm (task :: next.guarded.pending.tasks)

/-- No action is begun but that of a task which is given out because it is due. -/
theorem begun_of_happens (h : Happens e next) :
    next.startedIds .action = e.startedIds .action ∨
      ∃ task, next.startedIds .action = task.id :: e.startedIds .action ∧
        e.guarded.pending.popDue? e.clock = some (task, next.guarded.pending) := by
  cases h with
  | goes _ hl =>
    refine .inl ?_
    rw [startedIds, startedIds, gather_after, hl.begins_no_action, List.nil_append]
  | turns hv hw =>
    cases hw with
    | run ht hp => exact .inr ⟨_, rfl, hp⟩
    | _ => exact .inl rfl
  | ticks => exact .inl rfl

/-! ## Numbers of pending tasks -/

/-- No two pending tasks have one number. -/
theorem Balanced.nodup_pending (h : e.Balanced) :
    (e.guarded.pending.tasks.map Task.id).Nodup := by
  refine List.nodup_iff_count_le_one.2 fun id => ?_
  have haccounts := h.accounts_le (· == id)
  have hone := h.countP_acceptedIds_le id
  have hcount : (e.guarded.pending.tasks.map Task.id).count id =
      e.guarded.pending.count (· == id) := List.countP_map ..
  omega

theorem Balanced.eq_of_id (h : e.Balanced) (hs : sooner ∈ e.guarded.pending.tasks)
    (hl : later ∈ e.guarded.pending.tasks) (hid : sooner.id = later.id) : sooner = later :=
  List.inj_on_of_nodup_map h.nodup_pending hs hl hid

/-- A task that has been begun or removed is not pending. -/
theorem Balanced.not_pending (h : e.Balanced)
    (hgone : task.id ∈ e.startedIds .action ∨ task.id ∈ e.removedIds) :
    task ∉ e.guarded.pending.tasks := by
  intro hm
  have hqueue := h.queue (· == task.id)
  have hone := h.countP_acceptedIds_le task.id
  have hpos := Queue.count_pos hm
  rcases hgone with hg | hg
  · have : 0 < (e.startedIds .action).countP (· == task.id) := List.count_pos_iff.2 hg
    omega
  · have : 0 < e.removedIds.countP (· == task.id) := List.count_pos_iff.2 hg
    omega

/-- The task that is taken up is the one that is given out because it is due. -/
theorem TakesUp.popDue (ho : e.Orderly) (hbal : e.Balanced) (h : e.TakesUp task next) :
    e.guarded.pending.popDue? e.clock = some (task, next.guarded.pending) := by
  obtain ⟨m, hm⟩ := h.move
  have hbegun := h.begun
  rcases begun_of_happens (happens_of_move ho hm) with hsame | ⟨other, hother, hp⟩
  · rw [hsame] at hbegun
    exact absurd hbegun.symm (List.cons_ne_self _ _)
  · have hid : other.id = task.id := List.head_eq_of_cons_eq (hother.symm.trans hbegun)
    have hm := (Queue.mem_pop (Queue.pop_of_popDue hp)).2 (.inl rfl)
    have htask := h.left.mem_iff.2 (List.mem_cons_self ..)
    exact hbal.eq_of_id hm htask hid ▸ hp

/-- The task that is taken up is due, and it is run before all that are left. -/
theorem TakesUp.isFirst (ho : e.Orderly) (hbal : e.Balanced) (h : e.TakesUp task next) :
    task.deadline ≤ e.clock ∧ ∀ other ∈ next.guarded.pending.tasks, task.before other = true := by
  have hp := h.popDue ho hbal
  refine ⟨Queue.due_of_popDue hp, fun other hother => ?_⟩
  have hnodup := (h.left.map Task.id).nodup_iff.1 hbal.nodup_pending
  have hne : other.id ≠ task.id := by
    intro hid
    refine (List.nodup_cons.1 hnodup).1 ?_
    rw [← hid]
    exact List.mem_map_of_mem hother
  exact Task.before_of_not_before
    (Queue.not_before_of_pop (Queue.pop_of_popDue hp) other hother) hne

/-! ## Two tasks -/

/-- Once the later of two tasks has been begun, the sooner one is pending no more, and it was begun
before the later one if it was begun at all. -/
def RunsAfter (e : Executor) (later sooner : Task Script) : Prop :=
  later.id ∈ e.startedIds .action → sooner ∉ e.guarded.pending.tasks ∧
    (sooner.id ∈ e.startedIds .action →
      [later.id, sooner.id].Sublist (e.startedIds .action))

/-- A task that is pending no more has been begun or removed, and it stays so. -/
theorem gone_of_happens (hfate : e.Fate task) (hbal : e.Balanced)
    (hnot : task ∉ e.guarded.pending.tasks) (hh : Happens e next) :
    (task.id ∈ e.startedIds .action ∨ task.id ∈ e.removedIds) ∧
      (task.id ∈ next.startedIds .action ∨ task.id ∈ next.removedIds) := by
  have hgone : task.id ∈ e.startedIds .action ∨ task.id ∈ e.removedIds := by
    by_cases hb : task.id ∈ e.startedIds .action
    · exact .inl hb
    · exact .inr ((hfate.pending_or_removed hbal hb).resolve_left hnot)
  exact ⟨hgone, hgone.imp (mem_gather_of_happens hh) (mem_gather_of_happens hh)⟩

/-- A task that is taken up has not been begun or removed before. -/
theorem not_gone_of_popDue (hbal : e.Balanced) {rest : Queue Script}
    (hp : e.guarded.pending.popDue? e.clock = some (task, rest)) :
    ¬ (task.id ∈ e.startedIds .action ∨ task.id ∈ e.removedIds) := fun hgone =>
  hbal.not_pending hgone ((Queue.mem_pop (Queue.pop_of_popDue hp)).2 (.inl rfl))

theorem RunsAfter.happens (hi : e.RunsAfter later sooner) (hlt : sooner.before later = true)
    (hs : e.Fate sooner) (hl : e.Fate later) (hbal : e.Balanced) (hnext : next.Balanced)
    (hh : Happens e next) : next.RunsAfter later sooner := by
  intro hlater
  -- in either case below, the sooner task is pending no more before the step
  have hgone : sooner ∉ e.guarded.pending.tasks → sooner ∉ next.guarded.pending.tasks := fun hnot =>
    hnext.not_pending (gone_of_happens hs hbal hnot hh).2
  rcases begun_of_happens hh with hsame | ⟨task, hbegun, hp⟩
  · rw [hsame] at hlater ⊢
    obtain ⟨hnot, hsub⟩ := hi hlater
    exact ⟨hgone hnot, hsub⟩
  · have hnew := not_gone_of_popDue hbal hp
    by_cases hbefore : later.id ∈ e.startedIds .action
    · obtain ⟨hnot, hsub⟩ := hi hbefore
      refine ⟨hgone hnot, fun hsooner => ?_⟩
      rw [hbegun] at hsooner ⊢
      rcases List.mem_cons.1 hsooner with hid | hsooner
      · exact absurd (hid ▸ (gone_of_happens hs hbal hnot hh).1) hnew
      · exact (hsub hsooner).cons _
    · rw [hbegun] at hlater
      have hid : later.id = task.id := (List.mem_cons.1 hlater).resolve_right hbefore
      have hpop := Queue.pop_of_popDue hp
      have htask : task ∈ e.guarded.pending.tasks := (Queue.mem_pop hpop).2 (.inl rfl)
      have hpending : later ∈ e.guarded.pending.tasks :=
        (hl.pending_or_removed hbal hbefore).resolve_right fun hr => hnew (hid ▸ .inr hr)
      obtain rfl : later = task := hbal.eq_of_id hpending htask hid
      have hnot : sooner ∉ e.guarded.pending.tasks := by
        intro hm
        have hfirst : sooner.before later = false := by
          rcases (Queue.mem_pop hpop).1 hm with rfl | hm
          · exact Task.before_irrefl sooner
          · exact Queue.not_before_of_pop hpop sooner hm
        rw [hfirst] at hlt
        cases hlt
      refine ⟨hgone hnot, fun hsooner => ?_⟩
      rw [hbegun] at hsooner ⊢
      rcases List.mem_cons.1 hsooner with hid | hsooner
      · exact absurd (hid ▸ (gone_of_happens hs hbal hnot hh).1) hnew
      · exact (List.singleton_sublist.2 hsooner).cons_cons _

/-! ## Calls one after the other -/

/-- No task with a number has been made. -/
def IsUnmade (e : Executor) (id : TaskId) : Prop :=
  id ∉ e.acceptedIds ∧
    ∀ t a, e.activity? t = some a → ∀ task ∈ a.control.offered, task.id ≠ id

/-- The call that has scheduled one task was over before the one began that has scheduled the
other. -/
def CalledBefore (start : Executor) (sooner later : Task Script) (e : Executor) : Prop :=
  ∃ between, start.Reachable between ∧ between.Reachable e ∧
    sooner.id ∈ between.confirmedIds ∧ between.IsUnmade later.id

theorem IsUnmade.numbered_eq_zero {id : TaskId} (h : e.IsUnmade id) :
    e.numbered (· == id) = 0 := by
  have hoffered : ∀ t a, e.activity? t = some a → a.offered (· == id) = 0 := fun t a ha =>
    List.countP_eq_zero.2 fun task hm => by simpa using h.2 t a ha task hm
  have htotal : e.total (·.offered (· == id)) = 0 :=
    total_eq_zero (fun a ha => hoffered .worker a (activity?_worker.2 ha))
      fun n => hoffered (.caller n) _ rfl
  have haccepted : e.acceptedIds.countP (· == id) = 0 := List.count_eq_zero.2 h.1
  rw [numbered]
  omega

section Runs

variable {config : Config} {telemetry : Telemetry} {clock : Instant} {start : Executor}

/-- Every action that has been begun is that of a task which the worker took up. -/
theorem exists_takesUp (hs : Executor.start config telemetry clock = .ok start)
    (hr : start.Reachable e) {id : TaskId} (hid : id ∈ e.startedIds .action) :
    ∃ before task next, start.Reachable before ∧ before.TakesUp task next ∧ next.Reachable e ∧
      task.id = id := by
  induction hr with
  | refl =>
    obtain rfl := eq_initial_of_start hs
    cases hid
  | @move before after m hb hm ih =>
    have earlier : id ∈ before.startedIds .action →
        ∃ d task next, start.Reachable d ∧ d.TakesUp task next ∧ next.Reachable after ∧
          task.id = id := by
      intro hid
      obtain ⟨d, task, next, hd, htakes, hn, htask⟩ := ih hid
      exact ⟨d, task, next, hd, htakes, hn.move m hm, htask⟩
    rcases begun_of_happens (happens_of_move (orderly_of_start hs hb) hm) with
      hsame | ⟨task, hbegun, hp⟩
    · exact earlier (hsame ▸ hid)
    · rw [hbegun] at hid
      rcases List.mem_cons.1 hid with rfl | hid
      · exact ⟨before, task, after, hb,
          ⟨⟨m, hm⟩, hbegun, Queue.perm_pop (Queue.pop_of_popDue hp)⟩, .refl, rfl⟩
      · exact earlier hid

/-- Two tasks that are pending together are begun in their order. -/
theorem runs_in_order (hs : Executor.start config telemetry clock = .ok start)
    (hr : start.Reachable e) (hsooner : sooner ∈ e.guarded.pending.tasks)
    (hlater : later ∈ e.guarded.pending.tasks) (hlt : sooner.before later = true)
    (hl : e.Reachable last) : last.RunsAfter later sooner := by
  have hbal := balanced_of_start hs hr
  have hfirst : e.RunsAfter later sooner := fun hm => absurd hlater (hbal.not_pending (.inl hm))
  refine (hl.happens_invariant
    (P := fun e => e.Balanced ∧ e.Fate sooner ∧ e.Fate later ∧ e.RunsAfter later sooner)
    (orderly_of_start hs hr) ⟨hbal, .pending hsooner, .pending hlater, hfirst⟩
    fun before next hb hi hh => ?_).2.2.2
  obtain ⟨hbefore, hfs, hfl, hi⟩ := hi
  have hhandled := handled_of_start hs (hr.trans hb)
  have hnext := hbefore.happens hh
  exact ⟨hnext, hfs.happens hbefore hhandled hh, hfl.happens hbefore hhandled hh,
    hi.happens hlt hfs hfl hbefore hnext hh⟩

/-- The task of a call that is over has a smaller number than that of a call yet to begin. -/
theorem number_lt_of_calledBefore (hs : Executor.start config telemetry clock = .ok start)
    (hcalled : start.CalledBefore sooner later e) (hlater : later ∈ e.guarded.pending.tasks) :
    sooner.id.number < later.id.number := by
  obtain ⟨between, hb, he, hconfirmed, hunmade⟩ := hcalled
  have hbal := balanced_of_start hs hb
  have hsooner : sooner.id.number < between.nextId := by
    by_contra hn
    have hzero := (hbal.numbers sooner.id).2 (Nat.le_of_not_lt hn)
    have hconfirms := confirmed_of_start hs hb (· == sooner.id)
    have hpos : 0 < between.confirmedIds.countP (· == sooner.id) := List.count_pos_iff.2 hconfirmed
    rw [numbered] at hzero
    omega
  have hlast : between.nextId ≤ later.id.number := by
    by_contra hn
    have hvoid : between.IsVoid later.id := ⟨hunmade.numbered_eq_zero, by omega⟩
    have hlost : e.IsVoid later.id :=
      he.happens_invariant (P := fun e => e.IsVoid later.id) (orderly_of_start hs hb) hvoid
        fun _ _ _ hi hh => hi.happens hh
    have hqueue := (balanced_of_start hs (hb.trans he)).queue (· == later.id)
    have hpos := Queue.count_pos hlater
    have hzero := hlost.1
    rw [numbered] at hzero
    omega
  omega

/-- **The order of the actions.** Every action that is begun is that of a task which, when the
worker took it up, was due and strictly before all others then pending, by deadline and then by
number. So of two tasks that are pending together, the one with the earlier deadline, or at one
deadline the one whose call was over before the other's began, is not left waiting by the other. -/
theorem takes_up_first_due (hs : Executor.start config telemetry clock = .ok start)
    (hr : start.Reachable e) :
    (∀ id ∈ e.startedIds .action, ∃ before task next,
      start.Reachable before ∧ before.TakesUp task next ∧ next.Reachable e ∧ task.id = id ∧
      task.deadline ≤ before.clock ∧
      ∀ other ∈ next.guarded.pending.tasks, task.deadline < other.deadline ∨
        task.deadline = other.deadline ∧ task.id.number < other.id.number) ∧
    ∀ sooner ∈ e.guarded.pending.tasks, ∀ later ∈ e.guarded.pending.tasks,
      sooner.deadline < later.deadline ∨
        sooner.deadline = later.deadline ∧ start.CalledBefore sooner later e →
      ∀ last, e.Reachable last → last.RunsAfter later sooner := by
  refine ⟨fun id hid => ?_, fun sooner hsooner later hlater horder last hl => ?_⟩
  · obtain ⟨before, task, next, hb, htakes, hn, rfl⟩ := exists_takesUp hs hr hid
    obtain ⟨hdue, hfirst⟩ := htakes.isFirst (orderly_of_start hs hb) (balanced_of_start hs hb)
    exact ⟨before, task, next, hb, htakes, hn, rfl, hdue,
      fun other hother => Task.before_iff_lt_or_eq.1 (hfirst other hother)⟩
  · refine runs_in_order hs hr hsooner hlater (Task.before_iff_lt_or_eq.2 ?_) hl
    rcases horder with hlt | ⟨heq, hcalled⟩
    · exact .inl hlt
    · exact .inr ⟨heq, number_lt_of_calledBefore hs hcalled hlater⟩

end Runs

/-- Two tasks at one deadline, scheduled one after the other, are run one after the other. -/
theorem takes_up_first_due_same_deadline :
    ∃ e last sooner later, (initial {} .stub ⟨0⟩).Reachable e ∧ e.Reachable last ∧
      e.guarded.pending.tasks = [sooner, later] ∧ sooner.deadline = later.deadline ∧
      (initial {} .stub ⟨0⟩).CalledBefore sooner later e ∧
      last.startedIds .action = [later.id, sooner.id] ∧ last.RunsAfter later sooner ∧
      ∃ before task next, TakesUp before task next ∧ task.id = later.id ∧
        task.deadline ≤ before.clock := by
  obtain ⟨between, e, last, sooner, later, hb, he, hl, hq, hd, hc, hu, hids⟩ :
      ∃ between e last sooner later,
        (initial {} .stub ⟨0⟩).moves? [.call 0 (.schedule
            { label := "first", due := .instant ⟨2000⟩ }), .step (.caller 0), .step (.caller 0),
          .step (.caller 0)] = some between ∧
        between.moves? [.call 1 (.schedule { label := "second", due := .instant ⟨2000⟩ }),
          .step (.caller 1), .step (.caller 1)] = some e ∧
        e.moves? [.tick 3000, .step .worker, .step .worker, .step .worker, .step .worker] =
          some last ∧
        e.guarded.pending.tasks = [sooner, later] ∧ sooner.deadline = later.deadline ∧
        sooner.id ∈ between.confirmedIds ∧ between.IsUnmade later.id ∧
        last.startedIds .action = [later.id, sooner.id] := by
    refine ⟨_, _, _, _, _, rfl, rfl, rfl, rfl, rfl, List.mem_singleton_self _, ⟨nofun, ?_⟩, rfl⟩
    rintro (_ | _ | n) a ha task hm
    · cases ha
    all_goals
      obtain rfl := Option.some.inj ha
      cases hm
  have hs : Executor.start {} .stub ⟨0⟩ = .ok _ := rfl
  have hbetween := Reachable.refl.of_moves _ hb
  have hbe := Reachable.refl.of_moves _ he
  have hel := Reachable.refl.of_moves _ hl
  have hr := hbetween.trans hbe
  have hcalled : CalledBefore _ sooner later e := ⟨between, hbetween, hbe, hc, hu⟩
  have hlater : later.id ∈ last.startedIds .action := hids ▸ List.mem_cons_self ..
  obtain ⟨-, horder⟩ := takes_up_first_due hs hr
  obtain ⟨hbegun, -⟩ := takes_up_first_due hs (hr.trans hel)
  obtain ⟨before, task, next, -, htakes, -, hid, hdue, -⟩ := hbegun later.id hlater
  refine ⟨e, last, sooner, later, hr, hel, hq, hd, hcalled, hids, ?_, ?_⟩
  · exact horder sooner (hq ▸ List.mem_cons_self ..) later
      (hq ▸ List.mem_cons_of_mem _ (List.mem_singleton_self _)) (.inr ⟨hd, hcalled⟩) last hel
  · exact ⟨before, task, next, htakes, hid, hdue⟩

end Executor

end Deferred
