import Deferred.Proofs.Executor.Counters
import Deferred.Proofs.Executor.Fate

/-!
# Where every task is

A call that schedules or cancels is made of several steps, between which any other thread may run: a
task may have been run before it is reported as scheduled. At any time every task that has been
added is in one place, and once nothing is in progress the counters agree about how many there are.

* `Place`, `Executor.IsIn`: where a task can be.
* `Balanced.place_unique`, `Fate.exists_place`: it is in one place, and in no other.
* `IsDoomed.happens`: no action is begun once a panic is unwinding the worker.
* `each_task_in_one_place`: all this for every reachable state.
-/

namespace Deferred

/-- Where a task can be that has been added. -/
inductive Place
  /-- In the queue. -/
  | queue
  /-- In the hand of the worker, which runs its action. -/
  | hand
  /-- In a batch that a thread has removed: it is to be called back, or is being called back. The
  batches of a thread are numbered from the one that it has removed last. -/
  | batch (thread : ThreadId) (depth : Nat)
  /-- Nowhere any more. -/
  | finished

/-! ## Batches as lists of tasks -/

namespace Frame

/-- The batch whose task a callable in progress is, with that task. -/
def carried : Frame → List (List TaskId)
  | action _ _ _ _ => []
  | callback task batch _ => [task :: batch.tasks.ids]

theorem countP_carried (p : TaskId → Bool) (frame : Frame) :
    frame.carried.flatten.countP p =
      (frame.batches.map (·.tasks.count p)).sum +
        [frame].countP fun frame => frame.role = .callback && p frame.task := by
  cases frame with
  | action => rfl
  | callback task batch rest =>
    simp [carried, batches, role, Frame.task, List.countP_cons, Queue.countP_ids]

theorem countP_flatMap_carried (p : TaskId → Bool) (stack : List Frame) :
    (stack.flatMap carried).flatten.countP p =
      ((stack.flatMap batches).map (·.tasks.count p)).sum +
        stack.countP fun frame => frame.role = .callback && p frame.task := by
  induction stack with
  | nil => rfl
  | cons frame stack ih =>
    have hframe := frame.countP_carried p
    rw [← List.singleton_append (x := frame), List.countP_append]
    simp only [List.flatMap_append, List.flatten_append, List.map_append, List.countP_append,
      List.sum_append, List.flatMap_singleton, ih]
    omega

theorem mem_carried {frame : Frame} {batch : Batch} {task : Task Script} (hb : batch ∈ frame.batches)
    (hm : task ∈ batch.tasks.tasks) : ∃ ids ∈ frame.carried, task.id ∈ ids := by
  cases frame with
  | action => cases hb
  | callback =>
    obtain rfl := List.mem_singleton.1 hb
    exact ⟨_, List.mem_singleton_self _, List.mem_cons_of_mem _ (Queue.mem_ids.2 ⟨task, hm, rfl⟩)⟩

end Frame

namespace Control

/-- The batch that a thread is settling. -/
def carried : Control → List (List TaskId)
  | settle batch => [batch.tasks.ids]
  | ended frame _ => frame.carried
  | _ => []

theorem mem_carried {control : Control} {batch : Batch} {task : Task Script}
    (hb : batch ∈ control.batches) (hm : task ∈ batch.tasks.tasks) :
    ∃ ids ∈ control.carried, task.id ∈ ids := by
  cases control with
  | settle =>
    obtain rfl := List.mem_singleton.1 hb
    exact ⟨_, List.mem_singleton_self _, Queue.mem_ids.2 ⟨task, hm, rfl⟩⟩
  | ended frame => exact Frame.mem_carried hb hm
  | _ => cases hb

end Control

namespace Activity

/-- The batches that a thread has in hand, the latest first. -/
def carried (a : Activity) : List (List TaskId) := a.control.carried ++ a.stack.flatMap Frame.carried

/-- How many tasks with numbers of a certain kind are in the batches that a thread has in hand. -/
def carries (p : TaskId → Bool) (a : Activity) : Nat := a.carried.flatten.countP p

/-- Whether a thread runs the action of a task. -/
def Runs (a : Activity) (task : Task Script) : Prop :=
  ∃ frame ∈ a.frames, frame.role = .action ∧ frame.task = task.id

variable {a : Activity} {task : Task Script} {ids : List TaskId}

theorem Runs.running_pos (h : a.Runs task) : 0 < a.running .action (· == task.id) := by
  obtain ⟨frame, hf, hrole, htask⟩ := h
  exact List.countP_pos_iff.2 ⟨frame, hf, by simp [hrole, htask]⟩

/-- The tasks in the batches that a thread has in hand are those that it holds and those that it is
calling back. -/
theorem carries_eq (p : TaskId → Bool) (a : Activity) :
    a.carries p = a.held p + a.running .callback p := by
  obtain ⟨control, stack⟩ := a
  have hstack := Frame.countP_flatMap_carried p stack
  simp only [carries, carried, held, batches, running, frames, List.flatten_append,
    List.countP_append, List.map_append, List.sum_append]
  cases control with
  | settle batch =>
    simp [Control.carried, Control.batches, Control.frames, Queue.countP_ids, hstack, Nat.add_assoc]
  | ended frame swallowed =>
    have hframe := frame.countP_carried p
    simp only [Control.carried, Control.batches, Control.frames]
    omega
  | _ => simpa [Control.carried, Control.batches, Control.frames] using hstack

theorem carries_pos (h : ids ∈ a.carried) (hid : task.id ∈ ids) : 0 < a.carries (· == task.id) :=
  List.count_pos_iff.2 (List.mem_flatten.2 ⟨ids, h, hid⟩)

/-- A task that a thread holds is in one of the batches that the thread has in hand. -/
theorem Holds.mem_carried (h : a.Holds task) : ∃ ids ∈ a.carried, task.id ∈ ids := by
  obtain ⟨batch, hb, hm⟩ := h
  rcases List.mem_append.1 hb with hc | hs
  · obtain ⟨ids, hi, hids⟩ := Control.mem_carried hc hm
    exact ⟨ids, List.mem_append_left _ hi, hids⟩
  · obtain ⟨frame, hf, hb⟩ := List.mem_flatMap.1 hs
    obtain ⟨ids, hi, hids⟩ := Frame.mem_carried hb hm
    exact ⟨ids, List.mem_append_right _ (List.mem_flatMap.2 ⟨frame, hf, hi⟩), hids⟩

end Activity

/-- A task that is in the batches once is in one of them. -/
theorem index_unique {batches : List (List TaskId)} {p : TaskId → Bool} {id : TaskId}
    (hp : p id = true) (h : batches.flatten.countP p ≤ 1) {k l : Nat} {xs ys : List TaskId}
    (hk : batches[k]? = some xs) (hx : id ∈ xs) (hl : batches[l]? = some ys) (hy : id ∈ ys) :
    k = l := by
  have pos : ∀ {zs : List TaskId}, id ∈ zs → 0 < zs.countP p := fun hz =>
    List.countP_pos_iff.2 ⟨id, hz, hp⟩
  induction batches generalizing k l with
  | nil => cases hk
  | cons batch rest ih =>
    rw [List.flatten_cons, List.countP_append] at h
    have later : ∀ {n : Nat} {zs : List TaskId}, rest[n]? = some zs → id ∈ zs →
        0 < rest.flatten.countP p := fun hn hz =>
      pos (List.mem_flatten.2 ⟨_, List.mem_of_getElem? hn, hz⟩)
    cases k with
    | zero =>
      obtain rfl := Option.some.inj hk
      have := pos hx
      cases l with
      | zero => rfl
      | succ l => have := later hl hy; omega
    | succ k =>
      have := later hk hx
      cases l with
      | zero =>
        obtain rfl := Option.some.inj hl
        have := pos hy
        omega
      | succ l => rw [ih (by omega) hk hl]

namespace Executor

variable {e next : Executor} {t : ThreadId} {a b : Activity} {c : Change} {v w : WorkerState}
variable {task : Task Script}

/-! ## Places -/

/-- What has to have happened to a task that is nowhere any more. -/
def IsDealtWith (e : Executor) (task : Task Script) : Prop :=
  (∃ role, task.id ∈ e.startedIds role) ∨
    task.id ∈ e.removedIds ∧ task.onCancel = none ∨
    task.id ∈ e.ledger.discarded ∧ e.config.shutdownPolicy = .discard ∨
    task.id ∈ e.removedIds ∧ e.CallbackEscaped

/-- A task is in a place. -/
def IsIn (e : Executor) (task : Task Script) : Place → Prop
  | .queue => task ∈ e.guarded.pending.tasks
  | .hand => ∃ a, e.activity? .worker = some a ∧ a.Runs task
  | .batch t depth =>
    ∃ a ids, e.activity? t = some a ∧ a.carried[depth]? = some ids ∧ task.id ∈ ids
  | .finished =>
    e.IsDealtWith task ∧ task ∉ e.guarded.pending.tasks ∧
      (∀ a, e.activity? .worker = some a → ¬ a.Runs task) ∧
      ∀ t a, e.activity? t = some a → ∀ ids ∈ a.carried, task.id ∉ ids

/-- No task is in two of the places where it counts. -/
theorem Balanced.places_le (h : e.Balanced) (id : TaskId) :
    e.guarded.pending.count (· == id) + e.total (·.running .action (· == id)) +
      e.total (·.carries (· == id)) ≤ 1 := by
  have hsum : e.total (·.carries (· == id)) =
      e.total (·.held (· == id)) + e.total (·.running .callback (· == id)) := by
    simp only [Activity.carries_eq]
    exact total_add ..
  have haction := h.callables .action (· == id)
  have hcallback := h.callables .callback (· == id)
  have haccounts := h.accounts_le (· == id)
  have hone := h.countP_acceptedIds_le id
  omega

/-- A task is in no two batches. -/
theorem Balanced.batch_unique (h : e.Balanced) {u : ThreadId} {k l : Nat}
    (ht : e.IsIn task (.batch t k)) (hu : e.IsIn task (.batch u l)) : t = u ∧ k = l := by
  have hle := h.places_le task.id
  obtain ⟨a, xs, ha, hk, hx⟩ := ht
  obtain ⟨b, ys, hb, hl, hy⟩ := hu
  by_cases hut : u = t
  · subst hut
    obtain rfl : a = b := Option.some.inj (ha.symm.trans hb)
    have hmax := le_total (f := (·.carries (· == task.id))) rfl ha
    exact ⟨rfl, index_unique (p := (· == task.id)) (beq_self_eq_true _)
      (by rw [← Activity.carries]; omega) hk hx hl hy⟩
  · have htwo := add_le_total (f := (·.carries (· == task.id))) rfl ha hb hut
    have := Activity.carries_pos (List.mem_of_getElem? hk) hx
    have := Activity.carries_pos (List.mem_of_getElem? hl) hy
    omega

/-- A task is in no two places. -/
theorem Balanced.place_unique (h : e.Balanced) {p q : Place} (hp : e.IsIn task p)
    (hq : e.IsIn task q) : p = q := by
  have hle := h.places_le task.id
  have hqueue : e.IsIn task .queue → 0 < e.guarded.pending.count (· == task.id) :=
    Queue.count_pos
  have hhand : e.IsIn task .hand → 0 < e.total (·.running .action (· == task.id)) := by
    rintro ⟨a, ha, hr⟩
    exact Nat.lt_of_lt_of_le hr.running_pos
      (le_total (f := (·.running .action (· == task.id))) rfl ha)
  have hbatch : ∀ t k, e.IsIn task (.batch t k) → 0 < e.total (·.carries (· == task.id)) := by
    rintro t k ⟨a, ids, ha, hk, hid⟩
    exact Nat.lt_of_lt_of_le (Activity.carries_pos (List.mem_of_getElem? hk) hid)
      (le_total (f := (·.carries (· == task.id))) rfl ha)
  have hnot : e.IsIn task .finished →
      ¬ e.IsIn task .queue ∧ ¬ e.IsIn task .hand ∧ ∀ t k, ¬ e.IsIn task (.batch t k) := by
    rintro ⟨-, hqueue, hhand, hbatch⟩
    exact ⟨hqueue, fun ⟨a, ha, hr⟩ => hhand a ha hr, fun t k ⟨a, ids, ha, hk, hid⟩ =>
      hbatch t a ha ids (List.mem_of_getElem? hk) hid⟩
  cases p with
  | queue =>
    have := hqueue hp
    cases q with
    | queue => rfl
    | hand => have := hhand hq; omega
    | batch t k => have := hbatch t k hq; omega
    | finished => exact absurd hp (hnot hq).1
  | hand =>
    have := hhand hp
    cases q with
    | queue => have := hqueue hq; omega
    | hand => rfl
    | batch t k => have := hbatch t k hq; omega
    | finished => exact absurd hp (hnot hq).2.1
  | batch t k =>
    have := hbatch t k hp
    cases q with
    | queue => have := hqueue hq; omega
    | hand => have := hhand hq; omega
    | batch u l =>
      obtain ⟨rfl, rfl⟩ := h.batch_unique hp hq
      rfl
    | finished => exact absurd hp ((hnot hq).2.2 t k)
  | finished =>
    cases q with
    | queue => exact absurd hq (hnot hp).1
    | hand => exact absurd hq (hnot hp).2.1
    | batch t k => exact absurd hq ((hnot hp).2.2 t k)
    | finished => rfl

/-- A task that has been added is in some place. -/
theorem Fate.exists_place (h : e.Fate task) : ∃ place, e.IsIn task place := by
  by_cases hqueue : task ∈ e.guarded.pending.tasks
  · exact ⟨.queue, hqueue⟩
  by_cases hhand : e.IsIn task .hand
  · exact ⟨.hand, hhand⟩
  by_cases hbatch : ∃ t a, e.activity? t = some a ∧ ∃ ids ∈ a.carried, task.id ∈ ids
  · obtain ⟨t, a, ha, ids, hids, hid⟩ := hbatch
    obtain ⟨k, hk⟩ := List.getElem?_of_mem hids
    exact ⟨.batch t k, a, ids, ha, hk, hid⟩
  refine ⟨.finished, ?_, hqueue, fun a ha hr => hhand ⟨a, ha, hr⟩,
    fun t a ha ids hids hid => hbatch ⟨t, a, ha, ids, hids, hid⟩⟩
  cases h with
  | pending hm => exact absurd hm hqueue
  | begun role hm => exact .inl ⟨role, hm⟩
  | held ha hm => exact absurd ⟨_, _, ha, hm.mem_carried⟩ hbatch
  | letGo hr hn => exact .inr (.inl ⟨hr, hn⟩)
  | discarded hp hd => exact .inr (.inr (.inl ⟨hd, hp⟩))
  | escaped hr he => exact .inr (.inr (.inr ⟨hr, he⟩))

/-! ## A worker that a panic is unwinding -/

/-- A panic is unwinding the worker, or has ended it. -/
def IsDoomed (e : Executor) : Prop :=
  (∃ a, e.worker = .busy a ∧ a.control.unwinds = true) ∨ ∃ payload, e.worker = .died payload

theorem Local.unwinds_worker (h : Local e .worker a c b) (ha : a.control.unwinds = true)
    (hs : e.handler.strategy = .propagate) : b.control.unwinds = true := by
  cases h with
  | unwind hc =>
    rw [(hc.passes hs).1]
    rfl
  | leave ht => cases ht
  | _ => cases ha

/-- Such a worker begins no action any more. -/
theorem IsDoomed.happens (hi : e.IsDoomed) (hh : e.Handled) (h : Happens e next) :
    next.IsDoomed ∧ next.startedIds .action = e.startedIds .action := by
  cases h with
  | @goes t a b c ha hl =>
    refine ⟨?_, by rw [startedIds, startedIds, gather_after, hl.begins_no_action, List.nil_append]⟩
    cases t with
    | worker =>
      rcases hi with ⟨a', hw, hu⟩ | ⟨payload, hw⟩
      · obtain rfl : a' = a := WorkerState.busy.inj (hw.symm.trans (activity?_worker.1 ha))
        have hs := (hh.unwinding _ _ ha hu).1
        rw [← hh.strategy] at hs
        exact .inl ⟨b, worker_after_worker .., hl.unwinds_worker hu hs⟩
      · rw [activity?_worker, hw] at ha
        cases ha
    | caller n =>
      rw [IsDoomed, worker_after_caller]
      rcases hi with ⟨a', hw, hu⟩ | ⟨payload, hw⟩
      · exact .inl ⟨a', by rw [hw]; exact ite_self _, hu⟩
      · exact .inr ⟨payload, by rw [hw]; exact ite_self _⟩
  | turns hv hw =>
    rcases hi with ⟨a', hb, hu⟩ | ⟨payload, hb⟩
    · obtain rfl := hb.symm.trans hv
      cases hw with
      | die => exact ⟨.inr ⟨_, rfl⟩, rfl⟩
      | finish => cases hu
    · obtain rfl := hb.symm.trans hv
      cases hw
  | ticks => exact ⟨hi, rfl⟩

/-- A task that is not begun is pending or has been removed. -/
theorem Fate.pending_or_removed (h : e.Fate task) (hbal : e.Balanced)
    (hn : task.id ∉ e.startedIds .action) :
    task ∈ e.guarded.pending.tasks ∨ task.id ∈ e.removedIds := by
  by_cases hr : task.id ∈ e.removedIds
  · exact .inr hr
  have hzero : e.removedIds.countP (· == task.id) = 0 := List.count_eq_zero.2 hr
  have hbatches := hbal.batches (· == task.id)
  cases h with
  | pending hm => exact .inl hm
  | begun role hm =>
    cases role with
    | action => exact absurd hm hn
    | callback =>
      have : 0 < (e.startedIds .callback).countP (· == task.id) := List.count_pos_iff.2 hm
      omega
  | held ha hm => exact absurd (hbal.mem_removedIds_of_holds ha hm) hr
  | letGo hr' => exact absurd hr' hr
  | discarded _ hd =>
    have : 0 < e.ledger.discarded.countP (· == task.id) := List.count_pos_iff.2 hd
    omega
  | escaped hr' => exact absurd hr' hr

section Runs

variable {config : Config} {telemetry : Telemetry} {clock : Instant} {start : Executor}

/-- A task that is added while a panic is unwinding the worker is never run: it stays pending until
a call removes it. -/
theorem stays_pending (hs : Executor.start config telemetry clock = .ok start)
    {before : Executor} (hb : start.Reachable before) (hdoomed : before.IsDoomed)
    (hacc : before.Accepts t task next) (hn : next.Reachable e) :
    (task ∈ e.guarded.pending.tasks ∨ task.id ∈ e.removedIds) ∧
      task.id ∉ e.startedIds .action := by
  have hstep := hacc.reachable hb
  obtain ⟨hhappens, hpending, hid⟩ := hacc.happens
  have hnone : task.id ∉ next.startedIds .action := by
    intro hm
    have haccounts := (balanced_of_start hs hstep).accounts_le (· == task.id)
    have hone := (balanced_of_start hs hstep).countP_acceptedIds_le task.id
    have hcount := Queue.count_pos hpending
    have hstarted : 0 < (next.startedIds .action).countP (· == task.id) := List.count_pos_iff.2 hm
    omega
  have hlast : e.IsDoomed ∧ task.id ∉ e.startedIds .action := by
    refine hn.happens_invariant (P := fun e => e.IsDoomed ∧ task.id ∉ e.startedIds .action)
      (orderly_of_start hs hstep)
      ⟨(hdoomed.happens (handled_of_start hs hb) hhappens).1, hnone⟩ fun d n hd hi hh => ?_
    obtain ⟨hdoom, hsame⟩ := hi.1.happens (handled_of_start hs (hstep.trans hd)) hh
    exact ⟨hdoom, hsame ▸ hi.2⟩
  have hfate := (fate_of_accepted hs ⟨before, t, next, hb, hacc, hn⟩).1
  exact ⟨hfate.pending_or_removed (balanced_of_start hs (hstep.trans hn)) hlast.2, hlast.2⟩

/-- **Every task is in one place.** Whatever the threads do and in whatever order, each task that
has been added is pending, run by the worker, with one thread that has removed it, or finished; no
callable is invoked twice; what is added while a panic is unwinding the worker stays pending until a
call removes it; and where nothing is in progress and no panic has unwound anything, the counters
add up to the tasks that are pending. -/
theorem each_task_in_one_place (hs : Executor.start config telemetry clock = .ok start)
    (hr : start.Reachable e) :
    (∀ task, start.HasAccepted task e → ∃! place, e.IsIn task place) ∧
    (∀ role id, e.invocations role id ≤ 1) ∧
    (∀ before t task next, start.Reachable before → before.IsDoomed → before.Accepts t task next →
      next.Reachable e → (task ∈ e.guarded.pending.tasks ∨ task.id ∈ e.removedIds) ∧
        e.invocations .action task.id = 0) ∧
    (telemetry = .kept {} → e.Quiet → ¬ e.HasUnwound →
      e.snapshot.scheduled = e.snapshot.executed + e.snapshot.canceled + e.snapshot.discarded +
        .ofNat e.guarded.pending.size ∧
      (e.confirmedIds.length < 2 ^ 64 →
        e.snapshot.scheduled.toNat = e.snapshot.executed.toNat + e.snapshot.canceled.toNat +
          e.snapshot.discarded.toNat + e.guarded.pending.size)) := by
  have hbal := balanced_of_start hs hr
  refine ⟨fun task hacc => ?_, fun role id => ?_, fun before t task next hb hd hacc hn => ?_,
    fun hk hq hu => ?_⟩
  · obtain ⟨place, hp⟩ := (fate_of_accepted hs hacc).1.exists_place
    exact ⟨place, hp, fun q hq => hbal.place_unique hq hp⟩
  · have haccounts := hbal.accounts_le (· == id)
    have hone := hbal.countP_acceptedIds_le id
    simp only [invocations, List.count]
    cases role <;> omega
  · obtain ⟨hplace, hnone⟩ := stays_pending hs hb hd hacc hn
    exact ⟨hplace, List.count_eq_zero.2 hnone⟩
  · subst hk
    refine ⟨scheduled_eq_of_quiet hs hr hq hu, fun hlt => ?_⟩
    obtain ⟨hscheduled, hexecuted, hcanceled, hdiscarded⟩ := snapshot_of_quiet hs hr hq hlt
    have hsum := length_confirmedIds_of_quiet hs hr hq
    have hlost := lost_eq_zero hu (lossless_of_start hs hr)
    rw [lost] at hlost
    omega

end Runs

/-- A task that is added while the panic of an action is unwinding the worker, and an action that
has been run before anything else. -/
theorem each_task_in_one_place_unwinding :
    (∃ before next e task, (initial {} (.kept {}) ⟨0⟩).Reachable before ∧ before.IsDoomed ∧
      before.Accepts (.caller 0) task next ∧ next.Reachable e ∧ e.removedIds = [] ∧
      task ∈ e.guarded.pending.tasks ∧ ∃! place, e.IsIn task place) ∧
    ∃ e, (initial {} (.kept {}) ⟨0⟩).Reachable e ∧ e.Quiet ∧ ¬ e.HasUnwound ∧
      e.startedIds .action = [⟨1⟩] ∧
      e.snapshot.scheduled = e.snapshot.executed + e.snapshot.canceled + e.snapshot.discarded +
        .ofNat e.guarded.pending.size := by
  have hs : Executor.start {} (.kept {}) ⟨0⟩ = .ok _ := rfl
  constructor
  · obtain ⟨before, next, e, task, hb, hd, hacc, hn, hids⟩ : ∃ before next e task,
        (initial {} (.kept {}) ⟨0⟩).moves? [.call 0 (.schedule
            { label := "boom", due := .instant ⟨0⟩, action := .panic (.literal "boom") .done }),
          .step (.caller 0), .step (.caller 0), .step (.caller 0), .step .worker, .step .worker,
          .call 0 (.schedule { label := "left", due := .instant ⟨1000⟩ })] = some before ∧
        before.IsDoomed ∧ before.Accepts (.caller 0) task next ∧
        next.moves? [.step (.caller 0), .step .worker, .step (.caller 0)] = some e ∧
        e.removedIds = [] :=
      ⟨_, _, _, _, rfl, .inl ⟨_, rfl, rfl⟩, ⟨_, _, rfl, rfl, rfl⟩, rfl, rfl⟩
    have hbefore := Reachable.refl.of_moves _ hb
    have hlater := Reachable.refl.of_moves _ hn
    have hr := (hacc.reachable hbefore).trans hlater
    obtain ⟨hplace, -, hunwinding, -⟩ := each_task_in_one_place hs hr
    obtain ⟨hpending, -⟩ := hunwinding before (.caller 0) task next hbefore hd hacc hlater
    rw [hids] at hpending
    exact ⟨before, next, e, task, hbefore, hd, hacc, hlater, hids,
      hpending.resolve_right List.not_mem_nil, hplace task ⟨before, _, next, hbefore, hacc, hlater⟩⟩
  · obtain ⟨e, hm, hq, hu, hids⟩ : ∃ e, (initial {} (.kept {}) ⟨0⟩).moves?
        [.call 0 (.schedule { label := "now", due := .instant ⟨0⟩ }), .step (.caller 0),
          .step .worker, .step .worker, .step .worker, .step (.caller 0),
          .step (.caller 0)] = some e ∧
        e.Quiet ∧ ¬ e.HasUnwound ∧ e.startedIds .action = [⟨1⟩] := by
      refine ⟨_, rfl, ⟨?_, nofun⟩, ?_, rfl⟩
      · rintro (_ | n) <;> rfl
      · rintro (h | ⟨t, payload, h⟩)
        · cases h
        · exact nomatch h
    have hr := Reachable.refl.of_moves _ hm
    obtain ⟨-, -, -, hcounters⟩ := each_task_in_one_place hs hr
    exact ⟨e, hr, hq, hu, hids, (hcounters rfl hq hu).1⟩

end Executor

end Deferred
