import Deferred.Proofs.Executor.Ending
import Deferred.Proofs.Executor.Escape

/-!
# The fate of every task

A task that has been added is pending until the worker begins its action or a call removes it. A
removed task is in its thread's hand until its callback is begun, or it is let go because it has
none, or it is discarded, or a panic unwinds the call that has removed it.

* `Executor.HasAccepted`, `HasRefused`: how a call that makes a task has come out.
* `Fate`: what can have become of a task that has been added; `fate_of_accepted`: nothing else.
* `each_task_once`: which callables of a task are invoked, and how often.
-/

namespace Deferred

/-- Whether a thread holds a task that it has removed and not yet dealt with. -/
def Activity.Holds (a : Activity) (task : Task Script) : Prop :=
  ∃ batch ∈ a.batches, task ∈ batch.tasks.tasks

namespace Activity

variable {task : Task Script}

variable {stack : List Frame}

/-- A thread holds the tasks of the batch that it is settling, and those of the batches below. -/
theorem holds_settle {batch : Batch} :
    Holds ⟨.settle batch, stack⟩ task ↔ task ∈ batch.tasks.tasks ∨ Holds { stack } task := by
  simp [Holds, batches, Control.batches]

theorem holds_callback {id : TaskId} {batch : Batch} {rest : Script} :
    Holds { stack := .callback id batch rest :: stack } task ↔
      task ∈ batch.tasks.tasks ∨ Holds { stack } task := by
  simp [Holds, batches, Control.batches, Frame.batches]

theorem holds_goOn {frame : Frame} {rest : Script} :
    Holds { stack := frame.goOn rest :: stack } task ↔ Holds { stack := frame :: stack } task := by
  simp [Holds, batches]

/-- What a callable that has ended was doing is still to be gone on with. -/
theorem holds_ended {frame : Frame} {swallowed : Bool} :
    Holds ⟨.ended frame swallowed, stack⟩ task ↔ Holds { stack := frame :: stack } task :=
  Iff.rfl

/-- A thread that is about to do anything else holds what it holds below. -/
theorem holds_iff_of_batches {control : Control} (h : control.batches = []) :
    Holds ⟨control, stack⟩ task ↔ Holds { stack } task := by
  rw [Holds, Holds, batches, h]
  rfl

theorem not_holds_idle : ¬ idle.Holds task := nofun

/-- A task that a thread holds counts among those that it holds. -/
theorem Holds.held_pos {a : Activity} (h : a.Holds task) : 0 < a.held (· == task.id) := by
  obtain ⟨batch, hb, hm⟩ := h
  exact List.sum_pos_iff_exists_pos_nat.2 ⟨_, List.mem_map_of_mem hb, Queue.count_pos hm⟩

end Activity

namespace Executor

variable {e next : Executor} {t : ThreadId} {a b : Activity} {c : Change} {v w : WorkerState}
variable {task : Task Script}

/-! ## What a step does to one task -/

theorem Opens.pending {stack : List Frame} {request : Request} (h : Opens e t stack request c b)
    (hm : task ∈ e.guarded.pending.tasks) : task ∈ c.guarded.pending.tasks ∨ b.Holds task := by
  cases h with
  | cancelAll => exact .inr ⟨_, List.mem_cons_self .., hm⟩
  | _ => exact .inl hm

theorem Catches.pending {payload : Payload} {frame : Frame} {stack : List Frame}
    (h : Catches e payload frame stack c b) (hm : task ∈ e.guarded.pending.tasks) :
    task ∈ c.guarded.pending.tasks := by
  cases h <;> exact hm

/-- A step leaves a pending task pending, or removes it to settle or discard it. -/
theorem Local.pending (h : Local e t a c b) (hm : task ∈ e.guarded.pending.tasks) :
    task ∈ c.guarded.pending.tasks ∨ b.Holds task ∨
      e.config.shutdownPolicy = .discard ∧
        task.id ∈ (e.ledger.enterAll t c.events).discarded := by
  cases h with
  | opens _ ho | call _ ho =>
    rcases ho.pending hm with hm | hm
    · exact .inl hm
    · exact .inr (.inl hm)
  | raise _ hc => exact .inl (hc.pending hm :)
  | unwind hc => exact .inl (hc.pending hm)
  | accept ha =>
    obtain ⟨-, -, pending, hpush, rfl, -⟩ := Guarded.accept_ok ha
    exact .inl ((Queue.mem_push hpush).2 (.inr hm))
  | discard hp =>
    have hid : task.id ∈ e.guarded.pending.ids := Queue.mem_ids.2 ⟨task, hm, rfl⟩
    exact .inr (.inr ⟨hp, by simp [hid]⟩)
  | drain => exact .inr (.inl ⟨_, List.mem_cons_self .., hm⟩)
  | _ => exact .inl hm

theorem Opens.holds {stack : List Frame} {request : Request} (h : Opens e t stack request c b)
    (hm : Activity.Holds { stack } task) : b.Holds task := by
  cases h with
  | cancelAll => exact Activity.holds_settle.2 (.inr hm)
  | _ => exact (Activity.holds_iff_of_batches rfl).2 hm

theorem Catches.holds {payload : Payload} {frame : Frame} {stack : List Frame}
    (h : Catches e payload frame stack c b) (hm : Activity.Holds { stack := frame :: stack } task) :
    b.Holds task ∨ b.control.unwinds = true ∧ b.stack = stack ∧ frame.role = .callback := by
  cases h with
  | swallow => exact .inl (Activity.holds_ended.2 hm)
  | abort => exact .inl ((Activity.holds_iff_of_batches rfl).2 hm)
  | pass =>
    cases frame with
    | action => exact .inl ((Activity.holds_iff_of_batches rfl).2 hm)
    | callback => exact .inr ⟨rfl, rfl, rfl⟩

/-- A step leaves a task in the hand of its thread, or deals with it: its callback is begun, or it
has none, or a panic leaves the callback during which it was in hand. -/
theorem Local.holds (h : Local e t a c b) (hm : a.Holds task) :
    b.Holds task ∨ task.id ∈ c.events.flatMap (Event.startedIds .callback) ∨
      task.onCancel = none ∨
      ∃ frame, b.control.unwinds = true ∧ a.stack = frame :: b.stack ∧ frame.role = .callback := by
  cases h with
  | opens _ ho => exact .inl (ho.holds hm)
  | call _ ho => exact .inl (ho.holds (Activity.holds_goOn.2 hm))
  | @raise frame _ _ _ _ _ hc | @unwind frame _ _ _ _ hc =>
    rcases hc.holds hm with hm | ⟨hb, rfl, hrole⟩
    · exact .inl hm
    · exact .inr (.inr (.inr ⟨frame, hb, rfl, hrole⟩))
  | finish => exact .inl (Activity.holds_ended.2 hm)
  | leave => cases Activity.not_holds_idle hm
  | letGo hp hn =>
    rcases Activity.holds_settle.1 hm with hm | hm
    · rcases (Queue.mem_pop hp).1 hm with rfl | hm
      · exact .inr (.inr (.inl hn))
      · exact .inl (Activity.holds_settle.2 (.inl hm))
    · exact .inl (Activity.holds_settle.2 (.inr hm))
  | callBack hp hs =>
    rcases Activity.holds_settle.1 hm with hm | hm
    · rcases (Queue.mem_pop hp).1 hm with rfl | hm
      · exact .inr (.inl (List.mem_singleton_self _))
      · exact .inl (Activity.holds_callback.2 (.inl hm))
    · exact .inl (Activity.holds_callback.2 (.inr hm))
  | canceled hp | settled hp =>
    rcases Activity.holds_settle.1 hm with hm | hm
    · rw [Queue.tasks_eq_nil_of_pop hp] at hm
      cases hm
    · exact .inl hm
  | calledBack =>
    have hbelow := Activity.holds_callback.1 (Activity.holds_ended.1 hm)
    exact .inl (Activity.holds_settle.2 hbelow)
  | @accept _ _ _ first =>
    have hbelow := (Activity.holds_iff_of_batches rfl).1 hm
    cases first <;> exact .inl ((Activity.holds_iff_of_batches rfl).2 hbelow)
  | drain =>
    exact .inl (Activity.holds_settle.2 (.inr ((Activity.holds_iff_of_batches rfl).1 hm)))
  | reject | notify | record | abort | flag | rouse | joinSelf | joinStopped | joinDied | discard =>
    exact .inl ((Activity.holds_iff_of_batches rfl).2 ((Activity.holds_iff_of_batches rfl).1 hm))

/-! ## Fates -/

/-- What can have become of a task that has been added. -/
inductive Fate (e : Executor) (task : Task Script) : Prop
  /-- It is waiting. -/
  | pending (h : task ∈ e.guarded.pending.tasks)
  /-- One of its callables has been begun. -/
  | begun (role : Role) (h : task.id ∈ e.startedIds role)
  /-- A thread has removed it and not yet dealt with it. -/
  | held {t : ThreadId} {a : Activity} (ha : e.activity? t = some a) (h : a.Holds task)
  /-- It has been removed and has no callback. -/
  | letGo (hr : task.id ∈ e.removedIds) (hn : task.onCancel = none)
  /-- It was left at the end of an executor that discards what is left. -/
  | discarded (hp : e.config.shutdownPolicy = .discard) (hd : task.id ∈ e.ledger.discarded)
  /-- It has been removed by a call that a panic has unwound. -/
  | escaped (hr : task.id ∈ e.removedIds) (h : e.CallbackEscaped)

/-- A task in the hand of a thread has been removed. -/
theorem Balanced.mem_removedIds_of_holds (h : e.Balanced) (ha : e.activity? t = some a)
    (hm : a.Holds task) : task.id ∈ e.removedIds := by
  have htotal := le_total (f := (·.held (· == task.id))) rfl ha
  have hbatches := h.batches (· == task.id)
  have hpos := hm.held_pos
  obtain ⟨id, hid, heq⟩ := List.countP_pos_iff.1 (by omega : 0 < e.removedIds.countP (· == task.id))
  exact eq_of_beq heq ▸ hid

theorem mem_discarded_of_happens {id : TaskId} (h : Happens e next)
    (hd : id ∈ e.ledger.discarded) : id ∈ next.ledger.discarded := by
  cases h with
  | goes =>
    rw [ledger_after]
    exact Ledger.mem_discarded_enterAll _ _ _ hd
  | turns =>
    rw [ledger_afterTurn]
    exact Ledger.mem_discarded_enterAll _ _ _ hd
  | ticks => exact hd

theorem Fate.goes (h : e.Fate task) (hbal : e.Balanced) (hh : e.Handled)
    (ha : e.activity? t = some a) (hl : Local e t a c b) : (e.after t c b).Fate task := by
  have hgoes : Happens e (e.after t c b) := .goes ha hl
  cases h with
  | pending hm =>
    rcases hl.pending hm with hm | hm | ⟨hp, hd⟩
    · exact .pending (by rwa [guarded_after])
    · exact .held activity?_after_self hm
    · exact .discarded (by rwa [config_after]) (by rwa [ledger_after])
  | begun role hm => exact .begun role (mem_gather_of_happens hgoes hm)
  | @held u a' hu hm =>
    have hr := mem_gather_of_happens hgoes (hbal.mem_removedIds_of_holds hu hm)
    by_cases hut : u = t
    · subst hut
      obtain rfl : a = a' := Option.some.inj (ha.symm.trans hu)
      rcases hl.holds hm with hm | hstarted | hn | ⟨frame, hb, hst, hrole⟩
      · exact .held activity?_after_self hm
      · refine .begun .callback ?_
        rw [startedIds, gather_after]
        exact List.mem_append_left _ hstarted
      · exact .letGo hr hn
      · exact .escaped hr (hh.leaves_callback hbal ha hl hb hst hrole)
    · exact .held ((activity?_after_ne hut).trans hu) hm
  | letGo hr hn => exact .letGo (mem_gather_of_happens hgoes hr) hn
  | discarded hp hd => exact .discarded (by rwa [config_after]) (mem_discarded_of_happens hgoes hd)
  | escaped hr he => exact .escaped (mem_gather_of_happens hgoes hr) (he.happens hgoes)

theorem Fate.turns (h : e.Fate task) (hv : e.worker = v) (hw : WorkerStep e v c w) :
    (e.afterTurn c w).Fate task := by
  have hturns : Happens e (e.afterTurn c w) := .turns hv hw
  cases h with
  | pending hm =>
    cases hw with
    | run ht hp =>
      rcases (Queue.mem_pop (Queue.pop_of_popDue hp)).1 hm with rfl | hm
      · refine .begun .action ?_
        rw [startedIds, gather_afterTurn]
        exact List.mem_append_left _ (List.mem_singleton_self _)
      · exact .pending hm
    | _ => exact .pending hm
  | begun role hm => exact .begun role (mem_gather_of_happens hturns hm)
  | @held u a' hu hm =>
    cases u with
    | worker =>
      -- the worker holds no task when it begins an action or ends one
      rw [activity?_worker, hv] at hu
      cases hw <;> cases hu <;> cases Activity.not_holds_idle hm
    | caller n => exact .held (t := .caller n) hu hm
  | letGo hr hn => exact .letGo (mem_gather_of_happens hturns hr) hn
  | discarded hp hd => exact .discarded hp (mem_discarded_of_happens hturns hd)
  | escaped hr he => exact .escaped (mem_gather_of_happens hturns hr) (he.happens hturns)

theorem Fate.happens (h : e.Fate task) (hbal : e.Balanced) (hh : e.Handled)
    (hn : Happens e next) : next.Fate task := by
  cases hn with
  | goes ha hl => exact h.goes hbal hh ha hl
  | turns hv hw => exact h.turns hv hw
  | ticks =>
    cases h with
    | pending hm => exact .pending hm
    | begun role hm => exact .begun role hm
    | @held u _ hu hm => exact .held (t := u) (by cases u <;> exact hu) hm
    | letGo hr hn => exact .letGo hr hn
    | discarded hp hd => exact .discarded hp hd
    | escaped hr he => exact .escaped hr he

/-! ## Calls that make a task -/

/-- The thread that has made a task adds it to the queue. -/
def Accepts (e : Executor) (t : ThreadId) (task : Task Script) (next : Executor) : Prop :=
  ∃ stack accepted, e.activity? t = some ⟨.enqueue task, stack⟩ ∧
    e.guarded.accept task = .ok accepted ∧ e.step? t = some next

/-- The thread that has made a task is refused. -/
def Refuses (e : Executor) (t : ThreadId) (task : Task Script) (next : Executor) : Prop :=
  ∃ stack error, e.activity? t = some ⟨.enqueue task, stack⟩ ∧
    e.guarded.accept task = .error error ∧ e.step? t = some next

theorem Accepts.reachable {start : Executor} (h : e.Accepts t task next)
    (hr : start.Reachable e) : start.Reachable next := by
  obtain ⟨_, _, -, -, hs⟩ := h
  exact hr.move (.step t) hs

theorem Refuses.reachable {start : Executor} (h : e.Refuses t task next)
    (hr : start.Reachable e) : start.Reachable next := by
  obtain ⟨_, _, -, -, hs⟩ := h
  exact hr.move (.step t) hs

/-- A task has been added in a run. -/
def HasAccepted (start : Executor) (task : Task Script) (e : Executor) : Prop :=
  ∃ before t next, start.Reachable before ∧ before.Accepts t task next ∧ next.Reachable e

/-- A task has been refused in a run. -/
def HasRefused (start : Executor) (task : Task Script) (e : Executor) : Prop :=
  ∃ before t next, start.Reachable before ∧ before.Refuses t task next ∧ next.Reachable e

theorem accepts_after {stack : List Frame} {guarded : Guarded Script} {first : Bool}
    (hrun : e.aborted = false) (ha : e.activity? t = some ⟨.enqueue task, stack⟩)
    (hacc : e.guarded.accept task = .ok (guarded, first)) :
    e.Accepts t task (e.after t { e.unchanged with guarded, events := [.accepted task.id] }
      ⟨if first then .notify task else .record task, stack⟩) := by
  refine ⟨stack, _, ha, hacc, ?_⟩
  rw [step?_eq_advance hrun ha, advance, hacc]
  rfl

theorem Accepts.eq_after (h : e.Accepts t task next) :
    ∃ stack guarded first, e.activity? t = some ⟨.enqueue task, stack⟩ ∧
      e.guarded.accept task = .ok (guarded, first) ∧
      next = e.after t { e.unchanged with guarded, events := [.accepted task.id] }
        ⟨if first then .notify task else .record task, stack⟩ := by
  obtain ⟨stack, ⟨guarded, first⟩, ha, hacc, hs⟩ := h
  obtain ⟨_, _, -, -, hs'⟩ := accepts_after (not_aborted_of_step hs) ha hacc
  exact ⟨stack, guarded, first, ha, hacc, Option.some.inj (hs.symm.trans hs')⟩

theorem Refuses.eq_after (h : e.Refuses t task next) :
    ∃ stack c, e.activity? t = some ⟨.enqueue task, stack⟩ ∧ next = e.after t c { stack } ∧
      c.nextId = e.nextId ∧ ∀ p, c.count Event.acceptedIds p = 0 := by
  obtain ⟨stack, error, ha, hacc, hs⟩ := h
  have hs := advance_of_step ha hs
  rw [advance, hacc] at hs
  exact ⟨stack, _, ha, (Option.some.inj hs).symm.trans (reply_eq ..), rfl,
    fun p => by simp [Change.count]⟩

/-- The step by which a task is added. -/
theorem Accepts.happens (h : e.Accepts t task next) :
    Happens e next ∧ task ∈ next.guarded.pending.tasks ∧ task.id ∈ next.acceptedIds := by
  obtain ⟨stack, guarded, first, ha, hacc, rfl⟩ := h.eq_after
  obtain ⟨-, -, pending, hpush, rfl, -⟩ := Guarded.accept_ok hacc
  refine ⟨.goes ha (.accept hacc), ?_, ?_⟩
  · rw [guarded_after]
    exact (Queue.mem_push hpush).2 (.inl rfl)
  · rw [acceptedIds, gather_after]
    exact List.mem_append_left _ (List.mem_singleton_self _)

/-- Where an event tells of a task that is added, a thread has just added it. -/
theorem Local.accepts {id : TaskId} (h : Local e t a c b) (hrun : e.aborted = false)
    (ha : e.activity? t = some a) (hm : id ∈ c.events.flatMap Event.acceptedIds) :
    ∃ task, task.id = id ∧ e.Accepts t task (e.after t c b) := by
  cases h with
  | opens _ ho | call _ ho => cases ho <;> simp [unchanged] at hm
  | raise _ hc | unwind hc => cases hc <;> simp [unchanged] at hm
  | accept hacc => exact ⟨_, by simpa [eq_comm] using hm, accepts_after hrun ha hacc⟩
  | _ => simp [unchanged] at hm

theorem WorkerStep.not_accepts {id : TaskId} (h : WorkerStep e v c w) :
    id ∉ c.events.flatMap Event.acceptedIds := by
  cases h <;> simp [unchanged]

section Runs

variable {config : Config} {telemetry : Telemetry} {clock : Instant} {start : Executor}

/-- Every task that has been added was added by a call. -/
theorem exists_hasAccepted (hs : Executor.start config telemetry clock = .ok start)
    (hr : start.Reachable e) {id : TaskId} (hid : id ∈ e.acceptedIds) :
    ∃ task, start.HasAccepted task e ∧ task.id = id := by
  induction hr with
  | refl =>
    obtain rfl := eq_initial_of_start hs
    cases hid
  | @move before after m hb hm ih =>
    have earlier : id ∈ before.acceptedIds → ∃ task, start.HasAccepted task after ∧ task.id = id := by
      intro hid
      obtain ⟨task, ⟨d, t, n, hd, hacc, hn⟩, rfl⟩ := ih hid
      exact ⟨task, ⟨d, t, n, hd, hacc, hn.move m hm⟩, rfl⟩
    rcases Bool.eq_false_or_eq_true before.aborted with hrun | hrun
    · rw [eq_of_aborted hrun hm] at hid
      exact earlier hid
    cases happens_of_move (orderly_of_start hs hb) hm with
    | @goes t a b c ha hl =>
      rw [acceptedIds, gather_after] at hid
      rcases List.mem_append.1 hid with hid | hid
      · obtain ⟨task, rfl, hacc⟩ := hl.accepts hrun ha hid
        exact ⟨task, ⟨before, t, _, hb, hacc, .refl⟩, rfl⟩
      · exact earlier hid
    | turns hv hw =>
      rw [acceptedIds, gather_afterTurn] at hid
      exact earlier ((List.mem_append.1 hid).resolve_left hw.not_accepts)
    | ticks => exact earlier hid

/-- The fate of a task that has been added is one of those that there are. -/
theorem fate_of_accepted (hs : Executor.start config telemetry clock = .ok start)
    (h : start.HasAccepted task e) : e.Fate task ∧ task.id ∈ e.acceptedIds := by
  obtain ⟨before, t, next, hb, hacc, hn⟩ := h
  have hstep := hacc.reachable hb
  obtain ⟨-, hpending, hid⟩ := hacc.happens
  refine hn.happens_invariant (P := fun e => e.Fate task ∧ task.id ∈ e.acceptedIds)
    (orderly_of_start hs hstep) ⟨.pending hpending, hid⟩ fun d n hd hi hh => ?_
  have hr := hstep.trans hd
  exact ⟨hi.1.happens (balanced_of_start hs hr) (handled_of_start hs hr) hh,
    mem_gather_of_happens hh hi.2⟩

/-- No task has a number, and none will. -/
def IsVoid (e : Executor) (id : TaskId) : Prop :=
  e.numbered (· == id) = 0 ∧ id.number < e.nextId

theorem IsVoid.happens {id : TaskId} (h : e.IsVoid id) (hh : Happens e next) : next.IsVoid id := by
  obtain ⟨made, hmade, hle⟩ := numbered_of_happens hh
  obtain ⟨hz, hlt⟩ := h
  have hp := hle (· == id)
  rcases hmade with ⟨rfl, hn⟩ | ⟨rfl, hn⟩
  · rw [List.countP_nil] at hp
    exact ⟨by omega, by omega⟩
  · have hne : (⟨e.nextId⟩ : TaskId) ≠ id := by
      rintro rfl
      exact Nat.lt_irrefl _ hlt
    simp only [List.countP_singleton, beq_iff_eq, hne, if_false] at hp
    exact ⟨by omega, by omega⟩

/-- The number of a task that has been refused is void. -/
theorem Refuses.isVoid (hbal : e.Balanced) (h : e.Refuses t task next) : next.IsVoid task.id := by
  obtain ⟨stack, c, ha, rfl, hid, hcount⟩ := h.eq_after
  have hone : Activity.offered (· == task.id) ⟨.enqueue task, stack⟩ = 1 := by
    simp [Activity.offered, Control.offered]
  have hnone : Activity.offered (· == task.id) { stack } = 0 := rfl
  have hoffered := le_total (f := (·.offered (· == task.id))) rfl ha
  have hafter := numbered_after (c := c) (b := { stack }) ha (· == task.id)
  have hzero := hcount (· == task.id)
  obtain ⟨hmax, hmin⟩ := hbal.numbers task.id
  refine ⟨by omega, ?_⟩
  rw [nextId_after, hid]
  by_contra hn
  have := hmin (Nat.le_of_not_lt hn)
  rw [numbered] at this
  omega

theorem not_accepted_of_refused (hs : Executor.start config telemetry clock = .ok start)
    (h : start.HasRefused task e) : task.id ∉ e.acceptedIds := by
  obtain ⟨before, t, next, hb, href, hn⟩ := h
  have hstep := href.reachable hb
  have hvoid : e.IsVoid task.id :=
    hn.happens_invariant (P := fun e => e.IsVoid task.id) (orderly_of_start hs hstep)
      (href.isVoid (balanced_of_start hs hb)) fun _ _ _ hi hh => hi.happens hh
  intro hid
  have hpos : 0 < e.acceptedIds.countP (· == task.id) := List.count_pos_iff.2 hid
  have := hvoid.1
  rw [numbered] at this
  omega

/-! ## What is invoked -/

/-- How often a callable of a task has been begun. -/
def invocations (e : Executor) (role : Role) (id : TaskId) : Nat := (e.startedIds role).count id

/-- A task that has a callback has had one of its callables invoked; one that has none has been run
or removed. -/
def IsSettled (e : Executor) (task : Task Script) : Prop :=
  match task.onCancel with
  | some _ => e.invocations .action task.id + e.invocations .callback task.id = 1
  | none => e.invocations .action task.id = 1 ∨ task.id ∈ e.removedIds

/-- At the end every task has been settled, unless it was discarded. -/
theorem Over.isSettled (h : e.Over) (hbal : e.Balanced) (hend : e.Ending) (hfate : e.Fate task)
    (hid : task.id ∈ e.acceptedIds) (hesc : ¬ e.CallbackEscaped)
    (hd : ¬ (e.config.shutdownPolicy = .discard ∧ task.id ∈ e.ledger.discarded)) :
    e.IsSettled task := by
  have hone : e.acceptedIds.countP (· == task.id) = 1 :=
    Nat.le_antisymm (hbal.countP_acceptedIds_le task.id) (List.count_pos_iff.2 hid)
  have hempty := h.tasks_eq_nil hend
  unfold IsSettled
  split
  next hc =>
    have haccounts := hbal.accounts_le (· == task.id)
    cases hfate with
    | pending hm =>
      rw [hempty] at hm
      cases hm
    | begun role hm =>
      have hpos : 0 < (e.startedIds role).countP (· == task.id) := List.count_pos_iff.2 hm
      simp only [invocations, List.count]
      cases role <;> omega
    | held ha hm =>
      obtain rfl := h.quiet.eq_idle ha
      cases Activity.not_holds_idle hm
    | letGo _ hn =>
      rw [hn] at hc
      cases hc
    | discarded hp hdis => exact absurd ⟨hp, hdis⟩ hd
    | escaped _ he => exact absurd he hesc
  next hc =>
    have hqueue := hbal.queue (· == task.id)
    have hpending : e.guarded.pending.count (· == task.id) = 0 := by
      rw [Queue.count, hempty, List.countP_nil]
    by_cases hr : task.id ∈ e.removedIds
    · exact .inr hr
    · have hzero : e.removedIds.countP (· == task.id) = 0 := List.count_eq_zero.2 hr
      refine .inl ?_
      simp only [invocations, List.count]
      omega

/-- **The fate of every task.** Only tasks that were added are ever invoked, and none that was
refused. A task that was added has its action invoked or its callback, together at most once. Once
the executor has ended and no panic has escaped from a callback, it has been settled, except that a
task that was discarded has had neither invoked. -/
theorem each_task_once (hs : Executor.start config telemetry clock = .ok start)
    (hr : start.Reachable e) :
    (∀ role, ∀ id ∈ e.startedIds role, ∃ task, start.HasAccepted task e ∧ task.id = id) ∧
    (∀ task role, start.HasRefused task e → e.invocations role task.id = 0) ∧
    ∀ task, start.HasAccepted task e →
      e.invocations .action task.id + e.invocations .callback task.id ≤ 1 ∧
      (e.Over → ¬ e.CallbackEscaped →
        (config.shutdownPolicy = .cancelPending → e.IsSettled task) ∧
        (config.shutdownPolicy = .discard →
          if task.id ∈ e.ledger.discarded then
            e.invocations .action task.id = 0 ∧ e.invocations .callback task.id = 0
          else e.IsSettled task)) := by
  have hbal := balanced_of_start hs hr
  have hconfig := config_of_start hs hr
  refine ⟨fun role id hid => ?_, fun task role href => ?_, fun task hacc => ?_⟩
  · exact exists_hasAccepted hs hr (hbal.mem_acceptedIds hid)
  · refine List.count_eq_zero.2 fun hm => ?_
    exact not_accepted_of_refused hs href (hbal.mem_acceptedIds hm)
  · obtain ⟨hfate, hid⟩ := fate_of_accepted hs hacc
    have hle := hbal.countP_acceptedIds_le task.id
    have haccounts := hbal.accounts_le (· == task.id)
    have hend := ending_of_start hs hr
    refine ⟨by simp only [invocations, List.count]; omega, fun hover hesc => ⟨fun hp => ?_,
      fun hp => ?_⟩⟩
    · refine hover.isSettled hbal hend hfate hid hesc fun hd => ?_
      rw [hconfig, hp] at hd
      cases hd.1
    · split
      next hd =>
        have hpos : 0 < e.ledger.discarded.countP (· == task.id) := List.count_pos_iff.2 hd
        simp only [invocations, List.count]
        omega
      next hd => exact hover.isSettled hbal hend hfate hid hesc fun h => hd h.2

end Runs

/-- A task that waits for a far deadline is called back by the shutdown, of an executor in which
panics abort. -/
theorem each_task_once_shutdown :
    ∃ start e task,
      Executor.start { panicStrategy := .abort, shutdownPolicy := .cancelPending } .stub ⟨0⟩ =
        .ok start ∧
      start.HasAccepted task e ∧ e.Over ∧ ¬ e.CallbackEscaped ∧ e.startedIds .callback = [task.id] ∧
      e.invocations .action task.id + e.invocations .callback task.id ≤ 1 ∧ e.IsSettled task := by
  obtain ⟨before, next, e, task, hb, hacc, hn, hover, hesc, hids⟩ : ∃ before next e task,
      (initial { panicStrategy := .abort, shutdownPolicy := .cancelPending } .stub ⟨0⟩).moves?
        [.call 0 (.schedule
          { label := "late", due := .instant ⟨1000⟩, onCancel := some .done })] = some before ∧
      before.Accepts (.caller 0) task next ∧
      next.moves? ([.step (.caller 0), .step (.caller 0), .call 0 .shutdown, .step (.caller 0),
        .step (.caller 0), .step .worker] ++ List.replicate 6 (.step (.caller 0))) = some e ∧
      e.Over ∧ ¬ e.CallbackEscaped ∧ e.startedIds .callback = [task.id] := by
    refine ⟨_, _, _, _, rfl, ⟨_, _, rfl, rfl, rfl⟩, rfl, ⟨rfl, rfl, ?_, nofun⟩, ?_, rfl⟩
    · rintro (_ | n) <;> rfl
    · rintro ⟨hs, -⟩
      cases hs
  have hbefore := Reachable.refl.of_moves _ hb
  have hlater := Reachable.refl.of_moves _ hn
  have hhas : HasAccepted _ task e := ⟨before, _, next, hbefore, hacc, hlater⟩
  have hr := (hacc.reachable hbefore).trans hlater
  have hs : Executor.start { panicStrategy := .abort, shutdownPolicy := .cancelPending } .stub
      ⟨0⟩ = .ok _ := rfl
  obtain ⟨-, -, htask⟩ := each_task_once hs hr
  obtain ⟨honce, hsettled⟩ := htask task hhas
  exact ⟨_, e, task, rfl, hhas, hover, hesc, hids, honce, (hsettled hover hesc).1 rfl⟩

end Executor

end Deferred
