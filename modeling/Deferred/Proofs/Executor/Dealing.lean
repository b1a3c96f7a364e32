import Deferred.Proofs.Executor.Order
import Deferred.Proofs.Executor.Origins
import Deferred.Proofs.Queue.Roster
import Mathlib.Algebra.Order.BigOperators.Group.List
import Mathlib.Algebra.Order.Ring.Nat

/-!
# Dealing with removed tasks

A call that has removed tasks deals with them one after the other, in the order in which they would
have been run, and runs the callbacks of those that have one. Whatever the callbacks do, and
whatever other threads do meanwhile, nobody else calls these tasks back.

* `Activity.Invokes`, `Local.invokes_on`: a thread runs a callback for its call; the callback goes
  on, or it is counted, or a panic leaves it.
* `Local.panics_on`: a panic that goes on unwinding leaves the call with the callback.
* `calledBack_of_happens`: removed tasks are called back only as far as they leave the hands of the
  threads.
* `Deals`: how much of its batch a call has dealt with. `Deals.stays`, `Deals.letGo`,
  `Deals.callBack`: it stays so while the batch is in hand, and goes on by one task.
-/

namespace Deferred

/-- The numbers of those tasks that have a cancellation callback. -/
def callbackIds (tasks : List (Task Script)) : List TaskId :=
  (tasks.filter Task.isCancelable).map Task.id

theorem callbackIds_append (tasks others : List (Task Script)) :
    callbackIds (tasks ++ others) = callbackIds tasks ++ callbackIds others := by
  simp [callbackIds]

theorem callbackIds_singleton (task : Task Script) :
    callbackIds [task] = if task.isCancelable then [task.id] else [] := by
  cases h : task.isCancelable <;> simp [callbackIds, h]

/-- Whether a number is that of a task in the queue. -/
def Queue.has {α : Type} (q : Queue α) (id : TaskId) : Bool := decide (id ∈ q.ids)

/-- In a queue of tasks of one kind, all count. -/
theorem Queue.count_eq_size {α : Type} {q : Queue α} {p : TaskId → Bool}
    (h : ∀ task ∈ q.tasks, p task.id = true) : q.count p = q.size := by
  rw [← length_tasks]
  exact List.countP_eq_length.2 h

theorem Queue.has_id {α : Type} {q : Queue α} {task : Task α} (h : task ∈ q.tasks) :
    q.has task.id = true :=
  decide_eq_true (mem_ids.2 ⟨task, h, rfl⟩)

/-! ## Tasks of one kind -/

namespace Ledger

variable (l : Ledger) (t : ThreadId) (p : TaskId → Bool)

theorem countP_discarded_enter (event : Event) :
    l.discarded.countP p ≤ (l.enter ⟨t, event⟩).discarded.countP p := by
  cases event with
  | logged line =>
    cases line with
    | stoppedDiscarding =>
      simp only [enter, discard, List.countP_append]
      omega
    | _ => exact Nat.le_refl _
  | _ => exact Nat.le_refl _

theorem countP_discarded_enterAll (events : List Event) :
    l.discarded.countP p ≤ (l.enterAll t events).discarded.countP p := by
  induction events with
  | nil => exact Nat.le_refl _
  | cons event earlier ih => exact Nat.le_trans ih (countP_discarded_enter _ t p event)

end Ledger

namespace Activity

/-- A thread runs the callback of a task for a call that it has made from above `stack`, or has yet
to count it. -/
def Invokes (id : TaskId) (batch : Batch) (stack : List Frame) (a : Activity) : Prop :=
  (∃ script swallowed, a = ⟨.ended (.callback id batch script) swallowed, stack⟩) ∨
    ∃ above script, a.stack = above ++ .callback id batch script :: stack

/-- A panic has come to that callback, or the callback raises it. -/
def PanicsIn (payload : Payload) (id : TaskId) (batch : Batch) (stack : List Frame)
    (a : Activity) : Prop :=
  ∃ script, a = ⟨.unwind payload, .callback id batch script :: stack⟩ ∨
    a = { stack := .callback id batch script :: stack } ∧ script.head = .raise payload

variable {id : TaskId} {batch : Batch} {stack below : List Frame} {frame : Frame} {a b : Activity}

theorem Invokes.settles (h : a.Invokes id batch stack) : a.Settles batch stack := by
  rcases h with ⟨script, swallowed, rfl⟩ | ⟨above, script, heq⟩
  · exact .inl ⟨List.mem_singleton_self _, rfl⟩
  · exact .inr ⟨above, id, script, heq⟩

theorem PanicsIn.invokes {payload : Payload} (h : a.PanicsIn payload id batch stack) :
    a.Invokes id batch stack := by
  obtain ⟨script, rfl | ⟨rfl, -⟩⟩ := h <;> exact .inr ⟨[], script, rfl⟩

/-- The callback in which a panic arises is the one that the call runs. -/
theorem Invokes.eq_of_panicsIn {payload : Payload} {other : TaskId} {rest : Batch}
    (h : a.Invokes other rest stack) (hp : a.PanicsIn payload id batch stack) :
    other = id ∧ rest = batch := by
  obtain ⟨control, script, rfl⟩ : ∃ control script,
      a = ⟨control, .callback id batch script :: stack⟩ := by
    obtain ⟨script, rfl | ⟨rfl, -⟩⟩ := hp <;> exact ⟨_, script, rfl⟩
  rcases h with ⟨script', swallowed, heq⟩ | ⟨above, script', heq⟩
  · cases heq
  · cases above with
    | nil =>
      obtain ⟨rfl, rfl, -⟩ := Frame.callback.inj (List.head_eq_of_cons_eq heq)
      exact ⟨rfl, rfl⟩
    | cons frame above =>
      have hlength := congrArg List.length heq
      simp only [List.length_append, List.length_cons] at hlength
      omega

/-- Callables that have been begun above a callback do not end it. -/
theorem Invokes.of_stack (h : a.Invokes id batch stack) (hc : a.control.frames = [])
    (hb : b.stack = a.stack) : b.Invokes id batch stack := by
  rcases h with ⟨script, swallowed, rfl⟩ | h
  · cases hc
  · exact .inr (hb ▸ h)

theorem Invokes.top (h : Invokes id batch stack { stack := frame :: below }) :
    (∃ script, frame = .callback id batch script ∧ below = stack) ∨
      ∃ above script, below = above ++ .callback id batch script :: stack := by
  rcases h with ⟨script, swallowed, heq⟩ | ⟨above, script, heq⟩
  · cases heq
  · cases above with
    | nil =>
      obtain ⟨rfl, rfl⟩ := List.cons.inj heq
      exact .inl ⟨script, rfl, rfl⟩
    | cons x above => exact .inr ⟨above, script, (List.cons.inj heq).2⟩

theorem Invokes.ended (h : Invokes id batch stack { stack := frame :: below }) (swallowed : Bool) :
    Invokes id batch stack ⟨.ended frame swallowed, below⟩ := by
  rcases h.top with ⟨script, rfl, rfl⟩ | h
  · exact .inl ⟨script, swallowed, rfl⟩
  · exact .inr h

theorem Invokes.goOn (h : Invokes id batch stack { stack := frame :: below }) (rest : Script)
    (control : Control) : Invokes id batch stack ⟨control, frame.goOn rest :: below⟩ := by
  rcases h.top with ⟨script, rfl, rfl⟩ | ⟨above, script, rfl⟩
  · exact .inr ⟨[], rest, rfl⟩
  · exact .inr ⟨frame.goOn rest :: above, script, rfl⟩

end Activity

namespace Executor

variable {e next : Executor} {t : ThreadId} {a b : Activity} {c : Change} {v w : WorkerState}
variable {p : TaskId → Bool}

/-- The tasks of a kind whose callbacks have been begun, in the order in which they were. -/
def calledBack (e : Executor) (p : TaskId → Bool) : List TaskId :=
  ((e.startedIds .callback).filter p).reverse

/-- All tasks of a kind have been removed from the queue. -/
def AreRemoved (e : Executor) (p : TaskId → Bool) : Prop := ∀ id, p id = true → id ∈ e.removedIds

theorem AreRemoved.happens (h : e.AreRemoved p) (hh : Happens e next) : next.AreRemoved p :=
  fun id hid => mem_gather_of_happens hh (h id hid)

/-- A task is removed once. -/
theorem AreRemoved.count_eq_zero {new : List TaskId} (h : e.AreRemoved p) (hb : next.Balanced)
    (hnext : next.removedIds = new ++ e.removedIds) : new.countP p = 0 := by
  refine List.countP_eq_zero.2 fun id hid hp => ?_
  have hold : 0 < e.removedIds.countP (· == id) := List.count_pos_iff.2 (h id hp)
  have hnew : 0 < new.countP (· == id) := List.count_pos_iff.2 hid
  have hqueue := hb.queue (· == id)
  have hone := hb.countP_acceptedIds_le id
  rw [hnext, List.countP_append] at hqueue
  omega

/-- A step calls back tasks of a removed kind only as far as their number in hand goes down. -/
theorem calledBack_of_happens (hi : e.AreRemoved p) (hb : next.Balanced) (hh : Happens e next) :
    ∃ new, next.calledBack p = e.calledBack p ++ new ∧
      next.total (·.held p) + new.length ≤ e.total (·.held p) ∧
      next.total (·.running .callback p) ≤ e.total (·.running .callback p) + new.length := by
  have split : ∀ new : List TaskId, next.startedIds .callback = new ++ e.startedIds .callback →
      next.calledBack p = e.calledBack p ++ (new.filter p).reverse := by
    intro new hnew
    rw [calledBack, hnew, List.filter_append, List.reverse_append]
    rfl
  have length : ∀ new : List TaskId, (new.filter p).reverse.length = new.countP p := fun new => by
    rw [List.length_reverse, List.countP_eq_length_filter]
  cases hh with
  | @goes t a b c ha hl =>
    refine ⟨_, split _ (gather_after ..), ?_⟩
    rw [length]
    have hremoved : c.count Event.removedIds p = 0 := hi.count_eq_zero hb (gather_after ..)
    have hsettles := hl.settles p
    have hdiscarded := e.ledger.countP_discarded_enterAll t p c.events
    have hheld := total_after_add (f := (·.held p)) (c := c) (b := b) rfl ha
    have hruns := hl.running_le .callback p
    have hrunning := total_after_add (f := (·.running .callback p)) (c := c) (b := b) rfl ha
    simp only [Change.count] at hsettles hruns hremoved
    omega
  | @turns v w c hv hw =>
    refine ⟨_, split _ (gather_afterTurn ..), ?_⟩
    rw [length]
    have hsettles := hw.settles p
    have hdiscarded := e.ledger.countP_discarded_enterAll .worker p c.events
    have hheld := total_afterTurn (f := (·.held p)) (c := c) (w := w) hv
    have hruns := hw.running_le .callback p
    have hrunning := total_afterTurn (f := (·.running .callback p)) (c := c) (w := w) hv
    simp only [Change.count] at hsettles hruns
    omega
  | ticks => exact ⟨[], (List.append_nil _).symm, Nat.le_refl _, Nat.le_refl _⟩

/-! ## Steps within a callback -/

variable {id : TaskId} {batch : Batch} {stack : List Frame}

theorem Catches.invokes_on {payload : Payload} {frame : Frame} {below : List Frame}
    (h : Catches e payload frame below c b)
    (hi : Activity.Invokes id batch stack { stack := frame :: below }) :
    b.Invokes id batch stack ∨
      (∃ script, frame = .callback id batch script ∧ below = stack) ∧
        e.handler.strategy = .propagate := by
  cases h with
  | swallow => exact .inl (hi.ended true)
  | abort => exact .inl (hi.of_stack rfl rfl)
  | pass hs =>
    rcases hi.top with h | h
    · exact .inr ⟨h, hs⟩
    · exact .inl (.inr h)

/-- A callback goes on, or it has ended and is counted, or a panic leaves it. -/
theorem Local.invokes_on (h : Local e t a c b) (hi : a.Invokes id batch stack) :
    b.Invokes id batch stack ∨
      ((∃ script swallowed, a = ⟨.ended (.callback id batch script) swallowed, stack⟩) ∧
        b = ⟨.settle batch.goOn, stack⟩) ∨
      ∃ payload, a.PanicsIn payload id batch stack ∧ e.handler.strategy = .propagate := by
  have deep : ∀ {control below}, Activity.Invokes id batch stack ⟨control, below⟩ →
      control.frames = [] → ∃ above script, below = above ++ .callback id batch script :: stack := by
    rintro control below (⟨script, swallowed, heq⟩ | h) hc
    · cases heq
      cases hc
    · exact h
  cases h with
  | opens | leave =>
    obtain ⟨above, script, heq⟩ := deep hi rfl
    exact absurd heq.symm (List.append_ne_nil_of_right_ne_nil _ (List.cons_ne_nil _ _))
  | finish => exact .inl (hi.ended false)
  | @call _ _ _ rest _ _ _ ho =>
    have hb := hi.goOn rest b.control
    rw [← ho.stack_eq] at hb
    exact .inl hb
  | @raise _ _ payload _ _ hh hc =>
    rcases hc.invokes_on hi with hb | ⟨⟨script, rfl, rfl⟩, hs⟩
    · exact .inl hb
    · exact .inr (.inr ⟨payload, ⟨script, .inr ⟨rfl, hh⟩⟩, hs⟩)
  | @unwind _ _ payload _ _ hc =>
    rcases hc.invokes_on (hi.of_stack rfl rfl) with hb | ⟨⟨script, rfl, rfl⟩, hs⟩
    · exact .inl hb
    · exact .inr (.inr ⟨payload, ⟨script, .inl rfl⟩, hs⟩)
  | callBack =>
    obtain ⟨above, script, rfl⟩ := deep hi rfl
    exact .inl (.inr ⟨_ :: above, script, rfl⟩)
  | @calledBack task batch' script swallowed below =>
    rcases hi with ⟨script, swallowed, heq⟩ | h
    · cases heq
      exact .inr (.inl ⟨⟨script, _, rfl⟩, rfl⟩)
    · exact .inl (.inr h)
  | @accept _ _ _ first => cases first <;> exact .inl (.inr (deep hi rfl))
  | _ => exact .inl (.inr (deep hi rfl))

/-- A panic that goes on unwinding leaves the callback, and with it the call that runs it, which
counts nothing. -/
theorem Local.panics_on {payload : Payload} (h : Local e t a c b)
    (hp : a.PanicsIn payload id batch stack) (hs : e.handler.strategy = .propagate) :
    b = ⟨.unwind payload, stack⟩ ∧ c.guarded = e.guarded ∧ c.telemetry = e.telemetry ∧
      c.events.flatMap (Event.startedIds .callback) = [] := by
  have passes : ∀ {frame c}, Catches e payload frame stack c b →
      b = ⟨.unwind payload, stack⟩ ∧ c.guarded = e.guarded ∧ c.telemetry = e.telemetry ∧
        c.events = [] := by
    intro frame c hc
    obtain ⟨hb, rfl⟩ := hc.passes hs
    exact ⟨hb, rfl, rfl, rfl⟩
  obtain ⟨script, rfl | ⟨rfl, hraise⟩⟩ := hp
  · cases h with
    | unwind hc =>
      obtain ⟨hb, hg, ht, he⟩ := passes hc
      exact ⟨hb, hg, ht, by rw [he]; rfl⟩
  · -- the callback is at the point where it panics
    cases h with
    | finish hh | call hh => cases hraise.symm.trans hh
    | raise hh hc =>
      obtain rfl := Script.Head.raise.inj (hraise.symm.trans hh)
      obtain ⟨hb, hg, ht, he⟩ := passes hc
      exact ⟨hb, hg, ht, by rw [he]; rfl⟩

/-! ## How far a call is with its batch -/

/-- Of the tasks `taken`, a call has dealt with an initial part, in the order in which they would
have been run; those that have a callback have been called back, and the rest is in hand. -/
structure Deals (e : Executor) (taken : Queue Script) (purpose : Purpose)
    (dealt : List (Task Script)) (batch : Batch) : Prop where
  purpose : batch.purpose = purpose
  removed : batch.removed = taken.size
  order : taken.drain = dealt ++ batch.tasks.drain
  called : e.calledBack taken.has = callbackIds dealt
  held : e.total (·.held taken.has) = batch.tasks.size

variable {taken : Queue Script} {purpose : Purpose} {dealt : List (Task Script)}
variable {task : Task Script} {tasks : Queue Script}

theorem Deals.has (hd : e.Deals taken purpose dealt batch) :
    ∀ task ∈ batch.tasks.tasks, taken.has task.id = true := by
  intro task hm
  refine Queue.has_id (taken.perm_drain.mem_iff.1 ?_)
  rw [hd.order]
  exact List.mem_append_right _ (batch.tasks.perm_drain.mem_iff.2 hm)

theorem Deals.has_dealt (hd : e.Deals taken purpose dealt batch) :
    ∀ task ∈ dealt, taken.has task.id = true := by
  intro task hm
  refine Queue.has_id (taken.perm_drain.mem_iff.1 ?_)
  rw [hd.order]
  exact List.mem_append_left _ hm

theorem Deals.goOn (hd : e.Deals taken purpose dealt batch) :
    e.Deals taken purpose dealt batch.goOn :=
  ⟨hd.purpose, hd.removed, hd.order, hd.called, hd.held⟩

/-- A thread has the tasks of its batches in hand. -/
theorem size_le_held (ha : e.activity? t = some a) (hm : batch ∈ a.batches)
    (hp : ∀ task ∈ batch.tasks.tasks, p task.id = true) :
    batch.tasks.size ≤ e.total (·.held p) := by
  have hone : batch.tasks.count p ≤ a.held p :=
    List.single_le_sum (fun _ _ => Nat.zero_le _) _ (List.mem_map_of_mem hm)
  have hall := Queue.count_eq_size hp
  have htotal := le_total (f := (·.held p)) rfl ha
  omega

/-- As long as the batch is in hand, nobody deals with its tasks. -/
theorem Deals.stays (hd : e.Deals taken purpose dealt batch) (hi : e.AreRemoved taken.has)
    (hb : next.Balanced) (hh : Happens e next) (ha : next.activity? t = some b)
    (hm : batch ∈ b.batches) :
    next.Deals taken purpose dealt batch ∧
      next.total (·.running .callback taken.has) ≤ e.total (·.running .callback taken.has) := by
  obtain ⟨new, hcalled, hheld, hrunning⟩ := calledBack_of_happens hi hb hh
  have hle := size_le_held ha hm hd.has
  rw [hd.held] at hheld
  obtain rfl : new = [] := List.length_eq_zero_iff.1 (by omega)
  rw [List.append_nil] at hcalled
  exact ⟨⟨hd.purpose, hd.removed, hd.order, hcalled.trans hd.called, Nat.le_antisymm hheld hle⟩,
    hrunning⟩

theorem held_settle (batch : Batch) (stack : List Frame) :
    Activity.held p ⟨.settle batch, stack⟩ = batch.tasks.count p + Activity.held p { stack } := by
  simp [Activity.held, Activity.batches, Control.batches]

/-- The next task is let go if it has no callback. -/
theorem Deals.letGo (hd : e.Deals taken purpose dealt batch)
    (ha : e.activity? t = some ⟨.settle batch, stack⟩)
    (hp : batch.tasks.pop? = some (task, tasks)) (hn : task.onCancel = none) :
    (e.after t e.unchanged ⟨.settle { batch with tasks }, stack⟩).Deals taken purpose
        (dealt ++ [task]) { batch with tasks } ∧
      (e.after t e.unchanged ⟨.settle { batch with tasks }, stack⟩).total
        (·.running .callback taken.has) = e.total (·.running .callback taken.has) := by
  refine ⟨⟨hd.purpose, hd.removed, ?_, ?_, ?_⟩, ?_⟩
  · rw [hd.order, Queue.drain_of_pop hp, List.append_assoc]
    rfl
  · have hnone : task.isCancelable = false := by rw [Task.isCancelable, hn]; rfl
    rw [callbackIds_append, callbackIds_singleton, hnone, ← hd.called, calledBack, startedIds,
      gather_after]
    simp [unchanged, calledBack, startedIds]
  · have htotal := total_after_add (f := (·.held taken.has)) (c := e.unchanged)
      (b := ⟨.settle { batch with tasks }, stack⟩) rfl ha
    have hcount := Queue.count_pop hp taken.has
    have hhas := hd.has task ((Queue.mem_pop hp).2 (.inl rfl))
    have hsize := Queue.size_pop hp
    have hheld := hd.held
    have hone : [task.id].countP taken.has = 1 := by simp [hhas]
    simp only [held_settle, hcount, hone] at htotal ⊢
    omega
  · exact Nat.add_right_cancel
      (total_after_add (f := (·.running .callback taken.has)) (a := ⟨.settle batch, stack⟩)
        (b := ⟨.settle { batch with tasks }, stack⟩) rfl ha)

/-- The next task is called back if it has a callback; no other callback of the batch is in progress
then if none was before. -/
theorem Deals.callBack (hd : e.Deals taken purpose dealt batch) (hi : e.AreRemoved taken.has)
    (hb : next.Balanced) (hh : Happens e next) (hp : batch.tasks.pop? = some (task, tasks))
    (hc : task.isCancelable = true)
    (hstarted : next.startedIds .callback = task.id :: e.startedIds .callback)
    (ha : next.activity? t = some b) (hm : { batch with tasks } ∈ b.batches) :
    next.Deals taken purpose (dealt ++ [task]) { batch with tasks } ∧
      next.total (·.running .callback taken.has) ≤
        e.total (·.running .callback taken.has) + 1 := by
  obtain ⟨new, hcalled, hheld, hrunning⟩ := calledBack_of_happens hi hb hh
  have hhas := hd.has task ((Queue.mem_pop hp).2 (.inl rfl))
  have hone : next.calledBack taken.has = e.calledBack taken.has ++ [task.id] := by
    rw [calledBack, calledBack, hstarted, List.filter_cons_of_pos hhas, List.reverse_cons]
  obtain rfl : new = [task.id] := List.append_cancel_left (hcalled.symm.trans hone)
  have hle := size_le_held ha hm fun u hu => hd.has u ((Queue.mem_pop hp).2 (.inr hu))
  have hsize := Queue.size_pop hp
  rw [hd.held, hsize] at hheld
  refine ⟨⟨hd.purpose, hd.removed, ?_, ?_, Nat.le_antisymm (Nat.le_of_succ_le_succ hheld) hle⟩,
    hrunning⟩
  · rw [hd.order, Queue.drain_of_pop hp, List.append_assoc]
    rfl
  · rw [hone, callbackIds_append, callbackIds_singleton, if_pos hc, hd.called]

theorem held_callback {id : TaskId} {script : Script} :
    Activity.held p { stack := .callback id batch script :: stack } =
      batch.tasks.count p + Activity.held p { stack } := by
  simp [Activity.held, Activity.batches, Control.batches, Frame.batches]

theorem running_callback {script : Script} {id : TaskId} (hid : p id = true) :
    Activity.running .callback p { stack := .callback id batch script :: stack } =
      Activity.running .callback p { stack } + 1 := by
  simp [Activity.running, Activity.frames, Control.frames, Frame.role, Frame.task, hid]

/-- No callback of the batch is in progress any more when one has been counted, or a panic has left
it, if there was no other. -/
theorem running_of_left {f : Activity → Nat} (hf : f .idle = 0) (ha : e.activity? t = some a)
    (hlt : f b < f a) (hone : e.total f ≤ 1) : (e.after t c b).total f = 0 := by
  have htotal := total_after_add (c := c) (b := b) hf ha
  omega

end Executor

end Deferred
