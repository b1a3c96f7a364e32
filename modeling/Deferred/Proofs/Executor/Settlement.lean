import Deferred.Proofs.Executor.Aftermath
import Deferred.Proofs.Executor.Dealing

/-!
# How removed tasks are settled

A call that has removed tasks runs their callbacks in order and is answered when all have been run,
or it is left by the first panic that goes on unwinding, and the callbacks after that one are never
run. It does not depend on what the callbacks do, nor on what other threads do meanwhile.

* `Completes`, `Escapes`: the step that answers such a call, and the step in which a panic leaves
  it.
* `Settlement`: how far the call is, with `Answered` and `Unwound` for when it is over.
* `Settlement.move`, `settlement_of_reachable`: it is so far in every state after its beginning.
* `unwound_of_escapes`, `escapes_of_panics`: a panic that passes ends it.
* `exists_over`: steps of the threads bring it to its end, or the process.
* `Spares`: the steps by which the call itself goes on touch nothing else.
* `settlesAll_of_removes`: all that there is to say of the tasks that a call has removed.
-/

namespace Deferred

/-- A thread is between two callbacks of a call that it has made from above `stack`. -/
def Activity.IsSettling (stack : List Frame) (a : Activity) : Prop :=
  (∃ batch, a = ⟨.settle batch, stack⟩) ∨
    ∃ id batch script swallowed, a = ⟨.ended (.callback id batch script) swallowed, stack⟩

namespace Executor

variable {e next called closed : Executor} {t : ThreadId} {a b : Activity} {c : Change}
variable {p : TaskId → Bool} {id : TaskId} {batch : Batch} {stack : List Frame}
variable {taken : Queue Script} {purpose : Purpose} {dealt : List (Task Script)}
variable {task : Task Script} {payload : Payload}

/-! ## How the call comes out -/

/-- A call is answered that has settled the tasks `taken`; it counts them as canceled, and counts
nothing else. -/
structure Completes (e : Executor) (taken : Queue Script) (purpose : Purpose) (t : ThreadId)
    (stack : List Frame) (closed : Executor) : Prop where
  settles : ∃ batch, e.activity? t = some ⟨.settle batch, stack⟩
  move : e.move? (.step t) = some closed
  back : closed.activity? t = some { stack }
  told : closed.trace.head? =
    some ⟨t, answerEvent purpose.topic stack (Batch.ofQueue purpose taken).answer⟩
  telemetry : closed.telemetry = e.telemetry.update (·.recordCanceled taken.size.toUInt64)
  counted : e.telemetry ≠ .stub → closed.snapshot =
    { e.snapshot with canceled := e.snapshot.canceled + taken.size.toUInt64 }
  guarded : closed.guarded = e.guarded

/-- A panic that goes on unwinding leaves the callback of a task, and with it the call that runs it,
which counts nothing. -/
structure Escapes (e : Executor) (payload : Payload) (id : TaskId) (t : ThreadId)
    (stack : List Frame) (closed : Executor) : Prop where
  panics : ∃ a batch, e.activity? t = some a ∧ a.PanicsIn payload id batch stack
  passes : e.handler.strategy = .propagate
  move : e.move? (.step t) = some closed
  back : closed.activity? t = some ⟨.unwind payload, stack⟩
  counted : closed.telemetry = e.telemetry
  guarded : closed.guarded = e.guarded
  begun : closed.startedIds .callback = e.startedIds .callback

/-- Nobody has tasks of a kind in hand, and none of their callbacks is in progress. -/
structure AreDone (e : Executor) (p : TaskId → Bool) : Prop where
  held : e.total (·.held p) = 0
  running : e.total (·.running .callback p) = 0

/-- The call has been answered, when all tasks that have a callback had been called back. -/
structure Answered (called : Executor) (taken : Queue Script) (purpose : Purpose) (t : ThreadId)
    (stack : List Frame) (e : Executor) : Prop where
  ended : ∃ before closed, called.Reachable before ∧
    before.Completes taken purpose t stack closed ∧ closed.Reachable e
  called : e.calledBack taken.has = callbackIds taken.drain
  done : e.AreDone taken.has

/-- A panic has left the call through the callback of a task; those after it are not called back. -/
structure Unwound (called : Executor) (taken : Queue Script) (t : ThreadId) (stack : List Frame)
    (payload : Payload) (id : TaskId) (e : Executor) : Prop where
  ended : ∃ before closed, called.Reachable before ∧
    before.Escapes payload id t stack closed ∧ closed.Reachable e
  called : ∃ dealt task left, taken.drain = dealt ++ task :: left ∧ task.id = id ∧
    task.isCancelable = true ∧ e.calledBack taken.has = callbackIds (dealt ++ [task])
  done : e.AreDone taken.has

/-- How far the call is that was about to settle the tasks `taken` in the state `called`. -/
inductive Settlement (called : Executor) (taken : Queue Script) (purpose : Purpose)
    (t : ThreadId) (stack : List Frame) (e : Executor) : Prop
  /-- It is about to deal with the next task, and none of its callbacks is in progress. -/
  | between {dealt : List (Task Script)} {batch : Batch}
      (ha : e.activity? t = some ⟨.settle batch, stack⟩) (hd : e.Deals taken purpose dealt batch)
      (hr : e.total (·.running .callback taken.has) = 0)
  /-- The callback of a task is in progress, and no other. -/
  | within {a : Activity} {dealt : List (Task Script)} {task : Task Script} {batch : Batch}
      (ha : e.activity? t = some a) (hi : a.Invokes task.id batch stack)
      (hc : task.isCancelable = true) (hd : e.Deals taken purpose (dealt ++ [task]) batch)
      (hr : e.total (·.running .callback taken.has) ≤ 1)
  | answered (h : Answered called taken purpose t stack e)
  | unwound {payload : Payload} {id : TaskId} (h : Unwound called taken t stack payload id e)

/-! ## The end of the call -/

/-- What is done with is not called back any more. -/
theorem AreDone.happens (h : e.AreDone p) (hi : e.AreRemoved p) (hb : next.Balanced)
    (hh : Happens e next) : next.calledBack p = e.calledBack p ∧ next.AreDone p := by
  obtain ⟨new, hcalled, hle, hrun⟩ := calledBack_of_happens hi hb hh
  rw [h.held] at hle
  rw [h.running] at hrun
  obtain rfl : new = [] := List.length_eq_zero_iff.1 (by omega)
  rw [List.append_nil] at hcalled
  exact ⟨hcalled, Nat.eq_zero_of_le_zero hle, Nat.eq_zero_of_le_zero hrun⟩

/-- A panic that goes on unwinding leaves the callback by the next step of its thread. -/
theorem escapes_of_panics (ho : e.Orderly) (hrun : e.aborted = false) (ha : e.activity? t = some a)
    (hp : a.PanicsIn payload id batch stack) (hs : e.handler.strategy = .propagate) :
    ∃ closed, e.Escapes payload id t stack closed := by
  obtain ⟨next, hm⟩ : ∃ next, e.move? (.step t) = some next := by
    have hstep : e.move? (.step t) = e.advance t a := step?_eq_advance hrun ha
    rw [hstep]
    obtain ⟨script, rfl | ⟨rfl, -⟩⟩ := hp <;> exact ⟨_, rfl⟩
  obtain ⟨c, b, hl, rfl⟩ := (goes_of_step ho ha hm).of_settles hp.invokes.settles
  obtain ⟨rfl, hguarded, htelemetry, hevents⟩ := hl.panics_on hp hs
  refine ⟨_, ⟨a, batch, ha, hp⟩, hs, hm, activity?_after_self, ?_, ?_, ?_⟩
  · rw [telemetry_after, htelemetry]
  · rw [guarded_after, hguarded]
  · rw [startedIds, gather_after, hevents]
    rfl

/-- With the callback, what the call had in hand is left too. -/
theorem Unwound.of_escapes (hr : called.Reachable e) (ho : e.Orderly)
    (h : e.Escapes payload task.id t stack closed) (ha : e.activity? t = some a)
    (hin : a.Invokes task.id batch stack) (hc : task.isCancelable = true)
    (hd : e.Deals taken purpose (dealt ++ [task]) batch)
    (hrun : e.total (·.running .callback taken.has) ≤ 1) :
    Unwound called taken t stack payload task.id closed := by
  obtain ⟨a', batch', ha', hpanics⟩ := h.panics
  obtain rfl := Option.some.inj (ha.symm.trans ha')
  obtain ⟨-, rfl⟩ := hin.eq_of_panicsIn hpanics
  have hhas : taken.has task.id = true :=
    hd.has_dealt task (List.mem_append_right _ (List.mem_singleton_self _))
  obtain ⟨c, b, -, rfl⟩ := (goes_of_step ho ha h.move).of_settles hin.settles
  obtain rfl := Option.some.inj (activity?_after_self.symm.trans h.back)
  have hheld : a.held taken.has = batch.tasks.size + Activity.held taken.has { stack } := by
    obtain ⟨script, rfl | ⟨rfl, -⟩⟩ := hpanics <;>
      exact held_callback.trans (by rw [Queue.count_eq_size hd.has])
  have hruns : a.running .callback taken.has =
      Activity.running .callback taken.has { stack } + 1 := by
    obtain ⟨script, rfl | ⟨rfl, -⟩⟩ := hpanics <;> exact running_callback hhas
  refine ⟨⟨e, _, hr, h, .refl⟩, ⟨dealt, task, batch.tasks.drain, ?_, rfl, hc, ?_⟩, ?_, ?_⟩
  · rw [hd.order, List.append_assoc]
    rfl
  · rw [← hd.called, calledBack, h.begun]
    rfl
  · have htotal := total_after_add (f := (·.held taken.has)) (c := c)
      (b := ⟨.unwind payload, stack⟩) rfl ha
    have hbelow : Activity.held taken.has ⟨.unwind payload, stack⟩ =
        Activity.held taken.has { stack } := rfl
    rw [hheld, hbelow, hd.held] at htotal
    omega
  · exact running_of_left rfl ha (by rw [hruns]; exact Nat.lt_succ_self _) hrun

/-- When no task is left, the call is answered. -/
theorem Answered.of_settle (hr : called.Reachable e) (hi : e.AreRemoved taken.has)
    (hb : (e.after t c { stack }).Balanced) (hh : Happens e (e.after t c { stack }))
    (hm : e.move? (.step t) = some (e.after t c { stack }))
    (ha : e.activity? t = some ⟨.settle batch, stack⟩) (hd : e.Deals taken purpose dealt batch)
    (hrun : e.total (·.running .callback taken.has) = 0) (hp : batch.tasks.pop? = none)
    (he : c.events.head? = some (answerEvent purpose.topic stack batch.answer))
    (ht : c.telemetry = e.telemetry.update (·.recordCanceled batch.removed.toUInt64))
    (hg : c.guarded = e.guarded) :
    Answered called taken purpose t stack (e.after t c { stack }) := by
  have hnil := Queue.drain_of_pop_none hp
  have hheld : e.total (·.held taken.has) = 0 := by
    rw [hd.held, ← Queue.length_drain, hnil]
    rfl
  have hanswer : batch.answer = (Batch.ofQueue purpose taken).answer := by
    rw [Batch.answer, Batch.answer, hd.purpose, hd.removed]
    rfl
  obtain ⟨hcalled, hdone⟩ := AreDone.happens ⟨hheld, hrun⟩ hi hb hh
  rw [hd.removed] at ht
  refine ⟨⟨e, _, hr, ⟨⟨batch, ha⟩, hm, activity?_after_self, ?_, ?_, fun hkept => ?_, ?_⟩, .refl⟩,
    ?_, hdone⟩
  · rw [trace_after, List.head?_append, List.head?_map, he, hanswer]
    rfl
  · rw [telemetry_after, ht]
  · rw [snapshot_after, ht]
    exact Telemetry.snapshot_recordCanceled hkept _ _
  · rw [guarded_after, hg]
  · rw [hcalled, hd.called, hd.order, hnil, List.append_nil]

/-! ## The call goes on -/

/-- The call deals with the next task, or is answered when none is left. -/
theorem Settlement.of_between (hr : called.Reachable e) (ho : e.Orderly)
    (hi : e.AreRemoved taken.has) (hb : next.Balanced) (hm : e.move? (.step t) = some next)
    (ha : e.activity? t = some ⟨.settle batch, stack⟩) (hd : e.Deals taken purpose dealt batch)
    (hrun : e.total (·.running .callback taken.has) = 0) :
    Settlement called taken purpose t stack next := by
  obtain ⟨c, b, hl, rfl⟩ :=
    (goes_of_step ho ha hm).of_settles (.inl ⟨List.mem_singleton_self _, rfl⟩)
  have hh : Happens e (e.after t c b) := .goes ha hl
  have hafter : (e.after t c b).activity? t = some b := activity?_after_self
  cases hl with
  | letGo hp hn =>
    obtain ⟨hnext, hsame⟩ := hd.letGo ha hp hn
    exact .between hafter hnext (hsame.trans hrun)
  | @callBack _ _ task _ _ hp hs =>
    have hcancel : task.isCancelable = true := by rw [Task.isCancelable, hs]; rfl
    obtain ⟨hnext, hle⟩ := hd.callBack hi hb hh hp hcancel (gather_after ..) hafter
      (List.mem_cons_self ..)
    exact .within hafter (.inr ⟨[], _, rfl⟩) hcancel hnext (by omega)
  | canceled hp hpurpose =>
    refine .answered (.of_settle hr hi hb hh hm ha hd hrun hp ?_ rfl rfl)
    rw [Batch.answer, ← hd.purpose, hpurpose]
    rfl
  | settled hp hpurpose =>
    refine .answered (.of_settle hr hi hb hh hm ha hd hrun hp ?_ rfl rfl)
    rw [Batch.answer, ← hd.purpose, hpurpose]
    rfl

/-- The callback goes on, or it is counted, or a panic leaves it and ends the call. -/
theorem Settlement.of_within (hr : called.Reachable e) (ho : e.Orderly)
    (hi : e.AreRemoved taken.has) (hb : next.Balanced) (hm : e.move? (.step t) = some next)
    (ha : e.activity? t = some a) (hin : a.Invokes task.id batch stack)
    (hc : task.isCancelable = true) (hd : e.Deals taken purpose (dealt ++ [task]) batch)
    (hrun : e.total (·.running .callback taken.has) ≤ 1) :
    Settlement called taken purpose t stack next := by
  obtain ⟨c, b, hl, rfl⟩ := (goes_of_step ho ha hm).of_settles hin.settles
  have hh : Happens e (e.after t c b) := .goes ha hl
  have hafter : (e.after t c b).activity? t = some b := activity?_after_self
  have hhas : taken.has task.id = true :=
    hd.has_dealt task (List.mem_append_right _ (List.mem_singleton_self _))
  rcases hl.invokes_on hin with hin' | ⟨⟨script, swallowed, rfl⟩, rfl⟩ | ⟨payload, hpanics, hs⟩
  · obtain ⟨hd', hle⟩ := hd.stays hi hb hh hafter hin'.settles.mem_batches
    exact .within hafter hin' hc hd' (by omega)
  · obtain ⟨hd', -⟩ := hd.goOn.stays hi hb hh hafter (List.mem_cons_self ..)
    refine .between hafter hd' (running_of_left rfl ha ?_ hrun)
    show Activity.running .callback taken.has { stack } <
      Activity.running .callback taken.has { stack := .callback task.id batch script :: stack }
    rw [running_callback hhas]
    exact Nat.lt_succ_self _
  · obtain ⟨closed, hescapes⟩ := escapes_of_panics ho (not_aborted_of_step hm) ha hpanics hs
    obtain rfl := Option.some.inj (hescapes.move.symm.trans hm)
    exact .unwound (.of_escapes hr ho hescapes ha hin hc hd hrun)

theorem Answered.move (h : Answered called taken purpose t stack e) (hi : e.AreRemoved taken.has)
    (hb : next.Balanced) {m : Move} (hm : e.move? m = some next) (hh : Happens e next) :
    Answered called taken purpose t stack next := by
  obtain ⟨before, closed, hbefore, hcompletes, hl⟩ := h.ended
  obtain ⟨hcalled, hdone⟩ := h.done.happens hi hb hh
  exact ⟨⟨before, closed, hbefore, hcompletes, hl.move m hm⟩, hcalled.trans h.called, hdone⟩

theorem Unwound.move (h : Unwound called taken t stack payload id e) (hi : e.AreRemoved taken.has)
    (hb : next.Balanced) {m : Move} (hm : e.move? m = some next) (hh : Happens e next) :
    Unwound called taken t stack payload id next := by
  obtain ⟨before, closed, hbefore, hescapes, hl⟩ := h.ended
  obtain ⟨dealt, task, left, horder, hid, hc, hbefore'⟩ := h.called
  obtain ⟨hcalled, hdone⟩ := h.done.happens hi hb hh
  exact ⟨⟨before, closed, hbefore, hescapes, hl.move m hm⟩,
    ⟨dealt, task, left, horder, hid, hc, hcalled.trans hbefore'⟩, hdone⟩

/-- Whatever moves, the call goes on as it says, or stays where it is, or is over. -/
theorem Settlement.move (h : Settlement called taken purpose t stack e) (hr : called.Reachable e)
    (ho : e.Orderly) (hi : e.AreRemoved taken.has) (hb : next.Balanced) {m : Move}
    (hm : e.move? m = some next) : Settlement called taken purpose t stack next := by
  have hh := happens_of_move ho hm
  cases h with
  | between ha hd hrun =>
    by_cases hmt : m = .step t
    · subst hmt
      exact .of_between hr ho hi hb hm ha hd hrun
    · have ha' := activity?_of_move ho hm ha rfl hmt
      obtain ⟨hd', hle⟩ := hd.stays hi hb hh ha' (List.mem_cons_self ..)
      exact .between ha' hd' (by omega)
  | within ha hin hc hd hrun =>
    by_cases hmt : m = .step t
    · subst hmt
      exact .of_within hr ho hi hb hm ha hin hc hd hrun
    · have ha' := activity?_of_move ho hm ha hin.settles.isIdle_eq hmt
      obtain ⟨hd', hle⟩ := hd.stays hi hb hh ha' hin.settles.mem_batches
      exact .within ha' hin hc hd' (by omega)
  | answered h => exact .answered (h.move hi hb hm hh)
  | unwound h => exact .unwound (h.move hi hb hm hh)

/-- A panic that leaves the callback of one of the tasks is the end of the call. -/
theorem Settlement.unwound_of_escapes (h : Settlement called taken purpose t stack e)
    (hr : called.Reachable e) (ho : e.Orderly) (hid : taken.has id = true)
    (hesc : e.Escapes payload id t stack closed) :
    Unwound called taken t stack payload id closed := by
  obtain ⟨a, batch, ha, hpanics⟩ := hesc.panics
  have hruns : 0 < e.total (·.running .callback taken.has) := by
    refine Nat.lt_of_lt_of_le ?_ (le_total rfl ha)
    obtain ⟨script, rfl | ⟨rfl, -⟩⟩ := hpanics <;>
      exact Nat.lt_of_lt_of_eq (Nat.succ_pos _) (running_callback hid).symm
  cases h with
  | between _ _ hzero => omega
  | within ha' hin hc hd hrun =>
    obtain rfl := Option.some.inj (ha'.symm.trans ha)
    obtain ⟨rfl, -⟩ := hin.eq_of_panicsIn hpanics
    exact .of_escapes hr ho hesc ha hin hc hd hrun
  | answered h | unwound h =>
    have hzero := h.done.running
    omega

/-- As far as the call is, it has called back an initial part of the tasks in their order. -/
theorem Settlement.exists_dealt (h : Settlement called taken purpose t stack e) :
    ∃ dealt left, taken.drain = dealt ++ left ∧ e.calledBack taken.has = callbackIds dealt := by
  cases h with
  | between _ hd | within _ _ _ hd => exact ⟨_, _, hd.order, hd.called⟩
  | answered h => exact ⟨_, [], (List.append_nil _).symm, h.called⟩
  | unwound h =>
    obtain ⟨dealt, task, left, horder, -, -, hcalled⟩ := h.called
    exact ⟨dealt ++ [task], left, by rw [horder, List.append_assoc]; rfl, hcalled⟩

/-- One callback at most is in progress. -/
theorem Settlement.running_le_one (h : Settlement called taken purpose t stack e) :
    e.total (·.running .callback taken.has) ≤ 1 := by
  cases h with
  | between _ _ hr => exact hr ▸ Nat.zero_le 1
  | within _ _ _ _ hr => exact hr
  | answered h | unwound h => exact h.done.running ▸ Nat.zero_le 1

/-- A call that is not over has its thread busy with it. -/
theorem Settlement.over_or_settles (h : Settlement called taken purpose t stack e) :
    (∃ a batch, e.activity? t = some a ∧ a.Settles batch stack) ∨
      Answered called taken purpose t stack e ∨
        ∃ payload id, Unwound called taken t stack payload id e := by
  cases h with
  | between ha => exact .inl ⟨_, _, ha, .inl ⟨List.mem_singleton_self _, rfl⟩⟩
  | within ha hin => exact .inl ⟨_, _, ha, hin.settles⟩
  | answered h => exact .inr (.inl h)
  | unwound h => exact .inr (.inr ⟨_, _, h⟩)

section Runs

variable {config : Config} {telemetry : Telemetry} {clock : Instant} {start last : Executor}

/-- The call begins with all that it has removed in hand. -/
theorem deals_of_removes (hs : Executor.start config telemetry clock = .ok start)
    (h : start.Removes e t stack called)
    (ha : called.activity? t = some ⟨.settle (.ofQueue purpose e.guarded.pending), stack⟩) :
    called.AreRemoved e.guarded.pending.has ∧
      called.Deals e.guarded.pending purpose [] (.ofQueue purpose e.guarded.pending) ∧
        called.total (·.running .callback e.guarded.pending.has) = 0 := by
  obtain ⟨m, hm⟩ := h.move
  have hbefore := balanced_of_start hs h.reachable
  have hbal := balanced_of_start hs (h.reachable.move m hm)
  have hremoved : called.removedIds = e.guarded.pending.ids ++ e.removedIds := by
    rw [removedIds, gather, h.told]
    rfl
  have hhas : ∀ task ∈ e.guarded.pending.tasks, e.guarded.pending.has task.id = true :=
    fun task hm => Queue.has_id hm
  refine ⟨fun id hid => ?_, ?_⟩
  · rw [hremoved]
    exact List.mem_append_left _ (of_decide_eq_true hid)
  · -- none of them had been removed before, so that they are in hand once
    have hold : e.removedIds.countP e.guarded.pending.has = 0 := by
      refine List.countP_eq_zero.2 fun id hid hp => ?_
      obtain ⟨task, htask, rfl⟩ := Queue.mem_ids.1 (of_decide_eq_true hp)
      exact hbefore.not_pending (.inr hid) htask
    have hcount : called.removedIds.countP e.guarded.pending.has = e.guarded.pending.size := by
      rw [hremoved, List.countP_append, hold, Queue.countP_ids, Queue.count_eq_size hhas,
        Nat.add_zero]
    have hheld := hbal.batches e.guarded.pending.has
    have hrunning := hbal.callables .callback e.guarded.pending.has
    have hsize : e.guarded.pending.size ≤ called.total (·.held e.guarded.pending.has) :=
      size_le_held ha (List.mem_cons_self ..) hhas
    have hzero : (called.startedIds .callback).countP e.guarded.pending.has = 0 := by omega
    refine ⟨⟨rfl, rfl, rfl, ?_, ?_⟩, by omega⟩
    · rw [calledBack, List.filter_eq_nil_iff.2 (List.countP_eq_zero.1 hzero)]
      rfl
    · show _ = e.guarded.pending.size
      omega

theorem areRemoved_of_removes (hs : Executor.start config telemetry clock = .ok start)
    (h : start.Removes e t stack called) (hl : called.Reachable last) :
    last.AreRemoved e.guarded.pending.has := by
  obtain ⟨m, hm⟩ := h.move
  obtain ⟨purpose, ha⟩ := h.settles
  obtain ⟨hremoved, -⟩ := deals_of_removes hs h ha
  exact hl.happens_invariant (P := fun e' => e'.AreRemoved e.guarded.pending.has)
    (orderly_of_start hs (h.reachable.move m hm)) hremoved fun _ _ _ hi hh => hi.happens hh

/-- How far the call is in every later state. -/
theorem settlement_of_reachable (hs : Executor.start config telemetry clock = .ok start)
    (h : start.Removes e t stack called)
    (ha : called.activity? t = some ⟨.settle (.ofQueue purpose e.guarded.pending), stack⟩)
    (hl : called.Reachable last) : Settlement called e.guarded.pending purpose t stack last := by
  obtain ⟨m, hm⟩ := h.move
  have hr := h.reachable.move m hm
  induction hl with
  | refl =>
    obtain ⟨-, hdeals, hrunning⟩ := deals_of_removes hs h ha
    exact .between ha hdeals hrunning
  | @move before after m hb hmove ih =>
    exact ih.move hb (orderly_of_start hs (hr.trans hb)) (areRemoved_of_removes hs h hb)
      (balanced_of_start hs ((hr.trans hb).move m hmove)) hmove

/-- The action of a removed task is not begun, neither then nor later, and the task does not come
back. -/
theorem not_begun_of_removed (hs : Executor.start config telemetry clock = .ok start)
    (hr : start.Reachable e) (hid : id ∈ e.removedIds) :
    id ∉ e.startedIds .action ∧ id ∉ e.guarded.pending.ids := by
  have hbal := balanced_of_start hs hr
  have hqueue := hbal.queue (· == id)
  have hone := hbal.countP_acceptedIds_le id
  have hpos : 0 < e.removedIds.countP (· == id) := List.count_pos_iff.2 hid
  refine ⟨fun hbegun => ?_, fun hpending => ?_⟩
  · have : 0 < (e.startedIds .action).countP (· == id) := List.count_pos_iff.2 hbegun
    omega
  · obtain ⟨task, htask, rfl⟩ := Queue.mem_ids.1 hpending
    exact hbal.not_pending (.inr hid) htask

/-- Where panics are swallowed, none leaves the call. -/
theorem not_unwound_of_swallows (hs : Executor.start config telemetry clock = .ok start)
    (hsw : config.panicStrategy.swallows = true) (hr : start.Reachable called) :
    ¬ Unwound called taken t stack payload id last := by
  intro h
  obtain ⟨before, closed, hb, hesc, -⟩ := h.ended
  exact not_unwind_of_swallows hs hsw ((hr.trans hb).move _ hesc.move) hesc.back

/-- A thread that is back from the call settles nothing any more: the call is over. -/
theorem Settlement.over_of_back (h : Settlement called taken purpose t stack e)
    (ha : e.activity? t = some a) (hback : a.IsBack stack) :
    Answered called taken purpose t stack e ∨
      ∃ payload id, Unwound called taken t stack payload id e := by
  refine h.over_or_settles.resolve_left ?_
  rintro ⟨a', batch, ha', hset⟩
  obtain rfl := Option.some.inj (ha.symm.trans ha')
  exact hset.not_isBack hback

/-- Wherever the call is, steps of the threads alone bring it to an end, or a panic in one of them
ends the process. -/
theorem Settlement.exists_over (h : Settlement called taken purpose t stack e)
    (hs : Executor.start config telemetry clock = .ok start) (hr : start.Reachable e)
    (hlater : ∀ last, e.Reachable last → Settlement called taken purpose t stack last) :
    ∃ (ts : List ThreadId) (closed : Executor), e.moves? (ts.map .step) = some closed ∧
      (Answered called taken purpose t stack closed ∨
        (∃ payload id, Unwound called taken t stack payload id closed) ∨
        config.panicStrategy = .abort ∧ closed.aborted = true) := by
  rcases h.over_or_settles with ⟨a, batch, ha, hset⟩ | hover
  · obtain ⟨ts, before, -, hts, -, -, hended | ⟨closed, hm, b, hb, hback⟩⟩ :=
      exists_leaves_of (isCall_settles t stack) hs hr ha ⟨batch, hset⟩
    · exact ⟨ts, before, hts, .inr (.inr hended)⟩
    have hmoves : e.moves? ((ts ++ [t]).map .step) = some closed := by
      rw [List.map_append]
      exact moves?_concat hts hm
    have hnext := hlater closed (Reachable.refl.of_moves _ hmoves)
    exact ⟨ts ++ [t], closed, hmoves, (hnext.over_of_back hb hback).imp_right .inl⟩
  · exact ⟨[], e, rfl, hover.imp_right .inl⟩

end Runs

/-! ## What the call leaves alone -/

/-- A step of a thread touches nothing that other threads see but the metrics: it counts one panic
at most, unless it answers the call that the thread has made from above `stack`. -/
structure Spares (e : Executor) (t : ThreadId) (stack : List Frame) (next : Executor) : Prop where
  guarded : next.guarded = e.guarded
  others : ∀ u, u ≠ t → next.activity? u = e.activity? u
  worker : t ≠ .worker → next.worker = e.worker
  actions : next.startedIds .action = e.startedIds .action
  counted : next.activity? t = some { stack } ∨ next.telemetry = e.telemetry ∨
    next.telemetry = e.telemetry.update .recordPanic
  panicked : next.activity? t = some { stack } ∨ next.snapshot = e.snapshot ∨
    next.snapshot = { e.snapshot with panicked := e.snapshot.panicked + 1 }
  below : ∃ b, next.activity? t = some b ∧ ∃ above, b.stack = above ++ stack

theorem spares_after (hw : c.wakes = false) (hg : c.guarded = e.guarded)
    (hb : c.events.flatMap (Event.startedIds .action) = [])
    (hc : b = { stack } ∨ c.telemetry = e.telemetry ∨
      c.telemetry = e.telemetry.update .recordPanic)
    (hst : ∃ above, b.stack = above ++ stack) : e.Spares t stack (e.after t c b) where
  guarded := by rw [guarded_after, hg]
  others u hu := activity?_after_ne hu
  worker ht := by
    cases t with
    | worker => exact absurd rfl ht
    | caller n => rw [worker_after_caller, hw]; rfl
  actions := by
    rw [startedIds, gather_after, hb]
    rfl
  counted := by
    rw [telemetry_after]
    refine hc.imp_left fun heq => ?_
    rw [heq, activity?_after_self]
  panicked := by
    rcases hc with rfl | ht | ht
    · exact .inl activity?_after_self
    · rw [snapshot_after, ht]
      exact .inr (.inl rfl)
    · rw [snapshot_after, ht]
      by_cases hkept : e.telemetry = .stub
      · rw [snapshot, hkept]
        exact .inr (.inl rfl)
      · exact .inr (.inr (Telemetry.snapshot_recordPanic hkept _))
  below := ⟨b, activity?_after_self, hst⟩

/-- The steps that the call makes between its callbacks touch nothing else. -/
theorem spares_of_settling (ho : e.Orderly) (ha : e.activity? t = some a)
    (hset : a.IsSettling stack) (hm : e.move? (.step t) = some next) : e.Spares t stack next := by
  have hsettles : ∃ batch, a.Settles batch stack := by
    rcases hset with ⟨batch, rfl⟩ | ⟨id, batch, script, swallowed, rfl⟩ <;>
      exact ⟨batch, .inl ⟨List.mem_singleton_self _, rfl⟩⟩
  obtain ⟨batch, hsettles⟩ := hsettles
  obtain ⟨c, b, hl, rfl⟩ := (goes_of_step ho ha hm).of_settles hsettles
  rcases hset with ⟨batch, rfl⟩ | ⟨id, batch, script, swallowed, rfl⟩
  · cases hl with
    | letGo => exact spares_after rfl rfl rfl (.inr (.inl rfl)) ⟨[], rfl⟩
    | callBack => exact spares_after rfl rfl rfl (.inr (.inl rfl)) ⟨[_], rfl⟩
    | canceled | settled => exact spares_after rfl rfl (by simp) (.inl rfl) ⟨[], rfl⟩
  · cases hl with
    | calledBack =>
      refine spares_after rfl rfl rfl (.inr ?_) ⟨[], rfl⟩
      cases swallowed
      · exact .inl rfl
      · exact .inr rfl

/-! ## The whole story of a settlement -/

/-- What becomes of the tasks `taken` that a call of a thread was about to settle in the state
`called`. -/
structure SettlesAll (called : Executor) (taken : Queue Script) (purpose : Purpose) (t : ThreadId)
    (stack : List Frame) : Prop where
  ascending : taken.drain.Pairwise Task.Earlier
  unbegun : called.calledBack taken.has = []
  /-- In every later state the call has called back an initial part of the tasks in this order, and
  one callback at most is in progress. -/
  course : ∀ last, called.Reachable last → Settlement called taken purpose t stack last ∧
    (∃ dealt left, taken.drain = dealt ++ left ∧ last.calledBack taken.has = callbackIds dealt) ∧
    last.total (·.running .callback taken.has) ≤ 1
  /-- The tasks are pending no more, and their actions are never begun. -/
  gone : ∀ last, called.Reachable last → ∀ id ∈ taken.ids,
    id ∉ last.startedIds .action ∧ id ∉ last.guarded.pending.ids
  spares : ∀ before a next, called.Reachable before → before.activity? t = some a →
    a.IsSettling stack → before.move? (.step t) = some next → before.Spares t stack next
  /-- A panic that goes on unwinding leaves the call by the next step, and the others are lost. -/
  escapes : called.config.panicStrategy = .propagate →
    ∀ before a payload id batch, called.Reachable before → before.activity? t = some a →
      id ∈ taken.ids → a.PanicsIn payload id batch stack →
        ∃ closed, before.Escapes payload id t stack closed ∧
          ∀ last, closed.Reachable last → Unwound called taken t stack payload id last
  swallows : called.config.panicStrategy.swallows = true →
    ∀ last payload id, ¬ Unwound called taken t stack payload id last
  /-- The threads' own steps bring the call to its end, which is final, or a panic in one of them
  ends the process. -/
  ends : ∀ last, called.Reachable last → ∃ (ts : List ThreadId) (closed : Executor),
    last.moves? (ts.map .step) = some closed ∧
      ((∀ later, closed.Reachable later → Answered called taken purpose t stack later) ∨
        (∃ payload id, ∀ later, closed.Reachable later →
          Unwound called taken t stack payload id later) ∨
        called.config.panicStrategy = .abort ∧ closed.aborted = true)

section Runs

variable {config : Config} {telemetry : Telemetry} {clock : Instant} {start last later : Executor}

/-- An answer is final. -/
theorem answered_of_reachable (hs : Executor.start config telemetry clock = .ok start)
    (h : start.Removes e t stack called) (hl : called.Reachable last)
    (ha : Answered called e.guarded.pending purpose t stack last) (hr : last.Reachable later) :
    Answered called e.guarded.pending purpose t stack later := by
  obtain ⟨m, hm⟩ := h.move
  have hreach := (h.reachable.move m hm).trans hl
  induction hr with
  | refl => exact ha
  | @move before after m hb hmove ih =>
    exact ih.move (areRemoved_of_removes hs h (hl.trans hb))
      (balanced_of_start hs ((hreach.trans hb).move m hmove)) hmove
      (happens_of_move (orderly_of_start hs (hreach.trans hb)) hmove)

/-- So is the end by a panic. -/
theorem unwound_of_reachable (hs : Executor.start config telemetry clock = .ok start)
    (h : start.Removes e t stack called) (hl : called.Reachable last)
    (hu : Unwound called e.guarded.pending t stack payload id last) (hr : last.Reachable later) :
    Unwound called e.guarded.pending t stack payload id later := by
  obtain ⟨m, hm⟩ := h.move
  have hreach := (h.reachable.move m hm).trans hl
  induction hr with
  | refl => exact hu
  | @move before after m hb hmove ih =>
    exact ih.move (areRemoved_of_removes hs h (hl.trans hb))
      (balanced_of_start hs ((hreach.trans hb).move m hmove)) hmove
      (happens_of_move (orderly_of_start hs (hreach.trans hb)) hmove)

/-- Tasks that a call has removed are called back in ascending order, until all have been or a panic
leaves the call. -/
theorem settlesAll_of_removes (hs : Executor.start config telemetry clock = .ok start)
    (h : start.Removes e t stack called)
    (ha : called.activity? t = some ⟨.settle (.ofQueue purpose e.guarded.pending), stack⟩) :
    called.SettlesAll e.guarded.pending purpose t stack := by
  obtain ⟨m, hm⟩ := h.move
  have hr := h.reachable.move m hm
  have hconfig := config_of_start hs hr
  have hcourse := fun last (hl : called.Reachable last) => settlement_of_reachable hs h ha hl
  refine ⟨Queue.pairwise_drain (balanced_of_start hs h.reachable).nodup_pending, ?_,
    fun last hl =>
      ⟨hcourse last hl, (hcourse last hl).exists_dealt, (hcourse last hl).running_le_one⟩,
    fun last hl id hid => ?_, fun before a next hl ha hset hm => ?_,
    fun hsw before a payload id batch hl ha hid hp => ?_, fun hsw last payload id => ?_,
    fun last hl => ?_⟩
  · obtain ⟨-, hdeals, -⟩ := deals_of_removes hs h ha
    exact hdeals.called
  · exact not_begun_of_removed hs (hr.trans hl)
      (areRemoved_of_removes hs h hl id (decide_eq_true hid))
  · exact spares_of_settling (orderly_of_start hs (hr.trans hl)) ha hset hm
  · have hreach := hr.trans hl
    have ho := orderly_of_start hs hreach
    have hstrategy : before.handler.strategy = .propagate := by
      rw [(handled_of_start hs hreach).strategy, config_of_start hs hreach, ← hconfig, hsw]
    have hrun : before.aborted = false := by
      refine Bool.eq_false_iff.2 fun hended => ?_
      rw [hconfig, abort_of_aborted hs hreach hended] at hsw
      cases hsw
    obtain ⟨closed, hescapes⟩ := escapes_of_panics ho hrun ha hp hstrategy
    have hunwound := (hcourse before hl).unwound_of_escapes hl ho (decide_eq_true hid) hescapes
    exact ⟨closed, hescapes,
      fun last hlast => unwound_of_reachable hs h (hl.move _ hescapes.move) hunwound hlast⟩
  · exact not_unwound_of_swallows hs (hconfig ▸ hsw) hr
  · obtain ⟨ts, closed, hmoves, hover⟩ := (hcourse last hl).exists_over hs (hr.trans hl)
      fun later hlater => hcourse later (hl.trans hlater)
    have hclosed : called.Reachable closed := hl.of_moves _ hmoves
    refine ⟨ts, closed, hmoves, ?_⟩
    rcases hover with hanswered | ⟨payload, id, hunwound⟩ | ⟨hstrategy, hended⟩
    · exact .inl fun later hlater => answered_of_reachable hs h hclosed hanswered hlater
    · exact .inr (.inl ⟨payload, id,
        fun later hlater => unwound_of_reachable hs h hclosed hunwound hlater⟩)
    · exact .inr (.inr ⟨by rw [hconfig, hstrategy], hended⟩)

end Runs

end Executor

end Deferred
