import Deferred.Proofs.Executor.Invariant

/-!
# How many callables are still to come

The tasks that are pending or in hand contain a finite number of callables, those inside others
included. Beginning a callable takes one away; what it goes on to schedule has been counted with it.
A task that is canceled takes its action along, and its callback was counted from the start. So no
step of a thread brings about a callable that has not been counted, and the callables that are begun
are never more than those that were there, until a caller makes a new call.

* `Task.callables`, `Queue.callables`, `Activity.callables`: what a task, the queue and a thread can
  still bring about; `Executor.callables` is the sum.
* `Executor.begun`: how many callables have been begun.
* `Local.charge`, `WorkerStep.charge`: what a step begins is taken from what it leaves.
* `Executor.Spends`, `spends_of_moves`: so it is over every run in which no caller makes a call.
-/

namespace Deferred

/-! ## Counting callables -/

/-- The number of callables that a call can bring about: those of the task that it schedules. -/
def Request.callables : Request → Nat
  | schedule spec =>
    spec.action.callables + 1 + (spec.onCancel.map fun script => script.callables + 1).getD 0
  | cancelAll | pending | threadName | shutdown | drop => 0

/-- The number of callables that a task contains, those inside others included. -/
def Task.callables (t : Task Script) : Nat :=
  t.action.callables + 1 + (t.onCancel.map fun script => script.callables + 1).getD 0

/-- The number of callables that the tasks of a queue contain. -/
def Queue.callables (q : Queue Script) : Nat := (q.tasks.map Task.callables).sum

/-- The number of callables that a callable in progress can still bring about, by itself or because
the call goes on that runs it. -/
def Frame.callables : Frame → Nat
  | action _ _ _ rest => rest.callables
  | callback _ batch rest => rest.callables + batch.tasks.callables

/-- The number of callables that a thread can bring about before it comes back to its stack. -/
def Control.callables : Control → Nat
  | enqueue task => task.callables
  | settle batch => batch.tasks.callables
  | ended frame _ => frame.callables
  | ready | notify _ | record _ | unwind _ | abort | flag _ | rouse _ | join _ | drain _ _ => 0

/-- The number of callables that the callables of a stack can still bring about. -/
def stackCallables (stack : List Frame) : Nat := (stack.map Frame.callables).sum

/-- The number of callables that a thread can still bring about. -/
def Activity.callables (a : Activity) : Nat := a.control.callables + stackCallables a.stack

@[simp] theorem stackCallables_nil : stackCallables [] = 0 := rfl

@[simp] theorem stackCallables_cons (frame : Frame) (stack : List Frame) :
    stackCallables (frame :: stack) = frame.callables + stackCallables stack := by
  rw [stackCallables, List.map_cons, List.sum_cons, stackCallables]

theorem Spec.callables_task (spec : Spec) (id : TaskId) (deadline : Instant) :
    (spec.task id deadline).callables = (Request.schedule spec).callables := rfl

/-- A script brings about what its next call does, and what its rest does. -/
theorem Script.callables_of_head {s rest : Script} {r : Request} (h : s.head = .call r rest) :
    s.callables = r.callables + rest.callables := by
  cases s <;> simp [head] at h <;> obtain ⟨rfl, rfl⟩ := h <;>
    simp [callables, Request.callables] <;> omega

theorem Frame.callables_goOn (frame : Frame) (rest : Script) :
    (frame.goOn rest).callables + frame.rest.callables = frame.callables + rest.callables := by
  cases frame <;> simp only [goOn, callables, Frame.rest] <;> omega

namespace Queue

variable {q grown rest : Queue Script} {t : Task Script} {now : Instant}

@[simp] theorem callables_empty (limit : Option Nat) : (empty limit).callables = 0 := rfl

theorem callables_push (h : q.push t = .ok grown) :
    grown.callables = q.callables + t.callables := by
  rw [callables, ((perm_push h).map _).sum_nat, List.map_cons, List.sum_cons, Nat.add_comm,
    callables]

theorem callables_pop (h : q.pop? = some (t, rest)) :
    q.callables = rest.callables + t.callables := by
  rw [callables, ((perm_pop h).map _).sum_nat, List.map_cons, List.sum_cons, Nat.add_comm,
    callables]

theorem callables_popDue (h : q.popDue? now = some (t, rest)) :
    q.callables = rest.callables + t.callables :=
  callables_pop (pop_of_popDue h)

end Queue

/-- How many callables are begun in a step. -/
def Change.begun (c : Change) : Nat :=
  (c.events.flatMap (Event.startedIds .action)).length +
    (c.events.flatMap (Event.startedIds .callback)).length

namespace Executor

variable {e next last : Executor} {t : ThreadId} {a b : Activity} {c : Change} {v w : WorkerState}
variable {stack : List Frame}

/-- How many callables have been begun. -/
def begun (e : Executor) : Nat := (e.startedIds .action).length + (e.startedIds .callback).length

/-- The number of callables that the pending tasks and all threads can still bring about. -/
def callables (e : Executor) : Nat := e.guarded.pending.callables + e.total Activity.callables

theorem begun_after : (e.after t c b).begun = c.begun + e.begun := by
  simp only [begun, startedIds, gather_after, List.length_append, Change.begun]
  omega

theorem begun_afterTurn : (e.afterTurn c w).begun = c.begun + e.begun := by
  simp only [begun, startedIds, gather_afterTurn, List.length_append, Change.begun]
  omega

/-! ## Steps -/

/-- The first step of a call begins nothing, and leaves no more than there was and the call brings
in. -/
theorem Opens.charge {request : Request} (h : Opens e t stack request c b) :
    c.begun + c.guarded.pending.callables + b.callables ≤
      e.guarded.pending.callables + request.callables + stackCallables stack := by
  cases h with
  | make _ hd =>
    simp only [unchanged, Change.begun, Activity.callables, Control.callables,
      Spec.callables_task, List.flatMap_nil, List.length_nil]
    omega
  | cancelAll => simp [Change.begun, Activity.callables, Control.callables, Batch.ofQueue]
  | _ => simp [unchanged, Change.begun, Activity.callables, Control.callables]

/-- A panic that reaches a callable begins nothing, and leaves what the call brings about in which
the callable was run, if anything. -/
theorem Catches.charge {payload : Payload} {frame : Frame} (h : Catches e payload frame stack c b) :
    c.begun + c.guarded.pending.callables + b.callables ≤
      e.guarded.pending.callables + frame.callables + stackCallables stack := by
  cases h <;>
    simp [unchanged, Change.begun, Activity.callables, Control.callables, Nat.add_assoc]

/-- A panic that is raised begins nothing. -/
theorem Change.begun_raised (c : Change) (task : TaskId) (payload : Payload) :
    Change.begun { c with events := c.events ++ [.raised task payload] } = c.begun := by
  simp [Change.begun]

/-- What a step of a call or of a callable begins is taken from what it leaves. -/
theorem Local.charge (h : Local e t a c b) (ha : a ≠ .idle) :
    c.begun + c.guarded.pending.callables + b.callables ≤
      e.guarded.pending.callables + a.callables := by
  cases h with
  | opens => exact absurd rfl ha
  | @call frame stack request rest _ _ hh ho =>
    have hopens := ho.charge
    have hscript := Script.callables_of_head hh
    have hframe := frame.callables_goOn rest
    simp only [Activity.callables, Control.callables, stackCallables_cons] at hopens ⊢
    omega
  | raise hh hc =>
    have hcatch := hc.charge
    simp only [Change.begun_raised, Activity.callables, Control.callables,
      stackCallables_cons] at hcatch ⊢
    omega
  | unwind hc =>
    have hcatch := hc.charge
    simp only [Activity.callables, Control.callables, stackCallables_cons] at hcatch ⊢
    omega
  | leave => exact Nat.le_of_eq (Nat.zero_add _)
  | @accept task stack _ first hacc =>
    obtain ⟨-, -, pending, hpush, rfl, -⟩ := Guarded.accept_ok hacc
    have hqueue := Queue.callables_push hpush
    cases first
    all_goals
      show 0 + pending.callables + (0 + stackCallables stack) ≤
        e.guarded.pending.callables + (task.callables + stackCallables stack)
      omega
  | @letGo batch stack task tasks hp =>
    have hqueue := Queue.callables_pop hp
    show 0 + e.guarded.pending.callables + (tasks.callables + stackCallables stack) ≤
      e.guarded.pending.callables + (batch.tasks.callables + stackCallables stack)
    omega
  | @callBack batch stack task tasks script hp hs =>
    have hqueue := Queue.callables_pop hp
    have htask : task.callables = task.action.callables + 1 + (script.callables + 1) := by
      rw [Task.callables, hs, Option.map_some, Option.getD_some]
    show 1 + e.guarded.pending.callables +
        (0 + (script.callables + tasks.callables + stackCallables stack)) ≤
      e.guarded.pending.callables + (batch.tasks.callables + stackCallables stack)
    omega
  | drain => simp [Change.begun, Activity.callables, Control.callables, Batch.ofQueue]
  | _ =>
    simp [unchanged, Change.begun, Activity.callables, Control.callables, Frame.callables,
      Batch.goOn, Guarded.terminate]

/-- What the worker begins is taken from what it leaves. -/
theorem WorkerStep.charge (h : WorkerStep e v c w) :
    c.begun + c.guarded.pending.callables + w.part Activity.callables ≤
      e.guarded.pending.callables + v.part Activity.callables := by
  cases h with
  | @run task pending _ hp =>
    have hqueue := Queue.callables_popDue hp
    have htask : task.action.callables + 1 ≤ task.callables := Nat.le_add_right _ _
    show 1 + pending.callables + (0 + (task.action.callables + 0)) ≤
      e.guarded.pending.callables + 0
    omega
  | _ => simp [unchanged, Change.begun, Guarded.unwound]

/-! ## Runs -/

/-- What has been begun and what is still to come do not grow together. -/
def Spends (e next : Executor) : Prop := next.begun + next.callables ≤ e.begun + e.callables

theorem Spends.trans (h : e.Spends next) (hl : next.Spends last) : e.Spends last :=
  Nat.le_trans hl h

theorem spends_after (ha : e.activity? t = some a) (hl : Local e t a c b) (hne : a ≠ .idle) :
    e.Spends (e.after t c b) := by
  have hcharge := hl.charge hne
  have htotal := total_after_add (f := Activity.callables) (c := c) (b := b) rfl ha
  rw [Spends, begun_after, callables, guarded_after, callables]
  omega

theorem spends_afterTurn (hv : e.worker = v) (hw : WorkerStep e v c w) :
    e.Spends (e.afterTurn c w) := by
  have hcharge := hw.charge
  have htotal := total_afterTurn (f := Activity.callables) (c := c) (w := w) hv
  rw [Spends, begun_afterTurn, callables, guarded_afterTurn, callables]
  omega

/-- Every move but a call begins no more than it takes from what is there. -/
theorem spends_of_move (ho : e.Orderly) {m : Move} (hm : ∀ n request, m ≠ .call n request)
    (h : e.move? m = some next) : e.Spends next := by
  cases makes_of_move ho h with
  | opens => exact absurd rfl (hm _ _)
  | @goes t a _ ha hg =>
    have hne : a ≠ .idle := by
      rintro rfl
      cases advance_of_step ha h
    cases hg with
    | continues hl => exact spends_after ha hl hne
    | finishes ht hw => exact spends_afterTurn (activity?_worker.1 (ht ▸ ha)) hw
  | looks hv hw => exact spends_afterTurn hv hw
  | wakes hv => exact spends_afterTurn hv .wake
  | ticks => exact Nat.le_refl _

/-- Over a run in which no caller makes a call, whichever threads make steps, the callables that are
begun are among those that were there. -/
theorem spends_of_moves (ho : e.Orderly) {ms : List Move}
    (hm : ∀ m ∈ ms, ∀ n request, m ≠ .call n request) (h : e.moves? ms = some last) :
    e.Spends last := by
  induction ms generalizing e with
  | nil =>
    obtain rfl := Option.some.inj h
    exact Nat.le_refl _
  | cons m rest ih =>
    obtain ⟨next, hfirst, hrest⟩ := Option.bind_eq_some_iff.1 h
    obtain ⟨hcall, hcalls⟩ := List.forall_mem_cons.1 hm
    exact (spends_of_move ho hcall hfirst).trans
      (ih (ho.happens (happens_of_move ho hfirst)) hcalls hrest)

end Executor

end Deferred
