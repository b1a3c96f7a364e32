import Deferred.Executor.Step

/-!
# How many steps are left

A number that bounds the steps that all threads together can take before they wait: for each other,
for a caller, or for time to pass. A call is charged for the task that it schedules, and a task for
its callables and for the worker's sleep before it.

* `Executor.weight` is that number, the sum over what is pending and what is in progress.
* `Guarded.weight_accept`, `Guarded.weight_poll`: what the operations under the lock do to it.
-/

namespace Deferred

/-! ## Weights -/

/-- A bound on the steps that running a script, and every task that it schedules, can take. -/
def Script.weight : Script → Nat
  | done => 0
  | schedule _ _ action next => action.weight + next.weight + 10
  | scheduleWithCancel _ _ action onCancel next =>
    action.weight + onCancel.weight + next.weight + 10
  | cancelAll next | pending next | threadName next | shutdown next | drop next
  | panic _ next => next.weight + 8

/-- A bound on the steps that a call can take, with the tasks that it schedules. -/
def Request.weight : Request → Nat
  | schedule spec => spec.action.weight + (spec.onCancel.map Script.weight).getD 0 + 10
  | cancelAll | pending | threadName | shutdown | drop => 8

/-- A bound on the steps that a pending task can take, with the worker's sleep before it. -/
def Task.weight (t : Task Script) : Nat :=
  t.action.weight + (t.onCancel.map Script.weight).getD 0 + 5

/-- A bound on the steps that the tasks of a queue can take. -/
def Queue.weight (q : Queue Script) : Nat := q.sum Task.weight

/-- A bound on the steps that settling a batch can take. -/
def Batch.weight (b : Batch) : Nat := b.tasks.weight + 2

/-- A bound on the steps that a callable in progress can take. -/
def Frame.weight : Frame → Nat
  | action _ _ _ rest => rest.weight + 3
  | callback _ batch rest => rest.weight + batch.weight + 1

/-- A bound on the steps that a thread can take before it comes back to its callables. -/
def Control.weight : Control → Nat
  | ready => 1
  | enqueue task => task.weight + 5
  | notify _ => 4
  | record _ => 2
  | settle batch => batch.weight
  | ended frame _ => frame.weight
  | unwind _ => 2
  | abort => 0
  | flag _ => 7
  | rouse _ => 6
  | join _ => 4
  | drain _ _ => 3

/-- A bound on the steps that a stack of callables in progress can take. -/
def stackWeight (stack : List Frame) : Nat := sumOf Frame.weight stack

/-- A bound on the steps that a thread can take. -/
def Activity.weight (a : Activity) : Nat := a.control.weight + stackWeight a.stack

/-- A bound on the steps that the worker can take before it has no task. -/
def WorkerState.weight : WorkerState → Nat
  | polling => 2
  | busy activity => activity.weight
  | parked _ => 1
  | stopped | died _ => 0

/-- A bound on the steps that all threads together can take, the end of the process included. -/
def Executor.weight (e : Executor) : Nat :=
  e.guarded.pending.weight + e.worker.weight + sumOf Activity.weight e.callers +
    (!e.aborted).toNat

/-! ## Weights of scripts and queues -/

theorem Request.le_weight (r : Request) : 8 ≤ r.weight := by
  cases r <;> simp [weight]

theorem Script.weight_of_head {s rest : Script} {r : Request} (h : s.head = .call r rest) :
    s.weight = r.weight + rest.weight := by
  cases s <;> simp [head] at h <;> obtain ⟨rfl, rfl⟩ := h <;>
    simp [weight, Request.weight] <;> omega

theorem Frame.weight_goOn (frame : Frame) (rest : Script) :
    (frame.goOn rest).weight + frame.rest.weight = frame.weight + rest.weight := by
  cases frame <;> simp only [goOn, weight, Frame.rest] <;> omega

theorem Frame.one_lt_weight (frame : Frame) : 1 < frame.weight := by
  cases frame <;> simp only [weight, Batch.weight] <;> omega

theorem Batch.weight_goOn (b : Batch) : b.goOn.weight = b.weight := rfl

theorem Batch.weight_ofQueue (purpose : Purpose) (tasks : Queue Script) :
    (ofQueue purpose tasks).weight = tasks.weight + 2 := rfl

theorem Queue.weight_pop {q rest : Queue Script} {t : Task Script} (h : q.pop? = some (t, rest)) :
    q.weight = rest.weight + t.weight := sum_pop Task.weight h

theorem Queue.weight_popDue {q rest : Queue Script} {t : Task Script} {now : Instant}
    (h : q.popDue? now = some (t, rest)) : q.weight = rest.weight + t.weight := by
  unfold popDue? at h
  split at h
  · split at h
    · exact weight_pop h
    · simp at h
  · simp at h

theorem Guarded.weight_accept {g grown : Guarded Script} {t : Task Script} {first : Bool}
    (h : g.accept t = .ok (grown, first)) :
    grown.pending.weight = g.pending.weight + t.weight := by
  unfold accept at h
  split at h
  · simp at h
  split at h
  · simp at h
  split at h
  · simp at h
  next pending hpush =>
    obtain ⟨rfl, -⟩ : { g with pending } = grown ∧ _ := by simpa using h
    exact Queue.sum_push Task.weight hpush

theorem Guarded.weight_poll {g rest : Guarded Script} {t : Task Script} {now : Instant}
    (h : g.poll now = (.run t, rest)) : g.pending.weight = rest.pending.weight + t.weight := by
  unfold poll at h
  split at h
  · simp at h
  split at h
  next hpop =>
    obtain ⟨rfl, rfl⟩ : _ = t ∧ _ = rest := by simpa using h
    exact Queue.weight_popDue hpop
  · simp at h
  · simp at h

theorem Guarded.weight_takeAll (g : Guarded Script) :
    g.takeAll.1.weight = g.pending.weight ∧ g.takeAll.2.pending.weight = 0 := by
  simp [takeAll, Queue.takeAll, Queue.empty, Queue.weight, Queue.sum, Heap.toList, sumOf]

end Deferred
