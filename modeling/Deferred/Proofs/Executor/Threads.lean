import Mathlib.Algebra.Ring.Nat
import Deferred.Executor.Weight
import Deferred.Proofs.Queue.Contents

/-!
# What the threads have in hand

A thread that makes a call or runs a callable has an activity. A number read off every activity can
be summed up over all threads, and changing one thread's activity changes the sum by that thread's
part alone.

* `Executor.activity?` is the activity of a thread; a worker that runs no action has none.
* `Executor.total` is the sum over all threads, `Executor.others` the sum over all but one.
* `total_of_activity`, `total_setActivity`: the part of one thread, before and after a change.
* `total_congr`: sums to which each thread contributes the same.
* `Stacked`: a caller runs callbacks only, and the worker callbacks inside one action.
-/

namespace Deferred

/-! ## Callables and batches in hand -/

namespace Frame

/-- The batch whose settling runs a callable. -/
def batches : Frame → List Batch
  | action _ _ _ _ => []
  | callback _ batch _ => [batch]

/-- Which of its task's callables a callable in progress is. -/
def role : Frame → Role
  | action _ _ _ _ => .action
  | callback _ _ _ => .callback

@[simp] theorem batches_goOn (frame : Frame) (rest : Script) :
    (frame.goOn rest).batches = frame.batches := by
  cases frame <;> rfl

@[simp] theorem role_goOn (frame : Frame) (rest : Script) : (frame.goOn rest).role = frame.role := by
  cases frame <;> rfl

@[simp] theorem task_goOn (frame : Frame) (rest : Script) : (frame.goOn rest).task = frame.task := by
  cases frame <;> rfl

end Frame

namespace Control

/-- The callable that has just ended. -/
def frames : Control → List Frame
  | ended frame _ => [frame]
  | _ => []

/-- The batch that is being settled. -/
def batches : Control → List Batch
  | settle batch => [batch]
  | ended frame _ => frame.batches
  | _ => []

/-- The task that has been made and not yet offered to the queue. -/
def offered : Control → List (Task Script)
  | enqueue task => [task]
  | _ => []

/-- Whether a panic is on its way to the next callable. -/
def unwinds : Control → Bool
  | unwind _ => true
  | _ => false

end Control

namespace Activity

/-- The callables in progress, the latest first. -/
def frames (a : Activity) : List Frame := a.control.frames ++ a.stack

/-- The batches that a thread is settling, the latest first. -/
def batches (a : Activity) : List Batch := a.control.batches ++ a.stack.flatMap Frame.batches

/-- How many tasks with numbers of a certain kind a thread has removed and not yet dealt with. -/
def held (p : TaskId → Bool) (a : Activity) : Nat := (a.batches.map (·.tasks.count p)).sum

/-- How many tasks with numbers of a certain kind a thread has made and not yet offered. -/
def offered (p : TaskId → Bool) (a : Activity) : Nat := a.control.offered.countP fun t => p t.id

/-- How many callables of a role a thread is running for tasks with numbers of a certain kind. -/
def running (role : Role) (p : TaskId → Bool) (a : Activity) : Nat :=
  a.frames.countP fun frame => frame.role = role && p frame.task

@[simp] theorem held_idle (p : TaskId → Bool) : idle.held p = 0 := rfl

@[simp] theorem offered_idle (p : TaskId → Bool) : idle.offered p = 0 := rfl

theorem eq_idle_of_isIdle {a : Activity} (h : a.isIdle = true) : a = idle := by
  unfold isIdle at h
  split at h
  · rfl
  · cases h

end Activity

/-- The callables that a thread can be running, the latest first: a caller's are all callbacks, and
the worker's are callbacks down to one action. -/
def Stacked (t : ThreadId) : List Frame → Prop
  | [] => t ≠ .worker
  | .action _ _ _ _ :: below => t = .worker ∧ below = []
  | .callback _ _ _ :: below => Stacked t below

/-- What is left of the callables in progress once a panic has gone through some of them. -/
def Activity.IsStacked (t : ThreadId) (a : Activity) : Prop :=
  if a.control.unwinds then a.stack = [] ∨ Stacked t a.stack else Stacked t a.frames

theorem Stacked.goOn {t : ThreadId} {frame : Frame} {stack : List Frame}
    (h : Stacked t (frame :: stack)) (rest : Script) : Stacked t (frame.goOn rest :: stack) := by
  cases frame <;> exact h

/-- Below a callable of a stack there is a stack again, or the callable is an action. -/
theorem Stacked.tail {t : ThreadId} {frame : Frame} {stack : List Frame}
    (h : Stacked t (frame :: stack)) :
    frame.role = .callback ∧ Stacked t stack ∨ frame.role = .action ∧ t = .worker ∧ stack = [] := by
  cases frame with
  | action => exact .inr ⟨rfl, h⟩
  | callback => exact .inl ⟨rfl, h⟩

namespace WorkerState

/-- The activity of the worker, if it runs an action. -/
def activity? : WorkerState → Option Activity
  | busy a => some a
  | _ => none

/-- The worker's part of a sum over all threads. -/
def part (f : Activity → Nat) (w : WorkerState) : Nat := (w.activity?.map f).getD 0

@[simp] theorem part_busy (f : Activity → Nat) (a : Activity) : (busy a).part f = f a := rfl

@[simp] theorem part_polling (f : Activity → Nat) : polling.part f = 0 := rfl

@[simp] theorem part_parked (f : Activity → Nat) (deadline : Option Instant) :
    (parked deadline).part f = 0 := rfl

@[simp] theorem part_stopped (f : Activity → Nat) : stopped.part f = 0 := rfl

@[simp] theorem part_died (f : Activity → Nat) (payload : Payload) :
    (died payload).part f = 0 := rfl

/-- The worker after somebody has woken it. -/
def woken : WorkerState → WorkerState
  | parked _ => polling
  | w => w

@[simp] theorem activity?_woken (w : WorkerState) : w.woken.activity? = w.activity? := by
  cases w <;> rfl

end WorkerState

namespace Executor

/-! ## Activities -/

/-- The activity of a thread. -/
def activity? (e : Executor) : ThreadId → Option Activity
  | .worker => e.worker.activity?
  | .caller n => some (e.caller n)

theorem activity?_worker {e : Executor} {a : Activity} :
    e.activity? .worker = some a ↔ e.worker = .busy a := by
  unfold activity? WorkerState.activity?
  cases e.worker <;> simp

@[simp] theorem caller_setCaller_self (e : Executor) (n : Nat) (b : Activity) :
    (e.setCaller n b).caller n = b := by
  have hn : n < e.callers.length + (n + 1 - e.callers.length) := by omega
  simp [setCaller, caller, hn]

theorem caller_setCaller_ne (e : Executor) {n m : Nat} (h : m ≠ n) (b : Activity) :
    (e.setCaller n b).caller m = e.caller m := by
  simp only [setCaller, caller, List.getElem?_set_ne h.symm]
  by_cases hm : m < e.callers.length
  · rw [List.getElem?_append_left hm]
  · rw [List.getElem?_append_right (Nat.le_of_not_lt hm), List.getElem?_replicate,
      List.getElem?_eq_none (Nat.le_of_not_lt hm)]
    split <;> rfl

@[simp] theorem activity?_setActivity_self (e : Executor) (b : Activity) (t : ThreadId) :
    (e.setActivity b t).activity? t = some b := by
  cases t with
  | worker => rfl
  | caller n => exact congrArg some (e.caller_setCaller_self n b)

theorem activity?_setActivity_ne (e : Executor) (b : Activity) {t u : ThreadId} (h : u ≠ t) :
    (e.setActivity b t).activity? u = e.activity? u := by
  cases t with
  | worker =>
    cases u with
    | worker => exact absurd rfl h
    | caller m => rfl
  | caller n =>
    cases u with
    | worker => rfl
    | caller m => exact congrArg some (e.caller_setCaller_ne (by rintro rfl; exact h rfl) b)

/-- What a thread did before does not show in its new activity. -/
@[simp] theorem setActivity_setActivity (e : Executor) (a b : Activity) (t : ThreadId) :
    (e.setActivity a t).setActivity b t = e.setActivity b t := by
  cases t with
  | worker => rfl
  | caller n =>
    have hlength : n + 1 - (e.callers.length + (n + 1 - e.callers.length)) = 0 := by omega
    simp [setActivity, setCaller, hlength]

/-! ## Sums over the threads -/

/-- The sum over all threads. -/
def total (f : Activity → Nat) (e : Executor) : Nat := e.worker.part f + (e.callers.map f).sum

/-- The sum over all threads but one. -/
def others (f : Activity → Nat) (e : Executor) : ThreadId → Nat
  | .worker => (e.callers.map f).sum
  | .caller n => e.worker.part f + ((e.callers.set n .idle).map f).sum

variable {f : Activity → Nat} {e : Executor} {t : ThreadId} {a : Activity}

theorem sumOf_eq_sum {α : Type} (f : α → Nat) (l : List α) : sumOf f l = (l.map f).sum := by
  induction l with
  | nil => rfl
  | cons a l ih => rw [sumOf, ih, List.map_cons, List.sum_cons]

/-- The part of a thread in the sum. -/
theorem total_of_activity (hf : f .idle = 0) (h : e.activity? t = some a) :
    e.total f = e.others f t + f a := by
  cases t with
  | worker =>
    rw [total, activity?_worker.1 h, WorkerState.part_busy, others, Nat.add_comm]
  | caller n =>
    obtain rfl : e.caller n = a := Option.some.inj h
    simp only [total, others, caller]
    cases hn : e.callers[n]? with
    | none =>
      rw [List.set_eq_of_length_le (List.getElem?_eq_none_iff.1 hn)]
      simp [hf]
    | some x =>
      have := sumOf_set f .idle hn
      rw [sumOf_eq_sum, sumOf_eq_sum] at this
      rw [Option.getD_some]
      omega

/-- Threads that do nothing do not count. -/
theorem sum_map_append_idle (hf : f .idle = 0) (l : List Activity) (k : Nat) :
    ((l ++ List.replicate k Activity.idle).map f).sum = (l.map f).sum := by
  simp [hf]

theorem set_append_idle (l : List Activity) (k n : Nat) :
    (l ++ List.replicate k Activity.idle).set n .idle =
      l.set n .idle ++ List.replicate k Activity.idle := by
  by_cases hn : n < l.length
  · rw [List.set_append_left _ _ hn]
  · have hn := Nat.le_of_not_lt hn
    rw [List.set_append_right _ _ hn, List.set_replicate_self, List.set_eq_of_length_le hn]

theorem others_setActivity (hf : f .idle = 0) (b : Activity) :
    (e.setActivity b t).others f t = e.others f t := by
  cases t with
  | worker => rfl
  | caller n =>
    have hw : (e.setCaller n b).worker = e.worker := rfl
    simp only [setActivity, others, hw]
    rw [setCaller, List.set_set, set_append_idle, sum_map_append_idle hf]

theorem total_setActivity (hf : f .idle = 0) (b : Activity) :
    (e.setActivity b t).total f = e.others f t + f b := by
  rw [total_of_activity hf (activity?_setActivity_self e b t), others_setActivity hf]

theorem le_total (hf : f .idle = 0) (h : e.activity? t = some a) : f a ≤ e.total f := by
  rw [total_of_activity hf h]
  exact Nat.le_add_left _ _

/-- The parts of two threads in the sum. -/
theorem add_le_total (hf : f .idle = 0) {u : ThreadId} {b : Activity} (ht : e.activity? t = some a)
    (hu : e.activity? u = some b) (hne : u ≠ t) : f a + f b ≤ e.total f := by
  have hle : f b ≤ (e.setActivity .idle t).total f :=
    le_total hf ((activity?_setActivity_ne e _ hne).trans hu)
  rw [total_setActivity hf, hf] at hle
  rw [total_of_activity hf ht]
  omega

theorem total_add (f g : Activity → Nat) (e : Executor) :
    e.total (fun a => f a + g a) = e.total f + e.total g := by
  have hworker : e.worker.part (fun a => f a + g a) = e.worker.part f + e.worker.part g := by
    cases e.worker <;> rfl
  have hcallers : ∀ l : List Activity,
      (l.map fun a => f a + g a).sum = (l.map f).sum + (l.map g).sum := by
    intro l
    induction l with
    | nil => rfl
    | cons a l ih =>
      simp only [List.map_cons, List.sum_cons, ih]
      omega
  rw [total, hworker, hcallers, total, total]
  omega

/-- A sum over callers none of which contributes. -/
theorem sum_map_eq_zero {l : List Activity} (h : ∀ n : Nat, f ((l[n]?).getD .idle) = 0) :
    (l.map f).sum = 0 := by
  rw [List.sum_eq_zero_iff_forall_eq_nat]
  intro x hx
  obtain ⟨y, hy, rfl⟩ := List.mem_map.1 hx
  obtain ⟨n, hn⟩ := List.getElem?_of_mem hy
  have := h n
  rwa [hn] at this

/-- A sum to which no thread contributes. -/
theorem total_eq_zero (hw : ∀ a, e.worker = .busy a → f a = 0) (hc : ∀ n, f (e.caller n) = 0) :
    e.total f = 0 := by
  have hworker : e.worker.part f = 0 := by
    cases h : e.worker with
    | busy a => exact hw a h
    | _ => rfl
  rw [total, hworker, sum_map_eq_zero hc]

/-- Two sums over callers, each of whom contributes the same to both. -/
theorem sum_map_congr (hf : f .idle = 0) {l k : List Activity}
    (h : ∀ n : Nat, f ((l[n]?).getD .idle) = f ((k[n]?).getD .idle)) :
    (l.map f).sum = (k.map f).sum := by
  induction l generalizing k with
  | nil => exact (sum_map_eq_zero fun n => (h n).symm.trans hf).symm
  | cons a l ih =>
    cases k with
    | nil => exact sum_map_eq_zero fun n => (h n).trans hf
    | cons b k =>
      have hfirst : f a = f b := h 0
      rw [List.map_cons, List.sum_cons, List.map_cons, List.sum_cons, hfirst, ih fun n => h (n + 1)]

/-- Two sums over all threads, each of which contributes the same to both. -/
theorem total_congr {last : Executor} (hf : f .idle = 0)
    (h : ∀ t, ((e.activity? t).map f).getD 0 = ((last.activity? t).map f).getD 0) :
    e.total f = last.total f := by
  have hworker : e.worker.part f = last.worker.part f := h .worker
  rw [total, total, hworker, sum_map_congr hf fun n => h (.caller n)]

/-! ## Quiet -/

/-- No call is in progress, and no callable. -/
structure Quiet (e : Executor) : Prop where
  callers : ∀ n, e.caller n = .idle
  worker : ∀ a, e.worker ≠ .busy a

theorem Quiet.eq_idle (h : e.Quiet) (ha : e.activity? t = some a) : a = .idle := by
  cases t with
  | worker => exact absurd (activity?_worker.1 ha) (h.worker a)
  | caller n => exact (Option.some.inj ha).symm.trans (h.callers n)

theorem Quiet.total (h : e.Quiet) (hf : f .idle = 0) : e.total f = 0 :=
  total_eq_zero (fun a ha => absurd ha (h.worker a)) fun n => by rw [h.callers n, hf]

end Executor

end Deferred
