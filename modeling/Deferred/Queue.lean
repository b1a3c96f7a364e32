import Deferred.Queue.Heap
import Deferred.Sum

/-!
# The queue of pending tasks

A queue gives out its tasks in the order in which they are run. It may have a limit, beyond which
it refuses further tasks.

* `Queue.push` adds a task or refuses it; `Queue.pop?` and `Queue.popDue?` give out the first task.
* `Queue.takeAll` moves all tasks into a queue of their own.
* `Queue.sum` sums up a number over the tasks; `sum_push` and `sum_pop` follow it.
-/

namespace Deferred

/-- The pending tasks, and how many there may be. -/
structure Queue (α : Type) where
  heap : Heap α := .empty
  limit : Option Nat := none
  ordered : heap.Ordered := by trivial

namespace Queue

variable {α : Type}

/-- A queue without tasks. -/
def empty (limit : Option Nat) : Queue α := { limit }

instance : Inhabited (Queue α) := ⟨empty none⟩

/-- The number of tasks. -/
def size (q : Queue α) : Nat := q.heap.size

/-- Whether there is no task. -/
def isEmpty (q : Queue α) : Bool := q.heap.top?.isNone

/-- The task that is run first. -/
def first? (q : Queue α) : Option (Task α) := q.heap.top?

/-- The deadline of the task that is run first. -/
def nextDeadline? (q : Queue α) : Option Instant := q.first?.map (·.deadline)

/-- The number of the task that is run first. -/
def firstId? (q : Queue α) : Option TaskId := q.first?.map (·.id)

/-- Adds a task, unless the limit is reached. There is always memory for one more task:
`Error.outOfMemory`, for a queue that could not grow, is never the answer. -/
def push (q : Queue α) (t : Task α) : Except Error (Queue α) :=
  let grown : Queue α := ⟨q.heap.insert t, q.limit, Heap.ordered_insert q.ordered t⟩
  match q.limit with
  | some capacity => if capacity ≤ q.size then .error (.queueFull capacity) else .ok grown
  | none => .ok grown

/-- The task that is run first, and the queue without it. -/
def pop? (q : Queue α) : Option (Task α × Queue α) :=
  match h : q.heap.pop? with
  | none => none
  | some (t, rest) => some (t, ⟨rest, q.limit, Heap.ordered_pop q.ordered h⟩)

/-- The task that is run first is the one on top of the heap. -/
theorem heap_pop {q rest : Queue α} {t : Task α} (h : q.pop? = some (t, rest)) :
    q.heap.pop? = some (t, rest.heap) := by
  unfold pop? at h
  split at h
  · simp at h
  next t' rest' heq =>
    obtain ⟨rfl, rfl⟩ : t' = t ∧ (⟨rest', q.limit, _⟩ : Queue α) = rest := by simpa using h
    exact heq

/-- An accepted task is inserted into the heap. -/
theorem eq_of_push {q grown : Queue α} {t : Task α} (h : q.push t = .ok grown) :
    grown = ⟨q.heap.insert t, q.limit, Heap.ordered_insert q.ordered t⟩ := by
  unfold push at h
  cases hl : q.limit with
  | none => simpa [hl] using h.symm
  | some capacity =>
    simp only [hl] at h
    split at h
    · simp at h
    · simpa [hl] using h.symm

/-- The task that is run first and the queue without it, if that task is due. -/
def popDue? (q : Queue α) (now : Instant) : Option (Task α × Queue α) :=
  match q.first? with
  | some t => if t.isDue now then q.pop? else none
  | none => none

/-- A task whose deadline has come is given out. -/
theorem popDue_ne_none {q : Queue α} {now deadline : Instant}
    (h : q.nextDeadline? = some deadline) (hd : deadline ≤ now) : q.popDue? now ≠ none := by
  obtain ⟨t, ht, rfl⟩ := Option.map_eq_some_iff.1 h
  simp only [popDue?, ht, Task.isDue, hd, decide_true, if_true]
  unfold pop?
  split
  next hp =>
    unfold first? at ht
    cases hh : q.heap with
    | empty => simp [hh, Heap.top?] at ht
    | node => simp [hh, Heap.pop?] at hp
  · simp

/-- All tasks in a queue of their own, and the queue that is left. -/
def takeAll (q : Queue α) : Queue α × Queue α := (q, empty q.limit)

/-- Gives out up to `n` tasks, the first one first. -/
def popMany : Nat → Queue α → List (Task α)
  | 0, _ => []
  | n + 1, q =>
    match q.pop? with
    | none => []
    | some (t, rest) => t :: popMany n rest

/-- The tasks in the order in which they are run. -/
def drain (q : Queue α) : List (Task α) := popMany q.size q

/-- The numbers of the tasks in the order in which they are run. -/
def ids (q : Queue α) : List TaskId := q.drain.map Task.id

/-! ## Sums over the tasks -/

/-- The sum of a number over the tasks. -/
def sum (f : Task α → Nat) (q : Queue α) : Nat := sumOf f q.heap.toList

theorem sum_push (f : Task α → Nat) {q grown : Queue α} {t : Task α} (h : q.push t = .ok grown) :
    grown.sum f = q.sum f + f t := by
  obtain rfl := eq_of_push h
  simp only [sum]
  rw [sumOf_perm f (Heap.perm_insert q.heap t), sumOf]
  omega

theorem sum_pop (f : Task α → Nat) {q rest : Queue α} {t : Task α}
    (h : q.pop? = some (t, rest)) : q.sum f = rest.sum f + f t := by
  simp only [sum]
  rw [sumOf_perm f (Heap.perm_pop (heap_pop h)), sumOf]
  omega

end Queue

end Deferred
