import Deferred.Proofs.Queue.Contents

/-!
# The order of a queue

A queue gives out the task on top of its heap, before which none of the others is run. If all tasks
have numbers of their own, it is run before all the others.

* `Queue.not_before_of_pop`: no task that is left is run before the one given out.
* `Queue.due_of_popDue`: a task that is given out because it is due is due.
* `Queue.nextDeadline?_le`: the first deadline is the earliest.
* `Task.before_of_not_before`: two tasks with different numbers are not run at the same place.
-/

namespace Deferred

namespace Task

variable {α : Type} {a b : Task α}

/-- Of two tasks with different numbers, one is run before the other. -/
theorem before_of_not_before (h : b.before a = false) (hne : b.id ≠ a.id) : a.before b = true := by
  have hnumber : b.id.number ≠ a.id.number := fun hn => hne (congrArg TaskId.mk hn)
  rw [Bool.eq_false_iff, ne_eq, before_iff] at h
  rw [before_iff]
  omega

/-- The order in terms of deadlines and numbers. -/
theorem before_iff_lt_or_eq : a.before b = true ↔
    a.deadline < b.deadline ∨ a.deadline = b.deadline ∧ a.id.number < b.id.number := by
  rw [before, Bool.or_eq_true, Bool.and_eq_true]
  simp only [decide_eq_true_eq]

end Task

namespace Queue

variable {α : Type} {q rest : Queue α} {t : Task α}

/-- The task that is given out lies on top of the heap, and what was below it is left. -/
theorem heap_of_pop (h : q.pop? = some (t, rest)) :
    ∃ left right, q.heap = .node t left right ∧ rest.heap = .merge left right := by
  have hpop := heap_pop h
  cases hq : q.heap with
  | empty =>
    rw [hq] at hpop
    cases hpop
  | node u left right =>
    rw [hq] at hpop
    obtain ⟨rfl, hrest⟩ : u = t ∧ Heap.merge left right = rest.heap := by
      simpa [Heap.pop?] using hpop
    exact ⟨left, right, rfl, hrest.symm⟩

/-- No task that is left is run before the one that is given out. -/
theorem not_before_of_pop (h : q.pop? = some (t, rest)) : ∀ u ∈ rest.tasks, u.before t = false := by
  obtain ⟨left, right, hq, hrest⟩ := heap_of_pop h
  have hordered := q.ordered
  rw [hq] at hordered
  intro u hu
  rw [tasks, hrest, (Heap.perm_merge left right).mem_iff, List.mem_append] at hu
  rcases hu with hu | hu
  · exact hordered.1 u hu
  · exact hordered.2.1 u hu

/-- A task that is given out because it is due is due. -/
theorem due_of_popDue {now : Instant} (h : q.popDue? now = some (t, rest)) : t.deadline ≤ now := by
  obtain ⟨left, right, hq, -⟩ := heap_of_pop (pop_of_popDue h)
  have hfirst : q.first? = some t := by rw [first?, hq, Heap.top?]
  rw [popDue?, hfirst] at h
  simp only at h
  split at h
  next hdue => exact of_decide_eq_true hdue
  · cases h

/-- The first deadline is the earliest. -/
theorem nextDeadline?_le {deadline : Instant} (h : q.nextDeadline? = some deadline) :
    ∀ u ∈ q.tasks, deadline ≤ u.deadline := by
  obtain ⟨top, htop, rfl⟩ := Option.map_eq_some_iff.1 h
  have hordered := q.ordered
  rw [first?] at htop
  intro u hu
  rw [tasks] at hu
  cases hq : q.heap with
  | empty =>
    rw [hq] at htop
    cases htop
  | node t left right =>
    rw [hq] at htop hordered hu
    obtain rfl := Option.some.inj htop
    rw [Heap.toList, List.mem_cons, List.mem_append] at hu
    have hbefore : u.before t = false := by
      rcases hu with rfl | hu | hu
      · exact Task.before_irrefl u
      · exact hordered.1 u hu
      · exact hordered.2.1 u hu
    rw [Bool.eq_false_iff, ne_eq, Task.before_iff] at hbefore
    rw [Instant.le_iff]
    omega

end Queue

end Deferred
