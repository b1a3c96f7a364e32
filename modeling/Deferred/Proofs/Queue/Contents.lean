import Deferred.Guarded
import Mathlib.Data.List.Basic

/-!
# What a queue holds

The tasks of a queue as a list, up to its order, and what every operation does to them.

* `Queue.perm_push`, `Queue.perm_pop`: a push adds one task, a pop takes one away.
* `Queue.push_eq_error`: a push is refused exactly when the queue is full.
* `Queue.perm_drain`: draining gives out every task once.
* `Queue.first?_push`: after a push, the first task is the new one or the one that was first before.
* `Guarded.accept_ok`, `Guarded.accept_error`, `Guarded.poll_run`: the sections under the lock, in
  terms of the queue.
-/

namespace Deferred

namespace Queue

variable {α : Type}

/-- The tasks of a queue, in no particular order. -/
def tasks (q : Queue α) : List (Task α) := q.heap.toList

/-- How many tasks of a queue have a number of a certain kind. -/
def count (p : TaskId → Bool) (q : Queue α) : Nat := q.tasks.countP fun t => p t.id

@[simp] theorem count_empty (p : TaskId → Bool) (limit : Option Nat) :
    (empty limit : Queue α).count p = 0 := rfl

theorem length_tasks (q : Queue α) : q.tasks.length = q.size := (Heap.size_eq_length _).symm

theorem isEmpty_iff {q : Queue α} : q.isEmpty = true ↔ q.tasks = [] := by
  unfold isEmpty tasks
  cases q.heap <;> simp [Heap.top?, Heap.toList]

/-! ## Pushing and popping -/

theorem perm_push {q grown : Queue α} {t : Task α} (h : q.push t = .ok grown) :
    grown.tasks.Perm (t :: q.tasks) := by
  rw [eq_of_push h]
  exact Heap.perm_insert q.heap t

theorem perm_pop {q rest : Queue α} {t : Task α} (h : q.pop? = some (t, rest)) :
    q.tasks.Perm (t :: rest.tasks) :=
  Heap.perm_pop (heap_pop h)

theorem pop_of_popDue {q rest : Queue α} {t : Task α} {now : Instant}
    (h : q.popDue? now = some (t, rest)) : q.pop? = some (t, rest) := by
  unfold popDue? at h
  split at h
  · split at h
    · exact h
    · cases h
  · cases h

theorem tasks_eq_nil_of_pop {q : Queue α} (h : q.pop? = none) : q.tasks = [] := by
  unfold pop? at h
  split at h
  next hp =>
    unfold tasks
    cases hh : q.heap with
    | empty => rfl
    | node => simp [hh, Heap.pop?] at hp
  · cases h

theorem mem_push {q grown : Queue α} {t u : Task α} (h : q.push t = .ok grown) :
    u ∈ grown.tasks ↔ u = t ∨ u ∈ q.tasks :=
  (perm_push h).mem_iff.trans List.mem_cons

theorem mem_pop {q rest : Queue α} {t u : Task α} (h : q.pop? = some (t, rest)) :
    u ∈ q.tasks ↔ u = t ∨ u ∈ rest.tasks :=
  (perm_pop h).mem_iff.trans List.mem_cons

/-- A task of a queue counts among those with its number. -/
theorem count_pos {q : Queue α} {t : Task α} (h : t ∈ q.tasks) : 0 < q.count (· == t.id) :=
  List.countP_pos_iff.2 ⟨t, h, beq_self_eq_true _⟩

theorem count_push {q grown : Queue α} {t : Task α} (h : q.push t = .ok grown)
    (p : TaskId → Bool) : grown.count p = q.count p + [t.id].countP p := by
  unfold count
  rw [(perm_push h).countP_eq, List.countP_cons]
  simp [List.countP_singleton]

theorem count_pop {q rest : Queue α} {t : Task α} (h : q.pop? = some (t, rest))
    (p : TaskId → Bool) : q.count p = rest.count p + [t.id].countP p := by
  unfold count
  rw [(perm_pop h).countP_eq, List.countP_cons]
  simp [List.countP_singleton]

theorem size_pop {q rest : Queue α} {t : Task α} (h : q.pop? = some (t, rest)) :
    q.size = rest.size + 1 := by
  rw [← length_tasks, (perm_pop h).length_eq, List.length_cons, length_tasks]

theorem size_push {q grown : Queue α} {t : Task α} (h : q.push t = .ok grown) :
    grown.size = q.size + 1 := by
  rw [← length_tasks, (perm_push h).length_eq, List.length_cons, length_tasks]

/-! ## The limit -/

theorem limit_of_push {q grown : Queue α} {t : Task α} (h : q.push t = .ok grown) :
    grown.limit = q.limit := by
  rw [eq_of_push h]

theorem limit_of_pop {q rest : Queue α} {t : Task α} (h : q.pop? = some (t, rest)) :
    rest.limit = q.limit := by
  unfold pop? at h
  split at h
  · cases h
  · obtain ⟨-, rfl⟩ := Prod.mk.inj (Option.some.inj h)
    rfl

/-- A push is refused exactly when the limit is reached. -/
theorem push_eq_error {q : Queue α} {t : Task α} {error : Error} :
    q.push t = .error error ↔
      ∃ capacity, q.limit = some capacity ∧ capacity ≤ q.size ∧ error = .queueFull capacity := by
  unfold push
  cases hl : q.limit with
  | none => simp
  | some capacity =>
    by_cases hc : capacity ≤ q.size
    · simp [hc, eq_comm]
    · simp [hc]

/-- A queue that takes a task has room for it. -/
theorem lt_of_push {q grown : Queue α} {t : Task α} {capacity : Nat} (h : q.push t = .ok grown)
    (hl : q.limit = some capacity) : q.size < capacity := by
  refine Nat.lt_of_not_le fun hc => ?_
  rw [push_eq_error.2 ⟨capacity, hl, hc, rfl⟩] at h
  cases h

/-! ## Draining -/

theorem perm_popMany (n : Nat) (q : Queue α) (h : q.size ≤ n) : (popMany n q).Perm q.tasks := by
  induction n generalizing q with
  | zero =>
    have hq : q.tasks = [] := List.length_eq_zero_iff.1 (by rw [length_tasks]; omega)
    rw [hq]
    exact List.Perm.refl _
  | succ n ih =>
    unfold popMany
    split
    next hp =>
      rw [tasks_eq_nil_of_pop hp]
    next t rest hp =>
      have hs := size_pop hp
      exact ((ih rest (by omega)).cons t).trans (perm_pop hp).symm

/-- Draining gives out every task once. -/
theorem perm_drain (q : Queue α) : q.drain.Perm q.tasks := perm_popMany _ q (Nat.le_refl _)

theorem countP_ids (q : Queue α) (p : TaskId → Bool) : q.ids.countP p = q.count p := by
  unfold ids
  rw [List.countP_map, q.perm_drain.countP_eq]
  rfl

theorem mem_ids {q : Queue α} {id : TaskId} : id ∈ q.ids ↔ ∃ t ∈ q.tasks, t.id = id := by
  unfold ids
  simp only [List.mem_map, q.perm_drain.mem_iff]

theorem length_ids (q : Queue α) : q.ids.length = q.size := by
  rw [ids, List.length_map, q.perm_drain.length_eq, length_tasks]

/-! ## The first task -/

theorem top?_insert (h : Heap α) (t : Task α) :
    (h.insert t).top? = some t ∨ (h.insert t).top? = h.top? ∧ ∃ u, h.top? = some u := by
  cases h with
  | empty => exact .inl rfl
  | node u left right =>
    simp only [Heap.insert, Heap.merge, Heap.weave]
    split
    · exact .inr ⟨rfl, u, rfl⟩
    · exact .inl rfl

/-- After a push, the first task is the new one or the one that was first before. -/
theorem first?_push {q grown : Queue α} {t : Task α} (h : q.push t = .ok grown) :
    grown.first? = some t ∨ grown.first? = q.first? ∧ ∃ u, q.first? = some u := by
  rw [eq_of_push h]
  exact top?_insert q.heap t

theorem nextDeadline?_eq_none {q : Queue α} (h : q.nextDeadline? = none) : q.tasks = [] := by
  unfold nextDeadline? first? at h
  unfold tasks
  cases hq : q.heap with
  | empty => rfl
  | node u left right => simp [hq, Heap.top?] at h

end Queue

/-! ## Sections under the lock -/

namespace Guarded

variable {α : Type}

/-- A task is accepted by a live worker that is not ending, if the queue takes it. -/
theorem accept_ok {g grown : Guarded α} {t : Task α} {first : Bool}
    (h : g.accept t = .ok (grown, first)) :
    g.workerPanicked = false ∧ g.terminating = false ∧
      ∃ pending, g.pending.push t = .ok pending ∧ grown = { g with pending } ∧
        first = decide (pending.firstId? = some t.id) := by
  unfold accept at h
  split at h
  · cases h
  next hp =>
    split at h
    · cases h
    next ht =>
      split at h
      · cases h
      next pending hpush =>
        obtain ⟨rfl, rfl⟩ : _ = grown ∧ _ = first := by simpa using h
        exact ⟨by simpa using hp, by simpa using ht, pending, hpush, rfl, rfl⟩

/-- A task is refused because the worker is dead, or else because it is ending, or else because the
queue is full. -/
theorem accept_error {g : Guarded α} {t : Task α} {error : Error} :
    g.accept t = .error error ↔
      g.workerPanicked = true ∧ error = .workerDead ∨
        g.workerPanicked = false ∧ (g.terminating = true ∧ error = .shutDown ∨
          g.terminating = false ∧ ∃ capacity, g.pending.limit = some capacity ∧
            capacity ≤ g.pending.size ∧ error = .queueFull capacity) := by
  unfold accept
  cases g.workerPanicked with
  | true => simpa using eq_comm
  | false =>
    cases g.terminating with
    | true => simpa using eq_comm
    | false =>
      rw [← Queue.push_eq_error (t := t)]
      cases g.pending.push t <;> simp

/-- The worker runs the task that it pops, unless it is to end. -/
theorem poll_run {g rest : Guarded α} {t : Task α} {now : Instant}
    (h : g.poll now = (.run t, rest)) :
    g.terminating = false ∧
      ∃ pending, g.pending.popDue? now = some (t, pending) ∧ rest = { g with pending } := by
  unfold poll at h
  split at h
  · simp at h
  next ht =>
    split at h
    next pending hpop =>
      obtain ⟨rfl, rfl⟩ : _ = t ∧ _ = rest := by simpa using h
      exact ⟨by simpa using ht, pending, hpop, rfl⟩
    · simp at h
    · simp at h

/-- The worker ends only if it is to. -/
theorem poll_stop {g rest : Guarded α} {now : Instant} (h : g.poll now = (.stop, rest)) :
    g.terminating = true := by
  unfold poll at h
  split at h
  next ht => exact ht
  next ht => split at h <;> simp at h

/-- A worker that goes to sleep is not to end, and finds no task due. -/
theorem poll_sleep {g rest : Guarded α} {now : Instant} {next : Poll α}
    (h : g.poll now = (next, rest)) (hs : next ≠ .stop) (hr : ∀ task, next ≠ .run task) :
    g.terminating = false ∧ g.pending.popDue? now = none := by
  unfold poll at h
  split at h
  · exact absurd (congrArg Prod.fst h).symm hs
  next ht =>
    refine ⟨by simpa using ht, ?_⟩
    split at h
    next task pending hpop => exact absurd (congrArg Prod.fst h).symm (hr task)
    next hnone hnext => exact hnone
    next hnone hnext => exact hnone

end Guarded

end Deferred
