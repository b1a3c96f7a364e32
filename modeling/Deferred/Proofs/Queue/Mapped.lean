import Deferred.Proofs.Queue.Contents

/-!
# Tasks with other callables

Which task runs first is a matter of deadlines and numbers. If the callables of all tasks are
exchanged for others, then a queue takes and gives out the same tasks as before, and whatever
happens under the lock comes to the same.

* `Task.map`, `Heap.map`, `Queue.map`, `Guarded.map`: the callables are exchanged.
* `Queue.push_map`, `Queue.pop?_map`, `Queue.popDue?_map`, `Queue.drain_map`: the operations of a
  queue.
* `Guarded.accept_map`, `Guarded.poll_map`: the sections under the lock.
-/

namespace Deferred

variable {α β : Type} (f : α → β)

/-- A task with its callables exchanged. -/
def Task.map (t : Task α) : Task β where
  id := t.id
  label := t.label
  due := t.due
  deadline := t.deadline
  action := f t.action
  onCancel := t.onCancel.map f

@[simp] theorem task_map_id : Task.map (id : α → α) = id := by
  funext t
  simp [Task.map]

@[simp] theorem Task.before_map (t u : Task α) : (t.map f).before (u.map f) = t.before u := rfl

@[simp] theorem Task.isDue_map (t : Task α) (now : Instant) :
    (t.map f).isDue now = t.isDue now := rfl

@[simp] theorem Task.isCancelable_map (t : Task α) : (t.map f).isCancelable = t.isCancelable :=
  Option.isSome_map

/-! ## Heaps -/

namespace Heap

/-- A heap with the callables of its tasks exchanged. -/
def map : Heap α → Heap β
  | empty => empty
  | node t left right => node (t.map f) left.map right.map

@[simp] theorem toList_map (h : Heap α) : (h.map f).toList = h.toList.map (Task.map f) := by
  induction h with
  | empty => rfl
  | node t left right ihl ihr => simp [map, toList, ihl, ihr]

@[simp] theorem size_map (h : Heap α) : (h.map f).size = h.size := by
  rw [size_eq_length, toList_map, List.length_map, ← size_eq_length]

@[simp] theorem top?_map (h : Heap α) : (h.map f).top? = h.top?.map (Task.map f) := by
  cases h <;> rfl

variable {f}

theorem Above.map {t : Task α} {h : Heap α} (ha : Above t h) : Above (t.map f) (h.map f) := by
  intro v hv
  rw [toList_map] at hv
  obtain ⟨u, hu, rfl⟩ := List.mem_map.1 hv
  exact ha u hu

theorem Ordered.map {h : Heap α} (ho : h.Ordered) : (h.map f).Ordered := by
  induction h with
  | empty => trivial
  | node t left right ihl ihr =>
    obtain ⟨hl, hr, hol, hor⟩ := ho
    exact ⟨hl.map, hr.map, ihl hol, ihr hor⟩

theorem weave_map {t : Task α} {left right : Heap α} {intoRight : Heap α → Heap α}
    {intoRight' : Heap β → Heap β} (hi : ∀ h, intoRight' (h.map f) = (intoRight h).map f)
    (h : Heap α) :
    weave (t.map f) (left.map f) (right.map f) intoRight' (h.map f) =
      (weave t left right intoRight h).map f := by
  induction h with
  | empty => rfl
  | node u uleft uright _ ih =>
    by_cases hut : u.before t = true
    · simp only [map, weave, Task.before_map, hut, if_true, ih]
    · have hi := hi (node u uleft uright)
      simp only [map] at hi
      simp only [map, weave, Task.before_map, hut, if_false, hi, Bool.false_eq_true]

theorem merge_map (a b : Heap α) : merge (a.map f) (b.map f) = (merge a b).map f := by
  induction a generalizing b with
  | empty => rfl
  | node t left right _ ih => exact weave_map ih b

theorem insert_map (h : Heap α) (t : Task α) :
    (h.map f).insert (t.map f) = (h.insert t).map f :=
  merge_map (node t empty empty) h

theorem pop?_map (h : Heap α) :
    (h.map f).pop? = h.pop?.map fun popped => (popped.1.map f, popped.2.map f) := by
  cases h with
  | empty => rfl
  | node t left right => exact congrArg (fun rest => some (t.map f, rest)) (merge_map left right)

end Heap

/-! ## Queues -/

namespace Queue

/-- A queue with the callables of its tasks exchanged. -/
def map (q : Queue α) : Queue β := ⟨q.heap.map f, q.limit, Heap.Ordered.map q.ordered⟩

variable (q : Queue α)

@[simp] theorem limit_map : (q.map f).limit = q.limit := rfl

@[simp] theorem size_map : (q.map f).size = q.size := Heap.size_map f q.heap

@[simp] theorem first?_map : (q.map f).first? = q.first?.map (Task.map f) := Heap.top?_map f q.heap

@[simp] theorem isEmpty_map : (q.map f).isEmpty = q.isEmpty := by
  rw [isEmpty, isEmpty, ← first?, first?_map, Option.isNone_map]
  rfl

@[simp] theorem nextDeadline?_map : (q.map f).nextDeadline? = q.nextDeadline? := by
  rw [nextDeadline?, first?_map, Option.map_map]
  rfl

@[simp] theorem firstId?_map : (q.map f).firstId? = q.firstId? := by
  rw [firstId?, first?_map, Option.map_map]
  rfl

/-- Queues with the same heap and the same limit are the same. -/
theorem eq_of_heap {q r : Queue α} (hh : q.heap = r.heap) (hl : q.limit = r.limit) : q = r := by
  obtain ⟨heap, limit, ordered⟩ := q
  obtain rfl : heap = r.heap := hh
  obtain rfl : limit = r.limit := hl
  rfl

theorem push_map (t : Task α) : (q.map f).push (t.map f) = (q.push t).map (map f) := by
  have hgrown : (⟨(q.map f).heap.insert (t.map f), q.limit,
      Heap.ordered_insert (q.map f).ordered (t.map f)⟩ : Queue β) =
      map f ⟨q.heap.insert t, q.limit, Heap.ordered_insert q.ordered t⟩ :=
    eq_of_heap (Heap.insert_map q.heap t) rfl
  unfold push
  simp only [size_map, limit_map, hgrown]
  cases q.limit with
  | none => rfl
  | some capacity =>
    simp only
    split <;> rfl

theorem pop?_map : (q.map f).pop? = q.pop?.map fun popped => (popped.1.map f, popped.2.map f) := by
  have hheap := Heap.pop?_map (f := f) q.heap
  cases hp : q.pop? with
  | none =>
    have hnone : (q.map f).heap.pop? = none := by
      change (q.heap.map f).pop? = none
      unfold pop? at hp
      split at hp
      next h => rw [hheap, h, Option.map_none]
      · cases hp
    unfold pop?
    split
    · rfl
    next h => rw [hnone] at h; cases h
  | some popped =>
    obtain ⟨t, rest⟩ := popped
    have hsome : (q.map f).heap.pop? = some (t.map f, rest.heap.map f) := by
      change (q.heap.map f).pop? = _
      rw [hheap, heap_pop hp, Option.map_some]
    unfold pop?
    split
    next h => rw [hsome] at h; cases h
    next t' rest' h =>
      rw [hsome] at h
      obtain ⟨rfl, rfl⟩ := Prod.mk.inj (Option.some.inj h)
      exact congrArg (fun q => some (t.map f, q)) (eq_of_heap rfl (limit_of_pop hp).symm)

theorem popDue?_map (now : Instant) :
    (q.map f).popDue? now = (q.popDue? now).map fun popped => (popped.1.map f, popped.2.map f) := by
  unfold popDue?
  rw [first?_map]
  cases q.first? with
  | none => rfl
  | some t =>
    simp only [Option.map_some, Task.isDue_map]
    by_cases hd : t.isDue now = true
    · simp only [hd, if_true, pop?_map]
    · simp only [hd, if_false, Option.map_none, Bool.false_eq_true]

theorem popMany_map (n : Nat) : popMany n (q.map f) = (popMany n q).map (Task.map f) := by
  induction n generalizing q with
  | zero => rfl
  | succ n ih =>
    simp only [popMany, pop?_map]
    cases q.pop? with
    | none => rfl
    | some popped => exact congrArg (popped.1.map f :: ·) (ih popped.2)

theorem drain_map : (q.map f).drain = q.drain.map (Task.map f) := by
  rw [drain, size_map, popMany_map, drain]

@[simp] theorem ids_map : (q.map f).ids = q.ids := by
  rw [ids, drain_map, List.map_map]
  rfl

end Queue

/-! ## Sections under the lock -/

namespace Guarded

/-- The guarded state with the callables of the pending tasks exchanged. -/
def map (g : Guarded α) : Guarded β where
  pending := g.pending.map f
  terminating := g.terminating
  workerPanicked := g.workerPanicked

/-- What the worker is to do, with the callables of the task that it is to run exchanged. -/
def Poll.map : Poll α → Poll β
  | stop => stop
  | park => park
  | parkUntil deadline => parkUntil deadline
  | run task => run (task.map f)

variable (g : Guarded α)

theorem accept_map (t : Task α) :
    (g.map f).accept (t.map f) = (g.accept t).map fun taken => (taken.1.map f, taken.2) := by
  obtain ⟨pending, terminating, workerPanicked⟩ := g
  unfold accept
  simp only [map, Queue.push_map]
  split
  · rfl
  split
  · rfl
  cases pending.push t with
  | error error => rfl
  | ok grown => simp only [Except.map, Queue.firstId?_map]; rfl

theorem poll_map (now : Instant) :
    (g.map f).poll now = ((g.poll now).1.map f, (g.poll now).2.map f) := by
  obtain ⟨pending, terminating, workerPanicked⟩ := g
  unfold poll
  simp only [map, Queue.popDue?_map, Queue.nextDeadline?_map]
  split
  · rfl
  cases pending.popDue? now with
  | some popped => rfl
  | none => cases pending.nextDeadline? <;> rfl

end Guarded

end Deferred
