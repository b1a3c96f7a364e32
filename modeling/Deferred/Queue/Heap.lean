import Deferred.Task

/-!
# Heaps of tasks

A skew heap: a binary tree in which no task is run before the one above it. All operations are
merges, and a merge swaps the branches it walks through, which keeps the tree shallow on average.

* `Heap.Ordered` is the order of the tree, `Heap.toList` its tasks from the root down.
* `Heap.merge` joins two heaps; `Heap.insert` and `Heap.pop?` are merges.
* `ordered_merge`: a merge of ordered heaps is ordered.
-/

namespace Deferred

/-- A binary tree of tasks. -/
inductive Heap (α : Type)
  /-- No task. -/
  | empty
  /-- A task above two heaps. -/
  | node (task : Task α) (left right : Heap α)

namespace Heap

variable {α : Type}

/-- The tasks of a heap, each before those below it. -/
def toList : Heap α → List (Task α)
  | empty => []
  | node t left right => t :: (left.toList ++ right.toList)

/-- The number of tasks. -/
def size : Heap α → Nat
  | empty => 0
  | node _ left right => left.size + right.size + 1

/-- The task on top. -/
def top? : Heap α → Option (Task α)
  | empty => none
  | node t _ _ => some t

/-- No task of a heap is run before `t`. -/
def Above (t : Task α) (h : Heap α) : Prop := ∀ u ∈ h.toList, u.before t = false

/-- No task is run before the one above it. -/
def Ordered : Heap α → Prop
  | empty => True
  | node t left right => Above t left ∧ Above t right ∧ left.Ordered ∧ right.Ordered

/-! ## Merging -/

/-- Merges the heap of `t`, `left` and `right` into another one; `intoRight` merges into `right`. -/
def weave (t : Task α) (left right : Heap α) (intoRight : Heap α → Heap α) : Heap α → Heap α
  | empty => node t left right
  | node u uleft uright =>
    if u.before t then node u (weave t left right intoRight uright) uleft
    else node t (intoRight (node u uleft uright)) left

/-- Joins two heaps. -/
def merge : Heap α → Heap α → Heap α
  | empty => id
  | node t left right => weave t left right right.merge

/-- A heap with one more task. -/
def insert (h : Heap α) (t : Task α) : Heap α := merge (node t empty empty) h

/-- The task on top, and the heap without it. -/
def pop? : Heap α → Option (Task α × Heap α)
  | empty => none
  | node t left right => some (t, merge left right)

/-! ## What a merge holds, and its order -/

theorem size_eq_length (h : Heap α) : h.size = h.toList.length := by
  induction h with
  | empty => rfl
  | node t left right ihl ihr => simp [size, toList, ihl, ihr]

theorem perm_weave (t : Task α) (left right : Heap α) (intoRight : Heap α → Heap α)
    (hm : ∀ h, (intoRight h).toList.Perm (right.toList ++ h.toList)) (h : Heap α) :
    (weave t left right intoRight h).toList.Perm ((node t left right).toList ++ h.toList) := by
  induction h with
  | empty => simp [weave, toList]
  | node u uleft uright _ ih =>
    unfold weave
    split
    · refine ((ih.append_right _).cons u).trans (List.Perm.trans ?_ List.perm_middle.symm)
      rw [List.append_assoc]
      exact (List.perm_append_comm.append_left _).cons u
    · refine ((hm _).append_right _).cons t |>.trans ?_
      refine List.Perm.cons t (List.perm_append_comm.trans ?_)
      simp [toList]

/-- A merge holds the tasks of both heaps. -/
theorem perm_merge (a b : Heap α) : (merge a b).toList.Perm (a.toList ++ b.toList) := by
  induction a generalizing b with
  | empty => simp [merge, toList]
  | node t left right _ ih => exact perm_weave t left right _ ih b

/-- Inserting adds one task. -/
theorem perm_insert (h : Heap α) (t : Task α) : (h.insert t).toList.Perm (t :: h.toList) :=
  perm_merge (node t empty empty) h

/-- Popping takes one task away. -/
theorem perm_pop {h rest : Heap α} {t : Task α} (hp : h.pop? = some (t, rest)) :
    h.toList.Perm (t :: rest.toList) := by
  cases h with
  | empty => simp [pop?] at hp
  | node u left right =>
    obtain ⟨rfl, rfl⟩ : u = t ∧ merge left right = rest := by simpa [pop?] using hp
    exact (perm_merge left right).symm.cons u

theorem Above.of_perm {t : Task α} {h : Heap α} {l : List (Task α)} (hp : h.toList.Perm l)
    (hl : ∀ u ∈ l, u.before t = false) : Above t h :=
  fun u hu => hl u (hp.mem_iff.1 hu)

/-- What lies above the top of an ordered heap lies above all of it. -/
theorem Above.of_top {t u : Task α} {left right : Heap α} (h : (node u left right).Ordered)
    (htu : u.before t = false) : Above t (node u left right) := by
  intro v hv
  simp only [toList, List.mem_cons, List.mem_append] at hv
  rcases hv with rfl | hv | hv
  · exact htu
  · exact Task.not_before_trans htu (h.1 v hv)
  · exact Task.not_before_trans htu (h.2.1 v hv)

theorem ordered_weave {t : Task α} {left right : Heap α} {intoRight : Heap α → Heap α}
    (ho : (node t left right).Ordered)
    (hp : ∀ h, (intoRight h).toList.Perm (right.toList ++ h.toList))
    (hm : ∀ h, h.Ordered → (intoRight h).Ordered) {h : Heap α} (hh : h.Ordered) :
    (weave t left right intoRight h).Ordered := by
  induction h with
  | empty => exact ho
  | node u uleft uright _ ih =>
    unfold weave
    split
    next hut =>
      refine ⟨?_, hh.1, ih hh.2.2.2, hh.2.2.1⟩
      refine Above.of_perm (perm_weave t left right intoRight hp uright) ?_
      intro v hv
      rcases List.mem_append.1 hv with hv | hv
      · exact Above.of_top ho (Task.before_asymm hut) v hv
      · exact hh.2.1 v hv
    next hut =>
      refine ⟨?_, ho.1, hm _ hh, ho.2.2.1⟩
      refine Above.of_perm (hp _) ?_
      intro v hv
      rcases List.mem_append.1 hv with hv | hv
      · exact ho.2.1 v hv
      · exact Above.of_top hh (by simpa using hut) v hv

/-- A merge of ordered heaps is ordered. -/
theorem ordered_merge {a b : Heap α} (ha : a.Ordered) (hb : b.Ordered) : (merge a b).Ordered := by
  induction a generalizing b with
  | empty => exact hb
  | node t left right _ ih =>
    exact ordered_weave ha (perm_merge right) (fun _ hh => ih ha.2.2.2 hh) hb

theorem ordered_insert {h : Heap α} (ho : h.Ordered) (t : Task α) : (h.insert t).Ordered :=
  ordered_merge ⟨by simp [Above, toList], by simp [Above, toList], trivial, trivial⟩ ho

theorem ordered_pop {h rest : Heap α} {t : Task α} (ho : h.Ordered)
    (hp : h.pop? = some (t, rest)) : rest.Ordered := by
  cases h with
  | empty => simp [pop?] at hp
  | node u left right =>
    obtain ⟨-, rfl⟩ : u = t ∧ merge left right = rest := by simpa [pop?] using hp
    exact ordered_merge ho.2.2.1 ho.2.2.2

end Heap

end Deferred
