import Deferred.Proofs.Telemetry.Cells
import Mathlib.Algebra.BigOperators.Group.List.Basic
import Mathlib.Data.List.Induction

/-!
# The histogram of some values

What a histogram says depends on the values recorded alone: not on their order, nor on when the
array of cells was made to grow.

* `Histogram.ofValues` is the histogram of some values, read off all of them at once.
* `Histogram.foldl_record`: recording the values one after the other comes to that histogram, and
  `Histogram.ofValues_perm`: in whatever order.
* `Histogram.sum_take_counts`: the cumulative counts, and `Histogram.sum_counts`: all values are
  counted.
-/

namespace Deferred

namespace Histogram

/-- How many cells an array has that covers some values; it begins with 2048. -/
def cellsForAll (values : List Nat) : Nat := values.foldr (fun v n => max (cellsFor v) n) 2048

/-- The histogram of some values: of each cell, how many of them lie in it. -/
def ofValues (values : List Nat) : Histogram where
  counts := Array.ofFn fun c : Fin (cellsForAll values) => values.countP (cell · = c)
  total := values.length
  greatest := values.foldr max 0

variable {values : List Nat} {v : Nat}

/-! ## Which cells there are -/

theorem le_cellsForAll (values : List Nat) : 2048 ≤ cellsForAll values := by
  induction values with
  | nil => exact Nat.le_refl _
  | cons v values ih => exact ih.trans (Nat.le_max_right ..)

/-- There are whole rows of cells. -/
theorem dvd_cellsForAll (values : List Nat) : 1024 ∣ cellsForAll values := by
  induction values with
  | nil => exact ⟨2, rfl⟩
  | cons v values ih =>
    have hcons : cellsForAll (v :: values) = max (cellsFor v) (cellsForAll values) := rfl
    rcases max_choice (cellsFor v) (cellsForAll values) with h | h
    · rw [hcons, h]
      exact Nat.dvd_mul_left ..
    · rw [hcons, h]
      exact ih

theorem cell_lt_cellsForAll (h : v ∈ values) : cell v < cellsForAll values := by
  induction values with
  | nil => cases h
  | cons u values ih =>
    rcases List.mem_cons.1 h with rfl | h
    · exact (cell_lt_cellsFor v).trans_le (Nat.le_max_left ..)
    · exact (ih h).trans_le (Nat.le_max_right ..)

@[simp] theorem size_counts (values : List Nat) :
    (ofValues values).counts.size = cellsForAll values :=
  Array.size_ofFn

theorem getElem_counts {c : Nat} (h : c < (ofValues values).counts.size) :
    (ofValues values).counts[c] = values.countP (cell · = c) :=
  Array.getElem_ofFn h

/-- What is counted in a cell, be there such a cell or not. -/
theorem getD_counts (values : List Nat) (c : Nat) :
    (ofValues values).counts[c]?.getD 0 = values.countP (cell · = c) := by
  by_cases hc : c < (ofValues values).counts.size
  · rw [Array.getElem?_eq_getElem hc, Option.getD_some, getElem_counts]
  · -- the cells of all values are there
    rw [Array.getElem?_eq_none (Nat.le_of_not_lt hc), Option.getD_none]
    refine (List.countP_eq_zero.2 fun v hv => ?_).symm
    have := cell_lt_cellsForAll hv
    rw [size_counts] at hc
    simp only [decide_eq_true_eq]
    omega

/-! ## Recording one more value -/

theorem eq_of_counts {h k : Histogram} (hcounts : h.counts = k.counts) (htotal : h.total = k.total)
    (hgreatest : h.greatest = k.greatest) : h = k := by
  obtain ⟨_, _, _⟩ := h
  obtain ⟨_, _, _⟩ := k
  simp_all

/-- An array of whole rows grows to the rows that a value needs, if it has not got them. -/
theorem size_cover {counts : Array Nat} (hrows : 1024 ∣ counts.size) (hn : 2048 ≤ counts.size) :
    (cover counts v).size = max (cellsFor v) counts.size := by
  have hiff := cell_lt_iff (v := v) hrows hn
  unfold cover
  split
  · omega
  · rw [Array.size_append, Array.size_replicate]
    omega

/-- Nothing is counted in the cells by which an array grows. -/
theorem getElem_cover {counts : Array Nat} {c : Nat} (h : c < (cover counts v).size) :
    (cover counts v)[c] = counts[c]?.getD 0 := by
  unfold cover at h ⊢
  split
  next hcell =>
    rw [if_pos hcell] at h
    simp [h]
  · rw [Array.getElem_append]
    split
    next hc => simp [hc]
    next hc =>
      rw [Array.getElem_replicate, Array.getElem?_eq_none (Nat.le_of_not_lt hc), Option.getD_none]

/-- One more value is counted in its cell, for which the array grows if it has to. -/
theorem record_ofValues (values : List Nat) (v : Nat) :
    (ofValues values).record v = ofValues (v :: values) := by
  have hsize : (cover (ofValues values).counts v).size = cellsForAll (v :: values) := by
    rw [size_cover, size_counts]
    · rfl
    · exact size_counts values ▸ dvd_cellsForAll values
    · exact size_counts values ▸ le_cellsForAll values
  refine eq_of_counts (Array.ext ?_ fun c hc hc' => ?_) rfl (Nat.max_comm ..)
  · rw [record, Array.size_modify, hsize, size_counts]
  · simp only [record]
    rw [Array.getElem_modify, getElem_cover, getD_counts, getElem_counts, List.countP_cons]
    by_cases h : cell v = c <;> simp [h]

theorem ofValues_nil : ofValues [] = {} := by
  refine eq_of_counts (Array.ext ?_ fun c hc hc' => ?_) rfl rfl
  · rw [size_counts, Array.size_replicate]
    rfl
  · rw [getElem_counts, List.countP_nil, Array.getElem_replicate]

/-! ## Recording all values -/

/-- The order of the values does not matter. -/
theorem ofValues_perm {others : List Nat} (h : values.Perm others) :
    ofValues values = ofValues others := by
  have hmax : ∀ (f : Nat → Nat) (n : Nat),
      values.foldr (fun v n => max (f v) n) n = others.foldr (fun v n => max (f v) n) n :=
    fun f => h.foldr_eq' fun u _ v _ n => Nat.max_left_comm (f v) (f u) n
  refine eq_of_counts (Array.ext ?_ fun c hc hc' => ?_) h.length_eq (hmax id 0)
  · rw [size_counts, size_counts]
    exact hmax cellsFor 2048
  · rw [getElem_counts, getElem_counts]
    exact h.countP_eq _

/-- Recording values one after the other comes to the histogram of the values. -/
theorem foldl_record (values : List Nat) : values.foldl record {} = ofValues values := by
  induction values using List.reverseRecOn with
  | nil => exact ofValues_nil.symm
  | append_singleton values v ih =>
    rw [List.foldl_append, ih, List.foldl_cons, List.foldl_nil, record_ofValues]
    exact ofValues_perm (List.perm_append_singleton v values).symm

/-! ## Cumulative counts -/

theorem countP_lt_succ (f : Nat → Nat) (values : List Nat) (c : Nat) :
    values.countP (f · < c + 1) = values.countP (f · < c) + values.countP (f · = c) := by
  induction values with
  | nil => rfl
  | cons v values ih =>
    rw [List.countP_cons, List.countP_cons, List.countP_cons, ih]
    simp only [decide_eq_true_eq]
    split_ifs <;> omega

/-- In the cells below one lie the values whose cells are below it. -/
theorem sum_take_counts (values : List Nat) {c : Nat} (h : c ≤ cellsForAll values) :
    ((ofValues values).counts.toList.take c).sum = values.countP (cell · < c) := by
  induction c with
  | zero => simp
  | succ c ih =>
    have hc : c < (ofValues values).counts.toList.length := by
      rw [Array.length_toList, size_counts]
      exact h
    rw [List.sum_take_succ _ _ hc, ih (by omega), Array.getElem_toList, getElem_counts]
    exact (countP_lt_succ cell values c).symm

/-- All values are counted. -/
theorem sum_counts (values : List Nat) : (ofValues values).counts.toList.sum = values.length := by
  have hsum := sum_take_counts values (Nat.le_refl _)
  rw [List.take_of_length_le (by rw [Array.length_toList, size_counts])] at hsum
  rw [hsum, List.countP_eq_length]
  exact fun v hv => decide_eq_true (cell_lt_cellsForAll hv)

end Histogram

end Deferred
