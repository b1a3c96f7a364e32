import Deferred.Proofs.Telemetry.Values
import Mathlib.Algebra.Order.Floor.Div
import Mathlib.GroupTheory.GroupAction.Ring
import Mathlib.Data.List.MinMax
import Mathlib.Data.List.Sort

/-!
# How accurate the statistics of a histogram are

A quantile is the highest value of the cell in which the cumulative count reaches a rank. The value
of that rank, counted from the smallest one, lies in the same cell, because cells and values are in
the same order. So the quantile is that value, but for the width of a cell.

* `nthSmallest?` is the value of a rank, and `Histogram.nthSmallest?_eq` says where it stands.
* `Histogram.reach_counts`: the cumulative count reaches a rank in the cell of the rank's value.
* `Histogram.quantile_ofValues`, `Histogram.maximum_ofValues`: the statistics of some values.
* `Histogram.approximates_highest`: how close they come to the values.
-/

namespace Deferred

/-- The `k`-th smallest of some values, `k` counted from one. -/
def nthSmallest? (values : List Nat) (k : Nat) : Option Nat := (values.mergeSort (· ≤ ·))[k - 1]?

/-- How a value may be reported: exactly below 2048, and otherwise as a number above it by less than
a 1024th. -/
structure Approximates (reported value : Nat) : Prop where
  exact : value < 2048 → reported = value
  le : value ≤ reported
  close : 2048 ≤ value → 1024 * (reported - value) < value

namespace Histogram

variable {values : List Nat} {k u v : Nat}

/-! ## Values and their ranks -/

/-- The `k`-th smallest of some values is where it stands when they are in order. -/
theorem nthSmallest?_eq {sorted : List Nat} (hp : values.Perm sorted)
    (hs : sorted.Pairwise (· ≤ ·)) (k : Nat) : nthSmallest? values k = sorted[k - 1]? := by
  have hsort : values.mergeSort (· ≤ ·) = sorted :=
    List.Perm.eq_of_sortedLE values.sortedLE_mergeSort hs.sortedLE
      ((values.mergeSort_perm (· ≤ ·)).trans hp)
  rw [nthSmallest?, hsort]

theorem exists_nthSmallest (hk : 0 < k) (hle : k ≤ values.length) :
    ∃ v, nthSmallest? values k = some v ∧ v ∈ values := by
  have hlt : k - 1 < (values.mergeSort (· ≤ ·)).length := by
    rw [List.length_mergeSort]
    omega
  exact ⟨_, List.getElem?_eq_getElem hlt, List.mem_mergeSort.1 (List.getElem_mem hlt)⟩

theorem nthSmallest_mono {j : Nat} (hjk : j ≤ k) (hu : nthSmallest? values j = some u)
    (hv : nthSmallest? values k = some v) : u ≤ v := by
  obtain ⟨hj, rfl⟩ := List.getElem?_eq_some_iff.1 hu
  obtain ⟨hk, rfl⟩ := List.getElem?_eq_some_iff.1 hv
  exact values.sortedLE_mergeSort.getElem_le_getElem_of_le (Nat.sub_le_sub_right hjk 1)

/-- The values below the `k`-th smallest are fewer than `k`, and those up to it are as many; so are
those whose cells are. -/
theorem countP_nthSmallest {f : Nat → Nat} (hf : Monotone f) (hk : 0 < k)
    (h : nthSmallest? values k = some v) :
    values.countP (f · < f v) < k ∧ k ≤ values.countP (f · < f v + 1) := by
  obtain ⟨hlt, hv⟩ := List.getElem?_eq_some_iff.1 h
  have hsorted := (values.sortedLE_mergeSort).getElem_le_getElem_of_le
  rw [← (values.mergeSort_perm (· ≤ ·)).countP_eq, ← (values.mergeSort_perm (· ≤ ·)).countP_eq]
  generalize values.mergeSort (· ≤ ·) = sorted at hlt hv hsorted ⊢
  constructor
  · -- none of the values from the `k`-th smallest on is below it
    have hdrop : (sorted.drop (k - 1)).countP (f · < f v) = 0 := by
      refine List.countP_eq_zero.2 fun u hu => ?_
      obtain ⟨j, hj, rfl⟩ := List.mem_drop_iff_getElem.1 hu
      have hle : sorted[k - 1] ≤ sorted[k - 1 + j] := hsorted (Nat.le_add_right ..)
      simpa using hf (hv ▸ hle)
    have hle : (sorted.take (k - 1)).countP (f · < f v) ≤ (sorted.take (k - 1)).length :=
      List.countP_le_length
    have hsum := congrArg (List.countP (f · < f v)) (List.take_append_drop (k - 1) sorted)
    rw [List.countP_append, hdrop] at hsum
    rw [List.length_take] at hle
    omega
  · have htake : (sorted.take k).countP (f · < f v + 1) = (sorted.take k).length := by
      refine List.countP_eq_length.2 fun u hu => ?_
      obtain ⟨j, hj, rfl⟩ := List.mem_take_iff_getElem.1 hu
      have hle : sorted[j] ≤ sorted[k - 1] := hsorted (by omega)
      simpa using Nat.lt_succ_of_le (hf (hv ▸ hle))
    have hle := (List.take_sublist k sorted).countP_le (p := (f · < f v + 1))
    rw [htake, List.length_take] at hle
    omega

/-- The greatest value is the last one. -/
theorem foldr_max_eq (h : nthSmallest? values values.length = some v) (hne : values ≠ []) :
    values.foldr max 0 = v := by
  have hmem : v ∈ values := List.mem_mergeSort.1 (List.mem_of_getElem? h)
  have hcount := (countP_nthSmallest monotone_id (List.length_pos_iff.2 hne) h).2
  have hall := List.countP_eq_length.1 (Nat.le_antisymm List.countP_le_length hcount)
  refine Nat.le_antisymm (List.max_le_of_forall_le values v fun u hu => ?_)
    (List.le_max_of_le hmem (Nat.le_refl v))
  exact Nat.le_of_lt_succ (of_decide_eq_true (hall u hu))

/-! ## The statistics of some values -/

/-- The cumulative count reaches a rank in the first cell up to which as many values are counted. -/
theorem reach_eq_some {counts : List Nat} {rank c : Nat} (index : Nat) (hc : c < counts.length)
    (hlt : (counts.take c).sum < rank) (hle : rank ≤ (counts.take (c + 1)).sum) :
    reach rank counts index = some (index + c) := by
  induction counts generalizing rank c index with
  | nil => cases hc
  | cons count counts ih =>
    cases c with
    | zero => simp_all [reach]
    | succ c =>
      rw [List.take_succ_cons, List.sum_cons] at hlt hle
      have hrest : reach (rank - count) counts (index + 1) = some (index + 1 + c) :=
        ih (index + 1) (Nat.lt_of_succ_lt_succ hc) (by omega) (by omega)
      rw [reach, if_neg (by omega), hrest, Nat.add_right_comm, Nat.add_assoc]

/-- The cumulative count reaches a rank in the cell of the value of that rank. -/
theorem reach_counts (hk : 0 < k) (h : nthSmallest? values k = some v) :
    reach k (ofValues values).counts.toList 0 = some (cell v) := by
  have hcell := cell_lt_cellsForAll (List.mem_mergeSort.1 (List.mem_of_getElem? h))
  obtain ⟨hlt, hle⟩ := countP_nthSmallest (fun _ _ => cell_mono) hk h
  rw [← sum_take_counts values (by omega)] at hlt hle
  rw [reach_eq_some 0 (by rwa [Array.length_toList, size_counts]) hlt hle, Nat.zero_add]

/-- A quantile is the highest value of the cell of the value of its rank. -/
theorem quantile_ofValues {percent : Nat} (hk : rank values.length percent = k)
    (h : nthSmallest? values k = some v) :
    (ofValues values).quantile percent = highest (cell v) := by
  have hpos : 0 < k := hk ▸ Nat.le_max_left ..
  have hrank : rank (ofValues values).total percent = k := hk
  rw [quantile, hrank, reach_counts hpos h]

/-- The maximum is the highest value of the cell of the greatest value. -/
theorem maximum_ofValues (h : nthSmallest? values values.length = some v) (hne : values ≠ [])
    (hv : v < ceiling) : (ofValues values).maximum = highest (cell v) := by
  have hgreatest : (ofValues values).greatest = v := foldr_max_eq h hne
  rw [maximum, hgreatest, if_neg (Nat.ne_of_lt hv)]
  split
  next hzero =>
    rw [hzero]
    rfl
  · rfl

theorem rank_eq_ceilDiv {total percent : Nat} (h : 0 < total * percent) :
    rank total percent = (total * percent) ⌈/⌉ 100 := by
  rw [rank, Nat.ceilDiv_eq_add_pred_div]
  exact Nat.max_eq_right (Nat.div_pos (by omega) (by decide))

/-! ## Accuracy -/

/-- The highest value of its cell stands for a value. -/
theorem approximates_highest (h : v < ceiling) : Approximates (highest (cell v)) v where
  exact := highest_of_lt
  le := le_highest h
  close := highest_sub_lt

theorem toNat_highest (c : Nat) : (highest c).toUInt64.toNat = highest c :=
  UInt64.toNat_ofNat_of_lt ((highest_lt_ceiling c).trans (by decide))

end Histogram

end Deferred
