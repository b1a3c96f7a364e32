import Deferred.Telemetry.Report
import Mathlib.Algebra.Order.Ring.Nat
import Mathlib.Tactic.Ring
import Mathlib.Tactic.SplitIfs

/-!
# The range of the numbers of a report

The times and counters of a snapshot have 64 bits, so that what is computed from them for a report
stays far below the end of the range of the binary format. Bounds are powers of two, which rounding
does not exceed.

* `Binary64.IsAtMost` is such a bound.
* `Binary64.isAtMost_ofRatio`: a quotient below a power of two is not rounded beyond it.
* `Report.isFinite_microseconds`, `Report.isFinite_seconds`, `Report.isFinite_utilization`: the
  numbers of a report are in range.
-/

namespace Deferred

namespace Binary64

variable {x y : Binary64} {num den n k : Nat}

/-- A number is at most `2 ^ k`. -/
def IsAtMost (x : Binary64) (k : Nat) : Prop := x.num ≤ x.den * 2 ^ k

theorem den_pos (x : Binary64) : 0 < x.den := by
  rw [den, Nat.one_shiftLeft]
  exact Nat.two_pow_pos _

/-! ## Rounding -/

theorem floorLog2_lt (hnum : num ≠ 0) (h : num < den * 2 ^ k) : floorLog2 num den < k := by
  simp only [floorLog2]
  split_ifs with hle
  · by_contra hge
    have hneg : (-((num.log2 : Int) - den.log2)).toNat = 0 := by omega
    have hk : k ≤ ((num.log2 : Int) - den.log2).toNat := by omega
    rw [hneg, Nat.shiftLeft_zero, Nat.shiftLeft_eq] at hle
    have hmul := Nat.mul_le_mul_left den (Nat.pow_le_pow_right Nat.two_pos hk)
    omega
  · have hlog : num.log2 < den.log2 + 1 + k := by
      rw [Nat.log2_lt hnum, Nat.pow_add]
      exact h.trans_le (Nat.mul_le_mul_right _ Nat.lt_log2_self.le)
    omega

theorem isAtMost_mk {m j : Nat} {e : Int} {h : m < 1 <<< 53} (hm : m ≤ 2 ^ j) (he : e + j ≤ k) :
    IsAtMost ⟨m, e, h⟩ k := by
  rw [IsAtMost, num, den, Nat.shiftLeft_eq, Nat.one_shiftLeft, ← Nat.pow_add]
  calc m * 2 ^ e.toNat
      ≤ 2 ^ j * 2 ^ e.toNat := Nat.mul_le_mul_right _ hm
    _ = 2 ^ (j + e.toNat) := (Nat.pow_add ..).symm
    _ ≤ 2 ^ ((-e).toNat + k) := Nat.pow_le_pow_right Nat.two_pos (by omega)

/-- A quotient below a power of two is not rounded beyond it. -/
theorem isAtMost_ofRatio (h : num < den * 2 ^ k) : (ofRatio num den).IsAtMost k := by
  rw [ofRatio]
  split_ifs with hzero
  · exact Nat.zero_le _
  · have hlog := floorLog2_lt hzero h
    have hmin : minExponent = -1074 := rfl
    dsimp only
    split_ifs with hq
    · exact isAtMost_mk (j := 53) (by rw [Nat.one_shiftLeft] at hq; omega) (by omega)
    · exact isAtMost_mk (j := 52) (by decide) (by omega)

theorem isAtMost_ofNat (h : n < 2 ^ k) : (ofNat n).IsAtMost k :=
  isAtMost_ofRatio (by rwa [Nat.one_mul])

/-! ## Arithmetic -/

theorem isAtMost_add (hx : x.IsAtMost k) (hy : y.IsAtMost k) : (x + y).IsAtMost (k + 2) := by
  refine isAtMost_ofRatio ?_
  have hpos := Nat.mul_pos (Nat.mul_pos x.den_pos y.den_pos) (Nat.two_pow_pos k)
  calc x.num * y.den + y.num * x.den
      ≤ x.den * 2 ^ k * y.den + y.den * 2 ^ k * x.den :=
        Nat.add_le_add (Nat.mul_le_mul_right _ hx) (Nat.mul_le_mul_right _ hy)
    _ = 2 * (x.den * y.den * 2 ^ k) := by ring
    _ < 4 * (x.den * y.den * 2 ^ k) := by omega
    _ = x.den * y.den * 2 ^ (k + 2) := by ring

/-- A quotient by a number that is at least one. -/
theorem isAtMost_div (hx : x.IsAtMost k) (hy : y.den ≤ y.num) : (x / y).IsAtMost (k + 1) := by
  refine isAtMost_ofRatio ?_
  have hpos := Nat.mul_pos (Nat.mul_pos x.den_pos (y.den_pos.trans_le hy)) (Nat.two_pow_pos k)
  calc x.num * y.den
      ≤ x.den * 2 ^ k * y.num := Nat.mul_le_mul hx hy
    _ = x.den * y.num * 2 ^ k := by ring
    _ < 2 * (x.den * y.num * 2 ^ k) := by omega
    _ = x.den * y.num * 2 ^ (k + 1) := by ring

theorem isAtMost_min_one (x : Binary64) : (x.min .one).IsAtMost 0 := by
  rw [Binary64.min]
  split
  · next hle =>
    have hone : one.num = one.den := by decide
    have hmul := of_decide_eq_true hle
    rw [hone, Nat.mul_comm] at hmul
    exact (Nat.le_of_mul_le_mul_left hmul one.den_pos).trans_eq (Nat.mul_one _).symm
  · exact isAtMost_mk (j := 52) (by decide) (by decide)

/-- The range ends far above. -/
theorem isFinite_of_isAtMost (h : x.IsAtMost k) (hk : k < 1024) : x.isFinite := by
  rw [isFinite, decide_eq_true_iff, Nat.shiftLeft_eq]
  -- any exponent above would do
  generalize 1024 = n at hk ⊢
  exact h.trans_lt (Nat.mul_lt_mul_of_pos_left (Nat.pow_lt_pow_right Nat.one_lt_two hk) x.den_pos)

end Binary64

/-! ## The numbers of a report -/

namespace Report

open Binary64

theorem isFinite_microseconds (nanos : UInt64) : (microseconds nanos).isFinite :=
  isFinite_of_isAtMost (isAtMost_div (isAtMost_ofNat nanos.toNat_lt) (by decide)) (by decide)

theorem isFinite_seconds (d : Duration) : (seconds d).isFinite := by
  have hsubsec : (Binary64.ofNat d.subsec / .ofNat nanosPerSecond).IsAtMost 64 := by
    have hlt : d.subsec < 2 ^ 63 := d.subsec_lt.trans (by decide)
    exact isAtMost_div (isAtMost_ofNat hlt) (by decide)
  exact isFinite_of_isAtMost (isAtMost_add (isAtMost_ofNat d.secs.toNat_lt) hsubsec) (by decide)

theorem isFinite_utilization (s : Snapshot) : s.utilization.isFinite := by
  simp only [Snapshot.utilization]
  split
  · exact isFinite_of_isAtMost (k := 0) (Nat.zero_le _) (by decide)
  · exact isFinite_of_isAtMost (isAtMost_min_one _) (by decide)

end Report

end Deferred
