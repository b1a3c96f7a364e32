import Deferred.Telemetry.Histogram
import Mathlib.Algebra.Order.Ring.Nat
import Mathlib.Data.Nat.Log
import Mathlib.Tactic.Ring

/-!
# The cells of the histogram

A value `v` is written as its leading digits, a number below 2048, and the number of binary digits
behind them. Its cell holds the values that differ from it only in those digits behind.

* `Histogram.cell_mono`: greater values have cells further up.
* `Histogram.lowest_cell`, `Histogram.width_cell`: the cell of a value, told by its digits.
* `Histogram.le_highest`, `Histogram.highest_sub_lt`: how far the highest value of a cell lies above
  the others, and `Histogram.highest_mono`: the cells lie one above the other.
* `Histogram.cell_lt_iff`: an array of whole rows covers a value if it has as many cells as
  `Histogram.cellsFor` says.
-/

namespace Deferred

namespace Histogram

variable {u v n : Nat}

/-! ## Leading digits -/

/-- The leading digits of a value. -/
def lead (v : Nat) : Nat := v / 2 ^ scale v

theorem cell_eq (v : Nat) : cell v = scale v * 1024 + lead v := by
  rw [cell, Nat.shiftRight_eq_div_pow, lead]

theorem scale_of_lt (h : v < 2048) : scale v = 0 := by
  rcases Nat.eq_zero_or_pos v with rfl | hv
  · rfl
  · have := (Nat.log2_lt (k := 11) (by omega)).2 h
    rw [scale]
    omega

theorem scale_mono (h : u ≤ v) : scale u ≤ scale v := by
  rw [scale, scale, Nat.log2_eq_log_two, Nat.log2_eq_log_two]
  exact Nat.sub_le_sub_right (Nat.log_mono_right h) 10

/-- Values from 2048 on have as many digits behind the leading ones as are left. -/
theorem log2_eq_of_le (h : 2048 ≤ v) : v.log2 = scale v + 10 := by
  have := (Nat.le_log2 (k := 11) (by omega : v ≠ 0)).2 h
  rw [scale]
  omega

theorem lt_two_pow_scale (v : Nat) : v < 2048 * 2 ^ scale v := by
  rcases Nat.lt_or_ge v 2048 with h | h
  · simpa [scale_of_lt h] using h
  · have hlt := Nat.lt_log2_self (n := v)
    rw [log2_eq_of_le h] at hlt
    exact hlt.trans_eq (by ring)

theorem two_pow_scale_le (h : 1024 ≤ v) : 1024 * 2 ^ scale v ≤ v := by
  rcases Nat.lt_or_ge v 2048 with hlt | hle
  · simpa [scale_of_lt hlt] using h
  · have hself := Nat.log2_self_le (n := v) (by omega)
    rw [log2_eq_of_le hle] at hself
    exact le_of_eq_of_le (by ring) hself

theorem lead_lt (v : Nat) : lead v < 2048 :=
  (Nat.div_lt_iff_lt_mul (Nat.two_pow_pos _)).2 (lt_two_pow_scale v)

theorem le_lead (h : 1024 ≤ v) : 1024 ≤ lead v :=
  (Nat.le_div_iff_mul_le (Nat.two_pow_pos _)).2 (two_pow_scale_le h)

theorem lead_of_lt (h : v < 2048) : lead v = v := by
  rw [lead, scale_of_lt h, Nat.pow_zero, Nat.div_one]

/-- Values with digits behind the leading ones have eleven leading digits. -/
theorem le_of_scale_pos (h : 0 < scale v) : 2048 ≤ v := by
  by_contra hlt
  rw [scale_of_lt (Nat.lt_of_not_le hlt)] at h
  exact absurd h (Nat.lt_irrefl 0)

/-! ## Where a cell lies -/

/-- Greater values have cells further up. -/
theorem cell_mono (h : u ≤ v) : cell u ≤ cell v := by
  rw [cell_eq, cell_eq]
  rcases Nat.lt_or_eq_of_le (scale_mono h) with hs | hs
  · -- the cell of `u` lies in a row below
    have hu := lead_lt u
    have hv := le_lead (v := v) (by have := le_of_scale_pos (Nat.zero_lt_of_lt hs); omega)
    omega
  · have hlead : lead u ≤ lead v := by
      rw [lead, lead, hs]
      exact Nat.div_le_div_right h
    omega

theorem width_cell (v : Nat) : width (cell v) = 2 ^ scale v := by
  have hrow : cell v / 1024 - 1 = scale v := by
    rw [cell_eq]
    have hlt := lead_lt v
    rcases Nat.lt_or_ge v 1024 with h | h
    · have hs := scale_of_lt (v := v) (by omega)
      have hl := lead_of_lt (v := v) (by omega)
      omega
    · have hle := le_lead h
      omega
  rw [width, hrow, Nat.one_shiftLeft]

theorem lowest_cell (v : Nat) : lowest (cell v) = lead v * 2 ^ scale v := by
  rw [lowest, width_cell, cell_eq]
  have hlt := lead_lt v
  rcases Nat.lt_or_ge v 1024 with h | h
  · have hs := scale_of_lt (v := v) (by omega)
    have hl := lead_of_lt (v := v) (by omega)
    rw [hs, hl, if_pos (by omega)]
    omega
  · have hle := le_lead h
    have hdigits : (scale v * 1024 + lead v) % 1024 + 1024 = lead v := by omega
    rw [if_neg (by omega), hdigits]

theorem lowest_cell_le (v : Nat) : lowest (cell v) ≤ v := by
  rw [lowest_cell]
  exact Nat.div_mul_le_self ..

theorem lt_lowest_add_width (v : Nat) : v < lowest (cell v) + width (cell v) := by
  rw [lowest_cell, width_cell, lead, Nat.mul_comm]
  have hmod := Nat.mod_lt v (Nat.two_pow_pos (scale v))
  have hdiv := Nat.div_add_mod v (2 ^ scale v)
  omega

/-- A cell ends before the cells further up begin. -/
theorem upper_le_lowest (h : cell u < cell v) :
    lowest (cell u) + width (cell u) ≤ lowest (cell v) := by
  rw [cell_eq, cell_eq] at h
  rw [lowest_cell, lowest_cell, width_cell, ← Nat.succ_mul]
  have hu := lead_lt u
  have hv := lead_lt v
  rcases Nat.lt_trichotomy (scale u) (scale v) with hs | hs | hs
  · have hle := le_lead (v := v) (by have := le_of_scale_pos (Nat.zero_lt_of_lt hs); omega)
    calc (lead u).succ * 2 ^ scale u
        ≤ 2048 * 2 ^ scale u := Nat.mul_le_mul_right _ hu
      _ = 1024 * 2 ^ (scale u + 1) := by ring
      _ ≤ 1024 * 2 ^ scale v := Nat.mul_le_mul_left _ (Nat.pow_le_pow_right (by decide) hs)
      _ ≤ lead v * 2 ^ scale v := Nat.mul_le_mul_right _ hle
  · rw [hs] at h ⊢
    exact Nat.mul_le_mul_right _ (by omega)
  · -- the cell of `u` would lie in a row above
    have hle := le_lead (v := u) (by have := le_of_scale_pos (Nat.zero_lt_of_lt hs); omega)
    omega

/-! ## The highest value of a cell -/

theorem highest_lt_ceiling (c : Nat) : highest c < ceiling := by
  have hle : Nat.min (lowest c + width c) ceiling ≤ ceiling := Nat.min_le_right ..
  have hpos : 0 < ceiling := by decide
  rw [highest]
  omega

/-- The highest value of a cell, without the end of the topmost cell. -/
theorem highest_le (c : Nat) : highest c ≤ lowest c + width c - 1 :=
  Nat.sub_le_sub_right (Nat.min_le_left ..) 1

theorem le_highest (h : v < ceiling) : v ≤ highest (cell v) :=
  Nat.le_sub_one_of_lt (Nat.lt_min.2 ⟨lt_lowest_add_width v, h⟩)

theorem highest_of_lt (h : v < 2048) : highest (cell v) = v := by
  have hle := highest_le (cell v)
  rw [lowest_cell, width_cell, scale_of_lt h, lead_of_lt h] at hle
  have hge := le_highest (v := v) (h.trans (by decide))
  omega

/-- The highest value of a cell is less than a thousandth above the others. -/
theorem highest_sub_lt (h : 2048 ≤ v) : 1024 * (highest (cell v) - v) < v := by
  have hle := highest_le (cell v)
  have hlow := lowest_cell_le v
  have hscale := two_pow_scale_le (v := v) (by omega)
  have hpos := Nat.two_pow_pos (scale v)
  rw [width_cell] at hle
  omega

theorem highest_mono (h : u ≤ v) : highest (cell u) ≤ highest (cell v) := by
  rcases Nat.lt_or_eq_of_le (cell_mono h) with hlt | heq
  · have hup := upper_le_lowest hlt
    have hpos : 0 < width (cell v) := width_cell v ▸ Nat.two_pow_pos _
    exact Nat.sub_le_sub_right
      (Nat.le_min.2 ⟨(Nat.min_le_left ..).trans (by omega), Nat.min_le_right ..⟩) 1
  · rw [heq]

/-! ## Arrays that cover a value -/

/-- An array of whole rows, of which it has two at least, covers a value if and only if it has as
many cells as there are up to the end of the value's row. -/
theorem cell_lt_iff (hrows : 1024 ∣ n) (hn : 2048 ≤ n) : cell v < n ↔ cellsFor v ≤ n := by
  obtain ⟨rows, rfl⟩ := hrows
  rw [cell_eq, cellsFor]
  have hlt := lead_lt v
  rcases Nat.eq_zero_or_pos (scale v) with hs | hs
  · omega
  · have hle := le_lead (v := v) (by have := le_of_scale_pos hs; omega)
    omega

theorem cell_lt_cellsFor (v : Nat) : cell v < cellsFor v := by
  have hle : 2048 ≤ cellsFor v := Nat.mul_le_mul_right 1024 (Nat.le_add_left 2 (scale v))
  exact (cell_lt_iff (Nat.dvd_mul_left ..) hle).2 (Nat.le_refl _)

end Histogram

end Deferred
