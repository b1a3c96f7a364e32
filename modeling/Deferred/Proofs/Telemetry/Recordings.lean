import Deferred.Telemetry.Metrics
import Deferred.Proofs.Telemetry.Quantiles

/-!
# What has been recorded

The metrics after any number of recordings are told by what the recordings contribute: sums, which
wrap around at `2 ^ 64`, and the histogram of the latenesses. Neither depends on the order in which
the recordings are made, so that threads may record as they please.

* `Recording` is one recording, `Recording.share` what it contributes to a counter.
* `Metrics.recorded` are the metrics after some recordings, one after the other.
* `Metrics.counter_recorded`, `Metrics.lateness_recorded`: their counters and their histogram.
* `Metrics.recorded_in_any_order`: recordings in another order come to the same snapshot.
* `Metrics.lateness_statistics`: the statistics of the latenesses in a snapshot.
-/

namespace Deferred

/-- Something that is recorded in the metrics. -/
inductive Recording
  | scheduled
  | execution (lateness duration : UInt64)
  | panic
  | canceled (count : UInt64)
  | discarded (count : UInt64)
  deriving DecidableEq

/-- The counters of the metrics. -/
inductive Counter
  | scheduled
  | executed
  | canceled
  | discarded
  | panicked
  | busyTime
  deriving DecidableEq

namespace Recording

/-- What a recording contributes to a counter. -/
def share : Counter → Recording → Nat
  | .scheduled, scheduled => 1
  | .executed, execution _ _ => 1
  | .canceled, canceled count => count.toNat
  | .discarded, discarded count => count.toNat
  | .panicked, panic => 1
  | .busyTime, execution _ duration => duration.toNat
  | _, _ => 0

/-- The lateness that a recording contributes to the histogram, if it does. -/
def lateness? : Recording → Option Nat
  | execution lateness _ => some lateness.toNat
  | _ => none

/-- The latenesses among some recordings. -/
def latenesses (recordings : List Recording) : List Nat := recordings.filterMap lateness?

end Recording

/-- A counter of a snapshot. -/
def Snapshot.counter (s : Snapshot) : Counter → UInt64
  | .scheduled => s.scheduled
  | .executed => s.executed
  | .canceled => s.canceled
  | .discarded => s.discarded
  | .panicked => s.panicked
  | .busyTime => s.busyTime

namespace Metrics

open Recording

/-- The metrics after one more recording. -/
def record (m : Metrics) : Recording → Metrics
  | .scheduled => m.recordScheduled
  | .execution lateness duration => m.recordExecution lateness duration
  | .panic => m.recordPanic
  | .canceled count => m.recordCanceled count
  | .discarded count => m.recordDiscarded count

/-- The metrics after some recordings, one after the other. -/
def recorded (recordings : List Recording) : Metrics := recordings.foldl record {}

/-- A counter of the metrics. -/
def counter (m : Metrics) : Counter → UInt64
  | .scheduled => m.scheduled
  | .executed => m.executed
  | .canceled => m.canceled
  | .discarded => m.discarded
  | .panicked => m.panicked
  | .busyTime => m.busyTime

variable {m : Metrics} {recordings others : List Recording}

theorem counter_snapshot (m : Metrics) (uptime : Duration) (c : Counter) :
    (m.snapshot uptime).counter c = m.counter c := by
  cases c <;> rfl

theorem eq_of_counters {n : Metrics} (hc : ∀ c, m.counter c = n.counter c)
    (hl : m.lateness = n.lateness) : m = n := by
  obtain ⟨_, _, _, _, _, _, _⟩ := m
  obtain ⟨_, _, _, _, _, _, _⟩ := n
  obtain rfl := hc .scheduled
  obtain rfl := hc .executed
  obtain rfl := hc .canceled
  obtain rfl := hc .discarded
  obtain rfl := hc .panicked
  obtain rfl := hc .busyTime
  obtain rfl := hl
  rfl

/-! ## One recording -/

/-- A recording adds its share to every counter. -/
theorem counter_record (m : Metrics) (r : Recording) (c : Counter) :
    (m.record r).counter c = m.counter c + .ofNat (r.share c) := by
  -- a recording contributes to one counter, or to two, and leaves the others as they were
  cases r with
  | scheduled =>
    cases c with
    | scheduled => rfl
    | _ => exact (UInt64.add_zero _).symm
  | execution lateness duration =>
    cases c with
    | executed => rfl
    | busyTime => exact congrArg (m.busyTime + ·) UInt64.ofNat_toNat.symm
    | _ => exact (UInt64.add_zero _).symm
  | panic =>
    cases c with
    | panicked => rfl
    | _ => exact (UInt64.add_zero _).symm
  | canceled count =>
    cases c with
    | canceled => exact congrArg (m.canceled + ·) UInt64.ofNat_toNat.symm
    | _ => exact (UInt64.add_zero _).symm
  | discarded count =>
    cases c with
    | discarded => exact congrArg (m.discarded + ·) UInt64.ofNat_toNat.symm
    | _ => exact (UInt64.add_zero _).symm

/-- A recording with a lateness has it recorded in the histogram. -/
theorem lateness_record (m : Metrics) (r : Recording) :
    (m.record r).lateness = r.lateness?.toList.foldl Histogram.record m.lateness := by
  cases r <;> rfl

/-! ## All recordings -/

theorem counter_foldl_record (m : Metrics) (recordings : List Recording) (c : Counter) :
    (recordings.foldl record m).counter c =
      m.counter c + .ofNat (recordings.map (share c)).sum := by
  induction recordings generalizing m with
  | nil => simp
  | cons r recordings ih =>
    rw [List.foldl_cons, ih, counter_record, List.map_cons, List.sum_cons, UInt64.ofNat_add,
      UInt64.add_assoc]

theorem lateness_foldl_record (m : Metrics) (recordings : List Recording) :
    (recordings.foldl record m).lateness =
      (latenesses recordings).foldl Histogram.record m.lateness := by
  induction recordings generalizing m with
  | nil => rfl
  | cons r recordings ih =>
    rw [List.foldl_cons, ih, lateness_record, ← List.foldl_append, latenesses, latenesses,
      List.filterMap_cons]
    cases r.lateness? <;> rfl

/-- A counter is the sum of what has been contributed to it. -/
theorem counter_recorded (recordings : List Recording) (c : Counter) :
    (recorded recordings).counter c = .ofNat (recordings.map (share c)).sum := by
  rw [recorded, counter_foldl_record]
  cases c <;> exact UInt64.zero_add _

/-- The histogram is that of the latenesses. -/
theorem lateness_recorded (recordings : List Recording) :
    (recorded recordings).lateness = .ofValues (latenesses recordings) := by
  rw [recorded, lateness_foldl_record]
  exact Histogram.foldl_record _

theorem recorded_perm (h : recordings.Perm others) : recorded recordings = recorded others := by
  refine eq_of_counters (fun c => ?_) ?_
  · rw [counter_recorded, counter_recorded, (h.map (share c)).sum_nat]
  · rw [lateness_recorded, lateness_recorded]
    exact Histogram.ofValues_perm (h.filterMap lateness?)

/-- Every counter of a snapshot is the sum of what has been recorded for it, modulo `2 ^ 64`, and
recordings in another order come to the same snapshot but for the uptime: also the mean, the
quantiles and the maximum of the lateness are the same, whenever the histogram was made to grow. -/
theorem recorded_in_any_order (recordings : List Recording) (uptime : Duration) :
    (∀ c, (((recorded recordings).snapshot uptime).counter c).toNat =
      (recordings.map (share c)).sum % 2 ^ 64) ∧
    ∀ others, recordings.Perm others → ∀ later,
      (recorded others).snapshot later =
        { (recorded recordings).snapshot uptime with uptime := later } := by
  refine ⟨fun c => ?_, fun others h later => ?_⟩
  · rw [counter_snapshot, counter_recorded, UInt64.toNat_ofNat']
  · rw [recorded_perm h]
    rfl

/-- Latenesses at both ends of the range, in both orders, and counters that wrap around. -/
theorem recorded_in_any_order_wrapping :
    let early : List Recording :=
      [.execution 0 5, .execution 18446744073709551615 18446744073709551615, .scheduled,
        .canceled 2, .panic, .canceled 18446744073709551615, .discarded 3]
    let late : List Recording :=
      [.canceled 18446744073709551615, .panic, .execution 18446744073709551615 18446744073709551615,
        .discarded 3, .canceled 2, .execution 0 5, .scheduled]
    let s := (recorded early).snapshot .zero
    early.Perm late ∧ s.canceled.toNat = 1 ∧ s.busyTime.toNat = 4 ∧ s.medianLateness.toNat = 0 ∧
      s.lateness99.toNat = 18446744073709551614 ∧ s.maximumLateness.toNat = 18446744073709551615 ∧
      (recorded late).snapshot .zero = s := by
  intro early late s
  obtain ⟨hcounters, horder⟩ := recorded_in_any_order early .zero
  have hperm : early.Perm late := by decide
  have hvalues : (recorded early).lateness = .ofValues (latenesses early) := lateness_recorded early
  have hquantile : ∀ percent k v, Histogram.rank (latenesses early).length percent = k →
      (latenesses early)[k - 1]? = some v →
        ((recorded early).lateness.quantile percent).toUInt64.toNat =
          Histogram.highest (Histogram.cell v) := by
    intro percent k v hrank hv
    have hsmallest := Histogram.nthSmallest?_eq (.refl (latenesses early)) (by decide) k
    rw [hvalues, Histogram.quantile_ofValues hrank (hsmallest.trans hv), Histogram.toNat_highest]
  exact ⟨hperm, (hcounters .canceled).trans (by decide), (hcounters .busyTime).trans (by decide),
    hquantile 50 1 0 (by decide) rfl, hquantile 99 2 18446744073709551615 (by decide) rfl,
    by simp only [s, snapshot, hvalues]; decide, horder late hperm .zero⟩

/-! ## How late the actions were -/

open Histogram

/-- The statistics of the latenesses that have been recorded are those of a histogram of all of
them, from which none is missing. Half of the latenesses, 99 in a hundred, and all of them are at
most the median, the 99th percentile and the maximum, which are reported exactly below 2048 and less
than a 1024th too great from there on, and so in this order. -/
theorem lateness_statistics (recordings : List Recording) (uptime : Duration)
    (hne : latenesses recordings ≠ []) (hlt : ∀ x ∈ latenesses recordings, x < 2 ^ 64 - 1) :
    let values := latenesses recordings
    let n := values.length
    let h := (recorded recordings).lateness
    let s := (recorded recordings).snapshot uptime
    (h.total = n ∧ h.counts.toList.sum = n ∧
      ∀ x ∈ values, h.counts[cell x]? = some (values.countP (cell · = cell x))) ∧
    (∃ x, nthSmallest? values (n ⌈/⌉ 2) = some x ∧ Approximates s.medianLateness.toNat x) ∧
    (∃ x, nthSmallest? values ((99 * n) ⌈/⌉ 100) = some x ∧ Approximates s.lateness99.toNat x) ∧
    (∃ x, nthSmallest? values n = some x ∧ Approximates s.maximumLateness.toNat x) ∧
    s.medianLateness ≤ s.lateness99 ∧ s.lateness99 ≤ s.maximumLateness := by
  intro values n h s
  have hh : h = ofValues values := lateness_recorded recordings
  have hn : 0 < n := List.length_pos_iff.2 hne
  -- the ranks, and the values that have them
  have hmedian : rank n 50 = n ⌈/⌉ 2 := by
    rw [rank_eq_ceilDiv (by omega), Nat.ceilDiv_eq_add_pred_div, Nat.ceilDiv_eq_add_pred_div]
    omega
  have hrank99 : rank n 99 = (99 * n) ⌈/⌉ 100 := by
    rw [rank_eq_ceilDiv (by omega), Nat.mul_comm]
  have hranks : 0 < n ⌈/⌉ 2 ∧ n ⌈/⌉ 2 ≤ (99 * n) ⌈/⌉ 100 ∧ (99 * n) ⌈/⌉ 100 ≤ n := by
    rw [Nat.ceilDiv_eq_add_pred_div, Nat.ceilDiv_eq_add_pred_div]
    omega
  have hexists : ∀ k, 0 < k → k ≤ n → ∃ v, nthSmallest? values k = some v ∧ v ∈ values :=
    fun _ => exists_nthSmallest
  obtain ⟨x, hx, hxm⟩ := hexists (n ⌈/⌉ 2) (by omega) (by omega)
  obtain ⟨y, hy, hym⟩ := hexists ((99 * n) ⌈/⌉ 100) (by omega) (by omega)
  obtain ⟨z, hz, hzm⟩ := hexists n hn (Nat.le_refl n)
  have hxy : x ≤ y := nthSmallest_mono hranks.2.1 hx hy
  have hyz : y ≤ z := nthSmallest_mono hranks.2.2 hy hz
  have hlt : ∀ x ∈ values, x < ceiling := hlt
  -- what the snapshot says
  have hsx : s.medianLateness.toNat = highest (cell x) := by
    rw [← toNat_highest, ← quantile_ofValues hmedian hx, ← hh]
    rfl
  have hsy : s.lateness99.toNat = highest (cell y) := by
    rw [← toNat_highest, ← quantile_ofValues hrank99 hy, ← hh]
    rfl
  have hsz : s.maximumLateness.toNat = highest (cell z) := by
    rw [← toNat_highest, ← maximum_ofValues hz hne (hlt z hzm), ← hh]
    rfl
  refine ⟨⟨by rw [hh]; rfl, by rw [hh, sum_counts], fun u hu => ?_⟩,
    ⟨x, hx, hsx ▸ approximates_highest (hlt x hxm)⟩,
    ⟨y, hy, hsy ▸ approximates_highest (hlt y hym)⟩,
    ⟨z, hz, hsz ▸ approximates_highest (hlt z hzm)⟩, ?_, ?_⟩
  · have hcell : cell u < (ofValues values).counts.size := by
      rw [size_counts]
      exact cell_lt_cellsForAll hu
    rw [hh, Array.getElem?_eq_getElem hcell, getElem_counts]
  · rw [UInt64.le_iff_toNat_le, hsx, hsy]
    exact highest_mono hxy
  · rw [UInt64.le_iff_toNat_le, hsy, hsz]
    exact highest_mono hyz

/-- Of four latenesses the second one is the median, and the last one both the 99th percentile and
the maximum: the greatest that is told apart from the one above it. -/
theorem lateness_statistics_of_four :
    let recordings : List Recording :=
      [.execution 5001 1, .execution 18446744073709551614 1, .scheduled, .execution 0 1,
        .execution 100000 1]
    let s := (recorded recordings).snapshot .zero
    latenesses recordings ≠ [] ∧ (∀ x ∈ latenesses recordings, x < 2 ^ 64 - 1) ∧
      Approximates s.medianLateness.toNat 5001 ∧
      Approximates s.lateness99.toNat 18446744073709551614 ∧
      Approximates s.maximumLateness.toNat 18446744073709551614 := by
  intro recordings s
  have hne : latenesses recordings ≠ [] := by decide
  have hlt : ∀ x ∈ latenesses recordings, x < 2 ^ 64 - 1 := by decide
  obtain ⟨-, ⟨x, hx, hmedian⟩, ⟨y, hy, h99⟩, ⟨z, hz, hmaximum⟩, -⟩ :=
    lateness_statistics recordings .zero hne hlt
  have hsmallest : ∀ k, nthSmallest? (latenesses recordings) k =
      [0, 5001, 100000, 18446744073709551614][k - 1]? :=
    nthSmallest?_eq (by decide) (by decide)
  have hx' : some x = some 5001 := hx.symm.trans ((hsmallest _).trans (by decide))
  have hy' : some y = some 18446744073709551614 := hy.symm.trans ((hsmallest _).trans (by decide))
  have hz' : some z = some 18446744073709551614 := hz.symm.trans ((hsmallest _).trans (by decide))
  exact ⟨hne, hlt, Option.some.inj hx' ▸ hmedian, Option.some.inj hy' ▸ h99,
    Option.some.inj hz' ▸ hmaximum⟩

end Metrics

end Deferred
