/-!
# Instants and durations

Time is counted in whole nanoseconds. An instant is measured from a fixed base and may lie before
it; a duration is a number of seconds and a fraction of a second, as callers write delays.

* `Instant.after?` adds a delay to an instant, and fails where the clock ends.
* `Duration.text` writes a duration in the largest unit that leaves a whole part.
-/

namespace Deferred

/-- A point in time: nanoseconds after the base (before it, if negative). -/
structure Instant where
  nanos : Int
  deriving DecidableEq, Repr

namespace Instant

instance : Inhabited Instant := ⟨⟨0⟩⟩

instance : LT Instant := ⟨fun a b => a.nanos < b.nanos⟩

instance : LE Instant := ⟨fun a b => a.nanos ≤ b.nanos⟩

instance (a b : Instant) : Decidable (a < b) := inferInstanceAs (Decidable (a.nanos < b.nanos))

instance (a b : Instant) : Decidable (a ≤ b) := inferInstanceAs (Decidable (a.nanos ≤ b.nanos))

@[simp] theorem lt_iff {a b : Instant} : a < b ↔ a.nanos < b.nanos := Iff.rfl

@[simp] theorem le_iff {a b : Instant} : a ≤ b ↔ a.nanos ≤ b.nanos := Iff.rfl

end Instant

/-- Nanoseconds in a second. -/
def nanosPerSecond : Nat := 1000000000

/-! ## Durations -/

/-- A length of time: whole seconds, and nanoseconds short of a second. -/
structure Duration where
  secs : UInt64
  subsec : Nat
  subsec_lt : subsec < nanosPerSecond := by decide
  deriving DecidableEq, Repr

namespace Duration

/-- No time at all. -/
def zero : Duration := ⟨0, 0, by decide⟩

instance : Inhabited Duration := ⟨zero⟩

/-- Seconds and nanoseconds, the nanoseconds carried over into seconds if they fill one. -/
def ofParts (secs nanos : Nat) : Duration where
  secs := (secs + nanos / nanosPerSecond).toUInt64
  subsec := nanos % nanosPerSecond
  subsec_lt := Nat.mod_lt _ (by decide)

/-- A number of nanoseconds. -/
def ofNanos (nanos : Nat) : Duration := ofParts 0 nanos

/-- A number of milliseconds. -/
def ofMillis (millis : Nat) : Duration := ofNanos (millis * 1000000)

/-- The whole length in nanoseconds. -/
def nanos (d : Duration) : Nat := d.secs.toNat * nanosPerSecond + d.subsec

/-- The digits of `value`, padded on the left to `places` of them, without the zeros at the end. -/
def fractionDigits (value places : Nat) : List Char :=
  let digits := Nat.toDigits 10 value
  let padded := List.replicate (places - digits.length) '0' ++ digits
  (padded.reverse.dropWhile (· == '0')).reverse

/-- A whole part, the fraction if there is one, and the unit. -/
def inUnit (whole fraction places : Nat) (unit : String) : String :=
  if fraction = 0 then s!"{whole}{unit}"
  else s!"{whole}.{String.ofList (fractionDigits fraction places)}{unit}"

/-- The duration in the largest of the units s, ms, µs and ns that leaves a whole part. -/
def text (d : Duration) : String :=
  if d.secs ≠ 0 then inUnit d.secs.toNat d.subsec 9 "s"
  else if 1000000 ≤ d.subsec then inUnit (d.subsec / 1000000) (d.subsec % 1000000) 6 "ms"
  else if 1000 ≤ d.subsec then inUnit (d.subsec / 1000) (d.subsec % 1000) 3 "µs"
  else inUnit d.subsec 0 0 "ns"

end Duration

/-! ## The end of the clock -/

namespace Instant

/-- The first instant that the clock cannot show: it counts seconds below `2 ^ 63 - 1`. -/
def limit : Instant := ⟨0x7fffffffffffffff * nanosPerSecond⟩

/-- The instant some nanoseconds later. -/
def later (now : Instant) (nanos : Nat) : Instant := ⟨now.nanos + nanos⟩

/-- The instant that lies `delay` after `now`, unless the clock ends before it. -/
def after? (now : Instant) (delay : Duration) : Option Instant :=
  if now.later delay.nanos < limit then some (now.later delay.nanos) else none

/-- How many nanoseconds `now` is later than `earlier`; none if it is not later. -/
def since (now earlier : Instant) : Nat := (now.nanos - earlier.nanos).toNat

end Instant

end Deferred
