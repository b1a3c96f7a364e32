import Deferred.Binary64

/-!
# Shortest decimals

The decimal with the fewest digits that reads back as a given binary number: it lies in the interval
of the reals that round to that number, and of the decimals of that length it is the nearest.

* `Binary64.Interval` is the interval, in quarters of the last binary place.
* `Decimal.onGrid?` tests the two neighbours of the number among the multiples of a power of ten.
* `Decimal.shortest` tries ever finer grids, and the first with a hit wins.
-/

namespace Deferred

/-- The number `digits * 10 ^ exponent`. -/
structure Decimal where
  digits : Nat
  exponent : Int
  deriving DecidableEq, Repr

namespace Binary64

/-- The reals that round to a number, measured in units of `2 ^ exponent`. -/
structure Interval where
  low : Nat
  value : Nat
  high : Nat
  exponent : Int
  /-- Whether the ends belong to the interval. -/
  closed : Bool

/-- The reals that round to `x`: half way to the neighbours, of which the lower one is nearer at a
power of two; an end rounds to `x` if the mantissa is even. -/
def interval (x : Binary64) : Interval where
  low := 4 * x.mantissa - (if x.mantissa = 1 <<< 52 ∧ minExponent < x.exponent then 1 else 2)
  value := 4 * x.mantissa
  high := 4 * x.mantissa + 2
  exponent := x.exponent - 2
  closed := x.mantissa % 2 = 0

end Binary64

namespace Decimal

/-- The greatest `e` with `10 ^ e ≤ num / den`, for a positive quotient that is not below one. -/
def floorLog10Whole (num den : Nat) : Nat := (Nat.toDigits 10 (num / den)).length - 1

/-- The least `j` up to `bound` with `1 ≤ num * 10 ^ j / den`. -/
def leadingZeros (num den : Nat) : Nat → Nat
  | 0 => 0
  | bound + 1 => if den ≤ num then 0 else leadingZeros (num * 10) den bound + 1

/-- The greatest `e` with `10 ^ e ≤ num / den`, for a positive quotient above `10 ^ -400`. -/
def floorLog10 (num den : Nat) : Int :=
  if den ≤ num then floorLog10Whole num den else -(leadingZeros num den 400 : Nat)

/-- The nearest multiple of `10 ^ k` that lies in the interval; of two at one distance, the one
with the even last digit. -/
def onGrid? (i : Binary64.Interval) (k : Int) : Option Decimal :=
  let unit := Nat.pow 10 k.toNat <<< (-i.exponent).toNat
  let scale := Nat.pow 10 (-k).toNat <<< i.exponent.toNat
  let inside := fun d =>
    if i.closed then decide (i.low * scale ≤ d * unit ∧ d * unit ≤ i.high * scale)
    else decide (i.low * scale < d * unit ∧ d * unit < i.high * scale)
  let value := i.value * scale
  let below := value / unit
  let fromBelow := value - below * unit
  let toAbove := (below + 1) * unit - value
  let nearerAbove := toAbove < fromBelow ∨ (toAbove = fromBelow ∧ below % 2 = 1)
  if inside below ∧ ¬ (inside (below + 1) ∧ nearerAbove) then some ⟨below, k⟩
  else if inside (below + 1) then some ⟨below + 1, k⟩
  else none

/-- A decimal without zeros at its end, of which at most `bound` are taken off. -/
def trim : Nat → Decimal → Decimal
  | 0, d => d
  | bound + 1, d =>
    if d.digits ≠ 0 ∧ d.digits % 10 = 0 then trim bound ⟨d.digits / 10, d.exponent + 1⟩ else d

/-- The decimal with the fewest digits that reads back as a positive number. -/
def shortest (x : Binary64) : Decimal :=
  let top := floorLog10 x.num x.den
  let found := (List.range 17).findSome? fun (n : Nat) => onGrid? x.interval (top - n)
  trim 17 (found.getD ⟨0, 0⟩)

end Decimal

end Deferred
