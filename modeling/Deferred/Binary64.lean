/-!
# Binary floating point

The finite non-negative numbers of the 64-bit binary format, with exact arithmetic underneath: an
operation computes its result as a quotient of natural numbers and rounds once, to the nearest
number of the format, a tie going to the even mantissa.

* `Binary64.ofRatio` rounds a quotient; sums, products and quotients of numbers are rounded by it.
* `Binary64.bits` is the number in the interchange format.
-/

namespace Deferred

/-- The number `mantissa * 2 ^ exponent`. -/
structure Binary64 where
  mantissa : Nat
  exponent : Int
  mantissa_lt : mantissa < 1 <<< 53 := by decide
  deriving DecidableEq

namespace Binary64

/-- The exponent of the smallest numbers of the format. -/
def minExponent : Int := -1074

/-- Nothing. -/
def zero : Binary64 := ⟨0, minExponent, by decide⟩

/-- One. -/
def one : Binary64 := ⟨1 <<< 52, -52, by decide⟩

instance : Inhabited Binary64 := ⟨zero⟩

/-- The numerator of a number as a quotient of natural numbers. -/
def num (x : Binary64) : Nat := x.mantissa <<< x.exponent.toNat

/-- The denominator of a number as a quotient of natural numbers. -/
def den (x : Binary64) : Nat := 1 <<< (-x.exponent).toNat

/-! ## Rounding -/

/-- `num / den` rounded to the nearest natural number, a half to the even one. -/
def roundHalfEven (num den : Nat) : Nat :=
  let q := num / den
  let r := num % den
  if 2 * r < den ∨ (2 * r = den ∧ q % 2 = 0) then q else q + 1

/-- The greatest `e` with `2 ^ e ≤ num / den`, for positive `num` and `den`. -/
def floorLog2 (num den : Nat) : Int :=
  let e : Int := (num.log2 : Int) - den.log2
  if den <<< e.toNat ≤ num <<< (-e).toNat then e else e - 1

/-- The number of the format that lies nearest to `num / den`. -/
def ofRatio (num den : Nat) : Binary64 :=
  if num = 0 then zero
  else
    let e := max (floorLog2 num den - 52) minExponent
    let q := roundHalfEven (num <<< (-e).toNat) (den <<< e.toNat)
    if h : q < 1 <<< 53 then ⟨q, e, h⟩ else ⟨1 <<< 52, e + 1, by decide⟩

/-- The number of the format that lies nearest to a natural number. -/
def ofNat (n : Nat) : Binary64 := ofRatio n 1

/-! ## Arithmetic -/

instance : Add Binary64 := ⟨fun x y => ofRatio (x.num * y.den + y.num * x.den) (x.den * y.den)⟩

instance : Mul Binary64 := ⟨fun x y => ofRatio (x.num * y.num) (x.den * y.den)⟩

/-- The quotient by a positive number. -/
instance : Div Binary64 := ⟨fun x y => ofRatio (x.num * y.den) (x.den * y.num)⟩

/-- Whether a number is zero. -/
def isZero (x : Binary64) : Bool := x.mantissa = 0

/-- Whether a number is in the range of the format, which ends below `2 ^ 1024`. -/
def isFinite (x : Binary64) : Bool := x.num < x.den <<< 1024

/-- Whether `x` is at most `y`. -/
def le (x y : Binary64) : Bool := x.num * y.den ≤ y.num * x.den

/-- The smaller of two numbers. -/
def min (x y : Binary64) : Binary64 := if x.le y then x else y

/-- The greatest 64-bit word that is not above the number. -/
def toWord (x : Binary64) : UInt64 := (Nat.min (x.num / x.den) ((1 <<< 64) - 1)).toUInt64

/-- The number in the interchange format: the exponent above 52 bits of mantissa. -/
def bits (x : Binary64) : Nat :=
  if x.mantissa < 1 <<< 52 then x.mantissa
  else ((x.exponent + 1075).toNat <<< 52) + (x.mantissa - (1 <<< 52))

end Binary64

end Deferred
