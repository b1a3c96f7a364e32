import Deferred.Decimal.Shortest

/-!
# Numerals

How a decimal is written: plainly, or with an exponent if it is very large or very small. The
thresholds and marks are fields of a `NumeralStyle`.
-/

namespace Deferred

/-- How decimals are written. -/
structure NumeralStyle where
  /-- The least power of ten of a leading digit that is written plainly. -/
  plainFrom : Int
  /-- The greatest power of ten of a leading digit that is written plainly. -/
  plainTo : Int
  /-- What a whole number ends in. -/
  wholeMark : List Char
  /-- What an exponent begins with. -/
  exponentMark : Char
  /-- The sign of a positive exponent. -/
  positiveSign : List Char

namespace NumeralStyle

/-- The digits of a number, the highest first. -/
def digitsOf (n : Nat) : List Char := Nat.toDigits 10 n

/-- So many zeros. -/
def zeros (n : Nat) : List Char := List.replicate n '0'

/-- An exponent with its mark and sign. -/
def exponent (s : NumeralStyle) (e : Int) : List Char :=
  s.exponentMark :: (if e < 0 then ['-'] else s.positiveSign) ++ digitsOf e.natAbs

/-- Digits with a point after the first one, if more follow. -/
def pointAfterFirst : List Char → List Char
  | [] => []
  | [d] => [d]
  | d :: rest => d :: '.' :: rest

/-- A positive decimal in a style. -/
def write (s : NumeralStyle) (d : Decimal) : List Char :=
  let digits := digitsOf d.digits
  let lead : Int := digits.length + d.exponent - 1
  if s.plainFrom ≤ lead ∧ lead ≤ s.plainTo then
    if 0 ≤ d.exponent then digits ++ zeros d.exponent.toNat ++ s.wholeMark
    else if 0 ≤ lead then
      digits.take (lead + 1).toNat ++ '.' :: digits.drop (lead + 1).toNat
    else '0' :: '.' :: zeros (-lead - 1).toNat ++ digits
  else pointAfterFirst digits ++ s.exponent lead

/-- The shortest numeral for a number of the binary format. -/
def writeBinary (s : NumeralStyle) (x : Binary64) : List Char :=
  if x.isZero then '0' :: s.wholeMark else s.write (Decimal.shortest x)

end NumeralStyle

end Deferred
