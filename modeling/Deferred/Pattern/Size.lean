import Deferred.Pattern

/-!
# The size of a pattern

How much memory the automaton of a pattern takes, by which patterns are refused that repeat too much
too often. An automaton works on the bytes of UTF-8, forwards or backwards. Each of its states takes
a cell; a state that branches takes more, by the number of its branches.

* `CharSet.byteRows` splits a set into rows of byte ranges.
* `Pattern.size` is the size of an automaton, `Pattern.isTooLarge` compares it with the limit.
-/

namespace Deferred

namespace CharSet

/-! ## Sets as bytes -/

/-- The bytes of a code point, the first one first. -/
def bytes (n : Nat) : List Nat :=
  if n < 0x80 then [n]
  else if n < 0x800 then [0xc0 + n / 64, 0x80 + n % 64]
  else if n < 0x10000 then [0xe0 + n / 4096, 0x80 + n / 64 % 64, 0x80 + n % 64]
  else [0xf0 + n / 262144, 0x80 + n / 4096 % 64, 0x80 + n / 64 % 64, 0x80 + n % 64]

/-- Where a range is to be cut so that its code points have bytes that vary independently: the first
code point of the upper part. -/
def cut? (low high : Nat) : Option Nat :=
  let borders := [0x80, 0x800, 0xd800, 0xe000, 0x10000].filter fun b => low < b ∧ b ≤ high
  let inner := [64, 4096, 262144].findSome? fun unit =>
    if low / unit = high / unit then none
    else if low % unit ≠ 0 then some ((low / unit + 1) * unit)
    else if high % unit ≠ unit - 1 then some (high / unit * unit)
    else none
  borders.head?.or (if high < 0x80 then none else inner)

/-- The rows of byte ranges for the code points of a range, which is cut at most `fuel` times in
depth. -/
def rowsOfRange : Nat → Nat → Nat → List (List (Nat × Nat))
  | 0, low, high => [(bytes low).zip (bytes high)]
  | fuel + 1, low, high =>
    match cut? low high with
    | some middle => rowsOfRange fuel low (middle - 1) ++ rowsOfRange fuel middle high
    | none => if 0xd800 ≤ low ∧ high ≤ 0xdfff then [] else [(bytes low).zip (bytes high)]

/-- The rows of byte ranges for the characters of a set. -/
def byteRows (s : CharSet) : List (List (Nat × Nat)) :=
  s.ranges.flatMap fun r => rowsOfRange 32 r.1 r.2

/-! ## The states for one character -/

/-- The memory for a state without branches. -/
def cell : Nat := 32

/-- The ends of a row but for the row itself, none of them empty. -/
def properTails (row : List (Nat × Nat)) : List (List (Nat × Nat)) :=
  (List.range (row.length - 1)).map fun i => row.drop (i + 1)

/-- The beginnings of a row, none of them empty. -/
def heads (row : List (Nat × Nat)) : List (List (Nat × Nat)) :=
  (List.range row.length).map fun i => row.take (i + 1)

/-- The memory for the states of one character of a set. Rows share the states of their common ends
in a forward automaton, and of their common beginnings in a backward one. -/
def size (forward : Bool) (s : CharSet) : Nat :=
  match s.ranges with
  | [(low, high)] => if low = high then cell * (bytes low).length else wide
  | _ => wide
where
  /-- The memory for the states of a set that has not exactly one character. -/
  wide : Nat :=
    if s.isAscii then 2 * cell + 8 * s.ranges.length
    else
      let rows := s.byteRows
      if forward then
        let tails := (rows.flatMap properTails).eraseDups
        2 * cell + 8 * rows.length + (cell + 8) * tails.length
      else
        let heads := (rows.flatMap heads).eraseDups
        2 * cell + 4 * rows.length + cell * heads.length

end CharSet

/-! ## Sizes of patterns -/

namespace Pattern

open CharSet (cell)

/-- Whether the pattern has stretches without characters. -/
def isNullable : Pattern → Bool
  | empty | anchor _ => true
  | one _ => false
  | both p q => p.isNullable && q.isNullable
  | either p q => p.isNullable || q.isNullable
  | repeated p min _ => min == 0 || p.isNullable
  | group p => p.isNullable

/-- The memory for the states of a pattern. Only a forward automaton has states for what is to be
remembered. -/
def size (forward : Bool) : Pattern → Nat
  | empty | anchor _ => cell
  | one set => set.size forward
  | both p q => p.size forward + q.size forward
  | either p q => p.size forward + q.size forward + 2 * cell + 8
  | group p => p.size forward + if forward then 2 * cell else 0
  | repeated p 0 none => p.size forward + if p.isNullable then 3 * cell + 16 else cell + 8
  | repeated p min none => min * p.size forward + cell + 8
  | repeated p 0 (some 1) => p.size forward + 2 * cell + 8
  | repeated p min (some max) =>
    if min = max then min * p.size forward
    else (if min = 0 then cell else min * p.size forward) + cell +
      (max - min) * (p.size forward + cell + 8)

/-- The memory for the automaton of a pattern, with the states before and after it. -/
def automatonSize (forward : Bool) (p : Pattern) : Nat :=
  p.size forward + (if forward then 2 * cell else 0) + 4 * cell + 16

/-- The limit of memory: ten mebibytes. -/
def sizeLimit : Nat := 10 <<< 20

/-- Whether an automaton of the pattern takes too much memory. -/
def isTooLarge (p : Pattern) : Bool :=
  sizeLimit < Nat.max (p.automatonSize true) (p.automatonSize false)

end Pattern

end Deferred
