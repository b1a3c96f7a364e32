/-!
# Sets of characters

A set of characters as the ascending list of the code points at which membership changes: the first
one is in the set, the second one is the first that is not, and so on.

* `CharSet.contains` is membership.
* `CharSet.combine` sweeps over the changes of two sets; union, intersection and the differences are
  made by it.
* `CharSet.named?` are the sets that have names, all of them within ASCII.
-/

namespace Deferred

/-- A set of characters. -/
structure CharSet where
  /-- The code points at which membership changes, in ascending order. -/
  changes : List Nat
  deriving DecidableEq, Repr

namespace CharSet

/-- The set without characters. -/
def empty : CharSet := ⟨[]⟩

/-- The set of all characters. -/
def all : CharSet := ⟨[0, 0x110000]⟩

/-- The code points from `low` to `high`, both included. -/
def range (low high : Nat) : CharSet := ⟨[low, high + 1]⟩

/-- The set of one character. -/
def singleton (c : Char) : CharSet := range c.toNat c.toNat

/-- Whether membership has changed an odd number of times up to `n`. -/
def changedAt (n : Nat) : List Nat → Bool
  | [] => false
  | change :: rest => if n < change then false else !(changedAt n rest)

/-- Whether a character is in the set. -/
def contains (s : CharSet) (c : Char) : Bool := changedAt c.toNat s.changes

/-- Whether all characters of the set are in ASCII. -/
def isAscii (s : CharSet) : Bool := s.changes.all (· ≤ 128)

/-- The ranges of the set, each with its first and its last code point. -/
def ranges (s : CharSet) : List (Nat × Nat) := pairs s.changes
where
  /-- The code points from each odd change up to the next one. -/
  pairs : List Nat → List (Nat × Nat)
    | low :: high :: rest => (low, high - 1) :: pairs rest
    | _ => []

/-! ## Operations -/

/-- Notes a change at `n` if there is one. -/
def change (before after : Bool) (n : Nat) (rest : List Nat) : List Nat :=
  if before = after then rest else n :: rest

/-- Sweeps over the changes of two sets; the flags say whether the sweep is inside of each. -/
def sweep (f : Bool → Bool → Bool) (a b : Bool) : List Nat → List Nat → List Nat
  | [], [] => []
  | x :: xs, [] => change (f a b) (f (!a) b) x (sweep f (!a) b xs [])
  | [], y :: ys => change (f a b) (f a (!b)) y (sweep f a (!b) [] ys)
  | x :: xs, y :: ys =>
    if x < y then change (f a b) (f (!a) b) x (sweep f (!a) b xs (y :: ys))
    else if y < x then change (f a b) (f a (!b)) y (sweep f a (!b) (x :: xs) ys)
    else change (f a b) (f (!a) (!b)) x (sweep f (!a) (!b) xs ys)
termination_by xs ys => xs.length + ys.length

/-- The characters of which `f` holds, given whether they are in each of two sets. -/
def combine (f : Bool → Bool → Bool) (s t : CharSet) : CharSet :=
  ⟨sweep f false false s.changes t.changes⟩

/-- The characters in one of two sets. -/
def union (s t : CharSet) : CharSet := combine or s t

/-- The characters in both of two sets. -/
def inter (s t : CharSet) : CharSet := combine and s t

/-- The characters in the first of two sets only. -/
def diff (s t : CharSet) : CharSet := combine (fun a b => a && !b) s t

/-- The characters in exactly one of two sets. -/
def symmDiff (s t : CharSet) : CharSet := combine xor s t

/-- The characters that are not in the set. -/
def compl (s : CharSet) : CharSet := diff all s

/-- The union of a list of ranges. -/
def ofRanges (rs : List (Nat × Nat)) : CharSet :=
  rs.foldl (fun s r => s.union (range r.1 r.2)) empty

/-! ## Sets within ASCII -/

/-- The capital letters of ASCII. -/
def upper : CharSet := range 0x41 0x5a

/-- The small letters of ASCII. -/
def lower : CharSet := range 0x61 0x7a

/-- The digits of ASCII. -/
def digit : CharSet := range 0x30 0x39

/-- The white space of ASCII. -/
def space : CharSet := ofRanges [(9, 13), (32, 32)]

/-- The letters of ASCII. -/
def alpha : CharSet := upper.union lower

/-- The letters and digits of ASCII. -/
def alnum : CharSet := alpha.union digit

/-- The characters of words: letters, digits and the low line. -/
def word : CharSet := alnum.union (range 0x5f 0x5f)

/-- The sets that have names. -/
def table : List (String × CharSet) := [
  ("alnum", alnum), ("alpha", alpha), ("ascii", range 0 0x7f),
  ("blank", ofRanges [(9, 9), (32, 32)]), ("cntrl", ofRanges [(0, 0x1f), (0x7f, 0x7f)]),
  ("digit", digit), ("graph", range 0x21 0x7e), ("lower", lower), ("print", range 0x20 0x7e),
  ("punct", ofRanges [(0x21, 0x2f), (0x3a, 0x40), (0x5b, 0x60), (0x7b, 0x7e)]),
  ("space", space), ("upper", upper), ("word", word),
  ("xdigit", ofRanges [(0x30, 0x39), (0x41, 0x46), (0x61, 0x66)])]

/-- The set of a name. -/
def named? (name : String) : Option CharSet := table.lookup name

/-- The set with the other case of every letter of ASCII in it. -/
def foldCase (s : CharSet) : CharSet :=
  let lowered := ⟨(s.inter upper).changes.map (· + 32)⟩
  let raised := ⟨(s.inter lower).changes.map (· - 32)⟩
  (s.union lowered).union raised

end CharSet

end Deferred
