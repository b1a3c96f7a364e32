import Deferred.Binary64

/-!
# The lateness histogram

A histogram of 64-bit values with three significant figures. Values below 2048 have a cell of their
own. Above, every power of two has 1024 cells of equal width, so that a cell is never wider than a
thousandth of its values. The array of cells grows when a value falls outside of it.

This is how the histograms of the package `hdrhistogram` are documented to behave that are made for
three significant figures and resize themselves: with 2048 sub-buckets, the highest equivalent value
of a bucket as its quantile, and the middle of a bucket as its share in the mean. A count is a
natural number, where a word would be full after `2 ^ 64` values.

* `Histogram.cell` finds the cell of a value; `Histogram.lowest` and `Histogram.width` describe it.
* `Histogram.record` counts a value.
* `Histogram.quantile` is the highest value of the cell in which the cumulative count reaches a
  rank, `Histogram.maximum` and `Histogram.mean` are read off the cells too.
-/

namespace Deferred

/-- Counts of values. -/
structure Histogram where
  counts : Array Nat := Array.replicate 2048 0
  /-- How many values have been recorded. -/
  total : Nat := 0
  /-- The greatest value recorded. -/
  greatest : Nat := 0
  deriving DecidableEq

namespace Histogram

instance : Inhabited Histogram := ⟨{}⟩

/-- The greatest value of 64 bits. -/
def ceiling : Nat := (1 <<< 64) - 1

/-! ## Cells -/

/-- How many times a value is halved before it falls below 2048. -/
def scale (value : Nat) : Nat := value.log2 - 10

/-- The cell of a value. -/
def cell (value : Nat) : Nat := scale value * 1024 + value >>> scale value

/-- The number of values in a cell. -/
def width (cell : Nat) : Nat := 1 <<< (cell / 1024 - 1)

/-- The lowest value of a cell. -/
def lowest (cell : Nat) : Nat :=
  if cell < 1024 then cell else (cell % 1024 + 1024) * width cell

/-- The highest value of a cell; the topmost cell ends one short of the greatest value. -/
def highest (cell : Nat) : Nat := Nat.min (lowest cell + width cell) ceiling - 1

/-- The value in the middle of a cell. -/
def middle (cell : Nat) : Nat := lowest cell + width cell / 2

/-- How many cells an array has that covers a value: whole rows of 1024. -/
def cellsFor (value : Nat) : Nat := (scale value + 2) * 1024

/-! ## Recording -/

/-- An array that covers a value: the same if it does so already. -/
def cover (counts : Array Nat) (value : Nat) : Array Nat :=
  if cell value < counts.size then counts
  else counts ++ Array.replicate (cellsFor value - counts.size) 0

/-- Counts a value. -/
def record (h : Histogram) (value : Nat) : Histogram where
  counts := (cover h.counts value).modify (cell value) (· + 1)
  total := h.total + 1
  greatest := Nat.max h.greatest value

/-! ## Statistics -/

/-- The first cell from `index` on in which the cumulative count reaches `rank`. -/
def reach (rank : Nat) : List Nat → Nat → Option Nat
  | [], _ => none
  | count :: rest, index =>
    if rank ≤ count then some index else reach (rank - count) rest (index + 1)

/-- The rank of a quantile of `percent` percent: at least so many of the values in a hundred are
counted, and at least one. -/
def rank (total percent : Nat) : Nat := Nat.max 1 ((total * percent + 99) / 100)

/-- The highest value of the cell in which the quantile of `percent` percent lies. -/
def quantile (h : Histogram) (percent : Nat) : Nat :=
  match reach (rank h.total percent) h.counts.toList 0 with
  | some cell => highest cell
  | none => 0

/-- The highest value of the cell of the greatest value; the greatest of all values stands for
itself. -/
def maximum (h : Histogram) : Nat :=
  if h.greatest = 0 then 0
  else if h.greatest = ceiling then ceiling
  else highest (cell h.greatest)

/-- Adds the shares that cells contribute to the mean of `total` values, from `index` on. -/
def addShares (total : Nat) : List Nat → Nat → Binary64 → Binary64
  | [], _, sum => sum
  | 0 :: rest, index, sum => addShares total rest (index + 1) sum
  | count :: rest, index, sum =>
    addShares total rest (index + 1)
      (sum + .ofNat (middle index) * .ofNat count / .ofNat total)

/-- The mean: every cell contributes its middle in proportion to its count, the lowest cell
first. -/
def mean (h : Histogram) : Binary64 := addShares h.total h.counts.toList 0 .zero

/-- The mean as a whole number, rounded down. -/
def wholeMean (h : Histogram) : UInt64 := if h.total = 0 then 0 else h.mean.toWord

end Histogram

end Deferred
