import Deferred.Pattern.CharSet
import Deferred.Text.Blank

/-!
# Modes of reading a pattern

What a piece of a pattern's text means depends on the mode, which switches within the text change.
There are no tables of the cases and classes of all scripts, so that letters of any case and classes
such as `\\w` are refused unless the mode is confined to ASCII.

* `Mode` is the mode, `Switch` one of its switches, `Mode.apply` what switches do to it.
* `Mode.skip` skips blanks and comments where the mode lets them stand.
* `Mode.literal?` and `Mode.member?` are the sets that characters stand for.
-/

namespace Deferred

/-- How the text of a pattern is read. -/
structure Mode where
  /-- Letters stand for both of their cases. -/
  anyCase : Bool := false
  /-- Lines begin and end inside of a text too. -/
  manyLines : Bool := false
  /-- A dot stands for line ends too. -/
  dotAll : Bool := false
  /-- Carriage returns end lines too. -/
  carriage : Bool := false
  /-- Characters of all scripts are meant. -/
  unicode : Bool := true
  /-- Blanks and comments mean nothing. -/
  spaced : Bool := false
  deriving DecidableEq, Repr

/-- A switch of the mode. -/
inductive Switch
  | anyCase
  | manyLines
  | dotAll
  /-- Which of two stretches is preferred; it does not matter whether there is one. -/
  | preference
  | unicode
  | carriage
  | spaced
  deriving DecidableEq, Repr

/-- The switch of a letter. -/
def Switch.ofChar? : Char → Option Switch
  | 'i' => some anyCase
  | 'm' => some manyLines
  | 's' => some dotAll
  | 'U' => some preference
  | 'u' => some unicode
  | 'R' => some carriage
  | 'x' => some spaced
  | _ => none

namespace Mode

/-- The mode with a switch set. -/
def set (m : Mode) (on : Bool) : Switch → Mode
  | .anyCase => { m with anyCase := on }
  | .manyLines => { m with manyLines := on }
  | .dotAll => { m with dotAll := on }
  | .preference => m
  | .unicode => { m with unicode := on }
  | .carriage => { m with carriage := on }
  | .spaced => { m with spaced := on }

/-- The mode with switches set in order; from the mark `none` on they are set off. -/
def apply (m : Mode) : List (Option Switch) → Mode
  | [] => m
  | some s :: rest => (m.set true s).apply rest
  | none :: rest => (rest.filterMap id).foldl (·.set false ·) m

/-! ## Blanks and comments -/

/-- The text after the blanks and comments at its beginning. -/
def skipBlanks (inComment : Bool) : List Char → List Char
  | [] => []
  | c :: rest =>
    if inComment then skipBlanks (c ≠ '\n') rest
    else if isBlank c then skipBlanks false rest
    else if c = '#' then skipBlanks true rest
    else c :: rest

/-- The text from the next character on that means something. -/
def skip (m : Mode) (text : List Char) : List Char :=
  if m.spaced then skipBlanks false text else text

theorem length_skipBlanks (inComment : Bool) (text : List Char) :
    (skipBlanks inComment text).length ≤ text.length := by
  induction text generalizing inComment with
  | nil => simp [skipBlanks]
  | cons c rest ih =>
    unfold skipBlanks
    split
    · exact Nat.le_succ_of_le (ih _)
    split
    · exact Nat.le_succ_of_le (ih _)
    split
    · exact Nat.le_succ_of_le (ih _)
    · exact Nat.le_refl _

theorem length_skip (m : Mode) (text : List Char) : (m.skip text).length ≤ text.length := by
  unfold skip
  split
  · exact length_skipBlanks false text
  · exact Nat.le_refl _

/-! ## Sets that characters stand for -/

/-- The set that a character stands for, if the mode has the tables for it. -/
def literal? (m : Mode) (c : Char) : Option CharSet :=
  let set := CharSet.singleton c
  if m.anyCase then if m.unicode then none else some set.foldCase else some set

/-- The set of a range between brackets, if the mode has the tables for it. -/
def member? (m : Mode) (low high : Char) : Option CharSet :=
  let set := CharSet.range low.toNat high.toNat
  if m.unicode then if m.anyCase then none else some set
  else if set.isAscii then some (if m.anyCase then set.foldCase else set) else none

/-- The set of a class within ASCII between brackets. -/
def asciiClass? (m : Mode) (set : CharSet) : Option CharSet :=
  if m.anyCase then if m.unicode then none else some set.foldCase else some set

/-- All characters that are not in a set, which leaves ASCII. -/
def compl? (m : Mode) (set : CharSet) : Option CharSet :=
  if m.unicode then some set.compl else none

/-- The set that a dot stands for. -/
def dot? (m : Mode) : Option CharSet :=
  if !m.unicode then none
  else if m.dotAll then some .all
  else if m.carriage then some (CharSet.ofRanges [(10, 10), (13, 13)]).compl
  else some (CharSet.singleton '\n').compl

end Mode

end Deferred
