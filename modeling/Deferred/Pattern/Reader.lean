import Deferred.Pattern.Bracket
import Deferred.Pattern.Letter
import Deferred.Pattern.Size

/-!
# Reading patterns

The text of a pattern: characters and sets stand one after the other, `|` between alternatives,
parentheses around groups, and `?`, `*`, `+` or a count in braces after what is repeated. A group
may begin with switches of the mode, which hold up to its end.

* `Pattern.Draft` is what has been read of a pattern: the innermost open group and those around.
* `Pattern.Draft.step?` reads the next piece.
* `Pattern.parse?` reads a whole pattern, and refuses a text that is none, that is nested too deep
  or that describes too much.
-/

namespace Deferred

namespace Pattern

/-! ## Pieces -/

/-- A piece of a pattern. -/
inductive Piece
  /-- Switches of the mode, which cannot be repeated. -/
  | switches
  /-- A pattern, and how deep it is nested. -/
  | part (pattern : Pattern) (depth : Nat)

namespace Piece

/-- What a piece stands for. -/
def pattern : Piece → Pattern
  | switches => .empty
  | part p _ => p

/-- How deep a piece is nested. -/
def depth : Piece → Nat
  | switches => 0
  | part _ depth => depth

/-- Several pieces as one, which is nested deeper than each of them. -/
def join (combine : List Pattern → Pattern) (pieces : List Piece) : Piece :=
  let deepest := (pieces.map depth).foldl Nat.max 0
  .part (combine (pieces.map pattern)) (if pieces.length < 2 then deepest else deepest + 1)

end Piece

/-- An open group, or the whole pattern. -/
structure Level where
  mode : Mode := {}
  /-- The alternatives that are complete, the latest first. -/
  branches : List Piece := []
  /-- The pieces of the alternative that is being read, the latest first. -/
  pieces : List Piece := []

namespace Level

/-- Adds a piece. -/
def push (l : Level) (piece : Piece) : Level := { l with pieces := piece :: l.pieces }

/-- The alternative that is being read. -/
def branch (l : Level) : Piece := .join sequence l.pieces.reverse

/-- Goes on with another alternative. -/
def split (l : Level) : Level := { l with branches := l.branch :: l.branches, pieces := [] }

/-- All alternatives. -/
def close (l : Level) : Piece := .join choice (l.branch :: l.branches).reverse

/-- Repeats the latest piece, if there is one that can be repeated. -/
def repeat? (l : Level) (min : Nat) (max : Option Nat) : Option Level :=
  match l.pieces with
  | .part p depth :: before =>
    some { l with pieces := .part (p.repeating min max) (depth + 1) :: before }
  | _ => none

end Level

/-- What has been read of a pattern. -/
structure Draft where
  level : Level := {}
  /-- The groups around, and whether the group inside of each is to be remembered. -/
  outer : List (Level × Bool) := []
  /-- The names of groups. -/
  names : List (List Char) := []

/-! ## Counts -/

/-- Reads digits, between which blanks mean nothing. -/
def digits (m : Mode) : List Char → List Char × List Char
  | [] => ([], [])
  | c :: rest =>
    if c.isDigit then
      let (more, rest) := digits m (m.skip rest)
      (c :: more, rest)
    else ([], c :: rest)
termination_by text => text.length
decreasing_by
  have := m.length_skip rest
  simp only [List.length_cons]
  omega

/-- Reads a count of 32 bits with the blanks around it. -/
def count? (m : Mode) (text : List Char) : Option (Nat × List Char) :=
  let (read, rest) := digits m (text.dropWhile isBlank)
  let value := read.foldl (fun n c => 10 * n + (c.toNat - 48)) 0
  if read = [] ∨ 1 <<< 32 ≤ value then none else some (value, rest.dropWhile isBlank)

/-- Reads how often something is repeated, after the opening brace: a count, a least one with a
comma after it, or a least and a greatest one. -/
def counts? (m : Mode) (text : List Char) : Option ((Nat × Option Nat) × List Char) := do
  let (min, rest) ← count? m (m.skip text)
  match rest with
  | '}' :: rest => return ((min, some min), m.skip rest)
  | ',' :: rest =>
    match m.skip rest with
    | '}' :: rest => return ((min, none), m.skip rest)
    | rest =>
      let (max, rest) ← count? m rest
      match rest with
      | '}' :: rest => if min ≤ max then some ((min, some max), m.skip rest) else none
      | _ => none
  | _ => none

/-- Reads the mark by which a repetition prefers to be short. -/
def skipPreference : List Char → List Char
  | '?' :: rest => rest
  | text => text

/-! ## Groups -/

/-- Reads switches up to a parenthesis or a colon; the flag says whether a colon ended them. -/
def switches? (seen : List (Option Switch)) :
    List Char → Option (List (Option Switch) × Bool × List Char)
  | [] => none
  | ')' :: rest => if seen = [] ∨ seen.getLast? = some none then none else some (seen, false, rest)
  | ':' :: rest => if seen.getLast? = some none then none else some (seen, true, rest)
  | '-' :: rest => if none ∈ seen then none else switches? (seen ++ [none]) rest
  | c :: rest => do
    let s ← Switch.ofChar? c
    if some s ∈ seen then none else switches? (seen ++ [some s]) rest

/-- Whether a name may begin with a character. -/
def isNameStart (c : Char) : Bool := c = '_' || letters.contains c

/-- Whether a name may go on with a character. -/
def isNamePart (c : Char) : Bool :=
  isNameStart c || numerals.contains c || c = '.' || c = '[' || c = ']'

/-- Whether a group may have a name. -/
def isName : List Char → Bool
  | [] => false
  | c :: rest => isNameStart c && rest.all isNamePart

/-- Reads the name of a group up to its closing bracket. -/
def name? (text : List Char) : Option (List Char × List Char) :=
  match text.dropWhile (· ≠ '>') with
  | _ :: rest =>
    let name := text.takeWhile (· ≠ '>')
    if isName name then some (name, rest) else none
  | [] => none

namespace Draft

/-- The draft with another piece. -/
def push (d : Draft) (p : Pattern) (depth : Nat) : Draft :=
  { d with level := d.level.push (.part p depth) }

/-- Opens a group. -/
def openGroup (d : Draft) (mode : Mode) (remembered : Bool) : Draft :=
  { d with level := { mode }, outer := (d.level, remembered) :: d.outer }

/-- Opens a group that is remembered by a name, which no other group has. -/
def openNamed? (d : Draft) (text : List Char) : Option (Draft × List Char) := do
  let (name, rest) ← name? text
  if name ∈ d.names then none
  return ({ d.openGroup d.level.mode true with names := name :: d.names }, rest)

/-- Reads what follows an opening parenthesis: a name, switches, or nothing of the kind. Conditions
on what stands before or after are refused. -/
def group? (d : Draft) (text : List Char) : Option (Draft × List Char) :=
  let mode := d.level.mode
  match mode.skip text with
  | '?' :: '=' :: _ | '?' :: '!' :: _ | '?' :: '<' :: '=' :: _ | '?' :: '<' :: '!' :: _ => none
  | '?' :: 'P' :: '<' :: rest | '?' :: '<' :: rest => d.openNamed? rest
  | '?' :: rest => do
    let (switches, grouped, rest) ← switches? [] rest
    let mode := mode.apply switches
    if grouped then return (d.openGroup mode false, rest)
    else return ({ d with level := { d.level.push .switches with mode } }, rest)
  | text => some (d.openGroup mode true, text)

/-- Closes the innermost group. -/
def closeGroup? (d : Draft) : Option Draft :=
  match d.outer with
  | [] => none
  | (level, remembered) :: outer =>
    let inner := d.level.close
    let p := if remembered then .group inner.pattern else inner.pattern
    some { d with level := level.push (.part p (inner.depth + 1)), outer }

/-- Adds what a character or an escape stands for. -/
def atom? (d : Draft) : Atom → Option Draft
  | .char c => (d.level.mode.literal? c).map fun set => d.push (.one set) 0
  | .set set => some (d.push (.one set) 0)
  | .anchor a => some (d.push (.anchor a) 0)

/-- Repeats the latest piece. -/
def repeat? (d : Draft) (min : Nat) (max : Option Nat) (rest : List Char) :
    Option (Draft × List Char) := do
  let level ← d.level.repeat? min max
  return ({ d with level }, skipPreference rest)

/-- Reads the next piece, which begins with `c`. -/
def step? (d : Draft) (c : Char) (rest : List Char) : Option (Draft × List Char) :=
  let m := d.level.mode
  match c with
  | '(' => d.group? rest
  | ')' => d.closeGroup?.map (·, rest)
  | '|' => some ({ d with level := d.level.split }, rest)
  | '[' => do
    let (value, rest) ← m.bracket? rest
    return (d.push (.one value.set) value.depth, rest)
  | '?' => d.repeat? 0 (some 1) rest
  | '*' => d.repeat? 0 none rest
  | '+' => d.repeat? 1 none rest
  | '{' => do
    let ((min, max), rest) ← counts? m rest
    d.repeat? min max rest
  | '\\' => do
    let (atom, rest) ← m.escape? rest
    return (← d.atom? atom, rest)
  | '.' => m.dot?.map fun set => (d.push (.one set) 0, rest)
  | '^' =>
    let a := if m.manyLines then .lineStart m.carriage else .textStart
    (d.atom? (.anchor a)).map (·, rest)
  | '$' =>
    let a := if m.manyLines then .lineEnd m.carriage else .textEnd
    (d.atom? (.anchor a)).map (·, rest)
  | c => (d.atom? (.char c)).map (·, rest)

/-- Reads to the end of the text. -/
def readAll? : Nat → Draft → List Char → Option Draft
  | 0, _, _ => none
  | fuel + 1, d, text =>
    match d.level.mode.skip text with
    | [] => some d
    | c :: rest =>
      match d.step? c rest with
      | some (d, rest) => readAll? fuel d rest
      | none => none

end Draft

/-! ## Whole patterns -/

/-- How deep a pattern may be nested. -/
def depthLimit : Nat := 250

/-- Reads a pattern. -/
def parse? (text : List Char) : Option Pattern := do
  let d ← Draft.readAll? (text.length + 1) {} text
  if d.outer ≠ [] then none
  let whole := d.level.close
  let p := whole.pattern
  if depthLimit < whole.depth ∨ p.asksForScripts ∨ p.isTooLarge then none
  return p

end Pattern

end Deferred
