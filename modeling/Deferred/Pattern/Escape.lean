import Deferred.Pattern
import Deferred.Pattern.Mode
import Deferred.Text.CodePoint

/-!
# Escapes

What a backslash and the characters after it stand for: a character, by itself, by a letter or by
its code point; a class; or a condition on a position.

* `Atom` is what an escape stands for.
* `Mode.escape?` reads an escape.
-/

namespace Deferred

/-- What a character or an escape stands for. -/
inductive Atom
  /-- A character. -/
  | char (c : Char)
  /-- A class of characters. -/
  | set (set : CharSet)
  /-- A condition on a position. -/
  | anchor (anchor : Anchor)
  deriving DecidableEq, Repr

namespace Mode

/-! ## Code points -/

/-- Reads so many hexadecimal digits, after which the value is at least `value`. -/
def hexDigits? (m : Mode) : Nat → Nat → List Char → Option (Nat × List Char)
  | 0, value, text => some (value, text)
  | _ + 1, _, [] => none
  | n + 1, value, c :: rest => do
    let digit ← hexDigit? c
    m.hexDigits? n (16 * value + digit) (m.skip rest)

/-- Reads hexadecimal digits up to a closing brace; there has to be one. -/
def hexUpToBrace? (m : Mode) (value : Option Nat) : List Char → Option (Nat × List Char)
  | [] => none
  | c :: rest =>
    if c = '}' then value.map fun v => (v, m.skip rest)
    else
      match hexDigit? c with
      | some digit => m.hexUpToBrace? (some (16 * value.getD 0 + digit)) (m.skip rest)
      | none => none
termination_by text => text.length
decreasing_by
  have := m.length_skip rest
  simp only [List.length_cons]
  omega

/-- Reads a code point: so many digits, or any number of them between braces. A pair of digits
stands for a byte where the mode is confined to ASCII, so that it has to be in ASCII. -/
def codePoint? (m : Mode) (digits : Nat) (text : List Char) : Option (Char × List Char) := do
  match text with
  | '{' :: rest =>
    let (n, rest) ← m.hexUpToBrace? none (m.skip rest)
    return (← charOf? n, rest)
  | text =>
    let (n, rest) ← m.hexDigits? digits 0 text
    if digits = 2 ∧ !m.unicode ∧ 128 ≤ n then none
    return (← charOf? n, rest)

/-! ## Words -/

/-- The name of a place in words. -/
def edge? (name : String) : Option WordEdge :=
  [("start", WordEdge.start), ("end", .finish), ("start-half", .startHalf),
    ("end-half", .finishHalf)].lookup name

/-- Reads letters and hyphens. -/
def edgeName (m : Mode) : List Char → List Char × List Char
  | [] => ([], [])
  | c :: rest =>
    if c.isAlpha || c = '-' then
      let (name, rest) := m.edgeName (m.skip rest)
      (c :: name, rest)
    else ([], c :: rest)
termination_by text => text.length
decreasing_by
  have := m.length_skip rest
  simp only [List.length_cons]
  omega

/-- Reads the name of a place in words between braces, if it follows. Braces without a name are left
to be read as a count. -/
def wordEdge? (m : Mode) (text : List Char) : Option (WordEdge × List Char) :=
  match text with
  | '{' :: rest =>
    if (m.skip rest).isEmpty then none
    else
      match m.edgeName (m.skip rest) with
      | ([], _) => some (.boundary, text)
      | (name, '}' :: rest) => (edge? (String.ofList name)).map fun edge => (edge, rest)
      | _ => none
  | text => some (.boundary, text)

/-! ## Escapes -/

/-- The characters that letters stand for. -/
def controls : List (Char × Char) :=
  [('a', '\x07'), ('f', '\x0c'), ('t', '\t'), ('n', '\n'), ('r', '\r'), ('v', '\x0b')]

/-- The classes that letters stand for, which need tables where all scripts are meant. -/
def classes : List (Char × CharSet) := [('d', .digit), ('s', .space), ('w', .word)]

/-- The conditions that characters stand for. -/
def anchors (m : Mode) : List (Char × Anchor) :=
  [('A', .textStart), ('z', .textEnd), ('B', .word .within !m.unicode),
    ('<', .word .start !m.unicode), ('>', .word .finish !m.unicode)]

/-- Whether a character stands for itself after a backslash. -/
def isEscapable (c : Char) : Bool := c.toNat < 128 && !c.isAlphanum && c ≠ '<' && c ≠ '>'

/-- Reads what follows a backslash. -/
def escape? (m : Mode) : List Char → Option (Atom × List Char)
  | [] => none
  | 'x' :: rest => (m.codePoint? 2 (m.skip rest)).map fun (c, rest) => (.char c, rest)
  | 'u' :: rest => (m.codePoint? 4 (m.skip rest)).map fun (c, rest) => (.char c, rest)
  | 'U' :: rest => (m.codePoint? 8 (m.skip rest)).map fun (c, rest) => (.char c, rest)
  | 'b' :: rest =>
    (m.wordEdge? rest).map fun (edge, rest) => (.anchor (.word edge !m.unicode), rest)
  | c :: rest =>
    if isEscapable c then some (.char c, rest)
    else if let some control := controls.lookup c then some (.char control, rest)
    else if let some anchor := m.anchors.lookup c then some (.anchor anchor, rest)
    else if m.unicode then none
    else (classes.lookup c).map fun set => (.set set, rest)

end Mode

end Deferred
