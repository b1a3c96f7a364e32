import Deferred.Pattern.CharSet

/-!
# Patterns

Patterns of text, and whether a text contains a stretch that a pattern describes.

A set of positions in a text is a number whose bits are the positions, so that one step of matching
is made at all positions at once. A pattern is a function on such sets: it leads from the positions
at which a stretch may begin to those at which it may end.

* `Pattern` is a pattern, `Anchor` a condition on a position between two characters.
* `Pattern.ends` leads from the beginnings of stretches to their ends.
* `Pattern.occursIn` says whether a text contains a stretch of the pattern.
-/

namespace Deferred

/-! ## Positions -/

/-- Where a position lies in words. -/
inductive WordEdge
  /-- Where a word begins or ends. -/
  | boundary
  /-- Where no word begins or ends. -/
  | within
  /-- Where a word begins. -/
  | start
  /-- Where a word ends. -/
  | finish
  /-- Where no word reaches up to the position. -/
  | startHalf
  /-- Where no word goes on from the position. -/
  | finishHalf
  deriving DecidableEq, Repr

/-- A condition on a position. -/
inductive Anchor
  /-- The text begins here. -/
  | textStart
  /-- The text ends here. -/
  | textEnd
  /-- A line begins here; `carriage` says whether carriage returns end lines too. -/
  | lineStart (carriage : Bool)
  /-- A line ends here. -/
  | lineEnd (carriage : Bool)
  /-- Words lie here as `edge` says; `ascii` says whether only letters of ASCII make words. -/
  | word (edge : WordEdge) (ascii : Bool)
  deriving DecidableEq, Repr

/-- Whether a character belongs to words. -/
def isWordChar (c : Option Char) : Bool := c.any CharSet.word.contains

/-- Whether words lie as `edge` says between two characters. -/
def WordEdge.holds (edge : WordEdge) (before after : Option Char) : Bool :=
  match edge with
  | boundary => isWordChar before != isWordChar after
  | within => isWordChar before == isWordChar after
  | start => !isWordChar before && isWordChar after
  | finish => isWordChar before && !isWordChar after
  | startHalf => !isWordChar before
  | finishHalf => !isWordChar after

/-- Whether a condition holds between two characters; none stands for an end of the text. -/
def Anchor.holds (anchor : Anchor) (before after : Option Char) : Bool :=
  match anchor with
  | textStart => before.isNone
  | textEnd => after.isNone
  | lineStart false => before.isNone || before == some '\n'
  | lineStart true =>
    before.isNone || before == some '\n' || (before == some '\r' && after != some '\n')
  | lineEnd false => after.isNone || after == some '\n'
  | lineEnd true =>
    after.isNone || after == some '\r' || (after == some '\n' && before != some '\r')
  | word edge _ => edge.holds before after

/-- The positions of a text at which a condition holds; `before` stands in front of the text. -/
def positionsFrom (holds : Option Char → Option Char → Bool) (before : Option Char) :
    List Char → Nat
  | [] => (holds before none).toNat
  | c :: rest => (holds before (some c)).toNat + 2 * positionsFrom holds (some c) rest

/-- The positions of a text at which a condition holds. -/
def positions (holds : Option Char → Option Char → Bool) (text : List Char) : Nat :=
  positionsFrom holds none text

/-! ## Patterns -/

/-- A pattern. -/
inductive Pattern
  /-- No character. -/
  | empty
  /-- One character of a set. -/
  | one (set : CharSet)
  /-- No character, where a condition holds. -/
  | anchor (anchor : Anchor)
  /-- A stretch of the first pattern, and then one of the second. -/
  | both (first second : Pattern)
  /-- A stretch of either pattern. -/
  | either (first second : Pattern)
  /-- At least `min` stretches in a row, and at most `max` if there is a limit. -/
  | repeated (pattern : Pattern) (min : Nat) (max : Option Nat)
  /-- A stretch that is to be remembered. -/
  | group (pattern : Pattern)
  deriving DecidableEq, Repr

namespace Pattern

instance : Inhabited Pattern := ⟨empty⟩

/-- Applies a step so many times, or until it changes nothing. -/
def advance (step : Nat → Nat) : Nat → Nat → Nat
  | 0, s => s
  | n + 1, s => if step s = s then s else advance step n (step s)

/-- Adds what up to so many steps lead to. -/
def spread (step : Nat → Nat) : Nat → Nat → Nat
  | 0, s => s
  | n + 1, s => if s ||| step s = s then s else spread step n (s ||| step s)

/-- The positions at which stretches end that begin at some of the positions `s`. -/
def ends (text : List Char) : Pattern → Nat → Nat
  | empty, s => s
  | one set, s => 2 * (s &&& positions (fun _ after => after.any set.contains) text)
  | anchor a, s => s &&& positions a.holds text
  | both p q, s => ends text q (ends text p s)
  | either p q, s => ends text p s ||| ends text q s
  | repeated p min max, s =>
    let further := match max with
      | some max => max - min
      | none => text.length
    spread (ends text p) further (advance (ends text p) min s)
  | group p, s => ends text p s

/-- Whether a text contains a stretch of the pattern. -/
def occursIn (p : Pattern) (text : List Char) : Bool :=
  p.ends text ((1 <<< (text.length + 1)) - 1) ≠ 0

/-! ## Shorter forms -/

/-- Whether all stretches of the pattern are without characters, whatever the text. -/
def isWidthless : Pattern → Bool
  | empty | anchor _ => true
  | one _ => false
  | both p q | either p q => p.isWidthless && q.isWidthless
  | repeated p _ _ | group p => p.isWidthless

/-- The pattern again and again. Once is as good as often where no character is taken, and nothing
is left of a pattern that is not to occur. -/
def repeating (p : Pattern) (min : Nat) (max : Option Nat) : Pattern :=
  let least := if p.isWidthless then Nat.min min 1 else min
  let most := if p.isWidthless then some (Nat.min (max.getD 1) 1) else max
  if least = 0 ∧ most = some 0 then empty
  else if least = 1 ∧ most = some 1 then p
  else repeated p least most

/-- One pattern after the other. -/
def sequence : List Pattern → Pattern
  | [] => empty
  | [p] => p
  | p :: rest => both p (sequence rest)

/-- The set of a pattern of one character. -/
def set? : Pattern → Option CharSet
  | one set => some set
  | _ => none

/-- One of the patterns. Single characters are gathered in one set. -/
def choice (ps : List Pattern) : Pattern :=
  match ps.mapM set? with
  | some sets => one (sets.foldl CharSet.union .empty)
  | none => alternatives ps
where
  /-- One pattern or another. -/
  alternatives : List Pattern → Pattern
    | [] => one .empty
    | [p] => p
    | p :: rest => either p (alternatives rest)

/-- Whether the words of all scripts would be needed to match the pattern. -/
def asksForScripts : Pattern → Bool
  | empty | one _ => false
  | anchor (.word _ ascii) => !ascii
  | anchor _ => false
  | both p q | either p q => p.asksForScripts || q.asksForScripts
  | repeated p _ _ | group p => p.asksForScripts

end Pattern

end Deferred
