import Deferred.Pattern.Escape

/-!
# Sets between brackets

A set of characters between brackets: characters, ranges, classes and further brackets, and the
operations `&&`, `--` and `~~` between groups of them. Operations are made from left to right.

* `Bracket` is an open bracket with what has been read of it.
* `Mode.bracket?` reads a set, from the character after its opening bracket on.
-/

namespace Deferred

/-- An operation on two sets. -/
abbrev SetOp := CharSet → CharSet → CharSet

/-- A set and how deep the brackets and operations in it are nested. -/
structure NestedSet where
  set : CharSet
  depth : Nat := 0

/-- An open bracket. -/
structure Bracket where
  negated : Bool
  /-- What stands before the latest operation, and the operation. -/
  left : Option (NestedSet × SetOp) := none
  /-- The members read since then. -/
  members : CharSet := .empty
  count : Nat := 0
  depth : Nat := 0

namespace Bracket

/-- The bracket with one more member. -/
def add (b : Bracket) (member : NestedSet) : Bracket :=
  { b with
    members := b.members.union member.set
    count := b.count + 1
    depth := Nat.max b.depth member.depth }

/-- The set read so far, all operations made. -/
def value (b : Bracket) : NestedSet :=
  let depth := if b.count < 2 then b.depth else b.depth + 1
  match b.left with
  | none => ⟨b.members, depth⟩
  | some (left, op) => ⟨op left.set b.members, Nat.max left.depth depth + 1⟩

/-- The bracket after an operation. -/
def operate (b : Bracket) (op : SetOp) : Bracket :=
  { negated := b.negated, left := some (b.value, op) }

end Bracket

namespace Mode

/-! ## Opening and closing -/

/-- Reads hyphens at the beginning of a bracket, which stand for themselves. -/
def leadingHyphens? (m : Mode) (b : Bracket) : List Char → Option (Bracket × List Char)
  | [] => none
  | c :: rest =>
    if c = '-' then
      match m.member? '-' '-' with
      | some set => m.leadingHyphens? (b.add { set }) (m.skip rest)
      | none => none
    else some (b, c :: rest)
termination_by text => text.length
decreasing_by
  have := m.length_skip rest
  simp only [List.length_cons]
  omega

/-- Opens a bracket. Hyphens at its beginning stand for themselves, and so does a closing bracket
that is the first member. -/
def openBracket? (m : Mode) (text : List Char) : Option (Bracket × List Char) := do
  let (negated, text) :=
    match m.skip text with
    | '^' :: rest => (true, m.skip rest)
    | text => (false, text)
  match ← m.leadingHyphens? { negated } text with
  | (b, ']' :: rest) =>
    if b.count = 0 then
      let set ← m.member? ']' ']'
      if (m.skip rest).isEmpty then none
      return (b.add { set }, m.skip rest)
    else return (b, ']' :: rest)
  | opened => return opened

/-- The set of a bracket that is closed. -/
def closeBracket? (m : Mode) (b : Bracket) : Option NestedSet := do
  let value := b.value
  let set ← if b.negated then m.compl? value.set else some value.set
  return ⟨set, value.depth + 1⟩

/-! ## Members -/

/-- Reads the name of a class, after an opening bracket: `:alpha:]` or `:^alpha:]`. The flag says
whether the class is negated. -/
def className? (text : List Char) : Option (Bool × CharSet × List Char) :=
  match text with
  | ':' :: rest =>
    let (negated, rest) := match rest with
      | '^' :: rest => (true, rest)
      | rest => (false, rest)
    match rest.dropWhile (· ≠ ':') with
    | ':' :: ']' :: after =>
      (CharSet.named? (String.ofList (rest.takeWhile (· ≠ ':')))).map fun set =>
        (negated, set, after)
    | _ => none
  | _ => none

/-- The set of a named class. -/
def namedClass? (m : Mode) (negated : Bool) (set : CharSet) : Option NestedSet := do
  let set ← m.asciiClass? set
  let set ← if negated then m.compl? set else some set
  return { set }

/-- Reads a character or an escape. -/
def bracketAtom? (m : Mode) : List Char → Option (Atom × List Char)
  | [] => none
  | '\\' :: rest => m.escape? rest
  | c :: rest => some (.char c, rest)

/-- The character after a hyphen, blanks and the beginning of one comment apart. -/
def peek (m : Mode) (text : List Char) : Option Char :=
  if m.spaced then
    match text.dropWhile isBlank with
    | '#' :: rest => (rest.dropWhile isBlank).head?
    | text => text.head?
  else text.head?

/-- Reads a member: a character, a class, or a range. A hyphen makes a range unless the bracket is
closed or a difference begins after it. -/
def bracketMember? (m : Mode) (text : List Char) : Option (NestedSet × List Char) := do
  let (first, rest) ← m.bracketAtom? text
  let alone := fun (rest : List Char) => match first with
    | .char c => (m.member? c c).map fun set => (({ set } : NestedSet), rest)
    | .set set => (m.asciiClass? set).map fun set => (({ set } : NestedSet), rest)
    | .anchor _ => none
  match m.skip rest with
  | [] => none
  | '-' :: rest =>
    if m.peek rest = some ']' ∨ m.peek rest = some '-' then alone ('-' :: rest)
    else
      match first, ← m.bracketAtom? (m.skip rest) with
      | .char low, (.char high, rest) =>
        if low ≤ high then (m.member? low high).map fun set => ({ set }, rest) else none
      | _, _ => none
  | rest => alone rest

/-! ## Brackets within brackets -/

/-- Reads to the end of the outermost of some open brackets, the innermost of which is `b`. -/
def bracketFrom? (m : Mode) :
    Nat → Bracket → List Bracket → List Char → Option (NestedSet × List Char)
  | 0, _, _, _ => none
  | fuel + 1, b, outer, text =>
    match m.skip text with
    | [] => none
    | '[' :: rest =>
      match className? rest with
      | some (negated, set, rest) => do
        m.bracketFrom? fuel (b.add (← m.namedClass? negated set)) outer rest
      | none => do
        let (inner, rest) ← m.openBracket? rest
        m.bracketFrom? fuel inner (b :: outer) rest
    | ']' :: rest => do
      let closed ← m.closeBracket? b
      match outer with
      | [] => return (closed, rest)
      | b :: outer => m.bracketFrom? fuel (b.add closed) outer rest
    | '&' :: '&' :: rest => m.bracketFrom? fuel (b.operate CharSet.inter) outer rest
    | '-' :: '-' :: rest => m.bracketFrom? fuel (b.operate CharSet.diff) outer rest
    | '~' :: '~' :: rest => m.bracketFrom? fuel (b.operate CharSet.symmDiff) outer rest
    | text => do
      let (member, rest) ← m.bracketMember? text
      m.bracketFrom? fuel (b.add member) outer rest

/-- Reads a set after its opening bracket. -/
def bracket? (m : Mode) (text : List Char) : Option (NestedSet × List Char) := do
  let (b, rest) ← m.openBracket? text
  m.bracketFrom? (rest.length + 1) b [] rest

end Mode

end Deferred
