import Deferred.Log
import Deferred.Pattern.Reader
import Deferred.Text.Blank

/-!
# Log filters

Which lines of a log are shown. A filter is a list of directives, each of which sets the least grave
level that is shown, of one target or of all, and perhaps a pattern that has to occur in the lines.

* `Filter.parse` reads a filter, such as `warn,tuner=info/^canceled`.
* `Filter.allows` says whether a line is shown: the directive with the longest matching target
  decides.
-/

namespace Deferred

/-- The lines of targets that begin with `target` are shown down to a level, or not at all. -/
structure Directive where
  /-- The beginning of the targets, or none for all of them. -/
  target : Option String
  /-- The least grave level that is shown, or none. -/
  level : Option Level
  deriving DecidableEq

namespace Directive

/-- How long the beginning of a directive's targets is. -/
def length (d : Directive) : Nat := (d.target.map String.utf8ByteSize).getD 0

/-- Whether a directive is about a target. -/
def covers (d : Directive) (target : String) : Bool :=
  match d.target with
  | some beginning => beginning.toList.isPrefixOf target.toList
  | none => true

end Directive

/-- Which lines of a log are shown. -/
structure Filter where
  /-- At most one directive for each target. -/
  directives : List Directive
  /-- A pattern that has to occur in a line. -/
  pattern : Option Pattern := none
  deriving DecidableEq

namespace Filter

/-! ## Reading -/

/-- The levels that a directive can set, by their names. -/
def levels : List (String × Option Level) := [
  ("OFF", none), ("ERROR", some .error), ("WARN", some .warn), ("INFO", some .info),
  ("DEBUG", some .debug), ("TRACE", some .trace)]

/-- The level of a name, in letters of any case. -/
def level? (name : String) : Option (Option Level) :=
  levels.lookup (String.ofList (name.toList.map Char.toUpper))

/-- One directive: a level, a target, or both with a sign between them. -/
def directive? (s : String) : Option Directive :=
  match s.splitOn "=" with
  | [only] =>
    match level? only with
    | some level => some ⟨none, level⟩
    | none => some ⟨some only, some .trace⟩
  | [target, level] =>
    if trimBlank level = "" then some ⟨some target, some .trace⟩
    else (level? (trimBlank level)).map (⟨some target, ·⟩)
  | _ => none

/-- Adds a directive, in the place of an earlier one for the same target. -/
def insert (ds : List Directive) (d : Directive) : List Directive :=
  if ds.any (·.target = d.target) then ds.map fun old => if old.target = d.target then d else old
  else ds ++ [d]

/-- The directives in a text, those that make no sense left out. -/
def directives? (s : String) : List Directive :=
  (((s.splitOn ",").map trimBlank).filter (· ≠ "")).filterMap directive? |>.foldl insert []

/-- Without directives, only errors are shown. -/
def ofDirectives (ds : List Directive) (pattern : Option Pattern) : Filter :=
  { directives := if ds = [] then [⟨none, some .error⟩] else ds, pattern }

/-- Reads a filter: directives, and after a slash the pattern that has to occur in lines. A pattern
that cannot be read is left out. A second slash makes the whole filter void. -/
def parse (s : String) : Filter :=
  match s.splitOn "/" with
  | [ds] => ofDirectives (directives? ds) none
  | [ds, text] => ofDirectives (directives? ds) (Pattern.parse? text.toList)
  | _ => ofDirectives [] none

/-! ## Filtering -/

/-- The longer of two directives. -/
def longer (best : Option Directive) (d : Directive) : Option Directive :=
  match best with
  | some b => if d.length < b.length then best else some d
  | none => some d

/-- The directive that decides about a target. -/
def decisive? (f : Filter) (target : String) : Option Directive :=
  (f.directives.filter (·.covers target)).foldl longer none

/-- Whether a line is shown. -/
def allows (f : Filter) (target : String) (level : Level) (message : String) : Bool :=
  let shown := match (f.decisive? target).bind (·.level) with
    | some least => decide (level.rank ≤ least.rank)
    | none => false
  shown && f.pattern.all (·.occursIn message.toList)

end Filter

end Deferred
