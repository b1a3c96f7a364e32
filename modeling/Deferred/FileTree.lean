import Deferred.Error

/-!
# Files and directories

A tree of directories with text files. The operations on it walk a name step by step, and fail as
an operating system does.

* `FileTree.write`, `FileTree.read?` and `FileTree.makeDirectories` work on names.
* `FileTree.enter` takes one step on the way to a file.
-/

namespace Deferred

/-- The steps from the root to a file or directory. -/
abbrev Path := List String

/-- What stands at a path. -/
inductive FileNode
  | file (text : String)
  | directory
  deriving DecidableEq

/-- The files and directories below a root, which is a directory itself. -/
structure FileTree where
  nodes : List (Path × FileNode) := []
  deriving DecidableEq

namespace FileTree

/-- What stands at a path, if anything does. -/
def find? (t : FileTree) (path : Path) : Option FileNode :=
  if path = [] then some .directory else t.nodes.lookup path

/-- Puts something at a path, in the place of what stood there. -/
def put (t : FileTree) (path : Path) (node : FileNode) : FileTree :=
  { nodes := (path, node) :: t.nodes.filter (·.1 ≠ path) }

/-! ## Names -/

/-- The longest step of a name, in bytes. -/
def longestStep : Nat := 255

/-- The length from which on a whole name is refused, in bytes. -/
def nameLimit : Nat := 4096

/-- A name in its steps; steps of no letters stand for nothing. -/
def steps (name : String) : List String := (name.splitOn "/").filter (· ≠ "")

/-- Whether a name ends like one of a directory. -/
def asksForDirectory (name : String) : Bool := name.endsWith "/"

/-- The steps of a name that can be looked up at all. -/
def parse (name : String) : Except IoFailure (List String) :=
  if '\x00' ∈ name.toList then .error (.other "file name contained an unexpected NUL byte")
  else if nameLimit ≤ name.utf8ByteSize then .error (.system .nameTooLong)
  else .ok (steps name)

/-- The path that a step leads to; nothing need stand there. -/
def next (dir : Path) (step : String) : Except SystemError Path :=
  if step = "." then .ok dir
  else if step = ".." then .ok dir.dropLast
  else if longestStep < step.utf8ByteSize then .error .nameTooLong
  else .ok (dir ++ [step])

/-- The directory that a step leads to. -/
def enter (t : FileTree) (dir : Path) (step : String) : Except SystemError Path := do
  let path ← next dir step
  match t.find? path with
  | some .directory => .ok path
  | some (.file _) => .error .notADirectory
  | none => .error .notFound

/-! ## Operations -/

/--
Writes a file below a directory: all steps but the last must lead through directories. A name that
ends like one of a directory is refused before its last step is looked up.
-/
def writeFrom (t : FileTree) (dir : Path) (asDirectory : Bool) (text : String) :
    List String → Except SystemError FileTree
  | [] => .error .isADirectory
  | [last] =>
    if asDirectory then .error .isADirectory
    else do
      let path ← next dir last
      match t.find? path with
      | some .directory => .error .isADirectory
      | _ => .ok (t.put path (.file text))
  | step :: rest => do
    let dir ← t.enter dir step
    t.writeFrom dir asDirectory text rest

/-- Writes a file, new or in the place of one that is there. -/
def write (t : FileTree) (name text : String) : Except IoFailure FileTree := do
  let steps ← parse name
  match t.writeFrom [] (asksForDirectory name) text steps with
  | .ok t => .ok t
  | .error e => .error (.system e)

/-- What stands at the end of some steps from a directory. -/
def followFrom (t : FileTree) (dir : Path) : List String → Except SystemError FileNode
  | [] => .ok .directory
  | [last] => do
    match t.find? (← next dir last) with
    | some node => .ok node
    | none => .error .notFound
  | step :: rest => do
    let dir ← t.enter dir step
    t.followFrom dir rest

/-- The text of a file, if it can be read. -/
def read? (t : FileTree) (name : String) : Option String :=
  match parse name with
  | .error _ => none
  | .ok steps =>
    match t.followFrom [] steps with
    | .ok (.file text) => if asksForDirectory name then none else some text
    | _ => none

/-- Whether a name asks for what lies inside of a directory that has to be there. -/
def asksForInside (name : String) : Bool := (steps name).getLast? = some "."

/--
Makes the directories that some steps need, and says what has ended the work before its end; what
has been made by then stays. The last step must lead to a directory that is there if `inside` says
so. Once a directory has been made, as `made` says, each step is a directory that is asked for by
itself; before that, only the last one is.
-/
def makeFrom (t : FileTree) (dir : Path) (inside made : Bool) :
    List String → FileTree × Option SystemError
  | [] => (t, none)
  | step :: rest =>
    match next dir step with
    | .error e => (t, some e)
    | .ok path =>
      match t.find? path with
      | some .directory => t.makeFrom path inside made rest
      | some (.file _) =>
        let askedFor := if rest = [] then !inside else made
        (t, some (if askedFor then .alreadyExists else .notADirectory))
      | none =>
        if rest = [] ∧ inside then (t, some .notFound)
        else (t.put path .directory).makeFrom path inside true rest

/-- Makes a directory and those above it, as far as they are missing, and says what has ended the
work before its end. -/
def makeDirectories (t : FileTree) (name : String) : FileTree × Option IoFailure :=
  match parse name with
  | .error failure => (t, some failure)
  | .ok steps =>
    let (t, ended) := t.makeFrom [] (asksForInside name) false (steps.filter (· ≠ "."))
    (t, ended.map .system)

end FileTree

end Deferred
