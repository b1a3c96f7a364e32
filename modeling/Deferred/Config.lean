import Deferred.Error
import Deferred.Panic

/-!
# Configuration

The settings of an executor, the rule that says which are valid, and a builder that sets them one
by one.

* `Config.validate` names the first fault of a configuration, in the order of `Config.Fault`.
* `Config.apply` makes one setting, `Config.build` makes any number of them and validates.
-/

namespace Deferred

/-- What becomes of the tasks that are still pending when an executor shuts down. -/
inductive ShutdownPolicy
  /-- They are dropped; neither callable runs. -/
  | discard
  /-- Their cancellation callbacks run, the earliest deadline first. -/
  | cancelPending
  deriving DecidableEq, Repr

namespace ShutdownPolicy

instance : Inhabited ShutdownPolicy := ⟨discard⟩

/-- The name of a policy. -/
def name : ShutdownPolicy → String
  | discard => "Discard"
  | cancelPending => "CancelPending"

end ShutdownPolicy

/-- The settings of an executor. -/
structure Config where
  threadName : String := "delayed-worker"
  stackSize : Option Nat := none
  maxPending : Option Nat := none
  panicStrategy : PanicStrategy := .propagate
  shutdownPolicy : ShutdownPolicy := .discard
  deriving DecidableEq, Repr

namespace Config

instance : Inhabited Config := ⟨{}⟩

/-! ## Validity -/

/-- What can be wrong with a configuration. -/
inductive Fault
  | emptyName
  | nulInName
  | noPending
  | noStack
  deriving DecidableEq, Repr

/-- The text of a fault. -/
def Fault.text : Fault → String
  | emptyName => "thread_name must not be empty"
  | nulInName => "thread_name must not contain NUL bytes"
  | noPending => "max_pending must be > 0"
  | noStack => "stack_size must be > 0"

/-- The first fault of a configuration. -/
def fault? (c : Config) : Option Fault :=
  if c.threadName.toList = [] then some .emptyName
  else if '\x00' ∈ c.threadName.toList then some .nulInName
  else if c.maxPending = some 0 then some .noPending
  else if c.stackSize = some 0 then some .noStack
  else none

/-- Accepts a configuration without faults, and names the first fault of any other. -/
def validate (c : Config) : Except Error Unit :=
  match c.fault? with
  | some fault => .error (.config fault.text)
  | none => .ok ()

/-! ## Settings -/

/-- One setting of one field. -/
inductive Setting
  | threadName (name : String)
  | stackSize (bytes : Option Nat)
  | maxPending (tasks : Option Nat)
  | panicStrategy (strategy : PanicStrategy)
  | shutdownPolicy (policy : ShutdownPolicy)
  deriving DecidableEq, Repr

/-- A configuration with one field set. -/
def apply (c : Config) : Setting → Config
  | .threadName name => { c with threadName := name }
  | .stackSize bytes => { c with stackSize := bytes }
  | .maxPending tasks => { c with maxPending := tasks }
  | .panicStrategy strategy => { c with panicStrategy := strategy }
  | .shutdownPolicy policy => { c with shutdownPolicy := policy }

/-- The default configuration with settings made in order, valid or not. -/
def ofSettings (settings : List Setting) : Config := settings.foldl apply {}

/-- The default configuration with settings made in order, if it is valid. -/
def build (settings : List Setting) : Except Error Config := do
  let c := ofSettings settings
  c.validate
  return c

end Config

end Deferred
