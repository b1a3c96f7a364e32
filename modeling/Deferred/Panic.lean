/-!
# Panics

A callable may panic instead of finishing. The panic carries a payload, of which a text can
sometimes be read, and a strategy says what becomes of it.
-/

namespace Deferred

/-- What a panic carries. -/
inductive Payload
  /-- A text that is part of the program. -/
  | literal (text : String)
  /-- A text made when the panic was raised. -/
  | owned (text : String)
  /-- A value that is no text. -/
  | value
  deriving DecidableEq, Repr

/-- The text of a payload, or the standard one for a payload that is no text. -/
def Payload.message : Payload → String
  | .literal text | .owned text => text
  | .value => "Unknown panic"

/-- What becomes of the panic of a callable. -/
inductive PanicStrategy
  /-- It goes on unwinding, through the call that ran the callable. -/
  | propagate
  /-- It is swallowed. -/
  | isolate
  /-- It is swallowed, and a warning with its text is logged. -/
  | logAndContinue
  /-- Its text is logged, and the process ends at once. -/
  | abort
  deriving DecidableEq, Repr

namespace PanicStrategy

instance : Inhabited PanicStrategy := ⟨propagate⟩

/-- The name of a strategy. -/
def name : PanicStrategy → String
  | propagate => "Propagate"
  | isolate => "Isolate"
  | logAndContinue => "LogAndContinue"
  | abort => "Abort"

/-- Whether a panic ends at the callable that raised it. -/
def swallows : PanicStrategy → Bool
  | propagate | abort => false
  | isolate | logAndContinue => true

/-- Whether a swallowed panic is logged. -/
def warns : PanicStrategy → Bool
  | logAndContinue => true
  | propagate | isolate | abort => false

/-- A panic that is not swallowed goes on unwinding, or ends the process. -/
theorem swallows_or (s : PanicStrategy) : s.swallows = true ∨ s = propagate ∨ s = abort := by
  cases s <;> simp [swallows]

theorem ne_of_swallows {s : PanicStrategy} (h : s.swallows = true) : s ≠ propagate ∧ s ≠ abort := by
  constructor <;> rintro rfl <;> cases h

end PanicStrategy

end Deferred
