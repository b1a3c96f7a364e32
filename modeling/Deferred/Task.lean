import Deferred.Error

/-!
# Tasks

A task is an action with a deadline, and optionally a cancellation callback that is invoked in the
action's place if the task is canceled first. What a callable is made of is a parameter.

* `TaskId` numbers the tasks in the order of their creation. The numbers do not end, where a word of
  64 bits would wrap around after `2 ^ 64` tasks.
* `Task.before` is the order in which tasks are run: by deadline, and by number at one deadline.
-/

namespace Deferred

/-- The number of a task. -/
structure TaskId where
  number : Nat
  deriving DecidableEq, Repr

/-- How a task's number is shown. -/
def TaskId.text (id : TaskId) : String := s!"#{id.number}"

/-- How a caller asks for a deadline. -/
inductive Due
  /-- At an instant. -/
  | instant (when : Instant)
  /-- Some time after the call. -/
  | delay (length : Duration)
  deriving DecidableEq

/-- The deadline that is asked for at `now`; a delay must not lead beyond the end of the clock. -/
def Due.deadline (now : Instant) : Due → Except Error Instant
  | .instant when => .ok when
  | .delay length =>
    match now.after? length with
    | some when => .ok when
    | none => .error (.delayOverflows length)

/-- An action with a deadline. -/
structure Task (α : Type) where
  id : TaskId
  /-- What the caller calls the task. -/
  label : String
  /-- How the deadline was asked for. -/
  due : Due
  deadline : Instant
  action : α
  onCancel : Option α := none

namespace Task

variable {α : Type}

/-- Whether the deadline has been reached. -/
def isDue (t : Task α) (now : Instant) : Bool := t.deadline ≤ now

/-- Whether the task has a cancellation callback. -/
def isCancelable (t : Task α) : Bool := t.onCancel.isSome

/-- Whether `a` runs before `b`: its deadline is earlier, or the same and its number smaller. -/
def before (a b : Task α) : Bool :=
  a.deadline < b.deadline || (a.deadline = b.deadline && a.id.number < b.id.number)

/-- A task as its fields, the deadline left out. -/
def fieldsText (t : Task α) : String :=
  s!"Task \x7b id: TaskId({t.id.number}), when: WHEN, has_cancel_callback: {t.isCancelable} \x7d"

theorem before_iff {a b : Task α} :
    a.before b = true ↔ a.deadline.nanos < b.deadline.nanos ∨
      (a.deadline.nanos = b.deadline.nanos ∧ a.id.number < b.id.number) := by
  cases ha : a.deadline
  cases hb : b.deadline
  simp [before, ha, hb]

theorem before_irrefl (a : Task α) : a.before a = false := by
  rw [Bool.eq_false_iff, ne_eq, before_iff]
  omega

theorem before_asymm {a b : Task α} (h : a.before b = true) : b.before a = false := by
  rw [before_iff] at h
  rw [Bool.eq_false_iff, ne_eq, before_iff]
  omega

theorem before_trans {a b c : Task α} (hab : a.before b = true) (hbc : b.before c = true) :
    a.before c = true := by
  rw [before_iff] at *
  omega

/-- Not running before is transitive too. -/
theorem not_before_trans {a b c : Task α} (hab : b.before a = false) (hbc : c.before b = false) :
    c.before a = false := by
  rw [Bool.eq_false_iff, ne_eq, before_iff] at *
  omega

end Task

end Deferred
