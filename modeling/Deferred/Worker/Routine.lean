import Deferred.Guarded
import Deferred.Log
import Deferred.Panic.Handler
import Deferred.Telemetry.Metrics

/-!
# Routines

Actions that work on the guarded state itself: they push tasks, count them, remove them all, have
the worker end, or panic.

* `Routine` is such an action as data, one step after the other.
* `Workplace` is all that the worker and its actions work on.
* `Workplace.perform` carries out a routine up to its end or its panic.
-/

namespace Deferred

/-- An action that works on the guarded state. -/
inductive Routine
  /-- Nothing more. -/
  | done
  /-- Push a task whose action is `routine`. -/
  | push (label : String) (deadline : Instant) (routine next : Routine)
  /-- Count the pending tasks. -/
  | length (next : Routine)
  /-- Remove all pending tasks. -/
  | clear (next : Routine)
  /-- Have the worker end. -/
  | terminate (next : Routine)
  /-- Panic; what follows is never carried out. -/
  | panic (payload : Payload) (next : Routine)
  deriving DecidableEq

instance : Inhabited Routine := ⟨.done⟩

/-- The number of tasks that a routine can push, those that they push included. -/
def Routine.tasks : Routine → Nat
  | done => 0
  | push _ _ routine next => routine.tasks + next.tasks + 1
  | length next | clear next | terminate next | panic _ next => next.tasks

/-- What can be seen while a worker runs routines. -/
inductive WorkEvent
  /-- A task has been begun. -/
  | ran (label : String)
  /-- A routine has pushed a task. -/
  | pushed (label : String)
  /-- A routine has pushed a task, and the queue has refused it. -/
  | rejected (label : String) (error : Error)
  /-- A routine has counted the pending tasks. -/
  | length (tasks : Nat)
  /-- A routine has removed all pending tasks. -/
  | cleared (tasks : Nat)
  /-- A line has been logged. -/
  | logged (line : LogLine)
  deriving DecidableEq

/-- What the worker and its actions work on. -/
structure Workplace where
  guarded : Guarded Routine
  handler : Handler
  metrics : Metrics := {}
  clock : Instant := ⟨0⟩
  nextId : Nat := 1
  /-- What has been seen, the latest first. -/
  events : List WorkEvent := []

namespace Workplace

/-- Notes an event. -/
def note (w : Workplace) (e : WorkEvent) : Workplace := { w with events := e :: w.events }

/-- Notes a log line. -/
def log (w : Workplace) (line : LogLine) : Workplace := w.note (.logged line)

/-- Makes a task and pushes it straight into the queue, whatever the flags say. -/
def push (w : Workplace) (label : String) (deadline : Instant) (routine : Routine) :
    Workplace × Except Error Unit :=
  let task : Task Routine :=
    { id := ⟨w.nextId⟩, label, due := .instant deadline, deadline, action := routine }
  let w := { w with nextId := w.nextId + 1 }
  match w.guarded.pending.push task with
  | .ok pending => ({ w with guarded := { w.guarded with pending } }, .ok ())
  | .error e => (w, .error e)

/-- Carries out a routine. If it panics, the rest is not carried out. -/
def perform (w : Workplace) : Routine → Workplace × Option Payload
  | .done => (w, none)
  | .push label deadline routine next =>
    match w.push label deadline routine with
    | (w, .ok _) => (w.note (.pushed label)).perform next
    | (w, .error e) => (w.note (.rejected label e)).perform next
  | .length next => (w.note (.length w.guarded.pending.size)).perform next
  | .clear next =>
    let (taken, guarded) := w.guarded.takeAll
    ({ w with guarded }.note (.cleared taken.size)).perform next
  | .terminate next => { w with guarded := w.guarded.terminate }.perform next
  | .panic payload _ => (w, some payload)

end Workplace

end Deferred
