import Deferred.Panic
import Deferred.Task

/-!
# Scripts

What the callables of an executor do, as data: calls on the executor, one after the other, and
perhaps a panic. A call that schedules a task carries the scripts of the new task's callables, so
that a script is a finite tree.

* `Script` is what a callable does, `Script.head` the next thing that it does.
* `Request` is one call on the executor, from a callable or from a caller.
* `Script.cut` ends every script where it would panic.
-/

namespace Deferred

/-- What a callable does. -/
inductive Script
  /-- Nothing more. -/
  | done
  /-- Schedule a task without a cancellation callback. -/
  | schedule (label : String) (due : Due) (action next : Script)
  /-- Schedule a task with a cancellation callback. -/
  | scheduleWithCancel (label : String) (due : Due) (action onCancel next : Script)
  /-- Cancel all pending tasks. -/
  | cancelAll (next : Script)
  /-- Ask how many tasks are pending. -/
  | pending (next : Script)
  /-- Ask for the name of the thread that runs the callable. -/
  | threadName (next : Script)
  /-- Shut the executor down. -/
  | shutdown (next : Script)
  /-- Drop the executor. -/
  | drop (next : Script)
  /-- Panic; what follows is never done. -/
  | panic (payload : Payload) (next : Script)
  deriving DecidableEq

instance : Inhabited Script := ⟨.done⟩

/-! ## Calls -/

/-- A task as a caller asks for it. -/
structure Spec where
  label : String
  due : Due
  action : Script := .done
  onCancel : Option Script := none
  deriving DecidableEq

/-- The task that a caller asks for, with its number and deadline. -/
def Spec.task (spec : Spec) (id : TaskId) (deadline : Instant) : Task Script where
  id
  label := spec.label
  due := spec.due
  deadline
  action := spec.action
  onCancel := spec.onCancel

/-- A call on the executor. -/
inductive Request
  | schedule (spec : Spec)
  | cancelAll
  | pending
  | threadName
  | shutdown
  | drop
  deriving DecidableEq

/-- What a call was about. -/
inductive Topic
  | schedule (label : String)
  | cancelAll
  | pending
  | threadName
  | shutdown
  | drop
  deriving DecidableEq

/-- What a call is about. -/
def Request.topic : Request → Topic
  | schedule spec => .schedule spec.label
  | cancelAll => .cancelAll
  | pending => .pending
  | threadName => .threadName
  | shutdown => .shutdown
  | drop => .drop

namespace Script

/-- The next thing that a script does. -/
inductive Head
  /-- It is over. -/
  | finish
  /-- It makes a call and goes on with the rest. -/
  | call (request : Request) (rest : Script)
  /-- It panics. -/
  | raise (payload : Payload)

/-- The next thing that a script does. -/
def head : Script → Head
  | done => .finish
  | schedule label due action next => .call (.schedule { label, due, action }) next
  | scheduleWithCancel label due action onCancel next =>
    .call (.schedule { label, due, action, onCancel := some onCancel }) next
  | cancelAll next => .call .cancelAll next
  | pending next => .call .pending next
  | threadName next => .call .threadName next
  | shutdown next => .call .shutdown next
  | drop next => .call .drop next
  | panic payload _ => .raise payload

/-- The script that makes a call and goes on with the rest. -/
def ofCall (request : Request) (rest : Script) : Script :=
  match request with
  | .schedule { label, due, action, onCancel := none } => schedule label due action rest
  | .schedule { label, due, action, onCancel := some onCancel } =>
    scheduleWithCancel label due action onCancel rest
  | .cancelAll => cancelAll rest
  | .pending => pending rest
  | .threadName => threadName rest
  | .shutdown => shutdown rest
  | .drop => drop rest

/-! ## Sizes and cuts -/

/-- The number of callables that a script can bring about, those inside others included. -/
def callables : Script → Nat
  | done => 0
  | schedule _ _ action next => action.callables + next.callables + 1
  | scheduleWithCancel _ _ action onCancel next =>
    action.callables + onCancel.callables + next.callables + 2
  | cancelAll next | pending next | threadName next | shutdown next | drop next
  | panic _ next => next.callables

/-- The script that ends where it would panic, and whose tasks do so too. -/
def cut : Script → Script
  | done => done
  | schedule label due action next => schedule label due action.cut next.cut
  | scheduleWithCancel label due action onCancel next =>
    scheduleWithCancel label due action.cut onCancel.cut next.cut
  | cancelAll next => cancelAll next.cut
  | pending next => pending next.cut
  | threadName next => threadName next.cut
  | shutdown next => shutdown next.cut
  | drop next => drop next.cut
  | panic _ _ => done

end Script

end Deferred
