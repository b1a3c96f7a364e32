import Deferred.Queue

/-!
# A workbench of queues

Several queues under names, and a hand of tasks that are in no queue. Tasks move between the queues
and the hand; a task can be looked at, run or canceled while it is in the hand. Tasks bear labels,
and a label stands for the task that was last made under it.

* `Workbench.perform` carries out one command and says what it came to.
-/

namespace Deferred

/-- Queues, and tasks in the hand. -/
structure Workbench where
  queues : List (String × Queue Unit)
  hand : List (String × Task Unit) := []
  /-- The numbers last given out under each label. -/
  ids : List (String × TaskId) := []
  nextId : Nat := 1

namespace Workbench

/-- One queue under a name, and nothing in the hand. -/
def start (name : String) (limit : Option Nat) : Workbench := { queues := [(name, .empty limit)] }

/-! ## Queues and the hand -/

/-- The queue of a name; a name that was never used has an empty queue without limit. -/
def queue (w : Workbench) (name : String) : Queue Unit := (w.queues.lookup name).getD default

/-- Puts a queue under a name, in the place of the one before. -/
def setQueue (w : Workbench) (name : String) (q : Queue Unit) : Workbench :=
  { w with queues := (name, q) :: w.queues.filter (·.1 ≠ name) }

/-- Takes a task into the hand, in the place of one with the same label. -/
def hold (w : Workbench) (t : Task Unit) : Workbench :=
  { w with hand := (t.label, t) :: w.hand.filter (·.1 ≠ t.label) }

/-- Puts the task of a label out of the hand. -/
def release (w : Workbench) (label : String) : Workbench :=
  { w with hand := w.hand.filter (·.1 ≠ label) }

/-- How a new task is to look. -/
structure Order where
  label : String
  deadline : Instant
  cancelable : Bool

/-- Makes a task, which takes the next number. -/
def make (w : Workbench) (o : Order) : Task Unit × Workbench :=
  let id : TaskId := ⟨w.nextId⟩
  let task : Task Unit :=
    { id, label := o.label, due := .instant o.deadline, deadline := o.deadline, action := (),
      onCancel := if o.cancelable then some () else none }
  (task, { w with
    ids := (o.label, id) :: w.ids.filter (·.1 ≠ o.label)
    nextId := w.nextId + 1 })

/-! ## Commands -/

/-- What can be done with a task in the hand. -/
inductive Handling
  /-- Ask whether the task is due. -/
  | isDue (now : Instant)
  /-- Ask whether the task has a cancellation callback. -/
  | isCancelable
  /-- Write the task down, all but its deadline. -/
  | describe
  /-- Run the task. -/
  | run
  /-- Cancel the task: invoke its cancellation callback, if it has one. -/
  | cancel

/-- What can be done on the workbench. -/
inductive Command
  /-- Make a task and take it into the hand. -/
  | make (order : Order)
  /-- Push the task of that label out of the hand, or a new one if the hand holds none. -/
  | push (order : Order)
  /-- Take the first task into the hand. -/
  | pop
  /-- Take the first task into the hand if it is due. -/
  | popDue (now : Instant)
  /-- Move all tasks into a queue under a name. -/
  | takeAll (into : String)
  /-- Move all tasks out and list them. -/
  | drain
  /-- Compare the numbers of two tasks. -/
  | compare (first second : String)
  /-- Handle a task in the hand. -/
  | handle (label : String) (handling : Handling)

/-- What a command comes to. -/
inductive Reply
  | ok
  | failed (error : Error)
  | id (id : TaskId)
  | task (task : Option (Task Unit))
  | count (tasks : Nat)
  | drained (tasks : List (Task Unit))
  | compared (order : Ordering)
  | flag (value : Bool)
  | text (value : String)
  /-- The task's action was invoked. -/
  | ran (label : String)
  /-- The task's cancellation callback was invoked, if it has one. -/
  | canceled (label : Option String)
  /-- The hand holds no task of that label. -/
  | notInHand

/-- What handling a task in the hand comes to. -/
def handle (w : Workbench) (t : Task Unit) : Handling → Workbench × Reply
  | .isDue now => (w, .flag (t.isDue now))
  | .isCancelable => (w, .flag t.isCancelable)
  | .describe => (w, .text t.fieldsText)
  | .run => (w.release t.label, .ran t.label)
  | .cancel => (w.release t.label, .canceled (t.onCancel.map fun _ => t.label))

/-- The task of a label out of the hand, or a new one if the hand holds none. -/
def fetch (w : Workbench) (o : Order) : Task Unit × Workbench :=
  match w.hand.lookup o.label with
  | some task => (task, w.release o.label)
  | none => w.make o

/-- Takes what was popped from the queue of a name into the hand. -/
def takePopped (w : Workbench) (name : String) :
    Option (Task Unit × Queue Unit) → Workbench × Reply
  | none => (w, .task none)
  | some (t, rest) => ((w.setQueue name rest).hold t, .task (some t))

/-- Carries out a command on the queue of a name. -/
def perform (w : Workbench) (name : String) : Command → Workbench × Reply
  | .make order =>
    let (task, w) := w.make order
    (w.hold task, .id task.id)
  | .push order =>
    let (task, w) := w.fetch order
    match (w.queue name).push task with
    | .ok q => (w.setQueue name q, .ok)
    | .error error => (w, .failed error)
  | .pop => w.takePopped name (w.queue name).pop?
  | .popDue now => w.takePopped name ((w.queue name).popDue? now)
  | .takeAll into =>
    let (taken, rest) := (w.queue name).takeAll
    ((w.setQueue name rest).setQueue into taken, .count taken.size)
  | .drain =>
    let (taken, rest) := (w.queue name).takeAll
    (w.setQueue name rest, .drained taken.drain)
  | .compare first second =>
    match w.ids.lookup first, w.ids.lookup second with
    | some a, some b => (w, .compared (compare a.number b.number))
    | _, _ => (w, .notInHand)
  | .handle label handling =>
    match w.hand.lookup label with
    | some task => w.handle task handling
    | none => (w, .notInHand)

end Workbench

end Deferred
