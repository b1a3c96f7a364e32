import Deferred.Proofs.Executor.Transition

/-!
# What the trace tells

The trace is the whole history of an executor, and what has become of every task can be read off it.

* `Executor.acceptedIds`, `removedIds`, `startedIds`, `confirmedIds`, `raisedIds`: the tasks that
  have been added, taken out together, begun, reported as scheduled, and whose callables panicked.
* `Ledger` says what has become of every batch of removed tasks, `Ledger.ofTrace` reads it off.
* `Ledger.countP_removedIds`: a removed task is in exactly one of the ledger's accounts.
-/

namespace Deferred

/-! ## Events and the tasks in them -/

namespace Event

/-- The task that is added. -/
def acceptedIds : Event → List TaskId
  | accepted task => [task]
  | _ => []

/-- The tasks that are taken out together. -/
def removedIds : Event → List TaskId
  | removed tasks => tasks
  | _ => []

/-- The task of which a callable is begun. -/
def startedIds (role : Role) : Event → List TaskId
  | started r task _ => if r = role then [task] else []
  | _ => []

/-- The task of which a callable panics. -/
def raisedIds : Event → List TaskId
  | raised task _ => [task]
  | _ => []

/-- The task that a call reports as scheduled. -/
def confirmedIds : Event → List TaskId
  | returned (.scheduled task) | answered _ (.scheduled task) => [task]
  | _ => []

end Event

/-! ## The ledger -/

/-- What has become of the tasks that were removed from the queue, batch by batch. -/
structure Ledger where
  /-- The batches that are still being settled, with their threads, the latest first. -/
  unsettled : List (ThreadId × List TaskId) := []
  /-- The tasks of the batches that have been settled to the end. -/
  canceled : List TaskId := []
  /-- The tasks that have been discarded at the end of the executor. -/
  discarded : List TaskId := []
  /-- The tasks of the batches whose settling a panic has unwound. -/
  lost : List TaskId := []

namespace Ledger

/-- The batches that a thread is settling, the latest first. -/
def batchesOf (l : Ledger) (t : ThreadId) : List (List TaskId) :=
  (l.unsettled.filter (·.1 = t)).map (·.2)

/-- The batch that a thread has removed last. -/
def latest (l : Ledger) (t : ThreadId) : List TaskId := (l.batchesOf t).headD []

/-- A thread removes tasks together. -/
def take (l : Ledger) (t : ThreadId) (tasks : List TaskId) : Ledger :=
  { l with unsettled := (t, tasks) :: l.unsettled }

/-- The batch that a thread has removed last is settled no further. -/
def close (l : Ledger) (t : ThreadId) : Ledger :=
  { l with unsettled := l.unsettled.eraseP (·.1 = t) }

/-- The batch that a thread has removed last has been settled to the end. -/
def cancel (l : Ledger) (t : ThreadId) : Ledger :=
  { l.close t with canceled := l.latest t ++ l.canceled }

/-- The batch that a thread has removed last is discarded. -/
def discard (l : Ledger) (t : ThreadId) : Ledger :=
  { l.close t with discarded := l.latest t ++ l.discarded }

/-- A panic has unwound all that a thread was doing. -/
def abandon (l : Ledger) (t : ThreadId) : Ledger :=
  { l with
    unsettled := l.unsettled.filter (·.1 ≠ t)
    lost := (l.batchesOf t).flatten ++ l.lost }

/-- The ledger after one more event. The line that reports a batch as settled is logged when the
last of its tasks has been dealt with, by the call that has removed them. -/
def enter (l : Ledger) : Entry → Ledger
  | ⟨t, .removed tasks⟩ => l.take t tasks
  | ⟨t, .logged (.tasksCanceled _ _)⟩ | ⟨t, .logged (.stoppedCanceling _ _ _)⟩ => l.cancel t
  | ⟨t, .logged (.stoppedDiscarding _ _)⟩ => l.discard t
  | ⟨t, .unwound _⟩ | ⟨t, .logged (.workerUnwinding _)⟩ => l.abandon t
  | _ => l

/-- The ledger of a history, the latest event first. -/
def ofTrace : List Entry → Ledger
  | [] => {}
  | entry :: earlier => (ofTrace earlier).enter entry

/-- The ledger after what a thread does in one step, the latest event first. -/
def enterAll (l : Ledger) (t : ThreadId) (events : List Event) : Ledger :=
  events.foldr (fun event l => l.enter ⟨t, event⟩) l

theorem ofTrace_append (t : ThreadId) (events : List Event) (trace : List Entry) :
    ofTrace (events.map (⟨t, ·⟩) ++ trace) = (ofTrace trace).enterAll t events := by
  induction events with
  | nil => rfl
  | cons event earlier ih =>
    rw [List.map_cons, List.cons_append, ofTrace, ih]
    rfl

/-! ## The accounts of the ledger -/

theorem countP_close (l : Ledger) (t : ThreadId) (p : TaskId → Bool) :
    (l.unsettled.flatMap (·.2)).countP p =
      (l.latest t).countP p + ((l.close t).unsettled.flatMap (·.2)).countP p := by
  obtain ⟨unsettled, _, _, _⟩ := l
  simp only [latest, batchesOf, close]
  induction unsettled with
  | nil => rfl
  | cons batch rest ih =>
    by_cases hb : batch.1 = t
    · simp [hb]
    · simp only [List.flatMap_cons, List.countP_append, hb, decide_false, Bool.false_eq_true,
        not_false_eq_true, List.filter_cons_of_neg, List.eraseP_cons_of_neg]
      omega

theorem countP_abandon (l : Ledger) (t : ThreadId) (p : TaskId → Bool) :
    (l.unsettled.flatMap (·.2)).countP p =
      (l.batchesOf t).flatten.countP p + ((l.abandon t).unsettled.flatMap (·.2)).countP p := by
  obtain ⟨unsettled, _, _, _⟩ := l
  simp only [batchesOf, abandon]
  induction unsettled with
  | nil => rfl
  | cons batch rest ih =>
    by_cases hb : batch.1 = t
    · simp only [List.flatMap_cons, List.countP_append, hb, decide_true, List.filter_cons_of_pos,
        List.map_cons, List.flatten_cons, ne_eq, not_true_eq_false, decide_false,
        Bool.false_eq_true, not_false_eq_true, List.filter_cons_of_neg] at ih ⊢
      omega
    · simp only [List.flatMap_cons, List.countP_append, hb, decide_false, Bool.false_eq_true,
        not_false_eq_true, List.filter_cons_of_neg, ne_eq, decide_true,
        List.filter_cons_of_pos] at ih ⊢
      omega

/-- A removed task is being settled, or has been canceled, discarded or lost. -/
theorem countP_removedIds (trace : List Entry) (p : TaskId → Bool) :
    (trace.flatMap (·.event.removedIds)).countP p =
      ((ofTrace trace).unsettled.flatMap (·.2)).countP p + (ofTrace trace).canceled.countP p +
        (ofTrace trace).discarded.countP p + (ofTrace trace).lost.countP p := by
  induction trace with
  | nil => rfl
  | cons entry earlier ih =>
    obtain ⟨t, event⟩ := entry
    have hclose := (ofTrace earlier).countP_close t p
    have habandon := (ofTrace earlier).countP_abandon t p
    rw [List.flatMap_cons, List.countP_append, ih]
    cases event with
    | removed tasks =>
      simp only [Event.removedIds, ofTrace, enter, take, List.flatMap_cons, List.countP_append]
      omega
    | unwound payload =>
      simp only [Event.removedIds, ofTrace, enter, abandon, List.countP_append,
        List.countP_nil] at habandon ⊢
      omega
    | logged line =>
      cases line <;>
        simp only [Event.removedIds, ofTrace, enter, cancel, discard, close, abandon,
          List.countP_append, List.countP_nil] at hclose habandon ⊢ <;> omega
    | accepted | started | raised | answered | returned =>
      simp only [Event.removedIds, ofTrace, enter, List.countP_nil]
      omega

/-! ## The batches of one thread -/

theorem batchesOf_take_self (l : Ledger) (t : ThreadId) (tasks : List TaskId) :
    (l.take t tasks).batchesOf t = tasks :: l.batchesOf t := by
  simp [batchesOf, take]

theorem batchesOf_take_ne (l : Ledger) {t u : ThreadId} (h : u ≠ t) (tasks : List TaskId) :
    (l.take t tasks).batchesOf u = l.batchesOf u := by
  simp [batchesOf, take, h.symm]

/-- Discarding tasks that have just been removed. -/
@[simp] theorem discard_take (l : Ledger) (t : ThreadId) (tasks : List TaskId) :
    (l.take t tasks).discard t = { l with discarded := tasks ++ l.discarded } := by
  simp [discard, close, latest, batchesOf, take]

theorem batchesOf_close_self (l : Ledger) (t : ThreadId) :
    (l.close t).batchesOf t = (l.batchesOf t).tail := by
  obtain ⟨unsettled, _, _, _⟩ := l
  simp only [batchesOf, close]
  induction unsettled with
  | nil => rfl
  | cons batch rest ih =>
    by_cases hb : batch.1 = t
    · simp [hb]
    · simpa [hb] using ih

theorem batchesOf_cancel_self (l : Ledger) (t : ThreadId) :
    (l.cancel t).batchesOf t = (l.batchesOf t).tail :=
  l.batchesOf_close_self t

theorem batchesOf_close_ne (l : Ledger) {t u : ThreadId} (h : u ≠ t) :
    (l.close t).batchesOf u = l.batchesOf u := by
  obtain ⟨unsettled, _, _, _⟩ := l
  simp only [batchesOf, close]
  induction unsettled with
  | nil => rfl
  | cons batch rest ih =>
    by_cases hb : batch.1 = t
    · have hu : batch.1 ≠ u := fun hu => h (hu.symm.trans hb)
      simp [hb, h.symm]
    · by_cases hu : batch.1 = u
      · simpa [hb, hu, h] using ih
      · simpa [hb, hu] using ih

@[simp] theorem batchesOf_abandon_self (l : Ledger) (t : ThreadId) :
    (l.abandon t).batchesOf t = [] := by
  simp [batchesOf, abandon, List.filter_filter]

theorem batchesOf_abandon_ne (l : Ledger) {t u : ThreadId} (h : u ≠ t) :
    (l.abandon t).batchesOf u = l.batchesOf u := by
  have hf : ∀ batch : ThreadId × List TaskId,
      (decide (batch.1 = u) && decide (batch.1 ≠ t)) = decide (batch.1 = u) := by
    intro batch
    by_cases hu : batch.1 = u <;> simp [hu, h]
  simp only [batchesOf, abandon, List.filter_filter, hf]

/-- What happens in one thread leaves the batches of the others. -/
theorem batchesOf_enter_ne (l : Ledger) {t u : ThreadId} (h : u ≠ t) (event : Event) :
    (l.enter ⟨t, event⟩).batchesOf u = l.batchesOf u := by
  cases event with
  | removed tasks => exact l.batchesOf_take_ne h tasks
  | unwound payload => exact l.batchesOf_abandon_ne h
  | logged line =>
    cases line with
    | tasksCanceled | stoppedCanceling | stoppedDiscarding => exact l.batchesOf_close_ne h
    | workerUnwinding => exact l.batchesOf_abandon_ne h
    | _ => rfl
  | _ => rfl

/-! ## The ledger event by event -/

section Enter

variable (l : Ledger) (t : ThreadId)

@[simp] theorem enterAll_nil : l.enterAll t [] = l := rfl

@[simp] theorem enterAll_cons (event : Event) (earlier : List Event) :
    l.enterAll t (event :: earlier) = (l.enterAll t earlier).enter ⟨t, event⟩ := rfl

@[simp] theorem enterAll_append (events earlier : List Event) :
    l.enterAll t (events ++ earlier) = (l.enterAll t earlier).enterAll t events :=
  List.foldr_append

theorem batchesOf_enterAll_ne {u : ThreadId} (h : u ≠ t) (events : List Event) :
    (l.enterAll t events).batchesOf u = l.batchesOf u := by
  induction events with
  | nil => rfl
  | cons event earlier ih => rw [enterAll_cons, batchesOf_enter_ne _ h, ih]

@[simp] theorem enter_removed (tasks : List TaskId) :
    l.enter ⟨t, .removed tasks⟩ = l.take t tasks := rfl

@[simp] theorem enter_tasksCanceled (removed invoked : Nat) :
    l.enter ⟨t, .logged (.tasksCanceled removed invoked)⟩ = l.cancel t := rfl

@[simp] theorem enter_stoppedCanceling (name : String) (removed invoked : Nat) :
    l.enter ⟨t, .logged (.stoppedCanceling name removed invoked)⟩ = l.cancel t := rfl

@[simp] theorem enter_stoppedDiscarding (name : String) (removed : Nat) :
    l.enter ⟨t, .logged (.stoppedDiscarding name removed)⟩ = l.discard t := rfl

@[simp] theorem enter_workerUnwinding (pending : Nat) :
    l.enter ⟨t, .logged (.workerUnwinding pending)⟩ = l.abandon t := rfl

@[simp] theorem enter_unwound (payload : Payload) :
    l.enter ⟨t, .unwound payload⟩ = l.abandon t := rfl

/-! All other events leave the ledger as it is. -/

@[simp] theorem enter_accepted (task : TaskId) : l.enter ⟨t, .accepted task⟩ = l := rfl

@[simp] theorem enter_started (role : Role) (task : TaskId) (label : String) :
    l.enter ⟨t, .started role task label⟩ = l := rfl

@[simp] theorem enter_raised (task : TaskId) (payload : Payload) :
    l.enter ⟨t, .raised task payload⟩ = l := rfl

@[simp] theorem enter_workerStopped : l.enter ⟨t, .logged .workerStopped⟩ = l := rfl

@[simp] theorem enter_taskAborted (message : String) :
    l.enter ⟨t, .logged (.taskAborted message)⟩ = l := rfl

@[simp] theorem enter_taskScheduled (task : TaskId) (wait : Duration) (cancelable : Bool) :
    l.enter ⟨t, .logged (.taskScheduled task wait cancelable)⟩ = l := rfl

@[simp] theorem enter_taskBegun (task : TaskId) (lateness : UInt64) :
    l.enter ⟨t, .logged (.taskBegun task lateness)⟩ = l := rfl

@[simp] theorem enter_shutDownFromWorker (name : String) :
    l.enter ⟨t, .logged (.shutDownFromWorker name)⟩ = l := rfl

@[simp] theorem enter_workerPanicked (name message : String) :
    l.enter ⟨t, .logged (.workerPanicked name message)⟩ = l := rfl

@[simp] theorem enter_answerEvent (topic : Topic) (stack : List Frame) (answer : Answer) :
    l.enter ⟨t, answerEvent topic stack answer⟩ = l := by
  cases stack <;> rfl

/-- What has been discarded stays discarded. -/
theorem mem_discarded_enter {id : TaskId} (event : Event) (h : id ∈ l.discarded) :
    id ∈ (l.enter ⟨t, event⟩).discarded := by
  cases event with
  | logged line =>
    cases line with
    | stoppedDiscarding => exact List.mem_append_right _ h
    | _ => exact h
  | _ => exact h

theorem mem_discarded_enterAll {id : TaskId} (events : List Event) (h : id ∈ l.discarded) :
    id ∈ (l.enterAll t events).discarded := by
  induction events with
  | nil => exact h
  | cons event earlier ih => exact mem_discarded_enter _ t event ih

@[simp] theorem enterAll_failureLines (e : Executor) (how : Closing) (failure : Option Error) :
    l.enterAll t ((e.failureLines how failure).map .logged) = l := by
  cases how <;> cases failure <;> rfl

@[simp] theorem enterAll_warning (h : Handler) (payload : Payload) :
    l.enterAll t ((h.warning payload).toList.map .logged) = l := by
  unfold Handler.warning
  split <;> rfl

end Enter

end Ledger

/-! ## What single events tell -/

namespace Event

@[simp] theorem acceptedIds_accepted (task : TaskId) : (accepted task).acceptedIds = [task] := rfl

@[simp] theorem removedIds_removed (tasks : List TaskId) : (removed tasks).removedIds = tasks := rfl

@[simp] theorem startedIds_started (role r : Role) (task : TaskId) (label : String) :
    (started r task label).startedIds role = if r = role then [task] else [] := rfl

@[simp] theorem raisedIds_raised (task : TaskId) (payload : Payload) :
    (raised task payload).raisedIds = [task] := rfl

@[simp] theorem acceptedIds_eq_nil {event : Event} (h : ∀ task, event ≠ accepted task) :
    event.acceptedIds = [] := by
  cases event with
  | accepted task => exact absurd rfl (h task)
  | _ => rfl

@[simp] theorem removedIds_eq_nil {event : Event} (h : ∀ tasks, event ≠ removed tasks) :
    event.removedIds = [] := by
  cases event with
  | removed tasks => exact absurd rfl (h tasks)
  | _ => rfl

@[simp] theorem startedIds_eq_nil {event : Event} (h : ∀ r task label, event ≠ started r task label)
    (role : Role) : event.startedIds role = [] := by
  cases event with
  | started r task label => exact absurd rfl (h r task label)
  | _ => rfl

@[simp] theorem confirmedIds_eq_nil {event : Event} (hr : ∀ answer, event ≠ returned answer)
    (ha : ∀ topic answer, event ≠ answered topic answer) : event.confirmedIds = [] := by
  cases event with
  | returned answer => exact absurd rfl (hr answer)
  | answered topic answer => exact absurd rfl (ha topic answer)
  | _ => rfl

/-! An answer is no event of a task but the one that reports it as scheduled. -/

theorem answerEvent_cases (topic : Topic) (stack : List Frame) (answer : Answer) :
    answerEvent topic stack answer = returned answer ∨
      answerEvent topic stack answer = answered topic answer := by
  cases stack with
  | nil => exact .inl rfl
  | cons => exact .inr rfl

@[simp] theorem unwound_ne_answerEvent (topic : Topic) (stack : List Frame) (answer : Answer)
    (payload : Payload) : unwound payload ≠ answerEvent topic stack answer := by
  rcases answerEvent_cases topic stack answer with h | h <;> rw [h] <;> nofun

@[simp] theorem acceptedIds_answerEvent (topic : Topic) (stack : List Frame) (answer : Answer) :
    (answerEvent topic stack answer).acceptedIds = [] := by
  rcases answerEvent_cases topic stack answer with h | h <;> rw [h] <;> rfl

@[simp] theorem removedIds_answerEvent (topic : Topic) (stack : List Frame) (answer : Answer) :
    (answerEvent topic stack answer).removedIds = [] := by
  rcases answerEvent_cases topic stack answer with h | h <;> rw [h] <;> rfl

@[simp] theorem startedIds_answerEvent (role : Role) (topic : Topic) (stack : List Frame)
    (answer : Answer) : (answerEvent topic stack answer).startedIds role = [] := by
  rcases answerEvent_cases topic stack answer with h | h <;> rw [h] <;> rfl

@[simp] theorem confirmedIds_scheduled (topic : Topic) (stack : List Frame) (task : TaskId) :
    (answerEvent topic stack (.scheduled task)).confirmedIds = [task] := by
  rcases answerEvent_cases topic stack (.scheduled task) with h | h <;> rw [h] <;> rfl

@[simp] theorem confirmedIds_answerEvent (topic : Topic) (stack : List Frame) {answer : Answer}
    (h : ∀ task, answer ≠ .scheduled task) :
    (answerEvent topic stack answer).confirmedIds = [] := by
  cases answer with
  | scheduled task => exact absurd rfl (h task)
  | _ => cases stack <;> rfl

theorem flatMap_logged {f : Event → List TaskId} (hf : ∀ line, f (.logged line) = [])
    (lines : List LogLine) : (lines.map Event.logged).flatMap f = [] := by
  induction lines with
  | nil => rfl
  | cons line rest ih => rw [List.map_cons, List.flatMap_cons, hf, ih, List.append_nil]

@[simp] theorem removedIds_lines (lines : List LogLine) :
    (lines.map logged).flatMap removedIds = [] :=
  flatMap_logged (fun _ => rfl) lines

@[simp] theorem startedIds_lines (role : Role) (lines : List LogLine) :
    (lines.map logged).flatMap (startedIds role) = [] :=
  flatMap_logged (fun _ => rfl) lines

@[simp] theorem confirmedIds_lines (lines : List LogLine) :
    (lines.map logged).flatMap confirmedIds = [] :=
  flatMap_logged (fun _ => rfl) lines

end Event

@[simp] theorem Closing.answer_ne_scheduled (how : Closing) (failure : Option Error)
    (task : TaskId) : how.answer failure ≠ .scheduled task := by
  cases how <;> cases failure <;> simp [answer]

/-! ## The history of an executor -/

/-- How many tasks with numbers of a certain kind the events of a step tell of. -/
def Change.count (f : Event → List TaskId) (p : TaskId → Bool) (c : Change) : Nat :=
  (c.events.flatMap f).countP p

namespace Executor

/-- What all events tell, the latest first. -/
def gather {α : Type} (f : Event → List α) (e : Executor) : List α :=
  e.trace.flatMap fun entry => f entry.event

/-- The tasks that have been added. -/
def acceptedIds (e : Executor) : List TaskId := e.gather Event.acceptedIds

/-- The tasks that have been taken out of the queue by calls that cancel or close. -/
def removedIds (e : Executor) : List TaskId := e.gather Event.removedIds

/-- The tasks of which a callable has been begun. -/
def startedIds (e : Executor) (role : Role) : List TaskId := e.gather (Event.startedIds role)

/-- The tasks of which a callable has panicked. -/
def raisedIds (e : Executor) : List TaskId := e.gather Event.raisedIds

/-- The tasks that calls have reported as scheduled. -/
def confirmedIds (e : Executor) : List TaskId := e.gather Event.confirmedIds

/-- What has become of the removed tasks. -/
def ledger (e : Executor) : Ledger := .ofTrace e.trace

@[simp] theorem trace_setActivity (e : Executor) (b : Activity) (t : ThreadId) :
    (e.setActivity b t).trace = e.trace := by
  cases t <;> rfl

theorem trace_after (e : Executor) (t : ThreadId) (c : Change) (b : Activity) :
    (e.after t c b).trace = c.events.map (⟨t, ·⟩) ++ e.trace :=
  trace_setActivity ..

@[simp] theorem ledger_after (e : Executor) (t : ThreadId) (c : Change) (b : Activity) :
    (e.after t c b).ledger = e.ledger.enterAll t c.events := by
  rw [ledger, trace_after]
  exact Ledger.ofTrace_append ..

@[simp] theorem ledger_afterTurn (e : Executor) (c : Change) (w : WorkerState) :
    (e.afterTurn c w).ledger = e.ledger.enterAll .worker c.events :=
  Ledger.ofTrace_append ..

theorem gather_apply {α : Type} (f : Event → List α) (e : Executor) (t : ThreadId) (c : Change) :
    (e.apply t c).gather f = c.events.flatMap f ++ e.gather f := by
  simp [gather, apply, List.flatMap_append, List.flatMap_map]

theorem gather_after {α : Type} (f : Event → List α) (e : Executor) (t : ThreadId) (c : Change)
    (b : Activity) : (e.after t c b).gather f = c.events.flatMap f ++ e.gather f := by
  rw [← gather_apply f e t c, gather, gather, after, trace_setActivity]

theorem gather_afterTurn {α : Type} (f : Event → List α) (e : Executor) (c : Change)
    (w : WorkerState) : (e.afterTurn c w).gather f = c.events.flatMap f ++ e.gather f :=
  gather_apply f e .worker c

theorem countP_gather_after (f : Event → List TaskId) (p : TaskId → Bool) (e : Executor)
    (t : ThreadId) (c : Change) (b : Activity) :
    ((e.after t c b).gather f).countP p = c.count f p + (e.gather f).countP p := by
  rw [gather_after, List.countP_append, Change.count]

theorem countP_gather_afterTurn (f : Event → List TaskId) (p : TaskId → Bool) (e : Executor)
    (c : Change) (w : WorkerState) :
    ((e.afterTurn c w).gather f).countP p = c.count f p + (e.gather f).countP p := by
  rw [gather_afterTurn, List.countP_append, Change.count]

end Executor

end Deferred
