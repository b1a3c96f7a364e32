import Deferred.Executor.State

/-!
# Steps

What a thread does in one go, between two points at which any other thread may run. A call takes
several steps: the section under the lock, the waking of the worker, the callables that are run and
the counting are steps of their own.

* `Executor.begin` is the first step of a call.
* `Executor.catchPanic` is what the panic handler does about a panic that reaches a callable;
  `Executor.abort` is the end of the process that a panic may bring about.
* `Executor.advance` is a further step of a thread that is making a call or running a callable.
* `Executor.look` is the worker's look for work, and `Executor.step?` is a step of any thread.
-/

namespace Deferred

namespace Executor

/-! ## Calls -/

/-- Ends a call with its answer, which a callable receives or a caller. -/
def reply (e : Executor) (t : ThreadId) (topic : Topic) (stack : List Frame) (answer : Answer) :
    Executor :=
  let e := e.setActivity { stack } t
  match stack with
  | [] => e.note t (.returned answer)
  | _ :: _ => e.note t (.answered topic answer)

/-- Makes a task as it is asked for, unless its deadline lies beyond the end of the clock. -/
def make (e : Executor) (t : ThreadId) (spec : Spec) (stack : List Frame) : Executor :=
  match spec.due.deadline e.clock with
  | .error error => e.reply t (.schedule spec.label) stack (.failed error)
  | .ok deadline =>
    { e with nextId := e.nextId + 1 }.setActivity
      ⟨.enqueue (spec.task ⟨e.nextId⟩ deadline), stack⟩ t

/-- Removes all pending tasks. -/
def removeAll (e : Executor) (t : ThreadId) : Executor :=
  { e with guarded := e.guarded.takeAll.2 }.note t (.removed e.guarded.takeAll.1.ids)

/-- Removes all pending tasks for `cancelAll` to settle. -/
def beginCancelAll (e : Executor) (t : ThreadId) (stack : List Frame) : Executor :=
  (e.removeAll t).setActivity ⟨.settle (.ofQueue .cancelAll e.guarded.takeAll.1), stack⟩ t

/-- A call that was closing the executor is over: it can be reached again unless it is dropped. -/
def closed (e : Executor) (how : Closing) : Executor :=
  { e with access := how.access }

/-- Logs the failure of a shutdown that nobody is told of otherwise. -/
def logFailure (e : Executor) (t : ThreadId) (how : Closing) (failure : Option Error) : Executor :=
  match how, failure with
  | .drop, some error => e.log t (.shutdownFailed e.config.threadName error)
  | _, _ => e

/-- Ends the call that has closed the executor. -/
def endClosing (e : Executor) (t : ThreadId) (stack : List Frame) (failure : Option Error)
    (how : Closing) : Executor :=
  ((e.logFailure t how failure).closed how).reply t how.topic stack (how.answer failure)

/-- Sets out to close the executor; there is nothing to do if that has been done before. -/
def beginClosing (e : Executor) (t : ThreadId) (stack : List Frame) (how : Closing) : Executor :=
  if e.joinable then
    { e with access := .engaged, joinable := false }.setActivity ⟨.flag how, stack⟩ t
  else e.endClosing t stack none how

/-- The first step of a call. Only the name of the thread can be had without the executor. -/
def begin (e : Executor) (t : ThreadId) (stack : List Frame) (request : Request) : Executor :=
  match request, e.access with
  | .threadName, _ => e.reply t .threadName stack (.name (e.threadName t))
  | .schedule spec, .available => e.make t spec stack
  | .cancelAll, .available => e.beginCancelAll t stack
  | .pending, .available => e.reply t .pending stack (.count e.guarded.pending.size)
  | .shutdown, .available => e.beginClosing t stack .shutdown
  | .drop, .available => e.beginClosing t stack .drop
  | request, .engaged | request, .dropped => e.reply t request.topic stack .gone

/-! ## Panics -/

/-- Leaving a call by a panic: a call that was closing the executor is over. -/
def abandon (e : Executor) : Purpose → Executor
  | .cancelAll => e
  | .closing how _ => e.closed how

/-- Leaving a callable by a panic: with a cancellation callback, the call that ran it is left too,
and the tasks that it had yet to settle are lost. -/
def leaveFrame (e : Executor) : Frame → Executor
  | .action _ _ _ _ => e
  | .callback _ batch _ => e.abandon batch.purpose

/-- The handler counts a panic. -/
def countPanic (e : Executor) : Executor := { e with handler := e.handler.count }

/-- The handler logs a warning, if it is to. -/
def warn (e : Executor) (t : ThreadId) (payload : Payload) : Executor :=
  match e.handler.warning payload with
  | some line => e.log t line
  | none => e

/-- A panic reaches a callable in progress: the handler counts it, and swallows it, lets it go on
through the call that ran the callable, or logs it and sets out to end the process. -/
def catchPanic (e : Executor) (t : ThreadId) (payload : Payload) (frame : Frame)
    (stack : List Frame) : Executor :=
  match e.handler.strategy with
  | .propagate => (e.countPanic.leaveFrame frame).setActivity ⟨.unwind payload, stack⟩ t
  | .abort =>
    (e.countPanic.log t (.taskAborted payload.message)).setActivity ⟨.abort, frame :: stack⟩ t
  | .isolate | .logAndContinue =>
    (e.countPanic.warn t payload).setActivity ⟨.ended frame true, stack⟩ t

theorem catchPanic_of_swallows {e : Executor} {t : ThreadId} {payload : Payload} {frame : Frame}
    {stack : List Frame} (h : e.handler.strategy.swallows = true) :
    e.catchPanic t payload frame stack =
      (e.countPanic.warn t payload).setActivity ⟨.ended frame true, stack⟩ t := by
  unfold catchPanic
  cases hs : e.handler.strategy with
  | isolate | logAndContinue => rfl
  | propagate | abort => rw [hs] at h; cases h

/-- The process ends, and with it whatever its threads were doing. -/
def abort (e : Executor) (t : ThreadId) (stack : List Frame) : Executor :=
  { e with aborted := true }.setActivity ⟨.abort, stack⟩ t

/-- A panic has gone through all callables in progress: it ends the worker, or the caller's call. -/
def leave (e : Executor) (payload : Payload) : ThreadId → Executor
  | .worker =>
    { e with guarded := e.guarded.unwound, worker := .died payload }.log .worker
      (.workerUnwinding e.guarded.pending.size)
  | .caller n => (e.setCaller n .idle).note (.caller n) (.unwound payload)

/-! ## Waking -/

/-- Wakes the worker if it sleeps. -/
def wakeWorker (e : Executor) : Executor :=
  match e.worker with
  | .parked _ => { e with worker := .polling }
  | _ => e

/-- Counts and logs a task that has been added, and answers the call that has scheduled it. -/
def endSchedule (e : Executor) (t : ThreadId) (task : Task Script) (stack : List Frame) : Executor :=
  ((e.count .recordScheduled).log t (.scheduled task e.clock)).reply t (.schedule task.label) stack
    (.scheduled task.id)

/-! ## Settling -/

/-- Begins the cancellation callback of a removed task, if it has one. -/
def settleTask (e : Executor) (t : ThreadId) (batch : Batch) (task : Task Script)
    (stack : List Frame) : Executor :=
  match task.onCancel with
  | none => e.setActivity ⟨.settle batch, stack⟩ t
  | some script =>
    (e.note t (.started .callback task.id task.label)).setActivity
      ⟨.ready, .callback task.id batch script :: stack⟩ t

/-- Counts and logs a batch that has been settled. -/
def reportBatch (e : Executor) (t : ThreadId) (batch : Batch) : Executor :=
  (e.count (·.recordCanceled batch.removed.toUInt64)).log t (batch.line e.config.threadName)

/-- Ends the call that has settled a batch. -/
def endBatch (e : Executor) (t : ThreadId) (batch : Batch) (stack : List Frame) : Executor :=
  match batch.purpose with
  | .cancelAll => (e.reportBatch t batch).reply t .cancelAll stack (.count batch.removed)
  | .closing how failure => (e.reportBatch t batch).endClosing t stack failure how

/-- Counts an action that has ended. -/
def recordRun (e : Executor) (deadline started : Instant) : Executor :=
  e.count (·.recordExecution (started.since deadline).toUInt64 (e.clock.since started).toUInt64)

/-- Counts a panic that was swallowed. -/
def recordPanic (e : Executor) (swallowed : Bool) : Executor :=
  if swallowed then e.count .recordPanic else e

/-- Counts a callable that has ended, and goes on with what ran it. -/
def endFrame (e : Executor) (t : ThreadId) (frame : Frame) (swallowed : Bool)
    (stack : List Frame) : Executor :=
  match frame with
  | .action _ deadline started _ =>
    { (e.recordRun deadline started).recordPanic swallowed with worker := .polling }
  | .callback _ batch _ => (e.recordPanic swallowed).setActivity ⟨.settle batch.goOn, stack⟩ t

/-! ## Closing -/

/-- How the worker has ended, as far as it has. -/
def workerEnd? (e : Executor) : Option (Option Payload) :=
  match e.worker with
  | .stopped => some none
  | .died payload => some (some payload)
  | _ => none

/-- Waits for the worker, which is not to wait for itself. -/
def join? (e : Executor) (t : ThreadId) (stack : List Frame) (how : Closing) : Option Executor :=
  if t = .worker then
    some ((e.log t (.shutDownFromWorker e.config.threadName)).setActivity
      ⟨.drain how none, stack⟩ t)
  else match e.workerEnd? with
    | none => none
    | some none => some (e.setActivity ⟨.drain how none, stack⟩ t)
    | some (some payload) =>
      some ((e.log t (.workerPanicked e.config.threadName payload.message)).setActivity
        ⟨.drain how (some (.workerPanic payload.message)), stack⟩ t)

/-- Counts and logs so many tasks that are discarded. -/
def reportDiscarded (e : Executor) (t : ThreadId) (removed : Nat) : Executor :=
  (e.count (·.recordDiscarded removed.toUInt64)).log t
    (.stoppedDiscarding e.config.threadName removed)

/-- Removes the tasks that are left, and drops them or sets out to cancel them. -/
def drainPending (e : Executor) (t : ThreadId) (stack : List Frame) (how : Closing)
    (failure : Option Error) : Executor :=
  match e.config.shutdownPolicy with
  | .discard =>
    ((e.removeAll t).reportDiscarded t e.guarded.pending.size).endClosing t stack failure how
  | .cancelPending =>
    (e.removeAll t).setActivity
      ⟨.settle (.ofQueue (.closing how failure) e.guarded.takeAll.1), stack⟩ t

/-! ## Steps of threads -/

/-- Goes on with the callable on top of the stack. -/
def resume (e : Executor) (t : ThreadId) (frame : Frame) (stack : List Frame) : Executor :=
  match frame.rest.head with
  | .finish => e.setActivity ⟨.ended frame false, stack⟩ t
  | .call request rest => e.begin t (frame.goOn rest :: stack) request
  | .raise payload => (e.note t (.raised frame.task payload)).catchPanic t payload frame stack

/-- A step of a thread that is making a call or running a callable; none if it makes no call or has
to wait. -/
def advance (e : Executor) (t : ThreadId) : Activity → Option Executor
  | ⟨.ready, []⟩ => none
  | ⟨.ready, frame :: stack⟩ => some (e.resume t frame stack)
  | ⟨.enqueue task, stack⟩ =>
    match e.guarded.accept task with
    | .error error => some (e.reply t (.schedule task.label) stack (.failed error))
    | .ok (guarded, first) =>
      let control := if first then .notify task else .record task
      some (({ e with guarded }.note t (.accepted task.id)).setActivity ⟨control, stack⟩ t)
  | ⟨.notify task, stack⟩ => some (e.wakeWorker.setActivity ⟨.record task, stack⟩ t)
  | ⟨.record task, stack⟩ => some (e.endSchedule t task stack)
  | ⟨.settle batch, stack⟩ =>
    match batch.tasks.pop? with
    | none => some (e.endBatch t batch stack)
    | some (task, tasks) => some (e.settleTask t { batch with tasks } task stack)
  | ⟨.ended frame swallowed, stack⟩ => some (e.endFrame t frame swallowed stack)
  | ⟨.unwind payload, []⟩ => some (e.leave payload t)
  | ⟨.unwind payload, frame :: stack⟩ => some (e.catchPanic t payload frame stack)
  | ⟨.abort, stack⟩ => some (e.abort t stack)
  | ⟨.flag how, stack⟩ =>
    some ({ e with guarded := e.guarded.terminate }.setActivity ⟨.rouse how, stack⟩ t)
  | ⟨.rouse how, stack⟩ => some (e.wakeWorker.setActivity ⟨.join how, stack⟩ t)
  | ⟨.join how, stack⟩ => e.join? t stack how
  | ⟨.drain how failure, stack⟩ => some (e.drainPending t stack how failure)

/-- The worker looks for work. An action that it begins is taken to start at the instant at which
its task was found due: the clock is not read once more when the lock has been given up. -/
def look (e : Executor) : Executor :=
  match e.guarded.poll e.clock with
  | (.stop, _) => { e with worker := .stopped }.log .worker .workerStopped
  | (.park, _) => { e with worker := .parked none }
  | (.parkUntil deadline, _) => { e with worker := .parked (some deadline) }
  | (.run task, guarded) =>
    let frame : Frame := .action task.id task.deadline e.clock task.action
    ({ e with guarded, worker := .busy { stack := [frame] } }.log .worker
      (.begun task e.clock)).note .worker (.started .action task.id task.label)

/-- A step of a thread of a process that goes on, if the thread has one to make. -/
def step? (e : Executor) (t : ThreadId) : Option Executor :=
  if e.aborted then none
  else match t with
    | .caller n => e.advance (.caller n) (e.caller n)
    | .worker =>
      match e.worker with
      | .polling => some e.look
      | .busy activity => e.advance .worker activity
      | .parked _ | .stopped | .died _ => none

end Executor

end Deferred
