import Deferred.Proofs.Executor.Invariant
import Deferred.Proofs.Executor.View
import Deferred.Proofs.Queue.Mapped

/-!
# Executors in other guises

Two executors that differ in little often run side by side: whatever move the one makes, the other
can make too, and afterwards they differ in just as little. A guise says what stands in the other
one for the scripts, the strategy, the telemetry and the events of the first, and is faithful if the
other one runs along.

* `Guise` and `Guise.executor`: an executor in another guise; `Guise.view`: what is seen of it.
* `Guise.Faithful`: what a guise has to respect.
* `Guise.begin_executor` and the others: each part of a step comes to the same in the guise.
-/

namespace Deferred

/-! ## Other scripts -/

/-- What a caller asks for, with other scripts. -/
def Spec.map (f : Script → Script) (spec : Spec) : Spec :=
  { spec with action := f spec.action, onCancel := spec.onCancel.map f }

/-- A call, with other scripts. -/
def Request.map (f : Script → Script) : Request → Request
  | schedule spec => .schedule (spec.map f)
  | request => request

/-- A move, with other scripts. -/
def Move.map (f : Script → Script) : Move → Move
  | call n request => .call n (request.map f)
  | move => move

@[simp] theorem Request.map_id (request : Request) : request.map id = request := by
  cases request with
  | schedule spec => simp [map, Spec.map]
  | _ => rfl

@[simp] theorem Move.map_id (m : Move) : m.map id = m := by
  cases m with
  | call n request => exact congrArg (Move.call n) request.map_id
  | _ => rfl

theorem map_moves_id (ms : List Move) : ms.map (Move.map id) = ms :=
  List.map_id'' Move.map_id ms

/-! ## Guises -/

/-- What stands in another executor for the parts of one. -/
structure Guise where
  script : Script → Script := id
  strategy : PanicStrategy → PanicStrategy := id
  telemetry : Telemetry → Telemetry := id
  /-- What the handler has counted. -/
  panicCount : Nat → Nat := id
  /-- Whether a callable has ended by a panic. -/
  swallowed : Bool → Bool := id
  /-- What happens when an event happens, if anything. -/
  event : Event → Option Event := some
  /-- What the metrics say. -/
  snapshot : Snapshot → Snapshot := id

/-- Whether an event has nothing to do with panics and strategies. -/
def Event.isNeutral : Event → Bool
  | raised _ _ | logged (.taskPanicked _) | logged (.taskAborted _)
  | logged (.executorStarted _ _ _) => false
  | _ => true

/-- Something happens to the metrics that neither looks at the panics nor counts one. -/
def Metrics.Spares (f : Metrics → Metrics) : Prop :=
  ∀ m n, f { m with panicked := n } = { f m with panicked := n }

namespace Guise

variable (g : Guise)

/-- A batch, with other scripts. -/
def batch (batch : Batch) : Batch := { batch with tasks := batch.tasks.map g.script }

/-- A callable in progress, with other scripts. -/
def frame : Frame → Frame
  | .action task deadline started rest => .action task deadline started (g.script rest)
  | .callback task batch rest => .callback task (g.batch batch) (g.script rest)

/-- What a thread does next, in the guise. -/
def control : Control → Control
  | .enqueue task => .enqueue (task.map g.script)
  | .notify task => .notify (task.map g.script)
  | .record task => .record (task.map g.script)
  | .settle batch => .settle (g.batch batch)
  | .ended frame swallowed => .ended (g.frame frame) (g.swallowed swallowed)
  | control => control

/-- How far a thread is, in the guise. -/
def activity (a : Activity) : Activity := ⟨g.control a.control, a.stack.map g.frame⟩

/-- How far the worker has come, in the guise. -/
def worker : WorkerState → WorkerState
  | .busy a => .busy (g.activity a)
  | worker => worker

/-- The handler, in the guise. -/
def handler (h : Handler) : Handler := ⟨g.strategy h.strategy, g.panicCount h.panicCount⟩

/-- The configuration, in the guise. -/
def config (c : Config) : Config := { c with panicStrategy := g.strategy c.panicStrategy }

/-- An executor in another guise. -/
def executor (e : Executor) : Executor :=
  { e with
    config := g.config e.config
    telemetry := g.telemetry e.telemetry
    handler := g.handler e.handler
    guarded := e.guarded.map g.script
    worker := g.worker e.worker
    callers := e.callers.map g.activity
    trace := e.trace.filterMap (Entry.sift g.event) }

/-- What can be seen of an executor in another guise. -/
def view (v : Executor.View) : Executor.View :=
  { v.sift g.event with
    queue := v.queue.map (Task.map g.script)
    panicCount := g.panicCount v.panicCount
    metrics := g.snapshot v.metrics }

/-- What a guise has to respect so that the executor in it runs along: scripts make the same calls
and end together, and nothing is seen differently but panics and the strategy. -/
structure Faithful : Prop where
  finish {script : Script} : script.head = .finish → (g.script script).head = .finish
  call {script rest : Script} {request : Request} : script.head = .call request rest →
    (g.script script).head = .call (request.map g.script) (g.script rest)
  update (telemetry : Telemetry) {f : Metrics → Metrics} : Metrics.Spares f →
    g.telemetry (telemetry.update f) = (g.telemetry telemetry).update f
  panicked (telemetry : Telemetry) (swallowed : Bool) :
    g.telemetry (if swallowed then telemetry.update .recordPanic else telemetry) =
      if g.swallowed swallowed then (g.telemetry telemetry).update .recordPanic
      else g.telemetry telemetry
  read (uptime : Duration) (telemetry : Telemetry) :
    (g.telemetry telemetry).snapshot uptime = g.snapshot (telemetry.snapshot uptime)
  returned : g.swallowed false = false
  uncounted : g.panicCount 0 = 0
  neutral {event : Event} : event.isNeutral = true → g.event event = some event
  started (name : String) (strategy : PanicStrategy) (policy : ShutdownPolicy) :
    g.event (.logged (.executorStarted name strategy policy)) =
      some (.logged (.executorStarted name (g.strategy strategy) policy))

/-! ## Threads and their notes -/

variable {g} {e : Executor} {t : ThreadId} {stack : List Frame}

@[simp] theorem rest_frame (frame : Frame) : (g.frame frame).rest = g.script frame.rest := by
  cases frame <;> rfl

@[simp] theorem frame_goOn (frame : Frame) (rest : Script) :
    (g.frame frame).goOn (g.script rest) = g.frame (frame.goOn rest) := by
  cases frame <;> rfl

@[simp] theorem task_frame (frame : Frame) : (g.frame frame).task = frame.task := by
  cases frame <;> rfl

theorem worker_executor : (g.executor e).worker = g.worker e.worker := rfl

theorem size_executor : (g.executor e).guarded.pending.size = e.guarded.pending.size :=
  e.guarded.pending.size_map g.script

theorem caller_executor (n : Nat) : (g.executor e).caller n = g.activity (e.caller n) := by
  unfold Executor.caller executor
  rw [List.getElem?_map]
  cases e.callers[n]? <;> rfl

@[simp] theorem isIdle_activity (a : Activity) : (g.activity a).isIdle = a.isIdle := by
  obtain ⟨control, stack⟩ := a
  cases control with
  | ready => cases stack <;> rfl
  | _ => rfl

theorem setActivity_executor (a : Activity) :
    (g.executor e).setActivity (g.activity a) t = g.executor (e.setActivity a t) := by
  cases t with
  | worker => rfl
  | caller n =>
    have hidle : g.activity .idle = .idle := rfl
    simp only [Executor.setActivity, Executor.setCaller, executor, List.length_map, List.map_set,
      List.map_append, List.map_replicate, hidle]

theorem note_executor_of_some {event seen : Event} (h : g.event event = some seen) :
    (g.executor e).note t seen = g.executor (e.note t event) := by
  have hentry : Entry.sift g.event ⟨t, event⟩ = some ⟨t, seen⟩ := by
    rw [Entry.sift, h]
    rfl
  simp only [Executor.note, executor, List.filterMap_cons_some hentry]

theorem note_executor_of_none {event : Event} (h : g.event event = none) :
    g.executor (e.note t event) = g.executor e := by
  have hentry : Entry.sift g.event ⟨t, event⟩ = none := by
    rw [Entry.sift, h]
    rfl
  simp only [Executor.note, executor, List.filterMap_cons_none hentry]

theorem note_executor (hg : g.Faithful) (event : Event) (hn : event.isNeutral = true) :
    (g.executor e).note t event = g.executor (e.note t event) :=
  note_executor_of_some (hg.neutral hn)

theorem count_executor (hg : g.Faithful) {f : Metrics → Metrics} (hf : Metrics.Spares f) :
    (g.executor e).count f = g.executor (e.count f) := by
  simp only [Executor.count, executor, hg.update _ hf]

/-- A thread notes an event after its activity has changed. -/
theorem note_setActivity_executor (hg : g.Faithful) (a : Activity) (event : Event)
    (hn : event.isNeutral = true) : ((g.executor e).setActivity (g.activity a) t).note t event =
      g.executor ((e.setActivity a t).note t event) := by
  rw [setActivity_executor, note_executor hg event hn]

/-- A thread notes an event before it goes on. -/
theorem setActivity_note_executor (hg : g.Faithful) (event : Event) (hn : event.isNeutral = true)
    (a : Activity) : ((g.executor e).note t event).setActivity (g.activity a) t =
      g.executor ((e.note t event).setActivity a t) := by
  rw [note_executor hg event hn, setActivity_executor]

theorem reply_executor (hg : g.Faithful) (topic : Topic) (answer : Answer) :
    (g.executor e).reply t topic (stack.map g.frame) answer =
      g.executor (e.reply t topic stack answer) := by
  cases stack with
  | nil => exact note_setActivity_executor hg .idle (.returned answer) rfl
  | cons frame stack =>
    exact note_setActivity_executor hg { stack := frame :: stack } (.answered topic answer) rfl

/-! ## Calls -/

theorem make_executor (hg : g.Faithful) (spec : Spec) :
    (g.executor e).make t (spec.map g.script) (stack.map g.frame) =
      g.executor (e.make t spec stack) := by
  have hdue : (spec.map g.script).due.deadline (g.executor e).clock =
      spec.due.deadline e.clock := rfl
  unfold Executor.make
  rw [hdue]
  cases spec.due.deadline e.clock with
  | error error => exact reply_executor hg (.schedule spec.label) (.failed error)
  | ok deadline =>
    exact setActivity_executor (e := { e with nextId := e.nextId + 1 })
      ⟨.enqueue (spec.task ⟨e.nextId⟩ deadline), stack⟩

theorem removeAll_executor (hg : g.Faithful) :
    (g.executor e).removeAll t = g.executor (e.removeAll t) := by
  have hids : (g.executor e).guarded.takeAll.1.ids = e.guarded.takeAll.1.ids :=
    e.guarded.pending.ids_map g.script
  unfold Executor.removeAll
  rw [hids]
  exact note_executor (e := { e with guarded := e.guarded.takeAll.2 }) hg (.removed _) rfl

/-- A batch of tasks with other scripts. -/
theorem batch_ofQueue (purpose : Purpose) (tasks : Queue Script) :
    g.batch (.ofQueue purpose tasks) = .ofQueue purpose (tasks.map g.script) := by
  simp only [batch, Batch.ofQueue, Queue.size_map]

theorem beginCancelAll_executor (hg : g.Faithful) :
    (g.executor e).beginCancelAll t (stack.map g.frame) =
      g.executor (e.beginCancelAll t stack) := by
  have hbatch : Batch.ofQueue .cancelAll (g.executor e).guarded.takeAll.1 =
      g.batch (.ofQueue .cancelAll e.guarded.takeAll.1) := (batch_ofQueue _ _).symm
  unfold Executor.beginCancelAll
  rw [removeAll_executor hg, hbatch]
  exact setActivity_executor ⟨.settle (.ofQueue .cancelAll e.guarded.takeAll.1), stack⟩

theorem endClosing_executor (hg : g.Faithful) (failure : Option Error) (how : Closing) :
    (g.executor e).endClosing t (stack.map g.frame) failure how =
      g.executor (e.endClosing t stack failure how) := by
  have hlog : (g.executor e).logFailure t how failure =
      g.executor (e.logFailure t how failure) := by
    cases how with
    | shutdown => rfl
    | drop =>
      cases failure with
      | none => rfl
      | some error => exact note_executor hg (.logged _) rfl
  unfold Executor.endClosing
  rw [hlog]
  exact reply_executor (e := (e.logFailure t how failure).closed how) hg how.topic
    (how.answer failure)

theorem beginClosing_executor (hg : g.Faithful) (how : Closing) :
    (g.executor e).beginClosing t (stack.map g.frame) how =
      g.executor (e.beginClosing t stack how) := by
  have hj : (g.executor e).joinable = e.joinable := rfl
  unfold Executor.beginClosing
  rw [hj]
  split
  · exact setActivity_executor (e := { e with access := .engaged, joinable := false })
      ⟨.flag how, stack⟩
  · exact endClosing_executor hg none how

theorem begin_executor (hg : g.Faithful) (stack : List Frame) (request : Request) :
    (g.executor e).begin t (stack.map g.frame) (request.map g.script) =
      g.executor (e.begin t stack request) := by
  have hname : (g.executor e).threadName t = e.threadName t := by rcases t with _ | (_ | n) <;> rfl
  have hx : (g.executor e).access = e.access := rfl
  unfold Executor.begin
  rw [hx, hname, size_executor]
  cases request with
  | threadName => exact reply_executor hg _ _
  | schedule spec =>
    cases e.access with
    | available => exact make_executor hg spec
    | engaged | dropped => exact reply_executor hg _ _
  | cancelAll =>
    cases e.access with
    | available => exact beginCancelAll_executor hg
    | engaged | dropped => exact reply_executor hg _ _
  | pending => cases e.access <;> exact reply_executor hg _ _
  | shutdown =>
    cases e.access with
    | available => exact beginClosing_executor hg .shutdown
    | engaged | dropped => exact reply_executor hg _ _
  | drop =>
    cases e.access with
    | available => exact beginClosing_executor hg .drop
    | engaged | dropped => exact reply_executor hg _ _

/-! ## Settling -/

theorem wakeWorker_executor : (g.executor e).wakeWorker = g.executor e.wakeWorker := by
  unfold Executor.wakeWorker
  rw [worker_executor]
  cases e.worker <;> rfl

/-- A thread wakes the worker before it goes on. -/
theorem setActivity_wakeWorker_executor (a : Activity) :
    (g.executor e).wakeWorker.setActivity (g.activity a) t =
      g.executor (e.wakeWorker.setActivity a t) := by
  rw [wakeWorker_executor, setActivity_executor]

/-- What is told of a task that has been added does not depend on its scripts. -/
theorem endSchedule_executor (hg : g.Faithful) (task : Task Script) :
    (g.executor e).endSchedule t (task.map g.script) (stack.map g.frame) =
      g.executor (e.endSchedule t task stack) := by
  have hline : LogLine.scheduled (task.map g.script) (g.executor e).clock =
      .scheduled task e.clock :=
    congrArg (LogLine.taskScheduled task.id _) (Task.isCancelable_map g.script task)
  have hlog : ((g.executor e).count .recordScheduled).log t (.scheduled task e.clock) =
      g.executor ((e.count .recordScheduled).log t (.scheduled task e.clock)) := by
    rw [count_executor hg fun _ _ => rfl]
    exact note_executor hg (.logged _) rfl
  unfold Executor.endSchedule
  rw [hline, hlog]
  exact reply_executor hg (.schedule task.label) (.scheduled task.id)

theorem settleTask_executor (hg : g.Faithful) (batch : Batch) (task : Task Script) :
    (g.executor e).settleTask t (g.batch batch) (task.map g.script) (stack.map g.frame) =
      g.executor (e.settleTask t batch task stack) := by
  have hs : (task.map g.script).onCancel = task.onCancel.map g.script := rfl
  unfold Executor.settleTask
  rw [hs]
  cases task.onCancel with
  | none => exact setActivity_executor ⟨.settle batch, stack⟩
  | some script =>
    exact setActivity_note_executor hg (.started .callback task.id task.label) rfl
      ⟨.ready, .callback task.id batch script :: stack⟩

theorem reportBatch_executor (hg : g.Faithful) (batch : Batch) :
    (g.executor e).reportBatch t (g.batch batch) = g.executor (e.reportBatch t batch) := by
  have hline : (g.batch batch).line (g.executor e).config.threadName =
      batch.line e.config.threadName := rfl
  have hn : (Event.logged (batch.line e.config.threadName)).isNeutral = true := by
    unfold Batch.line
    split <;> rfl
  unfold Executor.reportBatch
  rw [hline, count_executor hg fun _ _ => rfl]
  exact note_executor hg _ hn

theorem endBatch_executor (hg : g.Faithful) (batch : Batch) :
    (g.executor e).endBatch t (g.batch batch) (stack.map g.frame) =
      g.executor (e.endBatch t batch stack) := by
  have hp : (g.batch batch).purpose = batch.purpose := rfl
  unfold Executor.endBatch
  rw [hp, reportBatch_executor hg]
  cases batch.purpose with
  | cancelAll => exact reply_executor hg .cancelAll (.count batch.removed)
  | closing how failure => exact endClosing_executor hg failure how

theorem recordPanic_executor (hg : g.Faithful) (swallowed : Bool) :
    (g.executor e).recordPanic (g.swallowed swallowed) = g.executor (e.recordPanic swallowed) := by
  have htelemetry := hg.panicked e.telemetry swallowed
  unfold Executor.recordPanic Executor.count
  cases swallowed with
  | false => rw [hg.returned]; rfl
  | true =>
    rw [if_pos rfl] at htelemetry ⊢
    simp only [executor, htelemetry]
    split <;> rfl

theorem endFrame_executor (hg : g.Faithful) (frame : Frame) (swallowed : Bool) :
    (g.executor e).endFrame t (g.frame frame) (g.swallowed swallowed) (stack.map g.frame) =
      g.executor (e.endFrame t frame swallowed stack) := by
  cases frame with
  | action task deadline started rest =>
    have hrun : (g.executor e).recordRun deadline started =
        g.executor (e.recordRun deadline started) := count_executor hg fun _ _ => rfl
    have hend := recordPanic_executor (e := e.recordRun deadline started) hg swallowed
    rw [← hrun] at hend
    exact congrArg (fun e : Executor => { e with worker := .polling }) hend
  | callback task batch rest =>
    have hend := recordPanic_executor (e := e) hg swallowed
    unfold Executor.endFrame
    simp only [frame, hend]
    exact setActivity_executor ⟨.settle batch.goOn, stack⟩

/-! ## Closing -/

theorem join?_executor (hg : g.Faithful) (how : Closing) :
    (g.executor e).join? t (stack.map g.frame) how = (e.join? t stack how).map g.executor := by
  have hend : (g.executor e).workerEnd? = e.workerEnd? := by
    unfold Executor.workerEnd?
    rw [worker_executor]
    cases e.worker <;> rfl
  unfold Executor.join?
  rw [hend]
  split
  · exact congrArg some (setActivity_note_executor hg
      (.logged (.shutDownFromWorker e.config.threadName)) rfl ⟨.drain how none, stack⟩)
  · cases e.workerEnd? with
    | none => rfl
    | some ending =>
      cases ending with
      | none => exact congrArg some (setActivity_executor ⟨.drain how none, stack⟩)
      | some payload =>
        exact congrArg some (setActivity_note_executor hg
          (.logged (.workerPanicked e.config.threadName payload.message)) rfl
          ⟨.drain how (some (.workerPanic payload.message)), stack⟩)

theorem drainPending_executor (hg : g.Faithful) (how : Closing) (failure : Option Error) :
    (g.executor e).drainPending t (stack.map g.frame) how failure =
      g.executor (e.drainPending t stack how failure) := by
  have hpolicy : (g.executor e).config.shutdownPolicy = e.config.shutdownPolicy := rfl
  unfold Executor.drainPending
  rw [hpolicy, removeAll_executor hg, size_executor]
  cases e.config.shutdownPolicy with
  | discard =>
    have hreport : (g.executor (e.removeAll t)).reportDiscarded t e.guarded.pending.size =
        g.executor ((e.removeAll t).reportDiscarded t e.guarded.pending.size) := by
      unfold Executor.reportDiscarded
      rw [count_executor hg fun _ _ => rfl]
      exact note_executor hg (.logged _) rfl
    simp only [hreport]
    exact endClosing_executor hg failure how
  | cancelPending =>
    have hbatch : Batch.ofQueue (.closing how failure) (g.executor e).guarded.takeAll.1 =
        g.batch (.ofQueue (.closing how failure) e.guarded.takeAll.1) := (batch_ofQueue _ _).symm
    simp only [hbatch]
    exact setActivity_executor
      ⟨.settle (.ofQueue (.closing how failure) e.guarded.takeAll.1), stack⟩

end Guise

end Deferred
