import Deferred.Proofs.Executor.Escape
import Deferred.Proofs.Executor.Guise

/-!
# Executors side by side

An executor in a faithful guise runs along with the executor itself, move by move. Only panics need
not come to the same in both, so that a guise which changes what becomes of them has to show that it
meets those that can be raised.

* `Guise.Meets`: the panic that a thread deals with next comes to the same in the guise.
* `Guise.move?_executor`, `Guise.moves?_executor`: both executors make the same moves.
* `Guise.observe_executor`: both executors are seen to do the same, up to the guise.
* `Guise.meetsAll_of_keeps`: a guise that keeps panics as they are meets all of them.
-/

namespace Deferred

namespace Guise

variable {g : Guise} {e : Executor} {t : ThreadId} {stack : List Frame}

/-- The panic that a thread raises or hands on next, if it does, comes to the same in the guise. -/
def Meets (g : Guise) (e : Executor) (t : ThreadId) : Activity → Prop
  | ⟨.ready, frame :: stack⟩ => ∀ payload, frame.rest.head = .raise payload →
    (g.executor e).resume t (g.frame frame) (stack.map g.frame) =
      g.executor (e.resume t frame stack)
  | ⟨.unwind payload, frame :: stack⟩ =>
    (g.executor e).catchPanic t payload (g.frame frame) (stack.map g.frame) =
      g.executor (e.catchPanic t payload frame stack)
  | _ => True

/-! ## Steps of threads -/

theorem leave_executor (hg : g.Faithful) (payload : Payload) :
    (g.executor e).leave payload t = g.executor (e.leave payload t) := by
  cases t with
  | worker =>
    unfold Executor.leave
    simp only [size_executor]
    exact note_executor (e := { e with guarded := e.guarded.unwound, worker := .died payload }) hg
      (.logged (.workerUnwinding e.guarded.pending.size)) rfl
  | caller n => exact note_setActivity_executor (t := .caller n) hg .idle (.unwound payload) rfl

theorem resume_executor (hg : g.Faithful) {frame : Frame}
    (hm : g.Meets e t ⟨.ready, frame :: stack⟩) :
    (g.executor e).resume t (g.frame frame) (stack.map g.frame) =
      g.executor (e.resume t frame stack) := by
  cases hh : frame.rest.head with
  | raise payload => exact hm payload hh
  | finish =>
    have hfinish : (g.frame frame).rest.head = .finish := rest_frame frame ▸ hg.finish hh
    have hended := setActivity_executor (g := g) (e := e) (t := t) ⟨.ended frame false, stack⟩
    simp only [activity, control, hg.returned] at hended
    unfold Executor.resume
    rw [hh, hfinish]
    exact hended
  | call request rest =>
    have hcall : (g.frame frame).rest.head = .call (request.map g.script) (g.script rest) :=
      rest_frame frame ▸ hg.call hh
    unfold Executor.resume
    rw [hh, hcall]
    simp only [frame_goOn]
    exact begin_executor hg (frame.goOn rest :: stack) request

theorem enqueue_executor (hg : g.Faithful) (task : Task Script) :
    (g.executor e).advance t ⟨.enqueue (task.map g.script), stack.map g.frame⟩ =
      (e.advance t ⟨.enqueue task, stack⟩).map g.executor := by
  have haccept : (g.executor e).guarded.accept (task.map g.script) = _ :=
    e.guarded.accept_map g.script task
  unfold Executor.advance
  simp only [haccept]
  cases e.guarded.accept task with
  | error error => exact congrArg some (reply_executor hg (.schedule task.label) (.failed error))
  | ok taken =>
    obtain ⟨guarded, first⟩ := taken
    have hnote := setActivity_note_executor (e := { e with guarded }) (t := t) hg
      (.accepted task.id) rfl
    cases first with
    | true => exact congrArg some (hnote ⟨.notify task, stack⟩)
    | false => exact congrArg some (hnote ⟨.record task, stack⟩)

theorem settle_executor (hg : g.Faithful) (batch : Batch) :
    (g.executor e).advance t ⟨.settle (g.batch batch), stack.map g.frame⟩ =
      (e.advance t ⟨.settle batch, stack⟩).map g.executor := by
  have hpop : (g.batch batch).tasks.pop? = _ := batch.tasks.pop?_map g.script
  unfold Executor.advance
  simp only [hpop]
  cases batch.tasks.pop? with
  | none => exact congrArg some (endBatch_executor hg batch)
  | some popped =>
    exact congrArg some (settleTask_executor hg { batch with tasks := popped.2 } popped.1)

theorem advance_executor (hg : g.Faithful) {a : Activity} (hm : g.Meets e t a) :
    (g.executor e).advance t (g.activity a) = (e.advance t a).map g.executor := by
  obtain ⟨control, stack⟩ := a
  cases control with
  | ready =>
    cases stack with
    | nil => rfl
    | cons frame stack => exact congrArg some (resume_executor hg hm)
  | enqueue task => exact enqueue_executor hg task
  | notify task => exact congrArg some (setActivity_wakeWorker_executor ⟨.record task, stack⟩)
  | record task => exact congrArg some (endSchedule_executor hg task)
  | settle batch => exact settle_executor hg batch
  | ended frame swallowed => exact congrArg some (endFrame_executor hg frame swallowed)
  | unwind payload =>
    cases stack with
    | nil => exact congrArg some (leave_executor hg payload)
    | cons frame stack => exact congrArg some hm
  | abort =>
    exact congrArg some (setActivity_executor (e := { e with aborted := true }) ⟨.abort, stack⟩)
  | flag how =>
    exact congrArg some (setActivity_executor (e := { e with guarded := e.guarded.terminate })
      ⟨.rouse how, stack⟩)
  | rouse how => exact congrArg some (setActivity_wakeWorker_executor ⟨.join how, stack⟩)
  | join how => exact join?_executor hg how
  | drain how failure => exact congrArg some (drainPending_executor hg how failure)

theorem look_executor (hg : g.Faithful) : (g.executor e).look = g.executor e.look := by
  have hpoll : (g.executor e).guarded.poll (g.executor e).clock = _ :=
    e.guarded.poll_map g.script e.clock
  unfold Executor.look
  rw [hpoll]
  cases e.guarded.poll e.clock with
  | mk poll guarded =>
    cases poll with
    | stop =>
      exact note_executor (e := { e with worker := .stopped }) hg (.logged .workerStopped) rfl
    | park | parkUntil => rfl
    | run task =>
      let frame : Frame := .action task.id task.deadline e.clock task.action
      let busy : Executor := { e with guarded, worker := .busy { stack := [frame] } }
      have hlog : (g.executor busy).log .worker (.begun task e.clock) =
          g.executor (busy.log .worker (.begun task e.clock)) := note_executor hg (.logged _) rfl
      have hnote := note_executor (e := busy.log .worker (.begun task e.clock)) (t := .worker) hg
        (.started .action task.id task.label) rfl
      rw [← hlog] at hnote
      exact hnote

/-! ## Moves and runs -/

theorem step?_executor (hg : g.Faithful) (hm : ∀ a, e.activity? t = some a → g.Meets e t a) :
    (g.executor e).step? t = (e.step? t).map g.executor := by
  have haborted : (g.executor e).aborted = e.aborted := rfl
  unfold Executor.step?
  rw [haborted]
  split
  · rfl
  cases t with
  | caller n =>
    simp only [caller_executor]
    exact advance_executor hg (hm _ rfl)
  | worker =>
    simp only [worker_executor]
    cases h : e.worker with
    | busy a => exact advance_executor hg (hm a (Executor.activity?_worker.2 h))
    | polling => exact congrArg some (look_executor hg)
    | parked | stopped | died => rfl

/-- What a move does in a guise is what it does, in the guise. -/
theorem move?_executor (hg : g.Faithful) (m : Move)
    (hm : ∀ t a, m = .step t → e.activity? t = some a → g.Meets e t a) :
    (g.executor e).move? (m.map g.script) = (e.move? m).map g.executor := by
  have haborted : (g.executor e).aborted = e.aborted := rfl
  cases m with
  | call n request =>
    simp only [Move.map, Executor.move?, caller_executor, isIdle_activity, haborted]
    split
    · exact congrArg some (begin_executor hg [] request)
    · rfl
  | step t => exact step?_executor hg fun a => hm t a rfl
  | wake =>
    simp only [Move.map, Executor.move?, worker_executor, haborted]
    cases e.aborted with
    | true => rfl
    | false =>
      cases e.worker with
      | parked => exact congrArg some wakeWorker_executor
      | _ => rfl
  | tick nanos => rfl

/-- A faithful guise in which all panics that a run can deal with come to the same runs along. -/
theorem moves?_executor (hg : g.Faithful) {start : Executor}
    (hm : ∀ e, start.Reachable e → ∀ t a, e.activity? t = some a → g.Meets e t a)
    (hr : start.Reachable e) (ms : List Move) :
    (g.executor e).moves? (ms.map (Move.map g.script)) = (e.moves? ms).map g.executor := by
  induction ms generalizing e with
  | nil => rfl
  | cons m ms ih =>
    simp only [List.map_cons, Executor.moves?, move?_executor hg m fun t a _ => hm e hr t a]
    cases hfirst : e.move? m with
    | none => rfl
    | some next => exact ih (hr.move m hfirst)

/-- An executor starts in a guise as it does, or fails as it does. -/
theorem start_executor (hg : g.Faithful) (config : Config) (telemetry : Telemetry)
    (clock : Instant) (refusal : Option SystemError) :
    Executor.start (g.config config) (g.telemetry telemetry) clock refusal =
      (Executor.start config telemetry clock refusal).map g.executor := by
  have hvalid : (g.config config).validate = config.validate := rfl
  have hinitial : Executor.initial (g.config config) (g.telemetry telemetry) clock =
      g.executor (Executor.initial config telemetry clock) := by
    have htrace : (Executor.initial config telemetry clock).trace.filterMap (Entry.sift g.event) =
        (Executor.initial (g.config config) (g.telemetry telemetry) clock).trace := by
      have hworker : Entry.sift g.event ⟨.worker, .logged .workerStarted⟩ = some _ :=
        congrArg (Option.map _) (hg.neutral rfl)
      have hstarted : Entry.sift g.event ⟨.caller 0, .logged (.executorStarted config.threadName
          config.panicStrategy config.shutdownPolicy)⟩ = some _ :=
        congrArg (Option.map _) (hg.started _ _ _)
      exact (List.filterMap_cons_some hstarted).trans
        (congrArg (_ :: ·) (List.filterMap_cons_some hworker))
    simp only [executor, htrace, handler]
    simp only [Executor.initial, Executor.log, Executor.note, hg.uncounted]
    rfl
  unfold Executor.start
  rw [hvalid, hinitial]
  cases config.validate with
  | error error => rfl
  | ok _ => cases refusal <;> rfl

/-! ## What is seen -/

theorem view_executor (hg : g.Faithful) (e : Executor) : (g.executor e).view = g.view e.view := by
  have hsnapshot : (g.executor e).snapshot = g.snapshot e.snapshot := hg.read _ _
  have hqueue : (g.executor e).guarded.pending.drain =
      e.guarded.pending.drain.map (Task.map g.script) := e.guarded.pending.drain_map g.script
  have hempty : (g.executor e).guarded.pending.isEmpty = e.guarded.pending.isEmpty :=
    e.guarded.pending.isEmpty_map g.script
  have hnext : (g.executor e).guarded.pending.nextDeadline? = e.guarded.pending.nextDeadline? :=
    e.guarded.pending.nextDeadline?_map g.script
  unfold Executor.view
  rw [hsnapshot, hqueue, size_executor, hempty, hnext]
  rfl

/-- All panics that a thread ever deals with come to the same in the guise. -/
def MeetsAll (g : Guise) (config : Config) (telemetry : Telemetry) (clock : Instant) : Prop :=
  ∀ start e, Executor.start config telemetry clock = .ok start → start.Reachable e →
    ∀ t a, e.activity? t = some a → g.Meets e t a

/-- **An executor in another guise is seen to do the same, up to the guise.** -/
theorem observe_executor (hg : g.Faithful) {config : Config} {telemetry : Telemetry}
    {clock : Instant} (hm : g.MeetsAll config telemetry clock) (refusal : Option SystemError)
    (ms : List Move) :
    Executor.observe (g.config config) (g.telemetry telemetry) clock refusal
        (ms.map (Move.map g.script)) =
      (Executor.observe config telemetry clock refusal ms).map (Option.map g.view) := by
  unfold Executor.observe
  rw [start_executor hg]
  cases hs : Executor.start config telemetry clock refusal with
  | error error => rfl
  | ok start =>
    simp only [Except.map, moves?_executor hg (fun e => hm start e (Executor.start_of_ok hs)) .refl,
      Option.map_map]
    congr 2
    exact funext fun e => view_executor hg e

/-! ## Panics as they are -/

/-- What a guise has to respect so that panics which are dealt with by a strategy stay as they
are. -/
structure KeepsPanics (g : Guise) (s : PanicStrategy) : Prop where
  swallows : (g.strategy s).swallows = s.swallows
  strategy : s.swallows = false → g.strategy s = s
  count (n : Nat) : g.panicCount (n + 1) = g.panicCount n + 1
  swallowed : g.swallowed true = true
  raise {script : Script} {payload : Payload} : script.head = .raise payload →
    (g.script script).head = .raise payload
  raised (task : TaskId) (payload : Payload) :
    g.event (.raised task payload) = some (.raised task payload)
  aborted (message : String) :
    g.event (.logged (.taskAborted message)) = some (.logged (.taskAborted message))
  warned (message : String) : s.warns = true → g.event (.logged (.taskPanicked message)) =
    if (g.strategy s).warns then some (.logged (.taskPanicked message)) else none
  silent : s.warns = false → (g.strategy s).warns = false

section Keeps

variable (hk : g.KeepsPanics e.handler.strategy)
include hk

theorem warn_executor (payload : Payload) :
    (g.executor e).warn t payload = g.executor (e.warn t payload) := by
  have hw : (g.executor e).handler.strategy.warns = (g.strategy e.handler.strategy).warns := rfl
  unfold Executor.warn Handler.warning
  rw [hw]
  cases hwarns : e.handler.strategy.warns with
  | false =>
    rw [hk.silent hwarns]
    rfl
  | true =>
    have hwarned := hk.warned payload.message hwarns
    cases htarget : (g.strategy e.handler.strategy).warns with
    | false =>
      rw [htarget] at hwarned
      exact (note_executor_of_none hwarned).symm
    | true =>
      rw [htarget] at hwarned
      exact note_executor_of_some hwarned

/-- A panic that reaches a callable in progress comes to the same. -/
theorem catchPanic_executor (payload : Payload) (frame : Frame) :
    (g.executor e).catchPanic t payload (g.frame frame) (stack.map g.frame) =
      g.executor (e.catchPanic t payload frame stack) := by
  have htarget : (g.executor e).handler.strategy = g.strategy e.handler.strategy := rfl
  have hcount : (g.executor e).countPanic = g.executor e.countPanic := by
    simp only [Executor.countPanic, Handler.count, executor, handler, hk.count]
  rcases e.handler.strategy.swallows_or with hs | hs | hs
  · have hended := setActivity_executor (g := g) (e := e.countPanic.warn t payload) (t := t)
      ⟨.ended frame true, stack⟩
    simp only [activity, control, hk.swallowed] at hended
    rw [Executor.catchPanic_of_swallows (htarget ▸ hk.swallows.trans hs),
      Executor.catchPanic_of_swallows hs, hcount, warn_executor (e := e.countPanic) hk payload]
    exact hended
  · have hkept : g.strategy e.handler.strategy = e.handler.strategy :=
      hk.strategy (by rw [hs]; rfl)
    have hleave : (g.executor e.countPanic).leaveFrame (g.frame frame) =
        g.executor (e.countPanic.leaveFrame frame) := by
      rcases frame with _ | ⟨task, ⟨_ | _, _, _, _⟩, rest⟩ <;> rfl
    unfold Executor.catchPanic
    rw [htarget, hkept, hs, hcount]
    simp only [hleave]
    exact setActivity_executor ⟨.unwind payload, stack⟩
  · have hkept : g.strategy e.handler.strategy = e.handler.strategy :=
      hk.strategy (by rw [hs]; rfl)
    have hlog : (g.executor e.countPanic).log t (.taskAborted payload.message) =
        g.executor (e.countPanic.log t (.taskAborted payload.message)) :=
      note_executor_of_some (hk.aborted payload.message)
    unfold Executor.catchPanic
    rw [htarget, hkept, hs, hcount]
    simp only [hlog]
    exact setActivity_executor ⟨.abort, frame :: stack⟩

end Keeps

/-- A guise that keeps panics as they are meets every panic. -/
theorem meets_of_keeps (hk : g.KeepsPanics e.handler.strategy) (a : Activity) :
    g.Meets e t a := by
  obtain ⟨control, stack⟩ := a
  cases stack with
  | nil => cases control <;> trivial
  | cons frame stack =>
    cases control with
    | ready =>
      intro payload hhead
      have hraise : (g.frame frame).rest.head = .raise payload := rest_frame frame ▸ hk.raise hhead
      unfold Executor.resume
      rw [hhead, hraise]
      simp only [task_frame]
      rw [note_executor_of_some (hk.raised frame.task payload)]
      exact catchPanic_executor (e := e.note t (.raised frame.task payload)) hk payload frame
    | unwind payload => exact catchPanic_executor hk payload frame
    | _ => trivial

theorem meetsAll_of_keeps {config : Config} (hk : g.KeepsPanics config.panicStrategy)
    (telemetry : Telemetry) (clock : Instant) : g.MeetsAll config telemetry clock := by
  intro start e hs hr t a _
  have hstrategy : e.handler.strategy = config.panicStrategy := by
    rw [(Executor.handled_of_start hs hr).strategy, Executor.config_of_start hs hr]
  exact meets_of_keeps (hstrategy ▸ hk) a

end Guise

end Deferred
