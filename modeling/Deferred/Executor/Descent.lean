import Deferred.Executor.Weight

/-!
# Every step has its price

A step of a thread lowers the weight of the executor, so that no thread goes on for ever while time
stands still.

* `Executor.weight_begin_lt`: the first step of a call takes less than the call weighs.
* `Executor.weight_advance_lt`: a step of a call or of a callable lowers the weight.
* `Executor.weight_look_lt`: looking for work lowers the weight.
-/

namespace Deferred

/-! ## Weights of executors -/

namespace Executor

/-- A thread is this far. -/
def IsAt (e : Executor) (a : Activity) : ThreadId → Prop
  | .worker => e.worker = .busy a
  | .caller n => e.callers[n]? = some a

/-- Two states in which all threads are equally far and the same tasks are pending. -/
structure Alike (d e : Executor) : Prop where
  worker : d.worker = e.worker
  callers : d.callers = e.callers
  guarded : d.guarded = e.guarded
  aborted : d.aborted = e.aborted

theorem Alike.refl (e : Executor) : Alike e e := ⟨rfl, rfl, rfl, rfl⟩

theorem Alike.trans {a b c : Executor} (hab : Alike a b) (hbc : Alike b c) : Alike a c where
  worker := hab.worker.trans hbc.worker
  callers := hab.callers.trans hbc.callers
  guarded := hab.guarded.trans hbc.guarded
  aborted := hab.aborted.trans hbc.aborted

/-- Noting an event takes no thread further. -/
theorem alike_note (e : Executor) (t : ThreadId) (event : Event) : Alike (e.note t event) e :=
  ⟨rfl, rfl, rfl, rfl⟩

theorem alike_log (e : Executor) (t : ThreadId) (line : LogLine) : Alike (e.log t line) e :=
  e.alike_note t _

theorem Alike.weight_eq {d e : Executor} (h : Alike d e) : d.weight = e.weight := by
  simp only [weight, h.worker, h.callers, h.guarded, h.aborted]

theorem IsAt.alike {e d : Executor} {a : Activity} {t : ThreadId} (h : e.IsAt a t)
    (hw : d.worker = e.worker) (hc : d.callers = e.callers) : d.IsAt a t := by
  cases t with
  | worker => exact hw.trans h
  | caller n => exact (congrArg (·[n]?) hc).trans h

/-- Changing the activity of a thread exchanges its weight. -/
theorem weight_setActivity {e : Executor} {t : ThreadId} {a : Activity} (h : e.IsAt a t)
    (b : Activity) : (e.setActivity b t).weight + a.weight = e.weight + b.weight := by
  cases t with
  | worker =>
    have h : e.worker = .busy a := h
    simp only [setActivity, weight, h, WorkerState.weight]
    omega
  | caller n =>
    have h : e.callers[n]? = some a := h
    have hn : n + 1 - e.callers.length = 0 := by
      have := (List.getElem?_eq_some_iff.1 h).1
      omega
    have hs := sumOf_set Activity.weight b h
    simp only [setActivity, setCaller, weight, hn, List.replicate_zero, List.append_nil]
    omega

theorem Alike.weight_setActivity {e d : Executor} {t : ThreadId} {a : Activity}
    (he : Alike d e) (h : e.IsAt a t) (b : Activity) :
    (d.setActivity b t).weight + a.weight = e.weight + b.weight := by
  rw [Executor.weight_setActivity (h.alike he.worker he.callers), he.weight_eq]

/-- After an answer the thread is back at its callables. -/
theorem Alike.weight_reply {e d : Executor} {t : ThreadId} {a : Activity} (he : Alike d e)
    (h : e.IsAt a t) (topic : Topic) (stack : List Frame) (answer : Answer) :
    (d.reply t topic stack answer).weight + a.weight = e.weight + (1 + stackWeight stack) := by
  have := he.weight_setActivity h { stack }
  unfold reply
  cases stack <;> exact this

theorem alike_closed_logFailure (e : Executor) (t : ThreadId) (how : Closing)
    (failure : Option Error) : Alike ((e.logFailure t how failure).closed how) e := by
  unfold logFailure
  split <;> exact ⟨rfl, rfl, rfl, rfl⟩

theorem Alike.weight_endClosing {e d : Executor} {t : ThreadId} {a : Activity}
    (he : Alike d e) (h : e.IsAt a t) (stack : List Frame) (failure : Option Error)
    (how : Closing) :
    (d.endClosing t stack failure how).weight + a.weight = e.weight + (1 + stackWeight stack) :=
  ((alike_closed_logFailure d t how failure).trans he).weight_reply h ..

/-! ## Calls -/

theorem weight_beginClosing_lt {e : Executor} {t : ThreadId} {a : Activity} (h : e.IsAt a t)
    (stack : List Frame) (how : Closing) :
    (e.beginClosing t stack how).weight + a.weight < e.weight + (9 + stackWeight stack) := by
  unfold beginClosing
  split
  · have he : Alike { e with access := .engaged, joinable := false } e := ⟨rfl, rfl, rfl, rfl⟩
    have := he.weight_setActivity h ⟨.flag how, stack⟩
    simp only [Activity.weight, Control.weight] at this ⊢
    omega
  · have := (Alike.refl e).weight_endClosing h stack none how
    omega

/-- What removing all tasks does to the weight. -/
theorem weight_takeAll (e : Executor) :
    { e with guarded := e.guarded.takeAll.2 }.weight + e.guarded.takeAll.1.weight = e.weight := by
  have hg := e.guarded.weight_takeAll
  simp only [weight]
  omega

theorem alike_removeAll (e : Executor) (t : ThreadId) :
    Alike (e.removeAll t) { e with guarded := e.guarded.takeAll.2 } := ⟨rfl, rfl, rfl, rfl⟩

theorem alike_reportDiscarded (e : Executor) (t : ThreadId) (removed : Nat) :
    Alike (e.reportDiscarded t removed) e := ⟨rfl, rfl, rfl, rfl⟩

theorem weight_beginCancelAll {e : Executor} {t : ThreadId} {a : Activity} (h : e.IsAt a t)
    (stack : List Frame) :
    (e.beginCancelAll t stack).weight + a.weight = e.weight + (2 + stackWeight stack) := by
  have hg := e.weight_takeAll
  have := (e.alike_removeAll t).weight_setActivity (h.alike rfl rfl)
    ⟨.settle (.ofQueue .cancelAll e.guarded.takeAll.1), stack⟩
  simp only [beginCancelAll, Activity.weight, Control.weight, Batch.weight_ofQueue] at this ⊢
  omega

/-- The first step of a call takes less than the call weighs. -/
theorem weight_begin_lt {e : Executor} {t : ThreadId} {a : Activity} (h : e.IsAt a t)
    (stack : List Frame) (request : Request) :
    (e.begin t stack request).weight + a.weight
      < e.weight + (1 + request.weight + stackWeight stack) := by
  have hr := fun topic answer => (Alike.refl e).weight_reply h topic stack answer
  have hge := request.le_weight
  unfold begin
  split
  · have := hr .threadName (.name (e.threadName t))
    omega
  next spec _ =>
    unfold make
    split
    next error _ =>
      have := hr (.schedule spec.label) (.failed error)
      omega
    next deadline _ =>
      have he : Alike { e with nextId := e.nextId + 1 } e := ⟨rfl, rfl, rfl, rfl⟩
      have := he.weight_setActivity h ⟨.enqueue (spec.task ⟨e.nextId⟩ deadline), stack⟩
      simp only [Activity.weight, Control.weight, Task.weight, Spec.task, Request.weight] at this ⊢
      omega
  · have := weight_beginCancelAll h stack
    omega
  · have := hr .pending (.count e.guarded.pending.size)
    omega
  · have := weight_beginClosing_lt h stack .shutdown
    simp only [Request.weight]
    omega
  · have := weight_beginClosing_lt h stack .drop
    simp only [Request.weight]
    omega
  · exact Nat.lt_of_le_of_lt (Nat.le_of_eq (hr _ .gone)) (by omega)
  · exact Nat.lt_of_le_of_lt (Nat.le_of_eq (hr _ .gone)) (by omega)

/-! ## Panics, batches and the worker -/

theorem alike_warn (e : Executor) (t : ThreadId) (payload : Payload) :
    Alike (e.warn t payload) e := by
  unfold warn
  split <;> exact ⟨rfl, rfl, rfl, rfl⟩

theorem alike_abandon (e : Executor) (purpose : Purpose) : Alike (e.abandon purpose) e := by
  unfold abandon
  split <;> exact ⟨rfl, rfl, rfl, rfl⟩

theorem alike_leaveFrame (e : Executor) (frame : Frame) : Alike (e.leaveFrame frame) e := by
  unfold leaveFrame
  split
  · exact ⟨rfl, rfl, rfl, rfl⟩
  · exact alike_abandon ..

theorem weight_catchPanic_lt {e : Executor} {t : ThreadId} {a : Activity} (h : e.IsAt a t)
    {payload : Payload} {frame : Frame} {stack : List Frame}
    (ha : frame.weight + stackWeight stack < a.weight) :
    (e.catchPanic t payload frame stack).weight < e.weight := by
  have hf := frame.one_lt_weight
  have he : Alike e.countPanic e := ⟨rfl, rfl, rfl, rfl⟩
  have hswallow := ((alike_warn _ t payload).trans he).weight_setActivity h ⟨.ended frame true, stack⟩
  unfold catchPanic
  split
  · have := ((alike_leaveFrame _ frame).trans he).weight_setActivity h ⟨.unwind payload, stack⟩
    simp only [Activity.weight, Control.weight] at this ha
    omega
  · have := ((alike_log _ t (.taskAborted payload.message)).trans he).weight_setActivity h
      ⟨.abort, frame :: stack⟩
    simp only [Activity.weight, Control.weight, stackWeight, sumOf] at this ha
    omega
  all_goals
    simp only [Activity.weight, Control.weight] at hswallow ha
    omega

/-- The end of the process lowers the weight, if it has not come before. -/
theorem weight_abort_lt {e : Executor} {t : ThreadId} {stack : List Frame}
    (h : e.IsAt ⟨.abort, stack⟩ t) (hrun : e.aborted = false) :
    (e.abort t stack).weight < e.weight := by
  have := weight_setActivity (e := { e with aborted := true }) (h.alike rfl rfl) ⟨.abort, stack⟩
  have hend : { e with aborted := true }.weight + 1 = e.weight := by simp [weight, hrun]
  unfold abort
  omega

theorem weight_endBatch_lt {e : Executor} {t : ThreadId} {stack : List Frame} {batch : Batch}
    (h : e.IsAt ⟨.settle batch, stack⟩ t) : (e.endBatch t batch stack).weight < e.weight := by
  have hb : 2 ≤ batch.weight := by simp [Batch.weight]
  have he : Alike (e.reportBatch t batch) e := ⟨rfl, rfl, rfl, rfl⟩
  unfold endBatch
  split
  · have := he.weight_reply h .cancelAll stack (.count batch.removed)
    simp only [Activity.weight, Control.weight] at this
    omega
  next how failure _ =>
    have := he.weight_endClosing h stack failure how
    simp only [Activity.weight, Control.weight] at this
    omega

theorem weight_settleTask_lt {e : Executor} {t : ThreadId} {stack : List Frame} {batch : Batch}
    {task : Task Script} {tasks : Queue Script} (h : e.IsAt ⟨.settle batch, stack⟩ t)
    (hp : batch.tasks.pop? = some (task, tasks)) :
    (e.settleTask t { batch with tasks } task stack).weight < e.weight := by
  have hw := Queue.weight_pop hp
  unfold settleTask
  split
  · have := weight_setActivity h ⟨.settle { batch with tasks }, stack⟩
    simp only [Activity.weight, Control.weight, Batch.weight, Task.weight] at this hw
    omega
  next script hscript =>
    have := (e.alike_note t (.started .callback task.id task.label)).weight_setActivity h
      ⟨.ready, .callback task.id { batch with tasks } script :: stack⟩
    simp only [Activity.weight, Control.weight, Batch.weight, Task.weight, hscript, stackWeight,
      sumOf, Frame.weight, Option.map_some, Option.getD_some] at this hw
    omega

theorem alike_recordPanic (e : Executor) (swallowed : Bool) :
    Alike (e.recordPanic swallowed) e := by
  unfold recordPanic
  split <;> exact ⟨rfl, rfl, rfl, rfl⟩

/-- An action that has ended leaves the worker with nothing but to look for work. -/
theorem weight_endFrame_lt {e : Executor} {t : ThreadId} {stack : List Frame} {frame : Frame}
    {swallowed : Bool} (h : e.IsAt ⟨.ended frame swallowed, stack⟩ t)
    (hw : ∀ task deadline started rest, frame = .action task deadline started rest → t = .worker) :
    (e.endFrame t frame swallowed stack).weight < e.weight := by
  unfold endFrame
  split
  next task deadline started rest =>
    obtain rfl := hw task deadline started rest rfl
    have h : e.worker = .busy _ := h
    have he := alike_recordPanic (e.recordRun deadline started) swallowed
    simp only [weight, he.callers, he.guarded, he.aborted, h, WorkerState.weight, Activity.weight,
      Control.weight, Frame.weight]
    simp only [recordRun, count]
    omega
  next task batch rest =>
    have := (alike_recordPanic e swallowed).weight_setActivity h ⟨.settle batch.goOn, stack⟩
    simp only [Activity.weight, Control.weight, Frame.weight, Batch.weight_goOn] at this
    omega

/-- How the worker's end is awaited does not change how much is left, but for the waiting itself. -/
theorem weight_join_lt {e next : Executor} {t : ThreadId} {stack : List Frame} {how : Closing}
    (h : e.IsAt ⟨.join how, stack⟩ t) (hj : e.join? t stack how = some next) :
    next.weight < e.weight := by
  unfold join? at hj
  split at hj
  · obtain rfl := Option.some.inj hj
    have := (e.alike_log t (.shutDownFromWorker e.config.threadName)).weight_setActivity h
      ⟨.drain how none, stack⟩
    simp only [Activity.weight, Control.weight] at this
    omega
  split at hj
  · cases hj
  · obtain rfl := Option.some.inj hj
    have := weight_setActivity h ⟨.drain how none, stack⟩
    simp only [Activity.weight, Control.weight] at this
    omega
  next payload _ =>
    obtain rfl := Option.some.inj hj
    have := (e.alike_log t
      (.workerPanicked e.config.threadName payload.message)).weight_setActivity h
      ⟨.drain how (some (.workerPanic payload.message)), stack⟩
    simp only [Activity.weight, Control.weight] at this
    omega

theorem weight_drainPending_lt {e : Executor} {t : ThreadId} {stack : List Frame} {how : Closing}
    {failure : Option Error} (h : e.IsAt ⟨.drain how failure, stack⟩ t) :
    (e.drainPending t stack how failure).weight < e.weight := by
  have hg := e.weight_takeAll
  have hr := e.alike_removeAll t
  have h' := h.alike (d := { e with guarded := e.guarded.takeAll.2 }) rfl rfl
  unfold drainPending
  split
  · have hd := (e.removeAll t).alike_reportDiscarded t e.guarded.pending.size
    have := (hd.trans hr).weight_endClosing h' stack failure how
    simp only [Activity.weight, Control.weight] at this
    omega
  · have := hr.weight_setActivity h'
      ⟨.settle (.ofQueue (.closing how failure) e.guarded.takeAll.1), stack⟩
    simp only [Activity.weight, Control.weight, Batch.weight_ofQueue] at this
    omega

theorem weight_resume_lt {e : Executor} {t : ThreadId} {frame : Frame} {stack : List Frame}
    (h : e.IsAt ⟨.ready, frame :: stack⟩ t) : (e.resume t frame stack).weight < e.weight := by
  unfold resume
  split
  · have := weight_setActivity h ⟨.ended frame false, stack⟩
    simp only [Activity.weight, Control.weight, stackWeight, sumOf] at this
    omega
  next request rest hhead =>
    have hb := weight_begin_lt h (frame.goOn rest :: stack) request
    have hw := Script.weight_of_head hhead
    have hf := frame.weight_goOn rest
    simp only [Activity.weight, Control.weight, stackWeight, sumOf] at hb
    omega
  next payload _ =>
    have he := e.alike_note t (.raised frame.task payload)
    rw [← he.weight_eq]
    refine weight_catchPanic_lt (h.alike he.worker he.callers) ?_
    simp only [Activity.weight, Control.weight, stackWeight, sumOf]
    omega

theorem weight_enqueue_lt {e next : Executor} {t : ThreadId} {stack : List Frame}
    {task : Task Script} (h : e.IsAt ⟨.enqueue task, stack⟩ t)
    (hs : e.advance t ⟨.enqueue task, stack⟩ = some next) : next.weight < e.weight := by
  unfold advance at hs
  simp only at hs
  split at hs
  next error _ =>
    obtain rfl := Option.some.inj hs
    have := (Alike.refl e).weight_reply h (.schedule task.label) stack (.failed error)
    simp only [Activity.weight, Control.weight] at this
    omega
  next guarded first haccept =>
    obtain rfl := Option.some.inj hs
    have hw := Guarded.weight_accept haccept
    have he := { e with guarded }.alike_note t (.accepted task.id)
    have hg : { e with guarded }.weight = e.weight + task.weight := by
      simp only [weight, hw]
      omega
    have := he.weight_setActivity (h.alike rfl rfl)
      ⟨if first then .notify task else .record task, stack⟩
    have hc : (if first then Control.notify task else .record task).weight ≤ 4 := by
      split <;> simp [Control.weight]
    simp only [Activity.weight, Control.weight] at this hc
    omega

theorem weight_endSchedule_lt {e : Executor} {t : ThreadId} {stack : List Frame}
    {task : Task Script} (h : e.IsAt ⟨.record task, stack⟩ t) :
    (e.endSchedule t task stack).weight < e.weight := by
  have he : Alike ((e.count .recordScheduled).log t (.scheduled task e.clock)) e :=
    ⟨rfl, rfl, rfl, rfl⟩
  have := he.weight_reply h (.schedule task.label) stack (.scheduled task.id)
  simp only [Activity.weight, Control.weight] at this
  unfold endSchedule
  omega

theorem IsAt.wakeWorker {e : Executor} {a : Activity} {t : ThreadId} (h : e.IsAt a t) :
    e.wakeWorker.IsAt a t := by
  unfold Executor.wakeWorker
  split
  next d hd =>
    cases t with
    | worker => exact absurd (hd.symm.trans h) (by simp)
    | caller n => exact h
  · exact h

theorem weight_wakeWorker_le (e : Executor) : e.wakeWorker.weight ≤ e.weight + 1 := by
  unfold Executor.wakeWorker
  split
  next d hd =>
    simp only [weight, hd, WorkerState.weight]
    omega
  · omega

/-- A panic that has gone through all callables ends what the thread was doing. -/
theorem weight_leave_lt {e : Executor} {t : ThreadId} {payload : Payload}
    (h : e.IsAt ⟨.unwind payload, []⟩ t) : (e.leave payload t).weight < e.weight := by
  cases t with
  | worker =>
    have h : e.worker = .busy _ := h
    simp only [leave, log, note, weight, h, WorkerState.weight, Activity.weight, Control.weight,
      Guarded.unwound]
    omega
  | caller n =>
    have := weight_setActivity h .idle
    simp only [Activity.weight, Control.weight, Activity.idle, setActivity] at this
    simp only [leave]
    have he : Alike ((e.setCaller n .idle).note (.caller n) (.unwound payload))
      (e.setCaller n .idle) := ⟨rfl, rfl, rfl, rfl⟩
    rw [he.weight_eq]
    simp only [Activity.idle]
    omega

/-- Actions are run by the worker only. -/
def ActionsOnWorker (t : ThreadId) (a : Activity) : Prop :=
  ∀ task deadline started rest swallowed,
    a.control = .ended (.action task deadline started rest) swallowed → t = .worker

/-- A step of a thread that is making a call or running a callable lowers the weight. -/
theorem weight_advance_lt {e next : Executor} {t : ThreadId} {a : Activity} (h : e.IsAt a t)
    (hrun : e.aborted = false) (hw : ActionsOnWorker t a) (hs : e.advance t a = some next) :
    next.weight < e.weight := by
  rcases a with ⟨control, stack⟩
  cases control with
  | enqueue task => exact weight_enqueue_lt h hs
  | join how => exact weight_join_lt h hs
  | ready =>
    cases stack with
    | nil => cases hs
    | cons frame stack =>
      obtain rfl : e.resume t frame stack = next := Option.some.inj hs
      exact weight_resume_lt h
  | notify task =>
    obtain rfl := Option.some.inj hs
    have hle := e.weight_wakeWorker_le
    have := weight_setActivity h.wakeWorker ⟨.record task, stack⟩
    simp only [Activity.weight, Control.weight] at this
    omega
  | record task =>
    obtain rfl := Option.some.inj hs
    exact weight_endSchedule_lt h
  | settle batch =>
    unfold advance at hs
    simp only at hs
    split at hs
    · obtain rfl := Option.some.inj hs
      exact weight_endBatch_lt h
    next task tasks hp =>
      obtain rfl := Option.some.inj hs
      exact weight_settleTask_lt h hp
  | ended frame swallowed =>
    obtain rfl : e.endFrame t frame swallowed stack = next := Option.some.inj hs
    refine weight_endFrame_lt h ?_
    rintro task deadline started rest rfl
    exact hw _ _ _ _ _ rfl
  | unwind payload =>
    cases stack with
    | nil =>
      obtain rfl : e.leave payload t = next := Option.some.inj hs
      exact weight_leave_lt h
    | cons frame stack =>
      obtain rfl : e.catchPanic t payload frame stack = next := Option.some.inj hs
      refine weight_catchPanic_lt h ?_
      simp only [Activity.weight, Control.weight, stackWeight, sumOf]
      omega
  | abort =>
    obtain rfl : e.abort t stack = next := Option.some.inj hs
    exact weight_abort_lt h hrun
  | flag how =>
    obtain rfl := Option.some.inj hs
    have hg : { e with guarded := e.guarded.terminate }.weight = e.weight := rfl
    have := weight_setActivity (e := { e with guarded := e.guarded.terminate })
      (h.alike rfl rfl) ⟨.rouse how, stack⟩
    simp only [Activity.weight, Control.weight] at this
    omega
  | rouse how =>
    obtain rfl := Option.some.inj hs
    have hle := e.weight_wakeWorker_le
    have := weight_setActivity h.wakeWorker ⟨.join how, stack⟩
    simp only [Activity.weight, Control.weight] at this
    omega
  | drain how failure =>
    obtain rfl := Option.some.inj hs
    exact weight_drainPending_lt h

/-- Beginning a task costs less than the task weighs. -/
theorem weight_look_run {e : Executor} {task : Task Script} {guarded : Guarded Script}
    (h : e.guarded.poll e.clock = (.run task, guarded)) :
    e.look.weight + e.worker.weight < e.weight + 1 := by
  have hg := Guarded.weight_poll h
  unfold look
  rw [h]
  simp only [weight, hg, WorkerState.weight, log, note, Activity.weight, Control.weight, stackWeight,
    sumOf, Frame.weight, Task.weight]
  omega

/-- The worker's look for work lowers the weight. -/
theorem weight_look_lt {e : Executor} (h : e.worker = .polling) : e.look.weight < e.weight := by
  have hw : e.worker.weight = 2 := by rw [h]; rfl
  cases hp : e.guarded.poll e.clock with
  | mk poll guarded =>
    cases poll with
    | run task =>
      have := weight_look_run hp
      omega
    | stop | park | parkUntil => simp [look, hp, weight, h, WorkerState.weight, log, note]

/-- The look for work of a worker whose time has come lowers the weight. -/
theorem weight_look_parked_lt {e : Executor} {deadline : Instant}
    (h : e.worker = .parked (some deadline))
    (hnext : e.guarded.pending.nextDeadline? = some deadline) (hd : deadline ≤ e.clock) :
    e.look.weight < e.weight := by
  have hw : e.worker.weight = 1 := by rw [h]; rfl
  cases hp : e.guarded.poll e.clock with
  | mk poll guarded =>
    cases poll with
    | run task =>
      have := weight_look_run hp
      omega
    | stop => simp [look, hp, weight, h, WorkerState.weight, log, note]
    | park => simp [Guarded.poll_park hp] at hnext
    | parkUntil => exact absurd (Guarded.poll_parkUntil hp).2 (Queue.popDue_ne_none hnext hd)

/-- A step of the worker lowers the weight. -/
theorem weight_step_worker_lt {e next : Executor} (hs : e.step? .worker = some next) :
    next.weight < e.weight := by
  unfold step? at hs
  split at hs
  · cases hs
  next hrun =>
    simp only at hs
    split at hs
    next hw => exact Option.some.inj hs ▸ weight_look_lt hw
    next activity hw =>
      exact weight_advance_lt (t := .worker) hw (by simpa using hrun) (fun _ _ _ _ _ _ => rfl) hs
    all_goals cases hs

end Executor

end Deferred
