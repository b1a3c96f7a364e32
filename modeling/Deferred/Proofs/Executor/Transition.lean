import Deferred.Executor.Move
import Deferred.Proofs.Executor.Threads

/-!
# Transitions

What a move can do, decided once: a thread whose activity is known changes what all threads share in
a known way, notes known events, and has a known activity afterwards. Invariants are proved by cases
on these relations, without a look at the functions that carry a move out.

* `Change` is what a step does to what is shared, `Executor.after` the state after a step.
* `Opens`, `Catches`, `Local`: the first step of a call, a panic that reaches a callable, and every
  step of a thread.
* `WorkerStep`: the steps by which the worker takes up a task, rests or ends.
* `Goes`: what one thread does next, and `goes_of_advance`: it does nothing else.
* `Happens`: all of them, `Makes`: those of a certain move, and `makes_of_move`: nothing else can
  happen.
-/

namespace Deferred

/-- What a step does to what the threads share, and what happens in it, the latest first. -/
structure Change where
  guarded : Guarded Script
  handler : Handler
  telemetry : Telemetry
  nextId : Nat
  access : Access
  joinable : Bool
  /-- Whether the process has ended. -/
  aborted : Bool
  /-- Whether the worker is woken. -/
  wakes : Bool := false
  events : List Event := []

/-- The event by which a call is answered, which a callable or a caller has made. -/
def answerEvent (topic : Topic) (stack : List Frame) (answer : Answer) : Event :=
  match stack with
  | [] => .returned answer
  | _ :: _ => .answered topic answer

/-- Who can reach the executor after a call has been left that settled tasks. -/
def Purpose.accessAfter (access : Access) : Purpose → Access
  | cancelAll => access
  | closing how _ => how.access

/-- Who can reach the executor after a callable has been left by a panic. -/
def Frame.accessAfter (access : Access) : Frame → Access
  | action _ _ _ _ => access
  | callback _ batch _ => batch.purpose.accessAfter access

namespace Executor

/-- A step that changes nothing. -/
def unchanged (e : Executor) : Change where
  guarded := e.guarded
  handler := e.handler
  telemetry := e.telemetry
  nextId := e.nextId
  access := e.access
  joinable := e.joinable
  aborted := e.aborted

/-- The lines that closing the executor logs of a failure. -/
def failureLines (e : Executor) : Closing → Option Error → List LogLine
  | .drop, some error => [.shutdownFailed e.config.threadName error]
  | _, _ => []

/-- What is shared, after a thread has made a step. -/
def apply (e : Executor) (t : ThreadId) (c : Change) : Executor :=
  { e with
    guarded := c.guarded
    handler := c.handler
    telemetry := c.telemetry
    nextId := c.nextId
    access := c.access
    joinable := c.joinable
    aborted := c.aborted
    worker := if c.wakes then e.worker.woken else e.worker
    trace := c.events.map (⟨t, ·⟩) ++ e.trace }

/-- The state after a thread has made a step, and is then as far as `b` says. -/
def after (e : Executor) (t : ThreadId) (c : Change) (b : Activity) : Executor :=
  (e.apply t c).setActivity b t

/-- The state after the worker has made a step by itself. -/
def afterTurn (e : Executor) (c : Change) (w : WorkerState) : Executor :=
  { e.apply .worker c with worker := w }

/-! ## Steps of a thread -/

/-- The first step of a call that is made from above `stack`. -/
inductive Opens (e : Executor) (t : ThreadId) (stack : List Frame) :
    Request → Change → Activity → Prop
  /-- The call is over at once, and no task has been scheduled. -/
  | answer {request : Request} (answer : Answer) (ha : ∀ task, answer ≠ .scheduled task) :
      Opens e t stack request
        { e.unchanged with events := [answerEvent request.topic stack answer] } { stack }
  | make {spec : Spec} {deadline : Instant} (hx : e.access = .available)
      (hd : spec.due.deadline e.clock = .ok deadline) :
      Opens e t stack (.schedule spec) { e.unchanged with nextId := e.nextId + 1 }
        ⟨.enqueue (spec.task ⟨e.nextId⟩ deadline), stack⟩
  | cancelAll (hx : e.access = .available) :
      Opens e t stack .cancelAll
        { e.unchanged with
          guarded := { e.guarded with pending := .empty e.guarded.pending.limit }
          events := [.removed e.guarded.pending.ids] }
        ⟨.settle (.ofQueue .cancelAll e.guarded.pending), stack⟩
  | close {request : Request} (how : Closing) (hx : e.access = .available)
      (hj : e.joinable = true) :
      Opens e t stack request { e.unchanged with access := .engaged, joinable := false }
        ⟨.flag how, stack⟩
  | closeAgain {request : Request} (how : Closing) (hx : e.access = .available)
      (hj : e.joinable = false) :
      Opens e t stack request
        { e.unchanged with
          access := how.access
          events := [answerEvent how.topic stack (how.answer none)] } { stack }

/-- What becomes of a panic that reaches a callable. -/
inductive Catches (e : Executor) (payload : Payload) (frame : Frame) (stack : List Frame) :
    Change → Activity → Prop
  | swallow (hs : e.handler.strategy.swallows = true) :
      Catches e payload frame stack
        { e.unchanged with
          handler := e.handler.count
          events := (e.handler.warning payload).toList.map .logged } ⟨.ended frame true, stack⟩
  | pass (hs : e.handler.strategy = .propagate) :
      Catches e payload frame stack
        { e.unchanged with
          handler := e.handler.count
          access := frame.accessAfter e.access } ⟨.unwind payload, stack⟩
  | abort (hs : e.handler.strategy = .abort) :
      Catches e payload frame stack
        { e.unchanged with
          handler := e.handler.count
          events := [.logged (.taskAborted payload.message)] } ⟨.abort, frame :: stack⟩

/-- Where panics propagate, one that reaches a callable goes on from it. -/
theorem Catches.passes {e : Executor} {payload : Payload} {frame : Frame} {stack : List Frame}
    {c : Change} {b : Activity} (h : Catches e payload frame stack c b)
    (hs : e.handler.strategy = .propagate) :
    b = ⟨.unwind payload, stack⟩ ∧
      c = { e.unchanged with
        handler := e.handler.count
        access := frame.accessAfter e.access } := by
  cases h with
  | swallow hsw => exact absurd hs (PanicStrategy.ne_of_swallows hsw).1
  | pass => exact ⟨rfl, rfl⟩
  | abort hother => cases hs.symm.trans hother

/-- A step of a thread that begins a call, goes on with one, or runs a callable. -/
inductive Local (e : Executor) (t : ThreadId) : Activity → Change → Activity → Prop
  | opens {n : Nat} {request : Request} {c : Change} {b : Activity} (ht : t = .caller n)
      (ho : Opens e t [] request c b) : Local e t ⟨.ready, []⟩ c b
  | finish {frame : Frame} {stack : List Frame} (hh : frame.rest.head = .finish) :
      Local e t ⟨.ready, frame :: stack⟩ e.unchanged ⟨.ended frame false, stack⟩
  | call {frame : Frame} {stack : List Frame} {request : Request} {rest : Script} {c : Change}
      {b : Activity} (hh : frame.rest.head = .call request rest)
      (ho : Opens e t (frame.goOn rest :: stack) request c b) :
      Local e t ⟨.ready, frame :: stack⟩ c b
  | raise {frame : Frame} {stack : List Frame} {payload : Payload} {c : Change} {b : Activity}
      (hh : frame.rest.head = .raise payload) (hc : Catches e payload frame stack c b) :
      Local e t ⟨.ready, frame :: stack⟩
        { c with events := c.events ++ [.raised frame.task payload] } b
  | unwind {frame : Frame} {stack : List Frame} {payload : Payload} {c : Change} {b : Activity}
      (hc : Catches e payload frame stack c b) :
      Local e t ⟨.unwind payload, frame :: stack⟩ c b
  | leave {n : Nat} {payload : Payload} (ht : t = .caller n) :
      Local e t ⟨.unwind payload, []⟩ { e.unchanged with events := [.unwound payload] } .idle
  | abort {stack : List Frame} :
      Local e t ⟨.abort, stack⟩ { e.unchanged with aborted := true } ⟨.abort, stack⟩
  | reject {task : Task Script} {stack : List Frame} {error : Error}
      (ha : e.guarded.accept task = .error error) :
      Local e t ⟨.enqueue task, stack⟩
        { e.unchanged with
          events := [answerEvent (.schedule task.label) stack (.failed error)] } { stack }
  | accept {task : Task Script} {stack : List Frame} {guarded : Guarded Script} {first : Bool}
      (ha : e.guarded.accept task = .ok (guarded, first)) :
      Local e t ⟨.enqueue task, stack⟩ { e.unchanged with guarded, events := [.accepted task.id] }
        ⟨if first then .notify task else .record task, stack⟩
  | notify {task : Task Script} {stack : List Frame} :
      Local e t ⟨.notify task, stack⟩ { e.unchanged with wakes := true } ⟨.record task, stack⟩
  | record {task : Task Script} {stack : List Frame} :
      Local e t ⟨.record task, stack⟩
        { e.unchanged with
          telemetry := e.telemetry.update .recordScheduled
          events := [answerEvent (.schedule task.label) stack (.scheduled task.id),
            .logged (.scheduled task e.clock)] } { stack }
  | letGo {batch : Batch} {stack : List Frame} {task : Task Script} {tasks : Queue Script}
      (hp : batch.tasks.pop? = some (task, tasks)) (hn : task.onCancel = none) :
      Local e t ⟨.settle batch, stack⟩ e.unchanged ⟨.settle { batch with tasks }, stack⟩
  | callBack {batch : Batch} {stack : List Frame} {task : Task Script} {tasks : Queue Script}
      {script : Script} (hp : batch.tasks.pop? = some (task, tasks))
      (hs : task.onCancel = some script) :
      Local e t ⟨.settle batch, stack⟩
        { e.unchanged with events := [.started .callback task.id task.label] }
        ⟨.ready, .callback task.id { batch with tasks } script :: stack⟩
  | canceled {batch : Batch} {stack : List Frame} (hp : batch.tasks.pop? = none)
      (hb : batch.purpose = .cancelAll) :
      Local e t ⟨.settle batch, stack⟩
        { e.unchanged with
          telemetry := e.telemetry.update (·.recordCanceled batch.removed.toUInt64)
          events := [answerEvent .cancelAll stack (.count batch.removed),
            .logged (.tasksCanceled batch.removed batch.invoked)] } { stack }
  | settled {batch : Batch} {stack : List Frame} {how : Closing} {failure : Option Error}
      (hp : batch.tasks.pop? = none) (hb : batch.purpose = .closing how failure) :
      Local e t ⟨.settle batch, stack⟩
        { e.unchanged with
          telemetry := e.telemetry.update (·.recordCanceled batch.removed.toUInt64)
          access := how.access
          events := answerEvent how.topic stack (how.answer failure) ::
            ((e.failureLines how failure).map .logged ++
              [.logged (.stoppedCanceling e.config.threadName batch.removed batch.invoked)]) }
        { stack }
  | calledBack {task : TaskId} {batch : Batch} {rest : Script} {swallowed : Bool}
      {stack : List Frame} :
      Local e t ⟨.ended (.callback task batch rest) swallowed, stack⟩
        { e.unchanged with
          telemetry := if swallowed then e.telemetry.update .recordPanic else e.telemetry }
        ⟨.settle batch.goOn, stack⟩
  | flag {how : Closing} {stack : List Frame} :
      Local e t ⟨.flag how, stack⟩ { e.unchanged with guarded := e.guarded.terminate }
        ⟨.rouse how, stack⟩
  | rouse {how : Closing} {stack : List Frame} :
      Local e t ⟨.rouse how, stack⟩ { e.unchanged with wakes := true } ⟨.join how, stack⟩
  | joinSelf {how : Closing} {stack : List Frame} (ht : t = .worker) :
      Local e t ⟨.join how, stack⟩
        { e.unchanged with events := [.logged (.shutDownFromWorker e.config.threadName)] }
        ⟨.drain how none, stack⟩
  | joinStopped {how : Closing} {stack : List Frame} (ht : t ≠ .worker)
      (hw : e.worker = .stopped) :
      Local e t ⟨.join how, stack⟩ e.unchanged ⟨.drain how none, stack⟩
  | joinDied {how : Closing} {stack : List Frame} {payload : Payload} (ht : t ≠ .worker)
      (hw : e.worker = .died payload) :
      Local e t ⟨.join how, stack⟩
        { e.unchanged with
          events := [.logged (.workerPanicked e.config.threadName payload.message)] }
        ⟨.drain how (some (.workerPanic payload.message)), stack⟩
  | discard {how : Closing} {failure : Option Error} {stack : List Frame}
      (hp : e.config.shutdownPolicy = .discard) :
      Local e t ⟨.drain how failure, stack⟩
        { e.unchanged with
          guarded := { e.guarded with pending := .empty e.guarded.pending.limit }
          telemetry := e.telemetry.update (·.recordDiscarded e.guarded.pending.size.toUInt64)
          access := how.access
          events := answerEvent how.topic stack (how.answer failure) ::
            ((e.failureLines how failure).map .logged ++
              [.logged (.stoppedDiscarding e.config.threadName e.guarded.pending.size),
                .removed e.guarded.pending.ids]) }
        { stack }
  | drain {how : Closing} {failure : Option Error} {stack : List Frame}
      (hp : e.config.shutdownPolicy = .cancelPending) :
      Local e t ⟨.drain how failure, stack⟩
        { e.unchanged with
          guarded := { e.guarded with pending := .empty e.guarded.pending.limit }
          events := [.removed e.guarded.pending.ids] }
        ⟨.settle (.ofQueue (.closing how failure) e.guarded.pending), stack⟩

/-! ## Steps of the worker -/

/-- A step by which the worker takes up a task, rests or ends. -/
inductive WorkerStep (e : Executor) : WorkerState → Change → WorkerState → Prop
  | run {task : Task Script} {pending : Queue Script} (ht : e.guarded.terminating = false)
      (hp : e.guarded.pending.popDue? e.clock = some (task, pending)) :
      WorkerStep e .polling
        { e.unchanged with
          guarded := { e.guarded with pending }
          events := [.started .action task.id task.label, .logged (.begun task e.clock)] }
        (.busy { stack := [.action task.id task.deadline e.clock task.action] })
  | finish {task : TaskId} {deadline started : Instant} {rest : Script} {swallowed : Bool} :
      WorkerStep e (.busy ⟨.ended (.action task deadline started rest) swallowed, []⟩)
        { e.unchanged with
          telemetry := ((e.recordRun deadline started).recordPanic swallowed).telemetry } .polling
  | die {payload : Payload} :
      WorkerStep e (.busy ⟨.unwind payload, []⟩)
        { e.unchanged with
          guarded := e.guarded.unwound
          events := [.logged (.workerUnwinding e.guarded.pending.size)] } (.died payload)
  | stop (ht : e.guarded.terminating = true) :
      WorkerStep e .polling { e.unchanged with events := [.logged .workerStopped] } .stopped
  | sleep (ht : e.guarded.terminating = false)
      (hp : e.guarded.pending.popDue? e.clock = none) :
      WorkerStep e .polling e.unchanged (.parked e.guarded.pending.nextDeadline?)
  | wake {deadline : Option Instant} : WorkerStep e (.parked deadline) e.unchanged .polling

/-- What a thread that makes a call or runs a callable does next. -/
inductive Goes (e : Executor) (t : ThreadId) (a : Activity) : Executor → Prop
  | continues {b : Activity} {c : Change} (hl : Local e t a c b) : Goes e t a (e.after t c b)
  | finishes {w : WorkerState} {c : Change} (ht : t = .worker) (hw : WorkerStep e (.busy a) c w) :
      Goes e t a (e.afterTurn c w)

/-- All that can happen next. -/
inductive Happens (e : Executor) : Executor → Prop
  | goes {t : ThreadId} {a b : Activity} {c : Change} (ha : e.activity? t = some a)
      (hl : Local e t a c b) : Happens e (e.after t c b)
  | turns {v w : WorkerState} {c : Change} (hv : e.worker = v) (hw : WorkerStep e v c w) :
      Happens e (e.afterTurn c w)
  | ticks (nanos : Nat) : Happens e { e with clock := e.clock.later nanos }

/-- What happens next, told by the move in which it happens. -/
inductive Makes (e : Executor) : Move → Executor → Prop
  | opens {n : Nat} {request : Request} {c : Change} {b : Activity}
      (ha : e.activity? (.caller n) = some .idle) (ho : Opens e (.caller n) [] request c b) :
      Makes e (.call n request) (e.after (.caller n) c b)
  | goes {t : ThreadId} {a : Activity} {next : Executor} (ha : e.activity? t = some a)
      (hg : Goes e t a next) : Makes e (.step t) next
  | looks {w : WorkerState} {c : Change} (hv : e.worker = .polling)
      (hw : WorkerStep e .polling c w) : Makes e (.step .worker) (e.afterTurn c w)
  | wakes {deadline : Option Instant} (hv : e.worker = .parked deadline) :
      Makes e .wake (e.afterTurn e.unchanged .polling)
  | ticks (nanos : Nat) : Makes e (.tick nanos) { e with clock := e.clock.later nanos }

/-! ## Nothing else can happen -/

/-- Every thread has a stack that it can have. -/
def Orderly (e : Executor) : Prop := ∀ t a, e.activity? t = some a → a.IsStacked t

theorem reply_eq (e : Executor) (t : ThreadId) (topic : Topic) (stack : List Frame)
    (answer : Answer) :
    e.reply t topic stack answer =
      e.after t { e.unchanged with events := [answerEvent topic stack answer] } { stack } := by
  cases stack <;> cases t <;> rfl

theorem endClosing_eq (e : Executor) (t : ThreadId) (stack : List Frame) (failure : Option Error)
    (how : Closing) :
    e.endClosing t stack failure how =
      e.after t
        { e.unchanged with
          access := how.access
          events := answerEvent how.topic stack (how.answer failure) ::
            (e.failureLines how failure).map .logged } { stack } := by
  rw [endClosing, reply_eq]
  cases how <;> cases failure <;> rfl

theorem opens_beginClosing (e : Executor) (t : ThreadId) (stack : List Frame) {request : Request}
    (how : Closing) (hx : e.access = .available) :
    ∃ c b, Opens e t stack request c b ∧ e.beginClosing t stack how = e.after t c b := by
  unfold beginClosing
  split
  next hj => exact ⟨_, _, .close how hx hj, rfl⟩
  next hj =>
    refine ⟨_, _, .closeAgain how hx (by simpa using hj), ?_⟩
    rw [endClosing_eq]
    cases how <;> rfl

theorem opens_begin (e : Executor) (t : ThreadId) (stack : List Frame) (request : Request) :
    ∃ c b, Opens e t stack request c b ∧ e.begin t stack request = e.after t c b := by
  unfold begin
  split
  · exact ⟨_, _, .answer _ (by simp), reply_eq ..⟩
  next spec hx =>
    unfold make
    split
    · exact ⟨_, _, .answer _ (by simp), reply_eq ..⟩
    next hd => exact ⟨_, _, .make hx hd, rfl⟩
  next hx => exact ⟨_, _, .cancelAll hx, rfl⟩
  · exact ⟨_, _, .answer _ (by simp), reply_eq ..⟩
  next hx => exact opens_beginClosing e t stack .shutdown hx
  next hx => exact opens_beginClosing e t stack .drop hx
  · exact ⟨_, _, .answer _ (by simp), reply_eq ..⟩
  · exact ⟨_, _, .answer _ (by simp), reply_eq ..⟩

theorem wakeWorker_eq (e : Executor) : e.wakeWorker = { e with worker := e.worker.woken } := by
  unfold wakeWorker
  cases h : e.worker with
  | parked => rfl
  | _ => exact congrArg (fun w => { e with worker := w }) h

theorem leaveFrame_eq (e : Executor) (frame : Frame) :
    e.leaveFrame frame = { e with access := frame.accessAfter e.access } := by
  cases frame with
  | action => rfl
  | callback task batch rest =>
    obtain ⟨purpose, _, _, _⟩ := batch
    cases purpose <;> rfl

theorem catches_catchPanic (e : Executor) (t : ThreadId) (payload : Payload) (frame : Frame)
    (stack : List Frame) :
    ∃ c b, Catches e payload frame stack c b ∧
      e.catchPanic t payload frame stack = e.after t c b := by
  have hwarn : (e.countPanic.warn t payload).setActivity ⟨.ended frame true, stack⟩ t =
      e.after t
        { e.unchanged with
          handler := e.handler.count
          events := (e.handler.warning payload).toList.map .logged } ⟨.ended frame true, stack⟩ := by
    have hw : e.countPanic.handler.warning payload = e.handler.warning payload := rfl
    unfold warn
    rw [hw]
    cases e.handler.warning payload <;> rfl
  unfold catchPanic
  cases hs : e.handler.strategy with
  | propagate =>
    refine ⟨_, _, .pass hs, ?_⟩
    simp only [leaveFrame_eq]
    rfl
  | abort => exact ⟨_, _, .abort hs, rfl⟩
  | isolate | logAndContinue => exact ⟨_, _, .swallow (by rw [hs]; rfl), hwarn⟩

/-- A step from a state in which an event has been noted is a step that notes it too. -/
theorem after_note (e : Executor) (t : ThreadId) (event : Event) (c : Change) (b : Activity) :
    (e.note t event).after t c b = e.after t { c with events := c.events ++ [event] } b := by
  simp [after, apply, note]

theorem local_resume (e : Executor) (t : ThreadId) (frame : Frame) (stack : List Frame) :
    ∃ c b, Local e t ⟨.ready, frame :: stack⟩ c b ∧ e.resume t frame stack = e.after t c b := by
  unfold resume
  split
  next hh => exact ⟨_, _, .finish hh, rfl⟩
  next request rest hh =>
    obtain ⟨c, b, ho, he⟩ := e.opens_begin t (frame.goOn rest :: stack) request
    exact ⟨c, b, .call hh ho, he⟩
  next payload hh =>
    obtain ⟨c, b, hc, he⟩ :=
      (e.note t (.raised frame.task payload)).catches_catchPanic t payload frame stack
    refine ⟨_, b, .raise (c := c) hh ?_, ?_⟩
    · cases hc with
      | swallow hs => exact .swallow hs
      | pass hs => exact .pass hs
      | abort hs => exact .abort hs
    · rw [he, after_note]

theorem local_settle (e : Executor) (t : ThreadId) (batch : Batch) (stack : List Frame)
    {next : Executor} (h : e.advance t ⟨.settle batch, stack⟩ = some next) :
    ∃ c b, Local e t ⟨.settle batch, stack⟩ c b ∧ next = e.after t c b := by
  unfold advance at h
  simp only at h
  split at h
  next hp =>
    obtain rfl := Option.some.inj h
    unfold endBatch
    cases hb : batch.purpose with
    | cancelAll =>
      refine ⟨_, _, .canceled hp hb, ?_⟩
      rw [reply_eq, reportBatch, Batch.line, hb]
      rfl
    | closing how failure =>
      refine ⟨_, _, .settled hp hb, ?_⟩
      simp only [endClosing_eq, reportBatch, Batch.line, hb]
      cases how <;> cases failure <;> rfl
  next task tasks hp =>
    obtain rfl := Option.some.inj h
    unfold settleTask
    cases hs : task.onCancel with
    | none => exact ⟨_, _, .letGo hp hs, rfl⟩
    | some script => exact ⟨_, _, .callBack hp hs, rfl⟩

theorem local_join (e : Executor) (t : ThreadId) (how : Closing) (stack : List Frame)
    {next : Executor} (h : e.join? t stack how = some next) :
    ∃ c b, Local e t ⟨.join how, stack⟩ c b ∧ next = e.after t c b := by
  unfold join? at h
  split at h
  next ht =>
    obtain rfl := Option.some.inj h
    exact ⟨_, _, .joinSelf ht, rfl⟩
  next ht =>
    unfold workerEnd? at h
    cases hw : e.worker with
    | stopped =>
      obtain rfl := Option.some.inj (by simpa [hw] using h)
      exact ⟨_, _, .joinStopped ht hw, rfl⟩
    | died payload =>
      obtain rfl := Option.some.inj (by simpa [hw] using h)
      exact ⟨_, _, .joinDied ht hw, rfl⟩
    | polling | parked _ | busy _ => simp [hw] at h

theorem local_drainPending (e : Executor) (t : ThreadId) (how : Closing)
    (failure : Option Error) (stack : List Frame) :
    ∃ c b, Local e t ⟨.drain how failure, stack⟩ c b ∧
      e.drainPending t stack how failure = e.after t c b := by
  unfold drainPending
  cases hp : e.config.shutdownPolicy with
  | discard =>
    refine ⟨_, _, .discard hp, ?_⟩
    simp only [endClosing_eq]
    cases how <;> cases failure <;> rfl
  | cancelPending => exact ⟨_, _, .drain hp, rfl⟩

/-- What a thread does next is one of its steps; the worker alone ends an action or dies. -/
theorem goes_of_advance {e next : Executor} {t : ThreadId} {a : Activity} (hst : a.IsStacked t)
    (h : e.advance t a = some next) : Goes e t a next := by
  have goes : (∃ c b, Local e t a c b ∧ next = e.after t c b) → Goes e t a next := by
    rintro ⟨c, b, hl, rfl⟩
    exact .continues hl
  obtain ⟨control, stack⟩ := a
  cases control with
  | ready =>
    cases stack with
    | nil => cases h
    | cons frame stack =>
      obtain rfl := Option.some.inj h
      exact goes (e.local_resume t frame stack)
  | enqueue task =>
    unfold advance at h
    simp only at h
    split at h
    next error hacc =>
      obtain rfl := Option.some.inj h
      exact goes ⟨_, _, .reject hacc, reply_eq ..⟩
    next guarded first hacc =>
      obtain rfl := Option.some.inj h
      exact goes ⟨_, _, .accept hacc, rfl⟩
  | notify task =>
    obtain rfl := Option.some.inj h
    refine goes ⟨_, _, .notify, ?_⟩
    rw [wakeWorker_eq]
    rfl
  | record task =>
    obtain rfl := Option.some.inj h
    refine goes ⟨_, _, .record, ?_⟩
    rw [endSchedule, reply_eq]
    rfl
  | settle batch => exact goes (e.local_settle t batch stack h)
  | ended frame swallowed =>
    obtain rfl := Option.some.inj h
    cases frame with
    | action task deadline started rest =>
      obtain ⟨rfl, rfl⟩ : t = .worker ∧ stack = [] := hst
      have he := Goes.finishes rfl (@WorkerStep.finish e task deadline started rest swallowed)
      cases swallowed <;> exact he
    | callback task batch rest =>
      refine goes ⟨_, _, .calledBack, ?_⟩
      cases swallowed <;> rfl
  | unwind payload =>
    cases stack with
    | nil =>
      obtain rfl := Option.some.inj h
      cases t with
      | worker => exact .finishes rfl .die
      | caller n => exact goes ⟨_, _, .leave rfl, rfl⟩
    | cons frame stack =>
      obtain rfl := Option.some.inj h
      obtain ⟨c, b, hc, he⟩ := e.catches_catchPanic t payload frame stack
      exact goes ⟨c, b, .unwind hc, he⟩
  | abort =>
    obtain rfl := Option.some.inj h
    exact goes ⟨_, _, .abort, rfl⟩
  | flag how =>
    obtain rfl := Option.some.inj h
    exact goes ⟨_, _, .flag, rfl⟩
  | rouse how =>
    obtain rfl := Option.some.inj h
    refine goes ⟨_, _, .rouse, ?_⟩
    rw [wakeWorker_eq]
    rfl
  | join how => exact goes (e.local_join t how stack h)
  | drain how failure =>
    obtain rfl := Option.some.inj h
    exact goes (e.local_drainPending t how failure stack)

theorem Goes.happens {e next : Executor} {t : ThreadId} {a : Activity} (h : Goes e t a next)
    (ha : e.activity? t = some a) : Happens e next := by
  cases h with
  | continues hl => exact .goes ha hl
  | finishes ht hw =>
    subst ht
    exact .turns (activity?_worker.1 ha) hw

theorem step?_eq_advance {e : Executor} {t : ThreadId} {a : Activity} (hrun : e.aborted = false)
    (ha : e.activity? t = some a) : e.step? t = e.advance t a := by
  unfold step?
  rw [if_neg (by simp [hrun])]
  cases t with
  | worker => simp only [activity?_worker.1 ha]
  | caller n => rw [← Option.some.inj ha]

/-- A thread makes a step in a process that goes on only. -/
theorem not_aborted_of_step {e next : Executor} {t : ThreadId} (h : e.step? t = some next) :
    e.aborted = false := by
  cases hrun : e.aborted with
  | false => rfl
  | true => simp [step?_of_aborted hrun] at h

theorem advance_of_step {e next : Executor} {t : ThreadId} {a : Activity}
    (ha : e.activity? t = some a) (h : e.step? t = some next) : e.advance t a = some next :=
  step?_eq_advance (not_aborted_of_step h) ha ▸ h

theorem goes_of_step {e next : Executor} (hs : e.Orderly) {t : ThreadId} {a : Activity}
    (ha : e.activity? t = some a) (h : e.step? t = some next) : Goes e t a next :=
  goes_of_advance (hs t a ha) (advance_of_step ha h)

/-- The look for work is a step of the worker. -/
theorem exists_turn_look (e : Executor) :
    ∃ c w, WorkerStep e .polling c w ∧ e.look = e.afterTurn c w := by
  cases hp : e.guarded.poll e.clock with
  | mk poll guarded =>
    unfold look
    rw [hp]
    cases poll with
    | stop => exact ⟨_, _, .stop (Guarded.poll_stop hp), rfl⟩
    | park =>
      obtain ⟨ht, hnone⟩ := Guarded.poll_sleep hp (by simp) (by simp)
      have hsleep := WorkerStep.sleep ht hnone
      rw [Guarded.poll_park hp] at hsleep
      exact ⟨_, _, hsleep, rfl⟩
    | parkUntil deadline =>
      obtain ⟨ht, hnone⟩ := Guarded.poll_sleep hp (by simp) (by simp)
      have hsleep := WorkerStep.sleep ht hnone
      rw [(Guarded.poll_parkUntil hp).1] at hsleep
      exact ⟨_, _, hsleep, rfl⟩
    | run task =>
      obtain ⟨ht, pending, hpop, rfl⟩ := Guarded.poll_run hp
      exact ⟨_, _, .run ht hpop, rfl⟩

/-- What happens in a move. -/
theorem makes_of_move {e next : Executor} (hs : e.Orderly) {m : Move}
    (h : e.move? m = some next) : Makes e m next := by
  cases m with
  | call n request =>
    unfold move? at h
    simp only at h
    split at h
    next hi =>
      obtain rfl := Option.some.inj h
      obtain ⟨c, b, ho, he⟩ := e.opens_begin (.caller n) [] request
      exact he ▸ .opens (congrArg some (Activity.eq_idle_of_isIdle hi.2)) ho
    · cases h
  | step t =>
    cases ha : e.activity? t with
    | some a => exact .goes ha (goes_of_step hs ha h)
    | none =>
      -- a thread without an activity is the worker, which can only look for work
      cases t with
      | caller n => cases ha
      | worker =>
        unfold move? step? at h
        simp only at h
        split at h
        · cases h
        split at h
        next hw =>
          obtain rfl := Option.some.inj h
          obtain ⟨c, w, hturn, he⟩ := e.exists_turn_look
          exact he ▸ .looks hw hturn
        next a hw =>
          rw [activity?_worker.2 hw] at ha
          cases ha
        all_goals cases h
  | wake =>
    unfold move? at h
    simp only at h
    split at h
    next deadline _ hw =>
      obtain rfl := Option.some.inj h
      have := Makes.wakes hw
      rwa [wakeWorker, hw]
    · cases h
  | tick nanos =>
    obtain rfl := Option.some.inj h
    exact .ticks nanos

theorem Makes.happens {e next : Executor} {m : Move} (h : Makes e m next) : Happens e next := by
  cases h with
  | opens ha ho => exact .goes ha (.opens rfl ho)
  | goes ha hg => exact hg.happens ha
  | looks hv hw => exact .turns hv hw
  | wakes hv => exact .turns hv .wake
  | ticks nanos => exact .ticks nanos

/-- Whatever moves, what happens is one of the transitions. -/
theorem happens_of_move {e next : Executor} (hs : e.Orderly) {m : Move}
    (h : e.move? m = some next) : Happens e next :=
  (makes_of_move hs h).happens

end Executor

end Deferred
