import Deferred.Proofs.Executor.PanicCount

/-!
# Panics that are swallowed

A swallowed panic leaves its trace in three places. The handler counts it and logs a warning, if it
is to, in the step that ends the callable; the metrics count it a step later, in the one place or
the other from which callables are run. Whenever no callable is in progress the three agree, and
where panics are not swallowed the metrics never count any.

* `Executor.warnings`: the warnings about panics that have been logged.
* `Activity.uncounted`: how many callables a panic has ended that the metrics have yet to count.
* `Local.audits`, `WorkerStep.audits`: with every step, the panics that are swallowed in it are
  counted or yet to be counted.
* `swallowed_panics_agree`: both counts and the warnings in every reachable state.
-/

namespace Deferred

/-! ## What is told of a panic -/

/-- The warning about a panic. -/
def Payload.warning (payload : Payload) : LogLine := .taskPanicked payload.message

namespace PanicStrategy

/-- Those of the panics that are swallowed. -/
def swallowed (s : PanicStrategy) (panics : List Payload) : List Payload :=
  if s.swallows then panics else []

/-- The warnings about panics. -/
def warnings (s : PanicStrategy) (panics : List Payload) : List LogLine :=
  if s.warns then panics.map Payload.warning else []

variable (s : PanicStrategy)

@[simp] theorem swallowed_nil : s.swallowed [] = [] := ite_self []

@[simp] theorem warnings_nil : s.warnings [] = [] := ite_self []

theorem swallowed_append (later earlier : List Payload) :
    s.swallowed (later ++ earlier) = s.swallowed later ++ s.swallowed earlier := by
  unfold swallowed
  split <;> rfl

theorem warnings_append (later earlier : List Payload) :
    s.warnings (later ++ earlier) = s.warnings later ++ s.warnings earlier := by
  unfold warnings
  split
  · exact List.map_append
  · rfl

/-- Only what is swallowed is warned about. -/
theorem warnings_of_not_swallows {s : PanicStrategy} (h : s.swallows = false)
    (panics : List Payload) : s.warnings panics = [] := by
  cases s with
  | propagate | abort => rfl
  | isolate | logAndContinue => cases h

end PanicStrategy

namespace Event

/-- The warning about a panic. -/
def warnings : Event → List LogLine
  | logged (.taskPanicked message) => [.taskPanicked message]
  | _ => []

@[simp] theorem warnings_eq_nil {event : Event}
    (h : ∀ message, event ≠ logged (.taskPanicked message)) : event.warnings = [] := by
  cases event with
  | logged line =>
    cases line with
    | taskPanicked message => exact absurd rfl (h message)
    | _ => rfl
  | _ => rfl

@[simp] theorem warnings_answerEvent (topic : Topic) (stack : List Frame) (answer : Answer) :
    (answerEvent topic stack answer).warnings = [] := by
  cases stack <;> rfl

@[simp] theorem warnings_failureLines (e : Executor) (how : Closing) (failure : Option Error) :
    ((e.failureLines how failure).map logged).flatMap warnings = [] := by
  cases how <;> cases failure <;> rfl

theorem warnings_warning (h : Handler) (payload : Payload) :
    ((h.warning payload).toList.map logged).flatMap warnings = h.strategy.warnings [payload] := by
  unfold Handler.warning PanicStrategy.warnings
  split <;> rfl

end Event

/-- How many callables a swallowed panic has ended that the metrics have yet to count. -/
def Activity.uncounted (a : Activity) : Nat :=
  match a.control with
  | .ended _ true => 1
  | _ => 0

namespace Executor

variable {e next : Executor} {t : ThreadId} {a b : Activity} {c : Change} {v w : WorkerState}
variable {stack : List Frame} {payload : Payload}

/-- The warnings about panics that have been logged, the latest first. -/
def warnings (e : Executor) : List LogLine := e.gather Event.warnings

/-- No thread has a callable in progress, or one that has ended and is yet to be counted. -/
def IsFree (e : Executor) : Prop := ∀ t a, e.activity? t = some a → a.frames = []

theorem Quiet.isFree (h : e.Quiet) : e.IsFree := fun t a ha => by
  rw [h.eq_idle ha]
  rfl

theorem IsFree.total_uncounted (h : e.IsFree) : e.total Activity.uncounted = 0 := by
  have hnone : ∀ a : Activity, a.frames = [] → a.uncounted = 0 := by
    rintro ⟨control, stack⟩ hf
    cases control with
    | ended => cases hf
    | _ => rfl
  exact total_eq_zero (fun a ha => hnone a (h .worker a (activity?_worker.2 ha)))
    fun n => hnone _ (h (.caller n) _ rfl)

/-! ## Steps -/

/-- A step in which so many panics are counted by the metrics, and certain ones are raised. -/
structure Change.Audits (e : Executor) (c : Change) (m m' : Metrics) (counted : Nat) : Prop where
  telemetry : c.telemetry = .kept m'
  panicked : m'.panicked = m.panicked + .ofNat counted
  warned : c.events.flatMap Event.warnings =
    e.handler.strategy.warnings (c.events.flatMap Event.panics)

theorem Change.audits_of_eq {m : Metrics} (hm : c.telemetry = .kept m)
    (hw : c.events.flatMap Event.warnings = []) (hp : c.events.flatMap Event.panics = []) :
    Change.Audits e c m m 0 where
  telemetry := hm
  panicked := (UInt64.add_zero _).symm
  warned := by rw [hw, hp, PanicStrategy.warnings_nil]

theorem Opens.audits {request : Request} {m : Metrics} (h : Opens e t stack request c b)
    (hm : e.telemetry = .kept m) : Change.Audits e c m m 0 ∧ b.uncounted = 0 := by
  refine ⟨Change.audits_of_eq ?_ ?_ h.counts.2, ?_⟩
  · cases h <;> exact hm
  · cases h <;> simp [unchanged]
  · cases h <;> rfl

theorem Catches.audits {frame : Frame} (h : Catches e payload frame stack c b) :
    c.telemetry = e.telemetry ∧
      c.events.flatMap Event.warnings = e.handler.strategy.warnings [payload] ∧
      b.uncounted = (e.handler.strategy.swallowed [payload]).length := by
  cases h with
  | swallow hs => exact ⟨rfl, Event.warnings_warning .., by simp [Activity.uncounted,
      PanicStrategy.swallowed, hs]⟩
  | pass hs | abort hs => exact ⟨rfl, by rw [hs]; rfl, by rw [hs]; rfl⟩

/-- With a step of a thread the panics that the metrics have counted, or have yet to count, grow by
those that are raised and swallowed in it. -/
theorem Local.audits {m : Metrics} (h : Local e t a c b) (hm : e.telemetry = .kept m)
    (hu : a.control.unwinds = true → e.handler.strategy.swallows = false) :
    ∃ m' counted, Change.Audits e c m m' counted ∧
      counted + b.uncounted = a.uncounted +
        (e.handler.strategy.swallowed (c.events.flatMap Event.panics)).length := by
  cases h with
  | opens _ ho | call _ ho =>
    obtain ⟨haudits, hb⟩ := ho.audits hm
    refine ⟨m, 0, haudits, ?_⟩
    rw [hb, ho.counts.2, PanicStrategy.swallowed_nil]
    rfl
  | @raise frame _ payload _ _ _ hc =>
    obtain ⟨htelemetry, hwarned, hb⟩ := hc.audits
    refine ⟨m, 0, ⟨htelemetry.trans hm, (UInt64.add_zero _).symm, ?_⟩, ?_⟩
    · rw [List.flatMap_append, List.flatMap_append, hwarned, hc.counts.2]
      exact List.append_nil _
    · rw [hb, List.flatMap_append, hc.counts.2]
      rfl
  | @unwind frame _ payload _ _ hc =>
    obtain ⟨htelemetry, hwarned, hb⟩ := hc.audits
    rw [PanicStrategy.warnings_of_not_swallows (hu rfl)] at hwarned
    refine ⟨m, 0, Change.audits_of_eq (htelemetry.trans hm) hwarned hc.counts.2, ?_⟩
    rw [hb, hc.counts.2, PanicStrategy.swallowed_nil, PanicStrategy.swallowed, hu rfl]
    rfl
  | @calledBack _ _ _ swallowed =>
    cases swallowed with
    | false => exact ⟨m, 0, Change.audits_of_eq hm rfl rfl, by simp [Activity.uncounted, unchanged]⟩
    | true =>
      refine ⟨m.recordPanic, 1, ⟨congrArg (Telemetry.update _) hm, rfl, by simp [unchanged]⟩, ?_⟩
      simp [Activity.uncounted, unchanged]
  | record | canceled | settled | discard =>
    exact ⟨_, 0, ⟨congrArg (Telemetry.update _) hm, (UInt64.add_zero _).symm, by simp⟩,
      by simp [Activity.uncounted]⟩
  | @accept _ _ _ first =>
    refine ⟨m, 0, Change.audits_of_eq hm (by simp) (by simp), ?_⟩
    cases first <;> simp [Activity.uncounted]
  | leave =>
    exact ⟨m, 0, Change.audits_of_eq hm rfl rfl, by simp [Activity.uncounted, Activity.idle]⟩
  | _ =>
    exact ⟨m, 0, Change.audits_of_eq hm (by simp [unchanged]) (by simp [unchanged]),
      by simp [Activity.uncounted, unchanged]⟩

/-- The worker's own steps count the panic that has ended an action. -/
theorem WorkerStep.audits {m : Metrics} (h : WorkerStep e v c w) (hm : e.telemetry = .kept m) :
    ∃ m' counted, Change.Audits e c m m' counted ∧
      counted + w.part Activity.uncounted = v.part Activity.uncounted := by
  cases h with
  | @finish task deadline started rest swallowed =>
    let ended :=
      m.recordExecution (started.since deadline).toUInt64 (e.clock.since started).toUInt64
    have hquiet : e.unchanged.events.flatMap Event.warnings =
        e.handler.strategy.warnings (e.unchanged.events.flatMap Event.panics) := by
      simp [unchanged]
    cases swallowed with
    | false =>
      exact ⟨ended, 0, ⟨congrArg (Telemetry.update _) hm, (UInt64.add_zero _).symm, hquiet⟩, rfl⟩
    | true =>
      refine ⟨ended.recordPanic, 1, ⟨?_, rfl, hquiet⟩, rfl⟩
      simp [recordRun, recordPanic, count, hm, Telemetry.update, ended]
  | _ => exact ⟨m, 0, Change.audits_of_eq hm (by simp [unchanged]) (by simp [unchanged]), rfl⟩

/-- A panic that is swallowed is counted by the handler in the step in which it is raised. -/
theorem Local.hears (h : Local e t a c b) (hu : a.control.unwinds = false)
    (hs : e.handler.strategy.swallows = true) :
    c.handler.panicCount = e.handler.panicCount + (c.events.flatMap Event.panics).length := by
  have hswallowed : e.handler.strategy ≠ .propagate := (PanicStrategy.ne_of_swallows hs).1
  have hb : b.control.unwinds = false :=
    Bool.eq_false_iff.2 fun hb => hswallowed (h.unwinds hb).1
  obtain ⟨hcount, hlength⟩ := h.counts fun h => absurd h (by simp [hu])
  rw [Activity.unreached, Activity.unreached, hu, hb] at hcount
  have hsum : (e.reach a).sum = (e.reach a).length :=
    (sum_eq_length_iff fun n hn => (mem_reach hn).1).2 fun n hn => (mem_reach hn).2 hswallowed
  rw [hlength, ← hsum]
  exact hcount

/-! ## The invariant -/

/-- The metrics have counted the panics that were swallowed, but for those of callables that have
just ended; the handler has counted all of them, and has warned as it is to. -/
structure Audited (e : Executor) (m : Metrics) : Prop where
  telemetry : e.telemetry = .kept m
  counted : ∃ n, m.panicked = .ofNat n ∧
    n + e.total Activity.uncounted = (e.config.panicStrategy.swallowed e.panics).length
  heard : e.config.panicStrategy.swallows = true → e.handler.panicCount = e.panics.length
  warned : e.warnings = e.config.panicStrategy.warnings e.panics

theorem audited_initial (config : Config) (clock : Instant) :
    (initial config (.kept {}) clock).Audited {} where
  telemetry := rfl
  counted := by
    refine ⟨0, rfl, ?_⟩
    rw [show (initial config (.kept {}) clock).panics = [] from rfl, PanicStrategy.swallowed_nil]
    rfl
  heard _ := rfl
  warned := (PanicStrategy.warnings_nil _).symm

theorem Audited.goes {m : Metrics} (hi : e.Audited m) (hh : e.Handled) (ha : e.activity? t = some a)
    (hl : Local e t a c b) : ∃ m', (e.after t c b).Audited m' := by
  have hu : a.control.unwinds = true → e.handler.strategy.swallows = false :=
    fun hunwinds => by rw [hh.strategy, (hh.unwinding t a ha hunwinds).1]; rfl
  obtain ⟨m', counted, haudits, hsum⟩ := hl.audits hi.telemetry hu
  obtain ⟨n, hn, htotal⟩ := hi.counted
  have hparts := total_after_add (f := Activity.uncounted) (c := c) (b := b) rfl ha
  rw [hh.strategy] at hsum
  refine ⟨m', ⟨?_, ⟨n + counted, ?_, ?_⟩, fun hs => ?_, ?_⟩⟩
  · rw [telemetry_after, haudits.telemetry]
  · rw [haudits.panicked, hn, UInt64.ofNat_add]
  · rw [config_after, panics, gather_after, PanicStrategy.swallowed_append, List.length_append,
      ← panics]
    omega
  · rw [config_after, ← hh.strategy] at hs
    have hnot : a.control.unwinds = false :=
      Bool.eq_false_iff.2 fun h => by rw [hu h] at hs; cases hs
    rw [handler_after, hl.hears hnot hs, hi.heard (hh.strategy ▸ hs), panics, panics, gather_after,
      List.length_append, Nat.add_comm]
  · rw [config_after, warnings, panics, gather_after, gather_after, PanicStrategy.warnings_append,
      haudits.warned, hh.strategy, ← warnings, ← panics, hi.warned]

theorem Audited.turns {m : Metrics} (hi : e.Audited m) (hv : e.worker = v)
    (hw : WorkerStep e v c w) : ∃ m', (e.afterTurn c w).Audited m' := by
  obtain ⟨m', counted, haudits, hsum⟩ := hw.audits hi.telemetry
  obtain ⟨n, hn, htotal⟩ := hi.counted
  have hparts := total_afterTurn (f := Activity.uncounted) (c := c) (w := w) hv
  have hpanics : (e.afterTurn c w).panics = e.panics := by
    rw [panics, gather_afterTurn, hw.panics_eq_nil]
    rfl
  have hwarned := haudits.warned
  rw [hw.panics_eq_nil, PanicStrategy.warnings_nil] at hwarned
  refine ⟨m', ⟨haudits.telemetry, ⟨n + counted, ?_, ?_⟩, fun hs => ?_, ?_⟩⟩
  · rw [haudits.panicked, hn, UInt64.ofNat_add]
  · rw [hpanics, config_afterTurn]
    omega
  · rw [hpanics, handler_afterTurn, hw.strategy]
    exact hi.heard hs
  · rw [hpanics, warnings, gather_afterTurn, hwarned]
    exact hi.warned

section Start

variable {config : Config} {clock : Instant} {start : Executor}

theorem audited_of_start (hs : Executor.start config (.kept {}) clock = .ok start)
    (hr : start.Reachable e) : ∃ m, e.Audited m := by
  refine invariant_of_start (P := fun e => ∃ m, e.Audited m) hs hr ⟨_, audited_initial _ _⟩
    fun before next hb ⟨m, hi⟩ hh => ?_
  cases hh with
  | goes ha hl => exact hi.goes (handled_of_start hs hb) ha hl
  | turns hv hw => exact hi.turns hv hw
  | ticks => exact ⟨m, hi.telemetry, hi.counted, hi.heard, hi.warned⟩

/-- **Swallowed panics are counted alike and warned about once.** Where panics are swallowed the
handler has in every reachable state counted all that actions and callbacks have raised, and
whenever no callable is in progress so have the metrics. If the strategy says so a warning with its
text has been logged for each, in the order in which they were raised, and otherwise none. Where
panics are not swallowed the metrics count none. -/
theorem swallowed_panics_agree (hs : Executor.start config (.kept {}) clock = .ok start)
    (hr : start.Reachable e) :
    (config.panicStrategy.swallows = true →
      e.handler.panicCount = e.panics.length ∧
        (e.IsFree → e.snapshot.panicked = .ofNat e.panics.length ∧
          (e.panics.length < 2 ^ 64 → e.snapshot.panicked.toNat = e.handler.panicCount))) ∧
      (config.panicStrategy = .logAndContinue → e.warnings = e.panics.map Payload.warning) ∧
      (config.panicStrategy ≠ .logAndContinue → e.warnings = []) ∧
      (config.panicStrategy = .propagate → e.snapshot.panicked = 0) := by
  obtain ⟨m, hi⟩ := audited_of_start hs hr
  obtain ⟨n, hn, htotal⟩ := hi.counted
  have hconfig := config_of_start hs hr
  have hpanicked : e.snapshot.panicked = .ofNat n := by
    rw [snapshot, hi.telemetry, ← hn]
    rfl
  have hwarned := hi.warned
  rw [hconfig] at htotal hwarned
  refine ⟨fun hsw => ?_, fun hlog => ?_, fun hlog => ?_, fun hprop => ?_⟩
  · have hheard := hi.heard (by rw [hconfig, hsw])
    refine ⟨hheard, fun hfree => ?_⟩
    rw [PanicStrategy.swallowed, if_pos hsw, hfree.total_uncounted] at htotal
    obtain rfl : n = e.panics.length := htotal
    refine ⟨hpanicked, fun hlt => ?_⟩
    rw [hpanicked, UInt64.toNat_ofNat', Nat.mod_eq_of_lt hlt, hheard]
  · rwa [hlog] at hwarned
  · rw [hwarned]
    cases hstrategy : config.panicStrategy with
    | logAndContinue => exact absurd hstrategy hlog
    | propagate | isolate | abort => rfl
  · rw [hprop] at htotal
    obtain rfl : n = 0 := Nat.eq_zero_of_add_eq_zero_right htotal
    exact hpanicked

end Start

/-- A caller schedules a task whose callback panics, and another one whose action cancels all and
then panics itself; then the worker runs that action to its end. -/
def swallowingRun : List Move :=
  let canceled : Spec :=
    { label := "canceled", due := .instant ⟨9000⟩, onCancel := some (.panic .value .done) }
  let canceling : Spec :=
    { label := "canceling", due := .instant ⟨0⟩
      action := .cancelAll (.panic (.literal "boom") .done) }
  .call 0 (.schedule canceled) :: List.replicate 3 (.step (.caller 0)) ++
    .call 0 (.schedule canceling) :: List.replicate 3 (.step (.caller 0)) ++
    List.replicate 8 (.step .worker)

/-- The panics of a callback and of the action that has brought it about are counted once each. -/
theorem swallowed_panics_agree_nested :
    ∃ e, (initial { panicStrategy := .logAndContinue } (.kept {}) ⟨0⟩).Reachable e ∧ e.IsFree ∧
      e.panics = [.literal "boom", .value] ∧ e.handler.panicCount = 2 ∧
      e.snapshot.panicked.toNat = 2 ∧
      e.warnings = [.taskPanicked "boom", .taskPanicked "Unknown panic"] := by
  obtain ⟨e, hm, hq, hp⟩ : ∃ e,
      (initial { panicStrategy := .logAndContinue } (.kept {}) ⟨0⟩).moves? swallowingRun = some e ∧
        e.Quiet ∧ e.panics = [.literal "boom", .value] := by
    refine ⟨_, rfl, ⟨?_, nofun⟩, rfl⟩
    rintro (_ | n) <;> rfl
  have hr := Reachable.refl.of_moves _ hm
  have hs : Executor.start { panicStrategy := .logAndContinue } (.kept {}) ⟨0⟩ = .ok _ := rfl
  obtain ⟨hswallowed, hwarned, -, -⟩ := swallowed_panics_agree hs hr
  obtain ⟨hheard, hcounted⟩ := hswallowed rfl
  have hcount : e.handler.panicCount = 2 := by rw [hheard, hp]; rfl
  refine ⟨e, hr, hq.isFree, hp, hcount, ?_, by rw [hwarned rfl, hp]; rfl⟩
  rw [(hcounted hq.isFree).2 (by rw [hp]; decide), hcount]

end Executor

end Deferred
