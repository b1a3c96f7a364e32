import Deferred.Proofs.Executor.Simulation

/-!
# Panics that are isolated

Where panics are isolated a callable that panics might as well have ended there. An executor whose
callables are all cut off just before they would panic runs alongside the executor itself, move by
move, through every call that runs callables and at any depth; only the panics are not counted.

* `Executor.View.cut`: what is seen, as if callables had ended where they panicked.
* `Guise.cutting`: the executor whose callables are cut off.
* `isolated_panic_is_return`: both are seen to do the same, whatever the moves.
-/

namespace Deferred

/-- An event, unless it is that a callable has panicked. -/
def Event.unraised : Event → Option Event
  | raised _ _ => none
  | event => some event

/-- What is seen, as if callables had ended where they panicked: no panic is told of or counted. -/
def Executor.View.cut (v : View) : View :=
  { v.sift Event.unraised with
    queue := v.queue.map (Task.map Script.cut)
    panicCount := 0
    metrics := { v.metrics with panicked := 0 } }

/-- A script that goes on to panic ends once it is cut. -/
theorem Script.head_cut_of_raise {script : Script} {payload : Payload}
    (h : script.head = .raise payload) : script.cut.head = .finish := by
  cases script with
  | panic => rfl
  | _ => cases h

/-- Where panics are isolated, a callable that panics is over in the same step. -/
theorem Executor.resume_of_isolate {e : Executor} {t : ThreadId} {frame : Frame} {stack : List Frame}
    {payload : Payload} (hs : e.handler.strategy = .isolate)
    (hhead : frame.rest.head = .raise payload) :
    e.resume t frame stack = ((e.note t (.raised frame.task payload)).countPanic).setActivity
      ⟨.ended frame true, stack⟩ t := by
  let noted := e.note t (.raised frame.task payload)
  have hstrategy : noted.handler.strategy = .isolate := hs
  have hwarn : noted.countPanic.warn t payload = noted.countPanic := by
    have hcounted : noted.countPanic.handler.strategy = .isolate := hs
    rw [warn, Handler.warning, hcounted]
    rfl
  unfold resume
  rw [hhead]
  simp only
  rw [catchPanic, hstrategy]
  exact congrArg (fun e : Executor => e.setActivity ⟨.ended frame true, stack⟩ t) hwarn

/-! ## The guise -/

namespace Guise

/-- An executor whose callables are cut off just before they would panic. -/
def cutting : Guise where
  script := Script.cut
  panicCount _ := 0
  telemetry := Telemetry.update fun m => { m with panicked := 0 }
  swallowed _ := false
  event := Event.unraised
  snapshot s := { s with panicked := 0 }

theorem cutting_faithful : cutting.Faithful where
  finish {script} h := by
    cases script with
    | done => rfl
    | _ => cases h
  call {script _ _} h := by
    cases script with
    | done | panic => cases h
    | _ =>
      cases h
      rfl
  update telemetry f hf := by
    cases telemetry with
    | kept m => exact congrArg Telemetry.kept (hf m 0).symm
    | stub => rfl
  panicked telemetry swallowed := by cases telemetry <;> cases swallowed <;> rfl
  read _ telemetry := by cases telemetry <;> rfl
  returned := rfl
  uncounted := rfl
  neutral {event} h := by
    cases event with
    | raised => cases h
    | _ => rfl
  started _ _ _ := rfl

variable {e : Executor} {t : ThreadId}

/-- A panic that is raised where panics are isolated ends the callable as its end would do. -/
theorem resume_cutting (hs : e.handler.strategy = .isolate) {frame : Frame} {stack : List Frame}
    {payload : Payload} (hhead : frame.rest.head = .raise payload) :
    (cutting.executor e).resume t (cutting.frame frame) (stack.map cutting.frame) =
      cutting.executor (e.resume t frame stack) := by
  let noted := e.note t (.raised frame.task payload)
  have hcut : (cutting.frame frame).rest.head = .finish :=
    rest_frame frame ▸ Script.head_cut_of_raise hhead
  have hcounted : cutting.executor noted.countPanic = cutting.executor noted := rfl
  have hnoted : cutting.executor noted = cutting.executor e := note_executor_of_none rfl
  rw [Executor.resume_of_isolate hs hhead, ← setActivity_executor, hcounted, hnoted]
  unfold Executor.resume
  rw [hcut]
  rfl

/-- No panic is ever under way where panics are isolated, and one that is raised makes no
difference. -/
theorem meetsAll_cutting {config : Config} (hs : config.panicStrategy = .isolate)
    (telemetry : Telemetry) (clock : Instant) : cutting.MeetsAll config telemetry clock := by
  intro start e hstart hr t a ha
  have hh := Executor.handled_of_start hstart hr
  have hconfig := Executor.config_of_start hstart hr
  obtain ⟨control, stack⟩ := a
  cases stack with
  | nil => cases control <;> trivial
  | cons frame stack =>
    cases control with
    | ready => exact fun payload => resume_cutting (by rw [hh.strategy, hconfig, hs])
    | unwind payload =>
      have hpass := (hh.unwinding t _ ha rfl).1
      rw [hconfig, hs] at hpass
      cases hpass
    | _ => trivial

end Guise

/-! ## Runs -/

namespace Executor

/-- **An isolated panic is an early return.** Where panics are isolated, an executor is seen to do
the same, move by move, as one whose callables are all cut off just before they would panic: the
same answers, callables and log lines in the same order, the same pending tasks and the same counts.
Only the panics themselves are not told of and not counted. -/
theorem isolated_panic_is_return {config : Config} (hs : config.panicStrategy = .isolate)
    (clock : Instant) (refusal : Option SystemError) (ms : List Move) :
    observe config (.kept {}) clock refusal (ms.map (Move.map Script.cut)) =
      (observe config (.kept {}) clock refusal ms).map (Option.map View.cut) :=
  Guise.observe_executor Guise.cutting_faithful (Guise.meetsAll_cutting hs (.kept {}) clock)
    refusal ms

/-- A caller schedules two tasks whose callbacks panic and an action that cancels both, panics and
would go on to shut down; then the worker runs that action to its end. -/
def panickingRun : List Move :=
  let canceled (nanos : Nat) : Spec :=
    { label := "canceled", due := .instant ⟨nanos⟩
      onCancel := some (.pending (.panic .value .done)) }
  let canceling : Spec :=
    { label := "canceling", due := .instant ⟨0⟩
      action := .cancelAll (.panic (.literal "boom") (.shutdown .done)) }
  let calls := [canceled 9000, canceled 8000, canceling].flatMap fun spec =>
    .call 0 (.schedule spec) :: List.replicate 3 (.step (.caller 0))
  calls ++ List.replicate 12 (.step .worker)

/-- Both callbacks are run, and the worker goes on, as if nothing had panicked. -/
theorem isolated_panic_is_return_nested :
    ∃ v, observe { panicStrategy := .isolate } (.kept {}) ⟨0⟩ none panickingRun = .ok (some v) ∧
      v.panicCount = 3 ∧
      observe { panicStrategy := .isolate } (.kept {}) ⟨0⟩ none
        (panickingRun.map (Move.map Script.cut)) = .ok (some v.cut) := by
  obtain ⟨v, hv, hp⟩ : ∃ v,
      observe { panicStrategy := .isolate } (.kept {}) ⟨0⟩ none panickingRun = .ok (some v) ∧
        v.panicCount = 3 := by
    refine ⟨_, rfl, ?_⟩
    rfl
  refine ⟨v, hv, hp, ?_⟩
  rw [isolated_panic_is_return rfl, hv]
  rfl

end Executor

end Deferred
