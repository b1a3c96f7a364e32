import Deferred.Proofs.Executor.Simulation

/-!
# Telemetry that is not kept

Telemetry watches an executor and nothing depends on it. An executor that keeps no metrics runs
alongside one that does, panics included, and is seen to do the same but for the metrics themselves,
which then say zero.

* `Executor.View.unmeasured`: what is seen where no metrics are kept.
* `Guise.bare`: the executor without metrics.
* `telemetry_only_watches`: both are seen to do the same, whatever the moves.
-/

namespace Deferred

/-- What is seen where no metrics are kept: all of them are zero. -/
def Executor.View.unmeasured (v : View) : View :=
  { v with
    metrics :=
      { uptime := .zero, scheduled := 0, executed := 0, canceled := 0, discarded := 0, panicked := 0
        busyTime := 0, averageLateness := 0, medianLateness := 0, lateness99 := 0
        maximumLateness := 0 } }

namespace Guise

/-- An executor that keeps no metrics. -/
def bare : Guise where
  telemetry _ := .stub
  snapshot _ := {}

theorem bare_faithful : bare.Faithful where
  finish h := h
  call {_ rest request} h := by
    rw [show bare.script = id from rfl, request.map_id]
    exact h
  update _ _ _ := rfl
  panicked _ swallowed := by cases swallowed <;> rfl
  read _ _ := rfl
  returned := rfl
  uncounted := rfl
  neutral _ := rfl
  started _ _ _ := rfl

theorem bare_keepsPanics (s : PanicStrategy) : bare.KeepsPanics s where
  swallows := rfl
  strategy _ := rfl
  count _ := rfl
  swallowed := rfl
  raise h := h
  raised _ _ := rfl
  aborted _ := rfl
  warned _ h := (if_pos h).symm
  silent h := h

theorem view_bare (v : Executor.View) : bare.view v = v.unmeasured := by
  simp [view, bare, Executor.View.sift, Executor.View.unmeasured]

end Guise

namespace Executor

/-- **Telemetry only watches.** An executor without metrics starts or fails to start as one with
metrics does, and then is seen to do the same, move by move: the same answers, callables and log
lines, the same pending tasks and the same count of panics. Its own metrics are zero throughout. -/
theorem telemetry_only_watches (config : Config) (clock : Instant) (refusal : Option SystemError)
    (ms : List Move) :
    observe config .stub clock refusal ms =
      (observe config (.kept {}) clock refusal ms).map (Option.map View.unmeasured) := by
  have hmeets :=
    Guise.meetsAll_of_keeps (Guise.bare_keepsPanics config.panicStrategy) (.kept {}) clock
  have hrun := Guise.observe_executor Guise.bare_faithful hmeets refusal ms
  rwa [show Guise.bare.script = id from rfl, map_moves_id, funext Guise.view_bare] at hrun

end Executor

end Deferred
