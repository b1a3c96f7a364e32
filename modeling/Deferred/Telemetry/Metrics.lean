import Deferred.Telemetry.Histogram
import Deferred.Telemetry.Snapshot

/-!
# Metrics

Counters of what became of the tasks, and the histogram of how late they started. The counters have
64 bits and wrap around.

* `Metrics` and its `record…` functions count; `Metrics.snapshot` reads off.
* `Telemetry` is either such metrics or a stub that records nothing.
* `Telemetry.snapshot_recordScheduled` and its like: kept metrics count, and nothing else changes.
-/

namespace Deferred

/-- Counters and the lateness histogram. -/
structure Metrics where
  scheduled : UInt64 := 0
  executed : UInt64 := 0
  canceled : UInt64 := 0
  discarded : UInt64 := 0
  panicked : UInt64 := 0
  busyTime : UInt64 := 0
  lateness : Histogram := {}
  deriving DecidableEq

namespace Metrics

instance : Inhabited Metrics := ⟨{}⟩

/-- One more task has been scheduled. -/
def recordScheduled (m : Metrics) : Metrics := { m with scheduled := m.scheduled + 1 }

/-- One more action has been run: how late it started and how long it took. -/
def recordExecution (m : Metrics) (lateness duration : UInt64) : Metrics :=
  { m with
    executed := m.executed + 1
    busyTime := m.busyTime + duration
    lateness := m.lateness.record lateness.toNat }

/-- One more panic has been swallowed. -/
def recordPanic (m : Metrics) : Metrics := { m with panicked := m.panicked + 1 }

/-- So many more tasks have been canceled. -/
def recordCanceled (m : Metrics) (count : UInt64) : Metrics :=
  { m with canceled := m.canceled + count }

/-- So many more tasks have been discarded. -/
def recordDiscarded (m : Metrics) (count : UInt64) : Metrics :=
  { m with discarded := m.discarded + count }

/-- What the metrics say after they have been kept for some time. -/
def snapshot (m : Metrics) (uptime : Duration) : Snapshot where
  uptime
  scheduled := m.scheduled
  executed := m.executed
  canceled := m.canceled
  discarded := m.discarded
  panicked := m.panicked
  busyTime := m.busyTime
  averageLateness := m.lateness.wholeMean
  medianLateness := (m.lateness.quantile 50).toUInt64
  lateness99 := (m.lateness.quantile 99).toUInt64
  maximumLateness := m.lateness.maximum.toUInt64

end Metrics

/-! ## Telemetry, kept or not -/

/-- What keeps the metrics of an executor. -/
inductive Telemetry
  /-- The metrics are kept. -/
  | kept (metrics : Metrics)
  /-- Nothing is kept. -/
  | stub
  deriving DecidableEq

namespace Telemetry

/-- Something happens to the metrics, if they are kept. -/
def update (f : Metrics → Metrics) : Telemetry → Telemetry
  | kept metrics => kept (f metrics)
  | stub => stub

/-- What the metrics say; a stub says zero throughout. -/
def snapshot (uptime : Duration) : Telemetry → Snapshot
  | kept metrics => metrics.snapshot uptime
  | stub => {}

section Counting

variable {t : Telemetry}

theorem snapshot_recordScheduled (h : t ≠ stub) (uptime : Duration) :
    (t.update .recordScheduled).snapshot uptime =
      { t.snapshot uptime with scheduled := (t.snapshot uptime).scheduled + 1 } := by
  cases t with
  | kept => rfl
  | stub => exact absurd rfl h

theorem snapshot_recordCanceled (h : t ≠ stub) (uptime : Duration) (count : UInt64) :
    (t.update (·.recordCanceled count)).snapshot uptime =
      { t.snapshot uptime with canceled := (t.snapshot uptime).canceled + count } := by
  cases t with
  | kept => rfl
  | stub => exact absurd rfl h

theorem snapshot_recordDiscarded (h : t ≠ stub) (uptime : Duration) (count : UInt64) :
    (t.update (·.recordDiscarded count)).snapshot uptime =
      { t.snapshot uptime with discarded := (t.snapshot uptime).discarded + count } := by
  cases t with
  | kept => rfl
  | stub => exact absurd rfl h

theorem snapshot_recordPanic (h : t ≠ stub) (uptime : Duration) :
    (t.update .recordPanic).snapshot uptime =
      { t.snapshot uptime with panicked := (t.snapshot uptime).panicked + 1 } := by
  cases t with
  | kept => rfl
  | stub => exact absurd rfl h

end Counting

/-- How a stub is shown. -/
def stubText : String := "Metrics"

end Telemetry

end Deferred
