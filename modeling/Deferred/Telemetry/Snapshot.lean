import Deferred.Binary64
import Deferred.Time

/-!
# Snapshots of the metrics

What the metrics say at one point in time, and what follows from it.

* `Snapshot.utilization` is the share of the time spent inside actions.
* `Snapshot.outstanding` is the number of tasks that are neither done nor removed.
* `Snapshot.text` and `Snapshot.lines` show all fields, on one line and on one line each.
-/

namespace Deferred

/-- The metrics at one point in time; times and latenesses are in nanoseconds. -/
structure Snapshot where
  uptime : Duration := .zero
  scheduled : UInt64 := 0
  executed : UInt64 := 0
  canceled : UInt64 := 0
  discarded : UInt64 := 0
  panicked : UInt64 := 0
  busyTime : UInt64 := 0
  averageLateness : UInt64 := 0
  medianLateness : UInt64 := 0
  lateness99 : UInt64 := 0
  maximumLateness : UInt64 := 0
  deriving DecidableEq

namespace Snapshot

instance : Inhabited Snapshot := ⟨{}⟩

/-- The share of the uptime that the worker spent inside actions, at most one. -/
def utilization (s : Snapshot) : Binary64 :=
  let uptime := Binary64.ofNat s.uptime.nanos
  if uptime.isZero then .zero else (Binary64.ofNat s.busyTime.toNat / uptime).min .one

/-- The tasks that are still pending or running, as far as the counters can tell. The sum of what
has been done wraps around like the counters; the difference ends at zero. -/
def outstanding (s : Snapshot) : Nat :=
  s.scheduled.toNat - (s.executed + s.canceled + s.discarded).toNat

/-- The names of the fields and their values. -/
def fields (s : Snapshot) : List (String × String) := [
  ("uptime", s.uptime.text),
  ("tasks_scheduled", toString s.scheduled),
  ("tasks_executed", toString s.executed),
  ("tasks_canceled", toString s.canceled),
  ("tasks_discarded", toString s.discarded),
  ("tasks_panicked", toString s.panicked),
  ("busy_time_ns", toString s.busyTime),
  ("avg_lateness_ns", toString s.averageLateness),
  ("p50_lateness_ns", toString s.medianLateness),
  ("p99_lateness_ns", toString s.lateness99),
  ("max_lateness_ns", toString s.maximumLateness)]

/-- All fields on one line. -/
def text (s : Snapshot) : String :=
  let shown := String.intercalate ", " (s.fields.map fun (name, value) => s!"{name}: {value}")
  s!"MetricsSnapshot \x7b {shown} \x7d"

/-- All fields on lines of their own. -/
def lines (s : Snapshot) : List String :=
  "MetricsSnapshot \x7b" :: s.fields.map (fun (name, value) => s!"    {name}: {value},") ++ ["\x7d"]

end Snapshot

end Deferred
