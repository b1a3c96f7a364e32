import Deferred.Decimal.Numeral
import Deferred.Telemetry.Snapshot

/-!
# Reports

A snapshot as a JSON object: twelve named numbers, one on each line. Counters are written in full,
derived quantities as the shortest numerals that read back.

This is how the package `serde_json` is documented to write: pretty printing indents by two blanks
and puts every entry on its own line, an integer has all its digits, and a floating-point number has
the fewest digits that tell it from its neighbours, `null` standing for those that are not finite.

* `Report.entries` are the keys and values of the object, in the order in which they are written.
* `Report.render` writes an object; `Snapshot.report` is the text for a snapshot.
-/

namespace Deferred

namespace Report

/-- A number of the report. -/
inductive Number
  | whole (value : Nat)
  | binary (value : Binary64)
  deriving DecidableEq

/-- Numbers are written plainly from `10 ^ -5` to below `10 ^ 16`, whole ones with one place. -/
def style : NumeralStyle :=
  { plainFrom := -5, plainTo := 15, wholeMark := ['.', '0'], exponentMark := 'e',
    positiveSign := ['+'] }

/-- The numeral of a number, or `null` for one that is out of range. -/
def Number.render : Number → List Char
  | whole value => NumeralStyle.digitsOf value
  | binary value => if value.isFinite then style.writeBinary value else ['n', 'u', 'l', 'l']

/-- Nanoseconds as microseconds. -/
def microseconds (nanos : UInt64) : Binary64 := .ofNat nanos.toNat / .ofNat 1000

/-- A duration as seconds. -/
def seconds (d : Duration) : Binary64 :=
  .ofNat d.secs.toNat + .ofNat d.subsec / .ofNat nanosPerSecond

/-- The keys and values of the report on a snapshot. -/
def entries (s : Snapshot) : List (String × Number) := [
  ("uptime_secs", .binary (seconds s.uptime)),
  ("tasks_scheduled", .whole s.scheduled.toNat),
  ("tasks_executed", .whole s.executed.toNat),
  ("tasks_canceled", .whole s.canceled.toNat),
  ("tasks_discarded", .whole s.discarded.toNat),
  ("tasks_panicked", .whole s.panicked.toNat),
  ("busy_time_ms", .whole (s.busyTime.toNat / 1000000)),
  ("avg_lateness_us", .binary (microseconds s.averageLateness)),
  ("p50_lateness_us", .binary (microseconds s.medianLateness)),
  ("p99_lateness_us", .binary (microseconds s.lateness99)),
  ("max_lateness_us", .binary (microseconds s.maximumLateness)),
  ("utilization", .binary s.utilization)]

/-- One line of an object: the key between quotes, and the number. -/
def renderEntry (entry : String × Number) : List Char :=
  ' ' :: ' ' :: '"' :: entry.1.toList ++ '"' :: ':' :: ' ' :: entry.2.render

/-- The lines of an object, a comma after each but the last. -/
def renderEntries : List (String × Number) → List Char
  | [] => []
  | [entry] => renderEntry entry ++ ['\n']
  | entry :: rest => renderEntry entry ++ ',' :: '\n' :: renderEntries rest

/-- An object, indented by two blanks. -/
def render (object : List (String × Number)) : List Char :=
  '{' :: '\n' :: renderEntries object ++ ['}']

end Report

/-- The report on a snapshot. -/
def Snapshot.report (s : Snapshot) : String := String.ofList (Report.render (Report.entries s))

end Deferred
