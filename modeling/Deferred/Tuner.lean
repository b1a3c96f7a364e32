import Deferred.Executor.Run
import Deferred.Log.Filter

/-!
# A radio tuner

A radio whose tuning takes two delayed stages, both run by an executor: a signal is acquired, and
some time later the station is locked. Seeking waits longer and then tunes. Every operation on the
radio cancels what is still under way, which is reported as failed.

* `Radio.tune`, `Radio.seek` and `Radio.cancel` are the operations, `Radio.receive` waits for the
  next report.
* `Radio.demonstration` tunes, seeks, interrupts the seek, and logs what it hears.
-/

namespace Deferred

/-- A stage of an operation on the radio, and its frequency in kilohertz. -/
inductive Stage
  /-- A signal is acquired, and the station is locked next. -/
  | acquire (khz : Nat)
  /-- The station is locked. -/
  | lock (khz : Nat)
  /-- The radio has sought, and tunes next. -/
  | seek (khz : Nat)
  deriving DecidableEq, Repr

/-- What the radio reports. -/
inductive Signal
  | acquired (khz : Nat)
  | tuned (khz : Nat)
  | failed (khz : Nat) (reason : String)
  deriving DecidableEq, Repr

/-- How a report reads. -/
def Signal.text : Signal → String
  | acquired khz => s!"SignalAcquired({khz})"
  | tuned khz => s!"Tuned({khz})"
  | failed khz reason => s!"Failed({khz}, \"" ++ reason ++ "\")"

namespace Stage

/-- The frequency of a stage. -/
def khz : Stage → Nat
  | acquire khz | lock khz | seek khz => khz

/-- The label of a stage's task. -/
def label : Stage → String
  | acquire khz => s!"acquire {khz}"
  | lock khz => s!"lock {khz}"
  | seek khz => s!"seek {khz}"

/-- How long a stage waits. -/
def delay : Stage → Duration
  | acquire _ | lock _ => .ofMillis 30
  | seek _ => .ofMillis 200

/-- What follows when a signal has been acquired: the station is locked next. -/
def lockNext (khz : Nat) : Script :=
  .scheduleWithCancel (lock khz).label (.delay (lock khz).delay) .done .done .done

/-- What a stage's task does: locking follows acquiring, and tuning follows seeking. -/
def action : Stage → Script
  | acquire khz => lockNext khz
  | lock _ => .done
  | seek khz =>
    .cancelAll (.scheduleWithCancel (acquire khz).label (.delay (acquire khz).delay)
      (lockNext khz) .done .done)

/-- The task of a stage. -/
def spec (s : Stage) : Spec where
  label := s.label
  due := .delay s.delay
  action := s.action
  onCancel := some .done

/-- What the radio reports when a callable of a stage's task begins. -/
def signal? (s : Stage) : Role → Option Signal
  | .callback => some (.failed s.khz "canceled")
  | .action =>
    match s with
    | acquire khz => some (.acquired khz)
    | lock khz => some (.tuned khz)
    | seek _ => none

/-- The stages that can come up on the frequencies of a list. -/
def all (stations : List Nat) : List Stage :=
  stations.flatMap fun khz => [acquire khz, lock khz, seek khz]

end Stage

/-- A radio: its executor, the stations it is used for, and how many reports have been heard. -/
structure Radio where
  executor : Executor
  stations : List Nat
  heard : Nat := 0

/-- A message of the demonstration, line by line, and how grave it is. -/
structure Message where
  level : Level
  lines : List String
  deriving DecidableEq

namespace Radio

/-! ## Reports -/

/-- What the radio reports when something happens in its executor. -/
def signal? (r : Radio) (entry : Entry) : Option Signal :=
  match entry.event with
  | .started role _ label =>
    ((Stage.all r.stations).find? (·.label = label)).bind (·.signal? role)
  | _ => none

/-- All reports so far, the earliest first. -/
def signals (r : Radio) : List Signal := r.executor.trace.reverse.filterMap r.signal?

/-- The station that was locked last. -/
def station? (r : Radio) : Option Nat :=
  r.signals.foldl (fun current signal => match signal with
    | .tuned khz => some khz
    | _ => current) none

/-! ## Operations -/

/-- The settings of the radio's executor. -/
def settings : List Config.Setting := [.threadName "tuner", .shutdownPolicy .cancelPending]

/-- A radio that is switched on. -/
def start (stations : List Nat) : Except Error Radio := do
  let config ← Config.build settings
  let executor ← Executor.start config (.kept {}) ⟨0⟩
  return { executor, stations }

/-- A call on the executor. -/
def call (r : Radio) (request : Request) : Radio × Option Executor.Completion :=
  let (executor, completion) := r.executor.perform 0 request
  ({ r with executor }, completion)

/-- Cancels what is under way, and begins with a stage. -/
def begin (r : Radio) (stage : Stage) : Radio :=
  ((r.call .cancelAll).1.call (.schedule stage.spec)).1

/-- Tunes to a frequency. -/
def tune (r : Radio) (khz : Nat) : Radio := r.begin (.acquire khz)

/-- Seeks the next station above a frequency. -/
def seek (r : Radio) (khz : Nat) : Radio := r.begin (.seek (khz + 200))

/-- Cancels what is under way, and says how much that was. -/
def cancel (r : Radio) : Radio × Nat :=
  match r.call .cancelAll with
  | (r, some (.answered (.count canceled))) => (r, canceled)
  | (r, _) => (r, 0)

/-- Time passes. -/
def sleep (r : Radio) (length : Duration) : Radio :=
  { r with executor := r.executor.runUntil (r.executor.clock.later length.nanos) }

/-- The next report, if one comes within a second. -/
def receive (r : Radio) : Radio × Option Signal :=
  let waiting := fun e => decide (r.heard < { r with executor := e }.signals.length)
  let horizon := r.executor.clock.later nanosPerSecond
  let executor := r.executor.runWorker waiting fun _ => horizon
  let r := { r with executor }
  match r.signals[r.heard]? with
  | some signal => ({ r with heard := r.heard + 1 }, some signal)
  | none => (r, none)

/-! ## The demonstration -/

/-- How the outcome of waiting for a report reads. -/
def receivedText : Option Signal → String
  | some signal => s!"Ok({signal.text})"
  | none => "Err(Timeout)"

/-- How the current station reads. -/
def stationText : Option Nat → String
  | some khz => s!"Some({khz})"
  | none => "None"

/-- A message of one line, for the user's information. -/
def inform (line : String) : Message := ⟨.info, [line]⟩

/-- Tunes to a station, seeks the next one, interrupts the seek, and says how things stand. -/
def demonstration : Except Error (List Message) := do
  let radio ← start [98100, 98300]
  let (radio, first) := (radio.tune 98100).receive
  let (radio, second) := radio.receive
  let (radio, canceled) := ((radio.seek 98100).sleep (.ofMillis 50)).cancel
  let (radio, third) := radio.receive
  return [
    inform (receivedText first),
    inform (receivedText second),
    inform s!"canceled {canceled} pending operations",
    inform (receivedText third),
    inform s!"current station: {stationText radio.station?} kHz",
    ⟨.info, radio.executor.snapshot.lines⟩]

/-- The target under which the demonstration logs. -/
def target : String := "tuner"

/-- What a log shows of a message: the level before the first line, and the others indented. -/
def shownLines (message : Message) : List String :=
  match message.lines with
  | [] => [message.level.label]
  | first :: rest => s!"{message.level.label} {first}" :: rest.map fun line => s!"    {line}"

/-- What a log with a filter shows of messages. -/
def shown (filter : Filter) (messages : List Message) : List String :=
  (messages.filter fun m =>
    filter.allows target m.level (String.intercalate "\n" m.lines)).flatMap shownLines

end Radio

end Deferred
