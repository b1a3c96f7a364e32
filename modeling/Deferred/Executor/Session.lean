import Deferred.Executor.Run

/-!
# Sessions

A session drives an executor by commands, one after the other, and gives an account of each: what it
came to, what happened meanwhile, and how the executor stands. After each command the worker runs to
rest, unless it is held inside an action.

* `Session.obey` carries out a command, `Session.finish` ends the session.
* `Session.Standing` is what can be asked of an executor that can be reached.
-/

namespace Deferred

namespace Session

/-- A command to an executor. -/
inductive Command
  /-- A caller makes a call. -/
  | call (request : Request)
  /-- Schedule an action that is due at once, and hold the worker inside it. -/
  | hold
  /-- Let the worker go on. -/
  | release
  /-- Several callers schedule tasks, each its own ones in order. -/
  | parallel (threads : List (List Spec))

/-- What a command comes to. -/
inductive Reply
  | completed (completion : Executor.Completion)
  | ok
  /-- The worker is held. -/
  | held
  /-- The worker is not held. -/
  | notHeld
  /-- So many tasks have been scheduled, and the others were refused. -/
  | scheduledMany (accepted : Nat) (refused : List Answer)

/-- What can be asked of an executor. -/
structure Standing where
  pending : Nat
  isIdle : Bool
  next : Option (Task Script)
  panicCount : Nat
  metrics : Snapshot

/-- What is seen of a command. -/
structure Account where
  reply : Option Reply
  /-- What happened, the earliest first. -/
  events : List Event
  /-- How the executor stands, if it can be reached. -/
  standing : Option Standing

end Session

/-- How an executor stands, if it can be reached. -/
def Executor.standing? (e : Executor) : Option Session.Standing :=
  if e.access = .available then
    some { pending := e.guarded.pending.size, isIdle := e.guarded.pending.isEmpty
           next := e.guarded.pending.first?, panicCount := e.handler.panicCount
           metrics := e.snapshot }
  else none

/-- An executor that is driven by commands. -/
structure Session where
  executor : Executor
  /-- Whether the worker is held inside an action. -/
  held : Bool := false
  /-- How many entries of the trace have been accounted for. -/
  accounted : Nat := 0

namespace Session

/-- The clock at which a session begins, somewhat after the base of its instants. -/
def dawn : Instant := ⟨100000⟩

/-- The action that holds the worker. -/
def holdSpec : Spec := { label := "hold", due := .instant ⟨0⟩ }

/-- The account of what has happened since the last one. -/
def account (s : Session) (reply : Option Reply) : Session × Account :=
  let total := s.executor.trace.length
  let fresh := (s.executor.trace.take (total - s.accounted)).reverse
  ({ s with accounted := total },
    { reply, events := fresh.map (·.event), standing := s.executor.standing? })

/-- The least stack that the system of the session grants to no thread. -/
def stackLimit : Nat := 1 <<< 40

/-- The least stack that is out of range: with a page to guard it, it does not fit into a word. -/
def stackRange : Nat := (1 <<< 64) - 4096

/-- How the system of the session refuses to start a worker with a stack of a certain size. -/
def refusal? (stackSize : Nat) : Option SystemError :=
  if stackRange ≤ stackSize then some .invalidArgument
  else if stackLimit ≤ stackSize then some .tryAgain
  else none

/-- Starts an executor and a session with it. -/
def start (config : Config) (telemetry : Telemetry) : Except Error (Session × Account) := do
  let e ← Executor.start config telemetry dawn (config.stackSize.bind refusal?)
  return account { executor := e.settle } none

/-- Lets the worker run to rest, unless it is held. -/
def rest (s : Session) : Session :=
  if s.held then s else { s with executor := s.executor.settle }

/-! ## Commands -/

/-- A caller makes a call. -/
def call (s : Session) (n : Nat) (request : Request) : Session × Option Executor.Completion :=
  let (executor, completion) := s.executor.perform n request
  ({ s with executor }, completion)

/-- Schedules the action that holds the worker, and lets the worker begin it. -/
def hold (s : Session) : Session × Option Reply :=
  if s.held then (s, some .held)
  else
    let (s, completion) := s.call 0 (.schedule holdSpec)
    match completion with
    | some (.answered (.scheduled task)) =>
      ({ s with executor := s.executor.runUntilStarted task, held := true },
        completion.map .completed)
    | _ => (s, completion.map .completed)

/-- One caller schedules tasks in order: how many are accepted, and how the others are refused. -/
def scheduleAll (n : Nat) : Session → List Spec → Session × Nat × List Answer
  | s, [] => (s, 0, [])
  | s, spec :: specs =>
    let (s, completion) := s.call n (.schedule spec)
    let (s, accepted, refused) := scheduleAll n s specs
    match completion with
    | some (.answered (.scheduled _)) => (s, accepted + 1, refused)
    | some (.answered answer) => (s, accepted, answer :: refused)
    | _ => (s, accepted, refused)

/-- Several callers schedule tasks, the callers numbered from `n` on. -/
def scheduleParallel : Nat → Session → List (List Spec) → Session × Nat × List Answer
  | _, s, [] => (s, 0, [])
  | n, s, specs :: threads =>
    let (s, accepted, refused) := scheduleAll n s specs
    let (s, more, others) := scheduleParallel (n + 1) s threads
    (s, accepted + more, refused ++ others)

/-- Carries out a command, and lets the worker run to rest. -/
def carryOut (s : Session) : Command → Session × Option Reply
  | .call request =>
    if s.held ∧ (request = .shutdown ∨ request = .drop) then (s, some .held)
    else
      let (s, completion) := s.call 0 request
      (s.rest, completion.map .completed)
  | .hold =>
    let (s, reply) := s.hold
    (s.rest, reply)
  | .release =>
    if s.held then ({ s with held := false }.rest, some .ok) else (s, some .notHeld)
  | .parallel threads =>
    let (s, accepted, refused) := scheduleParallel 1 s threads
    (s.rest, some (.scheduledMany accepted refused))

/-- Carries out a command and gives an account of it. -/
def obey (s : Session) (c : Command) : Session × Account :=
  let (s, reply) := s.carryOut c
  s.account reply

/-- Lets the worker go on if it is held, drops the executor, and gives an account of both. -/
def finish (s : Session) : Account :=
  let s := { s with held := false }.rest
  let (s, completion) := s.call 0 .drop
  (s.rest.account (completion.map .completed)).2

end Session

end Deferred
