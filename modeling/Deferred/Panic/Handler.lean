import Deferred.Log

/-!
# The panic handler

The handler runs a body and deals with its panic as its strategy says. Bodies may use the same
handler again inside, to any depth. Panics are counted by a natural number, where a machine word
would wrap around after `2 ^ 64` of them.

* `Handler.count` counts a panic that reaches the handler, `Handler.warning` is the line it logs.
* `Body` is a body as data: calls of the handler on inner bodies one after the other, and an end.
* `Handler.execute` runs a body under the handler.
-/

namespace Deferred

/-- A strategy and the number of panics that have reached it. -/
structure Handler where
  strategy : PanicStrategy
  panicCount : Nat := 0
  deriving DecidableEq, Repr

namespace Handler

/-- The handler after one more panic has reached it. -/
def count (h : Handler) : Handler := { h with panicCount := h.panicCount + 1 }

/-- The line that the handler logs for a panic that it swallows. -/
def warning (h : Handler) (payload : Payload) : Option LogLine :=
  if h.strategy.warns then some (.taskPanicked payload.message) else none

end Handler

/-! ## Bodies -/

/-- What the handler runs. -/
inductive Body
  /-- Return a value. -/
  | value (value : UInt64)
  /-- Panic. -/
  | panic (payload : Payload)
  /-- Run `inner` under the same handler; unless its panic goes on unwinding, go on with `next`. -/
  | nest (inner next : Body)
  deriving DecidableEq, Repr

namespace Body

/-- A body inside as many further calls of the handler, each of which returns `result` at last. -/
def wrap (result : UInt64) : Nat → Body → Body
  | 0, body => body
  | depth + 1, body => .nest (wrap result depth body) (.value result)

/-- How a body ends. -/
inductive Ending
  | value (value : UInt64)
  | panic (payload : Payload)
  /-- The process has ended inside of it. -/
  | aborted
  deriving DecidableEq, Repr

/-- What can be seen while a body runs. -/
inductive Event
  /-- A call of the handler inside the body has answered that its body panicked. -/
  | innerFailed (message : String)
  /-- The handler has logged a line. -/
  | logged (line : LogLine)
  deriving DecidableEq, Repr

end Body

/-- What a call of the handler comes to. -/
inductive Outcome
  /-- The body returned a value. -/
  | value (value : UInt64)
  /-- The body panicked, and the panic was swallowed. -/
  | failed (message : String)
  /-- The body panicked, and the panic goes on unwinding. -/
  | unwound (payload : Payload)
  /-- A body panicked, and the process has ended. -/
  | aborted
  deriving DecidableEq, Repr

namespace Handler

/-- What the handler makes of the end of its body, the events of the body first. -/
def conclude : Handler × List Body.Event × Body.Ending → Handler × List Body.Event × Outcome
  | (h, events, .value v) => (h, events, .value v)
  | (h, events, .panic payload) =>
    match h.strategy with
    | .propagate => (h.count, events, .unwound payload)
    | .abort => (h.count, events ++ [.logged (.taskAborted payload.message)], .aborted)
    | .isolate | .logAndContinue =>
      (h.count, events ++ (h.warning payload).toList.map .logged, .failed payload.message)
  | (h, events, .aborted) => (h, events, .aborted)

/-- Runs a body by itself: inner calls are handled, its own end is not. -/
def run (h : Handler) : Body → Handler × List Body.Event × Body.Ending
  | .value v => (h, [], .value v)
  | .panic payload => (h, [], .panic payload)
  | .nest inner next =>
    match conclude (h.run inner) with
    | (h, events, .value _) =>
      let (h, later, ending) := h.run next
      (h, events ++ later, ending)
    | (h, events, .failed message) =>
      let (h, later, ending) := h.run next
      (h, events ++ .innerFailed message :: later, ending)
    | (h, events, .unwound payload) => (h, events, .panic payload)
    | (h, events, .aborted) => (h, events, .aborted)

/-- Runs a body under the handler. -/
def execute (h : Handler) (body : Body) : Handler × List Body.Event × Outcome :=
  conclude (h.run body)

end Handler

end Deferred
