import Deferred.Proofs.Executor.Death
import Mathlib.Algebra.BigOperators.Group.List.Basic

/-!
# What the panic handler counts

The handler counts a panic each time it reaches a callable. A panic that is swallowed, or ends the
process, reaches only the callable that has raised it. One that propagates goes on through all
callables that its thread has in progress, and is counted once for each of them: once more for every
call of `cancelAll`, or of a shutdown that cancels, which one of them is in the midst of.

* `Executor.reach`: how many callables a panic reaches that a thread raises with its next step.
* `Activity.unreached`: how many callables a panic on its way has yet to reach.
* `Local.counts`: with every step the count and what is yet to be reached grow by the reach.
* `panic_count_is_reach`: over a run, the handler has counted the reach of all panics.
* `panic_count_ne_panics`: so one panic may be counted twice.
-/

namespace Deferred

/-- How many callables a panic on its way has yet to reach. -/
def Activity.unreached (a : Activity) : Nat := if a.control.unwinds then a.stack.length else 0

@[simp] theorem Event.panics_answerEvent (topic : Topic) (stack : List Frame) (answer : Answer) :
    (answerEvent topic stack answer).panics = [] := by
  cases stack <;> rfl

namespace Executor

variable {e next last : Executor} {t : ThreadId} {a b : Activity} {c : Change} {v w : WorkerState}
variable {stack : List Frame} {payload : Payload}

/-- The panics that callables have raised, the latest first. -/
def panics (e : Executor) : List Payload := e.gather Event.panics

/-- How many callables a panic reaches that a thread raises with its next step, if it raises one:
the callable on top, and all the others in progress if the panic propagates. -/
def reach (e : Executor) : Activity → List Nat
  | ⟨.ready, frame :: stack⟩ =>
    match frame.rest.head with
    | .raise _ => [if e.handler.strategy = .propagate then stack.length + 1 else 1]
    | _ => []
  | _ => []

/-- How many callables the panic reaches that is raised in a move, if one is. -/
def reachOf (e : Executor) : Move → List Nat
  | .step t => ((e.activity? t).map e.reach).getD []
  | _ => []

/-- How many callables each of the panics reaches that are raised in moves, the earliest first. -/
def reaches (e : Executor) : List Move → List Nat
  | [] => []
  | m :: later => e.reachOf m ++ ((e.move? m).map (·.reaches later)).getD []

/-! ## Steps -/

theorem Opens.counts {request : Request} (h : Opens e t stack request c b) :
    b.unreached = 0 ∧ c.events.flatMap Event.panics = [] := by
  cases h <;> exact ⟨rfl, by simp [unchanged]⟩

theorem Catches.counts {frame : Frame} (h : Catches e payload frame stack c b) :
    c.handler.panicCount + b.unreached =
        e.handler.panicCount + (if e.handler.strategy = .propagate then stack.length + 1 else 1) ∧
      c.events.flatMap Event.panics = [] := by
  cases h with
  | swallow hs =>
    have hne := (PanicStrategy.ne_of_swallows hs).1
    simp [Handler.count, Activity.unreached, Control.unwinds, hne]
  | abort hs => simp [Handler.count, Activity.unreached, Control.unwinds, hs]
  | pass hs =>
    refine ⟨?_, rfl⟩
    simp only [Handler.count, Activity.unreached, Control.unwinds, hs, if_true]
    omega

/-- With a step of a thread, the count and what a panic has yet to reach grow by the reach of the
panic that is raised in it. -/
theorem Local.counts (h : Local e t a c b)
    (hu : a.control.unwinds = true → e.handler.strategy = .propagate) :
    c.handler.panicCount + b.unreached =
        e.handler.panicCount + a.unreached + (e.reach a).sum ∧
      (c.events.flatMap Event.panics).length = (e.reach a).length := by
  cases h with
  | opens _ ho =>
    obtain ⟨hb, he⟩ := ho.counts
    rw [hb, he, ho.strategy]
    exact ⟨rfl, rfl⟩
  | call hh ho =>
    obtain ⟨hb, he⟩ := ho.counts
    rw [hb, he, ho.strategy, reach, hh]
    exact ⟨rfl, rfl⟩
  | raise hh hc =>
    obtain ⟨hcount, he⟩ := hc.counts
    rw [List.flatMap_append, he, reach, hh]
    refine ⟨?_, rfl⟩
    simpa [Activity.unreached, Control.unwinds] using hcount
  | unwind hc =>
    obtain ⟨hcount, he⟩ := hc.counts
    rw [if_pos (hu rfl)] at hcount
    rw [he]
    exact ⟨hcount, rfl⟩
  | finish hh =>
    rw [reach, hh]
    exact ⟨rfl, rfl⟩
  | @accept _ _ _ first => cases first <;> simp [reach, Activity.unreached, Control.unwinds, unchanged]
  | leave => exact ⟨rfl, rfl⟩
  | _ => simp [reach, Activity.unreached, Control.unwinds, unchanged]

theorem WorkerStep.counts (h : WorkerStep e v c w) :
    v.part Activity.unreached = 0 ∧ w.part Activity.unreached = 0 ∧
      ∀ a, v = .busy a → e.reach a = [] := by
  cases h <;> exact ⟨rfl, rfl, fun a ha => by cases ha <;> rfl⟩

/-! ## Moves -/

/-- A move raises panics of a certain reach, of which the handler has counted what they have reached
so far. -/
structure Counts (e : Executor) (reach : List Nat) (next : Executor) : Prop where
  count : next.handler.panicCount + next.total Activity.unreached =
    e.handler.panicCount + e.total Activity.unreached + reach.sum
  raised : next.panics.length = e.panics.length + reach.length

theorem Counts.trans {reach later : List Nat} (h : e.Counts reach next)
    (hl : next.Counts later last) : e.Counts (reach ++ later) last where
  count := by
    have := h.count
    have := hl.count
    rw [List.sum_append]
    omega
  raised := by
    rw [hl.raised, h.raised, List.length_append, Nat.add_assoc]

theorem counts_after (ha : e.activity? t = some a) (hl : Local e t a c b)
    (hu : a.control.unwinds = true → e.handler.strategy = .propagate) :
    e.Counts (e.reach a) (e.after t c b) := by
  obtain ⟨hcount, hraised⟩ := hl.counts hu
  have htotal := total_after_add (f := Activity.unreached) (c := c) (b := b) rfl ha
  constructor
  · rw [handler_after]
    omega
  · rw [panics, gather_after, List.length_append, hraised, panics, Nat.add_comm]

theorem counts_afterTurn (hv : e.worker = v) (hw : WorkerStep e v c w) :
    e.Counts [] (e.afterTurn c w) := by
  obtain ⟨hbefore, hafter, -⟩ := hw.counts
  have htotal := total_afterTurn (f := Activity.unreached) (c := c) (w := w) hv
  constructor
  · rw [handler_afterTurn, hw.strategy, List.sum_nil]
    omega
  · rw [panics, gather_afterTurn, hw.panics_eq_nil]
    rfl

/-- Every move counts what the panic that is raised in it will have reached. -/
theorem counts_of_move (ho : e.Orderly) (hi : e.Handled) {m : Move}
    (hm : e.move? m = some next) : e.Counts (e.reachOf m) next := by
  have hu : ∀ t a, e.activity? t = some a → a.control.unwinds = true →
      e.handler.strategy = .propagate :=
    fun t a ha hunwinds => hi.strategy ▸ (hi.unwinding t a ha hunwinds).1
  cases makes_of_move ho hm with
  | opens ha hop => exact counts_after ha (.opens rfl hop) (hu _ _ ha)
  | @goes t a _ ha hg =>
    have hreach : e.reachOf (.step t) = e.reach a := by rw [reachOf, ha]; rfl
    rw [hreach]
    cases hg with
    | continues hl => exact counts_after ha hl (hu t a ha)
    | finishes ht hw =>
      subst ht
      rw [hw.counts.2.2 a rfl]
      exact counts_afterTurn (activity?_worker.1 ha) hw
  | looks hv hw =>
    have hreach : e.reachOf (.step .worker) = [] := by rw [reachOf, activity?, hv]; rfl
    rw [hreach]
    exact counts_afterTurn hv hw
  | wakes hv => exact counts_afterTurn hv .wake
  | ticks => exact ⟨rfl, rfl⟩

/-! ## Runs -/

/-- A panic reaches the callable that raises it, and no other one unless it propagates. -/
theorem mem_reach {n : Nat} (h : n ∈ e.reach a) :
    1 ≤ n ∧ (e.handler.strategy ≠ .propagate → n = 1) := by
  unfold reach at h
  split at h
  · split at h
    · obtain rfl := List.mem_singleton.1 h
      split
      next hs => exact ⟨Nat.le_add_left 1 _, fun hne => absurd hs hne⟩
      · exact ⟨Nat.le_refl 1, fun _ => rfl⟩
    · cases h
  · cases h

theorem sum_eq_length_iff {l : List Nat} (h : ∀ n ∈ l, 1 ≤ n) :
    l.sum = l.length ↔ ∀ n ∈ l, n = 1 := by
  induction l with
  | nil => simp
  | cons n l ih =>
    obtain ⟨hn, hl⟩ := List.forall_mem_cons.1 h
    have hle := List.length_le_sum_of_one_le l hl
    rw [List.forall_mem_cons, ← ih hl, List.sum_cons, List.length_cons]
    omega

section Runs

variable {config : Config} {telemetry : Telemetry} {clock : Instant} {start : Executor}

theorem counts_of_moves (hs : Executor.start config telemetry clock = .ok start)
    (hr : start.Reachable e) {ms : List Move} (hm : e.moves? ms = some last) :
    e.Counts (e.reaches ms) last := by
  induction ms generalizing e with
  | nil =>
    obtain rfl := Option.some.inj hm
    exact ⟨rfl, rfl⟩
  | cons m later ih =>
    obtain ⟨next, hfirst, hlater⟩ := Option.bind_eq_some_iff.1 hm
    have hstep := counts_of_move (orderly_of_start hs hr) (handled_of_start hs hr) hfirst
    have hrest := ih (hr.move m hfirst) hlater
    rw [reaches, hfirst]
    exact hstep.trans hrest

theorem mem_reaches (hs : Executor.start config telemetry clock = .ok start)
    (hr : start.Reachable e) {ms : List Move} {n : Nat} (h : n ∈ e.reaches ms) :
    1 ≤ n ∧ (config.panicStrategy ≠ .propagate → n = 1) := by
  induction ms generalizing e with
  | nil => cases h
  | cons m later ih =>
    have hstrategy : e.handler.strategy = config.panicStrategy := by
      rw [(handled_of_start hs hr).strategy, config_of_start hs hr]
    rcases List.mem_append.1 h with h | h
    · cases m with
      | step t =>
        rw [reachOf] at h
        cases ha : e.activity? t with
        | some a =>
          rw [ha] at h
          exact hstrategy ▸ mem_reach h
        | none =>
          rw [ha] at h
          cases h
      | _ => cases h
    · cases hm : e.move? m with
      | some next =>
        rw [hm] at h
        exact ih (hr.move m hm) h
      | none =>
        rw [hm] at h
        cases h

/-- **The handler counts callables, not panics.** In every state that a run leads to, the handler
has counted how many callables the panics of the run have reached so far, each panic at least one.
Where panics do not propagate each reaches exactly one. Where they do, a panic reaches all callables
that its thread has in progress, so that when all is quiet as many have been counted as raised if
and only if each was raised in a callable that no other one had brought about. -/
theorem panic_count_is_reach (hs : Executor.start config telemetry clock = .ok start)
    {ms : List Move} (hm : start.moves? ms = some e) :
    e.handler.panicCount + e.total Activity.unreached = (start.reaches ms).sum ∧
      e.panics.length = (start.reaches ms).length ∧
      (∀ n ∈ start.reaches ms, 1 ≤ n ∧ (config.panicStrategy ≠ .propagate → n = 1)) ∧
      (e.Quiet → (e.handler.panicCount = e.panics.length ↔ ∀ n ∈ start.reaches ms, n = 1)) := by
  have hcounts := counts_of_moves hs .refl hm
  have hmem := fun n (h : n ∈ start.reaches ms) => mem_reaches hs .refl h
  have hsum : e.handler.panicCount + e.total Activity.unreached = (start.reaches ms).sum := by
    rw [hcounts.count, eq_initial_of_start hs]
    exact Nat.zero_add _
  have hlength : e.panics.length = (start.reaches ms).length := by
    rw [hcounts.raised, eq_initial_of_start hs]
    exact Nat.zero_add _
  refine ⟨hsum, hlength, hmem, fun hq => ?_⟩
  rw [hq.total rfl] at hsum
  rw [← sum_eq_length_iff fun n h => (hmem n h).1, ← hsum, hlength]
  rfl

end Runs

/-- A caller schedules a task whose callback panics, and another one whose action cancels all; then
the worker runs that action. -/
def cancelingRun : List Move :=
  let canceled : Spec :=
    { label := "canceled", due := .instant ⟨9000⟩, onCancel := some (.panic (.owned "boom") .done) }
  let canceling : Spec := { label := "canceling", due := .instant ⟨0⟩, action := .cancelAll .done }
  .call 0 (.schedule canceled) :: List.replicate 3 (.step (.caller 0)) ++
    .call 0 (.schedule canceling) :: List.replicate 3 (.step (.caller 0)) ++
    List.replicate 6 (.step .worker)

/-- The panic of a callback that an action has brought about reaches both. -/
theorem panic_count_is_reach_canceling :
    ∃ e, (initial {} .stub ⟨0⟩).moves? cancelingRun = some e ∧
      e.panics = [.owned "boom"] ∧ (initial {} .stub ⟨0⟩).reaches cancelingRun = [2] ∧
      e.handler.panicCount + e.total Activity.unreached = 2 := by
  obtain ⟨e, hm, hp, hreaches⟩ : ∃ e, (initial {} .stub ⟨0⟩).moves? cancelingRun = some e ∧
      e.panics = [.owned "boom"] ∧ (initial {} .stub ⟨0⟩).reaches cancelingRun = [2] :=
    ⟨_, rfl, rfl, rfl⟩
  have hs : Executor.start {} .stub ⟨0⟩ = .ok _ := rfl
  obtain ⟨hsum, -⟩ := panic_count_is_reach hs hm
  exact ⟨e, hm, hp, hreaches, by rw [hsum, hreaches]; rfl⟩

/-- It is not so that as many panics have been counted as raised whenever all is quiet. -/
theorem panic_count_ne_panics :
    ¬ ∀ ms e, (initial {} .stub ⟨0⟩).moves? ms = some e → e.Quiet →
      e.config.panicStrategy = .propagate → e.handler.panicCount = e.panics.length := by
  intro h
  obtain ⟨e, hm, hq, hs, hne⟩ : ∃ e, (initial {} .stub ⟨0⟩).moves? cancelingRun = some e ∧
      e.Quiet ∧ e.config.panicStrategy = .propagate ∧ e.handler.panicCount ≠ e.panics.length := by
    refine ⟨_, rfl, ⟨?_, nofun⟩, rfl, by decide⟩
    rintro (_ | n) <;> rfl
  exact hne (h cancelingRun e hm hq hs)

end Executor

end Deferred
