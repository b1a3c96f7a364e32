import Deferred.Proofs.Executor.Balance

/-!
# Panics that escape

A panic that propagates unwinds the callables in progress from the latest to the first. The first
one that it leaves may be an action; every other one that it leaves is a cancellation callback or
lies below one that has been left, so that a panic under way is the worker's own action's or has
escaped from a callback. A panic that aborts leaves no callable: the process ends in the midst of
it.

* `Executor.CallbackEscaped`: a panic has escaped from a cancellation callback.
* `Executor.MayAbort`: a panic can end the process.
* `Handled`: what a panic under way, or the end of the process, says about the past.
* `Executor.HasUnwound`: a panic has unwound a whole thread.
* `Lossless`: nothing is lost without that, and it happens only where panics propagate.
-/

namespace Deferred

/-- The actions whose panics have ended the worker. -/
def WorkerState.deaths : WorkerState → Nat
  | died _ => 1
  | _ => 0

namespace Executor

variable {e next : Executor} {t : ThreadId} {a b : Activity} {c : Change} {v w : WorkerState}

/-- A panic has escaped from a cancellation callback: panics propagate, and a task that has been
called back has panicked. -/
def CallbackEscaped (e : Executor) : Prop :=
  e.config.panicStrategy = .propagate ∧ ∃ id ∈ e.raisedIds, id ∈ e.startedIds .callback

theorem CallbackEscaped.happens (h : e.CallbackEscaped) (hh : Happens e next) :
    next.CallbackEscaped := by
  obtain ⟨hs, id, hraised, hstarted⟩ := h
  exact ⟨config_of_happens hh ▸ hs, id, mem_gather_of_happens hh hraised,
    mem_gather_of_happens hh hstarted⟩

/-! ## The strategy -/

theorem Opens.strategy {stack : List Frame} {request : Request}
    (h : Opens e t stack request c b) : c.handler = e.handler := by
  cases h <;> rfl

theorem Catches.strategy {payload : Payload} {frame : Frame} {stack : List Frame}
    (h : Catches e payload frame stack c b) : c.handler.strategy = e.handler.strategy := by
  cases h <;> rfl

theorem Local.strategy (h : Local e t a c b) : c.handler.strategy = e.handler.strategy := by
  cases h with
  | opens _ ho | call _ ho => rw [ho.strategy]
  | raise _ hc | unwind hc => exact hc.strategy
  | _ => rfl

theorem WorkerStep.strategy (h : WorkerStep e v c w) : c.handler = e.handler := by
  cases h <;> rfl

/-! ## Panics under way -/

theorem Opens.not_unwinds {stack : List Frame} {request : Request}
    (h : Opens e t stack request c b) : b.control.unwinds = false := by
  cases h <;> rfl

theorem Catches.unwinds {payload : Payload} {frame : Frame} {stack : List Frame}
    (h : Catches e payload frame stack c b) (hb : b.control.unwinds = true) :
    e.handler.strategy = .propagate ∧ b.stack = stack := by
  cases h with
  | swallow | abort => cases hb
  | pass hs => exact ⟨hs, rfl⟩

/-- A panic is under way after a step only if panics propagate: the callable on top has raised it
in this step, or it was under way to that callable before. -/
theorem Local.unwinds (h : Local e t a c b) (hb : b.control.unwinds = true) :
    e.handler.strategy = .propagate ∧
      ((∃ frame, a = ⟨.ready, frame :: b.stack⟩ ∧ frame.task ∈ c.events.flatMap Event.raisedIds) ∨
        a.control.unwinds = true ∧ a.stack ≠ []) := by
  cases h with
  | opens _ ho | call _ ho =>
    rw [ho.not_unwinds] at hb
    cases hb
  | @raise frame _ _ _ _ _ hc =>
    obtain ⟨hs, rfl⟩ := hc.unwinds hb
    exact ⟨hs, .inl ⟨frame, rfl, by simp⟩⟩
  | unwind hc => exact ⟨(hc.unwinds hb).1, .inr ⟨rfl, List.cons_ne_nil _ _⟩⟩
  | @accept _ _ _ first => cases first <;> cases hb
  | _ => cases hb

/-! ## The end of the process -/

theorem Opens.aborts {stack : List Frame} {request : Request} (h : Opens e t stack request c b) :
    b.control ≠ .abort ∧ c.aborted = e.aborted := by
  cases h <;> exact ⟨nofun, rfl⟩

theorem Catches.aborts {payload : Payload} {frame : Frame} {stack : List Frame}
    (h : Catches e payload frame stack c b) :
    (b.control = .abort → e.handler.strategy = .abort) ∧ c.aborted = e.aborted := by
  cases h with
  | abort hs => exact ⟨fun _ => hs, rfl⟩
  | _ => exact ⟨nofun, rfl⟩

/-- A thread sets out to end the process only where panics abort, and only such a thread ends it. -/
theorem Local.aborts (h : Local e t a c b) :
    (b.control = .abort → e.handler.strategy = .abort ∨ a.control = .abort) ∧
      (c.aborted = true → e.aborted = true ∨ a.control = .abort) := by
  cases h with
  | opens _ ho | call _ ho =>
    exact ⟨fun hb => absurd hb ho.aborts.1, fun hc => .inl (ho.aborts.2 ▸ hc)⟩
  | raise _ hc | unwind hc =>
    exact ⟨fun hb => .inl (hc.aborts.1 hb), fun h => .inl (hc.aborts.2 ▸ h)⟩
  | abort => exact ⟨fun _ => .inr rfl, fun _ => .inr rfl⟩
  | @accept _ _ _ first => cases first <;> exact ⟨nofun, .inl⟩
  | _ => exact ⟨nofun, .inl⟩

theorem WorkerStep.aborts (h : WorkerStep e v c w) :
    (∀ b, w = .busy b → b.control ≠ .abort) ∧ c.aborted = e.aborted := by
  refine ⟨fun b hb => ?_, by cases h <;> rfl⟩
  cases h with
  | run =>
    obtain rfl := WorkerState.busy.inj hb
    nofun
  | _ => cases hb

/-- A panic can end the process, or has ended it: panics abort, or a thread is about to. -/
def MayAbort (e : Executor) : Prop :=
  e.aborted = true ∨ e.handler.strategy = .abort ∨
    ∃ t a, e.activity? t = some a ∧ a.control = .abort

/-- Where no panic can end the process, none can after a step either. -/
theorem MayAbort.of_happens (h : next.MayAbort) (hh : Happens e next) : e.MayAbort := by
  cases hh with
  | @goes t a b c ha hl =>
    have habout : a.control = .abort → e.MayAbort := fun hc => .inr (.inr ⟨t, a, ha, hc⟩)
    rcases h with h | hs | ⟨u, a', ha', hc⟩
    · rw [aborted_after] at h
      exact (hl.aborts.2 h).elim .inl habout
    · rw [handler_after, hl.strategy] at hs
      exact .inr (.inl hs)
    · rcases activity?_after ha' with ⟨-, rfl⟩ | ⟨-, hother⟩
      · exact (hl.aborts.1 hc).elim (fun hs => .inr (.inl hs)) habout
      · exact .inr (.inr ⟨u, a', hother, hc⟩)
  | turns hv hw =>
    rcases h with h | hs | ⟨u, a', ha', hc⟩
    · rw [aborted_afterTurn, hw.aborts.2] at h
      exact .inl h
    · rw [handler_afterTurn, hw.strategy] at hs
      exact .inr (.inl hs)
    · rcases activity?_afterTurn ha' with ⟨-, hb⟩ | ⟨-, hother⟩
      · exact absurd hc (hw.aborts.1 a' hb)
      · exact .inr (.inr ⟨u, a', hother, hc⟩)
  | ticks => exact h

theorem MayAbort.of_reachable (ho : e.Orderly) (hr : e.Reachable next) (h : next.MayAbort) :
    e.MayAbort := by
  induction hr with
  | refl => exact h
  | move m hr hm ih => exact ih (h.of_happens (happens_of_move (hr.orderly ho) hm))

/-- A callable in progress has been begun. -/
theorem Balanced.mem_startedIds (h : e.Balanced) (ha : e.activity? t = some a) {frame : Frame}
    (hf : frame ∈ a.frames) : frame.task ∈ e.startedIds frame.role := by
  have hrunning : 0 < a.running frame.role (· == frame.task) :=
    List.countP_pos_iff.2 ⟨frame, hf, by simp⟩
  have htotal := le_total (f := (·.running frame.role (· == frame.task))) rfl ha
  have hstarted := h.callables frame.role (· == frame.task)
  obtain ⟨id, hid, heq⟩ := List.countP_pos_iff.1 (Nat.lt_of_lt_of_le hrunning
    (Nat.le_trans htotal hstarted))
  exact eq_of_beq heq ▸ hid

/-- Panics are handled as the configuration says. One that is under way propagates, and has escaped
from a callback if it has not yet left all callables. It can end the process only where panics
abort. -/
structure Handled (e : Executor) : Prop where
  strategy : e.handler.strategy = e.config.panicStrategy
  unwinding : ∀ t a, e.activity? t = some a → a.control.unwinds = true →
    e.config.panicStrategy = .propagate ∧ (a.stack ≠ [] → e.CallbackEscaped)
  aborting : e.MayAbort → e.config.panicStrategy = .abort

theorem handled_initial (config : Config) (telemetry : Telemetry) (clock : Instant) :
    (initial config telemetry clock).Handled where
  strategy := rfl
  unwinding t a ha hu := by
    obtain ⟨rfl, -⟩ := activity?_initial ha
    cases hu
  aborting := by
    rintro (h | hs | ⟨t, a, ha, hc⟩)
    · cases h
    · exact hs
    · obtain ⟨rfl, -⟩ := activity?_initial ha
      cases hc

/-- A panic that leaves a callback has escaped from one: from this one, or from one before. -/
theorem Handled.leaves_callback (hi : e.Handled) (hbal : e.Balanced)
    (ha : e.activity? t = some a) (hl : Local e t a c b) (hb : b.control.unwinds = true)
    {frame : Frame} (hst : a.stack = frame :: b.stack) (hrole : frame.role = .callback) :
    (e.after t c b).CallbackEscaped := by
  have hh : Happens e (e.after t c b) := .goes ha hl
  obtain ⟨hs, ⟨top, rfl, hraised⟩ | ⟨hau, hne⟩⟩ := hl.unwinds hb
  · obtain rfl : top = frame := List.head_eq_of_cons_eq hst
    have hstarted := hbal.mem_startedIds ha (List.mem_cons_self : top ∈ top :: _)
    rw [hrole] at hstarted
    rw [hi.strategy] at hs
    refine ⟨by rwa [config_after], top.task, ?_, mem_gather_of_happens hh hstarted⟩
    rw [raisedIds, gather_after]
    exact List.mem_append_left _ hraised
  · exact ((hi.unwinding t a ha hau).2 hne).happens hh

theorem Handled.goes (hi : e.Handled) (ho : e.Orderly) (hbal : e.Balanced)
    (ha : e.activity? t = some a) (hl : Local e t a c b) : (e.after t c b).Handled where
  strategy := by rw [handler_after, config_after, hl.strategy, hi.strategy]
  unwinding u a' ha' hu := by
    rcases activity?_after ha' with ⟨rfl, rfl⟩ | ⟨-, hother⟩
    · obtain ⟨hs, hfrom⟩ := hl.unwinds hu
      rw [hi.strategy] at hs
      refine ⟨by rwa [config_after], fun hne => ?_⟩
      rcases hfrom with ⟨frame, rfl, -⟩ | ⟨hau, hstack⟩
      · have hst : Stacked _ (frame :: a'.stack) := ho _ _ ha
        rcases hst.tail with ⟨hrole, -⟩ | ⟨-, -, hnil⟩
        · exact hi.leaves_callback hbal ha hl hu rfl hrole
        · exact absurd hnil hne
      · exact ((hi.unwinding _ a ha hau).2 hstack).happens (.goes ha hl)
    · obtain ⟨hs, hesc⟩ := hi.unwinding u a' hother hu
      exact ⟨by rwa [config_after], fun hne => (hesc hne).happens (.goes ha hl)⟩
  aborting h := by
    rw [config_after]
    exact hi.aborting (h.of_happens (.goes ha hl))

theorem Handled.turns (hi : e.Handled) (hv : e.worker = v) (hw : WorkerStep e v c w) :
    (e.afterTurn c w).Handled where
  strategy := by rw [handler_afterTurn, config_afterTurn, hw.strategy, hi.strategy]
  unwinding u a' ha' hu := by
    rcases activity?_afterTurn ha' with ⟨rfl, rfl⟩ | ⟨-, hother⟩
    · cases hw with
      | run => cases hu
    · obtain ⟨hs, hesc⟩ := hi.unwinding u a' hother hu
      exact ⟨hs, fun hne => (hesc hne).happens (.turns hv hw)⟩
  aborting h := hi.aborting (h.of_happens (.turns hv hw))

theorem Handled.happens (hi : e.Handled) (ho : e.Orderly) (hbal : e.Balanced)
    (h : Happens e next) : next.Handled := by
  cases h with
  | goes ha hl => exact hi.goes ho hbal ha hl
  | turns hv hw => exact hi.turns hv hw
  | ticks nanos => exact ⟨hi.strategy, hi.unwinding, hi.aborting⟩

theorem handled_of_start {config : Config} {telemetry : Telemetry} {clock : Instant}
    {start last : Executor} (hs : Executor.start config telemetry clock = .ok start)
    (hr : start.Reachable last) : last.Handled :=
  invariant_of_start hs hr (handled_initial _ _ _)
    fun _ _ hb hi hh => hi.happens (orderly_of_start hs hb) (balanced_of_start hs hb) hh

/-- A panic ends the process only where the strategy says so. -/
theorem abort_of_aborted {config : Config} {telemetry : Telemetry} {clock : Instant}
    {start last : Executor} (hs : Executor.start config telemetry clock = .ok start)
    (hr : start.Reachable last) (h : last.aborted = true) : config.panicStrategy = .abort := by
  rw [← config_of_start hs hr]
  exact (handled_of_start hs hr).aborting (.inl h)

/-- Where panics abort, one in an action is counted and logged, and the process ends. -/
example : ((initial { panicStrategy := .abort } .stub ⟨0⟩).moves?
    ([.call 0 (.schedule
        { label := "first", due := .instant ⟨0⟩, action := .panic (.literal "boom") .done })] ++
      List.replicate 3 (.step (.caller 0)) ++ List.replicate 3 (.step .worker))).map
    (fun e => (e.aborted, e.handler.panicCount, e.trace.head?)) =
      some (true, 1, some ⟨.worker, .logged (.taskAborted "boom")⟩) := rfl

/-! ## What panics have unwound -/

/-- A panic has unwound the worker, or a call that a caller has made. -/
def HasUnwound (e : Executor) : Prop :=
  e.worker.deaths = 1 ∨ ∃ t payload, ⟨t, .unwound payload⟩ ∈ e.trace

/-- Nothing is lost by a step, and no panic unwinds a call in it. -/
def Change.Keeps (e : Executor) (t : ThreadId) (c : Change) : Prop :=
  (e.ledger.enterAll t c.events).lost = e.ledger.lost ∧ ∀ payload, .unwound payload ∉ c.events

theorem Opens.keeps {stack : List Frame} {request : Request} (h : Opens e t stack request c b) :
    Change.Keeps e t c := by
  cases h <;> simp [Change.Keeps, unchanged, Ledger.take]

theorem Catches.keeps {payload : Payload} {frame : Frame} {stack : List Frame}
    (h : Catches e payload frame stack c b) : Change.Keeps e t c := by
  cases h <;> simp [Change.Keeps, unchanged]

/-- Only a panic that leaves a thread loses what the thread had in hand. -/
theorem Local.keeps (h : Local e t a c b) :
    Change.Keeps e t c ∨ a.control.unwinds = true ∧ ∃ payload, .unwound payload ∈ c.events := by
  cases h with
  | opens _ ho | call _ ho => exact .inl ho.keeps
  | raise _ hc => exact .inl (by simpa [Change.Keeps] using hc.keeps (t := t))
  | unwind hc => exact .inl hc.keeps
  | leave => exact .inr ⟨rfl, _, List.mem_singleton_self _⟩
  | drain => exact .inl (by simp [Change.Keeps, Ledger.take])
  | _ => exact .inl (by simp [Change.Keeps, unchanged, Ledger.cancel, Ledger.close])

theorem WorkerStep.keeps (h : WorkerStep e v c w) :
    (Change.Keeps e .worker c ∧ v.deaths = 0 ∧ w.deaths = 0) ∨
      (∃ a, v = .busy a ∧ a.control.unwinds = true) ∧ w.deaths = 1 := by
  cases h with
  | die => exact .inr ⟨⟨_, rfl, rfl⟩, rfl⟩
  | _ => exact .inl ⟨by simp [Change.Keeps, unchanged], rfl, rfl⟩

/-- Nothing is lost unless a panic has unwound a thread, and a panic that does so propagates. -/
structure Lossless (e : Executor) : Prop where
  lost : ¬ e.HasUnwound → e.ledger.lost = []
  swallowed : e.HasUnwound → e.config.panicStrategy = .propagate

theorem lossless_initial (config : Config) (telemetry : Telemetry) (clock : Instant) :
    (initial config telemetry clock).Lossless where
  lost _ := rfl
  swallowed := by
    rintro (h | ⟨t, payload, h⟩)
    · cases h
    · simp [initial, log, note] at h

theorem hasUnwound_after (ha : e.activity? t = some a) :
    (e.after t c b).HasUnwound ↔ e.HasUnwound ∨ ∃ payload, .unwound payload ∈ c.events := by
  have hd := worker_after WorkerState.deaths (fun _ _ => rfl) (fun w => by cases w <;> rfl) ha
    (c := c) (b := b)
  simp only [HasUnwound, hd, trace_after, List.mem_append, List.mem_map]
  constructor
  · rintro (h | ⟨u, payload, ⟨event, hm, heq⟩ | h⟩)
    · exact .inl (.inl h)
    · obtain ⟨-, rfl⟩ := Entry.mk.inj heq
      exact .inr ⟨payload, hm⟩
    · exact .inl (.inr ⟨u, payload, h⟩)
  · rintro ((h | ⟨u, payload, h⟩) | ⟨payload, h⟩)
    · exact .inl h
    · exact .inr ⟨u, payload, .inr h⟩
    · exact .inr ⟨t, payload, .inl ⟨_, h, rfl⟩⟩

theorem Lossless.goes (hi : e.Lossless) (hh : e.Handled) (ha : e.activity? t = some a)
    (hl : Local e t a c b) : (e.after t c b).Lossless := by
  have hiff := hasUnwound_after (c := c) (b := b) ha
  rcases hl.keeps with ⟨hlost, hnone⟩ | ⟨hu, hsome⟩
  · have hsame : (e.after t c b).HasUnwound ↔ e.HasUnwound :=
      hiff.trans (or_iff_left fun ⟨payload, hp⟩ => hnone payload hp)
    refine ⟨fun h => ?_, fun h => ?_⟩
    · rw [ledger_after, hlost]
      exact hi.lost (mt hsame.2 h)
    · rw [config_after]
      exact hi.swallowed (hsame.1 h)
  · refine ⟨fun h => absurd (hiff.2 (.inr hsome)) h, fun _ => ?_⟩
    rw [config_after]
    exact (hh.unwinding t a ha hu).1

theorem Lossless.turns (hi : e.Lossless) (hh : e.Handled) (hv : e.worker = v)
    (hw : WorkerStep e v c w) : (e.afterTurn c w).Lossless := by
  rcases hw.keeps with ⟨⟨hlost, hnone⟩, hdv, hdw⟩ | ⟨⟨a, rfl, hu⟩, hd⟩
  · have hsame : (e.afterTurn c w).HasUnwound → e.HasUnwound := by
      rintro (h | ⟨u, payload, h⟩)
      · rw [worker_afterTurn, hdw] at h
        cases h
      · rcases List.mem_append.1 h with h | h
        · obtain ⟨event, hm, heq⟩ := List.mem_map.1 h
          obtain ⟨-, rfl⟩ := Entry.mk.inj heq
          exact absurd hm (hnone payload)
        · exact .inr ⟨u, payload, h⟩
    have hback : e.HasUnwound → (e.afterTurn c w).HasUnwound := by
      rintro (h | ⟨u, payload, h⟩)
      · rw [hv, hdv] at h
        cases h
      · exact .inr ⟨u, payload, List.mem_append_right _ h⟩
    refine ⟨fun h => ?_, fun h => hi.swallowed (hsame h)⟩
    rw [ledger_afterTurn, hlost]
    exact hi.lost (mt hback h)
  · exact ⟨fun h => absurd (.inl hd) h,
      fun _ => (hh.unwinding .worker a (activity?_worker.2 hv) hu).1⟩

theorem lossless_of_start {config : Config} {telemetry : Telemetry} {clock : Instant}
    {start last : Executor} (hs : Executor.start config telemetry clock = .ok start)
    (hr : start.Reachable last) : last.Lossless := by
  refine invariant_of_start hs hr (lossless_initial _ _ _) fun before next hb hi hh => ?_
  have hhandled := handled_of_start hs hb
  cases hh with
  | goes ha hl => exact hi.goes hhandled ha hl
  | turns hv hw => exact hi.turns hhandled hv hw
  | ticks => exact ⟨hi.lost, hi.swallowed⟩

theorem not_hasUnwound_of_swallows {config : Config} {telemetry : Telemetry} {clock : Instant}
    {start last : Executor} (hs : Executor.start config telemetry clock = .ok start)
    (hsw : config.panicStrategy.swallows = true) (hr : start.Reachable last) :
    ¬ last.HasUnwound := by
  intro h
  have hpropagate := (lossless_of_start hs hr).swallowed h
  rw [config_of_start hs hr] at hpropagate
  exact (PanicStrategy.ne_of_swallows hsw).1 hpropagate

end Executor

end Deferred
