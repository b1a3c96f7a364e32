import Deferred.Proofs.Executor.Isolation
import Deferred.Proofs.Executor.PanicCount

/-!
# Strategies without panics

What becomes of a panic depends on the strategy, and nothing else does. Two strategies that swallow
panics differ in what is logged, so that executors with the one and with the other run side by side;
and until a callable panics so do executors with any two strategies.

* `Executor.View.impartial`: what is seen, without the warnings and the name of the strategy.
* `Guise.under`: the executor with another strategy.
* `Guise.moves?_under`: without a panic it makes the same moves.
* `strategy_matters_only_for_panics`: what is seen under two strategies.
-/

namespace Deferred

/-! ## What does not tell of the strategy -/

/-- What happens under a strategy when an event happens under another one: the start of the executor
names it, and no panic is warned about. -/
def Event.under (s : PanicStrategy) : Event → Option Event
  | logged (.taskPanicked _) => none
  | logged (.executorStarted name _ policy) => some (.logged (.executorStarted name s policy))
  | event => some event

namespace Executor.View

/-- What is seen, without the warnings about panics and with the same name for all strategies. -/
def impartial (v : View) : View := v.sift (Event.under default)

/-- The panics that callables have raised, the latest first. -/
def panics (v : View) : List Payload := v.trace.flatMap fun entry => entry.event.panics

/-- Another strategy in between is not seen. -/
theorem impartial_sift_under (v : View) (s : PanicStrategy) :
    (v.sift (Event.under s)).impartial = v.impartial := by
  have hentry : ∀ entry : Entry, (Entry.sift (Event.under s) entry).bind
      (Entry.sift (Event.under default)) = Entry.sift (Event.under default) entry := by
    rintro ⟨t, event⟩
    cases event with
    | logged line => cases line <;> rfl
    | _ => rfl
  simp only [impartial, sift, List.filterMap_filterMap, hentry]

end Executor.View

/-! ## The guise -/

namespace Guise

/-- An executor with another strategy. -/
def under (s : PanicStrategy) : Guise where
  strategy _ := s
  event := Event.under s

variable {s u : PanicStrategy} {e : Executor} {t : ThreadId}

theorem under_faithful (s : PanicStrategy) : (under s).Faithful where
  finish h := h
  call {_ rest request} h := by
    rw [show (under s).script = id from rfl, request.map_id]
    exact h
  update _ _ _ := rfl
  panicked _ _ := rfl
  read _ _ := rfl
  returned := rfl
  uncounted := rfl
  neutral {event} h := by
    cases event with
    | logged line =>
      cases line with
      | taskPanicked | executorStarted => cases h
      | _ => rfl
    | _ => rfl
  started _ _ _ := rfl

theorem view_under (v : Executor.View) : (under s).view v = v.sift (Event.under s) := by
  simp [view, under, Executor.View.sift]

/-- Panics that are swallowed are so without a warning too. -/
theorem keepsPanics_under_isolate (hs : s.swallows = true) : (under .isolate).KeepsPanics s where
  swallows := hs.symm
  strategy h := absurd hs (by simp [h])
  count _ := rfl
  swallowed := rfl
  raise h := h
  raised _ _ := rfl
  aborted _ := rfl
  warned _ _ := rfl
  silent _ := rfl

end Guise

/-! ## Runs without a panic -/

namespace Executor

variable {e start next last : Executor} {t : ThreadId} {frame : Frame} {stack : List Frame}
variable {payload : Payload}

/-- A callable that goes on to panic leaves a trace of it. -/
theorem mem_panics_of_raise (ho : e.Orderly) (ha : e.activity? t = some ⟨.ready, frame :: stack⟩)
    (hhead : frame.rest.head = .raise payload) (hstep : e.step? t = some next) :
    payload ∈ next.panics := by
  cases goes_of_step ho ha hstep with
  | finishes _ hw => cases hw
  | continues hl =>
    cases hl with
    | finish hh | call hh _ =>
      rw [hhead] at hh
      cases hh
    | raise hh hc =>
      obtain rfl := Script.Head.raise.inj (hhead.symm.trans hh)
      rw [panics, gather_after, List.flatMap_append]
      simp

/-- A panic that is under way has been raised. -/
theorem panics_ne_nil_of_unwind (hm : e.Mortal)
    (ha : e.activity? t = some ⟨.unwind payload, stack⟩) : e.panics ≠ [] := by
  intro hnone
  have hraised := hm.raised t payload (.inl ⟨stack, ha⟩)
  have hof : e.panicsOf t = [] := List.flatMap_eq_nil_iff.2 fun entry hentry => by
    split
    · exact List.flatMap_eq_nil_iff.1 hnone entry hentry
    · rfl
  rw [hof] at hraised
  cases hraised

/-- A panic that has been raised stays on record. -/
theorem mem_panics_of_reachable (ho : e.Orderly) (hr : e.Reachable last) (hp : payload ∈ e.panics) :
    payload ∈ last.panics :=
  hr.happens_invariant (P := fun e => payload ∈ e.panics) ho hp
    fun _ _ _ hi hh => mem_gather_of_happens hh hi

/-- Without a panic at last there has been none before. -/
theorem panics_eq_nil_of_reachable (ho : e.Orderly) (hr : e.Reachable last)
    (hp : last.panics = []) : e.panics = [] := by
  refine List.eq_nil_iff_forall_not_mem.2 fun payload hpayload => ?_
  have hlast := mem_panics_of_reachable ho hr hpayload
  rw [hp] at hlast
  cases hlast

end Executor

namespace Guise

variable {s : PanicStrategy} {e start next last : Executor} {t : ThreadId}

/-- In a step after which no callable has panicked there is no panic to be met. -/
theorem meets_under (ho : e.Orderly) (hm : e.Mortal) (hstep : e.step? t = some next)
    (hp : next.panics = []) {a : Activity} (ha : e.activity? t = some a) :
    (under s).Meets e t a := by
  obtain ⟨control, stack⟩ := a
  cases stack with
  | nil => cases control <;> trivial
  | cons frame stack =>
    cases control with
    | ready =>
      intro payload hhead
      have hraised := Executor.mem_panics_of_raise ho ha hhead hstep
      rw [hp] at hraised
      cases hraised
    | unwind payload =>
      have hr : e.Reachable next := .move (.step t) .refl hstep
      exact absurd (Executor.panics_eq_nil_of_reachable ho hr hp)
        (Executor.panics_ne_nil_of_unwind hm ha)
    | _ => trivial

/-- **A run without a panic is the same under all strategies.** -/
theorem moves?_under (ho : e.Orderly) (hm : e.Mortal) {ms : List Move}
    (hmoves : e.moves? ms = some last) (hp : last.panics = []) :
    ((under s).executor e).moves? ms = some ((under s).executor last) := by
  induction ms generalizing e with
  | nil =>
    obtain rfl := Option.some.inj hmoves
    rfl
  | cons m ms ih =>
    obtain ⟨next, hfirst, hrest⟩ := Option.bind_eq_some_iff.1 hmoves
    have hhappens := Executor.happens_of_move ho hfirst
    -- other threads may be about to panic, but the one that moves does not: its panic would last
    have hnext : next.panics = [] :=
      Executor.panics_eq_nil_of_reachable (ho.happens hhappens) (.of_moves .refl ms hrest) hp
    have hmove := move?_executor (e := e) (under_faithful s) m fun t a hstep ha =>
      meets_under ho hm (hstep ▸ hfirst : e.move? (.step t) = some next) hnext ha
    rw [show (under s).script = id from rfl, m.map_id, hfirst] at hmove
    rw [Executor.moves?, hmove]
    exact ih (ho.happens hhappens) (hm.happens hhappens) hrest

end Guise

/-! ## What is seen -/

namespace Executor

variable (config : Config) (telemetry : Telemetry) (clock : Instant) (refusal : Option SystemError)

/-- Under a strategy that swallows panics the same is seen as where they are isolated. -/
theorem observe_isolate (hs : config.panicStrategy.swallows = true) (ms : List Move) :
    observe { config with panicStrategy := .isolate } telemetry clock refusal ms =
      (observe config telemetry clock refusal ms).map
        (Option.map (View.sift (Event.under .isolate))) := by
  have hmeets := Guise.meetsAll_of_keeps (Guise.keepsPanics_under_isolate hs) telemetry clock
  have hrun := Guise.observe_executor (Guise.under_faithful .isolate) hmeets refusal ms
  rwa [show (Guise.under .isolate).script = id from rfl, map_moves_id,
    funext Guise.view_under] at hrun

theorem impartial_observe_isolate (hs : config.panicStrategy.swallows = true) (ms : List Move) :
    (observe { config with panicStrategy := .isolate } telemetry clock refusal ms).map
        (Option.map View.impartial) =
      (observe config telemetry clock refusal ms).map (Option.map View.impartial) := by
  rw [observe_isolate config telemetry clock refusal hs]
  cases observe config telemetry clock refusal ms with
  | error error => rfl
  | ok seen =>
    cases seen with
    | none => rfl
    | some v => exact congrArg (fun v => Except.ok (some v)) (v.impartial_sift_under .isolate)

/-- What is seen of a run without a panic is the same under all strategies. -/
theorem observe_under {s : PanicStrategy} {v : View} {ms : List Move}
    (hv : observe config telemetry clock refusal ms = .ok (some v)) (hp : v.panics = []) :
    observe { config with panicStrategy := s } telemetry clock refusal ms =
      .ok (some (v.sift (Event.under s))) := by
  have hstart : start { config with panicStrategy := s } telemetry clock refusal =
      (start config telemetry clock refusal).map (Guise.under s).executor :=
    Guise.start_executor (Guise.under_faithful s) config telemetry clock refusal
  unfold observe at hv ⊢
  cases hs : start config telemetry clock refusal with
  | error error =>
    rw [hs] at hv
    cases hv
  | ok first =>
    rw [hs] at hv hstart
    obtain ⟨last, hmoves, rfl⟩ := Option.map_eq_some_iff.1 (Except.ok.inj hv)
    have hunder := Guise.moves?_under (s := s) (orderly_of_start (start_of_ok hs) .refl)
      (mortal_of_start (start_of_ok hs) .refl) hmoves hp
    have hview := Guise.view_executor (Guise.under_faithful s) last
    rw [Guise.view_under] at hview
    rw [hstart]
    simp only [Except.map, hunder, Option.map_some, hview]

/-- **The strategy matters only for panics.** Under two strategies that swallow panics an executor
is seen to do the same, move by move, but for the warnings that are logged and the name of the
strategy at the start; and if by then no callable has panicked, so it is under any two
strategies. -/
theorem strategy_matters_only_for_panics (ms : List Move) (s u : PanicStrategy) :
    (s.swallows = true → u.swallows = true →
      (observe { config with panicStrategy := u } telemetry clock refusal ms).map
          (Option.map View.impartial) =
        (observe { config with panicStrategy := s } telemetry clock refusal ms).map
          (Option.map View.impartial)) ∧
      ∀ v, observe { config with panicStrategy := s } telemetry clock refusal ms = .ok (some v) →
        v.panics = [] →
          ∃ w, observe { config with panicStrategy := u } telemetry clock refusal ms =
              .ok (some w) ∧
            w.impartial = v.impartial := by
  refine ⟨fun hs hu => ?_, fun v hv hp => ?_⟩
  · -- both are compared with the third one, which neither warns nor lets panics go on
    have hleft :=
      impartial_observe_isolate { config with panicStrategy := u } telemetry clock refusal hu ms
    have hright :=
      impartial_observe_isolate { config with panicStrategy := s } telemetry clock refusal hs ms
    exact hleft.symm.trans hright
  · exact ⟨_, observe_under { config with panicStrategy := s } telemetry clock refusal hv hp,
      v.impartial_sift_under u⟩

/-- With panics in a callback and in an action the two strategies that swallow them agree; cut off
before they would panic, the same callables come to the same where panics go on unwinding. -/
theorem strategy_matters_only_for_panics_nested :
    (∃ v, observe { panicStrategy := .isolate } (.kept {}) ⟨0⟩ none panickingRun = .ok (some v) ∧
      v.panicCount = 3 ∧
      (observe { panicStrategy := .logAndContinue } (.kept {}) ⟨0⟩ none panickingRun).map
        (Option.map View.impartial) = .ok (some v.impartial)) ∧
      ∃ v w, observe { panicStrategy := .isolate } (.kept {}) ⟨0⟩ none
          (panickingRun.map (Move.map Script.cut)) = .ok (some v) ∧
        observe { panicStrategy := .propagate } (.kept {}) ⟨0⟩ none
          (panickingRun.map (Move.map Script.cut)) = .ok (some w) ∧
        w.impartial = v.impartial := by
  constructor
  · obtain ⟨v, hv, hp⟩ : ∃ v,
        observe { panicStrategy := .isolate } (.kept {}) ⟨0⟩ none panickingRun = .ok (some v) ∧
          v.panicCount = 3 := by
      refine ⟨_, rfl, ?_⟩
      rfl
    refine ⟨v, hv, hp, ?_⟩
    have hagree := (strategy_matters_only_for_panics {} (.kept {}) ⟨0⟩ none panickingRun .isolate
      .logAndContinue).1 rfl rfl
    rw [hv] at hagree
    exact hagree
  · obtain ⟨v, hv, hp⟩ : ∃ v, observe { panicStrategy := .isolate } (.kept {}) ⟨0⟩ none
        (panickingRun.map (Move.map Script.cut)) = .ok (some v) ∧ v.panics = [] := by
      refine ⟨_, rfl, ?_⟩
      rfl
    obtain ⟨w, hw, hagree⟩ := (strategy_matters_only_for_panics {} (.kept {}) ⟨0⟩ none
      (panickingRun.map (Move.map Script.cut)) .isolate .propagate).2 v hv hp
    exact ⟨v, w, hv, hw, hagree⟩

end Executor

end Deferred
