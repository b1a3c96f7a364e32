import Deferred.Panic.Handler
import Mathlib.Data.List.Count

/-!
# Handlers inside handlers

A body makes calls of the handler that runs it, whose bodies make calls in turn. A panic that is
swallowed ends with the call whose body has raised it, and nothing outside can tell. One that
propagates goes through all the calls around it, each of which counts it, and what would have
followed in any of them is not run. One that aborts is counted once, and ends all of them together.

* `Body.inside` are the bodies inside a body, `Body.ending` is how the body itself ends.
* `Body.Place` is where the first panic of a body lies: below which calls, after which ones.
* `Handler.run_of_swallows`, `Handler.run_of_isCalm`: a body whose panics are swallowed, and one
  without panics.
* `Handler.execute_place`, `Handler.execute_place_of_abort`: a body whose first panic goes on
  unwinding, and one whose first panic ends the process.
* `Handler.execute_nested`: what a call of the handler comes to, for all bodies.
-/

namespace Deferred

namespace Body

/-! ## Bodies inside bodies -/

/-- How a body ends, if it gets that far. -/
def ending : Body → Ending
  | value v => .value v
  | panic payload => .panic payload
  | nest _ next => next.ending

theorem ending_ne_aborted (body : Body) : body.ending ≠ .aborted := by
  induction body with
  | value v => simp [ending]
  | panic payload => simp [ending]
  | nest _ next _ ih => exact ih

/-- The payload of a panic with which a body ends. -/
def Ending.payload? : Ending → Option Payload
  | value _ | aborted => none
  | panic payload => some payload

/-- What a call of the handler comes to whose body ends so, if it swallows panics. -/
def Ending.caught : Ending → Outcome
  | value v => .value v
  | panic payload => .failed payload.message
  | aborted => .aborted

/-- Whether a body itself panics. -/
def panics (body : Body) : Bool := body.ending.payload?.isSome

/-- The bodies of all the calls inside a body, in the order in which they end. -/
def inside : Body → List Body
  | value _ | panic _ => []
  | nest inner next => inner.inside ++ inner :: next.inside

/-- A body and all bodies inside it, in the order in which they end. -/
def bodies (body : Body) : List Body := body.inside ++ [body]

/-- Neither a body nor one inside it panics. -/
def IsCalm (body : Body) : Prop := ∀ b ∈ body.bodies, b.panics = false

instance (body : Body) : Decidable body.IsCalm :=
  inferInstanceAs (Decidable (∀ b ∈ body.bodies, b.panics = false))

theorem panics_nest (inner next : Body) : (nest inner next).panics = next.panics := rfl

theorem isCalm_nest {inner next : Body} :
    (nest inner next).IsCalm ↔ inner.IsCalm ∧ next.IsCalm := by
  simp only [IsCalm, bodies, inside, List.mem_append, List.mem_cons, List.not_mem_nil, or_false]
  constructor
  · intro h
    refine ⟨fun b hb => h b (.inl (hb.imp_right .inl)), fun b hb => ?_⟩
    rcases hb with hb | rfl
    · exact h b (.inl (.inr (.inr hb)))
    · exact panics_nest inner b ▸ h _ (.inr rfl)
  · rintro ⟨hinner, hnext⟩ b ((hb | rfl | hb) | rfl)
    · exact hinner b (.inl hb)
    · exact hinner b (.inr rfl)
    · exact hnext b (.inl hb)
    · exact hnext next (.inr rfl)

theorem isCalm_value (v : UInt64) : (value v).IsCalm := by
  simp [IsCalm, bodies, inside, panics, ending, Ending.payload?]

theorem not_isCalm_panic (payload : Payload) : ¬ (panic payload).IsCalm := by
  simp [IsCalm, bodies, inside, panics, ending, Ending.payload?]

/-! ## Where a panic lies -/

/-- A body in the midst of one of its calls: the calls it has made before, and how it goes on. -/
structure Context where
  before : List Body
  after : Body

/-- The body that makes some calls, one after the other, before it goes on as another body. -/
def following (before : List Body) (body : Body) : Body := before.foldr nest body

/-- The body that is in the midst of a call with a certain body. -/
def Context.fill (c : Context) (inner : Body) : Body := following c.before (nest inner c.after)

/-- Where a panic lies: in the midst of which bodies, the outermost first, and after which calls of
the body that raises it. -/
structure Place where
  contexts : List Context := []
  before : List Body := []
  payload : Payload

namespace Place

/-- The body in which the panic lies there. -/
def body (p : Place) : Body := p.contexts.foldr Context.fill (following p.before (panic p.payload))

/-- No panic comes before. -/
def IsFirst (p : Place) : Prop :=
  (∀ b ∈ p.before, b.IsCalm) ∧ ∀ c ∈ p.contexts, ∀ b ∈ c.before, b.IsCalm

instance (p : Place) : Decidable p.IsFirst :=
  inferInstanceAs
    (Decidable ((∀ b ∈ p.before, b.IsCalm) ∧ ∀ c ∈ p.contexts, ∀ b ∈ c.before, b.IsCalm))

/-- The number of calls of the handler that are under way at the panic. -/
def depth (p : Place) : Nat := p.contexts.length + 1

/-- The place seen from a body that makes one more call before. -/
def prepend (p : Place) (first : Body) : Place :=
  match p.contexts with
  | [] => { p with before := first :: p.before }
  | c :: contexts => { p with contexts := { c with before := first :: c.before } :: contexts }

/-- The place seen from a body that makes a call below which the panic lies. -/
def below (p : Place) (after : Body) : Place := { p with contexts := ⟨[], after⟩ :: p.contexts }

theorem body_prepend (p : Place) (first : Body) : (p.prepend first).body = nest first p.body := by
  unfold prepend
  split
  next h => simp [body, h, following]
  next h => simp [body, h, Context.fill, following]

theorem isFirst_prepend {p : Place} {first : Body} (hp : p.IsFirst) (h : first.IsCalm) :
    (p.prepend first).IsFirst := by
  obtain ⟨hbefore, hcontexts⟩ := hp
  unfold prepend
  split
  next => exact ⟨List.forall_mem_cons.2 ⟨h, hbefore⟩, hcontexts⟩
  next c contexts hcs =>
    rw [hcs, List.forall_mem_cons] at hcontexts
    exact ⟨hbefore, List.forall_mem_cons.2 ⟨List.forall_mem_cons.2 ⟨h, hcontexts.1⟩, hcontexts.2⟩⟩

theorem isFirst_below {p : Place} (hp : p.IsFirst) (after : Body) : (p.below after).IsFirst := by
  simpa [below, IsFirst] using hp

end Place

/-- Every body that is not calm has a first panic. -/
theorem exists_place {body : Body} (h : ¬ body.IsCalm) :
    ∃ p : Place, p.IsFirst ∧ p.body = body := by
  induction body with
  | value v => exact absurd (isCalm_value v) h
  | panic payload => exact ⟨{ payload }, by simp [Place.IsFirst], rfl⟩
  | nest inner next ihinner ihnext =>
    by_cases hinner : inner.IsCalm
    · -- the call comes to its end, so that the first panic is one of what follows
      obtain ⟨p, hp, hbody⟩ := ihnext fun hnext => h (isCalm_nest.2 ⟨hinner, hnext⟩)
      exact ⟨p.prepend inner, Place.isFirst_prepend hp hinner, by rw [p.body_prepend, hbody]⟩
    · obtain ⟨p, hp, hbody⟩ := ihinner hinner
      exact ⟨p.below next, Place.isFirst_below hp next, congrArg (nest · next) hbody⟩

end Body

namespace Handler

open Body

/-! ## Running bodies -/

/-- The handler after so many more panics have reached it. -/
def counting (h : Handler) (n : Nat) : Handler := { h with panicCount := h.panicCount + n }

/-- The lines that the handler logs when a body has ended, if it swallows panics. -/
def logs (h : Handler) : Ending → List Body.Event
  | .value _ | .aborted => []
  | .panic payload => (h.warning payload).toList.map .logged

/-- What can be seen of calls of the handler that have been made inside, one after the other. -/
def report (h : Handler) (calls : List Body) : List Body.Event :=
  calls.flatMap fun b =>
    h.logs b.ending ++ b.ending.payload?.toList.map fun payload => .innerFailed payload.message

variable {h : Handler} {body : Body}

@[simp] theorem counting_zero (h : Handler) : h.counting 0 = h := rfl

@[simp] theorem counting_counting (h : Handler) (m n : Nat) :
    (h.counting m).counting n = h.counting (m + n) := by
  simp [counting, Nat.add_assoc]

@[simp] theorem report_counting (h : Handler) (n : Nat) : (h.counting n).report = h.report := rfl

@[simp] theorem report_nil (h : Handler) : h.report [] = [] := rfl

@[simp] theorem report_append (h : Handler) (first later : List Body) :
    h.report (first ++ later) = h.report first ++ h.report later :=
  List.flatMap_append ..

@[simp] theorem report_cons (h : Handler) (b : Body) (later : List Body) :
    h.report (b :: later) =
      h.logs b.ending ++
        b.ending.payload?.toList.map (fun payload => .innerFailed payload.message) ++
          h.report later :=
  List.flatMap_cons ..

/-- What the handler makes of an end if it swallows panics. -/
theorem conclude_of_swallows (hs : h.strategy.swallows = true) (n : Nat) (events : List Body.Event)
    (ending : Ending) :
    conclude (h.counting n, events, ending) =
      (h.counting (n + ending.payload?.toList.length), events ++ h.logs ending, ending.caught) := by
  cases ending with
  | value v => simp [conclude, logs, Ending.payload?, Ending.caught]
  | aborted => simp [conclude, logs, Ending.payload?, Ending.caught]
  | panic payload =>
    have hstrategy : (h.counting n).strategy = h.strategy := rfl
    rw [conclude, hstrategy]
    cases hk : h.strategy with
    | propagate | abort => simp [hk, PanicStrategy.swallows] at hs
    | isolate | logAndContinue => rfl

theorem countP_panics_cons (b : Body) (later : List Body) :
    (b :: later).countP (·.panics) =
      b.ending.payload?.toList.length + later.countP (·.panics) := by
  rw [List.countP_cons, Nat.add_comm, panics]
  cases b.ending.payload? <;> rfl

/-- If panics are swallowed, every body comes to its own end, whatever happens inside it. -/
theorem run_of_swallows (hs : h.strategy.swallows = true) (body : Body) :
    h.run body =
      (h.counting (body.inside.countP (·.panics)), h.report body.inside, body.ending) := by
  induction body generalizing h with
  | value v => rfl
  | panic payload => rfl
  | nest inner next ihinner ihnext =>
    -- the call is over in either way, and the body goes on with a handler that has counted more
    have hnext := fun n => @ihnext (h.counting n) hs
    rw [run, ihinner hs, conclude_of_swallows hs]
    simp only [inside, List.countP_append, countP_panics_cons, report_append, report_cons, ending]
    cases hend : inner.ending with
    | value v =>
      simp [Ending.caught, Ending.payload?, hnext, logs]
    | panic payload =>
      simp [Ending.caught, Ending.payload?, hnext, logs, Nat.add_assoc]
    | aborted => exact absurd hend inner.ending_ne_aborted

/-- A body without panics comes to its end, and nothing is counted or logged. -/
theorem run_of_isCalm (hc : body.IsCalm) :
    ∃ v, body.ending = .value v ∧ h.run body = (h, [], .value v) := by
  induction body with
  | value v => exact ⟨v, rfl, rfl⟩
  | panic payload => exact absurd hc (not_isCalm_panic payload)
  | nest inner next ihinner ihnext =>
    obtain ⟨hinner, hnext⟩ := isCalm_nest.1 hc
    obtain ⟨u, -, hinner⟩ := ihinner hinner
    obtain ⟨v, hend, hnext⟩ := ihnext hnext
    exact ⟨v, hend, by simp [run, hinner, conclude, hnext]⟩

/-- Calls without panics leave no trace. -/
theorem run_following {before : List Body} (hc : ∀ b ∈ before, b.IsCalm) :
    h.run (following before body) = h.run body := by
  induction before with
  | nil => rfl
  | cons first before ih =>
    obtain ⟨hfirst, hbefore⟩ := List.forall_mem_cons.1 hc
    obtain ⟨v, -, hfirst⟩ := run_of_isCalm (h := h) hfirst
    simp only [following, List.foldr_cons, run, hfirst, conclude, List.nil_append]
    exact ih hbefore

/-- A panic that goes on unwinding ends the call in whose body it comes, and the body around it. -/
theorem run_fill {c : Context} {inner : Body} {payload : Payload} {n : Nat}
    (hs : h.strategy = .propagate) (hc : ∀ b ∈ c.before, b.IsCalm)
    (hrun : h.run inner = (h.counting n, [], .panic payload)) :
    h.run (c.fill inner) = (h.counting (n + 1), [], .panic payload) := by
  have hs : (h.counting n).strategy = .propagate := hs
  rw [Context.fill, run_following hc, run, hrun, conclude, hs]
  rfl

/-- The first panic that propagates ends all the calls under way, each of which counts it. What
would have followed in any of their bodies does not matter. -/
theorem execute_place (hs : h.strategy = .propagate) {p : Place} (hp : p.IsFirst) :
    h.execute p.body = (h.counting p.depth, [], .unwound p.payload) := by
  obtain ⟨contexts, before, payload⟩ := p
  obtain ⟨hbefore, hcontexts⟩ := hp
  have hrun : h.run (Place.body ⟨contexts, before, payload⟩) =
      (h.counting contexts.length, [], .panic payload) := by
    induction contexts with
    | nil => exact run_following hbefore
    | cons c contexts ih =>
      obtain ⟨hc, hcontexts⟩ := List.forall_mem_cons.1 hcontexts
      exact run_fill hs hc (ih hbefore hcontexts)
  have hs : (h.counting contexts.length).strategy = .propagate := hs
  rw [execute, hrun, conclude, hs]
  rfl

/-- When the process has ended below a call, it has ended. -/
theorem execute_fill_of_aborted {c : Context} {inner : Body} {last : Handler}
    {events : List Body.Event} (hc : ∀ b ∈ c.before, b.IsCalm)
    (hinner : h.execute inner = (last, events, .aborted)) :
    h.execute (c.fill inner) = (last, events, .aborted) := by
  rw [execute] at hinner
  rw [execute, Context.fill, run_following hc, run, hinner]
  rfl

/-- The first panic that aborts is counted and logged by the call in whose body it comes, and ends
the process. What would have followed does not matter. -/
theorem execute_place_of_abort (hs : h.strategy = .abort) {p : Place} (hp : p.IsFirst) :
    h.execute p.body =
      (h.count, [.logged (.taskAborted p.payload.message)], .aborted) := by
  obtain ⟨contexts, before, payload⟩ := p
  obtain ⟨hbefore, hcontexts⟩ := hp
  induction contexts with
  | nil =>
    have hrun : h.run (following before (panic payload)) = (h, [], .panic payload) :=
      run_following hbefore
    rw [Place.body, List.foldr_nil, execute, hrun, conclude, hs]
    rfl
  | cons c contexts ih =>
    obtain ⟨hc, hcontexts⟩ := List.forall_mem_cons.1 hcontexts
    exact execute_fill_of_aborted hc (ih hbefore hcontexts)

/-! ## Calls of the handler -/

/-- What a call of the handler comes to. If panics are swallowed, it fails if and only if its own
body panics, with the text of that panic, as do the calls inside it, and one panic is counted for
each body that panics. If they propagate, the first panic unwinds the call as it was raised, counted
once for each call under way, whatever would have followed it; no call ever fails. If they abort,
the first panic is counted once, logged, and the process has ended. Without a panic all strategies
come to the same. -/
theorem execute_nested (h : Handler) (body : Body) :
    (h.strategy.swallows = true →
      h.execute body =
        (h.counting (body.bodies.countP (·.panics)), h.report body.inside ++ h.logs body.ending,
          body.ending.caught)) ∧
    (h.strategy = .propagate →
      (∀ message, (h.execute body).2.2 ≠ .failed message) ∧
      (∀ p : Place, p.IsFirst →
        h.execute p.body = (h.counting p.depth, [], .unwound p.payload)) ∧
      (¬ body.IsCalm → ∃ p : Place, p.IsFirst ∧ p.body = body)) ∧
    (h.strategy = .abort → ∀ p : Place, p.IsFirst →
      h.execute p.body =
        (h.count, [.logged (.taskAborted p.payload.message)], .aborted)) ∧
    (body.IsCalm → ∃ v, body.ending = .value v ∧ h.execute body = (h, [], .value v)) := by
  have hcalm : body.IsCalm → ∃ v, body.ending = .value v ∧ h.execute body = (h, [], .value v) := by
    intro hc
    obtain ⟨v, hend, hrun⟩ := run_of_isCalm (h := h) hc
    exact ⟨v, hend, by rw [execute, hrun, conclude]⟩
  refine ⟨fun hs => ?_, fun hs => ?_, fun hs p hp => execute_place_of_abort hs hp, hcalm⟩
  · rw [execute, run_of_swallows hs, conclude_of_swallows hs, bodies, List.countP_append,
      countP_panics_cons, List.countP_nil, Nat.add_zero]
  · refine ⟨fun message => ?_, fun p hp => execute_place hs hp, exists_place⟩
    by_cases hc : body.IsCalm
    · obtain ⟨v, -, hv⟩ := hcalm hc
      simp [hv]
    · obtain ⟨p, hp, rfl⟩ := exists_place hc
      simp [execute_place hs hp]

/-- A call whose body makes a call that panics two levels below, then another one that panics, and
then panics itself: the three panics are swallowed where they come up, the first of them unwinds all
three calls under way, or it ends the process. -/
theorem execute_nested_thrice :
    let first : Body := .nest (.value 1) (.nest (.panic .value) (.value 2))
    let body : Body := .nest first (.nest (.panic (.owned "second")) (.panic (.literal "third")))
    execute { strategy := .logAndContinue } body =
        ({ strategy := .logAndContinue, panicCount := 3 },
          [.logged (.taskPanicked "Unknown panic"), .innerFailed "Unknown panic",
            .logged (.taskPanicked "second"), .innerFailed "second",
            .logged (.taskPanicked "third")], .failed "third") ∧
      execute { strategy := .propagate } body =
        ({ strategy := .propagate, panicCount := 3 }, [], .unwound .value) ∧
      execute { strategy := .abort } body =
        ({ strategy := .abort, panicCount := 1 }, [.logged (.taskAborted "Unknown panic")],
          .aborted) ∧
      execute { strategy := .propagate } (.nest (.value 1) (.value 2)) =
        ({ strategy := .propagate }, [], .value 2) := by
  intro first body
  let place : Place :=
    { contexts := [⟨[], .nest (.panic (.owned "second")) (.panic (.literal "third"))⟩,
        ⟨[.value 1], .value 2⟩], payload := .value }
  obtain ⟨hswallowed, -, -⟩ := execute_nested { strategy := .logAndContinue } body
  obtain ⟨-, hunwound, -⟩ := execute_nested { strategy := .propagate } body
  obtain ⟨-, -, haborted, -⟩ := execute_nested { strategy := .abort } body
  obtain ⟨-, -, -, hcalm⟩ := execute_nested { strategy := .propagate } (.nest (.value 1) (.value 2))
  obtain ⟨v, hend, hrun⟩ := hcalm (by decide)
  obtain rfl : 2 = v := Body.Ending.value.inj hend
  exact ⟨hswallowed (by decide), (hunwound rfl).2.1 place (by decide), haborted rfl place (by decide),
    hrun⟩

end Handler

end Deferred
