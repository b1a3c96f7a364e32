import Deferred.Proofs.Executor.Report
import Deferred.Proofs.Executor.Return

/-!
# What the worker's death leaves behind

When a panic has ended the worker, the tasks that are pending stay so until a call removes them, and
no others come. The call that closes the executor tells of the panic, once, and settles the tasks.
Where panics are swallowed none of this happens, and the calls that cancel or close do not fail.

* `Executor.TakesAll`, `pending_of_move`: how the tasks that are left are removed.
* `DeadSince`: what holds from the worker's death on.
* `Unharmed`: what holds where panics are swallowed.
* `worker_death_contained`: all that there is to say about the worker's death.
-/

namespace Deferred

namespace Executor

variable {e next last : Executor} {t : ThreadId} {a b : Activity} {c : Change}
variable {stack : List Frame} {how : Closing}

/-! ## The tasks that are left -/

/-- A move removes all pending tasks: a call of `cancelAll` begins, or the call that closes the
executor has come to that. -/
def TakesAll (e next : Executor) : Prop :=
  ∃ t, (∃ stack, e.Calls t .cancelAll stack next) ∨
    ∃ how failure stack, e.activity? t = some ⟨.drain how failure, stack⟩ ∧
      e.move? (.step t) = some next

theorem Opens.pending_eq {request : Request} (h : Opens e t stack request c b) :
    c.guarded.pending = e.guarded.pending ∨ request = .cancelAll := by
  cases h with
  | cancelAll => exact .inr rfl
  | _ => exact .inl rfl

theorem Catches.guarded_eq {payload : Payload} {frame : Frame}
    (h : Catches e payload frame stack c b) : c.guarded = e.guarded := by
  cases h <;> rfl

/-- Once the worker is to end, no step of a thread but one that removes all tasks changes what is
pending. -/
theorem Local.pending_eq (h : Local e t a c b) (ht : e.guarded.terminating = true) :
    c.guarded.pending = e.guarded.pending ∨
      (∃ frame below rest, a = ⟨.ready, frame :: below⟩ ∧
        frame.rest.head = .call .cancelAll rest) ∨
      a = .idle ∨ ∃ how failure stack, a = ⟨.drain how failure, stack⟩ := by
  cases h with
  | opens => exact .inr (.inr (.inl rfl))
  | call hh ho =>
    rcases ho.pending_eq with hsame | rfl
    · exact .inl hsame
    · exact .inr (.inl ⟨_, _, _, rfl, hh⟩)
  | raise _ hc => exact .inl (congrArg Guarded.pending hc.guarded_eq :)
  | unwind hc => exact .inl (congrArg Guarded.pending hc.guarded_eq)
  | accept ha =>
    obtain ⟨-, hnot, -⟩ := Guarded.accept_ok ha
    rw [ht] at hnot
    cases hnot
  | discard | drain => exact .inr (.inr (.inr ⟨_, _, _, rfl⟩))
  | _ => exact .inl rfl

/-- The tasks that are left when the worker is to end stay pending until a call removes them all. -/
theorem pending_of_move (ho : e.Orderly) (ht : e.guarded.terminating = true)
    {m : Move} (hm : e.move? m = some next) :
    next.guarded.pending = e.guarded.pending ∨ e.TakesAll next := by
  cases makes_of_move ho hm with
  | @opens n request _ _ _ hop =>
    rcases hop.pending_eq with hsame | rfl
    · exact .inl hsame
    · exact .inr ⟨.caller n, .inl ⟨_, .caller hm⟩⟩
  | @goes t a _ ha hg =>
    cases hg with
    | continues hl =>
      rw [guarded_after]
      rcases hl.pending_eq ht with hsame | ⟨frame, below, rest, rfl, hh⟩ | rfl |
        ⟨how, failure, stack, rfl⟩
      · exact .inl hsame
      · exact .inr ⟨t, .inl ⟨_, .callable ha hh hm⟩⟩
      · cases advance_of_step ha hm
      · exact .inr ⟨t, .inr ⟨how, failure, stack, ha, hm⟩⟩
    | finishes _ hw => cases hw <;> exact .inl rfl
  | looks _ hw =>
    cases hw with
    | run hf =>
      rw [ht] at hf
      cases hf
    | _ => exact .inl rfl
  | wakes | ticks => exact .inl rfl

/-- The tasks that were pending when the worker was dead still are, or a call has removed them. -/
theorem pending_of_dead (ho : e.Orderly) (hi : e.Mortal) (hp : e.guarded.workerPanicked = true)
    (hr : e.Reachable last) :
    last.guarded.pending = e.guarded.pending ∨
      ∃ before next, e.Reachable before ∧ before.guarded.pending = e.guarded.pending ∧
        before.TakesAll next ∧ next.Reachable last := by
  induction hr with
  | refl => exact .inl rfl
  | @move before after m hb hm ih =>
    rcases ih with hsame | ⟨d, next, hd, hsame, htakes, hn⟩
    · obtain ⟨hmortal, hpanicked⟩ := lasts_panicked ho hi hp hb
      rcases pending_of_move (hb.orderly ho) (hmortal.terminating hpanicked) hm with hafter | htakes
      · exact .inl (hafter.trans hsame)
      · exact .inr ⟨before, after, hb, hsame, htakes, .refl⟩
    · exact .inr ⟨d, next, hd, hsame, htakes, hn.move m hm⟩

/-! ## From the death on -/

/-- What holds from the worker's death on, of which `dead` is any state. -/
structure DeadSince (dead e : Executor) : Prop where
  actions : e.startedIds .action = dead.startedIds .action
  /-- Every call that schedules a task is told that the worker is dead. -/
  schedule : ∀ t spec stack next, e.Calls t (.schedule spec) stack next → e.access = .available →
    ∀ deadline, spec.due.deadline e.clock = .ok deadline →
      next.Awaits t (.schedule spec.label) stack fun _ => .failed .workerDead
  pending : e.guarded.pending = dead.guarded.pending ∨
    ∃ before next, dead.Reachable before ∧ before.guarded.pending = dead.guarded.pending ∧
      before.TakesAll next ∧ next.Reachable e

theorem Awaits.congr {topic : Topic} {f g : Executor → Answer} (h : e.Awaits t topic stack f)
    (hfg : ∀ later, e.Reachable later → f later = g later) : e.Awaits t topic stack g := by
  intro last hl hrun
  obtain ⟨before, next, hb, hans, hcase⟩ := h last hl hrun
  exact ⟨before, next, hb, hfg before hb ▸ hans, hcase⟩

/-- A dead worker is dead for good. -/
theorem refusal_of_dead (ho : e.Orderly) (hi : e.Mortal) (hp : e.guarded.workerPanicked = true)
    (hr : e.Reachable last) : last.refusal = .workerDead := by
  obtain ⟨hmortal, hpanicked⟩ := lasts_panicked ho hi hp hr
  rw [hmortal.flag] at hpanicked
  obtain ⟨payload, hd⟩ := Option.isSome_iff_exists.1 hpanicked
  rw [refusal, WorkerState.death?_eq_some.1 hd]

theorem deadSince (ho : e.Orderly) (hi : e.Mortal) (hp : e.guarded.workerPanicked = true)
    (hr : e.Reachable last) : e.DeadSince last := by
  have hterm := hi.terminating hp
  obtain ⟨hmortal, hlast⟩ := lasts_terminating ho hi hterm hr
  refine ⟨actions_of_terminating ho hi hterm hr, fun t spec stack next hc hx deadline hd => ?_,
    pending_of_dead ho hi hp hr⟩
  refine (awaits_refusal (hr.orderly ho) hmortal hlast hc hx hd).congr fun later hl => ?_
  rw [refusal_of_dead ho hi hp ((hc.reachable hr).trans hl)]

/-! ## Where panics are swallowed -/

/-- What holds where panics are swallowed: the worker lives, and the calls that cancel or close are
answered, and do not fail. -/
structure Unharmed (e : Executor) : Prop where
  flag : e.guarded.workerPanicked = false
  unwound : ¬ e.HasUnwound
  cancelAll : ∀ t a batch stack next, e.activity? t = some a → a.Settles batch stack →
    batch.purpose = .cancelAll → e.Leaves t stack next →
      next.activity? t = some { stack } ∧
        next.trace.head? = some ⟨t, answerEvent .cancelAll stack (.count batch.removed)⟩
  closes : ∀ t how stack called, e.Calls t how.request stack called → e.access = .available →
    if e.joinable then ∀ closed, Outcome called t how stack closed →
      closed.activity? t = some { stack } ∧
        closed.trace.head? = some ⟨t, answerEvent how.topic stack .ok⟩
    else called = { e with access := how.access }.reply t how.topic stack .ok

section Runs

variable {config : Config} {telemetry : Telemetry} {clock : Instant} {start : Executor}

theorem not_unwind_of_swallows (hs : Executor.start config telemetry clock = .ok start)
    (hsw : config.panicStrategy.swallows = true) (hr : start.Reachable e) {payload : Payload}
    (ha : e.activity? t = some ⟨.unwind payload, stack⟩) : False := by
  have hpropagate := ((handled_of_start hs hr).unwinding t _ ha rfl).1
  rw [config_of_start hs hr] at hpropagate
  exact (PanicStrategy.ne_of_swallows hsw).1 hpropagate

/-- A panic ends the worker only where panics go on unwinding. -/
theorem propagates_of_death (hs : Executor.start config telemetry clock = .ok start)
    (hr : start.Reachable e) {payload : Payload} (hd : e.worker.death? = some payload) :
    config.panicStrategy = .propagate := by
  rw [← config_of_start hs hr]
  refine (lossless_of_start hs hr).swallowed (.inl ?_)
  rw [WorkerState.death?_eq_some.1 hd]
  rfl

theorem death?_of_swallows (hs : Executor.start config telemetry clock = .ok start)
    (hsw : config.panicStrategy.swallows = true) (hr : start.Reachable e) :
    ¬ e.HasUnwound ∧ e.worker.death? = none := by
  have hnone := not_hasUnwound_of_swallows hs hsw hr
  refine ⟨hnone, ?_⟩
  cases hd : e.worker.death? with
  | none => rfl
  | some payload => exact absurd (.inl (by rw [WorkerState.death?_eq_some.1 hd]; rfl)) hnone

theorem unharmed (hs : Executor.start config telemetry clock = .ok start)
    (hsw : config.panicStrategy.swallows = true) (hr : start.Reachable e) : e.Unharmed := by
  obtain ⟨hnone, hdeath⟩ := death?_of_swallows hs hsw hr
  refine ⟨by rw [(mortal_of_start hs hr).flag, hdeath]; rfl, hnone, ?_, ?_⟩
  · rintro t a batch stack next ha hset hp ⟨hm, b, hb, hback⟩
    cases goes_of_step (orderly_of_start hs hr) ha hm with
    | finishes _ hw => cases hw <;> cases Activity.not_settles_of_nil rfl rfl hset
    | @continues b' c hl =>
      obtain rfl : b' = b := Option.some.inj (activity?_after_self.symm.trans hb)
      rcases hl.settles_on hset with ⟨rest, -, hrest⟩ | ⟨-, rfl, earlier, he⟩ | ⟨payload, rfl⟩
      · exact absurd hback hrest.not_isBack
      · refine ⟨hb, ?_⟩
        rw [trace_after, he, hp, Batch.answer, hp]
        rfl
      · exact (not_unwind_of_swallows hs hsw (hr.move _ hm) hb).elim
  · intro t how stack called hc hx
    split
    · intro closed hout
      obtain ⟨before, a, hb, -, -, hleaves⟩ := hout.leaves
      have hreach := ((hc.reachable hr).trans hb).move _ hleaves.1
      rcases hout.answered with ⟨payload, hun⟩ | ⟨hact, htold⟩
      · exact (not_unwind_of_swallows hs hsw hreach hun).elim
      · have hfail : closed.failureFor t = none := by
          cases t with
          | worker => rfl
          | caller n => rw [failureFor, (death?_of_swallows hs hsw hreach).2, Option.map_none]
        rw [hfail] at htold
        exact ⟨hact, by cases how <;> exact htold⟩
    next hj =>
      rw [hc.eq_begin]
      cases how <;> simp only [Closing.request, begin, hx] <;>
        exact beginClosing_again (by simpa using hj)

/-! ## The whole story -/

/-- The first call that closes the executor comes to its end, unless a panic ends the process. -/
theorem exists_outcome (hs : Executor.start config telemetry clock = .ok start)
    (hr : start.Reachable e) {called : Executor} (hc : e.Calls t how.request stack called)
    (hx : e.access = .available) (hj : e.joinable = true) :
    ∃ closed, called.Reachable closed ∧ (Outcome called t how stack closed ∨
      config.panicStrategy = .abort ∧ closed.aborted = true) := by
  have ha : called.activity? t = some ⟨.flag how, stack⟩ :=
    hc.eq_flag hx hj ▸ activity?_setActivity_self ..
  obtain ⟨ts, before, a', hts, -, -, hended | ⟨closed, hleaves⟩⟩ :=
    exists_leaves hs (hc.reachable hr) ha (.inl ⟨rfl, rfl⟩)
  · exact ⟨before, Reachable.refl.of_moves _ hts, .inr hended⟩
  have hreach : called.Reachable closed := (Reachable.refl.of_moves _ hts).move _ hleaves.1
  obtain ⟨-, b, hb, hback⟩ := hleaves
  -- a thread that is back is at no stage of the call but the last
  have hnot : ∀ a, closed.activity? t = some a → ¬ a.Closes how stack := fun a ha hcl =>
    hcl.not_isBack (Option.some.inj (hb.symm.trans ha) ▸ hback)
  cases stage_of_calls hs hr hc hx hj hreach with
  | waits ha hw hst => exact absurd (.inl ⟨Control.closing?_of_waits? hw, hst⟩) (hnot _ ha)
  | drains ha => exact absurd (Activity.closes_drain ..) (hnot _ ha)
  | settles ha hset hp => exact absurd (.inr ⟨_, _, hp, hset⟩) (hnot _ ha)
  | ended hout =>
    obtain ⟨before, a, hb, -, -, hl⟩ := hout.leaves
    exact ⟨_, hb.move _ hl.1, .inl hout⟩

/-- **The worker's death.** The flag that tells of it is set if and only if a panic has ended the
worker, which takes the strategy that lets panics pass; it is set in the step in which a panic that
has left the worker's action ends the worker, once at most, and never cleared. From then on no
action is begun, every task is refused, and the tasks that are pending stay so until a call removes
them. The first call that closes the executor comes to its end, unless a panic ends the process; if
another thread has made it, it reports the panic of the worker once, and answers with its text
unless a panic leaves it. Where panics are swallowed the worker does not die, and the calls that
cancel or close neither fail nor unwind. -/
theorem worker_death_contained (hs : Executor.start config telemetry clock = .ok start)
    (hr : start.Reachable e) :
    (e.guarded.workerPanicked = true → e.guarded.terminating = true ∧
      config.panicStrategy = .propagate ∧ 0 < e.handler.panicCount ∧
      ∃ payload, e.worker = .died payload ∧ (e.panicsOf .worker).head? = some payload) ∧
    (e.gather Event.unwindings).length = e.guarded.workerPanicked.toNat ∧
    (∀ m next, e.move? m = some next →
      (e.guarded.terminating = true → next.guarded.terminating = true) ∧
      (e.guarded.workerPanicked = true → next.guarded.workerPanicked = true) ∧
      (e.guarded.workerPanicked = false ∧ next.guarded.workerPanicked = true ↔
        ∃ payload, e.worker = .busy ⟨.unwind payload, []⟩ ∧ next.worker = .died payload)) ∧
    (e.guarded.workerPanicked = true → ∀ last, e.Reachable last → e.DeadSince last) ∧
    (∀ t how stack called, e.Calls t how.request stack called → e.access = .available →
      e.joinable = true →
        (∃ closed, called.Reachable closed ∧ (Outcome called t how stack closed ∨
          config.panicStrategy = .abort ∧ closed.aborted = true)) ∧
        ∀ last, called.Reachable last → Stage called t how stack last) ∧
    (config.panicStrategy.swallows = true → e.Unharmed) := by
  have ho := orderly_of_start hs hr
  have hi := mortal_of_start hs hr
  refine ⟨fun hp => ?_, hi.told, fun m next hm => ?_, fun hp last hl => deadSince ho hi hp hl,
    fun t how stack called hc hx hj => ?_, fun hsw => unharmed hs hsw hr⟩
  · have hd := hp
    rw [hi.flag] at hd
    obtain ⟨payload, hd⟩ := Option.isSome_iff_exists.1 hd
    have hdied := WorkerState.death?_eq_some.1 hd
    have hcarries : e.Carries .worker payload := .inr ⟨rfl, hdied⟩
    exact ⟨hi.terminating hp, propagates_of_death hs hr hd, hi.counted _ _ hcarries, payload, hdied,
      hi.raised _ _ hcarries⟩
  · have hh := happens_of_move ho hm
    exact ⟨(flags_of_happens hi hh).1, (flags_of_happens hi hh).2, dies_iff hi hh⟩
  · exact ⟨exists_outcome hs hr hc hx hj, fun last hl => stage_of_calls hs hr hc hx hj hl⟩

end Runs

/-- A caller shuts down an executor whose worker a panic has ended, and is told of the panic when
the task that was left has been canceled. -/
theorem worker_death_contained_shutdown :
    ∃ dead called last,
      (initial { shutdownPolicy := .cancelPending } .stub ⟨0⟩).Reachable dead ∧
      dead.guarded.workerPanicked = true ∧ dead.guarded.terminating = true ∧ dead.DeadSince last ∧
      called.Reachable last ∧ Stage called (.caller 0) .shutdown [] last ∧
      last.reports.length = 1 ∧ last.startedIds .callback = [⟨2⟩] ∧
      last.trace.head? = some ⟨.caller 0, .returned (.failed (.workerPanic "boom"))⟩ := by
  obtain ⟨dead, called, last, hb, hp, hc, hx, hj, hl, hreports, hids, htold⟩ :
      ∃ dead called last,
        (initial { shutdownPolicy := .cancelPending } .stub ⟨0⟩).moves?
          [.call 0 (.schedule
            { label := "boom", due := .instant ⟨0⟩, action := .panic (.literal "boom") .done }),
            .step (.caller 0), .step (.caller 0), .step (.caller 0),
            .call 0 (.schedule { label := "late", due := .instant ⟨1000⟩, onCancel := some .done }),
            .step (.caller 0), .step (.caller 0), .step .worker, .step .worker, .step .worker] =
          some dead ∧
        dead.guarded.workerPanicked = true ∧
        dead.Calls (.caller 0) .shutdown [] called ∧ dead.access = .available ∧
        dead.joinable = true ∧
        called.moves? (List.replicate 8 (.step (.caller 0))) = some last ∧
        last.reports.length = 1 ∧ last.startedIds .callback = [⟨2⟩] ∧
        last.trace.head? = some ⟨.caller 0, .returned (.failed (.workerPanic "boom"))⟩ :=
    ⟨_, _, _, rfl, rfl, .caller rfl, rfl, rfl, rfl, rfl, rfl, rfl⟩
  have hs : Executor.start { shutdownPolicy := .cancelPending } .stub ⟨0⟩ = .ok _ := rfl
  have hdead := Reachable.refl.of_moves _ hb
  have hlast := Reachable.refl.of_moves _ hl
  obtain ⟨hflags, -, -, hsince, hcalls, -⟩ := worker_death_contained hs hdead
  obtain ⟨-, hstage⟩ := hcalls (.caller 0) .shutdown [] called hc hx hj
  exact ⟨dead, called, last, hdead, hp, (hflags hp).1,
    hsince hp last ((hc.reachable .refl).trans hlast), hlast, hstage last hlast,
    hreports, hids, htold⟩

end Executor

end Deferred
