import Deferred.Proofs.Executor.Closing
import Deferred.Proofs.Executor.Settlement

/-!
# Closing an executor

The first call that closes the executor tells the worker to end and waits until it has, unless the
worker itself makes the call. Then it removes what is left in one step, and drops it or calls it
back. Nothing is pending afterwards, however the call comes out.

* `WindsDown`: what holds from the step on by which the worker is told to end.
* `knows_of_drain`: whoever removes what is left has waited for the worker, or is the worker.
* `Discards`, `Clears`: what becomes of the tasks that are left.
* `ShutsDown`, `shuts_down`: all that there is to say about such a call.
-/

namespace Deferred

namespace Executor

variable {e next called last : Executor} {t u : ThreadId} {a b : Activity} {c : Change}
variable {stack : List Frame} {how : Closing} {failure : Option Error}

/-! ## When the worker has been told to end -/

/-- What holds in every state after `flagged`, in which the worker is to end: no action is begun,
and every call that schedules a task fails. -/
structure WindsDown (flagged e : Executor) : Prop where
  terminating : e.guarded.terminating = true
  actions : e.startedIds .action = flagged.startedIds .action
  accepted : e.acceptedIds = flagged.acceptedIds
  /-- A call that cannot reach the executor is told so; one that can is told that its deadline lies
  beyond the end of the clock, or will be refused by its next step. -/
  schedule : ∀ u spec below next, e.Calls u (.schedule spec) below next →
    e.access ≠ .available ∧ next = e.reply u (.schedule spec.label) below .gone ∨
    (∃ error, spec.due.deadline e.clock = .error error ∧
      next = e.reply u (.schedule spec.label) below (.failed error)) ∨
    next.Awaits u (.schedule spec.label) below fun later => .failed later.refusal
  /-- So will one that has already made its task. -/
  enqueue : ∀ u task below, e.activity? u = some ⟨.enqueue task, below⟩ →
    e.Awaits u (.schedule task.label) below fun later => .failed later.refusal

theorem windsDown_of_reachable {flagged : Executor} (ho : flagged.Orderly) (hi : flagged.Mortal)
    (ht : flagged.guarded.terminating = true) (hl : flagged.Reachable last) :
    flagged.WindsDown last := by
  obtain ⟨hmortal, hterm⟩ := lasts_terminating ho hi ht hl
  have holast := hl.orderly ho
  refine ⟨hterm, actions_of_terminating ho hi ht hl, accepted_of_terminating ho hi ht hl,
    fun u spec below next hc => ?_,
    fun u task below ha => awaits_refusal_of_enqueue holast hmortal hterm ha⟩
  by_cases hx : last.access = .available
  · cases hd : spec.due.deadline last.clock with
    | error error =>
      refine .inr (.inl ⟨error, rfl, ?_⟩)
      rw [hc.eq_begin]
      simp only [begin, hx, make, hd]
    | ok deadline => exact .inr (.inr (awaits_refusal holast hmortal hterm hc hx hd))
  · exact .inl ⟨hx, hc.eq_gone hx (fun h => by cases h)⟩

/-! ## Who removes what is left -/

/-- A thread comes to that point by learning how the worker has ended, which the worker need not. -/
theorem Local.drains_from (h : Local e t a c b) (hb : b.control = .drain how failure) :
    e.Knows t := by
  cases h with
  | opens _ ho | call _ ho => cases ho <;> cases hb
  | raise _ hc | unwind hc => cases hc <;> cases hb
  | @accept _ _ _ first => cases first <;> cases hb
  | joinSelf ht => exact .inl ht
  | joinStopped _ hw | joinDied _ hw => exact .inr (by rw [workerEnd?, hw]; rfl)
  | _ => cases hb

theorem knows_of_drain {config : Config} {telemetry : Telemetry} {clock : Instant}
    {start : Executor} (hs : Executor.start config telemetry clock = .ok start)
    (hr : start.Reachable e) (ha : e.activity? t = some a) (hc : a.control = .drain how failure) :
    e.Knows t := by
  refine invariant_of_start (P := fun e => ∀ u a how failure, e.activity? u = some a →
    a.control = .drain how failure → e.Knows u) hs hr (fun u a how failure ha hc => ?_)
    (fun before next _ hi hh u a how failure ha hc => ?_) t a how failure ha hc
  · obtain ⟨rfl, -⟩ := activity?_initial ha
    cases hc
  · have lasts : before.Knows u → next.Knows u := fun hk => (hk.happens hh).1
    cases hh with
    | goes _ hl =>
      rcases activity?_after ha with ⟨rfl, rfl⟩ | ⟨-, hother⟩
      · exact lasts (hl.drains_from hc)
      · exact lasts (hi u a how failure hother hc)
    | turns _ hw =>
      rcases activity?_afterTurn ha with ⟨rfl, rfl⟩ | ⟨-, hother⟩
      · cases hw
        cases hc
      · exact lasts (hi u a how failure hother hc)
    | ticks => exact lasts (hi u a how failure (by cases u <;> exact ha) hc)

/-! ## What becomes of it -/

/-- A step drops all that is pending and ends the call that a thread has made from above `stack`. It
counts what it drops as discarded, and counts nothing else. -/
structure Discards (e : Executor) (t : ThreadId) (how : Closing) (failure : Option Error)
    (stack : List Frame) (next : Executor) : Prop where
  back : next.activity? t = some { stack }
  told : next.trace.head? = some ⟨t, answerEvent how.topic stack (how.answer failure)⟩
  telemetry : next.telemetry =
    e.telemetry.update (·.recordDiscarded e.guarded.pending.size.toUInt64)
  counted : e.telemetry ≠ .stub → next.snapshot =
    { e.snapshot with discarded := e.snapshot.discarded + e.guarded.pending.size.toUInt64 }
  begun : ∀ role, next.startedIds role = e.startedIds role
  /-- No callable of these tasks is ever begun. -/
  never : ∀ last, next.Reachable last → ∀ id ∈ e.guarded.pending.ids, ∀ role,
    id ∉ last.startedIds role

/-- A step removes all that is pending, for good, and what is removed is discarded or canceled. -/
structure Clears (e : Executor) (t : ThreadId) (how : Closing) (failure : Option Error)
    (stack : List Frame) (next : Executor) : Prop where
  /-- A thread that is not the worker has waited for the worker's end. -/
  ended : t ≠ .worker → e.workerEnd?.isSome = true
  guarded : next.guarded = { e.guarded with pending := .empty e.guarded.pending.limit }
  removed : next.removedIds = e.guarded.pending.ids ++ e.removedIds
  actions : ∀ last, next.Reachable last → ∀ id ∈ e.guarded.pending.ids,
    id ∉ last.startedIds .action
  spent : ∀ last, next.Reachable last → last.guarded.pending.tasks = []
  settles :
    match e.config.shutdownPolicy with
    | .discard => e.Discards t how failure stack next
    | .cancelPending => next.telemetry = e.telemetry ∧
        next.SettlesAll e.guarded.pending (.closing how failure) t stack

/-- Where the worker is to end and nothing is pending, it stays so. -/
theorem spent_of_happens (h : Happens e next) (hs : e.guarded.IsSpent) : next.guarded.IsSpent := by
  cases h with
  | goes _ hl =>
    rw [guarded_after]
    exact ⟨hl.spends.1 hs.1, hl.spends.2 hs⟩
  | turns _ hw => exact ⟨hw.spends.1 hs.1, hw.spends.2 hs⟩
  | ticks => exact hs

section Runs

variable {config : Config} {telemetry : Telemetry} {clock : Instant} {start : Executor}

/-- What has been discarded is neither run nor called back. -/
theorem not_begun_of_discarded (hs : Executor.start config telemetry clock = .ok start)
    (hr : start.Reachable e) {id : TaskId} (hid : id ∈ e.ledger.discarded) (role : Role) :
    id ∉ e.startedIds role := by
  intro hbegun
  have hbal := balanced_of_start hs hr
  have haccounts := hbal.accounts_le (· == id)
  have hone := hbal.countP_acceptedIds_le id
  have hdiscarded : 0 < e.ledger.discarded.countP (· == id) := List.count_pos_iff.2 hid
  have hpos : 0 < (e.startedIds role).countP (· == id) := List.count_pos_iff.2 hbegun
  cases role <;> omega

theorem discards_of_drain (hs : Executor.start config telemetry clock = .ok start)
    (hr : start.Reachable e) (hd : e.Drains t how failure stack next)
    (hp : e.config.shutdownPolicy = .discard) : e.Discards t how failure stack next := by
  obtain ⟨ha, hm⟩ := hd
  obtain ⟨c, b, hl, hnext⟩ :=
    (goes_of_step (orderly_of_start hs hr) ha hm).of_closes (Activity.closes_drain ..)
  have hfirst : ∀ id ∈ e.guarded.pending.ids, id ∈ next.ledger.discarded := by
    intro id hid
    rw [hnext, ledger_after]
    cases hl with
    | discard => simp [hid]
    | drain hother => cases hp.symm.trans hother
  cases hl with
  | drain hother => cases hp.symm.trans hother
  | discard =>
    refine ⟨?_, ?_, ?_, fun hkept => ?_, fun role => ?_, fun last hl id hid role => ?_⟩
    · rw [hnext, activity?_after_self]
    · rw [hnext, trace_after]
      rfl
    · rw [hnext, telemetry_after]
    · rw [hnext, snapshot_after]
      exact Telemetry.snapshot_recordDiscarded hkept _ _
    · rw [hnext, startedIds, startedIds, gather_after]
      simp
    · have hlast : id ∈ last.ledger.discarded :=
        hl.happens_invariant (P := fun e' => id ∈ e'.ledger.discarded)
          (orderly_of_start hs (hr.move _ hm)) (hfirst id hid)
          fun _ _ _ hi hh => mem_discarded_of_happens hh hi
      exact not_begun_of_discarded hs ((hr.move _ hm).trans hl) hlast role

theorem clears_of_drain (hs : Executor.start config telemetry clock = .ok start)
    (hr : start.Reachable e) (hd : e.Drains t how failure stack next) :
    e.Clears t how failure stack next := by
  have ho := orderly_of_start hs hr
  have ha := hd.1
  have hreach := hr.move _ hd.2
  obtain ⟨c, b, hl, hnext⟩ := (goes_of_step ho ha hd.2).of_closes (Activity.closes_drain ..)
  have hguarded : next.guarded = { e.guarded with pending := .empty e.guarded.pending.limit } := by
    rw [hnext, guarded_after]
    cases hl <;> rfl
  have hremoved : next.removedIds = e.guarded.pending.ids ++ e.removedIds := by
    rw [hnext, removedIds, gather_after]
    cases hl <;> simp [removedIds]
  have hspent : next.guarded.IsSpent := by
    rw [hguarded]
    exact ⟨(ending_of_start hs hr).flagged t _ ha rfl, rfl⟩
  have honext := orderly_of_start hs hreach
  refine ⟨fun ht => (knows_of_drain hs hr ha rfl).resolve_left ht, hguarded, hremoved,
    fun last hl id hid => ?_, fun last hl => ?_, ?_⟩
  · have hin : id ∈ next.removedIds := hremoved ▸ List.mem_append_left _ hid
    have hlast : id ∈ last.removedIds :=
      hl.happens_invariant (P := fun e' => id ∈ e'.removedIds) honext hin
        fun _ _ _ hi hh => mem_gather_of_happens hh hi
    exact (not_begun_of_removed hs (hreach.trans hl) hlast).1
  · exact (hl.happens_invariant (P := fun e' => e'.guarded.IsSpent) honext hspent
      fun _ _ _ hi hh => spent_of_happens hh hi).2
  · cases hp : e.config.shutdownPolicy with
    | discard => exact discards_of_drain hs hr hd hp
    | cancelPending =>
      cases hl with
      | discard hother => cases hp.symm.trans hother
      | drain =>
        have hb : next.activity? t =
            some ⟨.settle (.ofQueue (.closing how failure) e.guarded.pending), stack⟩ := by
          rw [hnext, activity?_after_self]
        obtain ⟨hremoves, -⟩ :=
          removes_of_drain hs hr ha hd.2 hb (.inl ⟨List.mem_singleton_self _, rfl⟩)
        exact ⟨by rw [hnext, telemetry_after]; rfl, settlesAll_of_removes hs hremoves hb⟩

/-! ## The whole story -/

/-- What comes of the first call that closes the executor, made by a thread in the state `e` from
above `stack`, if its first step leads to the state `called`. -/
structure ShutsDown (e : Executor) (t : ThreadId) (how : Closing) (stack : List Frame)
    (called : Executor) : Prop where
  /-- Its first step puts the executor out of reach, and that is all. -/
  begins : called = { e with access := .engaged, joinable := false }.setActivity
    ⟨.flag how, stack⟩ t
  /-- Next it tells the worker to end; it waits, while what is pending stays pending; then it
  removes that. -/
  course : ∀ last, called.Reachable last → Closure called t how stack last
  flags : ∀ before flagged, called.StepsAt t ⟨.flag how, stack⟩ before flagged →
    flagged = { before with guarded := before.guarded.terminate }.setActivity ⟨.rouse how, stack⟩ t ∧
      ∀ last, flagged.Reachable last → flagged.WindsDown last
  engaged : ∀ last, called.Reachable last → last.IsWaiting t how stack → last.access = .engaged
  /-- Any other thread than the worker waits until the worker has ended. -/
  waits : t ≠ .worker → ∀ last, called.Reachable last →
    last.activity? t = some ⟨.join how, stack⟩ → last.workerEnd? = none →
      last.move? (.step t) = none
  /-- The worker does not wait. -/
  goesOn : t = .worker → ∀ last, called.Reachable last → last.aborted = false →
    last.IsWaiting t how stack → ∃ next, last.move? (.step t) = some next
  clears : ∀ drained next failure, called.Reachable drained →
    drained.Drains t how failure stack next → drained.Clears t how failure stack next
  /-- The threads' own steps bring the call to the point where it removes what is left, or a panic
  in one of them ends the process. -/
  ends : ∀ last, called.Reachable last → ∃ (ts : List ThreadId) (later : Executor),
    last.moves? (ts.map .step) = some later ∧
      ((∃ drained next failure, called.Reachable drained ∧
        drained.Drains t how failure stack next ∧ next.Reachable later) ∨
        called.config.panicStrategy = .abort ∧ later.aborted = true)

theorem Closure.waiting_or_drained (h : Closure called t how stack e) :
    e.IsWaiting t how stack ∨ ∃ drained next failure, called.Reachable drained ∧
      drained.Drains t how failure stack next ∧ next.Reachable e := by
  cases h with
  | flags ha => exact .inl ⟨_, ha, rfl, rfl⟩
  | waits _ _ hw => exact .inl hw
  | drained hf hr _ hd hl => exact .inr ⟨_, _, _, hf.reaches.trans hr, hd, hl⟩

theorem Closure.exists_drained (h : Closure called t how stack e)
    (hs : Executor.start config telemetry clock = .ok start) (hr : start.Reachable e)
    (hlater : ∀ last, e.Reachable last → Closure called t how stack last) :
    ∃ (ts : List ThreadId) (later : Executor), e.moves? (ts.map .step) = some later ∧
      ((∃ drained next failure, called.Reachable drained ∧
        drained.Drains t how failure stack next ∧ next.Reachable later) ∨
        config.panicStrategy = .abort ∧ later.aborted = true) := by
  rcases h.waiting_or_drained with ⟨a, ha, hc, rfl⟩ | hdrained
  · obtain ⟨ts, before, -, hts, -, -, hended | ⟨closed, hm, b, hb, hback⟩⟩ :=
      exists_leaves hs hr ha (.inl ⟨hc, rfl⟩)
    · exact ⟨ts, before, hts, .inr hended⟩
    have hmoves : e.moves? ((ts ++ [t]).map .step) = some closed := by
      rw [List.map_append]
      exact moves?_concat hts hm
    have hnext := (hlater closed (Reachable.refl.of_moves _ hmoves)).waiting_or_drained
    refine ⟨ts ++ [t], closed, hmoves, .inl (hnext.resolve_left ?_)⟩
    -- a thread that is back waits no more
    rintro ⟨a', ha', hc', hst⟩
    obtain rfl := Option.some.inj (hb.symm.trans ha')
    exact Activity.Closes.not_isBack (.inl ⟨hc', hst⟩) hback
  · exact ⟨[], e, rfl, .inl hdrained⟩

/-- **Shutting down.** The first call that closes the executor, whoever makes it and whether or not
a panic has ended the worker, first tells the worker to end; from then on no action is begun and
every call that schedules a task fails. Made by another thread it waits until the worker has ended,
and what is pending stays so meanwhile; made by the worker it goes on at once. Then it removes
exactly what is pending, and nothing will be pending any more. It discards these tasks in the same
step, without running any callable and counting nothing but their number; or it calls them back on
its own thread, by deadline and then by number, and counts their number as canceled, unless a panic
that goes on unwinding leaves a callback, after which nothing is called back or counted by it, or a
panic ends the process. -/
theorem shuts_down (hs : Executor.start config telemetry clock = .ok start)
    (hr : start.Reachable e) (hc : e.Calls t how.request stack called)
    (hx : e.access = .available) (hj : e.joinable = true) : e.ShutsDown t how stack called := by
  have hreach := hc.reachable hr
  have hcourse := fun last (hl : called.Reachable last) => closure_of_calls hs hr hc hx hj hl
  refine ⟨hc.eq_flag hx hj, hcourse, fun before flagged hf => ?_, fun last hl hw => ?_,
    fun ht last hl ha hend => ?_, fun ht last hl hrun hw => ?_,
    fun drained next failure hl hd => clears_of_drain hs (hreach.trans hl) hd, fun last hl => ?_⟩
  · have hflag := flag_step hf.activity hf.move
    have hflagged := hreach.trans hf.reaches
    have hterm : flagged.guarded.terminating = true := by
      rw [hflag]
      cases t <;> rfl
    exact ⟨hflag, fun last hl =>
      windsDown_of_reachable (orderly_of_start hs hflagged) (mortal_of_start hs hflagged) hterm hl⟩
  · exact hw.engaged (engaged_of_start hs (hreach.trans hl))
  · cases hm : last.move? (.step t) with
    | none => rfl
    | some next =>
      have hjoin : last.join? t stack how = some next := advance_of_step ha hm
      rw [join?, if_neg ht, hend] at hjoin
      cases hjoin
  · obtain ⟨a, ha, hcl, rfl⟩ := hw
    have hidle : a.isIdle = false := Activity.Closes.isIdle_eq (.inl ⟨hcl, rfl⟩)
    rcases advance_or_waits (e := last) (t := t) hidle with ⟨next, hn⟩ | ⟨hne, -⟩
    · exact ⟨next, (step?_eq_advance hrun ha).trans hn⟩
    · exact absurd ht hne
  · rw [config_of_start hs hreach]
    exact (hcourse last hl).exists_drained hs (hreach.trans hl)
      fun later hlater => hcourse later (hl.trans hlater)

end Runs

/-- A caller shuts the executor down while the worker runs an action. What the action schedules then
is not accepted; when it is over, the task that is left is called back and counted as canceled.
Another executor discards the task that is left to it, and counts that. -/
theorem shuts_down_held :
    (∃ e called flagged drained next last : Executor,
      (initial { panicStrategy := .isolate, shutdownPolicy := .cancelPending }
        (.kept {}) ⟨0⟩).Reachable e ∧
      e.startedIds .action = [⟨1⟩] ∧ e.ShutsDown (.caller 0) .shutdown [] called ∧
      called.StepsAt (.caller 0) ⟨.flag .shutdown, []⟩ called flagged ∧ flagged.WindsDown last ∧
      drained.Clears (.caller 0) .shutdown none [] next ∧ next.Reachable last ∧
      Answered next drained.guarded.pending (.closing .shutdown none) (.caller 0) [] last ∧
      drained.guarded.pending.ids = [⟨2⟩] ∧
      ⟨.worker, .answered (.schedule "again") .gone⟩ ∈ last.trace ∧
      last.startedIds .callback = [⟨2⟩] ∧ last.guarded.pending.ids = [] ∧
      drained.snapshot.canceled = 0 ∧ last.snapshot.canceled = 1 ∧
      last.trace.head? = some ⟨.caller 0, .returned .ok⟩) ∧
    ∃ e called drained next : Executor,
      (initial {} (.kept {}) ⟨0⟩).Reachable e ∧ e.ShutsDown (.caller 0) .shutdown [] called ∧
      called.Reachable drained ∧ drained.Drains (.caller 0) .shutdown none [] next ∧
      drained.guarded.pending.ids = [⟨1⟩] ∧ next.guarded.pending.ids = [] ∧
      next.snapshot = { drained.snapshot with discarded := 1 } := by
  constructor
  · obtain ⟨e, called, flagged, drained, next, last, he, hbusy, hc, hx, hj, ha, hf, hd, had, hm, hl,
        hidle, hleft, hgone, hcalled, hnone, hbefore, hafter, htold⟩ :
        ∃ e called flagged drained next last : Executor,
        (initial { panicStrategy := .isolate, shutdownPolicy := .cancelPending }
          (.kept {}) ⟨0⟩).moves? [
          .call 0 (.schedule
            { label := "busy", due := .instant ⟨0⟩,
              action := .schedule "again" (.instant ⟨5⟩) .done .done }),
          .step (.caller 0), .step (.caller 0), .step (.caller 0),
          .call 0 (.schedule { label := "late", due := .instant ⟨1000⟩, onCancel := some .done }),
          .step (.caller 0), .step (.caller 0), .step .worker] = some e ∧
        e.startedIds .action = [⟨1⟩] ∧ e.Calls (.caller 0) .shutdown [] called ∧
        e.access = .available ∧ e.joinable = true ∧
        called.activity? (.caller 0) = some ⟨.flag .shutdown, []⟩ ∧
        called.move? (.step (.caller 0)) = some flagged ∧
        flagged.moves? ([.step (.caller 0)] ++ List.replicate 4 (.step .worker) ++
          [.step (.caller 0)]) = some drained ∧
        drained.activity? (.caller 0) = some ⟨.drain .shutdown none, []⟩ ∧
        drained.move? (.step (.caller 0)) = some next ∧
        next.moves? (List.replicate 4 (.step (.caller 0))) = some last ∧
        last.activity? (.caller 0) = some .idle ∧ drained.guarded.pending.ids = [⟨2⟩] ∧
        ⟨.worker, .answered (.schedule "again") .gone⟩ ∈ last.trace ∧
        last.startedIds .callback = [⟨2⟩] ∧ last.guarded.pending.ids = [] ∧
        drained.snapshot.canceled = 0 ∧ last.snapshot.canceled = 1 ∧
        last.trace.head? = some ⟨.caller 0, .returned .ok⟩ := by
      refine ⟨_, _, _, _, _, _, rfl, rfl, .caller rfl, rfl, rfl, rfl, rfl, rfl, rfl, rfl, rfl, rfl,
        ?_, ?_, ?_, ?_, rfl, rfl, rfl⟩ <;> decide
    have hs : Executor.start { panicStrategy := .isolate, shutdownPolicy := .cancelPending }
        (.kept {}) ⟨0⟩ = .ok _ := rfl
    have hr := Reachable.refl.of_moves _ he
    have hshuts : e.ShutsDown (.caller 0) .shutdown [] called := shuts_down hs hr hc hx hj
    have hsteps : called.StepsAt (.caller 0) ⟨.flag .shutdown, []⟩ called flagged :=
      ⟨.refl, ha, hf⟩
    have hdrained : flagged.Reachable drained := Reachable.refl.of_moves _ hd
    have hlast : next.Reachable last := Reachable.refl.of_moves _ hl
    have hreach := hsteps.reaches.trans hdrained
    have hclears := hshuts.clears drained next none hreach ⟨had, hm⟩
    have hanswered :
        Answered next drained.guarded.pending (.closing .shutdown none) (.caller 0) [] last := by
      have hall := (hc.reachable hr).trans hreach
      have hsettles := hclears.settles
      simp only [config_of_start hs hall] at hsettles
      refine ((hsettles.2.course last hlast).1.over_of_back hidle (.inl rfl)).resolve_right ?_
      rintro ⟨payload, id, hunwound⟩
      have hconfig := config_of_start hs (hall.move _ hm)
      exact hsettles.2.swallows (by rw [hconfig]; rfl) last payload id hunwound
    exact ⟨e, called, flagged, drained, next, last, hr, hbusy, hshuts, hsteps,
      (hshuts.flags called flagged hsteps).2 last ((hdrained.move _ hm).trans hlast), hclears, hlast,
      hanswered, hleft, hgone, hcalled, hnone, hbefore, hafter, htold⟩
  · obtain ⟨e, called, drained, next, he, hc, hx, hj, hd, had, hm, hkept, hleft, hsize, hnone,
        hfirst⟩ : ∃ e called drained next : Executor,
        (initial {} (.kept {}) ⟨0⟩).moves? [
          .call 0 (.schedule { label := "late", due := .instant ⟨1000⟩, onCancel := some .done }),
          .step (.caller 0), .step (.caller 0), .step (.caller 0)] = some e ∧
        e.Calls (.caller 0) .shutdown [] called ∧ e.access = .available ∧ e.joinable = true ∧
        called.moves? [.step (.caller 0), .step (.caller 0), .step .worker,
          .step (.caller 0)] = some drained ∧
        drained.activity? (.caller 0) = some ⟨.drain .shutdown none, []⟩ ∧
        drained.move? (.step (.caller 0)) = some next ∧ drained.telemetry ≠ .stub ∧
        drained.guarded.pending.ids = [⟨1⟩] ∧ drained.guarded.pending.size = 1 ∧
        next.guarded.pending.ids = [] ∧ drained.snapshot.discarded = 0 :=
      ⟨_, _, _, _, rfl, .caller rfl, rfl, rfl, rfl, rfl, rfl, nofun, rfl, rfl, rfl, rfl⟩
    have hs : Executor.start {} (.kept {}) ⟨0⟩ = .ok _ := rfl
    have hr := Reachable.refl.of_moves _ he
    have hshuts : e.ShutsDown (.caller 0) .shutdown [] called := shuts_down hs hr hc hx hj
    have hreach : called.Reachable drained := Reachable.refl.of_moves _ hd
    have hsettles := (hshuts.clears drained next none hreach ⟨had, hm⟩).settles
    simp only [config_of_start hs ((hc.reachable hr).trans hreach)] at hsettles
    have hcounted := hsettles.counted hkept
    rw [hsize, hfirst] at hcounted
    exact ⟨e, called, drained, next, hr, hshuts, hreach, ⟨had, hm⟩, hleft, hnone, hcounted⟩

end Executor

end Deferred
