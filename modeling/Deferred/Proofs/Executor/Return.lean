import Deferred.Executor.Descent
import Deferred.Proofs.Executor.Finality
import Deferred.Proofs.Executor.WakeUp

/-!
# Calls return

A thread that settles tasks or closes the executor can go on, except while it waits for the worker;
and the worker does not sleep while it is waited for, because it has been woken and is to end. Every
step lowers the weight of the executor, so that the call comes to its end, unless the process ends
before that.

* `advance_or_waits`: the only thing that a thread waits for in a call is the end of the worker.
* `Roused`: the worker does not sleep while a thread waits for its end.
* `weight_step_lt`: a step of a thread in a call lowers the weight.
* `IsCall`, `exists_leaves_of`: the threads' own steps bring a call to its end, or the process.
* `exists_leaves`: the one that closes the executor is such a call.
-/

namespace Deferred

namespace Executor

variable {e next : Executor} {t : ThreadId} {a b : Activity} {c : Change}
variable {stack : List Frame} {how : Closing}

/-! ## Who can go on -/

/-- A thread that makes a call can go on, or it waits for the worker to end. -/
theorem advance_or_waits (hi : a.isIdle = false) :
    (∃ next, e.advance t a = some next) ∨
      t ≠ .worker ∧ e.workerEnd? = none ∧ ∃ how, a.control = .join how := by
  obtain ⟨control, stack⟩ := a
  cases control with
  | ready =>
    cases stack with
    | nil => cases hi
    | cons => exact .inl ⟨_, rfl⟩
  | enqueue task =>
    simp only [advance]
    cases e.guarded.accept task <;> exact .inl ⟨_, rfl⟩
  | settle batch =>
    simp only [advance]
    split <;> exact .inl ⟨_, rfl⟩
  | unwind payload => cases stack <;> exact .inl ⟨_, rfl⟩
  | join how =>
    simp only [advance, join?]
    split
    · exact .inl ⟨_, rfl⟩
    next ht =>
      cases hend : e.workerEnd? with
      | none => exact .inr ⟨ht, rfl, how, rfl⟩
      | some ended => cases ended <;> exact .inl ⟨_, rfl⟩
  | _ => exact .inl ⟨_, rfl⟩

/-- A worker that neither sleeps nor has ended can go on. -/
theorem worker_can_step (ho : e.Orderly) (hrun : e.aborted = false) (hend : e.workerEnd? = none)
    (hp : ∀ until?, e.worker ≠ .parked until?) : ∃ next, e.step? .worker = some next := by
  unfold workerEnd? at hend
  cases hw : e.worker with
  | polling => exact ⟨_, by rw [step?, if_neg (by simp [hrun]), hw]⟩
  | parked until? => exact absurd hw (hp until?)
  | busy a =>
    have ha := activity?_worker.2 hw
    have hi : a.isIdle = false := by
      cases hidle : a.isIdle with
      | false => rfl
      | true =>
        have hst := ho _ _ ha
        rw [Activity.eq_idle_of_isIdle hidle] at hst
        exact absurd rfl hst
    rcases advance_or_waits (e := e) (t := .worker) hi with ⟨next, hn⟩ | ⟨hne, -⟩
    · exact ⟨next, (step?_eq_advance hrun ha).trans hn⟩
    · exact absurd rfl hne
  | stopped | died =>
    rw [hw] at hend
    cases hend

/-! ## The worker does not sleep while it is waited for -/

/-- While a thread waits for the worker to end, the worker does not sleep. -/
def Roused (e : Executor) : Prop :=
  ∀ t a how, e.activity? t = some a → a.control = .join how → ∀ until?, e.worker ≠ .parked until?

theorem Opens.not_join {request : Request} (h : Opens e t stack request c b) :
    b.control ≠ .join how := by
  cases h <;> nofun

theorem Catches.not_join {payload : Payload} {frame : Frame}
    (h : Catches e payload frame stack c b) : b.control ≠ .join how := by
  cases h <;> nofun

/-- A thread begins to wait for the worker when it has woken it. -/
theorem Local.wakes_of_join (h : Local e t a c b) (hb : b.control = .join how) :
    c.wakes = true := by
  cases h with
  | opens _ ho | call _ ho => exact absurd hb ho.not_join
  | raise _ hc | unwind hc => exact absurd hb hc.not_join
  | @accept _ _ _ first => cases first <;> cases hb
  | rouse => rfl
  | _ => cases hb

theorem Roused.happens (hi : e.Roused) (hend : e.Ending) (h : Happens e next) : next.Roused := by
  intro u a' how ha' hj until? hw
  cases h with
  | @goes t a b c ha hl =>
    obtain ⟨hwakes, hparked⟩ := parked_of_after hw
    rcases activity?_after ha' with ⟨rfl, rfl⟩ | ⟨-, hother⟩
    · rw [hl.wakes_of_join hj] at hwakes
      cases hwakes
    · exact hi u a' how hother hj until? hparked
  | turns hv hws =>
    rcases activity?_afterTurn ha' with ⟨rfl, hbusy⟩ | ⟨-, hother⟩
    · cases hw.symm.trans hbusy
    · -- a worker that is to end does not go to sleep
      have hflag := hend.flagged u a' hother (by rw [hj]; rfl)
      rw [worker_afterTurn] at hw
      cases hws with
      | sleep ht =>
        rw [hflag] at ht
        cases ht
      | _ => cases hw
  | ticks => exact hi u a' how (by cases u <;> exact ha') hj until? hw

/-! ## Every step lowers the weight -/

theorem isAt_of_activity (ha : e.activity? t = some a) (hi : a.isIdle = false) : e.IsAt a t := by
  cases t with
  | worker => exact activity?_worker.1 ha
  | caller n =>
    obtain rfl : e.caller n = a := Option.some.inj ha
    unfold caller at hi ⊢
    cases hn : e.callers[n]? with
    | none =>
      rw [hn] at hi
      cases hi
    | some a => exact hn

/-- A step of a thread that makes a call lowers the weight. -/
theorem weight_step_lt (ho : e.Orderly) (ha : e.activity? t = some a) (hi : a.isIdle = false)
    (hs : e.step? t = some next) : next.weight < e.weight := by
  refine weight_advance_lt (isAt_of_activity ha hi) (not_aborted_of_step hs) ?_
    (advance_of_step ha hs)
  intro task deadline started rest swallowed hc
  have hst := ho t a ha
  rw [Activity.IsStacked, hc] at hst
  obtain ⟨control, stack⟩ := a
  obtain rfl : control = .ended (.action task deadline started rest) swallowed := hc
  exact hst.1

/-! ## Returning -/

theorem moves?_cons_of_step {u : ThreadId} {ts : List ThreadId} {last : Executor}
    (hs : e.step? u = some next) (hl : next.moves? (ts.map .step) = some last) :
    e.moves? ((u :: ts).map .step) = some last := by
  rw [List.map_cons, moves?, move?, hs]
  exact hl

theorem moves?_concat {ms : List Move} {m : Move} {before last : Executor}
    (hb : e.moves? ms = some before) (hm : before.move? m = some last) :
    e.moves? (ms ++ [m]) = some last := by
  induction ms generalizing e with
  | nil =>
    obtain rfl : e = before := Option.some.inj hb
    show (e.move? m).bind (·.moves? []) = some last
    rw [hm]
    rfl
  | cons first rest ih =>
    obtain ⟨middle, hfirst, hrest⟩ := Option.bind_eq_some_iff.1 hb
    show (e.move? first).bind (·.moves? (rest ++ [m])) = some last
    rw [hfirst]
    exact ih hrest

/-- A call of a thread, from above `stack`: with every step of the thread it goes on or is over, and
it leaves the thread something to do as long as it goes on. -/
structure IsCall (t : ThreadId) (stack : List Frame) (Q : Activity → Prop) : Prop where
  busy : ∀ a, Q a → a.isIdle = false
  goes : ∀ e a next, Q a → Goes e t a next →
    ∃ b, next.activity? t = some b ∧ (Q b ∨ b.IsBack stack)

theorem isCall_settles (t : ThreadId) (stack : List Frame) :
    IsCall t stack fun a => ∃ batch, a.Settles batch stack := by
  refine ⟨fun a ⟨_, hset⟩ => hset.isIdle_eq, fun e a next ⟨batch, hset⟩ hg => ?_⟩
  obtain ⟨c, b, hl, rfl⟩ := hg.of_settles hset
  refine ⟨b, activity?_after_self, ?_⟩
  rcases hl.settles_on hset with ⟨rest, -, hrest⟩ | ⟨-, hback, -⟩ | hback
  · exact .inl ⟨rest, hrest⟩
  · exact .inr (.inl hback)
  · exact .inr (.inr hback)

theorem isCall_closes (t : ThreadId) (stack : List Frame) (how : Closing) :
    IsCall t stack (Activity.Closes how stack) := by
  refine ⟨fun a hc => hc.isIdle_eq, fun e a next hc hg => ?_⟩
  obtain ⟨c, b, hl, rfl⟩ := hg.of_closes hc
  exact ⟨b, activity?_after_self, (hl.closes_on hc).imp_right fun h => h.imp_left And.left⟩

/-- Wherever a call is that is under way, steps of the threads alone bring it to an end, or a panic
in one of them ends the process. -/
theorem exists_leaves_of {config : Config} {telemetry : Telemetry} {clock : Instant}
    {start : Executor} {Q : Activity → Prop} (hq : IsCall t stack Q)
    (hs : Executor.start config telemetry clock = .ok start) (hr : start.Reachable e)
    (ha : e.activity? t = some a) (hc : Q a) :
    ∃ (ts : List ThreadId) (before : Executor) (a' : Activity),
      e.moves? (ts.map .step) = some before ∧ before.activity? t = some a' ∧ Q a' ∧
        (config.panicStrategy = .abort ∧ before.aborted = true ∨
          ∃ closed, before.Leaves t stack closed) := by
  induction hw : e.weight using Nat.strongRecOn generalizing e a with
  | ind n ih =>
    subst hw
    have ho := orderly_of_start hs hr
    have hroused : e.Roused := by
      refine invariant_of_start hs hr (fun _ _ _ _ _ _ => nofun) fun before _ hb hi hh => ?_
      exact Roused.happens hi (ending_of_start hs hb) hh
    have hidle := hq.busy a hc
    rcases Bool.eq_false_or_eq_true e.aborted with hended | hrun
    · exact ⟨[], e, a, rfl, ha, hc, .inl ⟨abort_of_aborted hs hr hended, hended⟩⟩
    rcases advance_or_waits (e := e) (t := t) hidle with ⟨next, hn⟩ | ⟨hne, hnone, how', hj⟩
    · have hstep : e.step? t = some next := (step?_eq_advance hrun ha).trans hn
      have hlt := weight_step_lt ho ha hidle hstep
      obtain ⟨b, hb, hon | hback⟩ := hq.goes e a next hc (goes_of_step ho ha hstep)
      · obtain ⟨ts, before, a', hts, hrest⟩ := ih _ hlt (hr.move (.step t) hstep) hb hon rfl
        exact ⟨t :: ts, before, a', moves?_cons_of_step hstep hts, hrest⟩
      · exact ⟨[], e, a, rfl, ha, hc, .inr ⟨_, hstep, b, hb, hback⟩⟩
    · -- the worker goes on, for which the thread waits
      obtain ⟨next, hstep⟩ := worker_can_step ho hrun hnone (hroused t a how' ha hj)
      have hsame := activity?_of_move (m := .step .worker) ho hstep ha hidle
        fun h => hne (Move.step.inj h).symm
      obtain ⟨ts, before, a', hts, hrest⟩ :=
        ih _ (weight_step_worker_lt hstep) (hr.move (.step .worker) hstep) hsame hc rfl
      exact ⟨.worker :: ts, before, a', moves?_cons_of_step hstep hts, hrest⟩

/-- Wherever the call that closes the executor is, steps of the threads alone bring it to an end, or
the process. -/
theorem exists_leaves {config : Config} {telemetry : Telemetry} {clock : Instant}
    {start : Executor} (hs : Executor.start config telemetry clock = .ok start)
    (hr : start.Reachable e) (ha : e.activity? t = some a) (hc : a.Closes how stack) :
    ∃ (ts : List ThreadId) (before : Executor) (a' : Activity),
      e.moves? (ts.map .step) = some before ∧ before.activity? t = some a' ∧
        a'.Closes how stack ∧ (config.panicStrategy = .abort ∧ before.aborted = true ∨
          ∃ closed, before.Leaves t stack closed) :=
  exists_leaves_of (isCall_closes t stack how) hs hr ha hc

end Executor

end Deferred
