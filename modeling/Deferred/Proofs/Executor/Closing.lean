import Deferred.Proofs.Executor.Aftermath
import Deferred.Proofs.Executor.Origins

/-!
# While an executor is being closed

From its first step to its last, the call that closes the executor keeps all others away from it. It
tells the worker to end; from then on nobody adds a task, and the tasks that are pending stay so
until the call removes them, which it does when the worker has ended, unless it is made by the
worker.

* `IsEngaged`, `engaged_of_start`: while a thread is closing the executor, no call can be made.
* `IsWaiting`, `Drains`: a thread has yet to remove the tasks that are left, and does so.
* `IsWaiting.pending_eq`: nobody changes what is pending meanwhile.
* `Closure`, `closure_of_calls`: where the call is in every state after its beginning.
-/

namespace Deferred

/-- A thread that is closing the executor waits for the worker, or is about to remove the tasks that
are left. -/
theorem Control.waits_or_drains {control : Control} {how : Closing}
    (h : control.closing? = some how) :
    control.waits? = some how ∨ ∃ failure, control = .drain how failure := by
  cases control with
  | flag | rouse | join => exact .inl h
  | drain chosen failure =>
    obtain rfl := Option.some.inj h
    exact .inr ⟨failure, rfl⟩
  | _ => cases h

namespace Executor

variable {e next called last : Executor} {t u : ThreadId} {a b : Activity} {c : Change}
variable {stack : List Frame} {how : Closing} {failure : Option Error}

/-! ## Nobody else can reach the executor -/

theorem Opens.engages {request : Request} (h : Opens e t stack request c b) :
    c.access = .engaged ∨ c.joinable = e.joinable := by
  cases h with
  | close => exact .inl rfl
  | _ => exact .inr rfl

/-- A thread sets out to close the executor by making it out of reach. -/
theorem Local.engages (h : Local e t a c b) :
    c.access = .engaged ∨ c.joinable = e.joinable := by
  cases h with
  | opens _ ho | call _ ho => exact ho.engages
  | raise _ hc => exact .inr hc.closes.1
  | unwind hc => exact .inr hc.closes.1
  | _ => exact .inr rfl

theorem Opens.access {request : Request} (h : Opens e t stack request c b) :
    c.access = e.access ∨ e.access = .available := by
  cases h with
  | close _ hx | closeAgain _ hx => exact .inr hx
  | _ => exact .inl rfl

theorem Catches.access {payload : Payload} {frame : Frame}
    (h : Catches e payload frame stack c b) :
    c.access = e.access ∨ b.closings < Activity.closings { stack := frame :: stack } := by
  cases h with
  | swallow | abort => exact .inl rfl
  | pass =>
    cases frame with
    | action => exact .inl rfl
    | callback id batch rest =>
      cases hp : batch.purpose with
      | cancelAll =>
        refine .inl ?_
        show batch.purpose.accessAfter e.access = e.access
        rw [hp]
        rfl
      | closing how failure =>
        have hcloses : Activity.Closes how stack { stack := .callback id batch rest :: stack } :=
          .inr ⟨batch, failure, hp, .inr ⟨[], id, rest, rfl⟩⟩
        exact .inr (hcloses.closings_lt (.inr ⟨payload, rfl⟩))

/-- Who can reach the executor changes only when it can be reached, or by the end of a call that has
closed it. -/
theorem Local.access (h : Local e t a c b) :
    c.access = e.access ∨ e.access = .available ∨ b.closings < a.closings := by
  cases h with
  | opens _ ho | call _ ho => exact ho.access.imp_right .inl
  | raise _ hc => exact hc.access.imp_right .inr
  | unwind hc => exact hc.access.imp_right .inr
  | @settled batch stack how failure _ hp =>
    have hcloses : Activity.Closes how stack ⟨.settle batch, stack⟩ :=
      .inr ⟨batch, failure, hp, .inl ⟨List.mem_singleton_self _, rfl⟩⟩
    exact .inr (.inr (hcloses.closings_lt (.inl rfl)))
  | discard =>
    exact .inr (.inr ((Activity.closes_drain ..).closings_lt (.inl rfl)))
  | _ => exact .inl rfl

/-- While a thread is closing the executor, it is out of reach. -/
def IsEngaged (e : Executor) : Prop :=
  ∀ t a, e.activity? t = some a → 0 < a.closings → e.access = .engaged

theorem IsEngaged.goes (hi : e.IsEngaged) (hone : e.closers ≤ 1) (ha : e.activity? t = some a)
    (hl : Local e t a c b) : (e.after t c b).IsEngaged := by
  have hpart := le_total (f := Activity.closings) rfl ha
  intro u a' ha' hpos
  have hafter : (e.after t c b).access = c.access := by cases t <;> rfl
  rw [hafter]
  rw [closers] at hone
  rcases activity?_after ha' with ⟨rfl, rfl⟩ | ⟨hne, hother⟩
  · -- the thread itself was closing the executor, or sets out to do so
    rcases hl.engages with hengaged | hjoin
    · exact hengaged
    · have hle := hl.closings_le
      rw [hjoin] at hle
      have hx := hi _ a ha (by omega)
      rcases hl.access with hsame | havail | hlt
      · exact hsame.trans hx
      · cases hx.symm.trans havail
      · omega
  · have hx := hi u a' hother hpos
    have hadd := add_le_total (f := Activity.closings) rfl ha hother hne
    rcases hl.access with hsame | havail | hlt
    · exact hsame.trans hx
    · cases hx.symm.trans havail
    · omega

theorem IsEngaged.happens (hi : e.IsEngaged) (hone : e.closers ≤ 1) (h : Happens e next) :
    next.IsEngaged := by
  cases h with
  | goes ha hl => exact hi.goes hone ha hl
  | @turns v w c hv hw =>
    intro u a' ha' hpos
    have haccess : (e.afterTurn c w).access = e.access := by cases hw <;> rfl
    rw [haccess]
    rcases activity?_afterTurn ha' with ⟨rfl, hbusy⟩ | ⟨-, hother⟩
    · have hzero := hw.closings_eq.2.1
      rw [hbusy, WorkerState.part_busy] at hzero
      omega
    · exact hi u a' hother hpos
  | ticks => exact fun u a' ha' hpos => hi u a' (by cases u <;> exact ha') hpos

theorem engaged_of_start {config : Config} {telemetry : Telemetry} {clock : Instant}
    {start : Executor} (hs : Executor.start config telemetry clock = .ok start)
    (hr : start.Reachable e) : e.IsEngaged := by
  refine invariant_of_start hs hr (fun t a ha hpos => ?_)
    fun before _ hb hi hh => hi.happens (closers_of_start hs hb) hh
  obtain ⟨rfl, -⟩ := activity?_initial ha
  cases hpos

/-! ## Waiting for the worker -/

/-- A thread is in the call that closes the executor, which it has made from above `stack`, and has
yet to remove the tasks that are left. -/
def IsWaiting (e : Executor) (t : ThreadId) (how : Closing) (stack : List Frame) : Prop :=
  ∃ a, e.activity? t = some a ∧ a.control.closing? = some how ∧ a.stack = stack

/-- A thread makes the step by which it removes the tasks that are left. -/
def Drains (e : Executor) (t : ThreadId) (how : Closing) (failure : Option Error)
    (stack : List Frame) (next : Executor) : Prop :=
  e.activity? t = some ⟨.drain how failure, stack⟩ ∧ e.move? (.step t) = some next

/-- It waits until it makes that step. -/
theorem IsWaiting.move (h : e.IsWaiting t how stack) (ho : e.Orderly) {m : Move}
    (hm : e.move? m = some next) :
    next.IsWaiting t how stack ∨ ∃ failure, e.Drains t how failure stack next := by
  obtain ⟨a, ha, hc, rfl⟩ := h
  have hcloses : a.Closes how a.stack := .inl ⟨hc, rfl⟩
  by_cases hmt : m = .step t
  · subst hmt
    rcases Control.waits_or_drains hc with hw | ⟨failure, hd⟩
    · obtain ⟨c, b, hl, rfl⟩ := (goes_of_step ho ha hm).of_closes hcloses
      obtain ⟨hst, ⟨hbw, -⟩ | ⟨hbd, -⟩⟩ := hl.waits_on hw
      · exact .inl ⟨b, activity?_after_self, Control.closing?_of_waits? hbw, hst⟩
      · exact .inl ⟨b, activity?_after_self, by rw [hbd]; rfl, hst⟩
    · exact .inr ⟨failure, by rw [ha, ← hd], hm⟩
  · exact .inl ⟨a, activity?_of_move ho hm ha hcloses.isIdle_eq hmt, hc, rfl⟩

theorem IsWaiting.engaged (h : e.IsWaiting t how stack) (hi : e.IsEngaged) :
    e.access = .engaged := by
  obtain ⟨a, ha, hc, rfl⟩ := h
  exact hi t a ha (Activity.closings_pos_of_closes (.inl ⟨hc, rfl⟩))

/-- A call that cannot reach the executor does nothing but answer that. -/
theorem Calls.eq_gone {request : Request} (hc : e.Calls t request stack next)
    (hx : e.access ≠ .available) (hr : request ≠ .threadName) :
    next = e.reply t request.topic stack .gone := by
  rw [hc.eq_begin]
  cases hacc : e.access with
  | available => exact absurd hacc hx
  | engaged | dropped =>
    cases request with
    | threadName => exact absurd rfl hr
    | _ => simp only [begin, hacc]

/-- Once the worker is to end, nobody changes what is pending while a thread waits to remove it. -/
theorem IsWaiting.pending_eq (h : e.IsWaiting t how stack) (ho : e.Orderly) (hone : e.closers ≤ 1)
    (hi : e.IsEngaged) (ht : e.guarded.terminating = true) {m : Move}
    (hm : e.move? m = some next) :
    next.guarded.pending = e.guarded.pending ∨ ∃ failure, e.Drains t how failure stack next := by
  rcases pending_of_move ho ht hm with
    hsame | ⟨u, ⟨below, hcalls⟩ | ⟨other, failure, below, hau, hmu⟩⟩
  · exact .inl hsame
  · -- a call that cancels does not reach the queue
    have hx : e.access ≠ .available := by simp [h.engaged hi]
    rw [hcalls.eq_gone hx (fun h => by cases h), reply_eq, guarded_after]
    exact .inl rfl
  · obtain ⟨a, hat, hc, rfl⟩ := h
    have hpos := Activity.closings_pos_of_closes (.inl ⟨hc, rfl⟩)
    have hother := Activity.closings_pos_of_closes (Activity.closes_drain other failure below)
    by_cases hut : u = t
    · subst hut
      obtain rfl := Option.some.inj (hau.symm.trans hat)
      obtain rfl := Option.some.inj hc
      exact .inr ⟨failure, hau, hmu⟩
    · have hadd := add_le_total (f := Activity.closings) rfl hat hau hut
      rw [closers] at hone
      omega

/-! ## From the beginning of the call -/

/-- Where the call is that has set out to close the executor in the state `called`, and what it
leaves pending until then. -/
inductive Closure (called : Executor) (t : ThreadId) (how : Closing) (stack : List Frame)
    (e : Executor) : Prop
  /-- It has yet to tell the worker to end. -/
  | flags (ha : e.activity? t = some ⟨.flag how, stack⟩)
  /-- It has done so, and has yet to remove the tasks that are left; they are those that were
  pending then. -/
  | waits {before flagged : Executor} (hf : called.StepsAt t ⟨.flag how, stack⟩ before flagged)
      (hr : flagged.Reachable e) (hw : e.IsWaiting t how stack)
      (hp : e.guarded.pending = flagged.guarded.pending)
  /-- It has removed them. -/
  | drained {before flagged drained next : Executor} {failure : Option Error}
      (hf : called.StepsAt t ⟨.flag how, stack⟩ before flagged) (hr : flagged.Reachable drained)
      (hp : drained.guarded.pending = flagged.guarded.pending)
      (hd : drained.Drains t how failure stack next) (hl : next.Reachable e)

/-- The step by which the worker is told to end. -/
theorem flag_step (ha : e.activity? t = some ⟨.flag how, stack⟩)
    (hm : e.move? (.step t) = some next) :
    next = { e with guarded := e.guarded.terminate }.setActivity ⟨.rouse how, stack⟩ t := by
  have hstep : e.step? t = some next := hm
  exact (Option.some.inj (advance_of_step ha hstep)).symm

section Runs

variable {config : Config} {telemetry : Telemetry} {clock : Instant} {start : Executor}

/-- From the step on by which a thread tells the worker to end, it waits for the worker, and then
removes what has been pending since. -/
theorem closure_of_flagged (hs : Executor.start config telemetry clock = .ok start)
    (hr : start.Reachable called) {before flagged : Executor}
    (hf : called.StepsAt t ⟨.flag how, stack⟩ before flagged) (hl : flagged.Reachable last) :
    Closure called t how stack last := by
  have hflag := flag_step hf.activity hf.move
  have hreach := hr.trans hf.reaches
  have ho := orderly_of_start hs hreach
  have hi := mortal_of_start hs hreach
  have ht : flagged.guarded.terminating = true := by
    rw [hflag]
    cases t <;> rfl
  have hcases : last.IsWaiting t how stack ∧ last.guarded.pending = flagged.guarded.pending ∨
      ∃ drained next failure, flagged.Reachable drained ∧
        drained.guarded.pending = flagged.guarded.pending ∧
        drained.Drains t how failure stack next ∧ next.Reachable last := by
    induction hl with
    | refl =>
      refine .inl ⟨⟨⟨.rouse how, stack⟩, ?_, rfl, rfl⟩, rfl⟩
      rw [hflag, activity?_setActivity_self]
    | @move d after m hd hm ih =>
      rcases ih with ⟨hw, hp⟩ | ⟨drained, next, failure, hdr, hp, hdrains, hn⟩
      · have hod := hd.orderly ho
        have htd := (lasts_terminating ho hi ht hd).2
        have hpending := hw.pending_eq hod (closers_of_start hs (hreach.trans hd))
          (engaged_of_start hs (hreach.trans hd)) htd hm
        rcases hpending with hsame | ⟨failure, hdrains⟩
        · rcases hw.move hod hm with hw' | ⟨failure, hdrains⟩
          · exact .inl ⟨hw', hsame.trans hp⟩
          · exact .inr ⟨d, after, failure, hd, hp, hdrains, .refl⟩
        · exact .inr ⟨d, after, failure, hd, hp, hdrains, .refl⟩
      · exact .inr ⟨drained, next, failure, hdr, hp, hdrains, hn.move m hm⟩
  rcases hcases with ⟨hw, hp⟩ | ⟨drained, next, failure, hdr, hp, hdrains, hn⟩
  · exact .waits hf hl hw hp
  · exact .drained hf hdr hp hdrains hn

/-- Where the first call that closes the executor is in every later state. -/
theorem closure_of_calls (hs : Executor.start config telemetry clock = .ok start)
    (hr : start.Reachable e) (hc : e.Calls t how.request stack called) (hx : e.access = .available)
    (hj : e.joinable = true) (hl : called.Reachable last) : Closure called t how stack last := by
  have hreach := hc.reachable hr
  have ha : called.activity? t = some ⟨.flag how, stack⟩ :=
    hc.eq_flag hx hj ▸ activity?_setActivity_self ..
  rcases stays_or_steps (orderly_of_start hs hreach) ha rfl hl with
    hsame | ⟨before, flagged, hsteps, hn⟩
  · exact .flags hsame
  · exact closure_of_flagged hs hreach hsteps hn

end Runs

end Executor

end Deferred
