import Deferred.Proofs.Executor.Finality

/-!
# What the call that closes an executor finds

The first call that closes the executor waits until the worker has ended, learns whether a panic has
ended it and reports that, removes the tasks that are left, and settles or discards them as the
configuration says. The worker's own call does not wait, and reports nothing.

* `Executor.failureFor`, `reportFor`: what a thread answers and reports once the worker has ended.
* `Stage`: how far the call has come, and what it has found so far.
* `Outcome`: what can be said when it is over.
* `Stage.move`, `stage_of_calls`: the call goes from stage to stage.
-/

namespace Deferred

/-- How the executor is being closed, by a thread that has yet to learn how the worker has ended. -/
def Control.waits? : Control → Option Closing
  | flag how | rouse how | join how => some how
  | _ => none

/-- The call that closes the executor in one of the two ways. -/
def Closing.request : Closing → Request
  | shutdown => .shutdown
  | drop => .drop

theorem Control.closing?_of_waits? {control : Control} {how : Closing}
    (h : control.waits? = some how) : control.closing? = some how := by
  cases control <;> first | exact h | cases h

namespace Activity

variable {a : Activity} {how : Closing} {stack : List Frame}

theorem closes_drain (how : Closing) (failure : Option Error) (stack : List Frame) :
    Closes how stack ⟨.drain how failure, stack⟩ := .inl ⟨rfl, rfl⟩

theorem closings_pos_of_closes (h : a.Closes how stack) : 0 < a.closings :=
  Nat.zero_lt_of_lt (h.closings_lt (.inl rfl))

theorem closings_pos_of_join (h : a.control = .join how) : 0 < a.closings :=
  closings_pos_of_closes (.inl ⟨by rw [h]; rfl, rfl⟩)

end Activity

namespace Event

/-- The report that a panic has ended the worker. -/
def reports : Event → List LogLine
  | logged (.workerPanicked name message) => [.workerPanicked name message]
  | _ => []

@[simp] theorem reports_workerPanicked (name message : String) :
    (logged (.workerPanicked name message)).reports = [.workerPanicked name message] := rfl

@[simp] theorem reports_eq_nil {event : Event}
    (h : ∀ name message, event ≠ logged (.workerPanicked name message)) : event.reports = [] := by
  cases event with
  | logged line =>
    cases line with
    | workerPanicked name message => exact absurd rfl (h name message)
    | _ => rfl
  | _ => rfl

@[simp] theorem reports_answerEvent (topic : Topic) (stack : List Frame) (answer : Answer) :
    (answerEvent topic stack answer).reports = [] := by
  cases stack <;> rfl

@[simp] theorem reports_warning (h : Handler) (payload : Payload) :
    ((h.warning payload).toList.map logged).flatMap reports = [] := by
  unfold Handler.warning
  split <;> rfl

@[simp] theorem reports_failureLines (e : Executor) (how : Closing) (failure : Option Error) :
    ((e.failureLines how failure).map logged).flatMap reports = [] := by
  cases how <;> cases failure <;> rfl

end Event

namespace Executor

variable {e next last : Executor} {t u : ThreadId} {a b : Activity} {c : Change}
variable {v w : WorkerState} {stack : List Frame} {how : Closing} {payload : Payload}

/-! ## How the worker has ended -/

/-- The reports that a panic has ended the worker. -/
def reports (e : Executor) : List LogLine := e.gather Event.reports

/-- The failure that a thread answers when it has closed the executor; the worker has none. -/
def failureFor (e : Executor) : ThreadId → Option Error
  | .worker => none
  | .caller _ => e.worker.death?.map (.workerPanic ·.message)

/-- What a thread reports when it closes the executor; the worker reports nothing. -/
def reportFor (e : Executor) : ThreadId → List LogLine
  | .worker => []
  | .caller _ => e.worker.death?.toList.map (.workerPanicked e.config.threadName ·.message)

/-- A thread knows how the worker has ended, or it is the worker and need not know. -/
def Knows (e : Executor) (t : ThreadId) : Prop := t = .worker ∨ e.workerEnd?.isSome = true

/-- The worker has ended for good. -/
theorem worker_of_ended (h : Happens e next) (hend : e.workerEnd?.isSome = true) :
    next.worker = e.worker := by
  cases h with
  | @goes t a b c ha =>
    cases t with
    | worker =>
      rw [workerEnd?, activity?_worker.1 ha] at hend
      cases hend
    | caller n =>
      rw [worker_after_caller]
      unfold workerEnd? at hend
      cases hw : e.worker with
      | stopped | died => exact ite_self _
      | _ =>
        rw [hw] at hend
        cases hend
  | turns hv hw =>
    rw [workerEnd?, hv] at hend
    cases hw <;> cases hend
  | ticks => rfl

/-- What a thread knows stays true. -/
theorem Knows.happens (hk : e.Knows t) (h : Happens e next) :
    next.Knows t ∧ next.failureFor t = e.failureFor t ∧ next.reportFor t = e.reportFor t := by
  cases t with
  | worker => exact ⟨.inl rfl, rfl, rfl⟩
  | caller n =>
    have hend := hk.resolve_left nofun
    have hw := worker_of_ended h hend
    rw [Knows, workerEnd?, failureFor, failureFor, reportFor, reportFor, hw, config_of_happens h]
    exact ⟨.inr hend, rfl, rfl⟩

/-! ## Who reports -/

theorem Opens.reports_eq_nil {request : Request} (h : Opens e t stack request c b) :
    c.events.flatMap Event.reports = [] := by
  cases h <;> simp [unchanged]

theorem Catches.reports_eq_nil {frame : Frame} (h : Catches e payload frame stack c b) :
    c.events.flatMap Event.reports = [] := by
  cases h <;> simp [unchanged]

/-- Only a thread that has waited for the worker reports anything. -/
theorem Local.reports (h : Local e t a c b) :
    c.events.flatMap Event.reports = [] ∨
      ∃ how failure, a.control = .join how ∧ b.control = .drain how failure := by
  cases h with
  | opens _ ho | call _ ho => exact .inl ho.reports_eq_nil
  | raise _ hc => exact .inl (by simp [hc.reports_eq_nil])
  | unwind hc => exact .inl hc.reports_eq_nil
  | joinDied => exact .inr ⟨_, _, rfl, rfl⟩
  | _ => exact .inl (by simp [unchanged])

theorem WorkerStep.reports_eq_nil (h : WorkerStep e v c w) :
    c.events.flatMap Event.reports = [] := by
  cases h <;> simp [unchanged]

theorem reports_of_happens (h : Happens e next) :
    next.reports = e.reports ∨ ∃ t a b how failure, e.activity? t = some a ∧
      a.control = .join how ∧ next.activity? t = some b ∧ b.control = .drain how failure := by
  cases h with
  | @goes t a b c ha hl =>
    rcases hl.reports with hnone | ⟨how, failure, hac, hbc⟩
    · exact .inl (by rw [reports, reports, gather_after, hnone, List.nil_append])
    · exact .inr ⟨t, a, b, how, failure, ha, hac, activity?_after_self, hbc⟩
  | turns _ hw =>
    exact .inl (by rw [reports, reports, gather_afterTurn, hw.reports_eq_nil, List.nil_append])
  | ticks => exact .inl rfl

/-- While the thread that closes the executor makes no step, nobody reports anything. -/
theorem reports_of_unmoved (h : Happens e next) (hc : e.closers ≤ 1)
    (ha : e.activity? t = some a) (hcl : a.Closes how stack)
    (hsame : next.activity? t = some a) : next.reports = e.reports := by
  rcases reports_of_happens h with hreports | ⟨u, a', b, how, failure, ha', hac, hb, hbc⟩
  · exact hreports
  exfalso
  by_cases hu : u = t
  · subst hu
    obtain rfl := Option.some.inj (ha.symm.trans ha')
    obtain rfl := Option.some.inj (hsame.symm.trans hb)
    rw [hac] at hbc
    cases hbc
  · have := add_le_total (f := Activity.closings) rfl ha ha' hu
    have := Activity.closings_pos_of_closes hcl
    have := Activity.closings_pos_of_join hac
    rw [closers] at hc
    omega

/-- After the end nobody reports anything. -/
theorem IsClosed.reports (hc : e.IsClosed) (h : Happens e next) : next.reports = e.reports := by
  rcases reports_of_happens h with hreports | ⟨u, a, b, how, failure, ha, hac, -, -⟩
  · exact hreports
  · have hzero := hc.closings ha
    have := Activity.closings_pos_of_join hac
    omega

theorem closings_of_joinable (hc : e.closers ≤ 1) (hj : e.joinable = true)
    (ha : e.activity? t = some a) : a.closings = 0 := by
  have := le_total (f := Activity.closings) rfl ha
  rw [closers, hj, Bool.toNat_true] at hc
  omega

/-- A call that has set out to close the executor has done so for good. -/
theorem joinable_of_happens (hc : e.closers ≤ 1) (h : Happens e next)
    (hj : next.joinable = true) : e.joinable = true := by
  have hnext := Nat.le_trans (closers_le_of_happens h) hc
  cases h with
  | @goes t a b c ha hl =>
    rcases hl.joinable with hsame | hbc
    · rwa [joinable_after, hsame] at hj
    · have hzero := closings_of_joinable hnext hj (activity?_after_self (c := c) (b := b))
      rw [Activity.closings, hbc, Bool.toNat_true] at hzero
      omega
  | turns hv hw => exact hw.closings_eq.2.2 ▸ hj
  | ticks => exact hj

/-- Nobody has reported anything before a call has set out to close the executor. -/
theorem reports_of_joinable {config : Config} {telemetry : Telemetry} {clock : Instant}
    {start : Executor} (hs : Executor.start config telemetry clock = .ok start)
    (hr : start.Reachable e) (hj : e.joinable = true) : e.reports = [] := by
  refine invariant_of_start (P := fun e => e.joinable = true → e.reports = []) hs hr (fun _ => rfl)
    (fun before next hb hi hh hn => ?_) hj
  have hone := closers_of_start hs hb
  have hbefore := joinable_of_happens hone hh hn
  rcases reports_of_happens hh with hsame | ⟨u, a, b, how, failure, ha, hac, -, -⟩
  · exact hsame.trans (hi hbefore)
  · have hzero := closings_of_joinable hone hbefore ha
    have := Activity.closings_pos_of_join hac
    omega

/-! ## Stages -/

/-- What can be said when the call is over that a thread has made to close the executor. -/
structure Outcome (called : Executor) (t : ThreadId) (how : Closing) (stack : List Frame)
    (closed : Executor) : Prop where
  leaves : ∃ before a, called.Reachable before ∧ before.activity? t = some a ∧
    a.Closes how stack ∧ before.Leaves t stack closed
  knows : closed.Knows t
  reported : closed.reports = closed.reportFor t
  /-- A panic of a callback has left the call, or it has been answered. -/
  answered : (∃ payload, closed.activity? t = some ⟨.unwind payload, stack⟩) ∨
    closed.activity? t = some { stack } ∧
      closed.trace.head? = some ⟨t, answerEvent how.topic stack (how.answer (closed.failureFor t))⟩
  /-- The tasks that were left have been discarded, or canceled one by one. -/
  settled : ∃ drained failure, called.Reachable drained ∧
    drained.activity? t = some ⟨.drain how failure, stack⟩ ∧ drained.Reachable closed ∧
    ∀ task ∈ drained.guarded.pending.tasks,
      match closed.config.shutdownPolicy with
      | .discard => task.id ∈ closed.ledger.discarded
      | .cancelPending => closed.activity? t = some { stack } →
          task.onCancel = none ∨ task.id ∈ closed.startedIds .callback

/-- How far the call has come that a thread has made to close the executor. -/
inductive Stage (called : Executor) (t : ThreadId) (how : Closing) (stack : List Frame)
    (e : Executor) : Prop
  /-- It has yet to learn how the worker has ended. -/
  | waits {a : Activity} (ha : e.activity? t = some a) (hw : a.control.waits? = some how)
      (hs : a.stack = stack) (hr : e.reports = [])
  /-- It knows and has reported that, and has yet to remove the tasks that are left. -/
  | drains (ha : e.activity? t = some ⟨.drain how (e.failureFor t), stack⟩) (hk : e.Knows t)
      (hr : e.reports = e.reportFor t)
  /-- It is settling them. -/
  | settles {a : Activity} {rest : Batch} {drained : Executor} {failure : Option Error}
      (ha : e.activity? t = some a) (hs : a.Settles rest stack)
      (hp : rest.purpose = .closing how (e.failureFor t)) (hk : e.Knows t)
      (hr : e.reports = e.reportFor t) (hc : e.config.shutdownPolicy = .cancelPending)
      (hd : called.Reachable drained) (had : drained.activity? t = some ⟨.drain how failure, stack⟩)
      (he : drained.Reachable e)
      (htasks : ∀ task ∈ drained.guarded.pending.tasks, task ∈ rest.tasks.tasks ∨
        task.onCancel = none ∨ task.id ∈ e.startedIds .callback) : Stage called t how stack e
  /-- It is over. -/
  | ended {closed : Executor} (ho : Outcome called t how stack closed) (hr : closed.Reachable e)
      (hsame : e.reports = closed.reports)

variable {called : Executor}

/-- What the thread of the call does while it waits. -/
theorem Local.waits_on (h : Local e t a c b) (hw : a.control.waits? = some how) :
    b.stack = a.stack ∧
      (b.control.waits? = some how ∧ c.events.flatMap Event.reports = [] ∨
        b.control = .drain how (e.failureFor t) ∧
          c.events.flatMap Event.reports = e.reportFor t ∧ e.Knows t) := by
  cases h with
  | flag | rouse => exact ⟨rfl, .inl ⟨hw, rfl⟩⟩
  | joinSelf ht =>
    subst ht
    obtain rfl := Option.some.inj hw
    exact ⟨rfl, .inr ⟨rfl, rfl, .inl rfl⟩⟩
  | joinStopped ht hstop =>
    obtain rfl := Option.some.inj hw
    cases t with
    | worker => exact absurd rfl ht
    | caller n =>
      refine ⟨rfl, .inr ⟨?_, ?_, .inr ?_⟩⟩
      · rw [failureFor, hstop]
        rfl
      · rw [reportFor, hstop]
        rfl
      · rw [workerEnd?, hstop]
        rfl
  | joinDied ht hdied =>
    obtain rfl := Option.some.inj hw
    cases t with
    | worker => exact absurd rfl ht
    | caller n =>
      refine ⟨rfl, .inr ⟨?_, ?_, .inr ?_⟩⟩
      · rw [failureFor, hdied]
        rfl
      · rw [reportFor, hdied]
        rfl
      · rw [workerEnd?, hdied]
        rfl
  | _ => cases hw

/-- A thread that settles the tasks that were left reports nothing any more. -/
theorem Local.reports_of_settles (h : Local e t a c b) (hone : a.closings ≤ 1) {batch : Batch}
    {failure : Option Error} (hs : a.Settles batch stack)
    (hp : batch.purpose = .closing how failure) : c.events.flatMap Event.reports = [] := by
  rcases h.reports with hnone | ⟨how, failure, hac, -⟩
  · exact hnone
  · have hpos : 0 < a.batches.countP (·.purpose.isClosing) :=
      List.countP_pos_iff.2 ⟨batch, hs.mem_batches, by rw [hp]; rfl⟩
    rw [Activity.closings, hac, Control.closes, Bool.toNat_true] at hone
    omega

theorem closers_le_of_reachable (ho : e.Orderly) (hone : e.closers ≤ 1) (hr : e.Reachable last) :
    last.closers ≤ 1 :=
  hr.happens_invariant (P := fun e => e.closers ≤ 1) ho hone
    fun _ _ _ hi hh => Nat.le_trans (closers_le_of_happens hh) hi

theorem Outcome.isClosed {closed : Executor} (h : Outcome called t how stack closed)
    (ho : called.Orderly) (hone : called.closers ≤ 1) : closed.IsClosed := by
  obtain ⟨before, a, hb, ha, hc, hl⟩ := h.leaves
  exact hl.isClosed (closers_le_of_reachable ho hone hb) (hb.orderly ho) ha hc

/-- A move of somebody else leaves the call where it is. -/
theorem Stage.unmoved (h : Stage called t how stack e) (hone : e.closers ≤ 1) {m : Move}
    (hm : e.move? m = some next) (hh : Happens e next)
    (hsame : ∀ a, e.activity? t = some a → a.Closes how stack → next.activity? t = some a)
    (hover : ∀ closed, Outcome called t how stack closed → closed.Reachable e → e.IsClosed) :
    Stage called t how stack next := by
  cases h with
  | waits ha hw hs hr =>
    have hcl : Activity.Closes how stack _ := .inl ⟨Control.closing?_of_waits? hw, hs⟩
    have hnext := hsame _ ha hcl
    exact .waits hnext hw hs ((reports_of_unmoved hh hone ha hcl hnext).trans hr)
  | drains ha hk hr =>
    have hcl := Activity.closes_drain how (e.failureFor t) stack
    have hnext := hsame _ ha hcl
    obtain ⟨hk', hf, hrep⟩ := hk.happens hh
    refine .drains (hf ▸ hnext) hk' ?_
    rw [reports_of_unmoved hh hone ha hcl hnext, hr, hrep]
  | settles ha hs hp hk hr hc hd had he htasks =>
    have hcl : Activity.Closes how stack _ := .inr ⟨_, _, hp, hs⟩
    have hnext := hsame _ ha hcl
    obtain ⟨hk', hf, hrep⟩ := hk.happens hh
    refine .settles hnext hs (hf ▸ hp) hk' ?_ (config_of_happens hh ▸ hc) hd had (he.move m hm)
      fun task ht => ?_
    · rw [reports_of_unmoved hh hone ha hcl hnext, hr, hrep]
    · exact (htasks task ht).imp_right (Or.imp_right (mem_gather_of_happens hh))
  | ended ho hr hsame =>
    exact .ended ho (hr.move m hm) (((hover _ ho hr).reports hh).trans hsame)

/-- The step with which the thread of the call removes the tasks that are left. -/
theorem Stage.of_drain (hr : called.Reachable e)
    (ha : e.activity? t = some ⟨.drain how (e.failureFor t), stack⟩) (hk : e.Knows t)
    (hrep : e.reports = e.reportFor t) (hm : e.move? (.step t) = some (e.after t c b))
    (hl : Local e t ⟨.drain how (e.failureFor t), stack⟩ c b) :
    Stage called t how stack (e.after t c b) := by
  have hclose := Activity.closes_drain how (e.failureFor t) stack
  obtain ⟨hk', hf', hrep'⟩ := hk.happens (.goes ha hl)
  have hreports : (e.after t c b).reports = (e.after t c b).reportFor t := by
    rw [hrep', ← hrep, reports, reports, gather_after]
    cases hl <;> simp
  cases hl with
  | discard hp =>
    refine .ended ⟨⟨e, _, hr, ha, hclose, hm, _, activity?_after_self, .inl rfl⟩, hk', hreports,
      .inr ⟨activity?_after_self, ?_⟩, e, _, hr, ha, .move _ .refl hm, fun task ht => ?_⟩ .refl rfl
    · rw [hf', trace_after]
      rfl
    · rw [config_after, hp, ledger_after]
      have hid : task.id ∈ e.guarded.pending.ids := Queue.mem_ids.2 ⟨task, ht, rfl⟩
      simp [hid]
  | drain hp =>
    refine .settles activity?_after_self (.inl ⟨List.mem_singleton_self _, rfl⟩) (hf'.symm ▸ rfl)
      hk' hreports (by rw [config_after, hp]) hr ha (.move _ .refl hm) fun task ht => .inl ht

/-- A task of a batch is still in it after a step, or its callback has been begun in that step, if
it has one. -/
theorem mem_of_advances {batch rest : Batch} {events : List Event} {task : Task Script}
    (h : batch.Advances events rest) (ht : task ∈ batch.tasks.tasks) :
    task ∈ rest.tasks.tasks ∨ task.onCancel = none ∨
      task.id ∈ events.flatMap (Event.startedIds .callback) := by
  cases h with
  | stays => exact .inl ht
  | deals hpop hdeal =>
    rcases (Queue.mem_pop hpop).1 ht with rfl | ht
    · exact .inr hdeal
    · exact .inl ht

/-- The steps with which it settles them. -/
theorem Stage.of_settles (hr : called.Reachable e) (hone : e.closers ≤ 1)
    {rest : Batch} {drained : Executor} {failure : Option Error}
    (ha : e.activity? t = some a) (hs : a.Settles rest stack)
    (hp : rest.purpose = .closing how (e.failureFor t)) (hk : e.Knows t)
    (hrep : e.reports = e.reportFor t) (hc : e.config.shutdownPolicy = .cancelPending)
    (hd : called.Reachable drained) (had : drained.activity? t = some ⟨.drain how failure, stack⟩)
    (he : drained.Reachable e)
    (htasks : ∀ task ∈ drained.guarded.pending.tasks, task ∈ rest.tasks.tasks ∨
      task.onCancel = none ∨ task.id ∈ e.startedIds .callback)
    (hm : e.move? (.step t) = some (e.after t c b)) (hl : Local e t a c b) :
    Stage called t how stack (e.after t c b) := by
  have hclose : a.Closes how stack := .inr ⟨rest, _, hp, hs⟩
  have hgoes : Happens e (e.after t c b) := .goes ha hl
  obtain ⟨hk', hf', hrep'⟩ := hk.happens hgoes
  have hpart : a.closings ≤ 1 :=
    Nat.le_trans (le_total (f := Activity.closings) rfl ha)
      (Nat.le_trans (Nat.le_add_right _ _) hone)
  have hreports : (e.after t c b).reports = (e.after t c b).reportFor t := by
    rw [hrep', ← hrep, reports, reports, gather_after, hl.reports_of_settles hpart hs hp,
      List.nil_append]
  have hbegun : ∀ id ∈ e.startedIds .callback, id ∈ (e.after t c b).startedIds .callback :=
    fun id hid => mem_gather_of_happens hgoes hid
  have hconfig : (e.after t c b).config.shutdownPolicy = .cancelPending := by
    rw [config_after, hc]
  rcases hl.settles_on hs with ⟨rest', hadv, hb⟩ | ⟨hnone, rfl, earlier, hev⟩ | ⟨payload, rfl⟩
  · refine .settles activity?_after_self hb (by rw [hadv.purpose_eq, hf', hp]) hk' hreports hconfig
      hd had (he.move _ hm) fun task ht => ?_
    rcases htasks task ht with hin | hnc | hst
    · refine (mem_of_advances hadv hin).imp_right (Or.imp_right fun hid => ?_)
      rw [startedIds, gather_after]
      exact List.mem_append_left _ hid
    · exact .inr (.inl hnc)
    · exact .inr (.inr (hbegun _ hst))
  · refine .ended ⟨⟨e, a, hr, ha, hclose, hm, _, activity?_after_self, .inl rfl⟩, hk', hreports,
      .inr ⟨activity?_after_self, ?_⟩, drained, failure, hd, had, he.move _ hm, fun task ht => ?_⟩
      .refl rfl
    · rw [hf', trace_after, hev, Batch.answer, hp]
      rfl
    · rw [hconfig]
      intro _
      rcases htasks task ht with hin | hnc | hst
      · rw [Queue.tasks_eq_nil_of_pop hnone] at hin
        cases hin
      · exact .inl hnc
      · exact .inr (hbegun _ hst)
  · refine .ended ⟨⟨e, a, hr, ha, hclose, hm, _, activity?_after_self, .inr ⟨payload, rfl⟩⟩, hk',
      hreports,
      .inl ⟨payload, activity?_after_self⟩, drained, failure, hd, had, he.move _ hm,
      fun task ht => ?_⟩ .refl rfl
    rw [hconfig]
    intro hback
    cases Option.some.inj (activity?_after_self.symm.trans hback)

/-- The steps with which it waits for the worker. -/
theorem Stage.of_waits (ha : e.activity? t = some a) (hw : a.control.waits? = some how)
    (hs : a.stack = stack) (hrep : e.reports = []) (hl : Local e t a c b) :
    Stage called t how stack (e.after t c b) := by
  have hreports : (e.after t c b).reports = c.events.flatMap Event.reports := by
    rw [reports, gather_after, ← reports, hrep, List.append_nil]
  obtain ⟨hstack, ⟨hbw, hnone⟩ | ⟨hbc, hsome, hk⟩⟩ := hl.waits_on hw
  · exact .waits activity?_after_self hbw (hstack.trans hs) (hreports.trans hnone)
  · obtain ⟨hk', hf', hrep'⟩ := hk.happens (.goes ha hl)
    have hb : b = ⟨.drain how (e.failureFor t), stack⟩ := by rw [← hbc, ← hs, ← hstack]
    refine .drains ?_ hk' (by rw [hreports, hsome, hrep'])
    rw [activity?_after_self, hf', hb]

/-- With every move the call stays where it is, or it goes on. -/
theorem Stage.move (ho : called.Orderly) (hone : called.closers ≤ 1) (hr : called.Reachable e)
    (h : Stage called t how stack e) {m : Move} (hm : e.move? m = some next) :
    Stage called t how stack next := by
  have hoe := hr.orderly ho
  have honee := closers_le_of_reachable ho hone hr
  have hh := happens_of_move hoe hm
  have hover : ∀ closed, Outcome called t how stack closed → closed.Reachable e → e.IsClosed := by
    intro closed hout hre
    have hclosed := hout.isClosed ho hone
    obtain ⟨before, a, hb, -, -, hl⟩ := hout.leaves
    exact hre.happens_invariant (P := IsClosed) ((hb.move _ hl.1).orderly ho) hclosed
      fun _ _ _ hi hh => Nat.le_zero.1 (hi ▸ closers_le_of_happens hh)
  by_cases hmt : m = .step t
  · subst hmt
    cases h with
    | waits ha hw hs hrep =>
      obtain ⟨c, b, hl, rfl⟩ :=
        (goes_of_step hoe ha hm).of_closes (.inl ⟨Control.closing?_of_waits? hw, hs⟩)
      exact .of_waits ha hw hs hrep hl
    | drains ha hk hrep =>
      obtain ⟨c, b, hl, rfl⟩ := (goes_of_step hoe ha hm).of_closes (Activity.closes_drain ..)
      exact .of_drain hr ha hk hrep hm hl
    | settles ha hs hp hk hrep hc hd had he htasks =>
      obtain ⟨c, b, hl, rfl⟩ := (goes_of_step hoe ha hm).of_closes (.inr ⟨_, _, hp, hs⟩)
      exact .of_settles hr honee ha hs hp hk hrep hc hd had he htasks hm hl
    | ended hout hre hsame =>
      exact .ended hout (hre.move _ hm) (((hover _ hout hre).reports hh).trans hsame)
  · exact h.unmoved honee hm hh
      (fun a ha hcl => activity?_of_move hoe hm ha hcl.isIdle_eq hmt) hover

/-- The first step of the first call that closes the executor. -/
theorem Calls.eq_flag (hc : e.Calls t how.request stack called) (hx : e.access = .available)
    (hj : e.joinable = true) :
    called = { e with access := .engaged, joinable := false }.setActivity ⟨.flag how, stack⟩ t := by
  rw [hc.eq_begin]
  cases how <;> simp only [Closing.request, begin, hx, beginClosing, hj, if_true]

/-- The first call that closes the executor is at one of its stages, as long as it goes on and when
it is over. -/
theorem stage_of_calls {config : Config} {telemetry : Telemetry} {clock : Instant}
    {start : Executor} (hs : Executor.start config telemetry clock = .ok start)
    (hr : start.Reachable e) (hc : e.Calls t how.request stack called) (hx : e.access = .available)
    (hj : e.joinable = true) (hl : called.Reachable last) : Stage called t how stack last := by
  have hreach := hc.reachable hr
  have hbegin := hc.eq_flag hx hj
  have hfirst : Stage called t how stack called := by
    refine .waits (hbegin ▸ activity?_setActivity_self ..) rfl rfl ?_
    have hnone := reports_of_joinable hs hr hj
    rwa [reports, gather, hbegin, trace_setActivity]
  induction hl with
  | refl => exact hfirst
  | move m hb hm ih =>
    exact ih.move (orderly_of_start hs hreach) (closers_of_start hs hreach) hb hm

end Executor

end Deferred
