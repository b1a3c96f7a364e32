import Deferred.Proofs.Executor.Death
import Deferred.Proofs.Executor.Fate

/-!
# After the end

One call at most closes the executor. When it is over, however it has ended, nothing is pending and
nothing will be; no action is begun any more, and no callback but those of batches that are then
still being settled.

* `Activity.closings`: how many calls a thread is in that close the executor.
* `Executor.IsClosed`: a call has closed the executor and is over; this lasts.
* `Executor.Holds`, `begins_of_happens`: if nothing is pending, only tasks in hand are called back.
* `shutdown_is_final`: what holds ever after.
-/

namespace Deferred

/-- Whether tasks have been removed by the call that closes the executor. -/
def Purpose.isClosing : Purpose → Bool
  | closing _ _ => true
  | cancelAll => false

theorem Control.closes_of_closing? {control : Control} {how : Closing}
    (h : control.closing? = some how) : control.closes = true := by
  cases control <;> first | rfl | cases h

namespace Activity

variable {a b : Activity} {stack : List Frame} {how : Closing} {task : Task Script}

/-- How many calls a thread is in that close the executor. -/
def closings (a : Activity) : Nat :=
  a.control.closes.toNat + a.batches.countP (·.purpose.isClosing)

/-- A thread that is back from the call that closes the executor is in one less. -/
theorem Closes.closings_lt (h : a.Closes how stack) (hb : b.IsBack stack) :
    b.closings < a.closings := by
  have hback : b.closings = (stack.flatMap Frame.batches).countP (·.purpose.isClosing) := by
    rcases hb with rfl | ⟨payload, rfl⟩ <;>
      simp [closings, batches, Control.batches, Control.closes]
  rw [hback, closings, batches, List.countP_append]
  rcases h with ⟨hc, rfl⟩ | ⟨batch, failure, hp, ⟨hm, rfl⟩ | ⟨above, id, rest, hst⟩⟩
  · rw [Control.closes_of_closing? hc, Bool.toNat_true]
    omega
  · have hpos : 0 < a.control.batches.countP (·.purpose.isClosing) :=
      List.countP_pos_iff.2 ⟨batch, hm, by rw [hp]; rfl⟩
    omega
  · have hone : [batch].countP (·.purpose.isClosing) = 1 := by simp [hp, Purpose.isClosing]
    rw [hst, List.flatMap_append, List.flatMap_cons, List.countP_append, List.countP_append,
      Frame.batches, hone]
    omega

theorem closings_goOn (frame : Frame) (rest : Script) :
    closings { stack := frame.goOn rest :: stack } = closings { stack := frame :: stack } := by
  simp [closings, batches]

/-- What is in hand below a callable is in hand. -/
theorem Holds.cons (h : Holds { stack } task) (frame : Frame) :
    Holds { stack := frame :: stack } task := by
  obtain ⟨batch, hb, hm⟩ := h
  exact ⟨batch, List.mem_append_right frame.batches hb, hm⟩

end Activity

namespace Executor

variable {e next last : Executor} {t u : ThreadId} {a b : Activity} {c : Change}
variable {v w : WorkerState} {stack : List Frame} {how : Closing} {task : Task Script}

/-! ## One call closes the executor -/

theorem Opens.closings_le {request : Request} (h : Opens e t stack request c b) :
    b.closings + c.joinable.toNat ≤ Activity.closings { stack } + e.joinable.toNat := by
  cases h with
  | close _ _ hj =>
    simp [Activity.closings, Activity.batches, Control.batches, Control.closes, hj, Nat.add_comm]
  | _ => simp [Activity.closings, Activity.batches, Control.batches, Control.closes, unchanged,
      Batch.ofQueue, Purpose.isClosing]

theorem Catches.closings_le {payload : Payload} {frame : Frame}
    (h : Catches e payload frame stack c b) :
    b.closings + c.joinable.toNat ≤
      Activity.closings { stack := frame :: stack } + e.joinable.toNat := by
  cases h <;> simp [Activity.closings, Activity.batches, Control.batches, Control.closes, unchanged]

/-- A thread sets out to close the executor only if no call has done so before. -/
theorem Local.closings_le (h : Local e t a c b) :
    b.closings + c.joinable.toNat ≤ a.closings + e.joinable.toNat := by
  cases h with
  | opens _ ho => exact ho.closings_le
  | call _ ho => exact Activity.closings_goOn .. ▸ ho.closings_le
  | raise _ hc => exact (hc.closings_le :)
  | unwind hc => exact hc.closings_le
  | @accept _ _ _ first =>
    cases first <;>
      simp [Activity.closings, Activity.batches, Control.batches, Control.closes, unchanged]
  | leave => exact Nat.le_refl _
  | drain =>
    simp [Activity.closings, Activity.batches, Control.batches, Control.closes, Batch.ofQueue,
      Purpose.isClosing, unchanged, Nat.add_comm]
  | _ => simp [Activity.closings, Activity.batches, Control.batches, Control.closes, unchanged,
      Batch.goOn, Frame.batches, List.countP_cons]

theorem WorkerStep.closings_eq (h : WorkerStep e v c w) :
    v.part Activity.closings = 0 ∧ w.part Activity.closings = 0 ∧ c.joinable = e.joinable := by
  cases h <;> exact ⟨rfl, rfl, rfl⟩

/-- The calls that close the executor or can still set out to do so. -/
def closers (e : Executor) : Nat := e.total Activity.closings + e.joinable.toNat

theorem closers_le_of_happens (h : Happens e next) : next.closers ≤ e.closers := by
  cases h with
  | @goes t a b c ha hl =>
    have htotal := total_after_add (f := Activity.closings) (c := c) (b := b) rfl ha
    have := hl.closings_le
    rw [closers, closers, joinable_after]
    omega
  | @turns v w c hv hw =>
    obtain ⟨hvz, hwz, hj⟩ := hw.closings_eq
    have htotal := total_afterTurn (f := Activity.closings) (c := c) (w := w) hv
    have hjoin : (e.afterTurn c w).joinable = e.joinable := hj
    rw [closers, closers, hjoin]
    omega
  | ticks => exact Nat.le_refl _

theorem closers_of_start {config : Config} {telemetry : Telemetry} {clock : Instant}
    {start : Executor} (hs : Executor.start config telemetry clock = .ok start)
    (hr : start.Reachable e) : e.closers ≤ 1 :=
  invariant_of_start (P := fun e => e.closers ≤ 1) hs hr (Nat.le_refl 1)
    fun _ _ _ hi hh => Nat.le_trans (closers_le_of_happens hh) hi

/-- A call has set out to close the executor, and it is over. -/
def IsClosed (e : Executor) : Prop := e.closers = 0

/-- When the call is over that closes the executor, no other is under way. -/
theorem Leaves.isClosed (hc : e.closers ≤ 1) (ho : e.Orderly) (ha : e.activity? t = some a)
    (hcl : a.Closes how stack) (h : e.Leaves t stack next) : next.IsClosed := by
  obtain ⟨hstep, b, hb, hback⟩ := h
  obtain ⟨c, b', hl, rfl⟩ := (goes_of_step ho ha hstep).of_closes hcl
  obtain rfl : b' = b := Option.some.inj (activity?_after_self.symm.trans hb)
  have hlt := hcl.closings_lt hback
  have htotal := total_after_add (f := Activity.closings) (c := c) (b := b') rfl ha
  have hle := hl.closings_le
  have hpart := le_total (f := Activity.closings) rfl ha
  have hjoin : c.joinable.toNat ≤ e.joinable.toNat := by
    rcases hl.joinable with hsame | hbc
    · exact Nat.le_of_eq (by rw [hsame])
    · rcases hback with rfl | ⟨payload, rfl⟩ <;> cases hbc
  rw [closers] at hc
  rw [IsClosed, closers, joinable_after]
  omega

theorem IsClosed.joinable (h : e.IsClosed) : e.joinable = false := by
  rw [IsClosed, closers] at h
  exact Bool.toNat_eq_zero.1 (by omega)

theorem IsClosed.closings (h : e.IsClosed) (ha : e.activity? t = some a) : a.closings = 0 := by
  have := le_total (f := Activity.closings) rfl ha
  rw [IsClosed, closers] at h
  omega

/-- Nothing is pending after the end. -/
theorem IsClosed.isSpent (h : e.IsClosed) (hi : e.Ending) : e.guarded.IsSpent := by
  rcases hi.closing h.joinable with ⟨t, a, ha, hc⟩ | hspent
  · have hzero := h.closings ha
    rw [Activity.closings, hc, Bool.toNat_true] at hzero
    omega
  · exact hspent

/-! ## Only what is in hand is called back -/

/-- A thread holds a task that it has removed and not yet dealt with. -/
def Holds (e : Executor) (task : Task Script) : Prop :=
  ∃ t a, e.activity? t = some a ∧ a.Holds task

/-- What a step leaves in the hand of its thread was in its hand before, and so was what it calls
back. -/
def Change.TakesNone (a : Activity) (c : Change) (b : Activity) : Prop :=
  (∀ task, b.Holds task → a.Holds task) ∧
    ∀ id ∈ c.events.flatMap (Event.startedIds .callback), ∃ task, a.Holds task ∧ task.id = id

theorem Change.takesNone_of_batches {control : Control} (hb : control.batches = [])
    (hc : c.events.flatMap (Event.startedIds .callback) = [])
    (ha : ∀ task, Activity.Holds { stack } task → a.Holds task) :
    Change.TakesNone a c ⟨control, stack⟩ :=
  ⟨fun task hm => ha task ((Activity.holds_iff_of_batches hb).1 hm), by simp [hc]⟩

theorem Opens.takesNone {request : Request} (h : Opens e t stack request c b)
    (hn : e.guarded.pending.tasks = []) : Change.TakesNone { stack } c b := by
  cases h with
  | cancelAll =>
    refine ⟨fun task hm => ?_, by simp⟩
    rcases Activity.holds_settle.1 hm with hm | hm
    · change task ∈ e.guarded.pending.tasks at hm
      rw [hn] at hm
      cases hm
    · exact hm
  | _ => exact Change.takesNone_of_batches rfl (by simp [unchanged]) fun _ hm => hm

theorem Catches.takesNone {payload : Payload} {frame : Frame}
    (h : Catches e payload frame stack c b) :
    Change.TakesNone { stack := frame :: stack } c b := by
  cases h with
  | swallow => exact ⟨fun task hm => Activity.holds_ended.1 hm, by simp⟩
  | pass => exact Change.takesNone_of_batches rfl (by simp [unchanged]) fun _ hm => hm.cons frame
  | abort => exact Change.takesNone_of_batches rfl (by simp) fun _ hm => hm

theorem Local.takesNone (h : Local e t a c b) (hn : e.guarded.pending.tasks = []) :
    Change.TakesNone a c b := by
  cases h with
  | opens _ ho => exact ho.takesNone hn
  | call _ ho =>
    obtain ⟨hheld, hbegun⟩ := ho.takesNone hn
    refine ⟨fun task hm => Activity.holds_goOn.1 (hheld task hm), fun id hid => ?_⟩
    obtain ⟨task, hm, rfl⟩ := hbegun id hid
    exact ⟨task, Activity.holds_goOn.1 hm, rfl⟩
  | raise _ hc => simpa [Change.TakesNone] using hc.takesNone
  | unwind hc => exact hc.takesNone
  | finish => exact ⟨fun task hm => Activity.holds_ended.1 hm, by simp [unchanged]⟩
  | leave => exact ⟨fun task hm => (Activity.not_holds_idle hm).elim, by simp⟩
  | letGo hp =>
    refine ⟨fun task hm => Activity.holds_settle.2 ?_, by simp [unchanged]⟩
    exact (Activity.holds_settle.1 hm).imp_left fun hm => (Queue.mem_pop hp).2 (.inr hm)
  | @callBack _ _ task _ _ hp =>
    refine ⟨fun task hm => Activity.holds_settle.2 ?_, fun id hid => ⟨task, ?_, ?_⟩⟩
    · exact (Activity.holds_callback.1 hm).imp_left fun hm => (Queue.mem_pop hp).2 (.inr hm)
    · exact Activity.holds_settle.2 (.inl ((Queue.mem_pop hp).2 (.inl rfl)))
    · exact (List.mem_singleton.1 hid).symm
  | canceled | settled =>
    exact Change.takesNone_of_batches rfl (by simp) fun _ hm => Activity.holds_settle.2 (.inr hm)
  | calledBack =>
    refine ⟨fun task hm => ?_, by simp [unchanged]⟩
    have hbelow := Activity.holds_settle.1 hm
    exact Activity.holds_ended.2 (Activity.holds_callback.2 hbelow)
  | drain =>
    refine ⟨fun task hm => (Activity.holds_iff_of_batches rfl).2 ?_, by simp⟩
    rcases Activity.holds_settle.1 hm with hm | hm
    · change task ∈ e.guarded.pending.tasks at hm
      rw [hn] at hm
      cases hm
    · exact hm
  | @accept _ _ _ first =>
    cases first <;> exact Change.takesNone_of_batches rfl (by simp)
      fun _ hm => (Activity.holds_iff_of_batches rfl).2 hm
  | _ =>
    exact Change.takesNone_of_batches rfl (by simp [unchanged])
      fun _ hm => (Activity.holds_iff_of_batches rfl).2 hm

/-- When nothing is pending, nothing comes into the hand of a thread, and only what is in hand is
called back. -/
theorem begins_of_happens (h : Happens e next) (hn : e.guarded.pending.tasks = []) :
    (∀ task, next.Holds task → e.Holds task) ∧
      ∃ later, next.startedIds .callback = later ++ e.startedIds .callback ∧
        ∀ id ∈ later, ∃ task, e.Holds task ∧ task.id = id := by
  cases h with
  | @goes t a b c ha hl =>
    obtain ⟨hheld, hbegun⟩ := hl.takesNone hn
    refine ⟨fun task hm => ?_, c.events.flatMap (Event.startedIds .callback), gather_after ..,
      fun id hid => ?_⟩
    · obtain ⟨u, a', ha', hm⟩ := hm
      rcases activity?_after ha' with ⟨rfl, rfl⟩ | ⟨-, hother⟩
      · exact ⟨_, a, ha, hheld task hm⟩
      · exact ⟨u, a', hother, hm⟩
    · obtain ⟨task, hm, rfl⟩ := hbegun id hid
      exact ⟨task, ⟨t, a, ha, hm⟩, rfl⟩
  | turns hv hw =>
    refine ⟨fun task hm => ?_, [], ?_, nofun⟩
    · obtain ⟨u, a', ha', hm⟩ := hm
      rcases activity?_afterTurn ha' with ⟨rfl, rfl⟩ | ⟨-, hother⟩
      · cases hw with
        | run => cases Activity.not_holds_idle hm
      · exact ⟨u, a', hother, hm⟩
    · cases hw <;> rfl
  | ticks =>
    refine ⟨fun task hm => ?_, [], rfl, nofun⟩
    obtain ⟨u, a', ha', hm⟩ := hm
    exact ⟨u, a', by cases u <;> exact ha', hm⟩

/-! ## What holds ever after -/

/-- A task is in a batch that a call of `cancelAll` has removed and is still settling. -/
def IsCanceling (e : Executor) (id : TaskId) : Prop :=
  ∃ t a batch, e.activity? t = some a ∧ batch ∈ a.batches ∧ batch.purpose = .cancelAll ∧
    ∃ task ∈ batch.tasks.tasks, task.id = id

/-- What every call meets, and all that can still happen, when an executor has been closed and the
closing call was over in the state `closed`. -/
structure IsFinal (closed e : Executor) : Prop where
  size : e.guarded.pending.size = 0
  isEmpty : e.guarded.pending.isEmpty = true
  nextDeadline? : e.guarded.pending.nextDeadline? = none
  /-- No task is pending for a caller who asks. -/
  pending : ∀ t stack next, e.Calls t .pending stack next → e.access = .available →
    next = e.reply t .pending stack (.count 0)
  /-- Every call that schedules a task is refused, and told whether a panic has ended the worker. -/
  schedule : ∀ t spec stack next, e.Calls t (.schedule spec) stack next → e.access = .available →
    ∀ deadline, spec.due.deadline e.clock = .ok deadline →
      next.Awaits t (.schedule spec.label) stack fun later => .failed later.refusal
  /-- A call that cancels finds nothing to cancel. -/
  cancelAll : ∀ t stack next, e.Calls t .cancelAll stack next → e.access = .available →
    next.Awaits t .cancelAll stack (fun _ => .count 0) ∧
      ∀ role, next.startedIds role = e.startedIds role
  /-- A further shutdown succeeds at once and does nothing but answer. -/
  shutdown : ∀ t stack next, e.Calls t .shutdown stack next → e.access = .available →
    next = e.reply t .shutdown stack .ok
  drop : ∀ t stack next, e.Calls t .drop stack next → e.access = .available →
    next = { e with access := .dropped }.reply t .drop stack .ok
  actions : e.startedIds .action = closed.startedIds .action
  callbacks : ∃ later, e.startedIds .callback = later ++ closed.startedIds .callback ∧
    ∀ id ∈ later, closed.IsCanceling id

/-- What lasts after the end. -/
structure Ended (closed e : Executor) : Prop where
  orderly : e.Orderly
  mortal : e.Mortal
  ending : e.Ending
  isClosed : e.IsClosed
  held : ∀ task, e.Holds task → closed.Holds task
  actions : e.startedIds .action = closed.startedIds .action
  callbacks : ∃ later, e.startedIds .callback = later ++ closed.startedIds .callback ∧
    ∀ id ∈ later, ∃ task, closed.Holds task ∧ task.id = id

variable {closed : Executor}

theorem Ended.happens (hi : closed.Ended e) (h : Happens e next) : closed.Ended next := by
  have hspent := hi.isClosed.isSpent hi.ending
  obtain ⟨hheld, new, hnew, hbegun⟩ := begins_of_happens h hspent.2
  obtain ⟨later, hlater, hcalled⟩ := hi.callbacks
  refine ⟨hi.orderly.happens h, hi.mortal.happens h, hi.ending.happens h,
    Nat.le_zero.1 (hi.isClosed ▸ closers_le_of_happens h),
    fun task hm => hi.held task (hheld task hm),
    (begins_no_action_of_terminating h hspent.1).trans hi.actions,
    new ++ later, ?_, fun id hid => ?_⟩
  · rw [hnew, hlater, List.append_assoc]
  · rcases List.mem_append.1 hid with hid | hid
    · obtain ⟨task, hm, rfl⟩ := hbegun id hid
      exact ⟨task, hi.held task hm, rfl⟩
    · exact hcalled id hid

theorem Ended.reachable (hi : closed.Ended e) (hr : e.Reachable last) : closed.Ended last :=
  hr.happens_invariant (P := closed.Ended) hi.orderly hi fun _ _ _ hi hh => hi.happens hh

/-- After the end, all batches in hand are of calls of `cancelAll`. -/
theorem IsClosed.isCanceling (h : e.IsClosed) (hm : e.Holds task) : e.IsCanceling task.id := by
  obtain ⟨t, a, ha, batch, hb, hm⟩ := hm
  refine ⟨t, a, batch, ha, hb, ?_, task, hm, rfl⟩
  cases hp : batch.purpose with
  | cancelAll => rfl
  | closing how failure =>
    have hzero := h.closings ha
    have hpos : 0 < a.batches.countP (·.purpose.isClosing) :=
      List.countP_pos_iff.2 ⟨batch, hb, by rw [hp]; rfl⟩
    rw [Activity.closings] at hzero
    omega

/-- A further call that closes the executor does nothing but answer. -/
theorem beginClosing_again (hj : e.joinable = false) :
    e.beginClosing t stack how =
      { e with access := how.access }.reply t how.topic stack .ok := by
  rw [beginClosing, if_neg (by rw [hj]; nofun)]
  cases how <;> rfl

/-- A call that cancels when nothing is pending is answered by its next step. -/
theorem awaits_nothing (ho : e.Orderly) (hn : e.guarded.pending.tasks = [])
    (hc : e.Calls t .cancelAll stack next) (hx : e.access = .available) :
    next.Awaits t .cancelAll stack (fun _ => .count 0) ∧
      ∀ role, next.startedIds role = e.startedIds role := by
  have hbegin : next = e.beginCancelAll t stack := by
    rw [hc.eq_begin]
    simp only [begin, hx]
  have hnext : next.Orderly := (hc.reachable .refl).orderly ho
  have hzero : (Batch.ofQueue .cancelAll e.guarded.pending).removed = 0 := by
    rw [Batch.ofQueue, ← Queue.length_tasks, hn]
    rfl
  have hnone : e.guarded.pending.pop? = none := by
    cases hp : e.guarded.pending.pop? with
    | none => rfl
    | some popped =>
      have hm := (Queue.mem_pop hp).2 (.inl rfl)
      rw [hn] at hm
      cases hm
  have ha : next.activity? t = some ⟨.settle (.ofQueue .cancelAll e.guarded.pending), stack⟩ :=
    hbegin ▸ activity?_setActivity_self ..
  refine ⟨awaits_of_activity hnext ha rfl fun later hl hrun hsame => ?_, fun role => ?_⟩
  · obtain ⟨n, hstep⟩ : ∃ n, later.step? t = some n := by
      rw [step?_eq_advance hrun hsame]
      simp only [advance, Batch.ofQueue, hnone]
      exact ⟨_, rfl⟩
    refine ⟨n, ?_⟩
    cases goes_of_step (hl.orderly hnext) hsame hstep with
    | continues hlocal =>
      cases hlocal with
      | letGo hp | callBack hp =>
        cases hnone.symm.trans hp
      | canceled =>
        rw [hzero] at hstep ⊢
        exact answers_of_after hstep rfl rfl fun _ => rfl
      | settled _ hb => cases hb
    | finishes _ hw => cases hw
  · rw [hbegin]
    cases t <;> rfl

theorem Ended.isFinal (hi : closed.Ended e) (hclosed : closed.IsClosed) : closed.IsFinal e := by
  obtain ⟨hterm, hnil⟩ := hi.isClosed.isSpent hi.ending
  have hsize : e.guarded.pending.size = 0 := by rw [← Queue.length_tasks, hnil]; rfl
  have hempty := Queue.isEmpty_iff.2 hnil
  have hjoin := hi.isClosed.joinable
  refine ⟨hsize, hempty, ?_, ?_, ?_, ?_, ?_, ?_, hi.actions, ?_⟩
  · rw [Queue.nextDeadline?, Queue.first?, Option.isNone_iff_eq_none.1 hempty]
    rfl
  · intro t stack next hc hx
    rw [hc.eq_begin]
    simp only [begin, hx, hsize]
  · intro t spec stack next hc hx deadline hd
    exact awaits_refusal hi.orderly hi.mortal hterm hc hx hd
  · intro t stack next hc hx
    exact awaits_nothing hi.orderly hnil hc hx
  · intro t stack next hc hx
    rw [hc.eq_begin]
    simp only [begin, hx, beginClosing_again hjoin]
    exact congrArg (fun e : Executor => e.reply t .shutdown stack .ok)
      (by rw [Closing.access, ← hx])
  · intro t stack next hc hx
    rw [hc.eq_begin]
    simp only [begin, hx, beginClosing_again hjoin]
    rfl
  · obtain ⟨later, hlater, hcalled⟩ := hi.callbacks
    refine ⟨later, hlater, fun id hid => ?_⟩
    obtain ⟨task, hm, rfl⟩ := hcalled id hid
    exact hclosed.isCanceling hm

/-- **A shutdown is final.** When the call that closes the executor is over, with an answer or by a
panic, and whichever thread has made it, nothing is pending in any later state. Every call that
schedules a task is refused, nothing is left to cancel, and further shutdowns succeed and do
nothing. No action is begun any more, and no callback but those of batches that a call of
`cancelAll` had already removed. -/
theorem shutdown_is_final {config : Config} {telemetry : Telemetry} {clock : Instant}
    {start before : Executor} (hs : Executor.start config telemetry clock = .ok start)
    (hb : start.Reachable before) (ha : before.activity? t = some a) (hc : a.Closes how stack)
    (hl : before.Leaves t stack closed) (hr : closed.Reachable e) : closed.IsFinal e := by
  have hclosed := hl.isClosed (closers_of_start hs hb) (orderly_of_start hs hb) ha hc
  have hreach := hb.move (.step t) hl.1
  have hended : closed.Ended closed :=
    ⟨orderly_of_start hs hreach, mortal_of_start hs hreach, ending_of_start hs hreach, hclosed,
      fun _ hm => hm, rfl, [], rfl, nofun⟩
  exact (hended.reachable hr).isFinal hclosed

/-- The worker shuts its own executor down, and a callback panics in the course of it. -/
theorem shutdown_is_final_unwound :
    ∃ before closed e a stack,
      (initial { shutdownPolicy := .cancelPending } .stub ⟨0⟩).Reachable before ∧
      before.activity? .worker = some a ∧ a.Closes .shutdown stack ∧
      before.Leaves .worker stack closed ∧ closed.Reachable e ∧
      e.worker = .died (.literal "boom") ∧ e.access = .available ∧ closed.IsFinal e := by
  obtain ⟨before, closed, e, a, stack, hb, ha, hc, hl, he, hw, hx⟩ : ∃ before closed e a stack,
      (initial { shutdownPolicy := .cancelPending } .stub ⟨0⟩).moves?
        ([.call 0 (.schedule { label := "stop", due := .instant ⟨0⟩, action := .shutdown .done }),
          .step (.caller 0), .step (.caller 0), .step (.caller 0),
          .call 0 (.schedule
            { label := "late", due := .instant ⟨1000⟩,
              onCancel := some (.panic (.literal "boom") .done) }),
          .step (.caller 0), .step (.caller 0)] ++ List.replicate 7 (.step .worker)) = some before ∧
      before.activity? .worker = some a ∧ a.Closes .shutdown stack ∧
      before.Leaves .worker stack closed ∧
      closed.moves? [.step .worker, .step .worker] = some e ∧
      e.worker = .died (.literal "boom") ∧ e.access = .available := by
    refine ⟨_, _, _, _, [_], rfl, rfl, .inr ⟨_, none, ?_, .inr ⟨[], _, _, rfl⟩⟩,
      ⟨rfl, _, rfl, .inr ⟨_, rfl⟩⟩, rfl, rfl, rfl⟩
    rfl
  have hs : Executor.start { shutdownPolicy := .cancelPending } .stub ⟨0⟩ = .ok _ := rfl
  have hbefore := Reachable.refl.of_moves _ hb
  have hlater := Reachable.refl.of_moves _ he
  exact ⟨before, closed, e, a, stack, hbefore, ha, hc, hl, hlater, hw, hx,
    shutdown_is_final hs hbefore ha hc hl hlater⟩

end Executor

end Deferred
