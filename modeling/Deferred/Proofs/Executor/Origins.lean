import Deferred.Proofs.Executor.Report

/-!
# Where a batch in hand comes from

A thread that settles tasks has removed them itself, in the call in which it does so. This is told
backwards: what a thread is in the middle of after a move it was in the middle of before, or the
move has begun it.

* `Local.settles_from`, `Local.closing_from`: what a thread is in the middle of, one step back.
* `Arrives`, `arrives_of_move`: how a thread has come to be as far as it is after a move.
* `HasCalled`, `Removes`: a thread has made a call, and a call of a thread removes what is pending.
* `HasRemoved`: a call of a thread has removed a task; `hasRemoved_of_settles`: it is the call that
  settles the task.
-/

namespace Deferred

/-- The calls that remove what is pending. -/
def Request.removes : Request → Bool
  | cancelAll | shutdown | drop => true
  | schedule _ | pending | threadName => false

namespace Activity

/-- A thread comes to a call, which a callable makes from above `stack`. -/
def Comes (request : Request) (stack : List Frame) (a : Activity) : Prop :=
  ∃ frame below rest, a = { stack := frame :: below } ∧ frame.rest.head = .call request rest ∧
    stack = frame.goOn rest :: below

variable {rest : Batch} {stack below : List Frame} {frame : Frame}

/-- A callable that has ended was in progress in the same call. -/
theorem Settles.of_ended {swallowed : Bool}
    (h : Settles rest stack ⟨.ended frame swallowed, below⟩) :
    Settles rest stack { stack := frame :: below } := by
  rcases h with ⟨hm, rfl⟩ | ⟨above, task, script, heq⟩
  · cases frame with
    | action => cases hm
    | callback task batch script =>
      obtain rfl := List.mem_singleton.1 hm
      exact .inr ⟨[], task, script, rfl⟩
  · exact .inr ⟨frame :: above, task, script, congrArg (frame :: ·) heq⟩

/-- A callable that has gone on was in progress in the same call. -/
theorem Settles.of_goOn {script : Script}
    (h : Settles rest stack { stack := frame.goOn script :: below }) :
    Settles rest stack { stack := frame :: below } := by
  rcases h.top with ⟨task, script, heq, rfl⟩ | ⟨above, task, script, rfl⟩
  · cases frame with
    | action => cases heq
    | callback =>
      obtain ⟨rfl, rfl, -⟩ := Frame.callback.inj heq
      exact .inr ⟨[], _, _, rfl⟩
  · exact .inr ⟨frame :: above, task, script, rfl⟩

/-- A call that is about to deal with its next task settles that batch and no other. -/
theorem Settles.eq_of_settle {batch : Batch}
    (h : Settles rest stack ⟨.settle batch, stack⟩) : rest = batch := by
  rcases h with ⟨hm, -⟩ | ⟨above, task, script, heq⟩
  · exact List.mem_singleton.1 hm
  · have := congrArg List.length heq
    simp only [List.length_append, List.length_cons] at this
    omega

end Activity

namespace Executor

variable {e next : Executor} {t u : ThreadId} {a b : Activity} {c : Change}
variable {stack : List Frame} {batch rest : Batch} {how : Closing} {id : TaskId}

/-! ## What a thread is in the middle of -/

theorem Opens.settles_from {request : Request} {below : List Frame}
    (h : Opens e t below request c b) (hb : b.Settles rest stack) :
    Activity.Settles rest stack { stack := below } ∨ request = .cancelAll ∧ below = stack := by
  cases h with
  | cancelAll =>
    rcases hb with ⟨-, hstack⟩ | hb
    · exact .inr ⟨rfl, hstack⟩
    · exact .inl (.inr hb)
  | _ => exact .inl (hb.of_stack rfl rfl)

theorem Catches.settles_from {frame : Frame} {payload : Payload} {below : List Frame}
    (h : Catches e payload frame below c b) (hb : b.Settles rest stack) :
    Activity.Settles rest stack { stack := frame :: below } := by
  cases h with
  | swallow => exact hb.of_ended
  | abort => exact hb.of_stack rfl rfl
  | pass =>
    obtain ⟨above, task, script, heq⟩ := hb.resolve_left fun h => by cases h.1
    exact .inr ⟨frame :: above, task, script, congrArg (frame :: ·) heq⟩

theorem Calls.of_comes {request : Request} (h : a.Comes request stack)
    (ha : e.activity? t = some a) (hm : e.move? (.step t) = some next) :
    e.Calls t request stack next := by
  obtain ⟨frame, below, rest, rfl, hh, rfl⟩ := h
  exact .callable ha hh hm

/-- A batch that a call settles after a step of its thread it was settling before, or the call
removes what is pending in this step. -/
theorem Local.settles_from (h : Local e t a c b) (hb : b.Settles rest stack) :
    (∃ batch, a.Settles batch stack ∧ ∀ task ∈ rest.tasks.tasks, task ∈ batch.tasks.tasks) ∨
      a = .idle ∨ a.Comes .cancelAll stack ∨ ∃ how failure, a = ⟨.drain how failure, stack⟩ := by
  have same : a.Settles rest stack → (∃ batch, a.Settles batch stack ∧
      ∀ task ∈ rest.tasks.tasks, task ∈ batch.tasks.tasks) ∨
      a = .idle ∨ a.Comes .cancelAll stack ∨ ∃ how failure, a = ⟨.drain how failure, stack⟩ :=
    fun hs => .inl ⟨rest, hs, fun _ hm => hm⟩
  cases h with
  | opens => exact .inr (.inl rfl)
  | finish => exact same hb.of_ended
  | @call frame below _ script _ _ hh ho =>
    rcases ho.settles_from hb with hs | ⟨rfl, rfl⟩
    · exact same hs.of_goOn
    · exact .inr (.inr (.inl ⟨frame, below, script, rfl, hh, rfl⟩))
  | raise _ hc => exact same (hc.settles_from hb)
  | unwind hc => exact same ((hc.settles_from hb).of_stack rfl rfl)
  | @letGo batch _ _ _ hp =>
    rcases hb with ⟨hm, rfl⟩ | hb
    · obtain rfl := List.mem_singleton.1 hm
      exact .inl ⟨batch, .inl ⟨List.mem_singleton_self _, rfl⟩,
        fun task hm => (Queue.mem_pop hp).2 (.inr hm)⟩
    · exact same (.inr hb)
  | @callBack batch _ _ _ _ hp =>
    rcases hb.top with ⟨task, script, heq, rfl⟩ | hb
    · obtain ⟨-, rfl, -⟩ := Frame.callback.inj heq
      exact .inl ⟨batch, .inl ⟨List.mem_singleton_self _, rfl⟩,
        fun task hm => (Queue.mem_pop hp).2 (.inr hm)⟩
    · exact same (.inr hb)
  | @calledBack _ batch =>
    rcases hb with ⟨hm, rfl⟩ | hb
    · obtain rfl := List.mem_singleton.1 hm
      exact .inl ⟨batch, .inl ⟨List.mem_singleton_self _, rfl⟩, fun _ hm => hm⟩
    · exact same (.inr hb)
  | @drain how failure =>
    rcases hb with ⟨-, rfl⟩ | hb
    · exact .inr (.inr (.inr ⟨how, failure, rfl⟩))
    · exact same (.inr hb)
  | leave => exact absurd hb (Activity.not_settles_of_nil rfl rfl)
  | canceled | settled =>
    exact same (.inr (hb.resolve_left fun h => by cases h.1))
  | @accept _ _ _ first => cases first <;> exact same (hb.of_stack rfl rfl)
  | _ => exact same (hb.of_stack rfl rfl)

theorem Opens.closing_from {request : Request} (h : Opens e t stack request c b)
    (hb : b.control.closing? = some how) : b = ⟨.flag how, stack⟩ := by
  cases h with
  | close =>
    obtain rfl := Option.some.inj hb
    rfl
  | _ => cases hb

/-- A call that has yet to remove the tasks that are left had yet to do so before, or it is made in
this step. -/
theorem Local.closing_from (h : Local e t a c b) (hb : b.control.closing? = some how) :
    a.control.closing? = some how ∧ a.stack = b.stack ∨ a = .idle ∨
      ∃ request stack, a.Comes request stack ∧ b = ⟨.flag how, stack⟩ := by
  cases h with
  | opens => exact .inr (.inl rfl)
  | @call frame below request script _ _ hh ho =>
    exact .inr (.inr ⟨request, _, ⟨frame, below, script, rfl, hh, rfl⟩, ho.closing_from hb⟩)
  | raise _ hc | unwind hc => cases hc <;> cases hb
  | @accept _ _ _ first => cases first <;> cases hb
  | flag | rouse | joinSelf | joinStopped | joinDied => exact .inl ⟨hb, rfl⟩
  | _ => cases hb

/-! ## How a thread has come to where it is -/

/-- How a thread has come to be as far as it is after a move. -/
inductive Arrives (e : Executor) (u : ThreadId) (b : Activity) (next : Executor) : Prop
  /-- It is a caller and has begun a call. -/
  | calls {n : Nat} {request : Request} {c : Change} (hu : u = .caller n)
      (hm : e.move? (.call n request) = some next) (ho : Opens e u [] request c b)
  /-- It has made a step. -/
  | steps {a : Activity} {c : Change} (ha : e.activity? u = some a) (hi : a ≠ .idle)
      (hm : e.move? (.step u) = some next) (hl : Local e u a c b)
  /-- It is the worker and has begun an action. -/
  | takesUp {id : TaskId} {deadline started : Instant} {script : Script} (hu : u = .worker)
      (hb : b = { stack := [.action id deadline started script] })
  /-- It was as far before. -/
  | stays (ha : e.activity? u = some b)

theorem arrives_of_move (ho : e.Orderly) {m : Move} (hm : e.move? m = some next)
    (hb : next.activity? u = some b) : Arrives e u b next := by
  cases makes_of_move ho hm with
  | opens ha hopens =>
    rcases activity?_after hb with ⟨rfl, rfl⟩ | ⟨-, hother⟩
    · exact .calls rfl hm hopens
    · exact .stays hother
  | @goes t a _ ha hg =>
    have hidle : a ≠ .idle := by
      rintro rfl
      cases advance_of_step ha hm
    cases hg with
    | continues hl =>
      rcases activity?_after hb with ⟨rfl, rfl⟩ | ⟨-, hother⟩
      · exact .steps ha hidle hm hl
      · exact .stays hother
    | finishes ht hw =>
      rcases activity?_afterTurn hb with ⟨-, rfl⟩ | ⟨-, hother⟩
      · cases hw
      · exact .stays hother
  | looks hv hw =>
    rcases activity?_afterTurn hb with ⟨rfl, rfl⟩ | ⟨-, hother⟩
    · cases hw with
      | run => exact .takesUp rfl rfl
    · exact .stays hother
  | wakes hv =>
    rcases activity?_afterTurn hb with ⟨-, hbusy⟩ | ⟨-, hother⟩
    · cases hbusy
    · exact .stays hother
  | ticks => exact .stays (by cases u <;> exact hb)

/-- A call that is over at once leaves its thread where it was made. -/
@[simp] theorem activity?_reply (e : Executor) (t : ThreadId) (topic : Topic)
    (stack : List Frame) (answer : Answer) :
    (e.reply t topic stack answer).activity? t = some { stack } := by
  rw [reply_eq, activity?_after_self]

theorem flag_of_beginClosing {chosen : Closing}
    (h : (e.beginClosing t stack chosen).activity? t = some ⟨.flag how, stack⟩) : chosen = how := by
  unfold beginClosing at h
  split at h
  · rw [activity?_setActivity_self] at h
    cases h
    rfl
  · rw [endClosing, activity?_reply] at h
    cases h

/-- The call that sets out to close the executor is a shutdown or a drop, as it says. -/
theorem Calls.request_of_flag {request : Request} (hc : e.Calls t request stack next)
    (ha : next.activity? t = some ⟨.flag how, stack⟩) : request = how.request := by
  rw [hc.eq_begin] at ha
  unfold begin at ha
  split at ha
  case h_5 | h_6 => exact flag_of_beginClosing ha ▸ rfl
  all_goals
    simp only [make, beginCancelAll, activity?_reply, activity?_setActivity_self] at ha
    first
    | cases ha
    | split at ha <;> simp at ha

/-- A thread has made a call from above `stack`. -/
def HasCalled (start : Executor) (t : ThreadId) (request : Request) (stack : List Frame)
    (e : Executor) : Prop :=
  ∃ before called, start.Reachable before ∧ before.Calls t request stack called ∧
    called.Reachable e

theorem closing_of_move (ho : e.Orderly) {m : Move} (hm : e.move? m = some next)
    (hb : next.activity? u = some b) (hc : b.control.closing? = some how) :
    (∃ a, e.activity? u = some a ∧ a.control.closing? = some how ∧ a.stack = b.stack) ∨
      e.Calls u how.request b.stack next := by
  cases arrives_of_move ho hm hb with
  | calls hu hm hopens =>
    subst hu
    obtain rfl := hopens.closing_from hc
    have hcalls := Calls.caller hm
    exact .inr (hcalls.request_of_flag hb ▸ hcalls)
  | steps ha hi hm hl =>
    rcases hl.closing_from hc with ⟨hac, hst⟩ | hidle | ⟨request, stack, hcomes, rfl⟩
    · exact .inl ⟨_, ha, hac, hst⟩
    · exact absurd hidle hi
    · have hcalls := Calls.of_comes hcomes ha hm
      exact .inr (hcalls.request_of_flag hb ▸ hcalls)
  | takesUp _ hready =>
    rw [hready] at hc
    cases hc
  | stays ha => exact .inl ⟨b, ha, hc, rfl⟩

/-! ## Where tasks in hand come from -/

/-- A thread removes what is pending, in a call that it has made from above `stack`, and sets out to
settle it. -/
structure Removes (start before : Executor) (t : ThreadId) (stack : List Frame)
    (next : Executor) : Prop where
  reachable : start.Reachable before
  move : ∃ m, before.move? m = some next
  called : ∃ request, request.removes = true ∧ start.HasCalled t request stack next
  settles : ∃ purpose,
    next.activity? t = some ⟨.settle (.ofQueue purpose before.guarded.pending), stack⟩
  told : next.trace = ⟨t, .removed before.guarded.pending.ids⟩ :: before.trace

/-- A call that a thread has made from above `stack` has removed a task. -/
def HasRemoved (start : Executor) (t : ThreadId) (stack : List Frame) (id : TaskId)
    (e : Executor) : Prop :=
  ∃ before next, start.Removes before t stack next ∧ id ∈ before.guarded.pending.ids ∧
    next.Reachable e

theorem HasRemoved.reachable {start last : Executor} (h : start.HasRemoved t stack id e)
    (hl : e.Reachable last) : start.HasRemoved t stack id last := by
  obtain ⟨before, removed, hremoves, hid, hr⟩ := h
  exact ⟨before, removed, hremoves, hid, hr.trans hl⟩

section Runs

variable {config : Config} {telemetry : Telemetry} {clock : Instant} {start : Executor}

/-- A thread that closes the executor has made the call to do so. -/
theorem hasCalled_of_closing (hs : Executor.start config telemetry clock = .ok start)
    (hr : start.Reachable e) (ha : e.activity? t = some a) (hc : a.control.closing? = some how) :
    start.HasCalled t how.request a.stack e := by
  induction hr generalizing a with
  | refl =>
    obtain rfl := eq_initial_of_start hs
    obtain ⟨rfl, -⟩ := activity?_initial ha
    cases hc
  | @move before after m hb hm ih =>
    rcases closing_of_move (orderly_of_start hs hb) hm ha hc with ⟨a', ha', hc', hst⟩ | hcalls
    · obtain ⟨earlier, called, he, hcall, hcalled⟩ := ih ha' hc'
      exact ⟨earlier, called, he, hst ▸ hcall, hcalled.move m hm⟩
    · exact ⟨before, after, hb, hcalls, .refl⟩

/-- A call of `cancelAll` that sets out to settle tasks has just removed them. -/
theorem removes_of_cancelAll (hr : start.Reachable e) (hc : e.Calls t .cancelAll stack next)
    (hb : next.activity? t = some b) (hset : b.Settles rest stack) :
    start.Removes e t stack next ∧ rest.tasks = e.guarded.pending := by
  have hbegin : next = e.beginCancelAll t stack := by
    rw [hc.eq_begin] at hb ⊢
    cases hx : e.access with
    | available => simp only [begin, hx]
    | engaged | dropped =>
      simp only [begin, hx, activity?_reply] at hb
      obtain rfl := Option.some.inj hb
      exact absurd (.inl rfl) hset.not_isBack
  have ha : next.activity? t =
      some ⟨.settle (.ofQueue .cancelAll e.guarded.pending), stack⟩ := by
    rw [hbegin, beginCancelAll, activity?_setActivity_self]
    rfl
  obtain rfl := Option.some.inj (hb.symm.trans ha)
  refine ⟨⟨hr, hc.move, ⟨_, rfl, e, next, hr, hc, .refl⟩, ⟨_, ha⟩, ?_⟩, ?_⟩
  · rw [hbegin, beginCancelAll, trace_setActivity]
    rfl
  · rw [hset.eq_of_settle]
    rfl

/-- So has the call that closes the executor, when it sets out to settle tasks. -/
theorem removes_of_drain (hs : Executor.start config telemetry clock = .ok start)
    (hr : start.Reachable e) {failure : Option Error}
    (ha : e.activity? t = some ⟨.drain how failure, stack⟩) (hm : e.move? (.step t) = some next)
    (hb : next.activity? t = some b) (hset : b.Settles rest stack) :
    start.Removes e t stack next ∧ rest.tasks = e.guarded.pending := by
  obtain rfl : e.drainPending t stack how failure = next :=
    Option.some.inj (advance_of_step ha hm)
  cases hp : e.config.shutdownPolicy with
  | discard =>
    simp only [drainPending, hp, endClosing, activity?_reply] at hb
    obtain rfl := Option.some.inj hb
    exact absurd (.inl rfl) hset.not_isBack
  | cancelPending =>
    have hnext : e.drainPending t stack how failure = (e.removeAll t).setActivity
        ⟨.settle (.ofQueue (.closing how failure) e.guarded.pending), stack⟩ t := by
      simp only [drainPending, hp]
      rfl
    rw [hnext, activity?_setActivity_self] at hb
    obtain rfl := Option.some.inj hb
    obtain ⟨before, called, hbefore, hcall, hcalled⟩ := hasCalled_of_closing hs hr ha rfl
    refine ⟨⟨hr, ⟨_, hm⟩, ⟨how.request, ?_, before, called, hbefore, hcall, hcalled.move _ hm⟩,
      ⟨.closing how failure, ?_⟩, ?_⟩, ?_⟩
    · cases how <;> rfl
    · rw [hnext, activity?_setActivity_self]
    · rw [hnext, trace_setActivity]
      rfl
    · rw [hset.eq_of_settle]
      rfl

theorem settles_of_move (hs : Executor.start config telemetry clock = .ok start)
    (hr : start.Reachable e) {m : Move} (hm : e.move? m = some next)
    (hb : next.activity? u = some b) (hset : b.Settles rest stack) :
    (∃ a batch, e.activity? u = some a ∧ a.Settles batch stack ∧
      ∀ task ∈ rest.tasks.tasks, task ∈ batch.tasks.tasks) ∨
    start.Removes e u stack next ∧ rest.tasks = e.guarded.pending := by
  cases arrives_of_move (orderly_of_start hs hr) hm hb with
  | calls hu hm hopens =>
    subst hu
    rcases hopens.settles_from hset with hnil | ⟨rfl, rfl⟩
    · exact absurd hnil (Activity.not_settles_of_nil rfl rfl)
    · exact .inr (removes_of_cancelAll hr (.caller hm) hb hset)
  | steps ha hi hm hl =>
    rcases hl.settles_from hset with ⟨batch, hbatch, hsub⟩ | hidle | hcomes | ⟨how, failure, rfl⟩
    · exact .inl ⟨_, batch, ha, hbatch, hsub⟩
    · exact absurd hidle hi
    · exact .inr (removes_of_cancelAll hr (.of_comes hcomes ha hm) hb hset)
    · exact .inr (removes_of_drain hs hr ha hm hb hset)
  | takesUp _ hready =>
    subst hready
    rcases hset.top with ⟨task, script, heq, -⟩ | ⟨above, task, script, heq⟩
    · cases heq
    · exact absurd heq.symm (List.append_ne_nil_of_right_ne_nil _ (List.cons_ne_nil _ _))
  | stays ha => exact .inl ⟨b, rest, ha, hset, fun _ hm => hm⟩

/-- The tasks of a batch that a call settles were removed by that call. -/
theorem hasRemoved_of_settles (hs : Executor.start config telemetry clock = .ok start)
    (hr : start.Reachable e) (ha : e.activity? t = some a) (hset : a.Settles batch stack)
    {task : Task Script} (htask : task ∈ batch.tasks.tasks) :
    start.HasRemoved t stack task.id e := by
  induction hr generalizing a batch with
  | refl =>
    obtain rfl := eq_initial_of_start hs
    obtain ⟨rfl, -⟩ := activity?_initial ha
    exact absurd hset (Activity.not_settles_of_nil rfl rfl)
  | @move before after m hb hm ih =>
    rcases settles_of_move hs hb hm ha hset with ⟨a', batch', ha', hset', hsub⟩ | ⟨hremoves, heq⟩
    · exact (ih ha' hset' (hsub task htask)).reachable (.move m .refl hm)
    · refine ⟨before, after, hremoves, Queue.mem_ids.2 ⟨task, ?_, rfl⟩, .refl⟩
      rwa [heq] at htask

end Runs

end Executor

end Deferred
