import Deferred.Proofs.Executor.Ending

/-!
# Calls from their beginning to their end

A caller, or a callable, makes a call from above a stack of callables. A call that settles a batch
runs callbacks above that stack, which may make calls in turn; it is over when its thread is back at
the stack, with an answer or with a panic that goes on from there.

* `Activity.Settles`, `Activity.Closes`: a thread is in a call that settles a batch, or in the one
  that closes the executor.
* `Local.settles_on`, `Local.closes_on`: with every step of its thread such a call goes on, is
  answered, or is left by a panic.
* `Calls`, `Leaves`: a thread makes a call, or ends one.
* `stays_or_steps`: a thread stays where it is until it makes its next step.
* `Awaits`: a call is answered by the next step of its thread, whenever that is made.
-/

namespace Deferred

/-- What a call that settles a batch is about. -/
def Purpose.topic : Purpose → Topic
  | cancelAll => .cancelAll
  | closing how _ => how.topic

namespace Batch

/-- What a call answers that has settled a batch. -/
def answer (batch : Batch) : Answer :=
  match batch.purpose with
  | .cancelAll => .count batch.removed
  | .closing how failure => how.answer failure

/-- How a call that settles a batch goes on: the batch stays as it is, except that a callback may be
counted, or its first task is let go, which has no callback, or is called back. -/
inductive Advances (batch : Batch) (events : List Event) : Batch → Prop
  | stays (invoked : Nat) : Advances batch events { batch with invoked }
  | deals {task : Task Script} {tasks : Queue Script}
      (hp : batch.tasks.pop? = some (task, tasks))
      (hd : task.onCancel = none ∨ task.id ∈ events.flatMap (Event.startedIds .callback)) :
      Advances batch events { batch with tasks }

theorem Advances.purpose_eq {batch rest : Batch} {events : List Event}
    (h : batch.Advances events rest) : rest.purpose = batch.purpose := by
  cases h <;> rfl

end Batch

/-- How the executor is being closed, by a thread that has yet to remove the tasks that are left. -/
def Control.closing? : Control → Option Closing
  | flag how | rouse how | join how | drain how _ => some how
  | _ => none

namespace Activity

/-- A thread is in a call that it has made from above `stack` and that settles `batch`: it is about
to deal with the next task, or it runs the callback of one. -/
def Settles (batch : Batch) (stack : List Frame) (a : Activity) : Prop :=
  batch ∈ a.control.batches ∧ a.stack = stack ∨
    ∃ above task rest, a.stack = above ++ .callback task batch rest :: stack

/-- A thread is in the call that closes the executor, which it has made from above `stack`. -/
def Closes (how : Closing) (stack : List Frame) (a : Activity) : Prop :=
  a.control.closing? = some how ∧ a.stack = stack ∨
    ∃ batch failure, batch.purpose = .closing how failure ∧ a.Settles batch stack

/-- The failure that a call which closes the executor will answer, once it knows. -/
def Promises (failure : Option Error) (a : Activity) : Prop :=
  (∃ how, a.control = .drain how failure) ∨
    ∃ batch ∈ a.batches, ∃ how, batch.purpose = .closing how failure

/-- A thread is back where it has made a call from: the call has been answered, or left by a
panic. -/
def IsBack (stack : List Frame) (a : Activity) : Prop :=
  a = { stack } ∨ ∃ payload, a = ⟨.unwind payload, stack⟩

variable {a b : Activity} {batch : Batch} {stack below : List Frame} {frame : Frame} {how : Closing}

theorem Settles.not_isBack (h : a.Settles batch stack) : ¬ a.IsBack stack := by
  have hlong : ∀ above task rest, stack ≠ above ++ .callback task batch rest :: stack := by
    intro above task rest heq
    have := congrArg List.length heq
    simp only [List.length_append, List.length_cons] at this
    omega
  rintro (rfl | ⟨payload, rfl⟩)
  all_goals
    rcases h with ⟨hb, -⟩ | ⟨above, task, rest, hst⟩
    · cases hb
    · exact hlong above task rest hst

theorem Closes.not_isBack (h : a.Closes how stack) : ¬ a.IsBack stack := by
  rcases h with ⟨hc, -⟩ | ⟨batch, failure, -, hs⟩
  · rintro (rfl | ⟨payload, rfl⟩) <;> cases hc
  · exact hs.not_isBack

/-- The batch of a call in progress is in the hand of its thread. -/
theorem Settles.mem_batches (h : a.Settles batch stack) : batch ∈ a.batches := by
  rcases h with ⟨hm, -⟩ | ⟨above, task, rest, hst⟩
  · exact List.mem_append_left _ hm
  · rw [batches, hst]
    simp [Frame.batches]

/-- A thread that is in no callable and has no batch in hand settles none. -/
theorem not_settles_of_nil (hc : a.control.batches = []) (hst : a.stack = []) :
    ¬ a.Settles batch stack := by
  rintro (⟨hm, -⟩ | ⟨above, task, rest, heq⟩)
  · rw [hc] at hm
    cases hm
  · rw [hst] at heq
    exact List.append_ne_nil_of_right_ne_nil _ (List.cons_ne_nil _ _) heq.symm

/-- A thread in a call that settles a batch is not idle. -/
theorem Settles.isIdle_eq (h : a.Settles batch stack) : a.isIdle = false := by
  cases hi : a.isIdle with
  | false => rfl
  | true =>
    obtain rfl := eq_idle_of_isIdle hi
    exact absurd h (not_settles_of_nil rfl rfl)

/-- A thread in a call that closes the executor is not idle. -/
theorem Closes.isIdle_eq (h : a.Closes how stack) : a.isIdle = false := by
  rcases h with ⟨hc, -⟩ | ⟨batch, failure, -, hs⟩
  · cases hi : a.isIdle with
    | false => rfl
    | true =>
      obtain rfl := eq_idle_of_isIdle hi
      cases hc
  · exact hs.isIdle_eq

/-- Callables that have been begun above a call do not end it. -/
theorem Settles.of_stack (h : a.Settles batch stack) (hc : a.control.batches = [])
    (hb : b.stack = a.stack) : b.Settles batch stack := by
  rcases h with ⟨hm, -⟩ | hst
  · rw [hc] at hm
    cases hm
  · exact .inr (hb ▸ hst)

/-- The callable on top is the callback that a call runs, or it lies above that callback. -/
theorem Settles.top (h : Settles batch stack { stack := frame :: below }) :
    (∃ task rest, frame = .callback task batch rest ∧ below = stack) ∨
      ∃ above task rest, below = above ++ .callback task batch rest :: stack := by
  rcases h with ⟨hm, -⟩ | ⟨above, task, rest, hst⟩
  · cases hm
  · cases above with
    | nil =>
      obtain ⟨rfl, rfl⟩ := List.cons.inj hst
      exact .inl ⟨task, rest, rfl, rfl⟩
    | cons x above => exact .inr ⟨above, task, rest, (List.cons.inj hst).2⟩

/-- A callable on top that has ended has yet to be counted by the call that has run it. -/
theorem Settles.ended (h : Settles batch stack { stack := frame :: below }) (swallowed : Bool) :
    Settles batch stack ⟨.ended frame swallowed, below⟩ := by
  rcases h.top with ⟨task, rest, rfl, rfl⟩ | hst
  · exact .inl ⟨List.mem_singleton_self _, rfl⟩
  · exact .inr hst

/-- A callable on top may go on, and make calls. -/
theorem Settles.goOn (h : Settles batch stack { stack := frame :: below }) (rest : Script)
    (control : Control) : Settles batch stack ⟨control, frame.goOn rest :: below⟩ := by
  rcases h.top with ⟨task, _, rfl, rfl⟩ | ⟨above, task, _, rfl⟩
  · exact .inr ⟨[], task, rest, rfl⟩
  · exact .inr ⟨frame.goOn rest :: above, task, _, rfl⟩

/-- A panic that leaves the callable on top leaves the call, if it is the callback that the call has
run. -/
theorem Settles.pass (h : Settles batch stack { stack := frame :: below }) (payload : Payload) :
    Settles batch stack ⟨.unwind payload, below⟩ ∨ IsBack stack ⟨.unwind payload, below⟩ := by
  rcases h.top with ⟨task, _, rfl, rfl⟩ | hst
  · exact .inr (.inr ⟨payload, rfl⟩)
  · exact .inl (.inr hst)

end Activity

namespace Executor

variable {e next : Executor} {t : ThreadId} {a b : Activity} {c : Change} {w : WorkerState}
variable {batch : Batch} {stack : List Frame} {how : Closing}

/-! ## Steps within a call -/

theorem Opens.stack_eq {request : Request} (h : Opens e t stack request c b) : b.stack = stack := by
  cases h <;> rfl

theorem Catches.settles_on {payload : Payload} {frame : Frame} {below : List Frame}
    (h : Catches e payload frame below c b)
    (hs : Activity.Settles batch stack { stack := frame :: below }) :
    b.Settles batch stack ∨ ∃ payload, b = ⟨.unwind payload, stack⟩ := by
  cases h with
  | swallow => exact .inl (hs.ended true)
  | abort => exact .inl (hs.of_stack rfl rfl)
  | pass =>
    rcases hs.pass payload with hs | hb | hb
    · exact .inl hs
    · cases hb
    · exact .inr hb

/-- A call that settles a batch goes on with it, or it is answered when no task is left, or a panic
leaves it. -/
theorem Local.settles_on (h : Local e t a c b) (hs : a.Settles batch stack) :
    (∃ rest, batch.Advances c.events rest ∧ b.Settles rest stack) ∨
      (batch.tasks.pop? = none ∧ b = { stack } ∧
        ∃ earlier, c.events = answerEvent batch.purpose.topic stack batch.answer :: earlier) ∨
      ∃ payload, b = ⟨.unwind payload, stack⟩ := by
  have stays : b.Settles batch stack →
      ∃ rest, batch.Advances c.events rest ∧ b.Settles rest stack :=
    fun hb => ⟨batch, .stays batch.invoked, hb⟩
  cases h with
  | opens => exact absurd hs (Activity.not_settles_of_nil rfl rfl)
  | finish => exact .inl (stays (hs.ended false))
  | @call _ _ _ rest _ _ _ ho =>
    have hb := hs.goOn rest b.control
    rw [← ho.stack_eq] at hb
    exact .inl (stays hb)
  | raise _ hc =>
    rcases hc.settles_on hs with hb | hb
    · exact .inl (stays hb)
    · exact .inr (.inr hb)
  | unwind hc =>
    rcases hc.settles_on (hs.of_stack rfl rfl) with hb | hb
    · exact .inl (stays hb)
    · exact .inr (.inr hb)
  | leave => exact absurd hs (Activity.not_settles_of_nil rfl rfl)
  | letGo hp hn =>
    rcases hs with ⟨hm, rfl⟩ | hst
    · obtain rfl := List.mem_singleton.1 hm
      exact .inl ⟨_, .deals hp (.inl hn), .inl ⟨List.mem_singleton_self _, rfl⟩⟩
    · exact .inl (stays (.inr hst))
  | @callBack _ _ task _ script hp hc =>
    rcases hs with ⟨hm, rfl⟩ | ⟨above, id, rest, rfl⟩
    · obtain rfl := List.mem_singleton.1 hm
      exact .inl ⟨_, .deals hp (.inr (List.mem_singleton_self _)), .inr ⟨[], task.id, script, rfl⟩⟩
    · exact .inl (stays (.inr ⟨_ :: above, id, rest, rfl⟩))
  | canceled hp hb =>
    rcases hs with ⟨hm, rfl⟩ | hst
    · obtain rfl := List.mem_singleton.1 hm
      refine .inr (.inl ⟨hp, rfl, ?_⟩)
      rw [Batch.answer, hb]
      exact ⟨_, rfl⟩
    · exact .inl (stays (.inr hst))
  | settled hp hb =>
    rcases hs with ⟨hm, rfl⟩ | hst
    · obtain rfl := List.mem_singleton.1 hm
      refine .inr (.inl ⟨hp, rfl, ?_⟩)
      rw [Batch.answer, hb]
      exact ⟨_, rfl⟩
    · exact .inl (stays (.inr hst))
  | calledBack =>
    rcases hs with ⟨hm, rfl⟩ | hst
    · obtain rfl := List.mem_singleton.1 hm
      exact .inl ⟨_, .stays _, .inl ⟨List.mem_singleton_self _, rfl⟩⟩
    · exact .inl (stays (.inr hst))
  | _ => exact .inl (stays (hs.of_stack rfl rfl))

/-- The call that closes the executor goes on, or it is answered with the failure that it knows of,
or a panic leaves it. -/
theorem Local.closes_on (h : Local e t a c b) (hc : a.Closes how stack) :
    b.Closes how stack ∨
      (b = { stack } ∧ ∃ failure, a.Promises failure ∧
        ∃ earlier, c.events = answerEvent how.topic stack (how.answer failure) :: earlier) ∨
      ∃ payload, b = ⟨.unwind payload, stack⟩ := by
  rcases hc with ⟨hc, rfl⟩ | ⟨batch, failure, hp, hs⟩
  · cases h with
    | flag | rouse | joinSelf | joinStopped | joinDied => exact .inl (.inl ⟨hc, rfl⟩)
    | drain =>
      obtain rfl := Option.some.inj hc
      exact .inl (.inr ⟨_, _, rfl, .inl ⟨List.mem_singleton_self _, rfl⟩⟩)
    | discard =>
      obtain rfl := Option.some.inj hc
      exact .inr (.inl ⟨rfl, _, .inl ⟨_, rfl⟩, _, rfl⟩)
    | _ => cases hc
  · rcases h.settles_on hs with ⟨rest, hrest, hb⟩ | ⟨-, hb, earlier, he⟩ | hb
    · exact .inl (.inr ⟨rest, failure, hrest.purpose_eq.trans hp, hb⟩)
    · rw [Batch.answer, hp] at he
      exact .inr (.inl ⟨hb, failure, .inr ⟨batch, hs.mem_batches, how, hp⟩, earlier, he⟩)
    · exact .inr (.inr hb)

/-- The worker neither begins nor ends an action while it is in a call that settles a batch. -/
theorem Goes.of_settles (h : Goes e t a next) (hs : a.Settles batch stack) :
    ∃ c b, Local e t a c b ∧ next = e.after t c b := by
  cases h with
  | continues hl => exact ⟨_, _, hl, rfl⟩
  | finishes ht hw => cases hw <;> cases Activity.not_settles_of_nil rfl rfl hs

/-- The worker neither begins nor ends an action while it is in a call that closes the executor. -/
theorem Goes.of_closes (h : Goes e t a next) (hc : a.Closes how stack) :
    ∃ c b, Local e t a c b ∧ next = e.after t c b := by
  rcases hc with ⟨hc, -⟩ | ⟨batch, failure, -, hs⟩
  · cases h with
    | continues hl => exact ⟨_, _, hl, rfl⟩
    | finishes ht hw => cases hw <;> cases hc
  · exact h.of_settles hs

/-! ## Making a call -/

/-- A thread makes a call from above `stack`: a caller that makes none yet, or a callable that comes
to it. -/
inductive Calls (e : Executor) : ThreadId → Request → List Frame → Executor → Prop
  | caller {n : Nat} {request : Request} {next : Executor}
      (hm : e.move? (.call n request) = some next) : Calls e (.caller n) request [] next
  | callable {t : ThreadId} {frame : Frame} {below : List Frame} {request : Request} {rest : Script}
      {next : Executor} (ha : e.activity? t = some ⟨.ready, frame :: below⟩)
      (hh : frame.rest.head = .call request rest) (hm : e.move? (.step t) = some next) :
      Calls e t request (frame.goOn rest :: below) next

theorem Calls.move {request : Request} (h : e.Calls t request stack next) :
    ∃ m, e.move? m = some next := by
  cases h with
  | caller hm | callable _ _ hm => exact ⟨_, hm⟩

theorem Calls.reachable {start : Executor} {request : Request} (h : e.Calls t request stack next)
    (hr : start.Reachable e) : start.Reachable next := by
  obtain ⟨m, hm⟩ := h.move
  exact hr.move m hm

/-- A call is made in a process that goes on only. -/
theorem Calls.not_aborted {request : Request} (h : e.Calls t request stack next) :
    e.aborted = false := by
  cases h with
  | @caller n _ _ hm =>
    cases hrun : e.aborted with
    | false => rfl
    | true => simp [move?, hrun] at hm
  | callable _ _ hm => exact not_aborted_of_step hm

/-- A call begins with its first step. -/
theorem Calls.eq_begin {request : Request} (h : e.Calls t request stack next) :
    next = e.begin t stack request := by
  cases h with
  | caller hm =>
    unfold move? at hm
    simp only at hm
    split at hm
    · exact (Option.some.inj hm).symm
    · cases hm
  | callable ha hh hm =>
    have hstep := advance_of_step ha hm
    rw [← Option.some.inj hstep, resume, hh]

/-- The thread of a call makes the step that ends it. -/
def Leaves (e : Executor) (t : ThreadId) (stack : List Frame) (next : Executor) : Prop :=
  e.move? (.step t) = some next ∧ ∃ b, next.activity? t = some b ∧ b.IsBack stack

/-! ## Waiting for the next step -/

/-- No other thread changes how far a thread is. -/
theorem activity?_of_move {m : Move} (hs : e.Orderly) (hm : e.move? m = some next)
    (ha : e.activity? t = some a) (hi : a.isIdle = false) (hne : m ≠ .step t) :
    next.activity? t = some a := by
  cases makes_of_move hs hm with
  | @opens n _ _ _ hidle =>
    have ht : t ≠ .caller n := by
      rintro rfl
      obtain rfl := Option.some.inj (hidle.symm.trans ha)
      cases hi
    rw [activity?_after_ne ht, ha]
  | goes _ hg =>
    have hu := fun h => hne (congrArg Move.step h).symm
    cases hg with
    | continues => rw [activity?_after_ne hu, ha]
    | finishes hworker =>
      subst hworker
      cases t with
      | worker => exact absurd rfl hu
      | caller n => exact ha
  | looks =>
    cases t with
    | worker => exact absurd rfl hne
    | caller n => exact ha
  | wakes hw =>
    cases t with
    | worker =>
      rw [activity?_worker, hw] at ha
      cases ha
    | caller n => exact ha
  | ticks => cases t <;> exact ha

/-- A step of a thread answers the call that it has made from above `stack`, and does nothing else
to what the threads share but that it may count and log. -/
structure Answers (e : Executor) (t : ThreadId) (topic : Topic) (stack : List Frame)
    (answer : Answer) (next : Executor) : Prop where
  move : e.move? (.step t) = some next
  back : next.activity? t = some { stack }
  told : next.trace.head? = some ⟨t, answerEvent topic stack answer⟩
  guarded : next.guarded = e.guarded
  begins : ∀ role, next.startedIds role = e.startedIds role

theorem answers_of_after {topic : Topic} {answer : Answer} {earlier : List Event}
    (hm : e.step? t = some (e.after t c { stack }))
    (he : c.events = answerEvent topic stack answer :: earlier) (hg : c.guarded = e.guarded)
    (hb : ∀ role, earlier.flatMap (Event.startedIds role) = []) :
    e.Answers t topic stack answer (e.after t c { stack }) where
  move := hm
  back := activity?_after_self
  told := by
    rw [trace_after, he]
    rfl
  guarded := by rw [guarded_after, hg]
  begins role := by
    rw [startedIds, startedIds, gather_after, he]
    simp [hb role]

/-- The next step of a thread answers the call that it has made from above `stack`: in every later
state it has made that step, or it can make it at once, unless the process has ended. -/
def Awaits (e : Executor) (t : ThreadId) (topic : Topic) (stack : List Frame)
    (answer : Executor → Answer) : Prop :=
  ∀ last, e.Reachable last → last.aborted = false → ∃ before next, e.Reachable before ∧
    before.Answers t topic stack (answer before) next ∧ (before = last ∨ next.Reachable last)

/-- From a state on, a thread makes the step that it has to make next when it is as far as `a`. -/
structure StepsAt (e : Executor) (t : ThreadId) (a : Activity) (before next : Executor) : Prop where
  reachable : e.Reachable before
  activity : before.activity? t = some a
  move : before.move? (.step t) = some next

theorem StepsAt.reaches {before : Executor} (h : e.StepsAt t a before next) : e.Reachable next :=
  h.reachable.move _ h.move

/-- A thread stays where it is until it makes its next step. -/
theorem stays_or_steps (hs : e.Orderly) (ha : e.activity? t = some a) (hi : a.isIdle = false)
    {last : Executor} (hl : e.Reachable last) :
    last.activity? t = some a ∨
      ∃ before next, e.StepsAt t a before next ∧ next.Reachable last := by
  induction hl with
  | refl => exact .inl ha
  | @move before after m hb hm ih =>
    rcases ih with hsame | ⟨d, next, hsteps, hn⟩
    · by_cases hmt : m = .step t
      · subst hmt
        exact .inr ⟨before, after, ⟨hb, hsame, hm⟩, .refl⟩
      · exact .inl (activity?_of_move (hb.orderly hs) hm hsame hi hmt)
    · exact .inr ⟨d, next, hsteps, hn.move m hm⟩

/-- A thread waits for its next step as long as it does not make it. -/
theorem awaits_of_activity {topic : Topic} {answer : Executor → Answer} (hs : e.Orderly)
    (ha : e.activity? t = some a) (hi : a.isIdle = false)
    (hstep : ∀ later, e.Reachable later → later.aborted = false → later.activity? t = some a →
      ∃ next, later.Answers t topic stack (answer later) next) :
    e.Awaits t topic stack answer := by
  intro last hl hrun
  rcases stays_or_steps hs ha hi hl with hsame | ⟨before, next, hsteps, hn⟩
  · obtain ⟨next, hans⟩ := hstep last hl hrun hsame
    exact ⟨last, next, hl, hans, .inl rfl⟩
  · obtain ⟨next', hans⟩ :=
      hstep before hsteps.reachable (not_aborted_of_step hsteps.move) hsteps.activity
    obtain rfl := Option.some.inj (hans.move.symm.trans hsteps.move)
    exact ⟨before, next', hsteps.reachable, hans, .inr hn⟩

end Executor

end Deferred
