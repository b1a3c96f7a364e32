import Deferred.Proofs.Executor.Calls
import Deferred.Proofs.Executor.Counters

/-!
# The death of the worker

A panic that is not swallowed and leaves the worker's action ends the worker. From then on the flag
tells so, no task is accepted any more, and no action is begun.

* `WorkerState.death?`: the panic that has ended the worker.
* `Executor.panicsOf`: the panics that the callables of a thread have raised.
* `Mortal`: the flag is set if and only if a panic has ended the worker, which is the one that the
  worker has raised last; `dies_iff`: and it is set in the very step in which the worker dies.
* `awaits_refusal`: what a call that schedules a task is told once the worker is to end.
-/

namespace Deferred

/-- The panic that has ended the worker. -/
def WorkerState.death? : WorkerState → Option Payload
  | died payload => some payload
  | _ => none

theorem WorkerState.death?_eq_some {w : WorkerState} {payload : Payload} :
    w.death? = some payload ↔ w = .died payload := by
  cases w <;> simp [death?]

namespace Event

/-- The panic of a callable. -/
def panics : Event → List Payload
  | raised _ payload => [payload]
  | _ => []

/-- The tasks that are pending when the worker says that a panic leaves it. -/
def unwindings : Event → List Nat
  | logged (.workerUnwinding pending) => [pending]
  | _ => []

@[simp] theorem panics_raised (task : TaskId) (payload : Payload) :
    (raised task payload).panics = [payload] := rfl

@[simp] theorem panics_eq_nil {event : Event} (h : ∀ task payload, event ≠ raised task payload) :
    event.panics = [] := by
  cases event with
  | raised task payload => exact absurd rfl (h task payload)
  | _ => rfl

@[simp] theorem panics_lines (lines : List LogLine) : (lines.map logged).flatMap panics = [] :=
  List.flatMap_eq_nil_iff.2 fun event h => by
    obtain ⟨line, -, rfl⟩ := List.mem_map.1 h
    rfl

@[simp] theorem unwindings_workerUnwinding (pending : Nat) :
    (logged (.workerUnwinding pending)).unwindings = [pending] := rfl

@[simp] theorem unwindings_eq_nil {event : Event}
    (h : ∀ pending, event ≠ logged (.workerUnwinding pending)) : event.unwindings = [] := by
  cases event with
  | logged line =>
    cases line with
    | workerUnwinding pending => exact absurd rfl (h pending)
    | _ => rfl
  | _ => rfl

@[simp] theorem unwindings_answerEvent (topic : Topic) (stack : List Frame) (answer : Answer) :
    (answerEvent topic stack answer).unwindings = [] := by
  cases stack <;> rfl

@[simp] theorem unwindings_warning (h : Handler) (payload : Payload) :
    ((h.warning payload).toList.map logged).flatMap unwindings = [] := by
  unfold Handler.warning
  split <;> rfl

@[simp] theorem unwindings_failureLines (e : Executor) (how : Closing) (failure : Option Error) :
    ((e.failureLines how failure).map logged).flatMap unwindings = [] := by
  cases how <;> cases failure <;> rfl

end Event

namespace Executor

variable {e next : Executor} {t u : ThreadId} {a b : Activity} {c : Change} {v w : WorkerState}
variable {stack : List Frame} {payload : Payload}

/-! ## Panics and their threads -/

/-- The panics that the callables of a thread have raised, the latest first. -/
def panicsOf (e : Executor) (t : ThreadId) : List Payload :=
  e.trace.flatMap fun entry => if entry.thread = t then entry.event.panics else []

theorem panicsOf_after_self :
    (e.after t c b).panicsOf t = c.events.flatMap Event.panics ++ e.panicsOf t := by
  simp [panicsOf, trace_after, List.flatMap_append, List.flatMap_map]

theorem panicsOf_after_ne (h : u ≠ t) : (e.after t c b).panicsOf u = e.panicsOf u := by
  simp [panicsOf, trace_after, List.flatMap_append, List.flatMap_map, h.symm]

theorem panicsOf_afterTurn (h : c.events.flatMap Event.panics = []) :
    (e.afterTurn c w).panicsOf u = e.panicsOf u := by
  have htrace : (e.afterTurn c w).trace = c.events.map (⟨.worker, ·⟩) ++ e.trace := rfl
  by_cases hu : ThreadId.worker = u
  · simp [panicsOf, htrace, List.flatMap_append, List.flatMap_map, hu, h]
  · simp [panicsOf, htrace, List.flatMap_append, List.flatMap_map, hu]

/-- A panic is on its way through a thread, or it has ended the worker. -/
def Carries (e : Executor) (t : ThreadId) (payload : Payload) : Prop :=
  (∃ stack, e.activity? t = some ⟨.unwind payload, stack⟩) ∨
    t = .worker ∧ e.worker = .died payload

/-! ## Steps -/

theorem Opens.workerPanicked {request : Request} (h : Opens e t stack request c b) :
    c.guarded.workerPanicked = e.guarded.workerPanicked := by
  cases h <;> rfl

theorem Catches.workerPanicked {frame : Frame} (h : Catches e payload frame stack c b) :
    c.guarded.workerPanicked = e.guarded.workerPanicked := by
  cases h <;> rfl

/-- No call sets the flag that tells of the worker's death. -/
theorem Local.workerPanicked (h : Local e t a c b) :
    c.guarded.workerPanicked = e.guarded.workerPanicked := by
  cases h with
  | opens _ ho | call _ ho => exact ho.workerPanicked
  | raise _ hc => exact (hc.workerPanicked :)
  | unwind hc => exact hc.workerPanicked
  | accept ha =>
    obtain ⟨-, -, pending, -, rfl, -⟩ := Guarded.accept_ok ha
    rfl
  | _ => rfl

/-- The worker sets it when it dies, and in no other step. -/
theorem WorkerStep.workerPanicked (h : WorkerStep e v c w) :
    v.death? = none ∧
      (w.death? = none ∧ c.guarded.workerPanicked = e.guarded.workerPanicked ∧
          c.events.flatMap Event.unwindings = [] ∨
        ∃ payload, v = .busy ⟨.unwind payload, []⟩ ∧ w = .died payload ∧
          c.guarded = e.guarded.unwound ∧
          c.events = [.logged (.workerUnwinding e.guarded.pending.size)]) := by
  cases h with
  | die => exact ⟨rfl, .inr ⟨_, rfl, rfl, rfl, rfl⟩⟩
  | _ => exact ⟨rfl, .inl ⟨rfl, rfl, by simp [unchanged]⟩⟩

theorem WorkerStep.panics_eq_nil (h : WorkerStep e v c w) :
    c.events.flatMap Event.panics = [] := by
  cases h <;> simp [unchanged]

theorem Opens.unwindings_eq_nil {request : Request} (h : Opens e t stack request c b) :
    c.events.flatMap Event.unwindings = [] := by
  cases h <;> simp [unchanged]

theorem Catches.unwindings_eq_nil {frame : Frame} (h : Catches e payload frame stack c b) :
    c.events.flatMap Event.unwindings = [] := by
  cases h <;> simp [unchanged]

theorem Local.unwindings_eq_nil (h : Local e t a c b) :
    c.events.flatMap Event.unwindings = [] := by
  cases h with
  | opens _ ho | call _ ho => exact ho.unwindings_eq_nil
  | raise _ hc => simp [hc.unwindings_eq_nil]
  | unwind hc => exact hc.unwindings_eq_nil
  | _ => simp [unchanged]

theorem Catches.panicCount_le {frame : Frame} (h : Catches e payload frame stack c b) :
    e.handler.panicCount < c.handler.panicCount := by
  cases h <;> exact Nat.lt_succ_self _

theorem Local.panicCount_le (h : Local e t a c b) :
    e.handler.panicCount ≤ c.handler.panicCount := by
  cases h with
  | opens _ ho | call _ ho => exact Nat.le_of_eq (by rw [ho.strategy])
  | raise _ hc => exact Nat.le_of_lt hc.panicCount_le
  | unwind hc => exact Nat.le_of_lt hc.panicCount_le
  | _ => exact Nat.le_refl _

theorem Opens.not_unwind {request : Request} (h : Opens e t stack request c b)
    (hb : b.control = .unwind payload) : False := by
  have := h.not_unwinds
  rw [hb] at this
  cases this

theorem Catches.carries {frame : Frame} {raised : Payload} (h : Catches e raised frame stack c b)
    (hb : b.control = .unwind payload) : raised = payload ∧ c.events = [] := by
  cases h with
  | swallow | abort => cases hb
  | pass => exact ⟨Control.unwind.inj hb, rfl⟩

/-- A panic is on its way after a step if the callable on top has raised it in this step, or if it
was on its way before; the handler has counted it. -/
theorem Local.carries (h : Local e t a c b) (hb : b.control = .unwind payload) :
    0 < c.handler.panicCount ∧
      ((∃ task, c.events = [.raised task payload]) ∨
        c.events = [] ∧ a.control = .unwind payload) := by
  cases h with
  | opens _ ho | call _ ho => exact (ho.not_unwind hb).elim
  | @raise frame _ _ _ _ _ hc =>
    obtain ⟨rfl, he⟩ := hc.carries hb
    refine ⟨Nat.zero_lt_of_lt hc.panicCount_le, .inl ⟨frame.task, ?_⟩⟩
    rw [he]
    rfl
  | unwind hc =>
    obtain ⟨rfl, he⟩ := hc.carries hb
    exact ⟨Nat.zero_lt_of_lt hc.panicCount_le, .inr ⟨he, rfl⟩⟩
  | @accept _ _ _ first => cases first <;> cases hb
  | _ => cases hb

/-! ## The invariant -/

/-- The flag tells whether a panic has ended the worker, which is then to end and has said so once.
A panic on its way is the latest that its thread has raised, and has been counted. -/
structure Mortal (e : Executor) : Prop where
  flag : e.guarded.workerPanicked = e.worker.death?.isSome
  terminating : e.guarded.workerPanicked = true → e.guarded.terminating = true
  told : (e.gather Event.unwindings).length = e.guarded.workerPanicked.toNat
  counted : ∀ t payload, e.Carries t payload → 0 < e.handler.panicCount
  raised : ∀ t payload, e.Carries t payload → (e.panicsOf t).head? = some payload

theorem mortal_initial (config : Config) (telemetry : Telemetry) (clock : Instant) :
    (initial config telemetry clock).Mortal := by
  have hnone : ∀ t payload, ¬ (initial config telemetry clock).Carries t payload := by
    rintro t payload (⟨stack, ha⟩ | ⟨-, hw⟩)
    · obtain ⟨hidle, -⟩ := activity?_initial ha
      cases hidle
    · cases hw
  exact ⟨rfl, nofun, rfl, fun t payload h => absurd h (hnone t payload),
    fun t payload h => absurd h (hnone t payload)⟩

/-- What a thread carries after a step it has carried before, or it has just been raised. -/
theorem carries_after (ha : e.activity? t = some a) (hl : Local e t a c b)
    (h : (e.after t c b).Carries u payload) :
    0 < c.handler.panicCount ∧ u = t ∧ (∃ task, c.events = [.raised task payload]) ∨
      e.Carries u payload ∧ (u = t → c.events = []) := by
  rcases h with ⟨stack, hb⟩ | ⟨rfl, hw⟩
  · rcases activity?_after hb with ⟨rfl, rfl⟩ | ⟨hne, hother⟩
    · obtain ⟨hpos, htask | ⟨he, hau⟩⟩ := hl.carries rfl
      · exact .inl ⟨hpos, rfl, htask⟩
      · obtain ⟨control, below⟩ := a
        obtain rfl : control = .unwind payload := hau
        exact .inr ⟨.inl ⟨below, ha⟩, fun _ => he⟩
    · exact .inr ⟨.inl ⟨stack, hother⟩, fun h => absurd h hne⟩
  · have hd := worker_after WorkerState.death? (fun _ _ => rfl) (fun w => by cases w <;> rfl) ha
      (c := c) (b := b)
    rw [WorkerState.death?_eq_some.2 hw] at hd
    have hdied := WorkerState.death?_eq_some.1 hd.symm
    refine .inr ⟨.inr ⟨rfl, hdied⟩, ?_⟩
    rintro rfl
    rw [activity?_worker, hdied] at ha
    cases ha

theorem Mortal.goes (hi : e.Mortal) (ha : e.activity? t = some a) (hl : Local e t a c b) :
    (e.after t c b).Mortal := by
  have hdeath := worker_after WorkerState.death? (fun _ _ => rfl) (fun w => by cases w <;> rfl) ha
    (c := c) (b := b)
  refine ⟨?_, fun h => ?_, ?_, fun u payload h => ?_, fun u payload h => ?_⟩
  · rw [guarded_after, hl.workerPanicked, hdeath, hi.flag]
  · rw [guarded_after] at h ⊢
    exact hl.spends.1 (hi.terminating (hl.workerPanicked ▸ h))
  · rw [gather_after, hl.unwindings_eq_nil, List.nil_append, guarded_after, hl.workerPanicked,
      hi.told]
  · rw [handler_after]
    rcases carries_after ha hl h with ⟨hpos, -⟩ | ⟨hbefore, -⟩
    · exact hpos
    · exact Nat.lt_of_lt_of_le (hi.counted u payload hbefore) hl.panicCount_le
  · rcases carries_after ha hl h with ⟨-, rfl, task, he⟩ | ⟨hbefore, hsame⟩
    · rw [panicsOf_after_self, he]
      rfl
    · by_cases hu : u = t
      · subst hu
        rw [panicsOf_after_self, hsame rfl, List.flatMap_nil, List.nil_append]
        exact hi.raised u payload hbefore
      · rw [panicsOf_after_ne hu]
        exact hi.raised u payload hbefore

/-- What the worker dies of it has carried before. -/
theorem carries_afterTurn (hv : e.worker = v) (hw : WorkerStep e v c w)
    (h : (e.afterTurn c w).Carries u payload) : e.Carries u payload := by
  rcases h with ⟨stack, hb⟩ | ⟨rfl, hd⟩
  · rcases activity?_afterTurn hb with ⟨rfl, hbusy⟩ | ⟨-, hother⟩
    · cases hw <;> cases hbusy
    · exact .inl ⟨stack, hother⟩
  · obtain rfl : w = .died payload := hd
    cases hw with
    | die => exact .inl ⟨[], activity?_worker.2 hv⟩

theorem Mortal.turns (hi : e.Mortal) (hv : e.worker = v) (hw : WorkerStep e v c w) :
    (e.afterTurn c w).Mortal := by
  obtain ⟨hvd, hcase⟩ := hw.workerPanicked
  have hpanics := hw.panics_eq_nil
  have hcarries := fun u payload (h : (e.afterTurn c w).Carries u payload) =>
    carries_afterTurn hv hw h
  have hfalse : e.guarded.workerPanicked = false := by rw [hi.flag, hv, hvd]; rfl
  refine ⟨?_, fun h => ?_, ?_, fun u payload h => ?_, fun u payload h => ?_⟩
  · rw [guarded_afterTurn, worker_afterTurn]
    rcases hcase with ⟨hwd, hsame, -⟩ | ⟨payload, -, rfl, hg, -⟩
    · rw [hsame, hfalse, hwd]
      rfl
    · rw [hg]
      rfl
  · rw [guarded_afterTurn] at h ⊢
    rcases hcase with ⟨-, hsame, -⟩ | ⟨payload, -, -, hg, -⟩
    · rw [hsame, hfalse] at h
      cases h
    · rw [hg]
      rfl
  · rw [gather_afterTurn, guarded_afterTurn, List.length_append, hi.told, hfalse]
    rcases hcase with ⟨-, hsame, hnone⟩ | ⟨payload, -, -, hg, he⟩
    · rw [hnone, hsame, hfalse]
      rfl
    · rw [he, hg]
      rfl
  · rw [handler_afterTurn, hw.strategy]
    exact hi.counted u payload (hcarries u payload h)
  · rw [panicsOf_afterTurn hpanics]
    exact hi.raised u payload (hcarries u payload h)

theorem Mortal.happens (hi : e.Mortal) (h : Happens e next) : next.Mortal := by
  cases h with
  | goes ha hl => exact hi.goes ha hl
  | turns hv hw => exact hi.turns hv hw
  | ticks nanos =>
    have hsame : ∀ u payload, Carries { e with clock := e.clock.later nanos } u payload →
        e.Carries u payload := by
      rintro u payload (⟨stack, ha⟩ | hw)
      · exact .inl ⟨stack, by cases u <;> exact ha⟩
      · exact .inr hw
    exact ⟨hi.flag, hi.terminating, hi.told, fun u payload h => hi.counted u payload (hsame _ _ h),
      fun u payload h => hi.raised u payload (hsame _ _ h)⟩

theorem mortal_of_start {config : Config} {telemetry : Telemetry} {clock : Instant}
    {start last : Executor} (hs : Executor.start config telemetry clock = .ok start)
    (hr : start.Reachable last) : last.Mortal :=
  invariant_of_start hs hr (mortal_initial _ _ _) fun _ _ _ hi hh => hi.happens hh

/-- The flag is set in the very step in which a panic that has left the worker's action ends the
worker. -/
theorem dies_iff (hi : e.Mortal) (h : Happens e next) :
    e.guarded.workerPanicked = false ∧ next.guarded.workerPanicked = true ↔
      ∃ payload, e.worker = .busy ⟨.unwind payload, []⟩ ∧ next.worker = .died payload := by
  constructor
  · rintro ⟨hbefore, hafter⟩
    have same : next.guarded.workerPanicked = e.guarded.workerPanicked → False := by
      rw [hbefore, hafter]
      nofun
    cases h with
    | goes ha hl =>
      rw [guarded_after] at same
      exact (same hl.workerPanicked).elim
    | turns hv hw =>
      obtain ⟨-, ⟨-, hsame, -⟩ | ⟨payload, rfl, rfl, -, -⟩⟩ := hw.workerPanicked
      · exact (same hsame).elim
      · exact ⟨payload, hv, rfl⟩
    | ticks => exact (same rfl).elim
  · rintro ⟨payload, hbusy, hdied⟩
    have hnext := hi.happens h
    rw [hi.flag, hnext.flag, hbusy, hdied]
    exact ⟨rfl, rfl⟩

/-! ## What the flags decide -/

/-- Neither flag is ever cleared. -/
theorem flags_of_happens (hi : e.Mortal) (h : Happens e next) :
    (e.guarded.terminating = true → next.guarded.terminating = true) ∧
      (e.guarded.workerPanicked = true → next.guarded.workerPanicked = true) := by
  cases h with
  | goes ha hl =>
    rw [guarded_after, hl.workerPanicked]
    exact ⟨hl.spends.1, id⟩
  | turns hv hw =>
    refine ⟨hw.spends.1, fun hp => ?_⟩
    -- the worker makes no step once it is dead
    rw [hi.flag, hv, hw.workerPanicked.1] at hp
    cases hp
  | ticks => exact ⟨id, id⟩

/-- No action is begun once the worker is to end. -/
theorem begins_no_action_of_terminating (h : Happens e next)
    (ht : e.guarded.terminating = true) : next.startedIds .action = e.startedIds .action := by
  cases h with
  | goes _ hl => rw [startedIds, startedIds, gather_after, hl.begins_no_action, List.nil_append]
  | turns _ hw =>
    cases hw with
    | run hf =>
      rw [ht] at hf
      cases hf
    | _ => rfl
  | ticks => rfl

/-- Why no task is accepted once the worker is to end. -/
def refusal (e : Executor) : Error :=
  match e.worker with
  | .died _ => .workerDead
  | _ => .shutDown

theorem Mortal.accept_eq (hi : e.Mortal) (ht : e.guarded.terminating = true)
    (task : Task Script) : e.guarded.accept task = .error e.refusal := by
  rw [Guarded.accept, hi.flag, refusal]
  cases e.worker <;> simp [WorkerState.death?, ht]

/-- The worker is to end, and its flag says whether a panic has ended it: this lasts. -/
theorem lasts_terminating {start last : Executor} (ho : start.Orderly) (hi : start.Mortal)
    (ht : start.guarded.terminating = true) (hr : start.Reachable last) :
    last.Mortal ∧ last.guarded.terminating = true :=
  hr.happens_invariant (P := fun e => e.Mortal ∧ e.guarded.terminating = true) ho ⟨hi, ht⟩
    fun _ _ _ hi hh => ⟨hi.1.happens hh, (flags_of_happens hi.1 hh).1 hi.2⟩

theorem lasts_panicked {start last : Executor} (ho : start.Orderly) (hi : start.Mortal)
    (hp : start.guarded.workerPanicked = true) (hr : start.Reachable last) :
    last.Mortal ∧ last.guarded.workerPanicked = true :=
  hr.happens_invariant (P := fun e => e.Mortal ∧ e.guarded.workerPanicked = true) ho ⟨hi, hp⟩
    fun _ _ _ hi hh => ⟨hi.1.happens hh, (flags_of_happens hi.1 hh).2 hi.2⟩

/-- From the state in which the worker is to end, no action is begun. -/
theorem actions_of_terminating {start last : Executor} (ho : start.Orderly) (hi : start.Mortal)
    (ht : start.guarded.terminating = true) (hr : start.Reachable last) :
    last.startedIds .action = start.startedIds .action :=
  hr.happens_invariant (P := fun e => e.startedIds .action = start.startedIds .action) ho rfl
    fun _ _ hb hi' hh =>
      (begins_no_action_of_terminating hh (lasts_terminating ho hi ht hb).2).trans hi'

theorem Opens.accepts_none {request : Request} (h : Opens e t stack request c b) :
    c.events.flatMap Event.acceptedIds = [] := by
  cases h <;> simp [unchanged]

theorem Catches.accepts_none {frame : Frame} (h : Catches e payload frame stack c b) :
    c.events.flatMap Event.acceptedIds = [] := by
  cases h <;> simp [unchanged]

/-- No task is added once the worker is to end. -/
theorem Local.accepts_none (h : Local e t a c b) (ht : e.guarded.terminating = true) :
    c.events.flatMap Event.acceptedIds = [] := by
  cases h with
  | opens _ ho | call _ ho => exact ho.accepts_none
  | raise _ hc => simp [hc.accepts_none]
  | unwind hc => exact hc.accepts_none
  | accept ha =>
    obtain ⟨-, hnot, -⟩ := Guarded.accept_ok ha
    rw [ht] at hnot
    cases hnot
  | _ => simp [unchanged]

theorem accepts_none_of_terminating (h : Happens e next) (ht : e.guarded.terminating = true) :
    next.acceptedIds = e.acceptedIds := by
  cases h with
  | goes _ hl => rw [acceptedIds, acceptedIds, gather_after, hl.accepts_none ht, List.nil_append]
  | turns _ hw => cases hw <;> rfl
  | ticks => rfl

/-- From the state in which the worker is to end, no task is added. -/
theorem accepted_of_terminating {start last : Executor} (ho : start.Orderly) (hi : start.Mortal)
    (ht : start.guarded.terminating = true) (hr : start.Reachable last) :
    last.acceptedIds = start.acceptedIds :=
  hr.happens_invariant (P := fun e => e.acceptedIds = start.acceptedIds) ho rfl
    fun _ _ hb hi' hh =>
      (accepts_none_of_terminating hh (lasts_terminating ho hi ht hb).2).trans hi'

/-- Once the worker is to end, a task that has been made will be refused. -/
theorem awaits_refusal_of_enqueue (ho : e.Orderly) (hi : e.Mortal)
    (ht : e.guarded.terminating = true) {task : Task Script}
    (ha : e.activity? u = some ⟨.enqueue task, stack⟩) :
    e.Awaits u (.schedule task.label) stack fun later => .failed later.refusal := by
  refine awaits_of_activity ho ha rfl fun later hl hrun hsame => ?_
  obtain ⟨hmortal, hterm⟩ := lasts_terminating ho hi ht hl
  have hstep : later.step? u =
      some (later.reply u (.schedule task.label) stack (.failed later.refusal)) := by
    rw [step?_eq_advance hrun hsame, advance, hmortal.accept_eq hterm]
  rw [reply_eq] at hstep
  exact ⟨_, answers_of_after hstep rfl rfl fun _ => rfl⟩

/-- Once the worker is to end, a call that schedules a task at a deadline that there is will be
refused. -/
theorem awaits_refusal (ho : e.Orderly) (hi : e.Mortal) (ht : e.guarded.terminating = true)
    {spec : Spec} {deadline : Instant} (hc : e.Calls u (.schedule spec) stack next)
    (hx : e.access = .available) (hd : spec.due.deadline e.clock = .ok deadline) :
    next.Awaits u (.schedule spec.label) stack fun later => .failed later.refusal := by
  have hreach : e.Reachable next := hc.reachable .refl
  have ha : next.activity? u = some ⟨.enqueue (spec.task ⟨e.nextId⟩ deadline), stack⟩ := by
    simp only [hc.eq_begin, begin, hx, make, hd]
    exact activity?_setActivity_self ..
  obtain ⟨hmortal, hterm⟩ := lasts_terminating ho hi ht hreach
  exact awaits_refusal_of_enqueue (hreach.orderly ho) hmortal hterm ha

end Executor

end Deferred
