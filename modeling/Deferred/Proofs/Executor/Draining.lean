import Deferred.Executor.Rest
import Deferred.Proofs.Executor.Callables
import Deferred.Proofs.Executor.Return
import Deferred.Proofs.Queue.Order
import Deferred.Proofs.Worker.Draining

/-!
# Draining ends

The worker is left to run, turn after turn, while the callers wait. Before each turn any time may
pass. A turn lowers the weight of the executor, whatever tasks are scheduled in it, so that the
worker comes to an end of its turns; then it has ended, or sleeps and finds no task due, unless a
panic has ended the process. The callables that it has begun are among those that the pending tasks
contained, and those that it had in hand.

* `Executor.turnAfter?` is a turn of the worker, `Executor.turnsAfter?` are some turns in a row.
* `Executor.Progress`: what turns leave as it was, and what they use up.
* `Executor.drained_of_turnAfter`: where the worker stands when it makes no turn.
* `Executor.exists_turnsAfter_runWorker`: running to rest is such turns.
* `draining_ends`: every executor is drained, and so is every workplace of a worker's loop.
-/

namespace Deferred

/-- An instant comes if time passes. -/
theorem Instant.exists_later {now when : Instant} (h : now ≤ when) :
    ∃ nanos, now.later nanos = when := by
  rw [Instant.le_iff] at h
  refine ⟨(when.nanos - now.nanos).toNat, congrArg Instant.mk ?_⟩
  omega

namespace Executor

variable {e next last : Executor} {nanos n k : Nat} {waits : List Nat}

/-! ## Turns of the worker -/

/-- Some time passes. -/
def wait (e : Executor) (nanos : Nat) : Executor := { e with clock := e.clock.later nanos }

@[simp] theorem weight_wait (e : Executor) (nanos : Nat) : (e.wait nanos).weight = e.weight := rfl

theorem orderly_wait (ho : e.Orderly) (nanos : Nat) : (e.wait nanos).Orderly :=
  ho.happens (.ticks nanos)

/-- Time passes, and then the worker makes a step, or looks for work because the instant has come
until which it sleeps. It makes no turn once the process has ended. -/
def turnAfter? (e : Executor) (nanos : Nat) : Option Executor :=
  match e.worker with
  | .parked (some deadline) =>
    if e.aborted = false ∧ deadline ≤ e.clock.later nanos then some (e.wait nanos).look else none
  | _ => (e.wait nanos).step? .worker

/-- Turns of the worker, before each of which some time passes. -/
def turnsAfter? (e : Executor) : List Nat → Option Executor
  | [] => some e
  | nanos :: rest => (e.turnAfter? nanos).bind (·.turnsAfter? rest)

/-- A worker that sleeps does so until the first deadline, or without end if no task is pending. -/
def Punctual (e : Executor) : Prop :=
  ∀ until?, e.worker = .parked until? → e.guarded.pending.nextDeadline? = until?

theorem punctual_of_awake (h : e.sleeps = false) : e.Punctual := by
  intro _ hw
  simp [sleeps, hw] at h

theorem punctual_look (e : Executor) : e.look.Punctual := by
  obtain ⟨c, w, hw, he⟩ := e.exists_turn_look
  rw [he]
  intro until? hp
  rw [worker_afterTurn] at hp
  cases hw with
  | sleep => exact WorkerState.parked.inj hp
  | _ => cases hp

theorem punctual_step (h : e.step? .worker = some next) : next.Punctual := by
  unfold step? at h
  split at h
  · cases h
  simp only at h
  split at h
  · exact Option.some.inj h ▸ punctual_look e
  · exact punctual_of_awake (awake_advance h)
  all_goals cases h

/-- A turn is a look for work at the instant until which the worker has slept, or a step. -/
theorem turnAfter?_cases (h : e.turnAfter? nanos = some next) :
    (∃ deadline, e.worker = .parked (some deadline) ∧ e.aborted = false ∧
        deadline ≤ e.clock.later nanos ∧ (e.wait nanos).look = next) ∨
      (e.wait nanos).step? .worker = some next := by
  unfold turnAfter? at h
  split at h
  next deadline hw =>
    split at h
    next hd => exact .inl ⟨deadline, hw, hd.1, hd.2, Option.some.inj h⟩
    · cases h
  · exact .inr h

theorem turnAfter?_of_aborted (h : e.aborted = true) (nanos : Nat) : e.turnAfter? nanos = none := by
  have hstep : (e.wait nanos).step? .worker = none := step?_of_aborted (e := e.wait nanos) h _
  unfold turnAfter?
  split
  · simp [h]
  · exact hstep

/-- A worker that sleeps finds what it would find if it were woken first. -/
theorem look_wakeWorker (e : Executor) : e.wakeWorker.look = e.look := by
  rw [wakeWorker_eq]
  rfl

/-- The moves that make up a turn; none of them is a call. -/
theorem exists_moves_of_turnAfter (h : e.turnAfter? nanos = some next) :
    ∃ ms : List Move, (∀ m ∈ ms, ∀ n request, m ≠ .call n request) ∧ e.moves? ms = some next := by
  rcases turnAfter?_cases h with ⟨deadline, hw, hrun, -, rfl⟩ | hstep
  · have hparked : (e.wait nanos).worker = .parked (some deadline) := hw
    have hruns : (e.wait nanos).aborted = false := hrun
    have hwake : (e.wait nanos).move? .wake = some (e.wait nanos).wakeWorker := by
      simp [move?, hparked, hruns]
    have hlook : (e.wait nanos).wakeWorker.move? (.step .worker) = some (e.wait nanos).look := by
      rw [← look_wakeWorker]
      simp [move?, step?, wakeWorker, hparked, hruns]
    refine ⟨[.tick nanos, .wake, .step .worker], by simp, ?_⟩
    exact Option.bind_eq_some_iff.2 ⟨e.wait nanos, rfl,
      Option.bind_eq_some_iff.2 ⟨_, hwake, Option.bind_eq_some_iff.2 ⟨_, hlook, rfl⟩⟩⟩
  · refine ⟨[.tick nanos, .step .worker], by simp, ?_⟩
    exact Option.bind_eq_some_iff.2 ⟨e.wait nanos, rfl,
      Option.bind_eq_some_iff.2 ⟨next, hstep, rfl⟩⟩

/-! ## What turns use up -/

/-- What holds after a number of turns. -/
structure Progress (e : Executor) (turns : Nat) (last : Executor) : Prop where
  orderly : last.Orderly
  punctual : last.Punctual
  /-- The callers are as far as they were. -/
  callers : last.callers = e.callers
  /-- Every turn lowers the weight. -/
  weight : turns + last.weight ≤ e.weight
  /-- What has been begun is taken from what there was. -/
  spends : e.Spends last
  /-- A panic can end the process only if one could before. -/
  mayAbort : last.MayAbort → e.MayAbort

theorem Progress.refl (ho : e.Orderly) (hp : e.Punctual) : e.Progress 0 e :=
  ⟨ho, hp, rfl, by omega, Nat.le_refl _, id⟩

theorem Progress.trans (h : e.Progress n next) (hl : next.Progress k last) :
    e.Progress (n + k) last where
  orderly := hl.orderly
  punctual := hl.punctual
  callers := hl.callers.trans h.callers
  weight := by
    have := h.weight
    have := hl.weight
    omega
  spends := h.spends.trans hl.spends
  mayAbort := h.mayAbort ∘ hl.mayAbort

/-- A step of the worker takes no caller further. -/
theorem callers_of_step (ho : e.Orderly) (h : e.step? .worker = some next) :
    next.callers = e.callers := by
  have hmove : e.move? (.step .worker) = some next := h
  cases makes_of_move ho hmove with
  | goes ha hg =>
    cases hg <;> rfl
  | looks => rfl

theorem callers_look (e : Executor) : e.look.callers = e.callers := by
  obtain ⟨c, w, -, he⟩ := e.exists_turn_look
  rw [he]
  rfl

/-- A turn is one turn's progress. -/
theorem progress_of_turnAfter (ho : e.Orderly) (hp : e.Punctual)
    (h : e.turnAfter? nanos = some next) : e.Progress 1 next := by
  obtain ⟨ms, hcalls, hmoves⟩ := exists_moves_of_turnAfter h
  have hreach : e.Reachable next := Reachable.refl.of_moves ms hmoves
  have horderly := hreach.orderly ho
  have hspends := spends_of_moves ho hcalls hmoves
  have habort : next.MayAbort → e.MayAbort := .of_reachable ho hreach
  rcases turnAfter?_cases h with ⟨deadline, hw, -, hd, rfl⟩ | hstep
  · have hlt := weight_look_parked_lt (e := e.wait nanos) hw (hp _ hw) hd
    rw [weight_wait] at hlt
    exact ⟨horderly, punctual_look _, callers_look _, by omega, hspends, habort⟩
  · have hlt := weight_step_worker_lt hstep
    have hcallers := callers_of_step (orderly_wait ho nanos) hstep
    rw [weight_wait] at hlt
    exact ⟨horderly, punctual_step hstep, hcallers, by omega, hspends, habort⟩

theorem progress_of_turnsAfter (ho : e.Orderly) (hp : e.Punctual)
    (h : e.turnsAfter? waits = some last) : e.Progress waits.length last := by
  induction waits generalizing e with
  | nil =>
    obtain rfl := Option.some.inj h
    exact .refl ho hp
  | cons nanos rest ih =>
    obtain ⟨next, hfirst, hrest⟩ := Option.bind_eq_some_iff.1 h
    have hstep := progress_of_turnAfter ho hp hfirst
    have hlater := hstep.trans (ih hstep.orderly hstep.punctual hrest)
    rwa [Nat.add_comm] at hlater

/-- What the worker begins is taken from the pending tasks and from what it has in hand. -/
theorem Progress.begun_le (h : e.Progress n last) :
    last.begun ≤ e.begun + (e.guarded.pending.callables + e.worker.part Activity.callables) := by
  have hspends := h.spends
  simp only [Spends, callables, total, h.callers] at hspends
  omega

/-! ## Where the worker stands in the end -/

/-- At an instant, the process or the worker has ended, as it was told to or by a panic, or the
worker sleeps and no pending task is due. -/
def Drained (e : Executor) (now : Instant) : Prop :=
  e.aborted = true ∨ e.worker = .stopped ∨ (∃ payload, e.worker = .died payload) ∨
    e.sleeps = true ∧ ∀ t ∈ e.guarded.pending.tasks, t.isDue now = false

/-- The worker of a process that goes on makes a turn if it is awake and has not ended. -/
theorem exists_turnAfter (ho : e.Orderly) (hrun : e.aborted = false) (hend : e.workerEnd? = none)
    (ha : e.sleeps = false) (nanos : Nat) : ∃ next, e.turnAfter? nanos = some next := by
  have hawake : ∀ until?, e.worker ≠ .parked until? := by
    intro until? hw
    simp [sleeps, hw] at ha
  obtain ⟨next, hnext⟩ := worker_can_step (orderly_wait ho nanos) hrun hend hawake
  refine ⟨next, ?_⟩
  unfold turnAfter?
  split
  next deadline hw => exact absurd hw (hawake _)
  · exact hnext

/-- If the worker makes no turn when some time has passed, it or the process has ended, or nothing
is due then. -/
theorem drained_of_turnAfter (ho : e.Orderly) (hp : e.Punctual)
    (h : e.turnAfter? nanos = none) : e.Drained (e.clock.later nanos) := by
  cases hrun : e.aborted with
  | true => exact .inl hrun
  | false =>
  cases hw : e.worker with
  | polling | busy =>
    obtain ⟨next, hnext⟩ := exists_turnAfter ho hrun (by simp [workerEnd?, hw])
      (by simp [sleeps, hw]) nanos
    rw [h] at hnext
    cases hnext
  | stopped => exact .inr (.inl hw)
  | died payload => exact .inr (.inr (.inl ⟨payload, hw⟩))
  | parked until? =>
    have hnext := hp until? hw
    refine .inr (.inr (.inr ⟨by simp [sleeps, hw], fun t ht => ?_⟩))
    cases until? with
    | none =>
      rw [Queue.nextDeadline?_eq_none hnext] at ht
      cases ht
    | some deadline =>
      have hle := Queue.nextDeadline?_le hnext t ht
      rw [Task.isDue, decide_eq_false_iff_not]
      intro hdue
      have hd : deadline ≤ e.clock.later nanos := Int.le_trans hle hdue
      rw [turnAfter?, hw] at h
      simp only [hrun, hd, and_self, if_true] at h
      cases h

/-! ## Running to rest -/

/-- When a worker wakes that has slept until a deadline, the deadline has come. -/
theorem wakeUp_bounds (now deadline : Instant) :
    now ≤ (if now < deadline then deadline.later wakeTime else now) ∧
      deadline ≤ if now < deadline then deadline.later wakeTime else now := by
  simp only [Instant.le_iff, Instant.lt_iff, Instant.later]
  split <;> grind

/-- The worker moves by a turn, before which some time passes. -/
theorem exists_turnAfter_of_workerTurn {horizon : Instant} (h : e.workerTurn? horizon = some next) :
    ∃ nanos, e.turnAfter? nanos = some next := by
  unfold workerTurn? at h
  split at h
  · cases h
  next deadline hw =>
    split at h
    next hdue =>
      -- the worker wakes somewhat after the deadline, or at once if it has come
      obtain ⟨hnow, hcome⟩ := wakeUp_bounds e.clock deadline
      obtain ⟨nanos, hlater⟩ := Instant.exists_later hnow
      rw [← hlater] at h hcome
      refine ⟨nanos, ?_⟩
      rw [turnAfter?, hw]
      simp only [hdue.1, hcome, and_self, if_true]
      exact h
    · cases h
  next hnone hsome =>
    refine ⟨stepTime, ?_⟩
    unfold turnAfter?
    split
    next deadline hw => exact absurd hw (hsome deadline)
    · exact h

/-- If the worker does not move up to the horizon, it makes no turn at the horizon. -/
theorem turnAfter?_eq_none_of_workerTurn (ho : e.Orderly)
    (h : e.workerTurn? (e.clock.later nanos) = none) : e.turnAfter? nanos = none := by
  cases hrun : e.aborted with
  | true => exact turnAfter?_of_aborted hrun nanos
  | false =>
  cases hw : e.worker with
  | polling | busy =>
    obtain ⟨next, hnext⟩ := exists_turnAfter ho hrun (by simp [workerEnd?, hw])
      (by simp [sleeps, hw]) stepTime
    have hturn : e.workerTurn? (e.clock.later nanos) = some next := by
      rw [turnAfter?, hw] at hnext
      rw [workerTurn?, hw]
      exact hnext
    rw [h] at hturn
    cases hturn
  | parked until? =>
    cases until? with
    | none => simp [turnAfter?, step?, wait, hw]
    | some deadline =>
      have hd : ¬ deadline ≤ e.clock.later nanos := by
        intro hd
        rw [workerTurn?, hw] at h
        simp only [hrun, hd, and_self, if_true] at h
        cases h
      rw [turnAfter?, hw]
      simp only [hd, and_false, if_false]
  | stopped | died => simp [turnAfter?, step?, wait, hw]

theorem exists_turnsAfter_workerTurns (halt : Executor → Bool) (horizon : Executor → Instant)
    (fuel : Nat) (e : Executor) :
    ∃ waits, e.turnsAfter? waits = some (workerTurns halt horizon fuel e) := by
  induction fuel generalizing e with
  | zero => exact ⟨[], rfl⟩
  | succ fuel ih =>
    unfold workerTurns
    split
    · exact ⟨[], rfl⟩
    split
    · exact ⟨[], rfl⟩
    next next hnext =>
      obtain ⟨nanos, hturn⟩ := exists_turnAfter_of_workerTurn hnext
      obtain ⟨waits, hrest⟩ := ih next
      exact ⟨nanos :: waits, Option.bind_eq_some_iff.2 ⟨next, hturn, hrest⟩⟩

/-! ## Draining -/

/-- What letting the worker run comes to. -/
structure RunsDry (e : Executor) : Prop where
  /-- However much time passes before each turn, the worker makes no more turns than the executor
  weighs: of a longer list of waits it uses up a part, and makes no turn after the next wait. -/
  stops : ∀ waits : List Nat, e.weight < waits.length → ∃ used nanos rest last,
    waits = used ++ nanos :: rest ∧ e.turnsAfter? used = some last ∧ last.turnAfter? nanos = none
  /-- When it makes no turn, it has ended, or it sleeps and no pending task is due, or the process
  has ended. -/
  drained : ∀ waits last nanos, e.turnsAfter? waits = some last → last.turnAfter? nanos = none →
    last.Drained (last.clock.later nanos)
  /-- After any number of turns, no more actions and callbacks have been begun than were contained
  in the pending tasks, and in what the worker had in hand. -/
  begun_le : ∀ waits last, e.turnsAfter? waits = some last →
    last.begun ≤ e.begun + (e.guarded.pending.callables + e.worker.part Activity.callables)
  /-- Whichever threads make steps meanwhile, no more have been begun than were contained in the
  pending tasks, and in what all threads had in hand, as long as no caller makes a call. -/
  begun_le_of_moves : ∀ ms last, (∀ m ∈ ms, ∀ n request, m ≠ .call n request) →
    e.moves? ms = some last → last.begun ≤ e.begun + e.callables
  /-- The process has ended only if a panic can end it: not where panics do not abort. -/
  aborts : ∀ waits last, e.turnsAfter? waits = some last → last.aborted = true → e.MayAbort
  /-- Running to rest is such turns. -/
  settles : ∃ waits, e.turnsAfter? waits = some e.settle ∧ e.settle.Drained e.settle.soon

/-- Where turns come to an end before the waits do. -/
theorem exists_last_turn (h : e.turnsAfter? waits = none) : ∃ used nanos rest last,
    waits = used ++ nanos :: rest ∧ e.turnsAfter? used = some last ∧
      last.turnAfter? nanos = none := by
  induction waits generalizing e with
  | nil => cases h
  | cons nanos rest ih =>
    cases hnext : e.turnAfter? nanos with
    | none => exact ⟨[], nanos, rest, e, rfl, rfl, hnext⟩
    | some next =>
      have hrest : next.turnsAfter? rest = none := by rwa [turnsAfter?, hnext] at h
      obtain ⟨used, last?, left, last, rfl, hused, hlast⟩ := ih hrest
      exact ⟨nanos :: used, last?, left, last, rfl,
        Option.bind_eq_some_iff.2 ⟨next, hnext, hused⟩, hlast⟩

/-- A worker that is awake drains the queue. -/
theorem runsDry_of_awake (ho : e.Orderly) (ha : e.sleeps = false) : e.RunsDry where
  stops waits hlong := by
    refine exists_last_turn ?_
    cases hturns : e.turnsAfter? waits with
    | none => rfl
    | some last =>
      have hweight := (progress_of_turnsAfter ho (punctual_of_awake ha) hturns).weight
      omega
  drained waits last nanos hturns hnone := by
    have hprogress := progress_of_turnsAfter ho (punctual_of_awake ha) hturns
    exact drained_of_turnAfter hprogress.orderly hprogress.punctual hnone
  begun_le waits last hturns := (progress_of_turnsAfter ho (punctual_of_awake ha) hturns).begun_le
  begun_le_of_moves ms last hcalls hmoves :=
    Nat.le_trans (Nat.le_add_right _ _) (spends_of_moves ho hcalls hmoves)
  aborts waits last hturns h :=
    (progress_of_turnsAfter ho (punctual_of_awake ha) hturns).mayAbort (.inl h)
  settles := by
    have hwake : e.wakeWorker = e := by
      unfold wakeWorker
      split
      next hw => simp [sleeps, hw] at ha
      · rfl
    obtain ⟨waits, hturns⟩ : ∃ waits, e.wakeWorker.turnsAfter? waits = some e.settle :=
      exists_turnsAfter_workerTurns ..
    rw [hwake] at hturns
    have hprogress := progress_of_turnsAfter ho (punctual_of_awake ha) hturns
    have hrest : e.settle.workerTurn? e.settle.soon = none :=
      (atRest_runWorker _ soon e).resolve_left (by simp)
    have hnone : e.settle.turnAfter? patience = none :=
      turnAfter?_eq_none_of_workerTurn hprogress.orderly hrest
    exact ⟨waits, hturns, drained_of_turnAfter hprogress.orderly hprogress.punctual hnone⟩

/-- A worker that is woken is running no callable. -/
theorem activity?_wakeWorker (e : Executor) (t : ThreadId) :
    e.wakeWorker.activity? t = e.activity? t := by
  rw [wakeWorker_eq]
  cases t with
  | worker => exact e.worker.activity?_woken
  | caller n => rfl

theorem orderly_wakeWorker (ho : e.Orderly) : e.wakeWorker.Orderly :=
  fun t a ha => ho t a (e.activity?_wakeWorker t ▸ ha)

theorem MayAbort.of_wakeWorker (h : e.wakeWorker.MayAbort) : e.MayAbort := by
  simp only [MayAbort, activity?_wakeWorker] at h
  rwa [wakeWorker_eq] at h

end Executor

/-- **Draining ends.** Let the worker of an executor run, woken if it sleeps, while the callers
wait: whatever the tasks do that are pending or in hand, also if they schedule tasks that are due at
once, cancel all tasks or panic, the worker comes to an end after finitely many turns. It has begun
no more actions and callbacks than were contained in the tasks, those inside others included; and
then it has ended, or no pending task is due, or a panic has ended the process, where panics abort.
So it is with the worker's loop on its own. All states that an executor can reach are orderly, by
`Executor.orderly_of_start`, and where panics do not abort, none of them is such that a panic can
end the process, by `Executor.Handled.aborting`. -/
theorem draining_ends (e : Executor) (ho : e.Orderly) (w : Workplace) :
    e.wakeWorker.RunsDry ∧ w.RunsDry :=
  ⟨Executor.runsDry_of_awake (Executor.orderly_wakeWorker ho) e.awake_wakeWorker, w.runsDry⟩

/-- An action schedules a task and cancels it, and the callback of that one schedules another, all
due at once: three of the four callables are begun, and the process goes on. In the loop on its own
every action pushes the next one. -/
theorem draining_ends_replacing : ∃ (e : Executor) (w : Workplace), e.Orderly ∧
    e.wakeWorker.RunsDry ∧ w.RunsDry ∧ e.guarded.pending.callables = 4 ∧ e.begun = 0 ∧
    e.settle.begun = 3 ∧
    (∀ waits last, e.wakeWorker.turnsAfter? waits = some last → last.aborted = false) ∧
    w.tasksAhead = 3 ∧ w.actionsRun = 0 ∧ w.run.1.actionsRun = 3 := by
  let replacing : Script :=
    .scheduleWithCancel "second" (.instant ⟨0⟩) .done (.schedule "third" (.instant ⟨0⟩) .done .done)
      (.cancelAll .done)
  let first : Spec := { label := "first", due := .instant ⟨0⟩, action := replacing }
  obtain ⟨e, hm, hcallables, hbegun, hsettled⟩ : ∃ e, (Executor.initial {} .stub ⟨0⟩).moves?
      (.call 0 (.schedule first) :: List.replicate 3 (.step (.caller 0))) = some e ∧
      e.guarded.pending.callables = 4 ∧ e.begun = 0 ∧ e.settle.begun = 3 :=
    ⟨_, rfl, rfl, rfl, by decide +kernel⟩
  have hs : Executor.start {} .stub ⟨0⟩ = .ok _ := rfl
  have hr := Executor.Reachable.refl.of_moves _ hm
  have ho := Executor.orderly_of_start hs hr
  let empty : Workplace :=
    { guarded := { pending := .empty none }, handler := { strategy := .propagate } }
  let routine : Routine := .push "second" ⟨0⟩ (.push "third" ⟨0⟩ .done .done) .done
  obtain ⟨hdry, hloop⟩ := draining_ends e ho (empty.push "first" ⟨0⟩ routine).1
  have hgoes : ∀ waits last, e.wakeWorker.turnsAfter? waits = some last → last.aborted = false := by
    intro waits last hturns
    rw [Bool.eq_false_iff]
    intro h
    have hmay : e.MayAbort := (hdry.aborts _ _ hturns h).of_wakeWorker
    have habort := (Executor.handled_of_start hs hr).aborting hmay
    rw [Executor.config_of_start hs hr] at habort
    cases habort
  exact ⟨e, _, ho, hdry, hloop, hcallables, hbegun, hsettled, hgoes, by decide, by decide,
    by decide⟩

end Deferred
