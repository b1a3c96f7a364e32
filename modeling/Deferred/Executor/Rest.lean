import Deferred.Executor.Descent
import Deferred.Executor.Run

/-!
# Coming to rest

The worker's turns come to an end within the number of turns that `Executor.runWorker` allows for:
a turn lowers the weight, be it a step or the waking up at a deadline.

* `Executor.atRest_runWorker`: the worker runs until it is to halt or can make no turn.
-/

namespace Deferred

namespace Executor

/-! ## Who sleeps, and until when -/

/-- Whether the worker sleeps. -/
def sleeps (e : Executor) : Bool :=
  match e.worker with
  | .parked _ => true
  | _ => false

/-- If the worker sleeps until an instant, then that is the first deadline. -/
def Attentive (e : Executor) : Prop :=
  ∀ deadline, e.worker = .parked (some deadline) →
    e.guarded.pending.nextDeadline? = some deadline

theorem attentive_of_awake {e : Executor} (h : e.sleeps = false) : e.Attentive := by
  intro _ hw
  simp [sleeps, hw] at h

theorem awake_wakeWorker (e : Executor) : e.wakeWorker.sleeps = false := by
  unfold wakeWorker
  split
  · rfl
  next hw =>
    unfold sleeps
    split
    next hp => exact absurd hp (hw _)
    · rfl

theorem awake_reply (e : Executor) (topic : Topic) (stack : List Frame) (answer : Answer) :
    (e.reply .worker topic stack answer).sleeps = false := by
  unfold reply
  split <;> rfl

theorem awake_begin (e : Executor) (stack : List Frame) (request : Request) :
    (e.begin .worker stack request).sleeps = false := by
  unfold begin
  split
  · exact awake_reply ..
  · unfold make
    split
    · exact awake_reply ..
    · rfl
  · rfl
  · exact awake_reply ..
  iterate 2
    unfold beginClosing
    split
    · rfl
    · exact awake_reply ..
  all_goals exact awake_reply ..

theorem awake_catchPanic (e : Executor) (payload : Payload) (frame : Frame)
    (stack : List Frame) : (e.catchPanic .worker payload frame stack).sleeps = false := by
  unfold catchPanic
  split <;> rfl

/-- A step of a call or of a callable does not put the worker to sleep. -/
theorem awake_advance {e next : Executor} {a : Activity}
    (h : e.advance .worker a = some next) : next.sleeps = false := by
  unfold advance at h
  split at h
  · cases h
  · obtain rfl := Option.some.inj h
    unfold resume
    split
    · rfl
    · exact awake_begin ..
    · exact awake_catchPanic ..
  · split at h
    · exact Option.some.inj h ▸ awake_reply ..
    · obtain rfl := Option.some.inj h
      rfl
  · obtain rfl := Option.some.inj h
    rfl
  · exact Option.some.inj h ▸ awake_reply ..
  · split at h
    · obtain rfl := Option.some.inj h
      unfold endBatch
      split <;> exact awake_reply ..
    · obtain rfl := Option.some.inj h
      unfold settleTask
      split <;> rfl
  · obtain rfl := Option.some.inj h
    unfold endFrame
    split <;> rfl
  · obtain rfl := Option.some.inj h
    rfl
  · exact Option.some.inj h ▸ awake_catchPanic ..
  · obtain rfl := Option.some.inj h
    rfl
  · obtain rfl := Option.some.inj h
    rfl
  · obtain rfl := Option.some.inj h
    rfl
  · obtain rfl := Option.some.inj h
    rfl
  · obtain rfl := Option.some.inj h
    unfold drainPending
    split
    · exact awake_reply ..
    · rfl

theorem attentive_look (e : Executor) : e.look.Attentive := by
  unfold look
  split
  · exact fun _ h => by cases h
  · exact fun _ h => by cases h
  next deadline guarded hpoll =>
    intro other h
    obtain rfl : deadline = other := by simpa using h
    exact (Guarded.poll_parkUntil hpoll).1
  · exact fun _ h => by cases h

/-! ## Turns -/

/-- A step of the worker leaves it awake, or asleep until the first deadline. -/
theorem attentive_step {e next : Executor} (h : e.step? .worker = some next) : next.Attentive := by
  unfold step? at h
  split at h
  · cases h
  simp only at h
  split at h
  · exact Option.some.inj h ▸ attentive_look e
  · exact attentive_of_awake (awake_advance h)
  all_goals cases h

/-- A turn of the worker lowers the weight. -/
theorem weight_workerTurn_lt {e next : Executor} {horizon : Instant} (ha : e.Attentive)
    (h : e.workerTurn? horizon = some next) : next.weight < e.weight ∧ next.Attentive := by
  unfold workerTurn? at h
  split at h
  · cases h
  next deadline hw =>
    split at h
    · obtain rfl := Option.some.inj h
      refine ⟨weight_look_parked_lt (e := { e with clock := _ }) hw (ha _ hw) ?_, attentive_look _⟩
      simp only [Instant.lt_iff, Instant.le_iff, Instant.later]
      split <;> grind
    · cases h
  · have h : { e with clock := e.clock.later stepTime }.step? .worker = some next := h
    exact ⟨(weight_step_worker_lt h :), attentive_step h⟩

/-- The worker halts, or can make no turn. -/
def AtRest (halt : Executor → Bool) (horizon : Executor → Instant) (e : Executor) : Prop :=
  halt e = true ∨ e.workerTurn? (horizon e) = none

theorem atRest_workerTurns (halt : Executor → Bool) (horizon : Executor → Instant) {fuel : Nat}
    {e : Executor} (ha : e.Attentive) (hf : e.weight < fuel) :
    AtRest halt horizon (workerTurns halt horizon fuel e) := by
  induction fuel generalizing e with
  | zero => omega
  | succ fuel ih =>
    unfold workerTurns
    split
    next hh => exact .inl hh
    split
    next hn => exact .inr hn
    next next hn =>
      obtain ⟨hlt, hnext⟩ := weight_workerTurn_lt ha hn
      exact ih hnext (by omega)

/-- The worker runs until it is to halt or can make no turn. -/
theorem atRest_runWorker (halt : Executor → Bool) (horizon : Executor → Instant) (e : Executor) :
    AtRest halt horizon (e.runWorker halt horizon) :=
  atRest_workerTurns halt horizon (attentive_of_awake e.awake_wakeWorker) (Nat.lt_succ_self _)

end Executor

end Deferred
