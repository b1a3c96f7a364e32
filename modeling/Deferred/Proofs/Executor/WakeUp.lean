import Deferred.Proofs.Executor.Invariant

/-!
# No wake-up is lost

A task is added in one section under the lock, and the worker is woken for it in a later step; so is
the flag set that has the worker end. In between, any other thread may run. Only a task that becomes
the first one is a reason to wake the worker, so that a sleeping worker relies on the deadline until
which it sleeps for all the others.

* `Alert`: a sleeping worker is about to be woken, or is not to end and sleeps no longer than until
  the first deadline.
* `Alert.happens`: no transition destroys it.
* `wakes_in_time`: where nobody is about to wake the worker, it sleeps rightly.
-/

namespace Deferred

/-- Whether a thread has left a section under the lock and is yet to wake the worker. -/
def Control.owesWake : Control → Bool
  | notify _ | rouse _ => true
  | _ => false

/-- Sleeping until an instant, or without end, misses no deadline of a queue. -/
def Queue.Awaited (q : Queue Script) (until? : Option Instant) : Prop :=
  ∀ head, q.nextDeadline? = some head → ∃ deadline, until? = some deadline ∧ deadline ≤ head

namespace Queue

theorem awaited_of_none {q : Queue Script} {until? : Option Instant} (h : q.nextDeadline? = none) :
    q.Awaited until? := by
  intro head hh
  rw [h] at hh
  cases hh

theorem awaited_nextDeadline (q : Queue Script) : q.Awaited q.nextDeadline? :=
  fun head h => ⟨head, h, Int.le_refl _⟩

/-- A queue whose first task is not the one just pushed has the first deadline that it had. -/
theorem nextDeadline?_push {q grown : Queue Script} {t : Task Script} (h : q.push t = .ok grown)
    (hf : grown.firstId? ≠ some t.id) : grown.nextDeadline? = q.nextDeadline? := by
  rcases first?_push h with hg | ⟨hg, -⟩
  · exact absurd (by rw [firstId?, hg]; rfl) hf
  · rw [nextDeadline?, nextDeadline?, hg]

end Queue

namespace Executor

variable {e next : Executor} {t : ThreadId} {a b : Activity} {c : Change}

/-! ## What a step does to the first deadline -/

/-- The worker is not to end if it was not to, and the first deadline is as before, or there is
none. -/
def Change.IsCalm (e : Executor) (c : Change) : Prop :=
  c.guarded.terminating = e.guarded.terminating ∧
    (c.guarded.pending.nextDeadline? = e.guarded.pending.nextDeadline? ∨
      c.guarded.pending.nextDeadline? = none)

theorem Opens.isCalm {stack : List Frame} {request : Request} (h : Opens e t stack request c b) :
    Change.IsCalm e c := by
  cases h with
  | cancelAll => exact ⟨rfl, .inr rfl⟩
  | _ => exact ⟨rfl, .inl rfl⟩

theorem Catches.isCalm {payload : Payload} {frame : Frame} {stack : List Frame}
    (h : Catches e payload frame stack c b) : Change.IsCalm e c := by
  cases h <;> exact ⟨rfl, .inl rfl⟩

/-- A thread that owes a waking pays it with its next step. -/
theorem Local.wakes_of_owes (h : Local e t a c b) (ho : a.control.owesWake = true) :
    c.wakes = true := by
  cases h with
  | notify | rouse => rfl
  | _ => cases ho

/-- Whatever brings the first deadline forward, or has the worker end, leaves a waking owed. -/
theorem Local.owes_or_isCalm (h : Local e t a c b) :
    b.control.owesWake = true ∨ Change.IsCalm e c := by
  cases h with
  | opens _ ho | call _ ho => exact .inr ho.isCalm
  | raise _ hc => exact .inr (hc.isCalm :)
  | unwind hc => exact .inr hc.isCalm
  | accept ha =>
    obtain ⟨-, -, pending, hpush, rfl, rfl⟩ := Guarded.accept_ok ha
    split
    next hf => exact .inl rfl
    next hf => exact .inr ⟨rfl, .inl (Queue.nextDeadline?_push hpush (by simpa using hf))⟩
  | flag => exact .inl rfl
  | discard | drain => exact .inr ⟨rfl, .inr rfl⟩
  | _ => exact .inr ⟨rfl, .inl rfl⟩

/-! ## The invariant -/

/-- A thread is about to wake the worker. -/
def WakePending (e : Executor) : Prop :=
  ∃ t a, e.activity? t = some a ∧ a.control.owesWake = true

/-- A sleeping worker is about to be woken, or it is not to end and sleeps no longer than until the
first deadline. -/
def Alert (e : Executor) : Prop :=
  ∀ until?, e.worker = .parked until? →
    e.WakePending ∨ e.guarded.terminating = false ∧ e.guarded.pending.Awaited until?

theorem alert_initial (config : Config) (telemetry : Telemetry) (clock : Instant) :
    (initial config telemetry clock).Alert := nofun

/-- A step that wakes nobody leaves a sleeping worker asleep. -/
theorem parked_of_after {until? : Option Instant} (h : (e.after t c b).worker = .parked until?) :
    c.wakes = false ∧ e.worker = .parked until? := by
  cases t with
  | worker => cases h
  | caller n =>
    rw [worker_after_caller] at h
    split at h
    · exfalso
      cases hw : e.worker <;> rw [hw] at h <;> cases h
    next hc => exact ⟨by simpa using hc, h⟩

theorem Change.IsCalm.awaited {until? : Option Instant} (h : Change.IsCalm e c)
    (ha : e.guarded.pending.Awaited until?) : c.guarded.pending.Awaited until? := by
  rcases h.2 with hn | hn
  · intro head hh
    exact ha head (hn ▸ hh)
  · exact Queue.awaited_of_none hn

/-- A step that owes no waking afterwards, and did not owe one before, keeps the worker alert. -/
theorem alert_after (hi : e.Alert) (howed : ∀ a, e.activity? t = some a →
      a.control.owesWake = true → c.wakes = true)
    (hc : b.control.owesWake = true ∨ Change.IsCalm e c) : (e.after t c b).Alert := by
  intro until? hw
  obtain ⟨hwakes, hparked⟩ := parked_of_after hw
  rcases hc with hb | hcalm
  · exact .inl ⟨t, b, activity?_after_self, hb⟩
  rcases hi until? hparked with ⟨u, a, hu, ha⟩ | ⟨ht, hq⟩
  · -- the thread that is about to wake the worker is another one, or it would have done so
    have hne : u ≠ t := by
      rintro rfl
      rw [howed a hu ha] at hwakes
      cases hwakes
    exact .inl ⟨u, a, (activity?_after_ne hne).trans hu, ha⟩
  · right
    rw [guarded_after]
    exact ⟨hcalm.1.trans ht, hcalm.awaited hq⟩

theorem Alert.happens (hi : e.Alert) (h : Happens e next) : next.Alert := by
  cases h with
  | @goes t a b c ha hl =>
    refine alert_after hi ?_ hl.owes_or_isCalm
    intro a' ha' hw
    obtain rfl : a = a' := Option.some.inj (ha.symm.trans ha')
    exact hl.wakes_of_owes hw
  | turns hv hw =>
    intro until? hp
    rw [worker_afterTurn] at hp
    cases hw with
    | sleep ht _ =>
      obtain rfl := WorkerState.parked.inj hp
      exact .inr ⟨ht, Queue.awaited_nextDeadline _⟩
    | _ => cases hp
  | ticks => exact hi

/-! ## Sleeping rightly -/

/-- **No wake-up is lost**: whenever the worker sleeps and no thread is yet to wake it, the worker
is not to end, and it has nothing to wait for or sleeps no longer than until the first deadline. -/
theorem wakes_in_time {config : Config} {telemetry : Telemetry} {clock : Instant} {start : Executor}
    (hs : Executor.start config telemetry clock = .ok start) (hr : start.Reachable e)
    {until? : Option Instant} (hw : e.worker = .parked until?)
    (hn : ∀ t a, e.activity? t = some a → a.control.owesWake = false) :
    e.guarded.terminating = false ∧
      (e.guarded.pending.isEmpty = true ∨
        ∃ deadline head, until? = some deadline ∧
          e.guarded.pending.nextDeadline? = some head ∧ deadline ≤ head) := by
  have hi : e.Alert := invariant_of_start hs hr (alert_initial _ _ _)
    fun _ _ _ hi hh => hi.happens hh
  rcases hi until? hw with ⟨t, a, ha, howes⟩ | ⟨ht, hq⟩
  · rw [hn t a ha] at howes
    cases howes
  refine ⟨ht, ?_⟩
  cases hd : e.guarded.pending.nextDeadline? with
  | none => exact .inl (Queue.isEmpty_iff.2 (Queue.nextDeadline?_eq_none hd))
  | some head =>
    obtain ⟨deadline, hu, hle⟩ := hq head hd
    exact .inr ⟨deadline, head, hu, rfl, hle⟩

/-- Two callers, the second of which schedules the earlier task and is yet to count it. -/
theorem wakes_in_time_two_callers :
    ∃ e head, (initial {} .stub ⟨0⟩).Reachable e ∧ e.worker = .parked (some ⟨1000⟩) ∧
      (∀ t a, e.activity? t = some a → a.control.owesWake = false) ∧
      e.guarded.pending.isEmpty = false ∧ e.guarded.terminating = false ∧
      e.guarded.pending.nextDeadline? = some head ∧ (⟨1000⟩ : Instant) ≤ head := by
  obtain ⟨e, hm, hw, hn, hq⟩ : ∃ e, (initial {} .stub ⟨0⟩).moves?
      [.step .worker, .call 0 (.schedule { label := "later", due := .instant ⟨2000⟩ }),
        .step (.caller 0), .step (.caller 0), .step (.caller 0), .step .worker,
        .call 1 (.schedule { label := "sooner", due := .instant ⟨1000⟩ }),
        .step (.caller 1), .step (.caller 1), .step .worker] = some e ∧
      e.worker = .parked (some ⟨1000⟩) ∧
      (∀ t a, e.activity? t = some a → a.control.owesWake = false) ∧
      e.guarded.pending.isEmpty = false := by
    refine ⟨_, rfl, rfl, ?_, rfl⟩
    rintro (_ | _ | _ | n) a ha
    · cases ha
    all_goals
      obtain rfl := Option.some.inj ha
      rfl
  have hs : Executor.start {} .stub ⟨0⟩ = .ok _ := rfl
  have hr := Reachable.refl.of_moves _ hm
  obtain ⟨ht, he | ⟨deadline, head, hd, hh, hle⟩⟩ := wakes_in_time hs hr hw hn
  · rw [hq] at he
    cases he
  · obtain rfl := Option.some.inj hd
    exact ⟨e, head, hr, hw, hn, hq, ht, hh, hle⟩

end Executor

end Deferred
