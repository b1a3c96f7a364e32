import Deferred.Proofs.Executor.Invariant

/-!
# The end of an executor

The first call that closes an executor has the worker end, waits for it, and removes the tasks that
are left. No task is added once the worker is to end, so that none is pending after that.

* `Control.closes`, `Control.hasFlagged`: how far a closing call has come.
* `Ending`: a closing call is under way, or nothing is pending and nothing will be.
* `Over`: an executor has ended, and nothing is going on any more.
-/

namespace Deferred

namespace Control

/-- Whether a thread is closing the executor and has yet to remove the tasks that are left. -/
def closes : Control → Bool
  | flag _ | rouse _ | join _ | drain _ _ => true
  | _ => false

/-- Whether such a thread has already told the worker to end. -/
def hasFlagged : Control → Bool
  | rouse _ | join _ | drain _ _ => true
  | _ => false

end Control

/-- The worker is to end, and no task is pending. -/
def Guarded.IsSpent (g : Guarded Script) : Prop := g.terminating = true ∧ g.pending.tasks = []

namespace Executor

variable {e next : Executor} {t : ThreadId} {a b : Activity} {c : Change} {v w : WorkerState}

/-! ## What is shared never revives -/

/-- A step that has the worker end no less than before, and leaves no task where there was none. -/
def Change.Spends (e : Executor) (c : Change) : Prop :=
  (e.guarded.terminating = true → c.guarded.terminating = true) ∧
    (e.guarded.IsSpent → c.guarded.pending.tasks = [])

theorem Change.spends_of_guarded_eq (h : c.guarded = e.guarded) : Change.Spends e c :=
  ⟨fun ht => h ▸ ht, fun hs => h ▸ hs.2⟩

theorem Opens.spends {stack : List Frame} {request : Request} (h : Opens e t stack request c b) :
    Change.Spends e c := by
  cases h with
  | cancelAll => exact ⟨id, fun _ => rfl⟩
  | _ => exact Change.spends_of_guarded_eq rfl

theorem Catches.spends {payload : Payload} {frame : Frame} {stack : List Frame}
    (h : Catches e payload frame stack c b) : Change.Spends e c := by
  cases h <;> exact Change.spends_of_guarded_eq rfl

theorem Local.spends (h : Local e t a c b) : Change.Spends e c := by
  cases h with
  | opens _ ho | call _ ho => exact ho.spends
  | raise _ hc => exact (hc.spends :)
  | unwind hc => exact hc.spends
  | accept ha =>
    obtain ⟨-, hterm, pending, -, rfl, -⟩ := Guarded.accept_ok ha
    refine ⟨id, fun hs => ?_⟩
    rw [hs.1] at hterm
    cases hterm
  | flag => exact ⟨fun _ => rfl, fun hs => hs.2⟩
  | discard | drain => exact ⟨id, fun _ => rfl⟩
  | _ => exact Change.spends_of_guarded_eq rfl

theorem WorkerStep.spends (h : WorkerStep e v c w) : Change.Spends e c := by
  cases h with
  | run ht =>
    refine ⟨id, fun hs => ?_⟩
    rw [hs.1] at ht
    cases ht
  | die => exact ⟨fun _ => rfl, fun hs => hs.2⟩
  | _ => exact Change.spends_of_guarded_eq rfl

/-! ## A closing call goes on to its end -/

theorem Opens.closes {stack : List Frame} {request : Request} (h : Opens e t stack request c b) :
    (c.joinable = e.joinable ∨ b.control.closes = true) ∧ b.control.hasFlagged = false := by
  cases h with
  | close => exact ⟨.inr rfl, rfl⟩
  | _ => exact ⟨.inl rfl, rfl⟩

theorem Catches.closes {payload : Payload} {frame : Frame} {stack : List Frame}
    (h : Catches e payload frame stack c b) :
    c.joinable = e.joinable ∧ b.control.hasFlagged = false := by
  cases h <;> exact ⟨rfl, rfl⟩

/-- Only a thread that then closes the executor makes it one that a call has set out to close. -/
theorem Local.joinable (h : Local e t a c b) :
    c.joinable = e.joinable ∨ b.control.closes = true := by
  cases h with
  | opens _ ho | call _ ho => exact ho.closes.1
  | raise _ hc => exact .inl hc.closes.1
  | unwind hc => exact .inl hc.closes.1
  | _ => exact .inl rfl

theorem Local.hasFlagged (h : Local e t a c b) (hb : b.control.hasFlagged = true) :
    a.control.hasFlagged = true ∨ c.guarded.terminating = true := by
  cases h with
  | opens _ ho | call _ ho =>
    rw [ho.closes.2] at hb
    cases hb
  | raise _ hc | unwind hc =>
    rw [hc.closes.2] at hb
    cases hb
  | @accept _ _ _ first => cases first <;> cases hb
  | flag => exact .inr rfl
  | rouse | joinSelf | joinStopped | joinDied => exact .inl rfl
  | _ => cases hb

/-- A closing call goes on, until it has removed the tasks that are left. -/
theorem Local.closes (h : Local e t a c b) (ha : a.control.closes = true) :
    b.control.closes = true ∨ a.control.hasFlagged = true ∧ c.guarded.pending.tasks = [] := by
  cases h with
  | flag | rouse | joinSelf | joinStopped | joinDied => exact .inl rfl
  | discard | drain => exact .inr ⟨rfl, rfl⟩
  | _ => cases ha

/-- A closing call is under way and has had the worker end if it has come so far, or it has been,
and there is nothing left. -/
structure Ending (e : Executor) : Prop where
  flagged : ∀ t a, e.activity? t = some a → a.control.hasFlagged = true →
    e.guarded.terminating = true
  closing : e.joinable = false →
    (∃ t a, e.activity? t = some a ∧ a.control.closes = true) ∨ e.guarded.IsSpent

theorem ending_initial (config : Config) (telemetry : Telemetry) (clock : Instant) :
    (initial config telemetry clock).Ending where
  flagged t a ha hf := by
    obtain ⟨rfl, -⟩ := activity?_initial ha
    cases hf
  closing := nofun

theorem Ending.goes (hi : e.Ending) (ha : e.activity? t = some a) (hl : Local e t a c b) :
    (e.after t c b).Ending := by
  constructor
  · intro u a' ha' hf
    rw [guarded_after]
    rcases activity?_after ha' with ⟨rfl, rfl⟩ | ⟨-, hother⟩
    · rcases hl.hasFlagged hf with haf | hterm
      · exact hl.spends.1 (hi.flagged _ a ha haf)
      · exact hterm
    · exact hl.spends.1 (hi.flagged u a' hother hf)
  · intro hj
    rw [joinable_after] at hj
    by_cases hb : b.control.closes = true
    · exact .inl ⟨t, b, activity?_after_self, hb⟩
    have hje : e.joinable = false := (hl.joinable.resolve_right hb).symm.trans hj
    rcases hi.closing hje with ⟨u, a', hu, hc⟩ | hspent
    · by_cases hut : u = t
      · subst hut
        obtain rfl : a = a' := Option.some.inj (ha.symm.trans hu)
        obtain ⟨haf, hnil⟩ := (hl.closes hc).resolve_left hb
        exact .inr ⟨guarded_after .. ▸ hl.spends.1 (hi.flagged u a ha haf), guarded_after .. ▸ hnil⟩
      · exact .inl ⟨u, a', (activity?_after_ne hut).trans hu, hc⟩
    · exact .inr ⟨guarded_after .. ▸ hl.spends.1 hspent.1, guarded_after .. ▸ hl.spends.2 hspent⟩

theorem Ending.happens (hi : e.Ending) (h : Happens e next) : next.Ending := by
  cases h with
  | goes ha hl => exact hi.goes ha hl
  | @turns v w c hv hw =>
    have hspends := hw.spends
    constructor
    · intro u a' ha' hf
      rcases activity?_afterTurn ha' with ⟨rfl, rfl⟩ | ⟨-, hother⟩
      · cases hw with
        | run => cases hf
      · exact hspends.1 (hi.flagged u a' hother hf)
    · intro hj
      have hje : e.joinable = false := by cases hw <;> exact hj
      rcases hi.closing hje with ⟨u, a', hu, hc⟩ | hspent
      · cases u with
        | worker =>
          -- the worker ends no action while it closes the executor
          rw [activity?_worker, hv] at hu
          cases hw <;> cases hu <;> cases hc
        | caller n => exact .inl ⟨.caller n, a', hu, hc⟩
      · exact .inr ⟨hspends.1 hspent.1, hspends.2 hspent⟩
  | ticks => exact ⟨hi.flagged, hi.closing⟩

/-! ## The end -/

/-- A call has closed the executor, the worker has ended, and nothing is going on any more. -/
structure Over (e : Executor) : Prop where
  closed : e.joinable = false
  ended : e.workerEnd?.isSome = true
  quiet : e.Quiet

/-- At the end no task is pending. -/
theorem Over.tasks_eq_nil (h : e.Over) (hi : e.Ending) : e.guarded.pending.tasks = [] := by
  rcases hi.closing h.closed with ⟨t, a, ha, hc⟩ | hspent
  · obtain rfl := h.quiet.eq_idle ha
    cases hc
  · exact hspent.2

theorem ending_of_start {config : Config} {telemetry : Telemetry} {clock : Instant}
    {start last : Executor} (hs : Executor.start config telemetry clock = .ok start)
    (hr : start.Reachable last) : last.Ending :=
  invariant_of_start hs hr (ending_initial _ _ _) fun _ _ _ hi hh => hi.happens hh

end Executor

end Deferred
