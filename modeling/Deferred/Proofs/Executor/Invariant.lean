import Deferred.Proofs.Executor.Record

/-!
# Invariants

How a property of all reachable states is proved: it holds when an executor starts, and no
transition destroys it.

* `Executor.apply`, `after` and `afterTurn` field by field, activity by activity and sum by sum.
* `Orderly.happens`: the stacks of the threads stay orderly.
* `Reachable.happens_invariant`, `invariant_of_start`: the rules by which invariants are proved.
-/

namespace Deferred

namespace Executor

/-! ## What a transition leaves behind -/

section Fields

variable (e : Executor) (t : ThreadId) (c : Change) (b : Activity) (w : WorkerState)

@[simp] theorem guarded_after : (e.after t c b).guarded = c.guarded := by cases t <;> rfl

@[simp] theorem handler_after : (e.after t c b).handler = c.handler := by cases t <;> rfl

@[simp] theorem telemetry_after : (e.after t c b).telemetry = c.telemetry := by cases t <;> rfl

theorem snapshot_after :
    (e.after t c b).snapshot = c.telemetry.snapshot (.ofNanos (e.clock.since e.startedAt)) := by
  cases t <;> rfl

@[simp] theorem nextId_after : (e.after t c b).nextId = c.nextId := by cases t <;> rfl

@[simp] theorem joinable_after : (e.after t c b).joinable = c.joinable := by cases t <;> rfl

@[simp] theorem aborted_after : (e.after t c b).aborted = c.aborted := by cases t <;> rfl

@[simp] theorem config_after : (e.after t c b).config = e.config := by cases t <;> rfl

@[simp] theorem guarded_afterTurn : (e.afterTurn c w).guarded = c.guarded := rfl

@[simp] theorem handler_afterTurn : (e.afterTurn c w).handler = c.handler := rfl

@[simp] theorem aborted_afterTurn : (e.afterTurn c w).aborted = c.aborted := rfl

@[simp] theorem config_afterTurn : (e.afterTurn c w).config = e.config := rfl

@[simp] theorem worker_afterTurn : (e.afterTurn c w).worker = w := rfl

theorem worker_after_caller (n : Nat) :
    (e.after (.caller n) c b).worker = if c.wakes then e.worker.woken else e.worker := rfl

theorem worker_after_worker : (e.after .worker c b).worker = .busy b := rfl

end Fields

variable {e : Executor} {t u : ThreadId} {c : Change} {a b : Activity} {v w : WorkerState}

theorem activity?_apply (e : Executor) (t u : ThreadId) (c : Change) :
    (e.apply t c).activity? u = e.activity? u := by
  cases u with
  | worker =>
    simp only [activity?, apply]
    split
    · exact e.worker.activity?_woken
    · rfl
  | caller n => rfl

@[simp] theorem activity?_after_self : (e.after t c b).activity? t = some b :=
  activity?_setActivity_self ..

theorem activity?_after_ne (h : u ≠ t) : (e.after t c b).activity? u = e.activity? u := by
  rw [after, activity?_setActivity_ne _ _ h, activity?_apply]

theorem activity?_afterTurn_caller (n : Nat) :
    (e.afterTurn c w).activity? (.caller n) = e.activity? (.caller n) := rfl

/-- The activities after a step of a thread: its new one, and those of the others. -/
theorem activity?_after (h : (e.after t c b).activity? u = some a) :
    u = t ∧ a = b ∨ u ≠ t ∧ e.activity? u = some a := by
  by_cases hu : u = t
  · subst hu
    rw [activity?_after_self] at h
    exact .inl ⟨rfl, (Option.some.inj h).symm⟩
  · exact .inr ⟨hu, activity?_after_ne hu ▸ h⟩

/-- The activities after a step of the worker by itself. -/
theorem activity?_afterTurn (h : (e.afterTurn c w).activity? u = some a) :
    u = .worker ∧ w = .busy a ∨ u ≠ .worker ∧ e.activity? u = some a := by
  cases u with
  | worker => exact .inl ⟨rfl, activity?_worker.1 h⟩
  | caller n => exact .inr ⟨nofun, h⟩

/-- What is the same of all busy workers, and of one that is woken, no step of a thread changes. -/
theorem worker_after {α : Type} (f : WorkerState → α) (hbusy : ∀ a b, f (.busy a) = f (.busy b))
    (hwoken : ∀ w, f w.woken = f w) (ha : e.activity? t = some a) :
    f (e.after t c b).worker = f e.worker := by
  cases t with
  | worker => rw [worker_after_worker, activity?_worker.1 ha, hbusy]
  | caller n =>
    rw [worker_after_caller]
    split
    · exact hwoken _
    · rfl

section Totals

variable {f : Activity → Nat}

theorem others_apply : (e.apply t c).others f u = e.others f u := by
  cases u with
  | worker => rfl
  | caller n =>
    have hw : (e.apply t c).worker.part f = e.worker.part f := by
      rw [WorkerState.part, ← activity?, activity?_apply]
      rfl
    rw [others, hw]
    rfl

theorem total_after (hf : f .idle = 0) : (e.after t c b).total f = e.others f t + f b := by
  rw [after, total_setActivity hf, others_apply]

/-- A step of a thread changes a sum by the change in the thread's part. -/
theorem total_after_add (hf : f .idle = 0) (ha : e.activity? t = some a) :
    (e.after t c b).total f + f a = e.total f + f b := by
  rw [total_after hf, total_of_activity hf ha]
  omega

theorem total_afterTurn (hv : e.worker = v) :
    (e.afterTurn c w).total f + v.part f = e.total f + w.part f := by
  subst hv
  have hc : (e.afterTurn c w).callers = e.callers := rfl
  simp only [total, hc, worker_afterTurn]
  omega

end Totals

/-! ## Starting -/

theorem eq_initial_of_start {config : Config} {telemetry : Telemetry} {clock : Instant}
    {start : Executor} (h : Executor.start config telemetry clock = .ok start) :
    start = initial config telemetry clock := by
  unfold Executor.start at h
  cases hv : config.validate with
  | error error => simp [hv, bind, Except.bind] at h
  | ok _ =>
    simp only [hv, bind, Except.bind] at h
    exact (Except.ok.inj h).symm

theorem activity?_initial {config : Config} {telemetry : Telemetry} {clock : Instant}
    (h : (initial config telemetry clock).activity? t = some a) :
    a = .idle ∧ ∃ n, t = .caller n := by
  cases t with
  | worker => cases h
  | caller n => exact ⟨(Option.some.inj h).symm, n, rfl⟩

/-! ## The stacks of the threads -/

theorem isStacked_caller_idle (n : Nat) : Activity.idle.IsStacked (.caller n) := nofun

theorem orderly_initial (config : Config) (telemetry : Telemetry) (clock : Instant) :
    (initial config telemetry clock).Orderly := by
  intro t a h
  obtain ⟨rfl, n, rfl⟩ := activity?_initial h
  exact isStacked_caller_idle n

theorem Opens.isStacked {stack : List Frame} {request : Request}
    (h : Opens e t stack request c b) (hs : Stacked t stack) : b.IsStacked t := by
  cases h <;> exact hs

theorem Catches.isStacked {payload : Payload} {frame : Frame} {stack : List Frame}
    (h : Catches e payload frame stack c b) (hs : Stacked t (frame :: stack)) :
    b.IsStacked t := by
  cases h with
  | swallow => exact hs
  | abort => exact hs
  | pass =>
    rcases hs.tail with ⟨-, hs⟩ | ⟨-, -, hs⟩
    · exact .inr hs
    · exact .inl hs

theorem Local.isStacked (h : Local e t a c b) (hs : a.IsStacked t) : b.IsStacked t := by
  cases h with
  | opens ht ho => exact ho.isStacked (ht ▸ nofun)
  | finish => exact hs
  | call _ ho => exact ho.isStacked (Stacked.goOn hs _)
  | raise _ hc => exact hc.isStacked hs
  | unwind hc => exact hc.isStacked (by simpa [Activity.IsStacked, Control.unwinds] using hs)
  | leave ht => exact ht ▸ isStacked_caller_idle _
  | @accept _ _ _ first => cases first <;> exact hs
  | _ => exact hs

theorem WorkerStep.isStacked (h : WorkerStep e v c w) (hb : w = .busy b) : b.IsStacked .worker := by
  cases h with
  | run =>
    obtain rfl := WorkerState.busy.inj hb
    exact ⟨rfl, rfl⟩
  | _ => cases hb

theorem Orderly.happens {next : Executor} (hs : e.Orderly) (h : Happens e next) :
    next.Orderly := by
  intro u a' ha'
  cases h with
  | goes ha hl =>
    rcases activity?_after ha' with ⟨rfl, rfl⟩ | ⟨-, hu⟩
    · exact hl.isStacked (hs _ _ ha)
    · exact hs u a' hu
  | turns hv hw =>
    rcases activity?_afterTurn ha' with ⟨rfl, hb⟩ | ⟨-, hu⟩
    · exact hw.isStacked hb
    · exact hs u a' hu
  | ticks => exact hs u a' ha'

/-! ## What lasts -/

theorem config_of_happens {next : Executor} (h : Happens e next) : next.config = e.config := by
  cases h with
  | goes => exact config_after ..
  | turns => exact config_afterTurn ..
  | ticks => rfl

/-- What has happened has happened. -/
theorem mem_gather_of_happens {α : Type} {f : Event → List α} {x : α} {next : Executor}
    (h : Happens e next) (hx : x ∈ e.gather f) : x ∈ next.gather f := by
  cases h with
  | goes =>
    rw [gather_after]
    exact List.mem_append_right _ hx
  | turns =>
    rw [gather_afterTurn]
    exact List.mem_append_right _ hx
  | ticks => exact hx

/-! ## Runs -/

theorem Reachable.trans {start middle last : Executor} (h : start.Reachable middle)
    (hl : middle.Reachable last) : start.Reachable last := by
  induction hl with
  | refl => exact h
  | move m _ hm ih => exact ih.move m hm

theorem Reachable.orderly {start last : Executor} (h : start.Reachable last)
    (hs : start.Orderly) : last.Orderly :=
  h.invariant hs fun _ _ _ ho hm => ho.happens (happens_of_move ho hm)

/-- A property that no transition destroys holds of all states reached from one that has it. -/
theorem Reachable.happens_invariant {P : Executor → Prop} {start last : Executor}
    (h : start.Reachable last) (hs : start.Orderly) (h0 : P start)
    (hstep : ∀ before next, start.Reachable before → P before → Happens before next → P next) :
    P last := by
  induction h with
  | refl => exact h0
  | move m hr hm ih => exact hstep _ _ hr ih (happens_of_move (hr.orderly hs) hm)

section Start

variable {config : Config} {telemetry : Telemetry} {clock : Instant} {start last : Executor}

theorem orderly_of_start (hs : Executor.start config telemetry clock = .ok start)
    (hr : start.Reachable last) : last.Orderly := by
  obtain rfl := eq_initial_of_start hs
  exact hr.orderly (orderly_initial _ _ _)

/-- A property that holds when an executor starts, and that no transition destroys, holds always. -/
theorem invariant_of_start {P : Executor → Prop}
    (hs : Executor.start config telemetry clock = .ok start) (hr : start.Reachable last)
    (h0 : P (initial config telemetry clock))
    (hstep : ∀ before next, start.Reachable before → P before → Happens before next → P next) :
    P last :=
  hr.happens_invariant (orderly_of_start hs .refl) (eq_initial_of_start hs ▸ h0) hstep

theorem config_of_start (hs : Executor.start config telemetry clock = .ok start)
    (hr : start.Reachable last) : last.config = config :=
  invariant_of_start (P := fun e => e.config = config) hs hr rfl
    fun _ _ _ hi hh => (config_of_happens hh).trans hi

end Start

end Executor

end Deferred
