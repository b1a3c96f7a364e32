import Deferred.Proofs.Executor.Admission
import Deferred.Proofs.Executor.Counters
import Deferred.Proofs.Executor.Death
import Deferred.Proofs.Queue.Unnumbered

/-!
# Threads that schedule tasks side by side

Any number of threads schedule tasks while the worker takes up none. Their calls overlap: each takes
several steps, between which the others may make theirs, so that a task may be made before another
one and added after it.

* `Executor.Schedules`: the states to which such calls lead, in whatever order they make their
  steps.
* `Executor.Brings`: what some steps bring about, told by the calls that begin in them, the tasks
  that are added and those that are turned down. `Brings.trans` puts steps together.
* `Standing`: how the calls of a run stand, `standing_of_schedules` the induction on the run.
* `exists_over`: every run can be carried to the end of all calls.
-/

namespace Deferred

/-- Whether a thread is in the midst of a call that schedules a task. -/
def Control.schedules : Control → Bool
  | enqueue _ | notify _ | record _ => true
  | _ => false

/-- How many steps a call has yet to make that schedules a task, at most. -/
def Control.stepsLeft : Control → Nat
  | enqueue _ => 3
  | notify _ => 2
  | record _ => 1
  | _ => 0

namespace Spec

/-- The task that is asked for, but for its number, if it is asked for at an instant. -/
def booking? (spec : Spec) : Option (Task Script) :=
  match spec.due with
  | .instant when => some (spec.task ⟨0⟩ when)
  | .delay _ => none

/-- The error of a call that asks for a delay beyond the end of the clock. -/
def overflow? (spec : Spec) : Option Error :=
  match spec.due with
  | .instant _ => none
  | .delay length => some (.delayOverflows length)

end Spec

/-- The tasks, but for their numbers, that calls ask for at instants. -/
def bookings (calls : List (ThreadId × Spec)) : List (Task Script) :=
  calls.filterMap fun call => call.2.booking?

/-- The errors of the calls that ask for delays beyond the end of the clock. -/
def overflows (calls : List (ThreadId × Spec)) : List Error :=
  calls.filterMap fun call => call.2.overflow?

/-- The calls of one thread among the calls of several. -/
def callsOf (t : ThreadId) (calls : List (ThreadId × Spec)) : List Spec :=
  (calls.filter (·.1 = t)).map (·.2)

/-- The error with which a queue that is full turns a task down. -/
def Queue.fullError {α : Type} (q : Queue α) : Error := .queueFull (q.limit.getD 0)

/-- The error that a call has failed with. -/
def Event.failures : Event → List Error
  | answered _ (.failed error) | returned (.failed error) => [error]
  | _ => []

@[simp] theorem Event.failures_failed (topic : Topic) (stack : List Frame) (error : Error) :
    (answerEvent topic stack (.failed error)).failures = [error] := by
  cases stack <;> rfl

@[simp] theorem Event.failures_scheduled (topic : Topic) (stack : List Frame) (id : TaskId) :
    (answerEvent topic stack (.scheduled id)).failures = [] := by
  cases stack <;> rfl

@[simp] theorem Event.failures_logged (line : LogLine) : (logged line).failures = [] := rfl

/-- How many tasks of a certain kind, numbers aside, a thread has made and not yet offered. -/
def Activity.offers (p : Task Script → Bool) (a : Activity) : Nat :=
  a.control.offered.countP fun task => p task.unnumbered

/-! ## Counting -/

/-- So many more tasks have been counted as scheduled, if the metrics are kept. -/
inductive Telemetry.Counts (k : Nat) : Telemetry → Telemetry → Prop
  | kept {m m' : Metrics} (h : m'.scheduled = m.scheduled + .ofNat k) : Counts k (kept m) (kept m')
  | stub : Counts k stub stub

namespace Telemetry

variable {s t u : Telemetry} {k l : Nat}

theorem counts_zero (t : Telemetry) : Counts 0 t t := by
  cases t with
  | kept m => exact .kept (UInt64.add_zero _).symm
  | stub => exact .stub

theorem counts_recordScheduled (t : Telemetry) : Counts 1 t (t.update .recordScheduled) := by
  cases t with
  | kept m => exact .kept rfl
  | stub => exact .stub

theorem counts_recordPanic (t : Telemetry) : Counts 0 t (t.update .recordPanic) := by
  cases t with
  | kept m => exact .kept (UInt64.add_zero _).symm
  | stub => exact .stub

theorem Counts.trans (h : Counts k s t) (h' : Counts l t u) : Counts (k + l) s u := by
  cases h with
  | kept h =>
    cases h' with
    | kept h' => exact .kept (by rw [h', h, UInt64.ofNat_add, UInt64.add_assoc])
  | stub =>
    cases h'
    exact .stub

/-- Metrics that have counted the same say the same. -/
theorem Counts.snapshot_eq (h : Counts k s t) (h' : Counts k s u) (uptime other : Duration) :
    (t.snapshot uptime).scheduled = (u.snapshot other).scheduled := by
  cases h with
  | kept h =>
    cases h' with
    | kept h' => exact h.trans h'.symm
  | stub =>
    cases h'
    rfl

end Telemetry

namespace Executor

variable {e before next last : Executor} {t : ThreadId} {a b : Activity} {c : Change}
variable {calls more : List (ThreadId × Spec)} {placed refused : List (Task Script)}
variable {stack : List Frame}

/-- The errors that calls have failed with. -/
def failures (e : Executor) : List Error := e.gather Event.failures

/-- Where a thread is in the midst of a call that schedules a task, if it is in one. -/
def midst (e : Executor) (t : ThreadId) : Option Control :=
  ((e.activity? t).map (·.control)).filter Control.schedules

/-! ## Runs -/

/-- A move in which no call makes a step, and in which the worker does no more than to look for
work, to wake up, or to end what it runs. -/
inductive Idles (e : Executor) : Move → Prop
  | looks (hw : e.worker = .polling) : Idles e (.step .worker)
  | finishes {frame : Frame} {below : List Frame} (hw : e.worker = .busy { stack := frame :: below })
      (hh : frame.rest.head = .finish) : Idles e (.step .worker)
  | ends {frame : Frame} {swallowed : Bool} {below : List Frame}
      (hw : e.worker = .busy ⟨.ended frame swallowed, below⟩) : Idles e (.step .worker)
  | wakes : Idles e .wake
  | ticks (nanos : Nat) : Idles e (.tick nanos)

/-- The states to which calls that schedule tasks lead from a state. The calls are listed in the
order in which they begin. A task is asked for at an instant, or after a delay that leads beyond the
end of the clock. Whose step is next is left open, but the worker takes up no task. -/
inductive Schedules (e : Executor) : List (ThreadId × Spec) → Executor → Prop
  | start : Schedules e [] e
  /-- A thread begins a call. -/
  | begins {calls : List (ThreadId × Spec)} {before next : Executor} {t : ThreadId}
      {stack : List Frame} {spec : Spec} (h : Schedules e calls before)
      (hc : before.Calls t (.schedule spec) stack next)
      (hd : ∀ length, spec.due = .delay length → before.clock.after? length = none) :
      Schedules e (calls ++ [(t, spec)]) next
  /-- A thread goes on with its call. -/
  | goesOn {calls : List (ThreadId × Spec)} {before next : Executor} {t : ThreadId}
      (h : Schedules e calls before) (ht : t ∈ calls.map Prod.fst) (hc : before.midst t ≠ none)
      (hm : before.move? (.step t) = some next) : Schedules e calls next
  | idles {calls : List (ThreadId × Spec)} {before next : Executor} {m : Move}
      (h : Schedules e calls before) (hi : before.Idles m) (hm : before.move? m = some next)
      (hp : next.guarded.pending = before.guarded.pending) : Schedules e calls next

/-- No thread that has made calls is in the midst of one. -/
def AreOver (calls : List (ThreadId × Spec)) (last : Executor) : Prop :=
  ∀ t ∈ calls.map Prod.fst, last.midst t = none

instance (calls : List (ThreadId × Spec)) (last : Executor) : Decidable (AreOver calls last) :=
  inferInstanceAs (Decidable (∀ t ∈ calls.map Prod.fst, last.midst t = none))

theorem Schedules.reachable (h : e.Schedules calls last) : e.Reachable last := by
  induction h with
  | start => exact .refl
  | begins _ hc _ ih => exact hc.reachable ih
  | goesOn _ _ _ hm ih => exact ih.move _ hm
  | idles _ _ hm _ ih => exact ih.move _ hm

/-- A thread in the midst of its call makes the step that it can make. -/
theorem Schedules.goes (h : e.Schedules calls before) (t : ThreadId) (ht : t ∈ calls.map Prod.fst)
    (hc : before.midst t ≠ none) (hm : (before.move? (.step t)).isSome = true) :
    e.Schedules calls ((before.move? (.step t)).get hm) :=
  h.goesOn ht hc (Option.some_get hm).symm

/-! ## Who is in the midst of a call -/

theorem midst_of_activity (ha : e.activity? t = some a) :
    e.midst t = if a.control.schedules then some a.control else none := by
  rw [midst, ha, Option.map_some, Option.filter_some]

theorem midst_eq_some {control : Control} (h : e.midst t = some control) :
    control.schedules = true ∧ ∃ stack, e.activity? t = some ⟨control, stack⟩ := by
  obtain ⟨hcontrol, hs⟩ := Option.filter_eq_some_iff.1 h
  obtain ⟨⟨_, stack⟩, ha, rfl⟩ := Option.map_eq_some_iff.1 hcontrol
  exact ⟨hs, stack, ha⟩

/-- The step of a thread that is in the midst of a call is a step of that call. -/
theorem local_of_midst {control : Control} (ho : e.Orderly) (hc : e.midst t = some control)
    (hm : e.move? (.step t) = some next) :
    ∃ stack c b, e.activity? t = some ⟨control, stack⟩ ∧ Local e t ⟨control, stack⟩ c b ∧
      next = e.after t c b := by
  obtain ⟨hs, stack, ha⟩ := midst_eq_some hc
  cases goes_of_step ho ha hm with
  | continues hl => exact ⟨stack, _, _, ha, hl, rfl⟩
  | finishes _ hw => cases hw <;> cases hs

theorem midst_after_self :
    (e.after t c b).midst t = if b.control.schedules then some b.control else none :=
  midst_of_activity activity?_after_self

theorem midst_after_ne {u : ThreadId} (h : u ≠ t) : (e.after t c b).midst u = e.midst u := by
  rw [midst, activity?_after_ne h, midst]

/-! ## What steps bring about -/

/-- What some steps bring about in which `calls` begin: `placed` are the tasks that they add, the
latest first, and `refused` those that they turn down because the queue is full. Every task that has
been asked for at an instant is among these, or a thread has yet to offer it. -/
structure Brings (e : Executor) (calls : List (ThreadId × Spec))
    (placed refused : List (Task Script)) (next : Executor) : Prop where
  access : next.access = e.access
  aborted : next.aborted = e.aborted
  terminating : next.guarded.terminating = e.guarded.terminating
  limit : next.guarded.pending.limit = e.guarded.pending.limit
  tasks : next.guarded.pending.tasks.Perm (placed ++ e.guarded.pending.tasks)
  accepted : next.acceptedIds = placed.map Task.id ++ e.acceptedIds
  made : ∀ p, e.total (·.offers p) + (bookings calls).countP p =
    (placed ++ refused).countP (fun task => p task.unnumbered) + next.total (·.offers p)
  failed : next.failures.Perm (overflows calls ++
    List.replicate refused.length e.guarded.pending.fullError ++ e.failures)
  counted : ∃ k, next.confirmedIds.length = k + e.confirmedIds.length ∧
    e.telemetry.Counts k next.telemetry

theorem brings_nothing (hx : next.access = e.access) (hrun : next.aborted = e.aborted)
    (ht : next.guarded.terminating = e.guarded.terminating)
    (hp : next.guarded.pending = e.guarded.pending) (hacc : next.acceptedIds = e.acceptedIds)
    (hoff : ∀ p, next.total (·.offers p) = e.total (·.offers p))
    (hfail : next.failures = e.failures) (hconf : next.confirmedIds = e.confirmedIds)
    (hcount : e.telemetry.Counts 0 next.telemetry) : e.Brings [] [] [] next where
  access := hx
  aborted := hrun
  terminating := ht
  limit := by rw [hp]
  tasks := by rw [hp]; exact .refl _
  accepted := hacc
  made p := by
    have := hoff p
    simp only [bookings, List.filterMap_nil, List.countP_nil, List.append_nil]
    omega
  failed := by rw [hfail]; exact .refl _
  counted := ⟨0, by rw [hconf, Nat.zero_add], hcount⟩

/-- What one run of steps brings about after another. -/
theorem Brings.trans {placed' refused' : List (Task Script)} (h : e.Brings calls placed refused next)
    (h' : next.Brings more placed' refused' last) :
    e.Brings (calls ++ more) (placed' ++ placed) (refused ++ refused') last where
  access := h'.access.trans h.access
  aborted := h'.aborted.trans h.aborted
  terminating := h'.terminating.trans h.terminating
  limit := h'.limit.trans h.limit
  tasks := by
    rw [List.append_assoc]
    exact h'.tasks.trans (h.tasks.append_left placed')
  accepted := by rw [h'.accepted, h.accepted, List.map_append, List.append_assoc]
  made p := by
    have hfirst := h.made p
    have hsecond := h'.made p
    simp only [bookings, List.filterMap_append, List.countP_append] at hfirst hsecond ⊢
    omega
  failed := by
    have hfull : next.guarded.pending.fullError = e.guarded.pending.fullError := by
      rw [Queue.fullError, h.limit, Queue.fullError]
    have hsecond := h'.failed
    rw [hfull] at hsecond
    refine (hsecond.trans (h.failed.append_left _)).trans (List.perm_iff_count.2 fun error => ?_)
    simp only [overflows, List.filterMap_append, List.length_append, List.count_append,
      List.count_replicate]
    split <;> omega
  counted := by
    obtain ⟨k, hk, hcounts⟩ := h.counted
    obtain ⟨l, hl, hcounts'⟩ := h'.counted
    exact ⟨k + l, by omega, hcounts.trans hcounts'⟩

/-- What a step brings about that takes a thread from `a` to `b`. -/
structure Change.Brings (e : Executor) (a : Activity) (c : Change) (b : Activity)
    (calls : List (ThreadId × Spec)) (placed refused : List (Task Script)) : Prop where
  access : c.access = e.access
  aborted : c.aborted = e.aborted
  terminating : c.guarded.terminating = e.guarded.terminating
  limit : c.guarded.pending.limit = e.guarded.pending.limit
  tasks : c.guarded.pending.tasks.Perm (placed ++ e.guarded.pending.tasks)
  accepted : c.events.flatMap Event.acceptedIds = placed.map Task.id
  made : ∀ p, a.offers p + (bookings calls).countP p =
    (placed ++ refused).countP (fun task => p task.unnumbered) + b.offers p
  failed : c.events.flatMap Event.failures =
    overflows calls ++ List.replicate refused.length e.guarded.pending.fullError
  counted : e.telemetry.Counts (c.events.flatMap Event.confirmedIds).length c.telemetry

theorem Change.Brings.after (h : Change.Brings e a c b calls placed refused)
    (ha : e.activity? t = some a) : e.Brings calls placed refused (e.after t c b) where
  access := by
    rw [← h.access]
    cases t <;> rfl
  aborted := by rw [aborted_after, h.aborted]
  terminating := by rw [guarded_after, h.terminating]
  limit := by rw [guarded_after, h.limit]
  tasks := by rw [guarded_after]; exact h.tasks
  accepted := by rw [acceptedIds, gather_after, h.accepted, acceptedIds]
  made p := by
    have htotal := total_after_add (f := (·.offers p)) (c := c) (b := b) rfl ha
    have hmade := h.made p
    omega
  failed := by
    rw [failures, gather_after, h.failed]
    exact .refl _
  counted := by
    refine ⟨_, ?_, telemetry_after e t c b ▸ h.counted⟩
    rw [confirmedIds, gather_after, List.length_append, confirmedIds]

/-- A thread that makes a call is in the midst of none. -/
theorem Calls.ready {request : Request} (hc : e.Calls t request stack next) :
    ∃ below, e.activity? t = some { stack := below } := by
  cases hc with
  | @caller n _ _ hm =>
    unfold move? at hm
    simp only at hm
    split at hm
    next hi => exact ⟨[], congrArg some (Activity.eq_idle_of_isIdle hi.2)⟩
    · cases hm
  | callable ha => exact ⟨_, ha⟩

/-- A thread that begins a call makes a task with the next number, or fails at once. -/
theorem Calls.brings {spec : Spec} (hc : e.Calls t (.schedule spec) stack next)
    (hx : e.access = .available)
    (hd : ∀ length, spec.due = .delay length → e.clock.after? length = none) :
    ∃ below c b, e.activity? t = some { stack := below } ∧ next = e.after t c b ∧
      Change.Brings e { stack := below } c b [(t, spec)] [] [] ∧
      ∀ task ∈ b.control.offered, e.nextId ≤ task.id.number := by
  obtain ⟨below, ha⟩ := hc.ready
  cases hdue : spec.due with
  | instant when =>
    have hbooking : bookings [(t, spec)] = [spec.task ⟨0⟩ when] := by
      simp [bookings, Spec.booking?, hdue]
    have hoverflow : overflows [(t, spec)] = [] := by simp [overflows, Spec.overflow?, hdue]
    refine ⟨below, { e.unchanged with nextId := e.nextId + 1 },
      ⟨.enqueue (spec.task ⟨e.nextId⟩ when), stack⟩, ha, ?_, ?_, ?_⟩
    · rw [hc.eq_made hx (by rw [hdue]; rfl)]
      rfl
    · refine ⟨rfl, rfl, rfl, rfl, .refl _, rfl, fun p => ?_, ?_, Telemetry.counts_zero _⟩
      · rw [hbooking]
        simp [Activity.offers, Control.offered, Spec.task, Task.unnumbered]
      · rw [hoverflow]
        rfl
    · intro task hm
      obtain rfl := List.mem_singleton.1 hm
      exact Nat.le_refl _
  | delay length =>
    have hbooking : bookings [(t, spec)] = [] := by simp [bookings, Spec.booking?, hdue]
    have hoverflow : overflows [(t, spec)] = [.delayOverflows length] := by
      simp [overflows, Spec.overflow?, hdue]
    have hnone : spec.due.deadline e.clock = .error (.delayOverflows length) := by
      rw [hdue, Due.deadline, hd length hdue]
    refine ⟨below, _, { stack }, ha, (hc.eq_reply hx hnone).trans (reply_eq ..), ?_, ?_⟩
    · refine ⟨rfl, rfl, rfl, rfl, .refl _, by simp, fun p => ?_, ?_, ?_⟩
      · rw [hbooking]
        rfl
      · rw [hoverflow]
        simp
      · simpa [unchanged] using Telemetry.counts_zero e.telemetry
    · intro task hm
      cases hm

/-- A thread that goes on with its call offers its task, which is added or turned down because the
queue is full; or it wakes the worker, or counts its task. -/
theorem Local.brings (h : Local e t a c b) (hs : a.control.schedules = true)
    (hp : e.guarded.workerPanicked = false) (ht : e.guarded.terminating = false) :
    b.control.offered = [] ∧ ∃ placed refused, Change.Brings e a c b [] placed refused ∧
      (∀ task ∈ placed, a.control = .enqueue task) ∧
      (refused ≠ [] → ∃ capacity, e.guarded.pending.limit = some capacity ∧
        capacity ≤ e.guarded.pending.size) := by
  cases h with
  | @reject task _ error ha =>
    obtain ⟨capacity, hl, hc, rfl⟩ : ∃ capacity, e.guarded.pending.limit = some capacity ∧
        capacity ≤ e.guarded.pending.size ∧ error = .queueFull capacity := by
      simpa [hp, ht] using Guarded.accept_error.1 ha
    refine ⟨rfl, [], [task], ⟨rfl, rfl, rfl, rfl, .refl _, by simp, fun p => ?_, ?_, ?_⟩, ?_,
      fun _ => ⟨capacity, hl, hc⟩⟩
    · rfl
    · simp [overflows, Queue.fullError, hl]
    · simpa [unchanged] using Telemetry.counts_zero e.telemetry
    · intro task hm
      cases hm
  | @accept task _ _ first ha =>
    obtain ⟨-, -, pending, hpush, rfl, -⟩ := Guarded.accept_ok ha
    have hoffered : Control.offered (if first = true then .notify task else .record task) = [] := by
      cases first <;> rfl
    refine ⟨hoffered, [task], [], ⟨rfl, rfl, rfl, Queue.limit_of_push hpush,
      Queue.perm_push hpush, rfl, fun p => ?_, rfl, Telemetry.counts_zero _⟩, ?_,
      fun hne => absurd rfl hne⟩
    · rw [Activity.offers, Activity.offers, hoffered]
      rfl
    · intro other hm
      rw [List.mem_singleton.1 hm]
  | notify =>
    refine ⟨rfl, [], [], ⟨rfl, rfl, rfl, rfl, .refl _, rfl, fun p => rfl, rfl,
      Telemetry.counts_zero _⟩, ?_, fun hne => absurd rfl hne⟩
    intro task hm
    cases hm
  | record =>
    refine ⟨rfl, [], [], ⟨rfl, rfl, rfl, rfl, .refl _, by simp, fun p => rfl,
      by simp [overflows], ?_⟩, ?_,
      fun hne => absurd rfl hne⟩
    · simpa using Telemetry.counts_recordScheduled e.telemetry
    · intro task hm
      cases hm
  | _ => cases hs

/-- A step of a thread that is in the midst of no call leaves the calls of all threads where they
are. -/
theorem midst_after (ha : e.activity? t = some a) (hs : a.control.schedules = false)
    (hb : b.control.schedules = false) (u : ThreadId) : (e.after t c b).midst u = e.midst u := by
  by_cases hu : u = t
  · subst hu
    rw [midst_after_self, midst_of_activity ha, hs, hb]
    rfl
  · exact midst_after_ne hu

theorem midst_afterTurn {v w : WorkerState} (hv : e.worker = v)
    (hs : ∀ a, v = .busy a → a.control.schedules = false)
    (hb : ∀ a, w = .busy a → a.control.schedules = false) (u : ThreadId) :
    (e.afterTurn c w).midst u = e.midst u := by
  have hnone : ∀ x : WorkerState, (∀ a, x = .busy a → a.control.schedules = false) →
      (x.activity?.map (·.control)).filter Control.schedules = none := by
    intro x hx
    cases x with
    | busy a => simp [WorkerState.activity?, hx a rfl]
    | _ => rfl
  cases u with
  | worker =>
    have hafter : (e.afterTurn c w).midst .worker = none := hnone w hb
    have hbefore : e.midst .worker = none := hnone e.worker (hv ▸ hs)
    rw [hafter, hbefore]
  | caller n => rfl

/-- Ending an action counts no task as scheduled. -/
theorem counts_finish (e : Executor) (deadline started : Instant) (swallowed : Bool) :
    e.telemetry.Counts 0 ((e.recordRun deadline started).recordPanic swallowed).telemetry := by
  cases ht : e.telemetry <;> cases swallowed <;>
    simp only [recordRun, recordPanic, count, ht, Telemetry.update, if_true, if_false,
      Bool.false_eq_true]
  all_goals first | exact .stub | exact .kept (UInt64.add_zero _).symm

/-- The worker takes up no task, and does not die. -/
theorem WorkerStep.brings {v w : WorkerState} (h : WorkerStep e v c w) (hv : e.worker = v)
    (hp : c.guarded.pending = e.guarded.pending) (hd : ∀ payload, w ≠ .died payload) :
    e.Brings [] [] [] (e.afterTurn c w) ∧ ∀ t, (e.afterTurn c w).midst t = e.midst t := by
  have htotal := fun p => total_afterTurn (f := (·.offers p)) (c := c) (w := w) hv
  cases h with
  | @run _ pending _ hpop =>
    have hsize := Queue.size_pop (Queue.pop_of_popDue hpop)
    have hsame : pending.size = e.guarded.pending.size := congrArg Queue.size hp
    omega
  | finish =>
    refine ⟨brings_nothing rfl rfl rfl rfl rfl htotal rfl rfl (counts_finish ..),
      midst_afterTurn hv (fun a ha => ?_) (fun a ha => by cases ha)⟩
    cases ha
    rfl
  | die => exact absurd rfl (hd _)
  | stop | sleep | wake =>
    exact ⟨brings_nothing rfl rfl rfl rfl rfl htotal rfl rfl (Telemetry.counts_zero _),
      midst_afterTurn hv (fun a ha => by cases ha) (fun a ha => by cases ha)⟩

/-- A move in which no call makes a step brings nothing about as long as the queue stays as it is. -/
theorem Idles.brings {m : Move} (h : e.Idles m) (ho : e.Orderly) (hm : e.move? m = some next)
    (hp : next.guarded.pending = e.guarded.pending) :
    e.Brings [] [] [] next ∧ ∀ t, next.midst t = e.midst t := by
  have hmakes := makes_of_move ho hm
  cases h with
  | looks hw =>
    cases hmakes with
    | goes ha => rw [activity?_worker.1 ha] at hw; cases hw
    | looks hv hturn => exact hturn.brings hv hp fun payload h => by subst h; cases hturn
  | finishes hw hh =>
    cases hmakes with
    | goes ha hg =>
      obtain rfl := WorkerState.busy.inj (hw.symm.trans (activity?_worker.1 ha))
      cases hg with
      | continues hl =>
        cases hl with
        | finish =>
          refine ⟨Change.Brings.after ?_ ha, midst_after ha rfl rfl⟩
          exact ⟨rfl, rfl, rfl, rfl, .refl _, rfl, fun _ => rfl, rfl, Telemetry.counts_zero _⟩
        | call hcall | raise hcall => rw [hh] at hcall; cases hcall
      | finishes _ hturn => cases hturn
    | looks hv => rw [hw] at hv; cases hv
  | ends hw =>
    cases hmakes with
    | goes ha hg =>
      obtain rfl := WorkerState.busy.inj (hw.symm.trans (activity?_worker.1 ha))
      cases hg with
      | continues hl =>
        cases hl with
        | calledBack =>
          refine ⟨Change.Brings.after ?_ ha, midst_after ha rfl rfl⟩
          refine ⟨rfl, rfl, rfl, rfl, .refl _, rfl, fun _ => rfl, rfl, ?_⟩
          split
          · exact Telemetry.counts_recordPanic _
          · exact Telemetry.counts_zero _
      | finishes _ hturn => exact hturn.brings hw hp fun payload h => by subst h; cases hturn
    | looks hv => rw [hw] at hv; cases hv
  | wakes =>
    cases hmakes with
    | wakes hv => exact WorkerStep.brings .wake hv hp fun payload h => by cases h
  | ticks nanos =>
    cases hmakes
    exact ⟨brings_nothing rfl rfl rfl rfl rfl (fun _ => rfl) rfl rfl (Telemetry.counts_zero _),
      fun t => by cases t <;> rfl⟩

/-! ## How the calls stand -/

theorem Brings.size_eq (h : e.Brings calls placed refused next) :
    next.guarded.pending.size = placed.length + e.guarded.pending.size := by
  rw [← Queue.length_tasks, h.tasks.length_eq, List.length_append, Queue.length_tasks]

/-- How the calls of a run stand. What has been brought about has been so by tasks made in the run,
and a thread that makes no call is where it was. -/
structure Standing (e : Executor) (calls : List (ThreadId × Spec))
    (placed refused : List (Task Script)) (last : Executor) : Prop where
  brings : e.Brings calls placed refused last
  full : refused ≠ [] → ∃ capacity, e.guarded.pending.limit = some capacity ∧
    capacity ≤ last.guarded.pending.size
  placed : ∀ task ∈ placed, e.nextId ≤ task.id.number
  offered : ∀ t ∈ calls.map Prod.fst, ∀ task, last.midst t = some (.enqueue task) →
    e.nextId ≤ task.id.number
  began : ∀ t ∈ calls.map Prod.fst, e.midst t = none
  others : ∀ t ∉ calls.map Prod.fst, last.midst t = e.midst t

theorem standing_start (e : Executor) : e.Standing [] [] [] e where
  brings := brings_nothing rfl rfl rfl rfl rfl (fun _ => rfl) rfl rfl (Telemetry.counts_zero _)
  full hne := absurd rfl hne
  placed _ hm := by cases hm
  offered _ hm := by cases hm
  began _ hm := by cases hm
  others _ _ := rfl

/-- A queue that was full is full when tasks have been added. -/
theorem Standing.stays_full {placed' refused' : List (Task Script)}
    (h : e.Standing calls placed refused before)
    (hb : before.Brings more placed' refused' next) (hne : refused ≠ []) :
    ∃ capacity, e.guarded.pending.limit = some capacity ∧ capacity ≤ next.guarded.pending.size := by
  obtain ⟨capacity, hl, hc⟩ := h.full hne
  have hsize := hb.size_eq
  exact ⟨capacity, hl, by omega⟩

theorem Standing.idles (h : e.Standing calls placed refused before)
    (hb : before.Brings [] [] [] next) (hsame : ∀ t, next.midst t = before.midst t) :
    e.Standing calls placed refused next where
  brings := by
    have hall := h.brings.trans hb
    simp only [List.append_nil, List.nil_append] at hall
    exact hall
  full := h.stays_full hb
  placed := h.placed
  offered t ht task hm := h.offered t ht task ((hsame t).symm.trans hm)
  began := h.began
  others t ht := (hsame t).trans (h.others t ht)

/-- A thread begins a call. -/
theorem Standing.begins {spec : Spec} (h : e.Standing calls placed refused before)
    (hr : e.Reachable before) (ho : e.Orderly) (hx : e.access = .available)
    (hc : before.Calls t (.schedule spec) stack next)
    (hd : ∀ length, spec.due = .delay length → before.clock.after? length = none) :
    e.Standing (calls ++ [(t, spec)]) placed refused next := by
  obtain ⟨below, c, b, ha, rfl, hbrings, hnumber⟩ := hc.brings (h.brings.access.trans hx) hd
  have hmids : before.midst t = none := midst_of_activity ha
  have hall := hbrings.after ha
  have hmem : ∀ u, u ∈ (calls ++ [(t, spec)]).map Prod.fst ↔ u ∈ calls.map Prod.fst ∨ u = t := by
    intro u
    simp
  refine ⟨?_, h.stays_full hall, h.placed, fun u hu task hm => ?_, fun u hu => ?_, fun u hu => ?_⟩
  · have := h.brings.trans hall
    rwa [List.nil_append, List.append_nil] at this
  · by_cases hut : u = t
    · subst hut
      rw [midst_after_self] at hm
      split at hm
      · have hle := hnumber task (by rw [Option.some.inj hm]; exact List.mem_singleton_self _)
        exact Nat.le_trans (nextId_le_of_reachable ho hr) hle
      · cases hm
    · rw [midst_after_ne hut] at hm
      exact h.offered u (((hmem u).1 hu).resolve_right hut) task hm
  · by_cases hin : u ∈ calls.map Prod.fst
    · exact h.began u hin
    · -- the thread was where it is now when the run began
      obtain rfl := ((hmem u).1 hu).resolve_left hin
      exact (h.others u hin).symm.trans hmids
  · have hout : u ∉ calls.map Prod.fst ∧ u ≠ t := not_or.1 ((hmem u).not.1 hu)
    rw [midst_after_ne hout.2]
    exact h.others u hout.1

/-- A thread goes on with its call. -/
theorem Standing.goesOn {control : Control} (h : e.Standing calls placed refused before)
    (ho : before.Orderly) (hp : before.guarded.workerPanicked = false)
    (hterm : before.guarded.terminating = false) (ht : t ∈ calls.map Prod.fst)
    (hc : before.midst t = some control) (hm : before.move? (.step t) = some next) :
    ∃ placed refused, e.Standing calls placed refused next := by
  obtain ⟨hs, -⟩ := midst_eq_some hc
  obtain ⟨stack, c, b, ha, hl, rfl⟩ := local_of_midst ho hc hm
  obtain ⟨hoffered, placed', refused', hbrings, hplaced, hfull⟩ := hl.brings hs hp hterm
  have hall := hbrings.after ha
  refine ⟨placed' ++ placed, refused ++ refused', ?_, fun hne => ?_, fun task hm => ?_,
    fun u hu task hm => ?_, h.began, fun u hu => ?_⟩
  · have := h.brings.trans hall
    rwa [List.append_nil] at this
  · by_cases hr : refused = []
    · obtain ⟨capacity, hcap, hle⟩ := hfull fun hr' => hne (by rw [hr, hr', List.append_nil])
      have hsize := hall.size_eq
      exact ⟨capacity, h.brings.limit.symm.trans hcap, by omega⟩
    · exact h.stays_full hall hr
  · rcases List.mem_append.1 hm with hm | hm
    · have hcontrol : control = .enqueue task := hplaced task hm
      exact h.offered t ht task (hcontrol ▸ hc)
    · exact h.placed task hm
  · by_cases hut : u = t
    · subst hut
      rw [midst_after_self] at hm
      split at hm
      · rw [Option.some.inj hm] at hoffered
        cases hoffered
      · cases hm
    · rw [midst_after_ne hut] at hm
      exact h.offered u hu task hm
  · rw [midst_after_ne (by rintro rfl; exact hu ht)]
    exact h.others u hu

section Runs

variable {config : Config} {telemetry : Telemetry} {clock : Instant} {start : Executor}

/-- However the threads take turns, this is how their calls stand. -/
theorem standing_of_schedules (hs : Executor.start config telemetry clock = .ok start)
    (hr : start.Reachable e) (hx : e.access = .available) (ht : e.guarded.terminating = false)
    (h : e.Schedules calls last) : ∃ placed refused, e.Standing calls placed refused last := by
  have ho := orderly_of_start hs hr
  induction h with
  | start => exact ⟨[], [], standing_start e⟩
  | begins h hc hd ih =>
    obtain ⟨placed, refused, hi⟩ := ih
    exact ⟨placed, refused, hi.begins h.reachable ho hx hc hd⟩
  | @goesOn _ before _ _ h hin hc hm ih =>
    obtain ⟨placed, refused, hi⟩ := ih
    obtain ⟨control, hc⟩ := Option.ne_none_iff_exists'.1 hc
    have hbefore := hr.trans h.reachable
    have hterm : before.guarded.terminating = false := hi.brings.terminating.trans ht
    have hp : before.guarded.workerPanicked = false := by
      refine Bool.eq_false_iff.2 fun hp => ?_
      rw [(mortal_of_start hs hbefore).terminating hp] at hterm
      cases hterm
    exact hi.goesOn (orderly_of_start hs hbefore) hp hterm hin hc hm
  | idles h hi hm hp ih =>
    obtain ⟨placed, refused, hstands⟩ := ih
    obtain ⟨hb, hsame⟩ := hi.brings (orderly_of_start hs (hr.trans h.reachable)) hm hp
    exact ⟨placed, refused, hstands.idles hb hsame⟩

end Runs

/-! ## The end of the calls -/

/-- A thread in the midst of a call never has to wait. -/
theorem exists_step_of_midst {control : Control} (hrun : e.aborted = false)
    (hc : e.midst t = some control) : ∃ next, e.move? (.step t) = some next := by
  obtain ⟨hs, stack, ha⟩ := midst_eq_some hc
  rw [move?, step?_eq_advance hrun ha]
  cases control with
  | enqueue task =>
    cases hacc : e.guarded.accept task <;> simp [advance, hacc]
  | notify | record => exact ⟨_, rfl⟩
  | _ => cases hs

/-- With every step a call comes nearer to its end. -/
theorem Local.stepsLeft_lt (h : Local e t a c b) (hs : a.control.schedules = true) :
    b.control.stepsLeft < a.control.stepsLeft := by
  cases h with
  | @accept _ _ _ first => cases first <;> simp [Control.stepsLeft]
  | reject | notify | record => simp [Control.stepsLeft]
  | _ => cases hs

/-- Where a call begins, the process has not ended. -/
theorem Schedules.not_aborted (h : e.Schedules calls last) (hne : calls ≠ []) :
    e.aborted = false := by
  induction h with
  | start => exact absurd rfl hne
  | begins h hc _ _ =>
    refine Bool.eq_false_iff.2 fun hended => ?_
    have hrun := hc.not_aborted
    rw [h.reachable.of_aborted hended, hended] at hrun
    cases hrun
  | goesOn _ _ _ _ ih | idles _ _ _ _ ih => exact ih hne

/-- Wherever a run is, the steps of its threads bring all calls to their end. -/
theorem Schedules.exists_over {config : Config} {telemetry : Telemetry} {clock : Instant}
    {start : Executor} (hs : Executor.start config telemetry clock = .ok start)
    (hr : start.Reachable e) (hx : e.access = .available) (hterm : e.guarded.terminating = false)
    (h : e.Schedules calls before) :
    ∃ (ts : List ThreadId) (last : Executor), before.moves? (ts.map .step) = some last ∧
      e.Schedules calls last ∧ AreOver calls last := by
  induction hn : before.total (·.control.stepsLeft) using Nat.strong_induction_on
    generalizing before with
  | _ n ih =>
    by_cases hover : AreOver calls before
    · exact ⟨[], before, rfl, h, hover⟩
    · obtain ⟨t, hopen⟩ := not_forall.1 hover
      obtain ⟨ht, hmids⟩ := Classical.not_imp.1 hopen
      obtain ⟨control, hc⟩ := Option.ne_none_iff_exists'.1 hmids
      obtain ⟨placed, refused, hstands⟩ := standing_of_schedules hs hr hx hterm h
      have hrun := hstands.brings.aborted.trans (h.not_aborted (by rintro rfl; cases ht))
      obtain ⟨next, hm⟩ := exists_step_of_midst hrun hc
      obtain ⟨hschedules, -⟩ := midst_eq_some hc
      have ho := orderly_of_start hs hr
      have hless : next.total (·.control.stepsLeft) < n := by
        obtain ⟨stack, c, b, ha, hl, rfl⟩ := local_of_midst (h.reachable.orderly ho) hc hm
        have htotal := total_after_add (f := (·.control.stepsLeft)) (c := c) (b := b) rfl ha
        have hlt := hl.stepsLeft_lt hschedules
        omega
      obtain ⟨ts, last, hts, hlast, hover⟩ := ih _ hless (h.goesOn ht hmids hm) rfl
      refine ⟨t :: ts, last, ?_, hlast, hover⟩
      rw [List.map_cons, moves?, hm]
      exact hts

end Executor

end Deferred
