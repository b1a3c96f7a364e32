import Deferred.Proofs.Executor.Escape

/-!
# What the counters count

Every counter is updated after the effect that it counts, in a step of its own, and not at all if a
panic comes in between. What is under way, and what panics have unwound, makes up the difference.

* `Sized`: the sizes that the batches of a thread had are those of the ledger's unsettled batches.
* `Confirmed`: added = reported as scheduled + yet to be reported.
* `Tallied`: the counters are the sizes of the ledger's accounts, modulo their range.
* `counters_exact`: what the counters say whenever nothing is in progress.
-/

namespace Deferred

/-- The sizes of the batches that a thread is settling. -/
def Ledger.sizesOf (l : Ledger) (t : ThreadId) : List Nat := (l.batchesOf t).map List.length

theorem Ledger.length_latest {l : Ledger} {t : ThreadId} {n : Nat} {rest : List Nat}
    (h : l.sizesOf t = n :: rest) : (l.latest t).length = n := by
  unfold sizesOf at h
  unfold latest
  cases hb : l.batchesOf t with
  | nil => simp [hb] at h
  | cons batch batches =>
    rw [hb] at h
    exact List.head_eq_of_cons_eq h

/-- The task that has been added and not yet reported as scheduled. -/
def Control.unconfirmed : Control → List TaskId
  | notify task | record task => [task.id]
  | _ => []

namespace Activity

/-- The sizes that the batches of a thread had when it removed them, the latest first. -/
def sizes (a : Activity) : List Nat := a.batches.map (·.removed)

/-- How many tasks with numbers of a certain kind a thread has added and not yet reported. -/
def unconfirmed (p : TaskId → Bool) (a : Activity) : Nat := a.control.unconfirmed.countP p

end Activity

/-- The actions that the worker has begun and not ended. -/
def WorkerState.unfinished : WorkerState → Nat
  | busy _ | died _ => 1
  | _ => 0

namespace Executor

variable {e next : Executor} {t : ThreadId} {a b : Activity} {c : Change} {v w : WorkerState}

/-! ## The sizes of batches -/

theorem Opens.sizes {stack : List Frame} {request : Request} (h : Opens e t stack request c b)
    (hi : e.ledger.sizesOf t = Activity.sizes { stack }) :
    (e.ledger.enterAll t c.events).sizesOf t = b.sizes := by
  cases h with
  | cancelAll =>
    simpa [Ledger.sizesOf, Ledger.batchesOf_take_self, Queue.length_ids, Activity.sizes,
      Activity.batches, Control.batches, Batch.ofQueue] using hi
  | _ => simpa [unchanged, Activity.sizes, Activity.batches, Control.batches] using hi

theorem Catches.sizes {payload : Payload} {frame : Frame} {stack : List Frame}
    (h : Catches e payload frame stack c b) (hb : b.control.unwinds = false)
    (hi : e.ledger.sizesOf t = Activity.sizes { stack := frame :: stack }) :
    (e.ledger.enterAll t c.events).sizesOf t = b.sizes := by
  cases h with
  | swallow | abort => simpa [Activity.sizes, Activity.batches, Control.batches] using hi
  | pass => cases hb

/-- A step of a thread that no panic is unwinding keeps the sizes of its batches right. -/
theorem Local.sizes (h : Local e t a c b) (ha : a.control.unwinds = false)
    (hb : b.control.unwinds = false) (hi : e.ledger.sizesOf t = a.sizes) :
    (e.ledger.enterAll t c.events).sizesOf t = b.sizes := by
  cases h with
  | opens _ ho => exact ho.sizes hi
  | call _ ho =>
    refine ho.sizes (hi.trans ?_)
    simp [Activity.sizes, Activity.batches]
  | raise _ hc => simpa using hc.sizes hb hi
  | unwind hc => cases ha
  | leave => cases ha
  | canceled | settled =>
    have htail := congrArg List.tail hi
    simpa [Ledger.sizesOf, Ledger.batchesOf_cancel_self, Activity.sizes, Activity.batches,
      Control.batches] using htail
  | discard =>
    simpa [Ledger.sizesOf, Ledger.batchesOf, Activity.sizes, Activity.batches,
      Control.batches] using hi
  | drain =>
    simpa [Ledger.sizesOf, Ledger.batchesOf_take_self, Queue.length_ids, Activity.sizes,
      Activity.batches, Control.batches, Batch.ofQueue] using hi
  | @accept _ _ _ first =>
    cases first <;> simpa [Activity.sizes, Activity.batches, Control.batches] using hi
  | _ =>
    simpa [unchanged, Activity.sizes, Activity.batches, Control.batches, Frame.batches,
      Batch.goOn] using hi

/-- What is left of a panic that ends in a thread: no batch. -/
theorem Local.sizes_of_unwinds (h : Local e t a c b) (ha : a.control.unwinds = true)
    (hb : b.control.unwinds = false) (hs : e.handler.strategy = .propagate) :
    (e.ledger.enterAll t c.events).sizesOf t = b.sizes := by
  cases h with
  | unwind hc =>
    obtain ⟨rfl, -⟩ := hc.passes hs
    cases hb
  | leave => simp [Ledger.sizesOf, Activity.sizes, Activity.batches, Control.batches, Activity.idle]
  | _ => cases ha

/-- The sizes that the batches of a thread had are those of the ledger's unsettled batches, except
in a thread that a panic is unwinding. -/
def Sized (e : Executor) : Prop :=
  ∀ t, ((e.activity? t).getD .idle).control.unwinds = false →
    e.ledger.sizesOf t = ((e.activity? t).getD .idle).sizes

theorem sized_initial (config : Config) (telemetry : Telemetry) (clock : Instant) :
    (initial config telemetry clock).Sized := by
  rintro (_ | n) - <;> rfl

theorem Sized.of_activity (h : e.Sized) (ha : e.activity? t = some a)
    (hu : a.control.unwinds = false) : e.ledger.sizesOf t = a.sizes := by
  have := h t
  rw [ha] at this
  exact this hu

theorem Sized.goes (h : e.Sized) (hh : e.Handled) (ha : e.activity? t = some a)
    (hl : Local e t a c b) : (e.after t c b).Sized := by
  intro u
  rw [ledger_after]
  by_cases hut : u = t
  · subst hut
    rw [activity?_after_self]
    intro hb
    cases hu : a.control.unwinds with
    | false => exact hl.sizes hu hb (h.of_activity ha hu)
    | true => exact hl.sizes_of_unwinds hu hb (hh.strategy ▸ (hh.unwinding _ a ha hu).1)
  · rw [activity?_after_ne hut, Ledger.sizesOf, Ledger.batchesOf_enterAll_ne _ _ hut]
    exact h u

theorem Sized.turns (h : e.Sized) (hv : e.worker = v) (hw : WorkerStep e v c w) :
    (e.afterTurn c w).Sized := by
  intro u
  rw [ledger_afterTurn]
  cases u with
  | worker =>
    have hi := h .worker
    rw [activity?, hv] at hi
    intro hb
    cases hw with
    | die => simp [Ledger.sizesOf, activity?, WorkerState.activity?, Activity.sizes,
        Activity.batches, Control.batches, Activity.idle]
    | _ => exact hi rfl
  | caller n =>
    have hne : ThreadId.caller n ≠ .worker := fun h => by cases h
    rw [activity?_afterTurn_caller, Ledger.sizesOf, Ledger.batchesOf_enterAll_ne _ _ hne]
    exact h (.caller n)

theorem sized_of_start {config : Config} {telemetry : Telemetry} {clock : Instant}
    {start last : Executor} (hs : Executor.start config telemetry clock = .ok start)
    (hr : start.Reachable last) : last.Sized := by
  refine invariant_of_start hs hr (sized_initial _ _ _) fun before next hb hi hh => ?_
  cases hh with
  | goes ha hl => exact hi.goes (handled_of_start hs hb) ha hl
  | turns hv hw => exact hi.turns hv hw
  | ticks =>
    intro u
    cases u with
    | worker => exact hi .worker
    | caller n => exact hi (.caller n)

/-! ## Reports -/

theorem Opens.confirms {stack : List Frame} {request : Request} (h : Opens e t stack request c b)
    (p : TaskId → Bool) :
    c.count Event.acceptedIds p = 0 ∧ c.count Event.confirmedIds p = 0 ∧ b.unconfirmed p = 0 := by
  cases h with
  | answer _ ha =>
    simp [Change.count, Event.confirmedIds_answerEvent _ _ ha, Activity.unconfirmed,
      Control.unconfirmed]
  | _ => simp [Change.count, unchanged, Activity.unconfirmed, Control.unconfirmed]

theorem Catches.confirms {payload : Payload} {frame : Frame} {stack : List Frame}
    (h : Catches e payload frame stack c b) (p : TaskId → Bool) :
    c.count Event.acceptedIds p = 0 ∧ c.count Event.confirmedIds p = 0 ∧ b.unconfirmed p = 0 := by
  cases h <;> simp [Change.count, unchanged, Activity.unconfirmed, Control.unconfirmed]

/-- A task is added by a call that reports it before it does anything else. -/
theorem Local.confirms (h : Local e t a c b) (p : TaskId → Bool) :
    c.count Event.acceptedIds p + a.unconfirmed p =
      c.count Event.confirmedIds p + b.unconfirmed p := by
  cases h with
  | opens _ ho | call _ ho =>
    obtain ⟨hacc, hconf, hb⟩ := ho.confirms p
    rw [hacc, hconf, hb]
    rfl
  | raise _ hc | unwind hc =>
    obtain ⟨hacc, hconf, hb⟩ := hc.confirms p
    simp only [Change.count] at hacc hconf
    rw [hb]
    simp [Change.count, hacc, hconf, Activity.unconfirmed, Control.unconfirmed]
  | @accept _ _ _ first =>
    cases first <;> simp [Change.count, Activity.unconfirmed, Control.unconfirmed]
  | _ => simp [Change.count, unchanged, Activity.unconfirmed, Control.unconfirmed, Activity.idle]

theorem WorkerStep.confirms (h : WorkerStep e v c w) (p : TaskId → Bool) :
    c.count Event.acceptedIds p = 0 ∧ c.count Event.confirmedIds p = 0 ∧
      v.part (·.unconfirmed p) = 0 ∧ w.part (·.unconfirmed p) = 0 := by
  cases h <;> simp [Change.count, unchanged, Activity.unconfirmed, Control.unconfirmed]

/-- A task that has been added has been reported as scheduled, or is yet to be. -/
def Confirmed (e : Executor) : Prop :=
  ∀ p, e.acceptedIds.countP p = e.confirmedIds.countP p + e.total (·.unconfirmed p)

theorem confirmed_initial (config : Config) (telemetry : Telemetry) (clock : Instant) :
    (initial config telemetry clock).Confirmed := fun _ => rfl

theorem Confirmed.happens (hi : e.Confirmed) (h : Happens e next) : next.Confirmed := by
  intro p
  have hp := hi p
  simp only [acceptedIds, confirmedIds] at hp ⊢
  cases h with
  | @goes t a b c ha hl =>
    have := hl.confirms p
    have htotal := total_after_add (f := (·.unconfirmed p)) (c := c) (b := b) rfl ha
    simp only [countP_gather_after]
    omega
  | @turns v w c hv hw =>
    have := hw.confirms p
    have htotal := total_afterTurn (f := (·.unconfirmed p)) (c := c) (w := w) hv
    simp only [countP_gather_afterTurn]
    omega
  | ticks => exact hp

/-! ## Tallies -/

/-- A step counts the task that it reports, and the tasks that it settles or discards. -/
structure Change.Tallies (e : Executor) (t : ThreadId) (c : Change) (m m' : Metrics) : Prop where
  scheduled : m'.scheduled = m.scheduled + .ofNat (c.events.flatMap Event.confirmedIds).length
  executed : m'.executed = m.executed
  canceled : m'.canceled + .ofNat e.ledger.canceled.length =
    m.canceled + .ofNat (e.ledger.enterAll t c.events).canceled.length
  discarded : m'.discarded + .ofNat e.ledger.discarded.length =
    m.discarded + .ofNat (e.ledger.enterAll t c.events).discarded.length

/-- A step that neither reports nor settles nor discards tasks counts none. -/
theorem Change.tallies_self (m : Metrics) (hc : c.events.flatMap Event.confirmedIds = [])
    (hcan : (e.ledger.enterAll t c.events).canceled = e.ledger.canceled)
    (hdis : (e.ledger.enterAll t c.events).discarded = e.ledger.discarded) :
    Change.Tallies e t c m m where
  scheduled := by simp [hc]
  executed := rfl
  canceled := by rw [hcan]
  discarded := by rw [hdis]

theorem Opens.tallies {stack : List Frame} {request : Request} (h : Opens e t stack request c b)
    (m : Metrics) : c.telemetry = e.telemetry ∧ Change.Tallies e t c m m := by
  cases h with
  | answer _ ha =>
    exact ⟨rfl, Change.tallies_self m (by simp [Event.confirmedIds_answerEvent _ _ ha]) (by simp)
      (by simp)⟩
  | cancelAll => exact ⟨rfl, Change.tallies_self m rfl rfl rfl⟩
  | _ => exact ⟨rfl, Change.tallies_self m (by simp [unchanged]) (by simp [unchanged])
      (by simp [unchanged])⟩

theorem Catches.tallies {payload : Payload} {frame : Frame} {stack : List Frame}
    (h : Catches e payload frame stack c b) (m : Metrics) :
    c.telemetry = e.telemetry ∧ Change.Tallies e t c m m := by
  cases h <;>
    exact ⟨rfl, Change.tallies_self m (by simp [unchanged]) (by simp [unchanged])
      (by simp [unchanged])⟩

/-- Settling a batch to the end counts all that was removed with it. -/
theorem Change.tallies_canceled {batch : Batch} {stack : List Frame} {m : Metrics}
    (hi : e.ledger.sizesOf t = Activity.sizes ⟨.settle batch, stack⟩)
    (hc : c.events.flatMap Event.confirmedIds = [])
    (hl : e.ledger.enterAll t c.events = e.ledger.cancel t) :
    Change.Tallies e t c m (m.recordCanceled batch.removed.toUInt64) where
  scheduled := by simp [hc, Metrics.recordCanceled]
  executed := rfl
  canceled := by
    have hlen : (e.ledger.latest t).length = batch.removed := Ledger.length_latest hi
    rw [hl, Ledger.cancel, List.length_append, hlen, UInt64.ofNat_add]
    exact UInt64.add_assoc ..
  discarded := by
    rw [hl]
    rfl

theorem Local.tallies {m : Metrics} (h : Local e t a c b) (hm : e.telemetry = .kept m)
    (hi : a.control.unwinds = false → e.ledger.sizesOf t = a.sizes) :
    ∃ m', c.telemetry = .kept m' ∧ Change.Tallies e t c m m' := by
  cases h with
  | opens _ ho | call _ ho =>
    obtain ⟨hsame, htallies⟩ := ho.tallies m
    exact ⟨m, hsame.trans hm, htallies⟩
  | raise _ hc =>
    obtain ⟨hsame, htallies⟩ := hc.tallies (t := t) m
    exact ⟨m, hsame.trans hm, by simpa using htallies.scheduled, rfl,
      by simpa using htallies.canceled, by simpa using htallies.discarded⟩
  | unwind hc =>
    obtain ⟨hsame, htallies⟩ := hc.tallies (t := t) m
    exact ⟨m, hsame.trans hm, htallies⟩
  | record =>
    refine ⟨m.recordScheduled, congrArg (·.update Metrics.recordScheduled) hm, ?_, rfl, ?_, ?_⟩ <;>
      simp [Metrics.recordScheduled]
  | canceled | settled =>
    refine ⟨_, congrArg (Telemetry.update _) hm, Change.tallies_canceled (hi rfl) ?_ ?_⟩ <;> simp
  | @calledBack _ _ _ swallowed =>
    cases swallowed with
    | false => exact ⟨m, hm, Change.tallies_self m rfl rfl rfl⟩
    | true =>
      exact ⟨m.recordPanic, congrArg (Telemetry.update _) hm, (UInt64.add_zero _).symm, rfl, rfl, rfl⟩
  | discard =>
    refine ⟨_, congrArg (Telemetry.update _) hm, ?_, rfl, ?_, ?_⟩
    · simp [Metrics.recordDiscarded]
    · simp [Metrics.recordDiscarded]
    · simp only [Ledger.enterAll_cons, Ledger.enterAll_append, Ledger.enterAll_failureLines,
        Ledger.enterAll_nil, Ledger.enter_answerEvent, Ledger.enter_stoppedDiscarding,
        Ledger.enter_removed, Ledger.discard_take, List.length_append, Queue.length_ids,
        UInt64.ofNat_add]
      exact UInt64.add_assoc ..
  | leave | drain => exact ⟨m, hm, Change.tallies_self m rfl rfl rfl⟩
  | _ => exact ⟨m, hm, Change.tallies_self m (by simp [unchanged]) (by simp [unchanged])
      (by simp [unchanged])⟩

/-- A step by which the worker takes up a task, rests or ends counts an action that has ended. -/
theorem WorkerStep.tallies {m : Metrics} (h : WorkerStep e v c w) (hm : e.telemetry = .kept m) :
    ∃ m' ended, c.telemetry = .kept m' ∧
      c.events.flatMap Event.confirmedIds = [] ∧
      (e.ledger.enterAll .worker c.events).canceled = e.ledger.canceled ∧
      (e.ledger.enterAll .worker c.events).discarded = e.ledger.discarded ∧
      m'.scheduled = m.scheduled ∧ m'.canceled = m.canceled ∧ m'.discarded = m.discarded ∧
      m'.executed = m.executed + .ofNat ended ∧
      ended + w.unfinished =
        v.unfinished + (c.events.flatMap (Event.startedIds .action)).length := by
  cases h with
  | @finish task deadline started rest swallowed =>
    let m' := m.recordExecution (started.since deadline).toUInt64 (e.clock.since started).toUInt64
    cases swallowed with
    | false => exact ⟨m', 1, congrArg (Telemetry.update _) hm, rfl, rfl, rfl, rfl, rfl, rfl, rfl, rfl⟩
    | true =>
      refine ⟨m'.recordPanic, 1, ?_, rfl, rfl, rfl, rfl, rfl, rfl, rfl, rfl⟩
      simp [recordRun, recordPanic, count, hm, Telemetry.update, m']
  | _ => exact ⟨m, 0, hm, rfl, rfl, rfl, rfl, rfl, rfl, (UInt64.add_zero _).symm, rfl⟩

/-- The counters say what the trace tells; of the actions that were begun, the one that is under way
or has ended the worker is not counted. -/
structure Tallied (e : Executor) (m : Metrics) : Prop where
  telemetry : e.telemetry = .kept m
  scheduled : m.scheduled = .ofNat e.confirmedIds.length
  executed : ∃ ended, m.executed = .ofNat ended ∧
    ended + e.worker.unfinished = (e.startedIds .action).length
  canceled : m.canceled = .ofNat e.ledger.canceled.length
  discarded : m.discarded = .ofNat e.ledger.discarded.length

theorem tallied_initial (config : Config) (clock : Instant) :
    (initial config (.kept {}) clock).Tallied {} where
  telemetry := rfl
  scheduled := rfl
  executed := ⟨0, rfl, rfl⟩
  canceled := rfl
  discarded := rfl

/-- No action is begun by a thread that goes on with what it does. -/
theorem Local.begins_no_action (h : Local e t a c b) :
    c.events.flatMap (Event.startedIds .action) = [] := by
  cases h with
  | opens _ ho | call _ ho => cases ho <;> simp [unchanged]
  | raise _ hc | unwind hc => cases hc <;> simp [unchanged]
  | _ => simp [unchanged]

theorem Tallied.goes {m : Metrics} (h : e.Tallied m) (hsized : e.Sized) (ha : e.activity? t = some a)
    (hl : Local e t a c b) : ∃ m', (e.after t c b).Tallied m' := by
  obtain ⟨m', hm', ht⟩ := hl.tallies h.telemetry fun hu => hsized.of_activity ha hu
  have hw := worker_after WorkerState.unfinished (fun _ _ => rfl) (fun w => by cases w <;> rfl) ha
    (c := c) (b := b)
  refine ⟨m', by rwa [telemetry_after], ?_, ?_, ?_, ?_⟩
  · rw [ht.scheduled, h.scheduled, UInt64.add_comm, ← UInt64.ofNat_add, ← List.length_append]
    rw [confirmedIds, confirmedIds, gather_after]
  · obtain ⟨ended, hended, hsum⟩ := h.executed
    refine ⟨ended, ht.executed.trans hended, ?_⟩
    rw [hw, hsum, startedIds, startedIds, gather_after, hl.begins_no_action, List.nil_append]
  · have := ht.canceled
    rw [h.canceled] at this
    rw [ledger_after]
    exact (UInt64.add_left_inj _).1 (this.trans (UInt64.add_comm ..))
  · have := ht.discarded
    rw [h.discarded] at this
    rw [ledger_after]
    exact (UInt64.add_left_inj _).1 (this.trans (UInt64.add_comm ..))

theorem Tallied.turns {m : Metrics} (h : e.Tallied m) (hv : e.worker = v)
    (hw : WorkerStep e v c w) : ∃ m', (e.afterTurn c w).Tallied m' := by
  obtain ⟨m', n, hm', hconf, hcan, hdis, hs, hc, hd, hex, hsum⟩ := hw.tallies h.telemetry
  refine ⟨m', hm', ?_, ?_, ?_, ?_⟩
  · rw [hs, h.scheduled, confirmedIds, confirmedIds, gather_afterTurn, hconf, List.nil_append]
  · obtain ⟨ended, hended, htotal⟩ := h.executed
    refine ⟨ended + n, by rw [hex, hended, UInt64.ofNat_add], ?_⟩
    rw [hv] at htotal
    rw [worker_afterTurn, startedIds, gather_afterTurn, List.length_append, ← startedIds]
    omega
  · rw [hc, h.canceled, ledger_afterTurn, hcan]
  · rw [hd, h.discarded, ledger_afterTurn, hdis]

/-! ## What the counters say -/

/-- Where nothing is in progress, no batch is being settled. -/
theorem Quiet.unsettled (hq : e.Quiet) (hsized : e.Sized) : e.ledger.unsettled = [] := by
  refine List.eq_nil_iff_forall_not_mem.2 fun ⟨t, tasks⟩ hm => ?_
  have hidle : (e.activity? t).getD .idle = .idle := by
    cases ha : e.activity? t with
    | none => rfl
    | some a => exact hq.eq_idle ha
  have hsizes := hsized t
  rw [hidle] at hsizes
  have hnil : e.ledger.batchesOf t = [] := List.map_eq_nil_iff.1 (hsizes rfl)
  have hb : tasks ∈ e.ledger.batchesOf t :=
    List.mem_map.2 ⟨(t, tasks), List.mem_filter.2 ⟨hm, by simp⟩, rfl⟩
  rw [hnil] at hb
  cases hb

/-- Where nothing is in progress, the worker has ended all actions but one that has ended it. -/
theorem Quiet.unfinished (hq : e.Quiet) : e.worker.unfinished = e.worker.deaths := by
  cases hw : e.worker with
  | busy a => exact absurd hw (hq.worker a)
  | _ => rfl

/-- The tasks that panics have lost: the action that ended the worker, and whatever was removed by
calls that were unwound. -/
def lost (e : Executor) : Nat := e.ledger.lost.length + e.worker.deaths

section Start

variable {config : Config} {telemetry : Telemetry} {clock : Instant} {start : Executor}

theorem confirmed_of_start (hs : Executor.start config telemetry clock = .ok start)
    (hr : start.Reachable e) : e.Confirmed :=
  invariant_of_start hs hr (confirmed_initial _ _ _) fun _ _ _ hi hh => hi.happens hh

/-- Where nothing is in progress, every task that has been reported as scheduled is in one of the
accounts. -/
theorem length_confirmedIds_of_quiet (hs : Executor.start config telemetry clock = .ok start)
    (hr : start.Reachable e) (hq : e.Quiet) :
    e.confirmedIds.length = (e.startedIds .action).length + e.ledger.canceled.length +
      e.ledger.discarded.length + e.guarded.pending.size + e.ledger.lost.length := by
  let all : TaskId → Bool := fun _ => true
  have hc := confirmed_of_start hs hr all
  have hb := (balanced_of_start hs hr).queue all
  have hl := Ledger.countP_removedIds e.trace all
  have hp : e.guarded.pending.count all = e.guarded.pending.size :=
    (congrFun List.countP_true _).trans e.guarded.pending.length_tasks
  have hu : (Ledger.ofTrace e.trace).unsettled = [] := hq.unsettled (sized_of_start hs hr)
  have hr : e.removedIds.length = (e.trace.flatMap (·.event.removedIds)).length := rfl
  rw [hq.total rfl] at hc
  rw [hu] at hl
  simp only [all, List.countP_true, List.flatMap_nil, List.length_nil] at hb hc hl hp
  simp only [ledger]
  omega

theorem tallied_of_start (hs : Executor.start config (.kept {}) clock = .ok start)
    (hr : start.Reachable e) : ∃ m, e.Tallied m := by
  refine invariant_of_start (P := fun e => ∃ m, e.Tallied m) hs hr ⟨_, tallied_initial _ _⟩
    fun before next hb ⟨m, hi⟩ hh => ?_
  cases hh with
  | goes ha hl => exact hi.goes (sized_of_start hs hb) ha hl
  | turns hv hw => exact hi.turns hv hw
  | ticks => exact ⟨m, hi.telemetry, hi.scheduled, hi.executed, hi.canceled, hi.discarded⟩

theorem lost_eq_zero (h : ¬ e.HasUnwound) (hi : e.Lossless) : e.lost = 0 := by
  have hd : e.worker.deaths = 0 := by
    unfold HasUnwound at h
    cases hw : e.worker with
    | died payload => exact absurd (.inl (by rw [hw]; rfl)) h
    | _ => rfl
  rw [lost, hi.lost h, hd]
  rfl

/-- Where nothing is in progress and nothing is lost, the counters add up, even if they have wrapped
around. -/
theorem scheduled_eq_of_quiet (hs : Executor.start config (.kept {}) clock = .ok start)
    (hr : start.Reachable e) (hq : e.Quiet) (hu : ¬ e.HasUnwound) :
    e.snapshot.scheduled = e.snapshot.executed + e.snapshot.canceled + e.snapshot.discarded +
      .ofNat e.guarded.pending.size := by
  obtain ⟨m, ht⟩ := tallied_of_start hs hr
  have hsum := length_confirmedIds_of_quiet hs hr hq
  obtain ⟨ended, hended, hbegun⟩ := ht.executed
  have hlost := lost_eq_zero hu (lossless_of_start hs hr)
  rw [lost, ← hq.unfinished] at hlost
  have htotal : e.confirmedIds.length = ended + e.ledger.canceled.length +
      e.ledger.discarded.length + e.guarded.pending.size := by omega
  rw [snapshot, ht.telemetry]
  change m.scheduled = m.executed + m.canceled + m.discarded + _
  rw [ht.scheduled, hended, ht.canceled, ht.discarded, htotal, UInt64.ofNat_add, UInt64.ofNat_add,
    UInt64.ofNat_add]

/-- What the counters say one by one, as long as they do not wrap around. -/
theorem snapshot_of_quiet (hs : Executor.start config (.kept {}) clock = .ok start)
    (hr : start.Reachable e) (hq : e.Quiet) (hlt : e.confirmedIds.length < 2 ^ 64) :
    e.snapshot.scheduled.toNat = e.confirmedIds.length ∧
      e.snapshot.executed.toNat + e.worker.deaths = (e.startedIds .action).length ∧
      e.snapshot.canceled.toNat = e.ledger.canceled.length ∧
      e.snapshot.discarded.toNat = e.ledger.discarded.length := by
  obtain ⟨m, ht⟩ := tallied_of_start hs hr
  have hsum := length_confirmedIds_of_quiet hs hr hq
  obtain ⟨ended, hended, hbegun⟩ := ht.executed
  rw [hq.unfinished] at hbegun
  have exact : ∀ n : Nat, n < 2 ^ 64 → (UInt64.ofNat n).toNat = n := fun n hn => by
    rw [UInt64.toNat_ofNat', Nat.mod_eq_of_lt hn]
  rw [snapshot, ht.telemetry]
  change m.scheduled.toNat = _ ∧ m.executed.toNat + _ = _ ∧ m.canceled.toNat = _ ∧
    m.discarded.toNat = _
  rw [ht.scheduled, hended, ht.canceled, ht.discarded, exact _ hlt, exact _ (by omega),
    exact _ (by omega), exact _ (by omega)]
  exact ⟨rfl, hbegun, rfl, rfl⟩

/-- **What the counters count**, whenever nothing is in progress and as long as they do not wrap
around: the calls that have reported a task as scheduled, the actions that have been run and did not
end the worker, the tasks that have been canceled and those that were discarded. A task is in one of
these accounts, or pending, or lost. -/
theorem counters_exact (hs : Executor.start config (.kept {}) clock = .ok start)
    (hr : start.Reachable e) (hq : e.Quiet) (hlt : e.confirmedIds.length < 2 ^ 64) :
    e.snapshot.scheduled.toNat = e.confirmedIds.length ∧
    e.snapshot.executed.toNat + e.worker.deaths = (e.startedIds .action).length ∧
    e.snapshot.canceled.toNat = e.ledger.canceled.length ∧
    e.snapshot.discarded.toNat = e.ledger.discarded.length ∧
    e.snapshot.scheduled.toNat = e.snapshot.executed.toNat + e.snapshot.canceled.toNat +
      e.snapshot.discarded.toNat + e.guarded.pending.size + e.lost ∧
    e.snapshot.outstanding = e.guarded.pending.size + e.lost ∧
    (config.panicStrategy.swallows = true →
      e.lost = 0 ∧ e.snapshot.outstanding = e.guarded.pending.size) := by
  obtain ⟨hscheduled, hexecuted, hcanceled, hdiscarded⟩ := snapshot_of_quiet hs hr hq hlt
  have hsum := length_confirmedIds_of_quiet hs hr hq
  have hdone : (e.snapshot.executed + e.snapshot.canceled + e.snapshot.discarded).toNat =
      e.snapshot.executed.toNat + e.snapshot.canceled.toNat + e.snapshot.discarded.toNat := by
    rw [UInt64.toNat_add, UInt64.toNat_add]
    omega
  have hout : e.snapshot.outstanding = e.guarded.pending.size + e.lost := by
    rw [Snapshot.outstanding, hdone, lost]
    omega
  refine ⟨hscheduled, hexecuted, hcanceled, hdiscarded, by rw [lost]; omega, hout, fun hsw => ?_⟩
  have hnone := not_hasUnwound_of_swallows hs hsw hr
  have hzero := lost_eq_zero hnone (lossless_of_start hs hr)
  exact ⟨hzero, by rw [hout, hzero, Nat.add_zero]⟩

end Start

/-- An action whose panic ends the worker is scheduled and lost. -/
theorem counters_exact_dead_worker :
    ∃ e, (initial {} (.kept {}) ⟨0⟩).Reachable e ∧ e.Quiet ∧ e.confirmedIds.length < 2 ^ 64 ∧
      e.lost = 1 ∧ e.snapshot.scheduled.toNat = 1 ∧ e.snapshot.outstanding = 1 := by
  obtain ⟨e, hm, hq, hc, hl, hp⟩ : ∃ e, (initial {} (.kept {}) ⟨0⟩).moves?
      [.call 0 (.schedule
          { label := "boom", due := .instant ⟨0⟩, action := .panic (.literal "boom") .done }),
        .step (.caller 0), .step (.caller 0), .step (.caller 0), .step .worker, .step .worker,
        .step .worker] = some e ∧
      e.Quiet ∧ e.confirmedIds.length = 1 ∧ e.lost = 1 ∧ e.guarded.pending.size = 0 := by
    refine ⟨_, rfl, ⟨?_, nofun⟩, rfl, rfl, rfl⟩
    rintro (_ | n) <;> rfl
  have hr := Reachable.refl.of_moves _ hm
  have hlt : e.confirmedIds.length < 2 ^ 64 := by
    rw [hc]
    decide
  have hs : Executor.start {} (.kept {}) ⟨0⟩ = .ok _ := rfl
  obtain ⟨hscheduled, -, -, -, -, hout, -⟩ := counters_exact hs hr hq hlt
  rw [hp, hl] at hout
  exact ⟨e, hr, hq, hlt, hl, hscheduled.trans hc, hout⟩

end Executor

end Deferred
