import Deferred.Proofs.Executor.Invariant

/-!
# The books are balanced

Where a task can be, counted for the tasks with numbers of any kind. A task that has been added is
pending, has been begun, or has been taken out with others; of those that were taken out, no more
are in hand, called back and discarded together than there are. Every transition keeps these counts.

* `QueueBalanced`: added = pending + begun + taken out.
* `Numbered`: every number is given to one task, which is added at most once.
* `BatchesBalanced`: in hand + called back + discarded ≤ taken out.
* `CallablesStarted`: a callable in progress has been begun.
* `Balanced` are all of these, and `Balanced.accounts_le` is what follows for one task.
-/

namespace Deferred

/-! ## What a change tells -/

/-- What a step adds to and takes from the queue is what its events tell. -/
def Change.IsBalanced (e : Executor) (c : Change) : Prop :=
  ∀ p, c.guarded.pending.count p + c.count Event.removedIds p +
      c.count (Event.startedIds .action) p =
    e.guarded.pending.count p + c.count Event.acceptedIds p

namespace Executor

variable {e next : Executor} {t : ThreadId} {a b : Activity} {c : Change} {v w : WorkerState}

/-! ## The queue -/

theorem Opens.isBalanced {stack : List Frame} {request : Request}
    (h : Opens e t stack request c b) : c.IsBalanced e := by
  intro p
  cases h with
  | cancelAll => simp [Change.count, Queue.countP_ids]
  | _ => simp [Change.count, unchanged]

theorem Catches.isBalanced {payload : Payload} {frame : Frame} {stack : List Frame}
    (h : Catches e payload frame stack c b) : c.IsBalanced e := by
  intro p
  cases h <;> simp [Change.count, unchanged]

theorem Local.isBalanced (h : Local e t a c b) : c.IsBalanced e := by
  cases h with
  | opens _ ho | call _ ho => exact ho.isBalanced
  | raise _ hc =>
    intro p
    simpa [Change.count] using hc.isBalanced p
  | unwind hc => exact hc.isBalanced
  | accept ha =>
    intro p
    obtain ⟨-, -, pending, hpush, rfl, -⟩ := Guarded.accept_ok ha
    simp [Change.count, Queue.count_push hpush]
  | _ =>
    intro p
    simp [Change.count, unchanged, Queue.countP_ids, Guarded.terminate]

theorem WorkerStep.isBalanced (h : WorkerStep e v c w) : c.IsBalanced e := by
  intro p
  cases h with
  | run ht hp => simp [Change.count, Queue.count_pop (Queue.pop_of_popDue hp)]
  | _ => simp [Change.count, unchanged, Guarded.unwound]

/-- A task that has been added is pending, has been begun, or has been taken out. -/
def QueueBalanced (e : Executor) : Prop :=
  ∀ p, e.acceptedIds.countP p =
    e.guarded.pending.count p + e.removedIds.countP p + (e.startedIds .action).countP p

theorem queueBalanced_initial (config : Config) (telemetry : Telemetry) (clock : Instant) :
    (initial config telemetry clock).QueueBalanced := fun _ => rfl

theorem QueueBalanced.happens (hi : e.QueueBalanced) (h : Happens e next) :
    next.QueueBalanced := by
  intro p
  have hp := hi p
  simp only [acceptedIds, removedIds, startedIds] at hp ⊢
  cases h with
  | goes _ hl =>
    have := hl.isBalanced p
    simp only [countP_gather_after, guarded_after]
    omega
  | turns _ hw =>
    have := hw.isBalanced p
    simp only [countP_gather_afterTurn, guarded_afterTurn]
    omega
  | ticks => exact hp

/-! ## Numbers -/

/-- A step makes no task, or the one with the next number, and offers or adds no others than it did
before. -/
def Change.Numbers (e : Executor) (a : Activity) (c : Change) (b : Activity) : Prop :=
  ∃ made : List TaskId,
    (made = [] ∧ c.nextId = e.nextId ∨ made = [⟨e.nextId⟩] ∧ c.nextId = e.nextId + 1) ∧
      ∀ p, b.offered p + c.count Event.acceptedIds p ≤ a.offered p + made.countP p

theorem Opens.numbers {stack : List Frame} {request : Request}
    (h : Opens e t stack request c b) : Change.Numbers e { stack } c b := by
  cases h with
  | make =>
    refine ⟨[⟨e.nextId⟩], .inr ⟨rfl, rfl⟩, fun p => ?_⟩
    simp [Change.count, unchanged, Activity.offered, Control.offered, Spec.task,
      List.countP_singleton]
  | _ => exact ⟨[], .inl ⟨rfl, rfl⟩, by simp [Change.count, Activity.offered, Control.offered,
      unchanged]⟩

theorem Catches.numbers {payload : Payload} {frame : Frame} {stack : List Frame}
    (h : Catches e payload frame stack c b) :
    c.nextId = e.nextId ∧ ∀ p, b.offered p + c.count Event.acceptedIds p = 0 := by
  cases h <;> exact ⟨rfl, by simp [Change.count, unchanged, Activity.offered, Control.offered]⟩

theorem Local.numbers (h : Local e t a c b) : Change.Numbers e a c b := by
  cases h with
  | opens _ ho | call _ ho => exact ho.numbers
  | raise _ hc =>
    refine ⟨[], .inl ⟨rfl, hc.numbers.1⟩, fun p => ?_⟩
    have := hc.numbers.2 p
    have hraised : ∀ task payload, (Event.raised task payload).acceptedIds = [] := fun _ _ => rfl
    simp only [Change.count, List.flatMap_append, List.flatMap_cons, hraised,
      List.flatMap_nil, List.append_nil, List.countP_nil] at this ⊢
    omega
  | unwind hc =>
    refine ⟨[], .inl ⟨rfl, hc.numbers.1⟩, fun p => ?_⟩
    have := hc.numbers.2 p
    omega
  | @accept task _ _ first ha =>
    refine ⟨[], .inl ⟨rfl, rfl⟩, fun p => ?_⟩
    cases first <;> simp [Change.count, Activity.offered, Control.offered, List.countP_singleton]
  | leave => exact ⟨[], .inl ⟨rfl, rfl⟩, by simp [Change.count]⟩
  | _ => exact ⟨[], .inl ⟨rfl, rfl⟩, by simp [Change.count, Activity.offered, Control.offered,
      unchanged]⟩

theorem WorkerStep.numbers (h : WorkerStep e v c w) :
    c.nextId = e.nextId ∧ ∀ p, w.part (·.offered p) = 0 ∧ c.count Event.acceptedIds p = 0 := by
  cases h <;> exact ⟨rfl, by simp [Change.count, unchanged, Activity.offered, Control.offered]⟩

/-- How many tasks with numbers of a certain kind have been made and offered or added. -/
def numbered (e : Executor) (p : TaskId → Bool) : Nat :=
  e.total (·.offered p) + e.acceptedIds.countP p

/-- Every number is given to one task, which is added at most once; no number is given that is still
to come. -/
def Numbered (e : Executor) : Prop :=
  ∀ id, e.numbered (· == id) ≤ 1 ∧ (e.nextId ≤ id.number → e.numbered (· == id) = 0)

theorem numbered_initial (config : Config) (telemetry : Telemetry) (clock : Instant) :
    (initial config telemetry clock).Numbered :=
  fun _ => ⟨Nat.zero_le 1, fun _ => rfl⟩

theorem numbered_after (ha : e.activity? t = some a) (p : TaskId → Bool) :
    (e.after t c b).numbered p + a.offered p =
      e.numbered p + b.offered p + c.count Event.acceptedIds p := by
  have htotal := total_after_add (f := (·.offered p)) (c := c) (b := b) rfl ha
  simp only [numbered, acceptedIds, countP_gather_after]
  omega

/-- A transition numbers at most one task anew, and with the next number. -/
theorem numbered_of_happens (h : Happens e next) :
    ∃ made : List TaskId,
      (made = [] ∧ next.nextId = e.nextId ∨ made = [⟨e.nextId⟩] ∧ next.nextId = e.nextId + 1) ∧
        ∀ p, next.numbered p ≤ e.numbered p + made.countP p := by
  cases h with
  | @goes t a b c ha hl =>
    obtain ⟨made, hmade, hle⟩ := hl.numbers
    refine ⟨made, by simpa using hmade, fun p => ?_⟩
    have hp := hle p
    have hafter := numbered_after (c := c) (b := b) ha p
    omega
  | @turns v w c hv hw =>
    refine ⟨[], .inl ⟨rfl, hw.numbers.1⟩, fun p => ?_⟩
    have := hw.numbers.2 p
    have htotal := total_afterTurn (f := (·.offered p)) (c := c) (w := w) hv
    simp only [numbered, acceptedIds, countP_gather_afterTurn]
    omega
  | ticks => exact ⟨[], .inl ⟨rfl, rfl⟩, fun p => Nat.le_refl _⟩

theorem Numbered.happens (hi : e.Numbered) (h : Happens e next) : next.Numbered := by
  obtain ⟨made, hmade, hle⟩ := numbered_of_happens h
  intro id
  have hid := hi id
  have hp := hle (· == id)
  rcases hmade with ⟨rfl, hn⟩ | ⟨rfl, hn⟩
  · rw [List.countP_nil] at hp
    omega
  · by_cases hne : (⟨e.nextId⟩ : TaskId) = id
    · subst hne
      simp only [List.countP_singleton, beq_self_eq_true, if_true] at hp
      have := hid.2 (Nat.le_refl _)
      exact ⟨by omega, fun hle => by simp only at hle; omega⟩
    · have hnumber : e.nextId ≠ id.number := fun hn => hne (by rw [hn])
      simp only [List.countP_singleton, beq_iff_eq, hne, if_false] at hp
      omega

/-! ## Batches -/

/-- The tasks that a step leaves in hand, those that it calls back, and all that are then discarded,
are no more than those that were in hand, those that it takes out, and those discarded before. -/
def Change.Settles (e : Executor) (t : ThreadId) (a : Activity) (c : Change) (b : Activity) : Prop :=
  ∀ p, b.held p + c.count (Event.startedIds .callback) p +
      (e.ledger.enterAll t c.events).discarded.countP p ≤
    a.held p + c.count Event.removedIds p + e.ledger.discarded.countP p

theorem held_goOn (frame : Frame) (rest : Script) (stack : List Frame) (p : TaskId → Bool) :
    ({ stack := frame.goOn rest :: stack } : Activity).held p =
      ({ stack := frame :: stack } : Activity).held p := by
  simp [Activity.held, Activity.batches]

/-- A step that takes tasks out to settle them has them in hand afterwards. -/
theorem Change.settles_of_take {stack : List Frame} {batch : Batch}
    (he : c.events = [.removed batch.tasks.ids]) (ha : ∀ p, a.held p = Activity.held p { stack }) :
    Change.Settles e t a c ⟨.settle batch, stack⟩ := by
  intro p
  have hheld : Activity.held p ⟨.settle batch, stack⟩ = batch.tasks.count p + a.held p := by
    rw [ha]
    simp [Activity.held, Activity.batches, Control.batches]
  have hremoved : c.count Event.removedIds p = batch.tasks.count p := by
    simp [Change.count, he, Queue.countP_ids]
  have hstarted : c.count (Event.startedIds .callback) p = 0 := by simp [Change.count, he]
  have hledger : (e.ledger.enterAll t c.events).discarded = e.ledger.discarded := by
    simp [he, Ledger.take]
  rw [hheld, hremoved, hstarted, hledger]
  omega

theorem Opens.settles {stack : List Frame} {request : Request}
    (h : Opens e t stack request c b) : Change.Settles e t { stack } c b := by
  cases h with
  | cancelAll => exact Change.settles_of_take rfl fun _ => rfl
  | _ =>
    intro p
    simp [Change.count, Activity.held, Activity.batches, Control.batches, unchanged]

theorem Catches.settles {payload : Payload} {frame : Frame} {stack : List Frame}
    (h : Catches e payload frame stack c b) : Change.Settles e t { stack := frame :: stack } c b := by
  intro p
  cases h <;> simp [Change.count, Activity.held, Activity.batches, Control.batches, unchanged]

theorem Local.settles (h : Local e t a c b) : Change.Settles e t a c b := by
  intro p
  cases h with
  | opens _ ho => exact ho.settles p
  | call _ ho =>
    have := ho.settles p
    rwa [held_goOn] at this
  | raise _ hc =>
    have := hc.settles (t := t) p
    simpa [Change.count] using this
  | unwind hc => exact hc.settles p
  | letGo hp =>
    simp [Change.count, Activity.held, Activity.batches, Control.batches, unchanged,
      Queue.count_pop hp]
  | @callBack batch stack task tasks script hp =>
    have hheld : Activity.held p ⟨.settle batch, stack⟩ =
        batch.tasks.count p + Activity.held p { stack } := by
      simp [Activity.held, Activity.batches, Control.batches]
    have hbelow : Activity.held p
        ⟨.ready, .callback task.id { batch with tasks } script :: stack⟩ =
          tasks.count p + Activity.held p { stack } := by
      simp [Activity.held, Activity.batches, Control.batches, Frame.batches]
    rw [hheld, hbelow, Queue.count_pop hp]
    simp [Change.count, Nat.add_right_comm]
  | canceled | settled =>
    simp [Change.count, Ledger.cancel, Ledger.close, Activity.held, Activity.batches,
      Control.batches]
  | discard =>
    simp [Change.count, Activity.held, Activity.batches, Control.batches, Queue.countP_ids,
      Nat.add_assoc]
  | drain => exact Change.settles_of_take rfl (fun _ => rfl) p
  | leave => simp [Change.count, Ledger.abandon]
  | @accept _ _ _ first =>
    cases first <;>
      simp [Change.count, Activity.held, Activity.batches, Control.batches]
  | _ =>
    simp [Change.count, Activity.held, Activity.batches, Control.batches, unchanged,
      Batch.goOn, Frame.batches]

theorem WorkerStep.settles (h : WorkerStep e v c w) (p : TaskId → Bool) :
    w.part (·.held p) + c.count (Event.startedIds .callback) p +
      (e.ledger.enterAll .worker c.events).discarded.countP p ≤
        e.ledger.discarded.countP p := by
  cases h with
  | die => simp [Change.count, Ledger.abandon]
  | _ => simp [Change.count, Activity.held, Activity.batches, Control.batches, Frame.batches,
      unchanged]

/-- Of the tasks that have been taken out, no more are in hand, called back and discarded together
than there are. -/
def BatchesBalanced (e : Executor) : Prop :=
  ∀ p, e.total (·.held p) + (e.startedIds .callback).countP p + e.ledger.discarded.countP p ≤
    e.removedIds.countP p

theorem batchesBalanced_initial (config : Config) (telemetry : Telemetry) (clock : Instant) :
    (initial config telemetry clock).BatchesBalanced := fun _ => Nat.zero_le _

theorem BatchesBalanced.happens (hi : e.BatchesBalanced) (h : Happens e next) :
    next.BatchesBalanced := by
  intro p
  have hp := hi p
  simp only [removedIds, startedIds] at hp ⊢
  cases h with
  | @goes t a b c ha hl =>
    have := hl.settles p
    have htotal := total_after_add (f := (·.held p)) (c := c) (b := b) rfl ha
    simp only [countP_gather_after, ledger_after]
    omega
  | @turns v w c hv hw =>
    have := hw.settles p
    have htotal := total_afterTurn (f := (·.held p)) (c := c) (w := w) hv
    simp only [countP_gather_afterTurn, ledger_afterTurn]
    omega
  | ticks => exact hp

/-! ## Callables -/

theorem running_goOn (frame : Frame) (rest : Script) (stack : List Frame) (role : Role)
    (p : TaskId → Bool) :
    ({ stack := frame.goOn rest :: stack } : Activity).running role p =
      ({ stack := frame :: stack } : Activity).running role p := by
  simp [Activity.running, Activity.frames, Control.frames, List.countP_cons]

theorem Opens.running_le {stack : List Frame} {request : Request}
    (h : Opens e t stack request c b) (role : Role) (p : TaskId → Bool) :
    b.running role p ≤ ({ stack } : Activity).running role p := by
  cases h <;> exact Nat.le_refl _

theorem Catches.running_le {payload : Payload} {frame : Frame} {stack : List Frame}
    (h : Catches e payload frame stack c b) (role : Role) (p : TaskId → Bool) :
    b.running role p ≤ ({ stack := frame :: stack } : Activity).running role p := by
  cases h with
  | swallow | abort => exact Nat.le_refl _
  | pass => exact (List.sublist_cons_self frame stack).countP_le

/-- A thread runs no callable but those that it has run before and the one that it begins. -/
theorem Local.running_le (h : Local e t a c b) (role : Role) (p : TaskId → Bool) :
    b.running role p ≤ a.running role p + c.count (Event.startedIds role) p := by
  cases h with
  | opens _ ho => exact Nat.le_add_right_of_le (ho.running_le role p)
  | call _ ho =>
    have := ho.running_le role p
    rw [running_goOn] at this
    exact Nat.le_add_right_of_le this
  | raise _ hc | unwind hc => exact Nat.le_add_right_of_le (hc.running_le role p)
  | callBack =>
    by_cases hr : Role.callback = role <;>
      simp [Change.count, Activity.running, Activity.frames, Control.frames, Frame.role, Frame.task,
        List.countP_cons, hr]
  | @accept _ _ _ first =>
    cases first <;> exact Nat.le_add_right _ _
  | calledBack => exact Nat.le_add_right_of_le (List.sublist_cons_self _ _).countP_le
  | _ => exact Nat.le_add_right _ _

theorem WorkerStep.running_le (h : WorkerStep e v c w) (role : Role) (p : TaskId → Bool) :
    w.part (·.running role p) ≤ c.count (Event.startedIds role) p := by
  cases h with
  | run =>
    by_cases hr : Role.action = role <;>
      simp [Change.count, Activity.running, Activity.frames, Control.frames, Frame.role, Frame.task,
        List.countP_cons, hr]
  | _ => exact Nat.zero_le _

/-- A callable in progress has been begun. -/
def CallablesStarted (e : Executor) : Prop :=
  ∀ role p, e.total (·.running role p) ≤ (e.startedIds role).countP p

theorem callablesStarted_initial (config : Config) (telemetry : Telemetry) (clock : Instant) :
    (initial config telemetry clock).CallablesStarted := fun _ _ => Nat.zero_le _

theorem CallablesStarted.happens (hi : e.CallablesStarted) (h : Happens e next) :
    next.CallablesStarted := by
  intro role p
  have hp := hi role p
  simp only [startedIds] at hp ⊢
  cases h with
  | @goes t a b c ha hl =>
    have := hl.running_le role p
    have htotal := total_after_add (f := (·.running role p)) (c := c) (b := b) rfl ha
    rw [countP_gather_after]
    omega
  | @turns v w c hv hw =>
    have := hw.running_le role p
    have htotal := total_afterTurn (f := (·.running role p)) (c := c) (w := w) hv
    rw [countP_gather_afterTurn]
    omega
  | ticks => exact hp

/-! ## All accounts together -/

/-- The books are balanced. -/
structure Balanced (e : Executor) : Prop where
  queue : e.QueueBalanced
  numbers : e.Numbered
  batches : e.BatchesBalanced
  callables : e.CallablesStarted

theorem Balanced.happens (hi : e.Balanced) (h : Happens e next) : next.Balanced :=
  ⟨hi.queue.happens h, hi.numbers.happens h, hi.batches.happens h, hi.callables.happens h⟩

theorem balanced_of_start {config : Config} {telemetry : Telemetry} {clock : Instant}
    {start last : Executor} (hs : Executor.start config telemetry clock = .ok start)
    (hr : start.Reachable last) : last.Balanced :=
  invariant_of_start hs hr
    ⟨queueBalanced_initial _ _ _, numbered_initial _ _ _, batchesBalanced_initial _ _ _,
      callablesStarted_initial _ _ _⟩
    fun _ _ _ hi hh => hi.happens hh

namespace Balanced

/-- No task is in two accounts. -/
theorem accounts_le (h : e.Balanced) (p : TaskId → Bool) :
    e.guarded.pending.count p + e.total (·.held p) + (e.startedIds .action).countP p +
      (e.startedIds .callback).countP p + e.ledger.discarded.countP p ≤
        e.acceptedIds.countP p := by
  have hq := h.queue p
  have hb := h.batches p
  omega

/-- No task is added twice. -/
theorem countP_acceptedIds_le (h : e.Balanced) (id : TaskId) :
    e.acceptedIds.countP (· == id) ≤ 1 := by
  have := (h.numbers id).1
  rw [numbered] at this
  omega

/-- A task of which a callable has been begun has been added. -/
theorem mem_acceptedIds (h : e.Balanced) {role : Role} {id : TaskId}
    (hid : id ∈ e.startedIds role) : id ∈ e.acceptedIds := by
  have haccounts := h.accounts_le (· == id)
  have hpos : 0 < (e.startedIds role).countP (· == id) := List.count_pos_iff.2 hid
  exact List.count_pos_iff.1 (by simp only [List.count]; cases role <;> omega)

end Balanced

end Executor

end Deferred
