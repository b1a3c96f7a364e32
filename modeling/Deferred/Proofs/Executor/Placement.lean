import Deferred.Proofs.Executor.Origins

/-!
# Which thread runs which callable

The worker alone takes up tasks, so that it runs all actions. A thread that is in a call runs the
callbacks of the tasks that this very call has removed, from above the callables that the thread is
running: what a callable brings about, its own thread does.

* `HasBegun`: a thread has begun a callable of a task; `RunsOwn`: it runs no others.
* `exists_notes`: what a callable does has happened in a step of its thread.
* `exists_hasRemoved`: a task that is called back has been removed by a call of the same thread.
* `Balanced.removed_once`: no other thread has removed it.
* `IsPlaced`, `runs_on_own_thread`: the thread of every callable.
-/

namespace Deferred

/-- The task of whose callable an event tells. -/
def Event.callable? : Event → Option TaskId
  | started _ task _ | raised task _ => some task
  | _ => none

namespace Event

@[simp] theorem callable?_removed (tasks : List TaskId) : (removed tasks).callable? = none := rfl

@[simp] theorem callable?_logged (line : LogLine) : (logged line).callable? = none := rfl

@[simp] theorem callable?_answerEvent (topic : Topic) (stack : List Frame)
    (answer : Answer) : (answerEvent topic stack answer).callable? = none := by
  cases stack <;> rfl

end Event

/-- The worker is the thread that has an action among its callables. -/
theorem Stacked.worker_iff {t : ThreadId} {stack : List Frame} (h : Stacked t stack) :
    t = .worker ↔ ∃ frame ∈ stack, frame.role = .action := by
  induction stack with
  | nil => exact ⟨fun ht => absurd ht h, fun ⟨frame, hm, _⟩ => by cases hm⟩
  | cons frame below ih =>
    rcases h.tail with ⟨hrole, htail⟩ | ⟨hrole, ht, -⟩
    · rw [ih htail]
      simp [hrole]
    · exact ⟨fun _ => ⟨frame, List.mem_cons_self .., hrole⟩, fun _ => ht⟩

namespace Executor

variable {e next : Executor} {t u : ThreadId} {a b : Activity} {c : Change}
variable {stack : List Frame} {id : TaskId}

/-! ## What a thread has begun -/

/-- A thread has begun a callable of a task. -/
def HasBegun (e : Executor) (t : ThreadId) (role : Role) (id : TaskId) : Prop :=
  ∃ label, ⟨t, .started role id label⟩ ∈ e.trace

/-- What has happened has happened in its thread. -/
theorem mem_trace_of_happens {entry : Entry} (h : Happens e next) (hm : entry ∈ e.trace) :
    entry ∈ next.trace := by
  cases h with
  | goes =>
    rw [trace_after]
    exact List.mem_append_right _ hm
  | turns => exact List.mem_append_right _ hm
  | ticks => exact hm

theorem HasBegun.happens {role : Role} (h : e.HasBegun t role id) (hh : Happens e next) :
    next.HasBegun t role id := by
  obtain ⟨label, hm⟩ := h
  exact ⟨label, mem_trace_of_happens hh hm⟩

theorem HasBegun.reachable {role : Role} {last : Executor} (h : e.HasBegun t role id)
    (ho : e.Orderly) (hr : e.Reachable last) : last.HasBegun t role id :=
  hr.happens_invariant (P := fun e => e.HasBegun t role id) ho h fun _ _ _ hi hh => hi.happens hh

/-! ## Callables in progress -/

theorem Opens.frames_eq {request : Request} (h : Opens e t stack request c b) :
    b.frames = stack := by
  cases h <;> rfl

theorem Catches.frames_sub {payload : Payload} {frame : Frame}
    (h : Catches e payload frame stack c b) : ∀ f ∈ b.frames, f ∈ frame :: stack := by
  cases h with
  | swallow | abort => exact fun _ hf => hf
  | pass => exact fun _ hf => List.mem_cons_of_mem _ hf

/-- A callable that is in progress after a step was in progress before, or it is begun in it. -/
theorem Local.frames_from (h : Local e t a c b) : ∀ f ∈ b.frames,
    (∃ g ∈ a.frames, g.role = f.role ∧ g.task = f.task) ∨
      ∃ label, .started f.role f.task label ∈ c.events := by
  intro f hf
  have same : f ∈ a.frames → (∃ g ∈ a.frames, g.role = f.role ∧ g.task = f.task) ∨
      ∃ label, .started f.role f.task label ∈ c.events := fun hm => .inl ⟨f, hm, rfl, rfl⟩
  cases h with
  | opens _ ho =>
    rw [ho.frames_eq] at hf
    cases hf
  | @call frame below _ rest _ _ _ ho =>
    rw [ho.frames_eq] at hf
    rcases List.mem_cons.1 hf with rfl | hf
    · exact .inl ⟨frame, List.mem_cons_self .., (frame.role_goOn rest).symm,
        (frame.task_goOn rest).symm⟩
    · exact same (List.mem_cons_of_mem frame hf)
  | raise _ hc | unwind hc => exact same (hc.frames_sub f hf)
  | callBack =>
    rcases List.mem_cons.1 hf with rfl | hf
    · exact .inr ⟨_, List.mem_singleton_self _⟩
    · exact same hf
  | calledBack => exact same (List.mem_cons_of_mem _ hf)
  | @accept _ _ _ first => cases first <;> exact same hf
  | leave => cases hf
  | _ => exact same hf

/-- Every callable in progress has been begun by the thread that runs it. -/
def RunsOwn (e : Executor) : Prop :=
  ∀ t a, e.activity? t = some a → ∀ f ∈ a.frames, e.HasBegun t f.role f.task

theorem RunsOwn.happens (hi : e.RunsOwn) (h : Happens e next) : next.RunsOwn := by
  intro u a' ha' f hf
  cases h with
  | @goes t a b c ha hl =>
    rcases activity?_after ha' with ⟨rfl, rfl⟩ | ⟨-, hother⟩
    · rcases hl.frames_from f hf with ⟨g, hg, hrole, htask⟩ | ⟨label, hm⟩
      · rw [← hrole, ← htask]
        exact (hi u a ha g hg).happens (.goes ha hl)
      · refine ⟨label, ?_⟩
        rw [trace_after]
        exact List.mem_append_left _ (List.mem_map_of_mem hm)
    · exact (hi u a' hother f hf).happens (.goes ha hl)
  | turns hv hw =>
    rcases activity?_afterTurn ha' with ⟨rfl, rfl⟩ | ⟨-, hother⟩
    · cases hw with
      | run =>
        obtain rfl := List.mem_singleton.1 hf
        exact ⟨_, List.mem_cons_self ..⟩
    · exact (hi u a' hother f hf).happens (.turns hv hw)
  | ticks nanos => exact hi u a' (by cases u <;> exact ha') f hf

/-! ## What single events tell of their thread -/

/-- The worker alone begins actions. -/
theorem Local.not_started_action {label : String} (h : Local e t a c b) :
    .started .action id label ∉ c.events := by
  intro hm
  have hid : id ∈ c.events.flatMap (Event.startedIds .action) :=
    List.mem_flatMap.2 ⟨_, hm, List.mem_singleton_self _⟩
  rw [h.begins_no_action] at hid
  cases hid

theorem Opens.callable?_eq_none {request : Request} (h : Opens e t stack request c b) :
    ∀ event ∈ c.events, event.callable? = none := by
  cases h <;> simp [unchanged]

theorem Catches.callable?_eq_none {frame : Frame} {payload : Payload}
    (h : Catches e payload frame stack c b) : ∀ event ∈ c.events, event.callable? = none := by
  cases h <;> simp [unchanged]

/-- A panic is raised by a callable that is in progress. -/
theorem Local.raised_from {payload : Payload} (h : Local e t a c b)
    (hm : .raised id payload ∈ c.events) : ∃ f ∈ a.frames, f.task = id := by
  cases h with
  | opens _ ho | call _ ho => cases ho.callable?_eq_none _ hm
  | @raise frame _ _ _ _ _ hc =>
    rcases List.mem_append.1 hm with hm | hm
    · cases hc.callable?_eq_none _ hm
    · obtain ⟨rfl, -⟩ := Event.raised.inj (List.mem_singleton.1 hm)
      exact ⟨frame, List.mem_cons_self .., rfl⟩
  | unwind hc => cases hc.callable?_eq_none _ hm
  | _ => simp [unchanged, answerEvent] at hm <;> split at hm <;> simp at hm

/-- A task is called back by the thread that has it in hand. -/
theorem Local.started_from {role : Role} {label : String} (h : Local e t a c b)
    (hm : .started role id label ∈ c.events) :
    ∃ batch stack task, a = ⟨.settle batch, stack⟩ ∧ task ∈ batch.tasks.tasks ∧ task.id = id := by
  cases h with
  | opens _ ho | call _ ho => cases ho.callable?_eq_none _ hm
  | raise _ hc =>
    rcases List.mem_append.1 hm with hm | hm
    · cases hc.callable?_eq_none _ hm
    · cases List.mem_singleton.1 hm
  | unwind hc => cases hc.callable?_eq_none _ hm
  | @callBack batch stack task _ _ hp =>
    obtain ⟨-, rfl, -⟩ := Event.started.inj (List.mem_singleton.1 hm)
    exact ⟨batch, stack, task, rfl, (Queue.mem_pop hp).2 (.inl rfl), rfl⟩
  | _ => simp [unchanged, answerEvent] at hm <;> split at hm <;> simp at hm

/-! ## What is on record -/

/-- A thread makes a step in which something happens. -/
inductive Notes (e : Executor) (entry : Entry) : Prop
  | goes {a b : Activity} {c : Change} (ha : e.activity? entry.thread = some a)
      (hl : Local e entry.thread a c b) (hm : entry.event ∈ c.events)
  | turns {v w : WorkerState} {c : Change} (ht : entry.thread = .worker)
      (hw : WorkerStep e v c w) (hm : entry.event ∈ c.events)

theorem notes_of_happens {entry : Entry} (h : Happens e next) (hm : entry ∈ next.trace) :
    entry ∈ e.trace ∨ e.Notes entry := by
  cases h with
  | goes ha hl =>
    rw [trace_after] at hm
    rcases List.mem_append.1 hm with hm | hm
    · obtain ⟨event, hevent, rfl⟩ := List.mem_map.1 hm
      exact .inr (.goes ha hl hevent)
    · exact .inl hm
  | turns hv hw =>
    rcases List.mem_append.1 hm with hm | hm
    · obtain ⟨event, hevent, rfl⟩ := List.mem_map.1 hm
      exact .inr (.turns rfl hw hevent)
    · exact .inl hm
  | ticks => exact .inl hm

/-- The removal is on record, with its thread. -/
theorem HasRemoved.told {start : Executor} (ho : start.Orderly)
    (h : start.HasRemoved t stack id e) : ∃ ids, ⟨t, .removed ids⟩ ∈ e.trace ∧ id ∈ ids := by
  obtain ⟨before, removed, hremoves, hid, hr⟩ := h
  obtain ⟨m, hm⟩ := hremoves.move
  have hordered := (hremoves.reachable.move m hm).orderly ho
  refine ⟨_, hr.happens_invariant (P := fun e => (⟨t, .removed before.guarded.pending.ids⟩ : Entry) ∈
    e.trace) hordered ?_ fun _ _ _ hi hh => mem_trace_of_happens hh hi, hid⟩
  rw [hremoves.told]
  exact List.mem_cons_self ..

section Runs

variable {config : Config} {telemetry : Telemetry} {clock : Instant} {start : Executor}

/-- What a callable does has happened in a step of its thread. -/
theorem exists_notes (hs : Executor.start config telemetry clock = .ok start)
    (hr : start.Reachable e) {entry : Entry} (hm : entry ∈ e.trace)
    (hc : entry.event.callable? = some id) :
    ∃ before, start.Reachable before ∧ before.Notes entry ∧ before.Reachable e := by
  induction hr with
  | refl =>
    obtain rfl := eq_initial_of_start hs
    simp only [initial, log, note, List.mem_cons, List.not_mem_nil, or_false] at hm
    rcases hm with rfl | rfl <;> cases hc
  | @move before after m hb hmove ih =>
    rcases notes_of_happens (happens_of_move (orderly_of_start hs hb) hmove) hm with hm | hnotes
    · obtain ⟨earlier, he, hnotes, hlater⟩ := ih hm
      exact ⟨earlier, he, hnotes, hlater.move m hmove⟩
    · exact ⟨before, hb, hnotes, .move m .refl hmove⟩

theorem runsOwn_of_start (hs : Executor.start config telemetry clock = .ok start)
    (hr : start.Reachable e) : e.RunsOwn := by
  refine invariant_of_start hs hr (fun t a ha f hf => ?_) fun _ _ _ hi hh => hi.happens hh
  obtain ⟨rfl, -⟩ := activity?_initial ha
  cases hf

theorem worker_of_started_action (hs : Executor.start config telemetry clock = .ok start)
    (hr : start.Reachable e) {label : String} (hm : ⟨t, .started .action id label⟩ ∈ e.trace) :
    t = .worker := by
  obtain ⟨before, -, hnotes, -⟩ := exists_notes hs hr hm rfl
  cases hnotes with
  | goes ha hl hevent => exact absurd hevent hl.not_started_action
  | turns ht => exact ht

/-- A panic is raised by a callable that its thread has begun. -/
theorem hasBegun_of_raised (hs : Executor.start config telemetry clock = .ok start)
    (hr : start.Reachable e) {payload : Payload} (hm : ⟨t, .raised id payload⟩ ∈ e.trace) :
    ∃ role, e.HasBegun t role id := by
  obtain ⟨before, hb, hnotes, hlater⟩ := exists_notes hs hr hm rfl
  cases hnotes with
  | goes ha hl hevent =>
    obtain ⟨f, hf, rfl⟩ := hl.raised_from hevent
    exact ⟨f.role, (runsOwn_of_start hs hb _ _ ha f hf).reachable (orderly_of_start hs hb) hlater⟩
  | turns ht hw hevent => cases hw <;> simp [unchanged] at hevent

/-- A task that is called back has been removed by a call of the thread that runs the callback. -/
theorem exists_hasRemoved (hs : Executor.start config telemetry clock = .ok start)
    (hr : start.Reachable e) {label : String}
    (hm : ⟨t, .started .callback id label⟩ ∈ e.trace) : ∃ stack, start.HasRemoved t stack id e := by
  obtain ⟨before, hb, hnotes, hlater⟩ := exists_notes hs hr hm rfl
  cases hnotes with
  | goes ha hl hevent =>
    obtain ⟨batch, stack, task, rfl, htask, rfl⟩ := hl.started_from hevent
    exact ⟨stack, (hasRemoved_of_settles hs hb ha (.inl ⟨List.mem_singleton_self _, rfl⟩)
      htask).reachable hlater⟩
  | turns ht hw hevent => cases hw <;> simp [unchanged] at hevent

/-! ## The thread of every callable -/

/-- No two threads have removed one task. -/
theorem Balanced.removed_once (h : e.Balanced) {ids others : List TaskId}
    (ht : ⟨t, .removed ids⟩ ∈ e.trace) (hid : id ∈ ids) (hu : ⟨u, .removed others⟩ ∈ e.trace)
    (hother : id ∈ others) : u = t := by
  by_contra hne
  obtain ⟨later, earlier, htrace⟩ := List.append_of_mem ht
  have hrest : (⟨u, .removed others⟩ : Entry) ∈ later ++ earlier := by
    rw [htrace] at hu
    rcases List.mem_append.1 hu with hu | hu
    · exact List.mem_append_left _ hu
    · rcases List.mem_cons.1 hu with heq | hu
      · exact absurd (congrArg Entry.thread heq) hne
      · exact List.mem_append_right _ hu
  have hfirst : 0 < ids.countP (· == id) := List.count_pos_iff.2 hid
  have hsecond : 0 < ((later ++ earlier).flatMap (·.event.removedIds)).countP (· == id) :=
    List.count_pos_iff.2 (List.mem_flatMap.2 ⟨_, hrest, hother⟩)
  have hsum : e.removedIds.countP (· == id) = ids.countP (· == id) +
      ((later ++ earlier).flatMap (·.event.removedIds)).countP (· == id) := by
    rw [removedIds, gather, htrace]
    simp only [List.flatMap_append, List.flatMap_cons, List.countP_append, Event.removedIds]
    omega
  have hqueue := h.queue (· == id)
  have hone := h.countP_acceptedIds_le id
  omega

/-- Which thread runs which callable, in a run that has begun at `start`. -/
structure IsPlaced (start e : Executor) : Prop where
  /-- All actions are run by the worker. -/
  actions : ∀ t id label, ⟨t, .started .action id label⟩ ∈ e.trace → t = .worker
  /-- A callback is run by the thread whose call has removed the task from the queue. That thread
  had begun all callables from above which it made the call; one of them was an action if and only
  if it is the worker. -/
  callbacks : ∀ t id label, ⟨t, .started .callback id label⟩ ∈ e.trace →
    ∃ before stack next, start.Removes before t stack next ∧ id ∈ before.guarded.pending.ids ∧
      next.Reachable e ∧ (t = .worker ↔ ∃ frame ∈ stack, frame.role = .action) ∧
      ∀ frame ∈ stack, before.HasBegun t frame.role frame.task
  /-- No other thread has removed that task. -/
  removals : ∀ t u id label ids, ⟨t, .started .callback id label⟩ ∈ e.trace →
    ⟨u, .removed ids⟩ ∈ e.trace → id ∈ ids → u = t
  /-- A thread runs what it has begun, from the beginning to the end. -/
  runs : ∀ t a, e.activity? t = some a → ∀ frame ∈ a.frames, e.HasBegun t frame.role frame.task
  raises : ∀ t id payload, ⟨t, .raised id payload⟩ ∈ e.trace → ∃ role, e.HasBegun t role id
  /-- A callable that asks for the name of its thread is told that of the thread that runs it. -/
  names : ∀ t stack next, e.Calls t .threadName stack next →
    next = e.reply t .threadName stack (.name (e.threadName t))

/-- The callables from above which a call removes tasks have been begun by its thread. -/
theorem Removes.callers (hs : Executor.start config telemetry clock = .ok start)
    (h : start.Removes e t stack next) :
    (t = .worker ↔ ∃ frame ∈ stack, frame.role = .action) ∧
      ∀ frame ∈ stack, e.HasBegun t frame.role frame.task := by
  obtain ⟨m, hm⟩ := h.move
  obtain ⟨purpose, ha⟩ := h.settles
  have hr := h.reachable.move m hm
  have hst : Stacked t stack := orderly_of_start hs hr t _ ha
  refine ⟨hst.worker_iff, fun frame hf => ?_⟩
  obtain ⟨label, hlabel⟩ := runsOwn_of_start hs hr t _ ha frame hf
  rw [h.told] at hlabel
  rcases List.mem_cons.1 hlabel with heq | hlabel
  · cases heq
  · exact ⟨label, hlabel⟩

/-- **Callables run on the right thread.** The worker, whose name is that of the configuration, runs
all actions, whichever thread has scheduled them. A cancellation callback is run by the thread of
the one call that has removed its task from the queue: by the worker if that call was made from
above an action, where the callables between them were callbacks that the worker had begun, and else
by the caller that had begun all of them. -/
theorem runs_on_own_thread (hs : Executor.start config telemetry clock = .ok start)
    (hr : start.Reachable e) : start.IsPlaced e ∧ e.threadName .worker = config.threadName := by
  refine ⟨⟨fun t id label hm => worker_of_started_action hs hr hm, fun t id label hm => ?_,
    fun t u id label ids hm hu hid => ?_, runsOwn_of_start hs hr,
    fun t id payload hm => hasBegun_of_raised hs hr hm, fun t stack next hc => ?_⟩, ?_⟩
  · obtain ⟨stack, before, next, hremoves, hid, hn⟩ := exists_hasRemoved hs hr hm
    exact ⟨before, stack, next, hremoves, hid, hn, hremoves.callers hs⟩
  · obtain ⟨stack, hremoved⟩ := exists_hasRemoved hs hr hm
    obtain ⟨taken, ht, hmem⟩ := hremoved.told (orderly_of_start hs .refl)
    exact (balanced_of_start hs hr).removed_once ht hmem hu hid
  · rw [hc.eq_begin]
    simp only [begin]
  · rw [threadName, config_of_start hs hr]

end Runs

/-- A callback that a caller runs schedules a task, whose action the worker runs; that action
cancels a third task, and the worker calls it back. Panics would abort. -/
theorem runs_on_own_thread_crossing :
    ∃ e, (initial { threadName := "timers", panicStrategy := .abort } .stub ⟨0⟩).Reachable e ∧
      ⟨.caller 0, .started .callback ⟨1⟩ "first"⟩ ∈ e.trace ∧
      ⟨.worker, .started .action ⟨2⟩ "second"⟩ ∈ e.trace ∧
      ⟨.worker, .started .callback ⟨3⟩ "third"⟩ ∈ e.trace ∧
      (initial { threadName := "timers", panicStrategy := .abort } .stub ⟨0⟩).IsPlaced e ∧
      e.threadName .worker = "timers" := by
  obtain ⟨e, he, hfirst, hsecond, hthird⟩ : ∃ e,
      (initial { threadName := "timers", panicStrategy := .abort } .stub ⟨0⟩).moves?
        ([.call 0 (.schedule
            { label := "first", due := .instant ⟨1000⟩,
              onCancel := some (.schedule "second" (.instant ⟨0⟩) (.cancelAll .done) .done) }),
          .step (.caller 0), .step (.caller 0), .step (.caller 0), .call 0 .cancelAll] ++
          List.replicate 8 (.step (.caller 0)) ++
          [.call 1 (.schedule
            { label := "third", due := .instant ⟨1000⟩, onCancel := some .done }),
            .step (.caller 1), .step (.caller 1)] ++
          List.replicate 3 (.step .worker)) = some e ∧
      ⟨.caller 0, .started .callback ⟨1⟩ "first"⟩ ∈ e.trace ∧
      ⟨.worker, .started .action ⟨2⟩ "second"⟩ ∈ e.trace ∧
      ⟨.worker, .started .callback ⟨3⟩ "third"⟩ ∈ e.trace := by
    refine ⟨_, rfl, ?_, ?_, ?_⟩ <;> decide
  have hs : Executor.start { threadName := "timers", panicStrategy := .abort } .stub ⟨0⟩ = .ok _ :=
    rfl
  have hr := Reachable.refl.of_moves _ he
  exact ⟨e, hr, hfirst, hsecond, hthird, runs_on_own_thread hs hr⟩

end Executor

end Deferred
