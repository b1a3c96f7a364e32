import Deferred.Proofs.Executor.Calls
import Deferred.Proofs.Executor.Capacity
import Deferred.Proofs.Executor.Order
import Deferred.Proofs.Queue.Roster

/-!
# Scheduling a task

A call that schedules a task first makes the task, which takes a number, and then offers it to the
queue in a section under the lock. There it is decided, by what the section finds, whether the task
is taken; a task that is not taken leaves nothing behind but its number.

* `Executor.admitted`: the state after a call that has been granted, told by what is different.
* `moves_of_refused`, `moves_of_accepted`: the further steps of a call, carried out.
* `Admission`: which answer an offered task gets, and what the answer leaves behind.
* `schedule_grants_or_spares`: this is how every call ends that schedules a task.
* `never_beyond_capacity`: the limit holds in all states, and a call below the limit is granted.
-/

namespace Deferred

namespace Executor

variable {e next : Executor} {t : ThreadId} {a b : Activity} {task : Task Script}
variable {stack : List Frame}

/-! ## The further steps of a call -/

section Activities

variable (e : Executor) (a : Activity) (t : ThreadId)

@[simp] theorem reply_setActivity (topic : Topic) (stack : List Frame) (answer : Answer) :
    (e.setActivity a t).reply t topic stack answer = e.reply t topic stack answer := by
  simp only [reply, setActivity_setActivity]

theorem aborted_setActivity : (e.setActivity a t).aborted = e.aborted := by
  cases t <;> rfl

theorem wakeWorker_setActivity :
    (e.setActivity a t).wakeWorker = e.wakeWorker.setActivity a t := by
  rw [wakeWorker_eq, wakeWorker_eq]
  cases t <;> rfl

theorem endSchedule_setActivity (task : Task Script) (stack : List Frame) :
    (e.setActivity a t).endSchedule t task stack = e.endSchedule t task stack := by
  have hlog : ((e.setActivity a t).count .recordScheduled).log t
      (.scheduled task (e.setActivity a t).clock) =
      ((e.count .recordScheduled).log t (.scheduled task e.clock)).setActivity a t := by
    cases t <;> rfl
  unfold endSchedule
  rw [hlog, reply_setActivity]

end Activities

/-- The executor with one more pending task: the queue is another one, the task has been counted and
logged, and the worker has been woken if the task is the first one. -/
def grown (e : Executor) (t : ThreadId) (task : Task Script) (pending : Queue Script) : Executor :=
  { e with
    guarded := { e.guarded with pending }
    telemetry := e.telemetry.update .recordScheduled
    worker := if pending.firstId? = some task.id then e.worker.woken else e.worker
  }.note t (.accepted task.id) |>.log t (.scheduled task e.clock)

/-- The state in which a call leaves the executor that has scheduled a task. -/
def admitted (e : Executor) (t : ThreadId) (task : Task Script) (pending : Queue Script)
    (stack : List Frame) : Executor :=
  (e.grown t task pending).reply t (.schedule task.label) stack (.scheduled task.id)

@[simp] theorem admitted_setActivity (e : Executor) (a : Activity) (t : ThreadId)
    (task : Task Script) (pending : Queue Script) (stack : List Frame) :
    (e.setActivity a t).admitted t task pending stack = e.admitted t task pending stack := by
  cases t with
  | worker => cases stack <;> rfl
  | caller n => exact reply_setActivity (e.grown (.caller n) task pending) a (.caller n) _ stack _

theorem snapshot_admitted (e : Executor) (t : ThreadId) (task : Task Script)
    (pending : Queue Script) (stack : List Frame) :
    (e.admitted t task pending stack).snapshot =
      (e.telemetry.update .recordScheduled).snapshot (.ofNanos (e.clock.since e.startedAt)) := by
  rw [admitted, reply_eq, snapshot_after]
  rfl

/-- A thread makes a step, and then others. -/
theorem moves?_replicate_succ {last : Executor} {k : Nat} (hs : e.step? t = some next)
    (hn : next.moves? (List.replicate k (.step t)) = some last) :
    e.moves? (List.replicate (k + 1) (.step t)) = some last := by
  rw [List.replicate_succ, moves?, move?, hs]
  exact hn

/-- A call whose task is refused ends with the next step. -/
theorem moves_of_refused {error : Error} (hrun : e.aborted = false)
    (ha : e.activity? t = some ⟨.enqueue task, stack⟩) (hr : e.guarded.accept task = .error error) :
    e.moves? (List.replicate 1 (.step t)) =
      some (e.reply t (.schedule task.label) stack (.failed error)) := by
  refine moves?_replicate_succ ?_ rfl
  rw [step?_eq_advance hrun ha, advance, hr]

/-- In a process that goes on, a thread does next what it has been made to do. -/
theorem step?_setActivity (hrun : e.aborted = false) (a : Activity) (t : ThreadId) :
    (e.setActivity a t).step? t = (e.setActivity a t).advance t a :=
  step?_eq_advance ((aborted_setActivity e a t).trans hrun) (activity?_setActivity_self ..)

/-- A call that has only to count its task ends with the next step. -/
theorem moves_of_record (hrun : e.aborted = false) (t : ThreadId) (task : Task Script)
    (stack : List Frame) :
    (e.setActivity ⟨.record task, stack⟩ t).moves? (List.replicate 1 (.step t)) =
      some (e.endSchedule t task stack) := by
  refine moves?_replicate_succ ?_ rfl
  rw [step?_setActivity hrun, advance, endSchedule_setActivity]

/-- A call whose task is accepted wakes the worker if the task is the first one, counts the task,
and ends. -/
theorem moves_of_accepted {pending : Queue Script} {first : Bool} (hrun : e.aborted = false)
    (ha : e.activity? t = some ⟨.enqueue task, stack⟩)
    (hr : e.guarded.accept task = .ok ({ e.guarded with pending }, first))
    (hf : first = decide (pending.firstId? = some task.id)) :
    ∃ k, e.moves? (List.replicate k (.step t)) = some (e.admitted t task pending stack) := by
  let added := { e with guarded := { e.guarded with pending } }.note t (.accepted task.id)
  have hadd : e.step? t = some (added.setActivity
      ⟨if first then .notify task else .record task, stack⟩ t) := by
    rw [step?_eq_advance hrun ha, advance, hr]
  unfold admitted grown
  cases first with
  | true =>
    rw [if_pos (of_decide_eq_true hf.symm)]
    have hwake : (added.setActivity ⟨.notify task, stack⟩ t).step? t =
        some (added.wakeWorker.setActivity ⟨.record task, stack⟩ t) := by
      rw [step?_setActivity (e := added) hrun, advance, wakeWorker_setActivity,
        setActivity_setActivity]
    rw [wakeWorker_eq] at hwake
    have hrecord := moves_of_record (e := { added with worker := added.worker.woken }) hrun t task
      stack
    exact ⟨3, moves?_replicate_succ hadd (moves?_replicate_succ hwake hrecord)⟩
  | false =>
    rw [if_neg (of_decide_eq_false hf.symm)]
    exact ⟨2, moves?_replicate_succ hadd (moves_of_record (e := added) hrun t task stack)⟩

/-! ## Which answer a task gets -/

/-- A task that a thread is about to offer is not pending. -/
theorem Balanced.nodup_offered (hbal : e.Balanced)
    (ha : e.activity? t = some ⟨.enqueue task, stack⟩) :
    ((task :: e.guarded.pending.tasks).map Task.id).Nodup := by
  refine List.nodup_cons.2 ⟨fun hm => ?_, hbal.nodup_pending⟩
  obtain ⟨other, hother, hid⟩ := List.mem_map.1 hm
  have hnumber := (hbal.numbers task.id).1
  have hqueue := hbal.queue (· == task.id)
  have hpending : 0 < e.guarded.pending.count (· == task.id) := hid ▸ Queue.count_pos hother
  have hoffered := le_total (f := (·.offered (· == task.id))) rfl ha
  have hone : Activity.offered (· == task.id) ⟨.enqueue task, stack⟩ = 1 := by
    simp [Activity.offered, Control.offered]
  rw [numbered] at hnumber
  omega

/-- Which answer a task gets that a thread offers, and what the call leaves behind. Whether the
worker is dead is looked at first, then whether it is to end, then whether the queue is full. The
answer to a task that is refused is all that remains of the call; a task that is granted is added,
and one of the counters grows by one. -/
structure Admission (e : Executor) (t : ThreadId) (task : Task Script) (stack : List Frame)
    (answer : Answer) (after : Executor) : Prop where
  dead : answer = .failed .workerDead ↔ e.guarded.workerPanicked = true
  closed : answer = .failed .shutDown ↔
    e.guarded.workerPanicked = false ∧ e.guarded.terminating = true
  full : ∀ capacity, answer = .failed (.queueFull capacity) ↔
    e.guarded.workerPanicked = false ∧ e.guarded.terminating = false ∧
      e.config.maxPending = some capacity ∧ capacity ≤ e.guarded.pending.size
  granted : answer = .scheduled task.id ↔
    e.guarded.workerPanicked = false ∧ e.guarded.terminating = false ∧
      ∀ capacity, e.config.maxPending = some capacity → e.guarded.pending.size < capacity
  spared : ∀ error, answer = .failed error →
    after = e.reply t (.schedule task.label) stack (.failed error)
  added : answer = .scheduled task.id → ∃ pending,
    pending.drain = e.guarded.pending.drain.orderedInsert Task.Earlier task ∧
      pending.limit = e.guarded.pending.limit ∧ after = e.admitted t task pending stack
  counted : answer = .scheduled task.id → e.telemetry ≠ .stub →
    after.snapshot = { e.snapshot with scheduled := e.snapshot.scheduled + 1 }

/-- A task that is refused gets the answer that tells why. -/
theorem admission_of_refused {error : Error} (hcap : e.HasCapacity)
    (hr : e.guarded.accept task = .error error) :
    e.Admission t task stack (.failed error)
      (e.reply t (.schedule task.label) stack (.failed error)) := by
  rcases Guarded.accept_error.1 hr with ⟨hp, rfl⟩ | ⟨hp, ⟨ht, rfl⟩ | ⟨ht, capacity, hl, hc, rfl⟩⟩
  · constructor <;> simp [hp, Error.workerDead]
  · constructor <;> simp [hp, ht, Error.workerDead]
  · have hmax : e.config.maxPending = some capacity := hcap.limit.symm.trans hl
    refine ⟨by simp [hp, Error.workerDead], by simp [ht], fun other => ?_, ?_, ?_, nofun, nofun⟩
    · constructor
      · rintro ⟨⟩
        exact ⟨hp, ht, hmax, hc⟩
      · rintro ⟨-, -, hother, -⟩
        rw [Option.some.inj (hmax.symm.trans hother)]
    · refine ⟨nofun, fun h => ?_⟩
      exact absurd (h.2.2 capacity hmax) (Nat.not_lt_of_le hc)
    · intro other h
      rw [h]

/-- A task that is accepted is put into its place among the pending tasks. -/
theorem admission_of_accepted {pending : Queue Script} (hcap : e.HasCapacity)
    (hn : ((task :: e.guarded.pending.tasks).map Task.id).Nodup)
    (hp : e.guarded.workerPanicked = false) (ht : e.guarded.terminating = false)
    (hpush : e.guarded.pending.push task = .ok pending) :
    e.Admission t task stack (.scheduled task.id) (e.admitted t task pending stack) where
  dead := by simp [hp]
  closed := by simp [ht]
  full capacity := by
    refine ⟨nofun, fun h => ?_⟩
    exact absurd h.2.2.2 (Nat.not_le_of_lt (Queue.lt_of_push hpush (hcap.limit.trans h.2.2.1)))
  granted := by
    refine ⟨fun _ => ⟨hp, ht, fun capacity hl => ?_⟩, fun _ => rfl⟩
    exact Queue.lt_of_push hpush (hcap.limit.trans hl)
  spared := nofun
  added _ := ⟨pending, Queue.drain_push hpush hn, Queue.limit_of_push hpush, rfl⟩
  counted _ hkept := (snapshot_admitted ..).trans (Telemetry.snapshot_recordScheduled hkept _)

/-- A thread that offers a task brings its call to an end by its own steps. -/
theorem exists_admission (hcap : e.HasCapacity) (hbal : e.Balanced) (hrun : e.aborted = false)
    (ha : e.activity? t = some ⟨.enqueue task, stack⟩) :
    ∃ k answer after, e.moves? (List.replicate k (.step t)) = some after ∧
      e.Admission t task stack answer after := by
  cases hr : e.guarded.accept task with
  | error error => exact ⟨1, _, _, moves_of_refused hrun ha hr, admission_of_refused hcap hr⟩
  | ok accepted =>
    obtain ⟨guarded, first⟩ := accepted
    obtain ⟨hp, ht, pending, hpush, rfl, hf⟩ := Guarded.accept_ok hr
    obtain ⟨k, hk⟩ := moves_of_accepted hrun ha hr hf
    exact ⟨k, _, _, hk, admission_of_accepted hcap (hbal.nodup_offered ha) hp ht hpush⟩

/-- What the thread was doing before does not matter. -/
theorem Admission.of_setActivity {answer : Answer} {after : Executor}
    (h : (e.setActivity a t).Admission t task stack answer after) :
    e.Admission t task stack answer after := by
  have hguarded : (e.setActivity a t).guarded = e.guarded := by cases t <;> rfl
  have hconfig : (e.setActivity a t).config = e.config := by cases t <;> rfl
  have htelemetry : (e.setActivity a t).telemetry = e.telemetry := by cases t <;> rfl
  have hsnapshot : (e.setActivity a t).snapshot = e.snapshot := by cases t <;> rfl
  obtain ⟨hdead, hclosed, hfull, hgranted, hspared, hadded, hcounted⟩ := h
  rw [hguarded] at hdead hclosed hgranted
  rw [hconfig] at hgranted
  rw [htelemetry, hsnapshot] at hcounted
  refine ⟨hdead, hclosed, fun capacity => ?_, hgranted, fun error herror => ?_, fun hanswer => ?_,
    hcounted⟩
  · have := hfull capacity
    rwa [hguarded, hconfig] at this
  · rw [hspared error herror, reply_setActivity]
  · obtain ⟨pending, hdrain, hlimit, rfl⟩ := hadded hanswer
    rw [hguarded] at hdrain hlimit
    exact ⟨pending, hdrain, hlimit, admitted_setActivity ..⟩

/-! ## The call from its beginning -/

/-- Only a delay may have no deadline, and only because it leads beyond the end of the clock. -/
theorem deadline_or_overflows (now : Instant) (due : Due) :
    (∃ length, due = .delay length ∧ now.after? length = none) ∨
      ∃ deadline, due.deadline now = .ok deadline := by
  cases due with
  | instant when => exact .inr ⟨when, rfl⟩
  | delay length =>
    cases h : now.after? length with
    | none => exact .inl ⟨length, rfl, h⟩
    | some when => exact .inr ⟨when, by rw [Due.deadline, h]⟩

/-- A call whose delay leads beyond the end of the clock is over at once. -/
theorem Calls.eq_reply {spec : Spec} {error : Error} (hc : e.Calls t (.schedule spec) stack next)
    (hx : e.access = .available) (hd : spec.due.deadline e.clock = .error error) :
    next = e.reply t (.schedule spec.label) stack (.failed error) := by
  simp only [hc.eq_begin, begin, hx, make, hd]

/-- A call whose deadline is there makes its task. -/
theorem Calls.eq_made {spec : Spec} {deadline : Instant}
    (hc : e.Calls t (.schedule spec) stack next) (hx : e.access = .available)
    (hd : spec.due.deadline e.clock = .ok deadline) :
    next = { e with nextId := e.nextId + 1 }.setActivity
      ⟨.enqueue (spec.task ⟨e.nextId⟩ deadline), stack⟩ t := by
  simp only [hc.eq_begin, begin, hx, make, hd]

/-- No number is given twice. -/
theorem nextId_le_of_reachable {last : Executor} (ho : e.Orderly) (h : e.Reachable last) :
    e.nextId ≤ last.nextId := by
  refine h.happens_invariant (P := fun last => e.nextId ≤ last.nextId) ho (Nat.le_refl _) ?_
  intro before next _ hi hh
  obtain ⟨made, ⟨-, hn⟩ | ⟨-, hn⟩, -⟩ := numbered_of_happens hh
  · omega
  · omega

section Runs

variable {config : Config} {telemetry : Telemetry} {clock : Instant} {start : Executor}

/-- A call that has made its task is brought to its end by the steps of its thread. -/
theorem exists_admission_of_calls (hs : Executor.start config telemetry clock = .ok start)
    (hr : start.Reachable e) (hx : e.access = .available) {spec : Spec} {deadline : Instant}
    (hc : e.Calls t (.schedule spec) stack next) (hd : spec.due.deadline e.clock = .ok deadline) :
    ∃ k answer after, next.moves? (List.replicate k (.step t)) = some after ∧
      Admission { e with nextId := e.nextId + 1 } t (spec.task ⟨e.nextId⟩ deadline) stack answer
        after := by
  have hnext := hc.reachable hr
  have hcap := capacity_of_start hs hnext
  have hbal := balanced_of_start hs hnext
  have hrun := hc.not_aborted
  obtain rfl := hc.eq_made hx hd
  obtain ⟨k, answer, after, hk, hadm⟩ :=
    exists_admission hcap hbal ((aborted_setActivity ..).trans hrun) (activity?_setActivity_self ..)
  exact ⟨k, answer, after, hk, hadm.of_setActivity⟩

/-- **Scheduling is granted exactly when it can be, and leaves nothing behind otherwise.** Whoever
makes the call, in whatever state in which the executor can be reached: if the delay leads beyond
the end of the clock, the call has failed at once and nothing has changed. Otherwise the next number
is used up, and the thread's own steps bring the call to its end, which `Admission` describes. They
do so too if other threads have moved before the task is offered, unless the process has ended; what
counts is then the state in which it is offered. Tasks made later have greater numbers. -/
theorem schedule_grants_or_spares (hs : Executor.start config telemetry clock = .ok start)
    (hr : start.Reachable e) (hx : e.access = .available) {spec : Spec}
    (hc : e.Calls t (.schedule spec) stack next) :
    (∀ length, spec.due = .delay length → e.clock.after? length = none →
      next = e.reply t (.schedule spec.label) stack (.failed (.delayOverflows length))) ∧
    ((∀ length, spec.due = .delay length → e.clock.after? length ≠ none) →
      ∃ deadline, spec.due.deadline e.clock = .ok deadline ∧
        (∃ k answer after, next.moves? (List.replicate k (.step t)) = some after ∧
          Admission { e with nextId := e.nextId + 1 } t (spec.task ⟨e.nextId⟩ deadline) stack answer
            after) ∧
        (∀ mid, next.Reachable mid → mid.activity? t = next.activity? t → mid.aborted = false →
          ∃ k answer after, mid.moves? (List.replicate k (.step t)) = some after ∧
            Admission mid t (spec.task ⟨e.nextId⟩ deadline) stack answer after) ∧
        ∀ later, next.Reachable later → e.nextId < later.nextId) := by
  constructor
  · intro length hdue hnone
    refine hc.eq_reply hx ?_
    rw [hdue, Due.deadline, hnone]
  · intro hclock
    rcases deadline_or_overflows e.clock spec.due with ⟨length, hdue, hnone⟩ | ⟨deadline, hd⟩
    · exact absurd hnone (hclock length hdue)
    · have hnext := hc.reachable hr
      have hmade := hc.eq_made hx hd
      refine ⟨deadline, hd, exists_admission_of_calls hs hr hx hc hd, ?_, ?_⟩
      · intro mid hmid hsame hrun
        have hm := hnext.trans hmid
        rw [hmade, activity?_setActivity_self] at hsame
        exact exists_admission (capacity_of_start hs hm) (balanced_of_start hs hm) hrun hsame
      · intro later hl
        have hnumber : next.nextId = e.nextId + 1 := by
          rw [hmade]
          cases t <;> rfl
        have hle := nextId_le_of_reachable (orderly_of_start hs hnext) hl
        omega

/-- The limit is one: the first of two callers is granted its task, which is counted, and the second
one is refused, which is not. -/
theorem schedule_grants_or_spares_full :
    ∃ start granted e next, Executor.start { maxPending := some 1 } (.kept {}) ⟨0⟩ = .ok start ∧
      start.Calls (.caller 0) (.schedule { label := "first", due := .instant ⟨5⟩ }) [] granted ∧
      (∃ k after, granted.moves? (List.replicate k (.step (.caller 0))) = some after ∧
        after.snapshot = { start.snapshot with scheduled := 1 }) ∧
      start.Reachable e ∧ e.access = .available ∧
      e.Calls (.caller 1) (.schedule { label := "second", due := .instant ⟨9⟩ }) [] next ∧
      ∃ k after, next.moves? (List.replicate k (.step (.caller 1))) = some after ∧
        after = { e with nextId := 3 }.reply (.caller 1) (.schedule "second") []
          (.failed (.queueFull 1)) ∧
        after.guarded.pending.ids = [⟨1⟩] ∧ after.snapshot.scheduled = 1 := by
  obtain ⟨start, granted, e, next, hs, hfirst, hg, hopen, hkept, hzero, hm, hx, hc, hnumber, hids,
      hcount, hsize⟩ :
      ∃ start granted e next, Executor.start { maxPending := some 1 } (.kept {}) ⟨0⟩ = .ok start ∧
        start.access = .available ∧
        start.move? (.call 0 (.schedule { label := "first", due := .instant ⟨5⟩ })) =
          some granted ∧
        (start.guarded.workerPanicked = false ∧ start.guarded.terminating = false ∧
          ∀ capacity, start.config.maxPending = some capacity →
            start.guarded.pending.size < capacity) ∧
        start.telemetry ≠ .stub ∧ start.snapshot.scheduled = 0 ∧
        granted.moves? (List.replicate 3 (.step (.caller 0))) = some e ∧ e.access = .available ∧
        e.move? (.call 1 (.schedule { label := "second", due := .instant ⟨9⟩ })) = some next ∧
        e.nextId = 2 ∧ e.guarded.pending.ids = [⟨1⟩] ∧ e.snapshot.scheduled = 1 ∧
        (e.guarded.workerPanicked = false ∧ e.guarded.terminating = false ∧
          e.config.maxPending = some 1 ∧ 1 ≤ e.guarded.pending.size) := by
    refine ⟨_, _, _, _, rfl, rfl, rfl, ⟨rfl, rfl, ?_⟩, nofun, rfl, rfl, rfl, rfl, rfl, rfl, rfl,
      rfl, rfl, rfl, Nat.le_refl 1⟩
    rintro capacity ⟨⟩
    exact Nat.one_pos
  obtain ⟨-, hok⟩ := schedule_grants_or_spares hs .refl hfirst (.caller hg)
  obtain ⟨deadline, -, ⟨i, answer, added, hi, hadded⟩, -⟩ := hok nofun
  have hscheduled : added.snapshot =
      { start.snapshot with scheduled := start.snapshot.scheduled + 1 } :=
    hadded.counted (hadded.granted.2 hopen) hkept
  rw [hzero] at hscheduled
  have hr : start.Reachable e := (Reachable.refl.move _ hg).of_moves _ hm
  obtain ⟨-, hok⟩ := schedule_grants_or_spares hs hr hx (.caller hc)
  obtain ⟨deadline, -, ⟨k, answer, after, hk, hadm⟩, -⟩ := hok nofun
  obtain rfl := (hadm.full 1).2 hsize
  obtain rfl := hadm.spared _ rfl
  rw [hnumber] at hk
  exact ⟨start, granted, e, next, hs, .caller hg, ⟨i, added, hi, hscheduled⟩, hr, hx, .caller hc, k,
    _, hk, rfl, hids, hcount⟩

/-- **The limit on pending tasks is an invariant.** In every reachable state, whatever the threads
are in the midst of, the limit is that of the configuration and no more tasks are pending. Whenever
fewer are pending, and the worker is neither to end nor dead, a call that schedules a task at a
deadline that there is will be granted. -/
theorem never_beyond_capacity (hs : Executor.start config telemetry clock = .ok start)
    (hr : start.Reachable e) {capacity : Nat} (hn : config.maxPending = some capacity) :
    e.guarded.pending.limit = some capacity ∧ e.guarded.pending.size ≤ capacity ∧
      (e.guarded.pending.size < capacity → e.guarded.terminating = false →
        e.guarded.workerPanicked = false → e.access = .available →
        ∀ t spec stack next deadline, e.Calls t (.schedule spec) stack next →
          spec.due.deadline e.clock = .ok deadline →
          ∃ k after, next.moves? (List.replicate k (.step t)) = some after ∧
            Admission { e with nextId := e.nextId + 1 } t (spec.task ⟨e.nextId⟩ deadline) stack
              (.scheduled ⟨e.nextId⟩) after ∧
            after.guarded.pending.size = e.guarded.pending.size + 1) := by
  have hcap := capacity_of_start hs hr
  have hmax : e.config.maxPending = some capacity := by rw [config_of_start hs hr, hn]
  have hlimit := hcap.limit.trans hmax
  refine ⟨hlimit, hcap.within capacity hlimit, ?_⟩
  intro hroom ht hp hx t spec stack next deadline hc hd
  obtain ⟨k, answer, after, hk, hadm⟩ := exists_admission_of_calls hs hr hx hc hd
  obtain rfl : answer = .scheduled ⟨e.nextId⟩ := by
    refine hadm.granted.2 ⟨hp, ht, fun other hother => ?_⟩
    obtain rfl := Option.some.inj (hmax.symm.trans hother)
    exact hroom
  refine ⟨k, after, hk, hadm, ?_⟩
  obtain ⟨pending, hdrain, -, rfl⟩ := hadm.added rfl
  have hguarded : ∀ s : Executor, (s.admitted t (spec.task ⟨e.nextId⟩ deadline) pending
      stack).guarded.pending = pending := by
    intro s
    cases stack <;> cases t <;> rfl
  rw [hguarded, ← Queue.length_drain, hdrain, List.orderedInsert_length, Queue.length_drain]

/-- The limit is one, and the task that was pending has been taken up by the worker of an executor
in which panics abort. -/
theorem never_beyond_capacity_one :
    ∃ e next, (initial { panicStrategy := .abort, maxPending := some 1 } .stub ⟨0⟩).Reachable e ∧
      e.startedIds .action = [⟨1⟩] ∧ e.guarded.pending.size ≤ 1 ∧
      e.Calls (.caller 0) (.schedule { label := "second", due := .instant ⟨9⟩ }) [] next ∧
      ∃ k after, next.moves? (List.replicate k (.step (.caller 0))) = some after ∧
        after.guarded.pending.size = 1 := by
  obtain ⟨e, next, hm, hc, hstarted, hsize, ht, hp, hx⟩ :
      ∃ e next, (initial { panicStrategy := .abort, maxPending := some 1 } .stub ⟨0⟩).moves?
          [.call 0 (.schedule { label := "first", due := .instant ⟨0⟩ }), .step (.caller 0),
            .step (.caller 0), .step (.caller 0), .step .worker] = some e ∧
        e.move? (.call 0 (.schedule { label := "second", due := .instant ⟨9⟩ })) = some next ∧
        e.startedIds .action = [⟨1⟩] ∧ e.guarded.pending.size = 0 ∧
        e.guarded.terminating = false ∧ e.guarded.workerPanicked = false ∧ e.access = .available :=
    ⟨_, _, rfl, rfl, rfl, rfl, rfl, rfl, rfl⟩
  have hs : Executor.start { panicStrategy := .abort, maxPending := some 1 } .stub ⟨0⟩ = .ok _ :=
    rfl
  have hr := Reachable.refl.of_moves _ hm
  have hmax : Config.maxPending { panicStrategy := .abort, maxPending := some 1 } = some 1 := rfl
  obtain ⟨-, hle, hgrants⟩ := never_beyond_capacity hs hr hmax
  obtain ⟨k, after, hk, -, hafter⟩ :=
    hgrants (by omega) ht hp hx (.caller 0) _ [] next _ (.caller hc) rfl
  exact ⟨e, next, hr, hstarted, hle, .caller hc, k, after, hk, by rw [hafter, hsize]⟩

end Runs

end Executor

end Deferred
