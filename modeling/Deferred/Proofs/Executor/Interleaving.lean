import Deferred.Proofs.Executor.Producers
import Deferred.Proofs.Executor.Settlement

/-!
# Any order of the threads

Which number a task gets, and with a limit even which tasks are added, depends on how the threads
that schedule tasks take turns. How many are added does not, nor which errors there are, nor what is
counted. Without a limit, and with deadlines of their own, the tasks are also run or canceled in the
same order.

* `Yields`: what comes of calls, told by the calls alone.
* `Standing.yields`: this is what comes of them when all are over.
* `KeepsOrder`: the tasks that are pending in a state are run or canceled in the order in which it
  drains them.
* `schedules_in_any_order`: two runs in which the threads make the same calls yield the same.
-/

namespace Deferred

namespace Executor

variable {e before next last last' : Executor} {t : ThreadId}
variable {calls others : List (ThreadId × Spec)} {placed refused : List (Task Script)}
variable {stack : List Frame}

/-! ## What comes of the calls -/

/-- How many of the tasks that calls ask for are added: all, or as many as there is room for. -/
def granted (e : Executor) (calls : List (ThreadId × Spec)) : Nat :=
  match e.config.maxPending with
  | none => (bookings calls).length
  | some capacity => min (bookings calls).length (capacity - e.guarded.pending.size)

/-- The errors of the calls whose tasks there is no room for. -/
def rejections (e : Executor) (calls : List (ThreadId × Spec)) : List Error :=
  match e.config.maxPending with
  | none => []
  | some capacity =>
    List.replicate ((bookings calls).length - e.granted calls) (.queueFull capacity)

/-- What has come in the state `last` of calls that threads have made since the state `e`. -/
structure Yields (e : Executor) (calls : List (ThreadId × Spec)) (last : Executor) : Prop where
  accepted : last.acceptedIds.length = e.acceptedIds.length + e.granted calls
  failed : last.failures.Perm (overflows calls ++ e.rejections calls ++ e.failures)
  pending : last.guarded.pending.size = e.guarded.pending.size + e.granted calls
  counted : e.telemetry.Counts (e.granted calls) last.telemetry
  /-- Without a limit each task has its place behind those that are due no later. -/
  drained : e.config.maxPending = none →
    last.guarded.pending.drain.map Task.unnumbered =
      (bookings calls).foldl Task.place (e.guarded.pending.drain.map Task.unnumbered)

/-- Two states in which as much has been added, in which calls have failed with the same errors, in
which as much is pending and as much has been counted, and which drain the same tasks in the same
order, unless there is a limit. -/
structure Agrees (last last' : Executor) : Prop where
  accepted : last.acceptedIds.length = last'.acceptedIds.length
  failed : last.failures.Perm last'.failures
  pending : last.guarded.pending.size = last'.guarded.pending.size
  counted : last.snapshot.scheduled = last'.snapshot.scheduled
  drained : last.config.maxPending = none →
    last.guarded.pending.drain.map Task.unnumbered = last'.guarded.pending.drain.map Task.unnumbered

/-- States with one outcome agree. -/
theorem Yields.agrees (h : e.Yields calls last) (h' : e.Yields calls last')
    (hc : last.config = e.config) : last.Agrees last' where
  accepted := h.accepted.trans h'.accepted.symm
  failed := h.failed.trans h'.failed.symm
  pending := h.pending.trans h'.pending.symm
  counted := h.counted.snapshot_eq h'.counted _ _
  drained hn := by
    rw [hc] at hn
    exact (h.drained hn).trans (h'.drained hn).symm

/-! ## From how the calls stand to what comes of them -/

/-- When all calls are over, every thread is where it was. -/
theorem Standing.midst_eq (h : e.Standing calls placed refused last) (hover : AreOver calls last)
    (t : ThreadId) : last.midst t = e.midst t := by
  by_cases ht : t ∈ calls.map Prod.fst
  · rw [hover t ht, h.began t ht]
  · exact h.others t ht

/-- Then a sum that counts only threads in the midst of a call is what it was. -/
theorem total_of_midst_eq {f : Control → Nat}
    (hf : ∀ control, control.schedules = false → f control = 0)
    (hsame : ∀ t, last.midst t = e.midst t) :
    last.total (fun a => f a.control) = e.total (fun a => f a.control) := by
  have hpart : ∀ (s : Executor) t, ((s.activity? t).map fun a => f a.control).getD 0 =
      ((s.midst t).map f).getD 0 := by
    intro s t
    cases ha : s.activity? t with
    | none => simp [midst, ha]
    | some a =>
      rw [midst_of_activity ha]
      split
      · rfl
      next hs => exact hf a.control (by simpa using hs)
  refine total_congr (hf .ready rfl) fun t => ?_
  rw [hpart, hpart, hsame]

/-- When all calls are over, the tasks asked for are those that have been added and those that have
been turned down. -/
theorem Standing.perm_bookings (h : e.Standing calls placed refused last)
    (hover : AreOver calls last) :
    ((placed ++ refused).map Task.unnumbered).Perm (bookings calls) := by
  classical
  refine List.perm_iff_count.2 fun booking => ?_
  have hmade := h.brings.made (· == booking)
  have htotal : last.total (·.offers (· == booking)) = e.total (·.offers (· == booking)) := by
    refine total_of_midst_eq
      (f := fun control => control.offered.countP fun task => task.unnumbered == booking) ?_
      (h.midst_eq hover)
    intro control hs
    cases control <;> first | rfl | cases hs
  have hcount : ((placed ++ refused).map Task.unnumbered).count booking =
      (placed ++ refused).countP fun task => task.unnumbered == booking := List.countP_map
  have hbookings : (bookings calls).count booking = (bookings calls).countP (· == booking) := rfl
  omega

/-- Without a limit no task is turned down. -/
theorem Standing.refused_eq_nil (h : e.Standing calls placed refused last) (hcap : e.HasCapacity)
    (hmax : e.config.maxPending = none) : refused = [] := by
  by_contra hne
  obtain ⟨capacity, hl, -⟩ := h.full hne
  rw [hcap.limit, hmax] at hl
  cases hl

/-- As many tasks have been added as there was room for. -/
theorem Standing.length_placed (h : e.Standing calls placed refused last)
    (hover : AreOver calls last) (hcap : e.HasCapacity) (hlast : last.HasCapacity) :
    placed.length = e.granted calls := by
  have hlen := (h.perm_bookings hover).length_eq
  rw [List.length_map, List.length_append] at hlen
  have hsize := h.brings.size_eq
  have hlimit := hcap.limit
  unfold granted
  cases hmax : e.config.maxPending with
  | none =>
    rw [h.refused_eq_nil hcap hmax, List.length_nil] at hlen
    exact hlen
  | some capacity =>
    have hwithin := hlast.within capacity (h.brings.limit.trans (hlimit.trans hmax))
    show placed.length = min _ _
    by_cases hne : refused = []
    · rw [hne, List.length_nil] at hlen
      omega
    · obtain ⟨capacity', hl, hfull⟩ := h.full hne
      obtain rfl : capacity' = capacity := Option.some.inj (hl.symm.trans (hlimit.trans hmax))
      omega

/-- The calls that were turned down have failed with the error of a full queue. -/
theorem Standing.failed (h : e.Standing calls placed refused last) (hover : AreOver calls last)
    (hcap : e.HasCapacity) (hlast : last.HasCapacity) :
    last.failures.Perm (overflows calls ++ e.rejections calls ++ e.failures) := by
  have hlen := (h.perm_bookings hover).length_eq
  rw [List.length_map, List.length_append] at hlen
  have hplaced := h.length_placed hover hcap hlast
  have hrejections : List.replicate refused.length e.guarded.pending.fullError =
      e.rejections calls := by
    rw [rejections, Queue.fullError, hcap.limit]
    cases hmax : e.config.maxPending with
    | none =>
      have hall : e.granted calls = (bookings calls).length := by rw [granted, hmax]
      rw [show refused.length = 0 by omega]
      rfl
    | some capacity =>
      rw [Option.getD_some, show refused.length = (bookings calls).length - e.granted calls by omega]
  rw [← hrejections]
  exact h.brings.failed

/-- Every task that has been added has been counted. -/
theorem Standing.counted (h : e.Standing calls placed refused last) (hover : AreOver calls last)
    (hc : e.Confirmed) (hlast : last.Confirmed) :
    e.telemetry.Counts placed.length last.telemetry := by
  let all : TaskId → Bool := fun _ => true
  obtain ⟨k, hk, hcounts⟩ := h.brings.counted
  have hbefore := hc all
  have hafter := hlast all
  have hlen := congrArg List.length h.brings.accepted
  have htotal : last.total (·.unconfirmed all) = e.total (·.unconfirmed all) := by
    refine total_of_midst_eq (f := fun control => control.unconfirmed.countP all) ?_
      (h.midst_eq hover)
    intro control hs
    cases control <;> first | rfl | cases hs
  simp only [all, List.countP_true] at hbefore hafter htotal
  rw [List.length_append, List.length_map] at hlen
  obtain rfl : k = placed.length := by omega
  exact hcounts

/-- A pending task has a number that has been given. -/
theorem Balanced.number_lt (h : e.Balanced) {task : Task Script}
    (hm : task ∈ e.guarded.pending.tasks) : task.id.number < e.nextId := by
  by_contra hn
  have hzero := (h.numbers task.id).2 (Nat.le_of_not_lt hn)
  have hqueue := h.queue (· == task.id)
  have hpos := Queue.count_pos hm
  rw [numbered] at hzero
  omega

/-- Without a limit, and with deadlines of their own, the tasks have found their places. -/
theorem Standing.drained (h : e.Standing calls placed refused last) (hover : AreOver calls last)
    (hcap : e.HasCapacity) (hmax : e.config.maxPending = none) (hbal : e.Balanced)
    (hlast : last.Balanced) (hd : ((bookings calls).map Task.deadline).Nodup) :
    last.guarded.pending.drain.map Task.unnumbered =
      (bookings calls).foldl Task.place (e.guarded.pending.drain.map Task.unnumbered) := by
  have hbookings := h.perm_bookings hover
  rw [h.refused_eq_nil hcap hmax, List.append_nil] at hbookings
  have hids := (last.guarded.pending.perm_drain.map Task.id).nodup_iff.2 hlast.nodup_pending
  have hperm : last.guarded.pending.drain.Perm (placed ++ e.guarded.pending.drain) :=
    (last.guarded.pending.perm_drain.trans h.brings.tasks).trans
      (e.guarded.pending.perm_drain.symm.append_left placed)
  refine Task.map_unnumbered_eq (Queue.pairwise_drain hlast.nodup_pending) hids
    (Queue.pairwise_drain hbal.nodup_pending) hperm hbookings hd fun task hm old hold => ?_
  have hlt := hbal.number_lt (e.guarded.pending.perm_drain.mem_iff.1 hold)
  have hle := h.placed task hm
  omega

/-! ## The same calls in another order -/

theorem callsOf_cons (u : ThreadId) (spec : Spec) :
    callsOf t ((u, spec) :: calls) = if u = t then spec :: callsOf t calls else callsOf t calls := by
  unfold callsOf
  by_cases hu : u = t
  · simp [hu]
  · simp [hu]

/-- How often a thread makes a call can be seen from its own calls. -/
theorem count_callsOf (calls : List (ThreadId × Spec)) (t : ThreadId) (spec : Spec) :
    (callsOf t calls).count spec = calls.count (t, spec) := by
  induction calls with
  | nil => rfl
  | cons call calls ih =>
    obtain ⟨u, other⟩ := call
    rw [callsOf_cons]
    by_cases hu : u = t
    · simp [hu, List.count_cons, ih]
    · simp [hu, ih]

/-- Where each thread makes the same calls in the same order, the same calls are made. -/
theorem perm_of_callsOf (h : ∀ t, callsOf t calls = callsOf t others) : calls.Perm others := by
  refine List.perm_iff_count.2 fun ⟨t, spec⟩ => ?_
  rw [← count_callsOf, h, count_callsOf]

/-- What calls yield does not depend on the order in which they begin. -/
theorem Yields.of_perm (h : e.Yields calls last) (hp : calls.Perm others)
    (hd : ((bookings calls).map Task.deadline).Nodup) : e.Yields others last := by
  have hbookings : (bookings calls).Perm (bookings others) := hp.filterMap _
  have hoverflows : (overflows calls).Perm (overflows others) := hp.filterMap _
  have hgranted : e.granted calls = e.granted others := by
    unfold granted
    rw [hbookings.length_eq]
  have hrejections : e.rejections calls = e.rejections others := by
    unfold rejections
    rw [hbookings.length_eq, hgranted]
  obtain ⟨haccepted, hfailed, hpending, hcounted, hdrained⟩ := h
  rw [hgranted] at haccepted hpending hcounted
  rw [hrejections] at hfailed
  refine ⟨haccepted, hfailed.trans ((hoverflows.append_right _).append_right _), hpending, hcounted,
    fun hmax => ?_⟩
  rw [hdrained hmax, Task.foldl_place_perm hbookings hd]

/-! ## What becomes of the tasks afterwards -/

/-- The tasks that are pending in a state are begun, and canceled, in the order in which it drains
them: of two tasks the later one is not begun before the sooner one, and those that a call removes
together are called back in that order. -/
structure KeepsOrder (start last : Executor) : Prop where
  begun : ∀ final, last.Reachable final →
    last.guarded.pending.drain.Pairwise fun sooner later => final.RunsAfter later sooner
  canceled : ∀ before t stack called, last.Reachable before → start.Removes before t stack called →
    ∃ purpose, called.SettlesAll before.guarded.pending purpose t stack
  left : ∀ before, last.Reachable before →
    (before.guarded.pending.drain.filter fun task => task.id ∈ last.guarded.pending.ids).Sublist
      last.guarded.pending.drain

section Runs

variable {config : Config} {telemetry : Telemetry} {clock : Instant} {start : Executor}

/-- A task that is pending later under the number of a task that is pending now is that one. -/
theorem mem_of_mem_ids (hs : Executor.start config telemetry clock = .ok start)
    (hr : start.Reachable e) (hl : e.Reachable last) {task : Task Script}
    (hm : task ∈ last.guarded.pending.tasks) (hid : task.id ∈ e.guarded.pending.ids) :
    task ∈ e.guarded.pending.tasks := by
  obtain ⟨old, hold, hsame⟩ := Queue.mem_ids.1 hid
  have hfate : last.Fate old := by
    refine (hl.happens_invariant (P := fun e => e.Balanced ∧ e.Fate old) (orderly_of_start hs hr)
      ⟨balanced_of_start hs hr, .pending hold⟩ fun before next hb hi hh => ?_).2
    exact ⟨hi.1.happens hh, hi.2.happens hi.1 (handled_of_start hs (hr.trans hb)) hh⟩
  have hbal := balanced_of_start hs (hr.trans hl)
  by_cases hbegun : old.id ∈ last.startedIds .action
  · exact absurd hm (hbal.not_pending (.inl (hsame ▸ hbegun)))
  · rcases hfate.pending_or_removed hbal hbegun with hpending | hremoved
    · exact hbal.eq_of_id hpending hm hsame ▸ hold
    · exact absurd hm (hbal.not_pending (.inr (hsame ▸ hremoved)))

/-- What is pending is run or canceled in its order. -/
theorem keepsOrder_of_start (hs : Executor.start config telemetry clock = .ok start)
    (hr : start.Reachable last) : start.KeepsOrder last where
  begun final hf := by
    have hpairwise := Queue.pairwise_drain (balanced_of_start hs hr).nodup_pending
    refine hpairwise.imp_of_mem fun hsooner hlater hlt => ?_
    exact runs_in_order hs hr (last.guarded.pending.perm_drain.mem_iff.1 hsooner)
      (last.guarded.pending.perm_drain.mem_iff.1 hlater) (Task.earlier_iff_before.1 hlt) hf
  canceled before t stack called _ h := by
    obtain ⟨purpose, ha⟩ := h.settles
    exact ⟨purpose, settlesAll_of_removes hs h ha⟩
  left before hb := by
    have hbal := balanced_of_start hs (hr.trans hb)
    have hpairwise := Queue.pairwise_drain hbal.nodup_pending
    have hnodup : before.guarded.pending.drain.Nodup := by
      refine List.Pairwise.imp ?_ hpairwise
      rintro task _ hlt rfl
      exact hlt.asymm hlt
    have hsub : before.guarded.pending.drain.filter (fun task => task.id ∈ last.guarded.pending.ids) ⊆
        last.guarded.pending.drain := by
      intro task hm
      obtain ⟨hm, hid⟩ := List.mem_filter.1 hm
      exact last.guarded.pending.perm_drain.mem_iff.2
        (mem_of_mem_ids hs hr hb (before.guarded.pending.perm_drain.mem_iff.1 hm)
          (of_decide_eq_true hid))
    -- two ascending lists of the same tasks are the same list
    obtain ⟨tasks, hperm, hsublist⟩ := List.subperm_of_subset (hnodup.filter _) hsub
    have hlast := Queue.pairwise_drain (balanced_of_start hs hr).nodup_pending
    rw [← Task.eq_of_pairwise_of_perm (hlast.sublist hsublist) (hpairwise.filter _) hperm]
    exact hsublist

/-- What a run yields when all its calls are over. -/
theorem yields_of_schedules (hs : Executor.start config telemetry clock = .ok start)
    (hr : start.Reachable e) (hx : e.access = .available) (ht : e.guarded.terminating = false)
    (hd : ((bookings calls).map Task.deadline).Nodup) (h : e.Schedules calls last)
    (hover : AreOver calls last) : e.Yields calls last := by
  obtain ⟨placed, refused, hstands⟩ := standing_of_schedules hs hr hx ht h
  have hlast := hr.trans h.reachable
  have hcap := capacity_of_start hs hr
  have hplaced := hstands.length_placed hover hcap (capacity_of_start hs hlast)
  have hcounted :=
    hstands.counted hover (confirmed_of_start hs hr) (confirmed_of_start hs hlast)
  refine ⟨?_, hstands.failed hover hcap (capacity_of_start hs hlast), ?_, hplaced ▸ hcounted,
    fun hmax => ?_⟩
  · rw [hstands.brings.accepted, List.length_append, List.length_map, hplaced, Nat.add_comm]
  · rw [hstands.brings.size_eq, hplaced, Nat.add_comm]
  · exact hstands.drained hover hcap hmax (balanced_of_start hs hr) (balanced_of_start hs hlast) hd

/-- **Scheduling in any order.** In a state in which the executor can be reached and is not to end,
any number of threads schedule tasks, each its own ones: at instants of which no two are the same,
or after delays that lead beyond the end of the clock. The worker takes up no task meanwhile.
Wherever such a run is, the steps of the threads bring their calls to an end. Then the calls tell,
together with the state in which the run began, how many tasks have been added and counted, how many
are pending and which errors there are. If there is no limit, they also tell the order of what is
pending, in which it is run or canceled later: by deadline, and at one deadline with what was
pending before coming first. So two runs in which each thread makes the same calls agree, in
whatever order their steps were made. -/
theorem schedules_in_any_order (hs : Executor.start config telemetry clock = .ok start)
    (hr : start.Reachable e) (hx : e.access = .available) (ht : e.guarded.terminating = false)
    (hd : ((bookings calls).map Task.deadline).Nodup) :
    (∀ made before, e.Schedules made before → ∃ (ts : List ThreadId) (last : Executor),
      before.moves? (ts.map .step) = some last ∧ e.Schedules made last ∧ AreOver made last) ∧
    (∀ made last, e.Schedules made last → AreOver made last →
      (∀ t, callsOf t made = callsOf t calls) → e.Yields calls last ∧ start.KeepsOrder last) ∧
    ∀ made last made' last', e.Schedules made last → AreOver made last →
      e.Schedules made' last' → AreOver made' last' →
      (∀ t, callsOf t made = callsOf t calls) → (∀ t, callsOf t made' = callsOf t calls) →
      last.Agrees last' := by
  have yields : ∀ made last, e.Schedules made last → AreOver made last →
      (∀ t, callsOf t made = callsOf t calls) → e.Yields calls last := by
    intro made last h hover hsame
    have hp := perm_of_callsOf hsame
    have hbookings : (bookings made).Perm (bookings calls) := hp.filterMap _
    have hmade := (hbookings.map Task.deadline).nodup_iff.2 hd
    exact (yields_of_schedules hs hr hx ht hmade h hover).of_perm hp hmade
  refine ⟨fun made before h => h.exists_over hs hr hx ht, ?_, ?_⟩
  · intro made last h hover hsame
    exact ⟨yields made last h hover hsame, keepsOrder_of_start hs (hr.trans h.reachable)⟩
  · intro made last made' last' h hover h' hover' hsame hsame'
    refine (yields made last h hover hsame).agrees (yields made' last' h' hover' hsame') ?_
    rw [config_of_start hs (hr.trans h.reachable), config_of_start hs hr]

end Runs

/-- Two callers make their tasks before either has offered one, or the second one calls first; the
first one has also asked for a delay that overflows. The tasks have other numbers each time. -/
theorem schedules_in_any_order_two_callers :
    ∃ last last' : Executor, last.guarded.pending.ids = [⟨2⟩, ⟨1⟩] ∧
      last'.guarded.pending.ids = [⟨1⟩, ⟨2⟩] ∧
      last.guarded.pending.drain.map Task.label = ["soon", "late"] ∧ last.Agrees last' ∧
      KeepsOrder (initial {} (.kept {}) ⟨0⟩) last ∧
      last.failures = [.delayOverflows ⟨0xffffffffffffffff, 0, by decide⟩] ∧
      last.snapshot.scheduled = 2 := by
  let never : Spec := { label := "never", due := .delay ⟨0xffffffffffffffff, 0, by decide⟩ }
  let late : Spec := { label := "late", due := .instant ⟨2000⟩ }
  let soon : Spec := { label := "soon", due := .instant ⟨1000⟩ }
  let first : ThreadId := .caller 0
  let second : ThreadId := .caller 1
  have hfailed : Schedules (initial {} (.kept {}) ⟨0⟩) [(first, never)] _ :=
    .begins .start (@Calls.caller _ 0 (.schedule never) _ rfl) fun length h => by cases h; rfl
  obtain ⟨last, hlast, hover, hids, hlabels, hfailures, hcount⟩ : ∃ last,
      (initial {} (.kept {}) ⟨0⟩).Schedules [(first, never), (first, late), (second, soon)] last ∧
      AreOver [(first, never), (first, late), (second, soon)] last ∧
      last.guarded.pending.ids = [⟨2⟩, ⟨1⟩] ∧
      last.guarded.pending.drain.map Task.label = ["soon", "late"] ∧
      last.failures = [.delayOverflows ⟨0xffffffffffffffff, 0, by decide⟩] ∧
      last.snapshot.scheduled = 2 := by
    have hmade := (hfailed.begins (@Calls.caller _ 0 (.schedule late) _ rfl) nofun).begins
      (@Calls.caller _ 1 (.schedule soon) _ rfl) nofun
    refine ⟨_, ((((hmade.goes second ?_ ?_ ?_).goes first ?_ ?_ ?_).goes second ?_ ?_ ?_).goes
      second ?_ ?_ ?_).goes first ?_ ?_ ?_, ?_⟩
    all_goals decide +kernel
  obtain ⟨last', hlast', hover', hids'⟩ : ∃ last,
      (initial {} (.kept {}) ⟨0⟩).Schedules [(first, never), (second, soon), (first, late)] last ∧
      AreOver [(first, never), (second, soon), (first, late)] last ∧
      last.guarded.pending.ids = [⟨1⟩, ⟨2⟩] := by
    have hmade := hfailed.begins (@Calls.caller _ 1 (.schedule soon) _ rfl) nofun
    have hadded : Schedules _ [(first, never), (second, soon)] _ :=
      ((hmade.goes second (by decide +kernel) (by decide +kernel) (by decide +kernel)).goes second
        (by decide +kernel) (by decide +kernel) (by decide +kernel)).goes second
          (by decide +kernel) (by decide +kernel) (by decide +kernel)
    have hboth := hadded.begins (@Calls.caller _ 0 (.schedule late) _
      (Option.some_get (by decide +kernel)).symm) nofun
    refine ⟨_, (hboth.goes first ?_ ?_ ?_).goes first ?_ ?_ ?_, ?_⟩
    all_goals decide +kernel
  have hs : Executor.start {} (.kept {}) ⟨0⟩ = .ok _ := rfl
  have hd : ((bookings [(first, never), (first, late), (second, soon)]).map
      Task.deadline).Nodup := by decide
  have hsame : ∀ t, callsOf t [(first, never), (second, soon), (first, late)] =
      callsOf t [(first, never), (first, late), (second, soon)] := by
    intro t
    simp only [callsOf_cons]
    by_cases hfirst : first = t
    · have hsecond : second ≠ t := hfirst ▸ by decide
      simp only [if_pos hfirst, if_neg hsecond]
    · simp only [if_neg hfirst]
  obtain ⟨-, hyields, hagree⟩ := schedules_in_any_order hs .refl rfl rfl hd
  obtain ⟨-, hkeeps⟩ := hyields _ last hlast hover fun _ => rfl
  exact ⟨last, last', hids, hids', hlabels,
    hagree _ last _ last' hlast hover hlast' hover' (fun _ => rfl) hsame, hkeeps, hfailures, hcount⟩

end Executor

end Deferred
