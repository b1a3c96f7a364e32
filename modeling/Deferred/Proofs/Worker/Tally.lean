import Deferred.Worker.Routine
import Deferred.Proofs.Queue.Contents
import Mathlib.Algebra.Order.Group.Multiset
import Mathlib.Tactic.Abel

/-!
# What an action does with the tasks

An action that works on the guarded state may push tasks, clear the queue, have the worker end, and
panic. A tally keeps what has become of the tasks; every task that was pending before or has been
accepted since is then found again, and the events that can be seen show no more and no less.

* `Tally` says which tasks were accepted, cleared and run, and which panics ended actions;
  `Workplace.tally` reads it off a routine.
* `Tally.Balances` is the conservation of the tasks as a multiset.
* `Workplace.effect_perform`: an action keeps the balance, and leaves the handler and the counters
  alone.
-/

namespace Deferred

/-! ## Tallies -/

/-- What has become of the tasks over a stretch of the worker's loop. -/
@[ext]
structure Tally where
  /-- The tasks that the queue has accepted. -/
  accepted : List (Task Routine) := []
  /-- The tasks that were cleared out of the queue. -/
  cleared : List (Task Routine) := []
  /-- The tasks whose actions were begun. -/
  ran : List (Task Routine) := []
  /-- The panics that ended actions. -/
  panics : List Payload := []

namespace Tally

instance : Append Tally where
  append s t :=
    { accepted := s.accepted ++ t.accepted
      cleared := s.cleared ++ t.cleared
      ran := s.ran ++ t.ran
      panics := s.panics ++ t.panics }

variable {s t : Tally} {before between after : List (Task Routine)}

@[simp] theorem accepted_append : (s ++ t).accepted = s.accepted ++ t.accepted := rfl
@[simp] theorem cleared_append : (s ++ t).cleared = s.cleared ++ t.cleared := rfl
@[simp] theorem ran_append : (s ++ t).ran = s.ran ++ t.ran := rfl
@[simp] theorem panics_append : (s ++ t).panics = s.panics ++ t.panics := rfl

@[simp] theorem append_nil (t : Tally) : t ++ ({} : Tally) = t :=
  Tally.ext (List.append_nil _) (List.append_nil _) (List.append_nil _) (List.append_nil _)

/-- The tasks that were pending before or have been accepted are those that were run, those that
were cleared and those that are pending after, each as often. -/
def Balances (t : Tally) (before after : List (Task Routine)) : Prop :=
  (before : Multiset (Task Routine)) + t.accepted = t.ran + t.cleared + after

theorem balances_nil (tasks : List (Task Routine)) : ({} : Tally).Balances tasks tasks := by
  simp [Balances]

theorem Balances.append (hs : s.Balances before between) (ht : t.Balances between after) :
    (s ++ t).Balances before after := by
  unfold Balances at *
  simp only [accepted_append, cleared_append, ran_append, ← Multiset.coe_add]
  calc (before : Multiset (Task Routine)) + (s.accepted + t.accepted)
      = before + s.accepted + t.accepted := (add_assoc _ _ _).symm
    _ = s.ran + s.cleared + (between + t.accepted) := by rw [hs, add_assoc]
    _ = s.ran + t.ran + (s.cleared + t.cleared) + after := by
        rw [ht]
        abel

end Tally

/-! ## What can be seen of a tally -/

namespace WorkEvent

/-- The task that was begun. -/
def ran? : WorkEvent → Option String
  | ran label => some label
  | _ => none

/-- The task that was accepted. -/
def pushed? : WorkEvent → Option String
  | pushed label => some label
  | _ => none

/-- How many tasks were cleared. -/
def cleared? : WorkEvent → Option Nat
  | cleared tasks => some tasks
  | _ => none

end WorkEvent

/-- The events, the latest first, show the tasks that were begun and accepted, in that order, and
how many were cleared. -/
structure Tally.Seen (t : Tally) (events : List WorkEvent) : Prop where
  ran : events.reverse.filterMap WorkEvent.ran? = t.ran.map (·.label)
  accepted : events.reverse.filterMap WorkEvent.pushed? = t.accepted.map (·.label)
  cleared : (events.filterMap WorkEvent.cleared?).sum = t.cleared.length

theorem Tally.Seen.append {s t : Tally} {events later : List WorkEvent} (hs : s.Seen events)
    (ht : t.Seen later) : (s ++ t).Seen (later ++ events) where
  ran := by simp [hs.ran, ht.ran]
  accepted := by simp [hs.accepted, ht.accepted]
  cleared := by simp [hs.cleared, ht.cleared, Nat.add_comm]

namespace Workplace

variable {w mid after : Workplace} {s t : Tally} {label : String} {deadline : Instant}
variable {routine : Routine}

/-! ## What an action does -/

/-- The task that a push makes. -/
def made (w : Workplace) (label : String) (deadline : Instant) (routine : Routine) :
    Task Routine :=
  { id := ⟨w.nextId⟩, label, due := .instant deadline, deadline, action := routine }

/-- What becomes of tasks while a routine is carried out. -/
def tally (w : Workplace) : Routine → Tally
  | .done => {}
  | .push label deadline routine next =>
    match w.push label deadline routine with
    | (pushed, .ok _) =>
      { accepted := [w.made label deadline routine] } ++ (pushed.note (.pushed label)).tally next
    | (pushed, .error e) => (pushed.note (.rejected label e)).tally next
  | .length next => (w.note (.length w.guarded.pending.size)).tally next
  | .clear next =>
    let (taken, guarded) := w.guarded.takeAll
    { cleared := taken.tasks } ++ ({ w with guarded }.note (.cleared taken.size)).tally next
  | .terminate next => { w with guarded := w.guarded.terminate }.tally next
  | .panic payload _ => { panics := [payload] }

/-- The events between two states show the tally. -/
def Shows (w : Workplace) (t : Tally) (after : Workplace) : Prop :=
  ∃ events, after.events = events ++ w.events ∧ t.Seen events

theorem Shows.trans (hs : w.Shows s mid) (ht : mid.Shows t after) : w.Shows (s ++ t) after := by
  obtain ⟨events, he, hse⟩ := hs
  obtain ⟨later, hl, htl⟩ := ht
  exact ⟨later ++ events, by rw [hl, he, List.append_assoc], hse.append htl⟩

/-- A line of the log shows nothing of the tasks. -/
theorem shows_log (w : Workplace) (line : LogLine) : w.Shows {} (w.log line) :=
  ⟨[.logged line], rfl, rfl, rfl, rfl⟩

/-- What a stretch of an action may do. -/
structure Effect (w : Workplace) (t : Tally) (after : Workplace) : Prop where
  balanced : t.Balances w.guarded.pending.tasks after.guarded.pending.tasks
  seen : w.Shows t after
  handler : after.handler = w.handler
  metrics : after.metrics = w.metrics
  workerPanicked : after.guarded.workerPanicked = w.guarded.workerPanicked
  terminating : w.guarded.terminating = true → after.guarded.terminating = true

theorem Effect.trans (hs : w.Effect s mid) (ht : mid.Effect t after) : w.Effect (s ++ t) after where
  balanced := hs.balanced.append ht.balanced
  seen := hs.seen.trans ht.seen
  handler := ht.handler.trans hs.handler
  metrics := ht.metrics.trans hs.metrics
  workerPanicked := ht.workerPanicked.trans hs.workerPanicked
  terminating h := ht.terminating (hs.terminating h)

/-- An accepted task is one more in the queue. -/
theorem push_ok {u : Unit} (h : w.push label deadline routine = (after, .ok u)) :
    ∃ pending, w.guarded.pending.push (w.made label deadline routine) = .ok pending ∧
      after = { w with nextId := w.nextId + 1, guarded := { w.guarded with pending } } := by
  unfold push at h
  simp only at h
  split at h
  next pending hp => exact ⟨pending, hp, by simpa using h.symm⟩
  · simp at h

/-- A refused task has only used up its number. -/
theorem push_error {e : Error} (h : w.push label deadline routine = (after, .error e)) :
    after = { w with nextId := w.nextId + 1 } := by
  unfold push at h
  simp only at h
  split at h
  · simp at h
  · simpa using (congrArg Prod.fst h).symm

theorem effect_push_ok {u : Unit} (h : w.push label deadline routine = (after, .ok u)) :
    w.Effect { accepted := [w.made label deadline routine] } (after.note (.pushed label)) := by
  obtain ⟨pending, hp, rfl⟩ := push_ok h
  refine ⟨?_, ⟨[.pushed label], rfl, ?_⟩, rfl, rfl, rfl, id⟩
  · have hperm := Multiset.coe_eq_coe.2 (Queue.perm_push hp)
    simp only [Tally.Balances, note, hperm, ← Multiset.singleton_add, ← Multiset.cons_coe,
      Multiset.coe_nil]
    abel
  · exact ⟨rfl, rfl, rfl⟩

theorem effect_push_error {e : Error} (h : w.push label deadline routine = (after, .error e)) :
    w.Effect {} (after.note (.rejected label e)) := by
  rw [push_error h]
  exact ⟨Tally.balances_nil _, ⟨[_], rfl, rfl, rfl, rfl⟩, rfl, rfl, rfl, id⟩

theorem effect_clear (w : Workplace) :
    w.Effect { cleared := w.guarded.pending.tasks }
      ({ w with guarded := w.guarded.takeAll.2 }.note (.cleared w.guarded.pending.size)) := by
  refine ⟨?_, ⟨[_], rfl, rfl, rfl, ?_⟩, rfl, rfl, rfl, id⟩
  · simp [Tally.Balances, note, Guarded.takeAll, Queue.takeAll, Queue.tasks, Queue.empty,
      Heap.toList]
  · simp [WorkEvent.cleared?, Queue.length_tasks]

/-- An action changes nothing but the queue, the books of which it keeps balanced, and the flag that
ends the worker, which it never takes back. -/
theorem effect_perform (w : Workplace) (routine : Routine) :
    w.Effect (w.tally routine) (w.perform routine).1 := by
  induction routine generalizing w with
  | done => exact ⟨Tally.balances_nil _, ⟨[], rfl, rfl, rfl, rfl⟩, rfl, rfl, rfl, id⟩
  | push label deadline routine next _ ih =>
    simp only [perform, tally]
    cases h : w.push label deadline routine with
    | mk pushed result =>
      cases result with
      | ok => exact (effect_push_ok h).trans (ih _)
      | error e => exact (effect_push_error h).trans (ih _)
  | length next ih =>
    have hnote : w.Effect {} (w.note (.length w.guarded.pending.size)) :=
      ⟨Tally.balances_nil _, ⟨[_], rfl, rfl, rfl, rfl⟩, rfl, rfl, rfl, id⟩
    exact hnote.trans (ih _)
  | clear next ih => exact (effect_clear w).trans (ih _)
  | terminate next ih =>
    have hset : w.Effect {} { w with guarded := w.guarded.terminate } :=
      ⟨Tally.balances_nil _, ⟨[], rfl, rfl, rfl, rfl⟩, rfl, rfl, rfl, fun _ => rfl⟩
    exact hset.trans (ih _)
  | panic payload next =>
    exact ⟨Tally.balances_nil _, ⟨[], rfl, rfl, rfl, rfl⟩, rfl, rfl, rfl, id⟩

/-- An action runs no tasks itself. -/
theorem ran_tally (w : Workplace) (routine : Routine) : (w.tally routine).ran = [] := by
  induction routine generalizing w with
  | done | panic => rfl
  | push label deadline routine next _ ih =>
    simp only [tally]
    cases w.push label deadline routine with
    | mk pushed result => cases result <;> exact ih _
  | length next ih | clear next ih | terminate next ih => exact ih _

/-- The only panic of an action is the one that ends it. -/
theorem panics_tally (w : Workplace) (routine : Routine) :
    (w.tally routine).panics = (w.perform routine).2.toList := by
  induction routine generalizing w with
  | done | panic => rfl
  | push label deadline routine next _ ih =>
    simp only [perform, tally]
    cases w.push label deadline routine with
    | mk pushed result => cases result <;> exact ih _
  | length next ih | clear next ih | terminate next ih => exact ih _

end Workplace

end Deferred
