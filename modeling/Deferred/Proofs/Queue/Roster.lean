import Deferred.Proofs.Queue.Order
import Mathlib.Data.List.Sort

/-!
# Queues as sorted lists

What a queue stands for, told without its heap: the list of its tasks in the order in which they are
run, and its limit. As long as all tasks have numbers of their own, every operation does to a queue
what it does to that list.

* `Task.Earlier` is the order of the list: by deadline, and by number at one deadline.
* `Roster` is a list of tasks with a limit, and has the operations of a queue.
* `Queue.roster` is the roster that a queue stands for: what draining it gives, and its limit.
* `Queue.pairwise_drain`, `drain_push`: draining is strictly ascending, and a push puts one task in.
* `roster_push`, `roster_pop?`, `roster_popDue?`: the operations on either side agree.
* `drain_offer`: what a queue has taken of the tasks that it was offered is drained in ascending
  order.
-/

namespace Deferred

namespace Task

variable {α : Type} {a b c : Task α}

/-- The order in which tasks are run: by deadline, and by number at one deadline. -/
def Earlier (a b : Task α) : Prop :=
  a.deadline < b.deadline ∨ a.deadline = b.deadline ∧ a.id.number < b.id.number

instance (a b : Task α) : Decidable (a.Earlier b) := inferInstanceAs (Decidable (_ ∨ _))

theorem earlier_iff_before : a.Earlier b ↔ a.before b = true := before_iff_lt_or_eq.symm

theorem Earlier.trans (hab : a.Earlier b) (hbc : b.Earlier c) : a.Earlier c :=
  earlier_iff_before.2 (before_trans (earlier_iff_before.1 hab) (earlier_iff_before.1 hbc))

theorem Earlier.asymm (hab : a.Earlier b) : ¬ b.Earlier a := fun hba => by
  have hfalse := before_asymm (earlier_iff_before.1 hab)
  rw [earlier_iff_before.1 hba] at hfalse
  cases hfalse

/-- Of two tasks with different numbers, one is the earlier. -/
theorem earlier_of_not_earlier (h : ¬ a.Earlier b) (hne : a.id ≠ b.id) : b.Earlier a :=
  earlier_iff_before.2
    (before_of_not_before (Bool.eq_false_iff.2 (mt earlier_iff_before.2 h)) hne)

/-- Putting a task with a number of its own into an ascending list keeps the list ascending. -/
theorem pairwise_orderedInsert {tasks : List (Task α)} (hs : tasks.Pairwise Earlier)
    (hne : ∀ u ∈ tasks, a.id ≠ u.id) : (tasks.orderedInsert Earlier a).Pairwise Earlier := by
  induction tasks with
  | nil => exact List.pairwise_singleton _ _
  | cons u rest ih =>
    obtain ⟨hu, hrest⟩ := List.pairwise_cons.1 hs
    rw [List.orderedInsert_cons]
    split
    next hau =>
      refine List.pairwise_cons.2 ⟨fun v hv => ?_, hs⟩
      rcases List.mem_cons.1 hv with rfl | hv
      · exact hau
      · exact hau.trans (hu v hv)
    next hau =>
      have hua := earlier_of_not_earlier hau (hne u (List.mem_cons_self ..))
      refine List.pairwise_cons.2 ⟨fun v hv => ?_, ?_⟩
      · rcases (List.mem_orderedInsert Earlier).1 hv with rfl | hv
        · exact hua
        · exact hu v hv
      · exact ih hrest fun v hv => hne v (List.mem_cons_of_mem u hv)

/-- Two ascending lists of the same tasks are the same list. -/
theorem eq_of_pairwise_of_perm {tasks others : List (Task α)} (ht : tasks.Pairwise Earlier)
    (ho : others.Pairwise Earlier) (hp : tasks.Perm others) : tasks = others :=
  hp.eq_of_pairwise (fun _ _ _ _ hab hba => absurd hba hab.asymm) ht ho

end Task

/-! ## Rosters -/

/-- Tasks in a list, and how many there may be. -/
structure Roster (α : Type) where
  tasks : List (Task α) := []
  limit : Option Nat := none

/-- What can be asked about a queue without changing it. -/
structure View where
  size : Nat
  isEmpty : Bool
  nextDeadline? : Option Instant
  firstId? : Option TaskId
  deriving DecidableEq

namespace Roster

variable {α : Type}

/-- Puts a task into its place, unless the list has reached its limit. -/
def push (r : Roster α) (t : Task α) : Except Error (Roster α) :=
  let grown : Roster α := { r with tasks := r.tasks.orderedInsert Task.Earlier t }
  match r.limit with
  | some capacity => if capacity ≤ r.tasks.length then .error (.queueFull capacity) else .ok grown
  | none => .ok grown

/-- The first task, and the list without it. -/
def pop? (r : Roster α) : Option (Task α × Roster α) :=
  match r.tasks with
  | [] => none
  | t :: rest => some (t, { r with tasks := rest })

/-- The first task and the list without it, if its deadline has come. -/
def popDue? (r : Roster α) (now : Instant) : Option (Task α × Roster α) :=
  match r.tasks with
  | [] => none
  | t :: rest => if t.deadline ≤ now then some (t, { r with tasks := rest }) else none

/-- The whole list on its own, and an empty one; both have the limit. -/
def takeAll (r : Roster α) : Roster α × Roster α := (r, { r with tasks := [] })

/-- What can be asked about a list. -/
def view (r : Roster α) : View where
  size := r.tasks.length
  isEmpty := r.tasks.isEmpty
  nextDeadline? := r.tasks.head?.map (·.deadline)
  firstId? := r.tasks.head?.map (·.id)

end Roster

/-! ## What draining gives -/

namespace Queue

variable {α : Type} {q rest grown : Queue α} {t : Task α}

theorem drain_of_pop (h : q.pop? = some (t, rest)) : q.drain = t :: rest.drain := by
  rw [drain, size_pop h, popMany, h]
  rfl

theorem drain_of_pop_none (h : q.pop? = none) : q.drain = [] :=
  List.Perm.eq_nil (tasks_eq_nil_of_pop h ▸ q.perm_drain)

theorem length_drain (q : Queue α) : q.drain.length = q.size := by
  rw [q.perm_drain.length_eq, length_tasks]

/-- The task on top of the heap is the first one that draining gives. -/
theorem first?_eq_head? (q : Queue α) : q.first? = q.drain.head? := by
  cases hp : q.pop? with
  | none =>
    have hempty := isEmpty_iff.2 (tasks_eq_nil_of_pop hp)
    rw [drain_of_pop_none hp]
    exact Option.isNone_iff_eq_none.1 hempty
  | some popped =>
    obtain ⟨t, rest⟩ := popped
    obtain ⟨left, right, hq, -⟩ := heap_of_pop hp
    rw [drain_of_pop hp, first?, hq]
    rfl

/-- Draining gives tasks with numbers of their own in strictly ascending order. -/
theorem pairwise_drain (hn : (q.tasks.map Task.id).Nodup) : q.drain.Pairwise Task.Earlier := by
  induction hs : q.size generalizing q with
  | zero =>
    rw [List.length_eq_zero_iff.1 (q.length_drain.trans hs)]
    exact List.Pairwise.nil
  | succ n ih =>
    cases hp : q.pop? with
    | none =>
      rw [drain_of_pop_none hp]
      exact List.Pairwise.nil
    | some popped =>
      obtain ⟨t, rest⟩ := popped
      obtain ⟨ht, hrest⟩ := List.nodup_cons.1 (((perm_pop hp).map Task.id).nodup_iff.1 hn)
      have hsize := size_pop hp
      rw [drain_of_pop hp]
      refine List.pairwise_cons.2 ⟨fun u hu => ?_, ih hrest (by omega)⟩
      have hu := rest.perm_drain.mem_iff.1 hu
      have hne : u.id ≠ t.id := fun heq => ht (heq ▸ List.mem_map_of_mem hu)
      exact Task.earlier_iff_before.2 (Task.before_of_not_before (not_before_of_pop hp u hu) hne)

/-- A push puts one task into its place among those that draining gives. -/
theorem drain_push (h : q.push t = .ok grown) (hn : ((t :: q.tasks).map Task.id).Nodup) :
    grown.drain = q.drain.orderedInsert Task.Earlier t := by
  obtain ⟨ht, hq⟩ := List.nodup_cons.1 hn
  have hgrown := ((perm_push h).map Task.id).nodup_iff.2 hn
  have hfresh : ∀ u ∈ q.drain, t.id ≠ u.id := fun u hu heq =>
    ht (heq ▸ List.mem_map_of_mem (q.perm_drain.mem_iff.1 hu))
  refine Task.eq_of_pairwise_of_perm (pairwise_drain hgrown)
    (Task.pairwise_orderedInsert (pairwise_drain hq) hfresh) ?_
  calc
    List.Perm grown.drain grown.tasks := grown.perm_drain
    List.Perm _ (t :: q.tasks) := perm_push h
    List.Perm _ (t :: q.drain) := q.perm_drain.symm.cons t
    List.Perm _ (q.drain.orderedInsert Task.Earlier t) :=
      (List.perm_orderedInsert Task.Earlier t q.drain).symm

/-! ## The roster that a queue stands for -/

/-- The tasks of a queue as they are drained, and its limit. -/
def roster (q : Queue α) : Roster α := ⟨q.drain, q.limit⟩

/-- What can be asked about a queue. -/
def view (q : Queue α) : View := ⟨q.size, q.isEmpty, q.nextDeadline?, q.firstId?⟩

@[simp] theorem limit_roster (q : Queue α) : q.roster.limit = q.limit := rfl

theorem isEmpty_eq (q : Queue α) : q.isEmpty = q.drain.isEmpty := by
  rw [isEmpty, ← first?, first?_eq_head?]
  cases q.drain <;> rfl

theorem view_eq (q : Queue α) : q.view = q.roster.view := by
  rw [view, Roster.view, roster, isEmpty_eq, nextDeadline?, firstId?, first?_eq_head?, length_drain]

/-- A push does to a queue what it does to the roster, if the task has a number of its own. -/
theorem roster_push (hn : ((t :: q.tasks).map Task.id).Nodup) :
    (q.push t).map roster = q.roster.push t := by
  cases hp : q.push t with
  | error error =>
    obtain ⟨capacity, hl, hc, rfl⟩ := push_eq_error.1 hp
    rw [← q.length_drain] at hc
    simp [Roster.push, roster, hl, hc, Except.map]
  | ok grown =>
    have hroster : grown.roster = ⟨q.drain.orderedInsert Task.Earlier t, q.limit⟩ := by
      rw [roster, drain_push hp hn, limit_of_push hp]
    rw [Except.map, hroster, Roster.push, limit_roster]
    cases hl : q.limit with
    | none => simp [roster, hl]
    | some capacity =>
      have hroom := lt_of_push hp hl
      rw [← q.length_drain] at hroom
      simp [roster, hl, hroom]

theorem roster_pop? (q : Queue α) :
    q.pop?.map (fun popped => (popped.1, popped.2.roster)) = q.roster.pop? := by
  cases hp : q.pop? with
  | none => simp [Roster.pop?, roster, drain_of_pop_none hp]
  | some popped => simp [Roster.pop?, roster, drain_of_pop hp, limit_of_pop hp]

theorem roster_popDue? (q : Queue α) (now : Instant) :
    (q.popDue? now).map (fun popped => (popped.1, popped.2.roster)) = q.roster.popDue? now := by
  rw [popDue?, first?_eq_head?, Roster.popDue?]
  cases hp : q.pop? with
  | none => simp [roster, drain_of_pop_none hp]
  | some popped =>
    obtain ⟨t, rest⟩ := popped
    simp only [roster, drain_of_pop hp, List.head?_cons, Task.isDue, decide_eq_true_eq]
    split
    · simp [limit_of_pop hp]
    · rfl

/-! ## Many pushes -/

/-- Offers tasks to a queue one after the other; what it refuses is lost. -/
def offer (q : Queue α) : List (Task α) → Queue α
  | [] => q
  | t :: rest =>
    match q.push t with
    | .ok grown => grown.offer rest
    | .error _ => q.offer rest

/-- A queue takes the tasks that it is offered until its limit is reached. -/
theorem perm_offer (q : Queue α) (tasks : List (Task α)) :
    (q.offer tasks).tasks.Perm
      (q.tasks ++ match q.limit with
        | none => tasks
        | some capacity => tasks.take (capacity - q.size)) := by
  induction tasks generalizing q with
  | nil => cases q.limit <;> simp [offer]
  | cons t rest ih =>
    unfold offer
    split
    next grown hp =>
      have hsize := size_push hp
      have hgrown := ih grown
      rw [limit_of_push hp] at hgrown
      refine hgrown.trans (((perm_push hp).append_right _).trans ?_)
      cases hl : q.limit with
      | none => exact List.perm_middle.symm
      | some capacity =>
        have hlt := lt_of_push hp hl
        obtain ⟨room, hroom⟩ : ∃ room, capacity - q.size = room + 1 :=
          ⟨capacity - q.size - 1, by omega⟩
        have hless : capacity - grown.size = room := by omega
        simp only [hroom, hless, List.take_succ_cons]
        exact List.perm_middle.symm
    next error hp =>
      obtain ⟨capacity, hl, hc, -⟩ := push_eq_error.1 hp
      have hq := ih q
      simp only [hl, Nat.sub_eq_zero_of_le hc, List.take_zero] at hq ⊢
      exact hq

/-- Draining a queue that was empty gives the tasks that it was offered, as many as its limit
allows, in strictly ascending order. -/
theorem drain_offer (limit : Option Nat) {tasks : List (Task α)} (hn : (tasks.map Task.id).Nodup) :
    ((empty limit).offer tasks).drain.Pairwise Task.Earlier ∧
      ((empty limit).offer tasks).drain.Perm (tasks.take (limit.getD tasks.length)) := by
  have hp : ((empty limit).offer tasks).tasks.Perm (tasks.take (limit.getD tasks.length)) := by
    have := perm_offer (empty limit) tasks
    cases limit <;> simpa [empty, size, Heap.size, Queue.tasks, Heap.toList] using this
  have hsub : ((tasks.take (limit.getD tasks.length)).map Task.id).Nodup :=
    hn.sublist ((List.take_sublist _ _).map Task.id)
  exact ⟨pairwise_drain ((hp.map Task.id).nodup_iff.2 hsub), (perm_drain _).trans hp⟩

end Queue

end Deferred
