import Deferred.Queue.Workbench
import Deferred.Proofs.Queue.Roster
import Mathlib.Algebra.BigOperators.Group.List.Basic
import Mathlib.Algebra.Order.Group.Multiset
import Mathlib.Logic.Function.Basic
import Mathlib.Tactic.Abel

/-!
# Workbenches as registers of sorted lists

A register is a workbench with sorted lists in the place of its queues. Whatever is done on a
workbench, nobody can tell it from the register: every command has the same reply, and after it
everything that can be asked about any of the queues has the same answer. Iterating over a queue is
popping it again and again.

* `Register` is such a workbench, `Register.perform` what a command does on it.
* `Workbench.register` is the register that a workbench stands for.
* `Workbench.tasks_setQueue_add_le`: what putting a queue under a name does to the tasks.
* `Workbench.IsNumbered`, `isNumbered_perform`: the tasks on a workbench have numbers of their own.
* `register_perform`: a command does the same on a workbench and on its register.
* `queues_are_sorted_lists`: so do any commands on any family of queues.
-/

namespace Deferred

/-- Sorted lists under names, and tasks that are in none of them. -/
structure Register where
  rosters : String → Roster Unit
  /-- The hand, the labels and the next number, on a workbench without queues. -/
  rest : Workbench

namespace Register

/-- Puts a list under a name, in the place of the one before. -/
def setRoster (r : Register) (name : String) (roster : Roster Unit) : Register :=
  { r with rosters := Function.update r.rosters name roster }

/-- Takes what was popped from the list of a name into the hand. -/
def takePopped (r : Register) (name : String) :
    Option (Task Unit × Roster Unit) → Register × Workbench.Reply
  | none => (r, .task none)
  | some (t, roster) => ({ r.setRoster name roster with rest := r.rest.hold t }, .task (some t))

/-- Carries out a command on the list of a name. -/
def perform (r : Register) (name : String) : Workbench.Command → Register × Workbench.Reply
  | .make order =>
    let (task, rest) := r.rest.make order
    ({ r with rest := rest.hold task }, .id task.id)
  | .push order =>
    let (task, rest) := r.rest.fetch order
    match (r.rosters name).push task with
    | .ok roster => ({ r with rest }.setRoster name roster, .ok)
    | .error error => ({ r with rest }, .failed error)
  | .pop => r.takePopped name (r.rosters name).pop?
  | .popDue now => r.takePopped name ((r.rosters name).popDue? now)
  | .takeAll into =>
    let (taken, left) := (r.rosters name).takeAll
    ((r.setRoster name left).setRoster into taken, .count taken.tasks.length)
  | .drain =>
    let (taken, left) := (r.rosters name).takeAll
    (r.setRoster name left, .drained taken.tasks)
  | .compare first second =>
    match r.rest.ids.lookup first, r.rest.ids.lookup second with
    | some a, some b => (r, .compared (compare a.number b.number))
    | _, _ => (r, .notInHand)
  | .handle label handling =>
    match r.rest.hand.lookup label with
    | some task =>
      let (rest, reply) := r.rest.handle task handling
      ({ r with rest }, reply)
    | none => (r, .notInHand)

/-- The register after commands on lists of certain names. -/
def after (r : Register) (commands : List (String × Workbench.Command)) : Register :=
  commands.foldl (fun r command => (r.perform command.1 command.2).1) r

/-- Empty lists under names, each with a limit or without. -/
def ofLimits (limits : List (String × Option Nat)) : Register where
  rosters name := { tasks := [], limit := (limits.lookup name).join }
  rest := { queues := [] }

/-- What is replied to commands on lists of certain names, and what can be seen of all the lists
after each of them. -/
def history (r : Register) :
    List (String × Workbench.Command) → List (Workbench.Reply × (String → View))
  | [] => []
  | (name, command) :: later =>
    ((r.perform name command).2, fun n => ((r.perform name command).1.rosters n).view) ::
      (r.perform name command).1.history later

end Register

namespace Workbench

variable {w : Workbench} {name : String}

/-- What is replied to commands on queues of certain names, and what can be seen of all the queues
after each of them. -/
def history (w : Workbench) : List (String × Command) → List (Reply × (String → View))
  | [] => []
  | (name, command) :: later =>
    ((w.perform name command).2, fun n => ((w.perform name command).1.queue n).view) ::
      (w.perform name command).1.history later

/-- The workbench after commands on queues of certain names. -/
def after (w : Workbench) (commands : List (String × Command)) : Workbench :=
  commands.foldl (fun w command => (w.perform command.1 command.2).1) w

/-- A workbench without its queues. -/
def cleared (w : Workbench) : Workbench := { w with queues := [] }

/-- The register that a workbench stands for. -/
def register (w : Workbench) : Register := ⟨fun name => (w.queue name).roster, w.cleared⟩

/-- A workbench with empty queues under names, each with a limit or without. -/
def ofLimits (limits : List (String × Option Nat)) : Workbench where
  queues := limits.map fun entry => (entry.1, .empty entry.2)

/-! ## The tasks on a workbench -/

section Total

variable {β : Type} (f : β → Multiset (Task Unit)) {entries : List (String × β)}

/-- The tasks of all entries of a list. -/
def total (entries : List (String × β)) : Multiset (Task Unit) :=
  (entries.map fun entry => f entry.2).sum

theorem total_filter_le (p : String × β → Bool) (entries : List (String × β)) :
    total f (entries.filter p) ≤ total f entries := by
  induction entries with
  | nil => exact le_refl _
  | cons entry later ih =>
    rw [List.filter_cons]
    split
    · exact add_le_add_right ih (f entry.2)
    · exact ih.trans (Multiset.le_add_left ..)

/-- What a name stands for and the other entries have no more than all entries. -/
theorem add_total_le_of_lookup {b : β} (h : entries.lookup name = some b) :
    f b + total f (entries.filter (·.1 ≠ name)) ≤ total f entries := by
  induction entries with
  | nil => cases h
  | cons entry later ih =>
    obtain ⟨n, c⟩ := entry
    by_cases hn : name = n
    · subst hn
      obtain rfl : c = b := by simpa [List.lookup_cons] using h
      rw [List.filter_cons_of_neg (by simp)]
      exact add_le_add_right (total_filter_le f _ later) (f c)
    · rw [List.lookup_cons, beq_false_of_ne hn] at h
      rw [List.filter_cons_of_pos (by simpa using Ne.symm hn)]
      calc
        f b + (f c + total f (later.filter (·.1 ≠ name)))
          = f c + (f b + total f (later.filter (·.1 ≠ name))) := add_left_comm ..
        _ ≤ f c + total f later := add_le_add_right (ih h) (f c)

end Total

/-- All tasks on the workbench, those in the queues and those in the hand. -/
def tasks (w : Workbench) : Multiset (Task Unit) :=
  total (fun q : Queue Unit => q.tasks) w.queues + total (fun t => {t}) w.hand

/-- Putting a queue under a name takes the tasks of the old queue off the workbench, and adds those
of the new one. -/
theorem tasks_setQueue_add_le (w : Workbench) (name : String) (q : Queue Unit) :
    (w.setQueue name q).tasks + ((w.queue name).tasks : Multiset (Task Unit)) ≤
      q.tasks + w.tasks := by
  have hqueues : ((w.queue name).tasks : Multiset (Task Unit)) +
      total (fun q : Queue Unit => q.tasks) (w.queues.filter (·.1 ≠ name)) ≤
        total (fun q : Queue Unit => q.tasks) w.queues := by
    cases hl : w.queues.lookup name with
    | none =>
      have hdefault : (w.queue name).tasks = [] := by rw [queue, hl]; rfl
      rw [hdefault, Multiset.coe_nil, zero_add]
      exact total_filter_le _ _ _
    | some old =>
      have hold : w.queue name = old := by rw [queue, hl]; rfl
      rw [hold]
      exact add_total_le_of_lookup _ hl
  calc
    (w.setQueue name q).tasks + ((w.queue name).tasks : Multiset (Task Unit))
      = q.tasks + (((w.queue name).tasks +
          total (fun q : Queue Unit => q.tasks) (w.queues.filter (·.1 ≠ name))) +
            total (fun t => {t}) w.hand) := by
        simp only [tasks, setQueue, total, List.map_cons, List.sum_cons]
        abel
    _ ≤ q.tasks + w.tasks := add_le_add_right (add_le_add_left hqueues _) _

theorem tasks_queue_le (w : Workbench) (name : String) :
    ((w.queue name).tasks : Multiset (Task Unit)) ≤ w.tasks := by
  have h := tasks_setQueue_add_le w name (.empty none)
  exact (Multiset.le_add_left ..).trans (h.trans_eq (zero_add _))

theorem tasks_hold_le (w : Workbench) (t : Task Unit) : (w.hold t).tasks ≤ t ::ₘ w.tasks := by
  calc
    (w.hold t).tasks
      = {t} + (total (fun q : Queue Unit => q.tasks) w.queues +
          total (fun t => {t}) (w.hand.filter (·.1 ≠ t.label))) := by
        simp only [tasks, hold, total, List.map_cons, List.sum_cons]
        abel
    _ ≤ {t} + w.tasks := add_le_add_right (add_le_add_right (total_filter_le _ _ _) _) _

theorem tasks_release_le (w : Workbench) (label : String) : (w.release label).tasks ≤ w.tasks :=
  add_le_add_right (total_filter_le _ _ _) _

/-- The task that a label stands for in the hand leaves the workbench with the label. -/
theorem cons_tasks_release_le {label : String} {t : Task Unit} (h : w.hand.lookup label = some t) :
    t ::ₘ (w.release label).tasks ≤ w.tasks := by
  calc
    t ::ₘ (w.release label).tasks
      = total (fun q : Queue Unit => q.tasks) w.queues +
          ({t} + total (fun t => {t}) (w.hand.filter (·.1 ≠ label))) := by
        rw [← Multiset.singleton_add]
        exact add_left_comm ..
    _ ≤ w.tasks := add_le_add_right (add_total_le_of_lookup _ h) _

/-! ## Tasks with numbers of their own -/

/-- Tasks with different numbers, all given out already. -/
structure Numbered (tasks : Multiset (Task Unit)) (nextId : Nat) : Prop where
  distinct : (tasks.map Task.id).Nodup
  below : ∀ t ∈ tasks, t.id.number < nextId

namespace Numbered

variable {tasks fewer : Multiset (Task Unit)} {nextId : Nat} {t : Task Unit}

theorem mono (h : Numbered tasks nextId) (hle : fewer ≤ tasks) : Numbered fewer nextId where
  distinct := Multiset.nodup_of_le (Multiset.map_le_map hle) h.distinct
  below u hu := h.below u (Multiset.mem_of_le hle hu)

/-- A task with the next number can be added. -/
theorem cons (h : Numbered tasks nextId) (ht : t.id = ⟨nextId⟩) :
    Numbered (t ::ₘ tasks) (nextId + 1) where
  distinct := by
    rw [Multiset.map_cons, Multiset.nodup_cons]
    refine ⟨fun hmem => ?_, h.distinct⟩
    obtain ⟨u, hu, hid⟩ := Multiset.mem_map.1 hmem
    have hlt := h.below u hu
    rw [hid, ht] at hlt
    exact Nat.lt_irrefl _ hlt
  below u hu := by
    rcases Multiset.mem_cons.1 hu with rfl | hu
    · rw [ht]
      exact Nat.lt_succ_self nextId
    · exact Nat.lt_succ_of_lt (h.below u hu)

end Numbered

/-- The tasks on the workbench have numbers of their own. -/
def IsNumbered (w : Workbench) : Prop := Numbered w.tasks w.nextId

theorem isNumbered_ofLimits (limits : List (String × Option Nat)) :
    (ofLimits limits).IsNumbered := by
  have hempty : (ofLimits limits).tasks = 0 := by
    unfold ofLimits tasks total
    induction limits with
    | nil => rfl
    | cons entry later ih =>
      have hentry : ((Queue.empty entry.2 : Queue Unit).tasks : Multiset (Task Unit)) = 0 := rfl
      simpa only [List.map_cons, List.sum_cons, hentry, zero_add] using ih
  constructor
  · rw [hempty]
    exact Multiset.nodup_zero
  · intro t ht
    rw [hempty] at ht
    exact absurd ht (Multiset.notMem_zero t)

/-- A task next to the workbench can be put into a queue. -/
theorem isNumbered_push {t : Task Unit} {grown : Queue Unit}
    (h : Numbered (t ::ₘ w.tasks) w.nextId) (hp : (w.queue name).push t = .ok grown) :
    (w.setQueue name grown).IsNumbered := by
  refine h.mono (le_of_add_le_add_right (a := ((w.queue name).tasks : Multiset (Task Unit))) ?_)
  calc
    (w.setQueue name grown).tasks + ((w.queue name).tasks : Multiset (Task Unit))
      ≤ grown.tasks + w.tasks := tasks_setQueue_add_le w name grown
    _ = t ::ₘ (w.queue name).tasks + w.tasks := by
      rw [Multiset.coe_eq_coe.2 (Queue.perm_push hp), Multiset.cons_coe]
    _ = t ::ₘ w.tasks + (w.queue name).tasks := by
      rw [Multiset.cons_add, Multiset.cons_add, add_comm]

/-- The first task of a queue can be taken into the hand. -/
theorem isNumbered_pop {t : Task Unit} {rest : Queue Unit} (h : w.IsNumbered)
    (hp : (w.queue name).pop? = some (t, rest)) : ((w.setQueue name rest).hold t).IsNumbered := by
  refine h.mono ((tasks_hold_le _ t).trans
    (le_of_add_le_add_right (a := (rest.tasks : Multiset (Task Unit))) ?_))
  calc
    t ::ₘ (w.setQueue name rest).tasks + (rest.tasks : Multiset (Task Unit))
      = (w.setQueue name rest).tasks + (w.queue name).tasks := by
        rw [Multiset.coe_eq_coe.2 (Queue.perm_pop hp), ← Multiset.cons_coe, Multiset.cons_add,
          Multiset.add_cons]
    _ ≤ rest.tasks + w.tasks := tasks_setQueue_add_le w name rest
    _ = w.tasks + rest.tasks := add_comm ..

/-- The tasks of a queue can be moved off the workbench. -/
theorem add_tasks_setQueue_empty_le (w : Workbench) (name : String) (limit : Option Nat) :
    ((w.queue name).tasks : Multiset (Task Unit)) + (w.setQueue name (.empty limit)).tasks ≤
      w.tasks := by
  rw [add_comm]
  exact (tasks_setQueue_add_le w name _).trans_eq (zero_add _)

/-- The task that is fetched has a number of its own, next to the tasks that stay. -/
theorem numbered_fetch (h : w.IsNumbered) (order : Order) :
    Numbered ((w.fetch order).1 ::ₘ (w.fetch order).2.tasks) (w.fetch order).2.nextId := by
  unfold fetch
  split
  next task hl => exact h.mono (cons_tasks_release_le hl)
  next => exact h.cons rfl

theorem isNumbered_takePopped {popped : Option (Task Unit × Queue Unit)} (h : w.IsNumbered)
    (hp : ∀ p ∈ popped, (w.queue name).pop? = some p) :
    (w.takePopped name popped).1.IsNumbered := by
  cases popped with
  | none => exact h
  | some p => exact isNumbered_pop h (hp p rfl)

/-- Whatever is done on a workbench, its tasks keep numbers of their own. -/
theorem isNumbered_perform (h : w.IsNumbered) (name : String) (command : Command) :
    (w.perform name command).1.IsNumbered := by
  cases command with
  | make order =>
    have hmade : Numbered ((w.make order).1 ::ₘ w.tasks) (w.nextId + 1) := h.cons rfl
    exact hmade.mono (tasks_hold_le _ _)
  | push order =>
    have hfetch := numbered_fetch h order
    simp only [perform]
    split
    next grown hp => exact isNumbered_push hfetch hp
    next => exact hfetch.mono (Multiset.le_cons_self ..)
  | pop => exact isNumbered_takePopped h fun p hp => hp
  | popDue now => exact isNumbered_takePopped h fun p hp => Queue.pop_of_popDue hp
  | takeAll into =>
    refine h.mono ?_
    calc
      (w.perform name (.takeAll into)).1.tasks
        ≤ (w.queue name).tasks + (w.setQueue name (.empty (w.queue name).limit)).tasks :=
          (Multiset.le_add_right ..).trans (tasks_setQueue_add_le _ into (w.queue name))
      _ ≤ w.tasks := add_tasks_setQueue_empty_le w name _
  | drain => exact h.mono ((Multiset.le_add_left ..).trans (add_tasks_setQueue_empty_le w name _))
  | compare first second =>
    simp only [perform]
    split <;> exact h
  | handle label handling =>
    simp only [perform]
    split
    next task _ =>
      have hreleased : (w.release task.label).IsNumbered := h.mono (tasks_release_le w task.label)
      cases handling with
      | isDue => exact h
      | isCancelable => exact h
      | describe => exact h
      | run => exact hreleased
      | cancel => exact hreleased
    next => exact h

/-! ## A workbench and its register -/

theorem queue_setQueue_self (w : Workbench) (name : String) (q : Queue Unit) :
    (w.setQueue name q).queue name = q := by
  simp [setQueue, queue]

theorem queue_setQueue_ne (w : Workbench) {n : String} (h : n ≠ name) (q : Queue Unit) :
    (w.setQueue name q).queue n = w.queue n := by
  have hlookup : ∀ queues : List (String × Queue Unit),
      (queues.filter (·.1 ≠ name)).lookup n = queues.lookup n := by
    intro queues
    induction queues with
    | nil => rfl
    | cons entry later ih =>
      obtain ⟨m, p⟩ := entry
      by_cases hm : m = name
      · subst hm
        simpa [List.lookup_cons, beq_false_of_ne h] using ih
      · rw [List.filter_cons_of_pos (by simpa using hm), List.lookup_cons, List.lookup_cons, ih]
  simp only [setQueue, queue, List.lookup_cons, beq_false_of_ne h, hlookup]

theorem register_setQueue (w : Workbench) (name : String) (q : Queue Unit) :
    (w.setQueue name q).register = w.register.setRoster name q.roster := by
  unfold register Register.setRoster
  congr 1
  funext n
  by_cases hn : n = name
  · subst hn
    rw [queue_setQueue_self, Function.update_self]
  · rw [queue_setQueue_ne _ hn, Function.update_of_ne hn]

theorem register_takePopped (w : Workbench) (name : String)
    (popped : Option (Task Unit × Queue Unit)) :
    ((w.takePopped name popped).1.register, (w.takePopped name popped).2) =
      w.register.takePopped name (popped.map fun p => (p.1, p.2.roster)) := by
  cases popped with
  | none => rfl
  | some p =>
    simp only [takePopped, Register.takePopped, Option.map_some, ← register_setQueue]
    rfl

/-- Fetching a task does not touch the queues. -/
theorem register_fetch (w : Workbench) (order : Order) :
    w.register.rest.fetch order = ((w.fetch order).1, (w.fetch order).2.cleared) ∧
      (w.fetch order).2.register = { w.register with rest := (w.fetch order).2.cleared } := by
  have hhand : w.register.rest.hand = w.hand := rfl
  unfold fetch
  rw [hhand]
  split <;> exact ⟨rfl, rfl⟩

/-- A command does the same on a workbench and on its register. -/
theorem register_perform (h : w.IsNumbered) (name : String) (command : Command) :
    ((w.perform name command).1.register, (w.perform name command).2) =
      w.register.perform name command := by
  cases command with
  | make order => rfl
  | push order =>
    obtain ⟨hfetch, hleft⟩ := register_fetch w order
    have hn := numbered_fetch h order
    simp only [perform, Register.perform, hfetch]
    generalize (w.fetch order).1 = task at hn ⊢
    generalize (w.fetch order).2 = left at hn hleft ⊢
    have hsub : ((task :: (left.queue name).tasks).map Task.id).Nodup :=
      Multiset.coe_nodup.1 (hn.mono (Multiset.cons_le_cons task (tasks_queue_le left name))).distinct
    have hqueue : w.register.rosters name = (left.queue name).roster :=
      (congrFun (congrArg Register.rosters hleft) name).symm
    rw [hqueue, ← Queue.roster_push hsub, ← hleft]
    cases (left.queue name).push task with
    | ok grown => exact Prod.ext (register_setQueue left name grown) rfl
    | error error => rfl
  | pop =>
    rw [perform, register_takePopped, Queue.roster_pop?]
    rfl
  | popDue now =>
    rw [perform, register_takePopped, Queue.roster_popDue?]
    rfl
  | takeAll into =>
    refine Prod.ext ?_ (congrArg Reply.count (Queue.length_drain _).symm)
    simp only [perform, register_setQueue]
    rfl
  | drain =>
    refine Prod.ext ?_ rfl
    simp only [perform, register_setQueue]
    rfl
  | compare first second =>
    have hids : w.register.rest.ids = w.ids := rfl
    simp only [perform, Register.perform, hids]
    cases w.ids.lookup first with
    | none => rfl
    | some a => cases w.ids.lookup second <;> rfl
  | handle label handling =>
    have hhand : w.register.rest.hand = w.hand := rfl
    simp only [perform, Register.perform, hhand]
    cases w.hand.lookup label with
    | none => rfl
    | some task => cases handling <;> rfl

/-- So do commands one after the other. -/
theorem register_after (h : w.IsNumbered) (commands : List (String × Command)) :
    (w.after commands).register = w.register.after commands := by
  induction commands generalizing w with
  | nil => rfl
  | cons entry later ih =>
    have hstep := congrArg Prod.fst (register_perform h entry.1 entry.2)
    exact (ih (isNumbered_perform h entry.1 entry.2)).trans
      (congrArg (Register.after · later) hstep)

/-- Nobody sees a difference between a workbench and its register. -/
theorem history_eq (h : w.IsNumbered) (commands : List (String × Command)) :
    w.history commands = w.register.history commands := by
  induction commands generalizing w with
  | nil => rfl
  | cons entry later ih =>
    obtain ⟨name, command⟩ := entry
    have hregister := congrArg Prod.fst (register_perform h name command)
    have hreply := congrArg Prod.snd (register_perform h name command)
    have hviews : (fun n => ((w.perform name command).1.queue n).view) =
        fun n => ((w.register.perform name command).1.rosters n).view := by
      funext n
      rw [← hregister]
      exact Queue.view_eq _
    have hlater := ih (isNumbered_perform h name command)
    rw [history, Register.history, hlater, hviews]
    exact congrArg₂ _ (congrArg (·, _) hreply) (congrArg (Register.history · later) hregister)

theorem isNumbered_after (h : w.IsNumbered) (commands : List (String × Command)) :
    (w.after commands).IsNumbered := by
  induction commands generalizing w with
  | nil => exact h
  | cons entry later ih => exact ih (isNumbered_perform h entry.1 entry.2)

/-- On a workbench where tasks have numbers of their own, the lists of the register are strictly
ascending. -/
theorem pairwise_register (h : w.IsNumbered) (name : String) :
    (w.register.rosters name).tasks.Pairwise Task.Earlier :=
  Queue.pairwise_drain (Multiset.coe_nodup.1 (h.mono (tasks_queue_le w name)).distinct)

theorem register_ofLimits (limits : List (String × Option Nat)) :
    (ofLimits limits).register = Register.ofLimits limits := by
  have hqueue : ∀ name, (ofLimits limits).queue name = .empty (limits.lookup name).join := by
    intro name
    unfold ofLimits queue
    induction limits with
    | nil => rfl
    | cons entry later ih =>
      obtain ⟨n, limit⟩ := entry
      simp only [List.map_cons, List.lookup_cons]
      cases name == n with
      | true => rfl
      | false => exact ih
  unfold register Register.ofLimits
  congr 1
  funext name
  rw [hqueue]
  rfl

/-- Queues are sorted lists. Whatever family of queues a workbench starts from, and whatever is done
on it, the replies and everything that can be seen of the queues on the way are those of a register
of lists, and the lists are in the end the ones that draining the queues gives. The lists are
strictly ascending, the tasks all have different numbers. Draining what was pushed in any order
gives each task once, in ascending order. -/
theorem queues_are_sorted_lists :
    (∀ (limits : List (String × Option Nat)) (commands : List (String × Command)),
      (ofLimits limits).history commands = (Register.ofLimits limits).history commands ∧
      ((ofLimits limits).after commands).register = (Register.ofLimits limits).after commands ∧
      ((ofLimits limits).after commands).IsNumbered ∧
      ∀ name, (((Register.ofLimits limits).after commands).rosters name).tasks.Pairwise
        Task.Earlier) ∧
    ∀ (α : Type) (limit : Option Nat) (tasks : List (Task α)), (tasks.map Task.id).Nodup →
      (((Queue.empty limit).offer tasks).drain.Pairwise Task.Earlier ∧
        ((Queue.empty limit).offer tasks).drain.Perm (tasks.take (limit.getD tasks.length))) := by
  refine ⟨fun limits commands => ?_, fun α limit tasks hn => Queue.drain_offer limit hn⟩
  have hn := isNumbered_ofLimits limits
  have hafter := isNumbered_after hn commands
  rw [← register_ofLimits]
  refine ⟨history_eq hn commands, register_after hn commands, hafter, fun name => ?_⟩
  rw [← register_after hn commands]
  exact pairwise_register hafter name

/-- Four tasks, two of them at one deadline, for a queue with room for three. -/
theorem queues_are_sorted_lists_four_tasks :
    let tasks : List (Task Unit) := [(1, 5), (4, 2), (3, 5), (2, 9)].map fun (number, nanos) =>
      { id := ⟨number⟩, label := "t", due := .instant ⟨nanos⟩, deadline := ⟨nanos⟩, action := () }
    let queue : Queue Unit := (Queue.empty (some 3)).offer tasks
    (tasks.map Task.id).Nodup ∧
      queue.drain.Pairwise Task.Earlier ∧ queue.drain.Perm (tasks.take 3) ∧
      queue.ids = [⟨4⟩, ⟨1⟩, ⟨3⟩] := by
  intro tasks queue
  have hn : (tasks.map Task.id).Nodup := by decide
  obtain ⟨hsorted, htaken⟩ := queues_are_sorted_lists.2 Unit (some 3) tasks hn
  exact ⟨hn, hsorted, htaken, rfl⟩

end Workbench

end Deferred
