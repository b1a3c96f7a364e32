import Deferred.Proofs.Queue.Roster

/-!
# The order without the numbers

The numbers of tasks decide nothing but the order at one deadline. Where tasks with deadlines of
their own are added to others whose numbers are smaller, the order of all of them can be told
without the numbers: each goes behind everything that is due no later. Then it does not matter in
which order they are added, nor which numbers they have.

* `Task.unnumbered` is a task but for its number.
* `Task.place` puts a task behind all that are due no later.
* `Task.foldl_place_perm`: the order in which tasks with different deadlines are placed does not
  matter.
* `Task.map_unnumbered_eq`: placing is what adding tasks with greater numbers amounts to.
-/

namespace Deferred

namespace Task

variable {α : Type} {a b : Task α} {tasks old new : List (Task α)}

/-- A task but for its number. -/
def unnumbered (t : Task α) : Task α := { t with id := ⟨0⟩ }

/-- Puts a task into a list, behind all tasks that are due no later. -/
def place (tasks : List (Task α)) (t : Task α) : List (Task α) :=
  tasks.orderedInsert (fun a b => a.deadline < b.deadline) t

theorem place_cons (u : Task α) (rest : List (Task α)) (t : Task α) :
    place (u :: rest) t = if t.deadline < u.deadline then t :: u :: rest else u :: place rest t :=
  rfl

theorem perm_place (tasks : List (Task α)) (t : Task α) : (place tasks t).Perm (t :: tasks) :=
  List.perm_orderedInsert _ t tasks

/-! ## The order of placing -/

theorem place_comm_of_lt (h : a.deadline < b.deadline) (tasks : List (Task α)) :
    place (place tasks a) b = place (place tasks b) a := by
  have hba : ¬ b.deadline < a.deadline := by
    simp only [Instant.lt_iff] at h ⊢
    omega
  induction tasks with
  | nil =>
    have hfirst : place [a] b = [a, b] := if_neg hba
    have hsecond : place [b] a = [a, b] := if_pos h
    exact hfirst.trans hsecond.symm
  | cons u rest ih =>
    rw [place_cons u rest a, place_cons u rest b]
    by_cases ha : a.deadline < u.deadline
    · rw [if_pos ha, place_cons, if_neg hba, place_cons]
      split
      · rw [place_cons, if_pos h]
      · rw [place_cons, if_pos ha]
    · have hb : ¬ b.deadline < u.deadline := by
        simp only [Instant.lt_iff] at h ha ⊢
        omega
      rw [if_neg ha, if_neg hb, place_cons, place_cons, if_neg ha, if_neg hb, ih]

/-- The order in which two tasks with different deadlines are placed does not matter. -/
theorem place_comm (hne : a.deadline ≠ b.deadline) (tasks : List (Task α)) :
    place (place tasks a) b = place (place tasks b) a := by
  have hnanos : a.deadline.nanos ≠ b.deadline.nanos := fun h => hne (congrArg Instant.mk h)
  rcases Int.lt_or_gt_of_ne hnanos with h | h
  · exact place_comm_of_lt h tasks
  · exact (place_comm_of_lt h tasks).symm

/-- So any number of tasks can be placed in any order, if no two of them have one deadline. -/
theorem foldl_place_perm {others : List (Task α)} (hp : tasks.Perm others)
    (hd : (tasks.map deadline).Nodup) (old : List (Task α)) :
    tasks.foldl place old = others.foldl place old := by
  refine hp.foldl_eq' (fun a ha b hb rest => ?_) old
  by_cases hab : a.deadline = b.deadline
  · rw [List.inj_on_of_nodup_map hd ha hb hab]
  · exact place_comm hab rest

/-! ## Placing instead of adding -/

/-- A task has its place behind the tasks at its deadline if its number is greater. -/
theorem place_eq_orderedInsert (h : ∀ u ∈ old, u.deadline = a.deadline → u.id.number < a.id.number) :
    place old a = old.orderedInsert Earlier a := by
  induction old with
  | nil => rfl
  | cons u rest ih =>
    have hu := h u (List.mem_cons_self ..)
    have hiff : a.Earlier u ↔ a.deadline < u.deadline := by
      refine ⟨fun hau => hau.resolve_right fun ⟨hd, hn⟩ => ?_, .inl⟩
      have := hu hd.symm
      omega
    rw [place_cons, List.orderedInsert_cons, ih fun v hv => h v (List.mem_cons_of_mem u hv)]
    simp only [hiff]

/-- Tasks in their order are the old ones with the new ones placed among them, if no two of the new
ones have one deadline, and if they have greater numbers than the old ones at their deadlines. -/
theorem eq_foldl_place (ht : tasks.Pairwise Earlier) (hid : (tasks.map id).Nodup)
    (ho : old.Pairwise Earlier) (hp : tasks.Perm (new ++ old)) (hd : (new.map deadline).Nodup)
    (hn : ∀ a ∈ new, ∀ u ∈ old, u.deadline = a.deadline → u.id.number < a.id.number) :
    tasks = new.foldl place old := by
  induction new generalizing old with
  | nil => exact eq_of_pairwise_of_perm ht ho hp
  | cons a rest ih =>
    have hplaced := place_eq_orderedInsert (hn a (List.mem_cons_self ..))
    have hnodup := (hp.map id).nodup_iff.1 hid
    obtain ⟨hfresh, -⟩ := List.nodup_cons.1 hnodup
    obtain ⟨hda, hdrest⟩ := List.nodup_cons.1 hd
    refine ih ?_ ?_ hdrest fun b hb u hu hub => ?_
    · rw [hplaced]
      refine pairwise_orderedInsert ho fun u hu hau => hfresh ?_
      rw [hau]
      exact List.mem_map_of_mem (List.mem_append_right rest hu)
    · refine hp.trans ?_
      rw [List.cons_append]
      exact List.perm_middle.symm.trans ((perm_place old a).symm.append_left rest)
    · rcases List.mem_cons.1 ((perm_place old a).mem_iff.1 hu) with rfl | hu
      · exact absurd (List.mem_map.2 ⟨b, hb, hub.symm⟩) hda
      · exact hn b (List.mem_cons_of_mem a hb) u hu hub

theorem map_unnumbered_place (tasks : List (Task α)) (t : Task α) :
    (place tasks t).map unnumbered = place (tasks.map unnumbered) t.unnumbered := by
  induction tasks with
  | nil => rfl
  | cons u rest ih =>
    rw [place_cons, List.map_cons, place_cons, ← ih]
    have hiff : (t.unnumbered.deadline < u.unnumbered.deadline) = (t.deadline < u.deadline) := rfl
    simp only [hiff]
    split <;> rfl

theorem map_unnumbered_foldl_place (new old : List (Task α)) :
    (new.foldl place old).map unnumbered =
      (new.map unnumbered).foldl place (old.map unnumbered) := by
  induction new generalizing old with
  | nil => rfl
  | cons a rest ih => rw [List.foldl_cons, ih, map_unnumbered_place, List.map_cons, List.foldl_cons]

/-- Where new tasks have deadlines of their own and greater numbers than the old ones, the order of
all tasks depends neither on the numbers nor on the order in which the new ones were made. -/
theorem map_unnumbered_eq {bookings : List (Task α)} (ht : tasks.Pairwise Earlier)
    (hid : (tasks.map id).Nodup) (ho : old.Pairwise Earlier) (hp : tasks.Perm (new ++ old))
    (hb : (new.map unnumbered).Perm bookings) (hd : (bookings.map deadline).Nodup)
    (hn : ∀ a ∈ new, ∀ u ∈ old, u.id.number < a.id.number) :
    tasks.map unnumbered = bookings.foldl place (old.map unnumbered) := by
  have hdeadlines : (new.map unnumbered).map deadline = new.map deadline := List.map_map
  have hnew : ((new.map unnumbered).map deadline).Nodup := (hb.map deadline).nodup_iff.2 hd
  rw [eq_foldl_place ht hid ho hp (hdeadlines ▸ hnew) fun a ha u hu _ => hn a ha u hu,
    map_unnumbered_foldl_place, foldl_place_perm hb hnew]

end Task

end Deferred
