/-!
# Sums over lists

The sum of a number over the items of a list, by recursion on the list.

* `sumOf_perm`: the order of the items does not matter.
* `sumOf_set`: exchanging one item exchanges its part of the sum.
-/

namespace Deferred

variable {α : Type}

/-- The sum of a number over the items of a list. -/
def sumOf (f : α → Nat) : List α → Nat
  | [] => 0
  | a :: rest => f a + sumOf f rest

theorem sumOf_append (f : α → Nat) (l k : List α) : sumOf f (l ++ k) = sumOf f l + sumOf f k := by
  induction l with
  | nil => rw [List.nil_append, sumOf, Nat.zero_add]
  | cons a l ih => rw [List.cons_append, sumOf, sumOf, ih, Nat.add_assoc]

theorem sumOf_perm (f : α → Nat) {l k : List α} (h : l.Perm k) : sumOf f l = sumOf f k := by
  induction h with
  | nil => rfl
  | cons a _ ih => rw [sumOf, sumOf, ih]
  | swap a b l =>
    simp only [sumOf]
    omega
  | trans _ _ hl hk => rw [hl, hk]

theorem sumOf_set (f : α → Nat) {l : List α} {n : Nat} {a : α} (b : α) (h : l[n]? = some a) :
    sumOf f (l.set n b) + f a = sumOf f l + f b := by
  induction l generalizing n with
  | nil => simp at h
  | cons x l ih =>
    cases n with
    | zero =>
      obtain rfl : x = a := by simpa using h
      simp only [List.set_cons_zero, sumOf]
      omega
    | succ n =>
      have := ih (n := n) (by simpa using h)
      simp only [List.set_cons_succ, sumOf]
      omega

end Deferred
