/-
# Counting the members of a finite universe that satisfy Boolean tests

Cardinality estimation brackets `u.countP p`, the number of members of a finite universe `u`
that pass a test `p`, between a lower and an upper bound, and combines such brackets along
the Boolean connectives.  Everything the combination needs is a fact about `List.countP`:

* **conjunction**: `countP p + countP q ≤ countP (p ∧ q) + |u|` (the Bonferroni inequality,
  from inclusion–exclusion `countP_and_add_countP_or`), and `countP (∀ p ∈ ps) ≤ countP p`;
* **disjunction**: `countP p ≤ countP (∃ p ∈ ps)` and `countP (∃ p ∈ ps) ≤ ∑ countP p`;
* **negation**: `countP (¬p) = |u| - countP p`.

A list that is walked with a visited set keeps the first occurrence of each member
(`List.eraseDups`); `nodup_eraseDups` says it then holds each member once.

Nothing here is specific to one program.
-/
import Mathlib

namespace Count

variable {ρ : Type}

/-- Inclusion–exclusion for two tests. -/
theorem countP_and_add_countP_or (u : List ρ) (p q : ρ → Bool) :
    u.countP (fun x => p x && q x) + u.countP (fun x => p x || q x) =
      u.countP p + u.countP q := by
  induction u with
  | nil => rfl
  | cons x u ih =>
    simp only [List.countP_cons]
    cases p x <;> cases q x <;> simp <;> omega

/-- **Bonferroni**: two tests that pass often must often pass together. -/
theorem countP_add_countP_le_and (u : List ρ) (p q : ρ → Bool) :
    u.countP p + u.countP q ≤ u.countP (fun x => p x && q x) + u.length := by
  have h := countP_and_add_countP_or u p q
  have hor : u.countP (fun x => p x || q x) ≤ u.length := List.countP_le_length
  omega

/-- Negation counts the complement. -/
theorem countP_not (u : List ρ) (p : ρ → Bool) :
    u.countP (fun x => !p x) = u.length - u.countP p := by
  have h := List.length_eq_countP_add_countP p (l := u)
  simp only [Bool.not_eq_true] at h
  have hc : u.countP (fun x => !p x) = u.countP (fun x => decide (p x = false)) :=
    List.countP_congr (fun x _ => by cases p x <;> simp)
  omega

variable {ι : Type} (t : ι → ρ → Bool)

/-- A conjunction of a family of tests passes no more often than one of them. -/
theorem countP_all_le_of_mem {is : List ι} {i : ι} (hi : i ∈ is) (u : List ρ) :
    u.countP (fun x => is.all (t · x)) ≤ u.countP (t i) :=
  List.countP_mono_left fun x _ hx => by
    simp only [List.all_eq_true] at hx
    exact hx i hi

/-- A disjunction of a family of tests passes at least as often as one of them. -/
theorem countP_le_countP_any_of_mem {is : List ι} {i : ι} (hi : i ∈ is) (u : List ρ) :
    u.countP (t i) ≤ u.countP (fun x => is.any (t · x)) :=
  List.countP_mono_left fun x _ hx => by
    simp only [List.any_eq_true]
    exact ⟨i, hi, hx⟩

/-- The union bound: a disjunction passes no more often than all its members together. -/
theorem countP_any_le_sum (is : List ι) (u : List ρ) :
    u.countP (fun x => is.any (t · x)) ≤ (is.map fun i => u.countP (t i)).sum := by
  induction is with
  | nil => simp
  | cons i is ih =>
    have hor := countP_and_add_countP_or u (t i) (fun x => is.any (t · x))
    simp only [List.any_cons, List.map_cons, List.sum_cons]
    omega

/-- A count is the sum of the test's indicator. -/
theorem countP_eq_sum_map_ite (u : List ρ) (p : ρ → Bool) :
    u.countP p = (u.map fun x => if p x then 1 else 0).sum := by
  induction u with
  | nil => simp
  | cons x u ih =>
    rw [List.countP_cons, List.map_cons, List.sum_cons, ih]
    omega

/-- Double counting: the passed (test, member) pairs, summed over the tests or over the
members. -/
theorem sum_map_countP_comm (is : List ι) (u : List ρ) :
    (is.map fun i => u.countP (t i)).sum = (u.map fun x => is.countP (t · x)).sum := by
  induction u with
  | nil => simp
  | cons x u ih =>
    simp only [List.countP_cons, List.sum_map_add, List.map_cons, List.sum_cons, ih]
    rw [countP_eq_sum_map_ite is (t · x)]
    omega

/-- A list with an element that satisfies `p` has at least one. -/
theorem ite_any_le_countP (p : ρ → Bool) (u : List ρ) :
    (if u.any p then 1 else 0) ≤ u.countP p := by
  split
  · exact List.countP_pos_iff.mpr (List.any_eq_true.mp ‹_›)
  · exact Nat.zero_le _

/-- Termwise differences sum to the difference of the sums. -/
theorem sum_map_sub_of_le (u : List ρ) {f g : ρ → ℕ} (h : ∀ x ∈ u, g x ≤ f x) :
    (u.map fun x => f x - g x).sum = (u.map f).sum - (u.map g).sum := by
  induction u with
  | nil => simp
  | cons x u ih =>
    have hx := h x List.mem_cons_self
    have hu : ∀ y ∈ u, g y ≤ f y := fun y hy => h y (List.mem_cons_of_mem x hy)
    have hle : (u.map g).sum ≤ (u.map f).sum := List.sum_le_sum hu
    simp only [List.map_cons, List.sum_cons, ih hu]
    omega

/-- A list without duplicates whose members are all equal has at most one. -/
theorem length_le_one_of_nodup {α : Type} {l : List α} (hl : l.Nodup)
    (heq : ∀ a ∈ l, ∀ b ∈ l, a = b) : l.length ≤ 1 := by
  match l, hl, heq with
  | [], _, _ => simp
  | [_], _, _ => simp
  | a :: b :: _, hl, heq =>
    have hab : a = b := heq a List.mem_cons_self b (List.mem_cons_of_mem a List.mem_cons_self)
    simp [hab] at hl

/-- The running maximum of a fold stays below any common upper bound. -/
theorem foldl_max_le {c : ℕ} : ∀ (l : List ℕ) (acc : ℕ), acc ≤ c → (∀ m ∈ l, m ≤ c) →
    l.foldl Nat.max acc ≤ c
  | [], _, hacc, _ => hacc
  | m :: l, acc, hacc, hl => by
    simp only [List.foldl_cons]
    refine foldl_max_le l _ ?_ (fun m' hm' => hl m' (List.mem_cons_of_mem _ hm'))
    exact Nat.max_le.mpr ⟨hacc, hl m List.mem_cons_self⟩

end Count
