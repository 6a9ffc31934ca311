/-
# Choosing from a list by a key

The iterator adaptors a scheduler writes its choice with, and what each guarantees:

* `Iterator::max_by_key` (`maxByKey`) keeps, of two elements with equal keys, the LATER one;
  its answer is a member whose key bounds every key, and only the empty list has none;
* a `scan` of running totals (`runningTotals`) pairs each element with the sum of the keys up
  to and including it; cut by `take_while` at a bound, it is the running totals of a prefix
  whose sum lies under the bound, and the element after the prefix would reach it
  (`takeWhile_runningTotals`).

Nothing here is specific to one program.
-/
import Mathlib

namespace Select

variable {α β : Type}

/-! ## 1. The last greatest element -/

section MaxByKey

variable [LinearOrder β] (key : α → β)

/-- `Iterator::max_by_key`: a fold that moves to the next element when its key is at least
the current one's, so that ties go to the later element. -/
def maxByKey : List α → Option α
  | [] => none
  | x :: xs => some (xs.foldl (fun a b => if key a ≤ key b then b else a) x)

variable {key}

theorem foldl_maxStep_mem (xs : List α) (x : α) :
    xs.foldl (fun a b => if key a ≤ key b then b else a) x ∈ x :: xs := by
  induction xs generalizing x with
  | nil => exact List.mem_singleton_self x
  | cons y ys ih =>
    rw [List.foldl_cons]
    split
    · exact List.mem_cons_of_mem _ (ih y)
    · rcases List.mem_cons.mp (ih x) with h | h
      · rw [h]
        exact List.mem_cons_self
      · exact List.mem_cons_of_mem _ (List.mem_cons_of_mem _ h)

theorem le_foldl_maxStep (xs : List α) (x : α) :
    ∀ y ∈ x :: xs, key y ≤ key (xs.foldl (fun a b => if key a ≤ key b then b else a) x) := by
  induction xs generalizing x with
  | nil =>
    intro y hy
    rw [List.mem_singleton.mp hy]
    rfl
  | cons y ys ih =>
    intro z hz
    rw [List.foldl_cons]
    -- the element the step keeps bounds both it and the one it drops
    have hstep : key x ≤ key (if key x ≤ key y then y else x) ∧
        key y ≤ key (if key x ≤ key y then y else x) := by
      split
      · exact ⟨‹_›, le_rfl⟩
      · exact ⟨le_rfl, le_of_lt (not_le.mp ‹_›)⟩
    have hkept := ih (if key x ≤ key y then y else x) (if key x ≤ key y then y else x)
      List.mem_cons_self
    rcases List.mem_cons.mp hz with rfl | hz
    · exact hstep.1.trans hkept
    · rcases List.mem_cons.mp hz with rfl | hz
      · exact hstep.2.trans hkept
      · exact ih _ z (List.mem_cons_of_mem _ hz)

@[simp] theorem maxByKey_eq_none {l : List α} : maxByKey key l = none ↔ l = [] := by
  cases l <;> simp [maxByKey]

theorem maxByKey_mem {l : List α} {m : α} (h : maxByKey key l = some m) : m ∈ l := by
  cases l with
  | nil => exact absurd h (by simp [maxByKey])
  | cons x xs =>
    rw [maxByKey, Option.some.injEq] at h
    exact h ▸ foldl_maxStep_mem xs x

theorem le_maxByKey {l : List α} {m : α} (h : maxByKey key l = some m) :
    ∀ y ∈ l, key y ≤ key m := by
  cases l with
  | nil => exact absurd h (by simp [maxByKey])
  | cons x xs =>
    rw [maxByKey, Option.some.injEq] at h
    exact h ▸ le_foldl_maxStep xs x

end MaxByKey

/-! ## 2. Running totals -/

/-- `scan(acc, |sum, (a, n)| { *sum += n; Some((a, *sum)) })`: each element with the total of
the keys up to and including it. -/
def runningTotals : ℕ → List (α × ℕ) → List (α × ℕ)
  | _, [] => []
  | acc, (a, n) :: rest => (a, acc + n) :: runningTotals (acc + n) rest

@[simp] theorem length_runningTotals (acc : ℕ) (l : List (α × ℕ)) :
    (runningTotals acc l).length = l.length := by
  induction l generalizing acc with
  | nil => rfl
  | cons e rest ih => simp [runningTotals, ih]

@[simp] theorem map_fst_runningTotals (acc : ℕ) (l : List (α × ℕ)) :
    (runningTotals acc l).map Prod.fst = l.map Prod.fst := by
  induction l generalizing acc with
  | nil => rfl
  | cons e rest ih => simp [runningTotals, ih]

theorem take_runningTotals (acc : ℕ) (l : List (α × ℕ)) (k : ℕ) :
    (runningTotals acc l).take k = runningTotals acc (l.take k) := by
  induction l generalizing acc k with
  | nil => simp [runningTotals]
  | cons e rest ih =>
    cases k with
    | zero => rfl
    | succ k => simp [runningTotals, ih]

/-- `take_while` of the running totals under a bound: the running totals of the longest
prefix whose sum lies under the bound. -/
theorem takeWhile_runningTotals (acc b : ℕ) (l : List (α × ℕ)) :
    ∃ j ≤ l.length, (runningTotals acc l).takeWhile (fun x => decide (x.2 < b)) =
        runningTotals acc (l.take j) ∧
      (0 < j → acc + ((l.take j).map Prod.snd).sum < b) ∧
      (j < l.length → b ≤ acc + ((l.take (j + 1)).map Prod.snd).sum) := by
  induction l generalizing acc with
  | nil => exact ⟨0, le_rfl, rfl, fun h => absurd h (lt_irrefl 0), fun h => absurd h (lt_irrefl 0)⟩
  | cons e rest ih =>
    obtain ⟨a, n⟩ := e
    by_cases hn : acc + n < b
    · -- the first total is kept: the prefix of the rest, one longer
      obtain ⟨j, hj, htake, hunder, hover⟩ := ih (acc + n)
      refine ⟨j + 1, by simpa using hj, ?_, ?_, ?_⟩
      · rw [runningTotals, List.takeWhile_cons_of_pos (by simpa using hn), htake]
        rfl
      · intro _
        rcases Nat.eq_zero_or_pos j with rfl | hpos
        · simpa using hn
        · have := hunder hpos
          simp only [List.take_succ_cons, List.map_cons, List.sum_cons]
          omega
      · intro hlt
        have := hover (by simpa using hlt)
        simp only [List.take_succ_cons, List.map_cons, List.sum_cons]
        omega
    · -- the first total reaches the bound: nothing is kept
      refine ⟨0, Nat.zero_le _, ?_, fun h => absurd h (lt_irrefl 0), fun _ => ?_⟩
      · rw [runningTotals, List.takeWhile_cons_of_neg (by simpa using hn)]
        rfl
      · simp only [zero_add, List.take_succ_cons, List.take_zero, List.map_cons, List.map_nil,
          List.sum_cons, List.sum_nil, add_zero]
        omega

/-- The prefix sums of the keys grow with the prefix. -/
theorem sum_take_le_sum_take (l : List (α × ℕ)) {k j : ℕ} (h : k ≤ j) :
    ((l.take k).map Prod.snd).sum ≤ ((l.take j).map Prod.snd).sum :=
  ((List.take_sublist_take_left h).map Prod.snd).sum_le_sum fun _ _ => Nat.zero_le _

/-- The running totals from `0` under a bound, at most `c` of them: the first `min c j`
elements, where `j` is the length of the longest prefix whose sum lies under the bound. -/
theorem map_fst_take_takeWhile_runningTotals (l : List (α × ℕ)) (b c : ℕ) :
    ∃ j ≤ l.length, (0 < j → ((l.take j).map Prod.snd).sum < b) ∧
      (j < l.length → b ≤ ((l.take (j + 1)).map Prod.snd).sum) ∧
      (((runningTotals 0 l).takeWhile fun x => decide (x.2 < b)).take c).map Prod.fst =
        (l.take (min c j)).map Prod.fst := by
  obtain ⟨j, hj, htake, hunder, hover⟩ := takeWhile_runningTotals 0 b l
  refine ⟨j, hj, fun h => by simpa using hunder h, fun h => by simpa using hover h, ?_⟩
  rw [htake, take_runningTotals, map_fst_runningTotals, List.take_take]

end Select
