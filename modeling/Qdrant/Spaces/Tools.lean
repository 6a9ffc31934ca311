/-
# The fixed-length priority queue

`spaces/tools.rs`.  `FixedLengthPriorityQueue` keeps the `length` largest elements pushed into
it in a binary heap of `Reverse`d elements, whose top is the least element kept.  The heap is
modelled by the vector `into_vec` reads it out as: the kept elements by descending key
(`Lib/TopK.lean`); which of several elements of equal key leaves first is the heap's choice,
and the model's is the last of them.  A push into a full queue swaps the new element with the
least one when that one is smaller, and GIVES BACK whichever of the two is out.

* `pushAll_isTop`: after any pushes, the queue is a top selection of what was pushed;
* `pushAll_perm`: what it keeps and what the pushes gave back are exactly what was pushed;
* `peekTopLargestIterable_eq_take`, `peekTopSmallestIterable_eq_take`: the two peeks are the
  first `top` elements of a descending, resp. ascending, sorting of their input.
-/
import Qdrant.Lib.TopK

namespace Qdrant

open TopK
open scoped List

variable {α β : Type} [LinearOrder β]

/-! ## 1. The queue -/

/-- `FixedLengthPriorityQueue`: the kept elements by descending key, at most `length` of them;
`new` asserts a positive length. -/
structure FixedLengthPriorityQueue (key : α → β) where
  heap : List α
  length : ℕ
  sorted : heap.Pairwise (Above key)
  heap_length_le : heap.length ≤ length
  length_pos : 0 < length

namespace FixedLengthPriorityQueue

variable {key : α → β}

/-- `new`; `none` where the source's assertion fails. -/
def new (key : α → β) (length : ℕ) : Option (FixedLengthPriorityQueue key) :=
  if h : 0 < length then some ⟨[], length, .nil, Nat.zero_le _, h⟩ else none

/-- The queue with `value` at its place among `heap`, which leaves room for it. -/
def withInserted (q : FixedLengthPriorityQueue key) (heap : List α)
    (hsorted : heap.Pairwise (Above key)) (hroom : heap.length < q.length) (value : α) :
    FixedLengthPriorityQueue key :=
  ⟨heap.orderedInsert (Above key) value, q.length, hsorted.orderedInsert value heap,
    by rw [List.orderedInsert_length]; omega, q.length_pos⟩

/-- `push`: the new queue, and the element that is out (`None` while the queue fills).  On a
full queue, `peek_mut` is the least kept element; the swap puts `value` in its place. -/
def push (q : FixedLengthPriorityQueue key) (value : α) : FixedLengthPriorityQueue key × Option α :=
  if h : q.heap.length < q.length then (q.withInserted q.heap q.sorted h value, none)
  else q.heap.getLast?.elim (q, some value) fun x =>
    if key x < key value then
      (q.withInserted q.heap.dropLast (q.sorted.sublist (List.dropLast_sublist _))
        (by rw [List.length_dropLast]; have := q.heap_length_le; have := q.length_pos; omega)
        value, some x)
    else (q, some value)

/-- `into_vec`: the kept elements by descending key. -/
def intoVec (q : FixedLengthPriorityQueue key) : List α := q.heap

/-- Every value pushed in turn: the queue, and what each push gave back, in order. -/
def pushAll (q : FixedLengthPriorityQueue key) : List α → FixedLengthPriorityQueue key × List α
  | [] => (q, [])
  | v :: vs =>
    let r := q.push v
    let rest := r.1.pushAll vs
    (rest.1, r.2.toList ++ rest.2)

@[simp] theorem push_length (q : FixedLengthPriorityQueue key) (value : α) :
    (q.push value).1.length = q.length := by
  unfold push
  split_ifs
  · rfl
  · cases q.heap.getLast? with
    | none => rfl
    | some x =>
      dsimp only [Option.elim]
      split_ifs <;> rfl

/-- The kept elements after a push are `TopK.push` of those before. -/
theorem push_heap (q : FixedLengthPriorityQueue key) (value : α) :
    (q.push value).1.heap = TopK.push key q.length q.heap value := by
  unfold push TopK.push
  split_ifs with h
  · rfl
  · cases q.heap.getLast? with
    | none => rfl
    | some x =>
      dsimp only [Option.elim]
      split_ifs <;> rfl

/-- One push keeps every element: the kept ones and the one given back are those before and
the new one. -/
theorem push_perm (q : FixedLengthPriorityQueue key) (value : α) :
    ((q.push value).1.heap ++ (q.push value).2.toList).Perm (q.heap ++ [value]) := by
  unfold push
  split_ifs with h
  · simpa [withInserted] using
      (List.perm_orderedInsert _ value q.heap).trans (List.perm_append_singleton value q.heap).symm
  · rcases hx : q.heap.getLast? with _ | x
    · rfl
    · dsimp only [Option.elim]
      split_ifs with hlt
      · -- the least element leaves, the new one takes its place
        have hsplit : q.heap.dropLast ++ [x] = q.heap := List.dropLast_append_getLast? x hx
        calc q.heap.dropLast.orderedInsert (Above key) value ++ [x]
            _ ~ (value :: q.heap.dropLast) ++ [x] :=
              (List.perm_orderedInsert _ value q.heap.dropLast).append_right _
            _ = value :: q.heap := by rw [List.cons_append, hsplit]
            _ ~ q.heap ++ [value] := (List.perm_append_singleton value q.heap).symm
      · rfl

/-- The kept elements after pushes are the fold of `TopK.push`. -/
theorem pushAll_heap (q : FixedLengthPriorityQueue key) (values : List α) :
    (q.pushAll values).1.heap = values.foldl (TopK.push key q.length) q.heap := by
  induction values generalizing q with
  | nil => rfl
  | cons v vs ih => simp only [pushAll, List.foldl_cons, ih, push_length, push_heap]

/-! ## 2. What the queue keeps and gives back -/

/-- **Pushes keep a top selection**: from a queue that is one of what it has seen, the queue
after more pushes is a top selection of all of it. -/
theorem pushAll_isTop {q : FixedLengthPriorityQueue key} {seen : List α}
    (h : IsTop key q.length seen q.heap) (values : List α) :
    IsTop key q.length (seen ++ values) (q.pushAll values).1.intoVec := by
  rw [intoVec, pushAll_heap]
  exact IsTop.foldl q.length_pos values h

/-- **Pushes lose nothing**: what the queue keeps after the pushes and what the pushes gave back
are what it held and what was pushed. -/
theorem pushAll_perm (q : FixedLengthPriorityQueue key) (values : List α) :
    ((q.pushAll values).1.intoVec ++ (q.pushAll values).2).Perm (q.heap ++ values) := by
  induction values generalizing q with
  | nil => simp [pushAll, intoVec]
  | cons v vs ih =>
    simp only [pushAll, intoVec] at ih ⊢
    calc (((q.push v).1.pushAll vs).1.heap ++ ((q.push v).2.toList ++ ((q.push v).1.pushAll vs).2))
        _ ~ (q.push v).2.toList ++ (((q.push v).1.pushAll vs).1.heap ++ ((q.push v).1.pushAll vs).2) :=
          List.perm_append_comm_assoc _ _ _
        _ ~ (q.push v).2.toList ++ ((q.push v).1.heap ++ vs) := (ih (q.push v).1).append_left _
        _ ~ ((q.push v).1.heap ++ (q.push v).2.toList) ++ vs := by
          rw [← List.append_assoc]
          exact List.perm_append_comm.append_right vs
        _ ~ (q.heap ++ [v]) ++ vs := (push_perm q v).append_right vs
        _ = q.heap ++ v :: vs := by simp

/-- A new queue has seen nothing and keeps nothing. -/
theorem new_isTop {length : ℕ} {q : FixedLengthPriorityQueue key} (h : new key length = some q) :
    q.length = length ∧ IsTop key q.length [] q.heap := by
  unfold new at h
  split_ifs at h
  cases h
  exact ⟨rfl, isTop_nil length⟩

/-- What the pushes gave back is what the queue left out, so it is nowhere above what the queue
keeps. -/
theorem pushAll_returned_le {q : FixedLengthPriorityQueue key} (hq : q.heap = [])
    {values : List α} (h : IsTop key q.length values (q.pushAll values).1.intoVec) :
    ∀ x ∈ (q.pushAll values).2, ∀ y ∈ (q.pushAll values).1.intoVec, key x ≤ key y := by
  obtain ⟨rest, hperm, hle⟩ := h.selects
  have hback := pushAll_perm q values
  rw [hq, List.nil_append] at hback
  -- both complements of the kept elements in `values` are the same elements
  have hsame : (q.pushAll values).2.Perm rest := List.perm_append_left_iff _ |>.mp (hback.trans hperm.symm)
  intro x hx y hy
  exact hle x (hsame.mem_iff.mp hx) y hy

end FixedLengthPriorityQueue

/-! ## 3. The two peeks -/

variable (key : α → β)

/-- `peek_top_largest_iterable`. -/
def peekTopLargestIterable (elements : List α) (top : ℕ) : List α :=
  if top = 0 then []
  else match FixedLengthPriorityQueue.new key top with
    | some pq => (pq.pushAll elements).1.intoVec
    | none => []

/-- `peek_top_smallest_iterable`: the same queue over the `Reverse`d elements, so that it keeps
the least. -/
def peekTopSmallestIterable (elements : List α) (top : ℕ) : List α :=
  peekTopLargestIterable (fun x => OrderDual.toDual (key x)) elements top

/-- `peek_top_largest_iterable` is `TopK.peekTopLargest`, the selection the search uses. -/
theorem peekTopLargestIterable_eq (elements : List α) (top : ℕ) :
    peekTopLargestIterable key elements top = TopK.peekTopLargest key top elements := by
  unfold peekTopLargestIterable TopK.peekTopLargest FixedLengthPriorityQueue.new
  split_ifs with h0 hpos
  · rfl
  · exact FixedLengthPriorityQueue.pushAll_heap _ elements
  · omega

/-- `peek_top_largest_iterable` is the first `top` elements of a sorting of its input by
descending key. -/
theorem peekTopLargestIterable_eq_take (elements : List α) (top : ℕ) :
    ∃ s : List α, s.Perm elements ∧ s.Pairwise (fun a b => key b ≤ key a) ∧
      peekTopLargestIterable key elements top = s.take top := by
  rw [peekTopLargestIterable_eq]
  exact (isTop_peekTopLargest top elements).exists_sorted_take

/-- `peek_top_smallest_iterable` is the first `top` elements of a sorting of its input by
ascending key. -/
theorem peekTopSmallestIterable_eq_take (elements : List α) (top : ℕ) :
    ∃ s : List α, s.Perm elements ∧ s.Pairwise (fun a b => key a ≤ key b) ∧
      peekTopSmallestIterable key elements top = s.take top := by
  obtain ⟨s, hperm, hsorted, heq⟩ :=
    peekTopLargestIterable_eq_take (fun x => OrderDual.toDual (key x)) elements top
  exact ⟨s, hperm, hsorted, heq⟩

/-! ## 4. The queue keeps the top `length` -/

/-- **`FixedLengthPriorityQueue` keeps the top `length`**: from a new queue of positive length,
after pushing any values, `into_vec` gives `min length n` of the `n` values by descending key,
each at least every value not kept, and what it keeps with what the pushes gave back are the
values pushed; the largest peek is a prefix of its input sorted descending, the smallest peek
one of its input sorted ascending. -/
theorem fixedLengthPriorityQueue_top_k (key : α → β) (length : ℕ) (hlength : 0 < length)
    (values elements : List α) (top : ℕ) :
    (∃ q, FixedLengthPriorityQueue.new key length = some q ∧
      (q.pushAll values).1.intoVec.length = min length values.length ∧
      (q.pushAll values).1.intoVec.Pairwise (fun a b => key b ≤ key a) ∧
      (∀ x ∈ (q.pushAll values).2, ∀ y ∈ (q.pushAll values).1.intoVec, key x ≤ key y) ∧
      ((q.pushAll values).1.intoVec ++ (q.pushAll values).2).Perm values) ∧
    (∃ s : List α, s.Perm elements ∧ s.Pairwise (fun a b => key b ≤ key a) ∧
      peekTopLargestIterable key elements top = s.take top) ∧
    (∃ s : List α, s.Perm elements ∧ s.Pairwise (fun a b => key a ≤ key b) ∧
      peekTopSmallestIterable key elements top = s.take top) := by
  refine ⟨?_, peekTopLargestIterable_eq_take key elements top,
    peekTopSmallestIterable_eq_take key elements top⟩
  let q₀ : FixedLengthPriorityQueue key := ⟨[], length, .nil, Nat.zero_le _, hlength⟩
  have hnew : FixedLengthPriorityQueue.new key length = some q₀ := by
    simp [FixedLengthPriorityQueue.new, hlength, q₀]
  refine ⟨q₀, hnew, ?_⟩
  obtain ⟨-, hnil⟩ := FixedLengthPriorityQueue.new_isTop hnew
  have htop := FixedLengthPriorityQueue.pushAll_isTop hnil values
  rw [List.nil_append] at htop
  have hperm := FixedLengthPriorityQueue.pushAll_perm q₀ values
  rw [List.nil_append] at hperm
  exact ⟨htop.length_eq, htop.sorted, FixedLengthPriorityQueue.pushAll_returned_le rfl htop, hperm⟩

theorem fixedLengthPriorityQueue_top_k_of_four :
    0 < 2 ∧
    ((∃ q, FixedLengthPriorityQueue.new (id : ℕ → ℕ) 2 = some q ∧
      (q.pushAll [10, 40, 5, 20]).1.intoVec.length = min 2 [10, 40, 5, 20].length ∧
      (q.pushAll [10, 40, 5, 20]).1.intoVec.Pairwise (fun a b => id b ≤ id a) ∧
      (∀ x ∈ (q.pushAll [10, 40, 5, 20]).2, ∀ y ∈ (q.pushAll [10, 40, 5, 20]).1.intoVec,
        id x ≤ id y) ∧
      ((q.pushAll [10, 40, 5, 20]).1.intoVec ++ (q.pushAll [10, 40, 5, 20]).2).Perm
        [10, 40, 5, 20]) ∧
    (∃ s : List ℕ, s.Perm [10, 40, 5, 20] ∧ s.Pairwise (fun a b => id b ≤ id a) ∧
      peekTopLargestIterable (id : ℕ → ℕ) [10, 40, 5, 20] 2 = s.take 2) ∧
    (∃ s : List ℕ, s.Perm [10, 40, 5, 20] ∧ s.Pairwise (fun a b => id a ≤ id b) ∧
      peekTopSmallestIterable (id : ℕ → ℕ) [10, 40, 5, 20] 2 = s.take 2)) :=
  ⟨by decide, fixedLengthPriorityQueue_top_k (id : ℕ → ℕ) 2 (by decide) [10, 40, 5, 20] [10, 40, 5, 20] 2⟩

end Qdrant
