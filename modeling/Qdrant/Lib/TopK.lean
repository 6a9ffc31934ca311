/-
# Keeping the largest elements of a stream

A bounded priority queue of capacity `top` that is pushed every element of a stream and then
read out as a sorted vector keeps the `top` elements of largest key.  The queue is modelled
by the vector it reads out as: the list of its elements by descending key.  A push into a
queue that is not full inserts the element at its place; a push into a full queue drops the
last (least) element for the new one when the new one is strictly greater, and otherwise
drops the new one.

**After the whole stream, the queue is a top selection of it** (`isTop_peekTopLargest`): it is
sorted by descending key, it holds `min top n` of the `n` elements, and every element it left
out has a key no greater than every element it kept.  The step lemma (`IsTop.push`) says one
push keeps that property; the run lemma (`IsTop.foldl`) carries it along the stream.

The order among elements of equal key is not determined by the property, and a binary heap
does not fix it either.  Nothing here is specific to one program.
-/
import Mathlib

namespace TopK

open scoped List

variable {α β : Type} [LinearOrder β] (key : α → β)

/-- `a` may stand before `b` in a list sorted by descending key. -/
def Above (a b : α) : Prop := key b ≤ key a

instance : DecidableRel (Above key) := fun a b => inferInstanceAs (Decidable (key b ≤ key a))

instance : Std.Total (Above key) := ⟨fun a b => le_total (key b) (key a)⟩

instance : IsTrans α (Above key) := ⟨fun _ _ _ hab hbc => le_trans hbc hab⟩

/-- A push into a queue of capacity `length`, kept as its elements by descending key. -/
def push (length : ℕ) (q : List α) (v : α) : List α :=
  if q.length < length then q.orderedInsert (Above key) v
  else match q.getLast? with
    | some least => if key least < key v then q.dropLast.orderedInsert (Above key) v else q
    | none => q

/-- The `top` largest elements of a stream, by descending key; nothing for `top = 0`. -/
def peekTopLargest (top : ℕ) (elements : List α) : List α :=
  if top = 0 then [] else elements.foldl (push key top) []

/-- `q` is a top selection of `seen`: sorted by descending key, `min top |seen|` long, and
what it leaves out of `seen` is nowhere above what it keeps. -/
structure IsTop (top : ℕ) (seen q : List α) : Prop where
  sorted : q.Pairwise (Above key)
  length_eq : q.length = min top seen.length
  selects : ∃ rest, (q ++ rest).Perm seen ∧ ∀ x ∈ rest, ∀ y ∈ q, key x ≤ key y

variable {key}

theorem isTop_nil (top : ℕ) : IsTop key top [] [] :=
  ⟨List.Pairwise.nil, by simp, ⟨[], by simp, by simp⟩⟩

/-- The last element of a list sorted by descending key is its least. -/
theorem key_getLast_le {q : List α} (hq : q.Pairwise (Above key)) {least : α}
    (hl : q.getLast? = some least) : ∀ y ∈ q, key least ≤ key y := by
  have hsplit : q.dropLast ++ [least] = q := List.dropLast_append_getLast? least hl
  intro y hy
  rw [← hsplit] at hq hy
  rcases List.mem_append.mp hy with hy | hy
  · exact (List.pairwise_append.mp hq).2.2 y hy least (List.mem_singleton_self _)
  · rw [List.mem_singleton.mp hy]

/-- A push into a queue that is not full: the element joins, nothing is left out. -/
theorem IsTop.push_of_lt {top : ℕ} {seen q : List α} (h : IsTop key top seen q)
    (hlt : q.length < top) (v : α) :
    IsTop key top (seen ++ [v]) (q.orderedInsert (Above key) v) := by
  obtain ⟨rest, hperm, -⟩ := h.selects
  have hseen : q.length = seen.length := by
    have := h.length_eq
    omega
  have hrest : rest = [] := by
    have hlen := hperm.length_eq
    simp only [List.length_append] at hlen
    exact List.eq_nil_of_length_eq_zero (by omega)
  subst hrest
  refine ⟨h.sorted.orderedInsert v q, ?_, ⟨[], ?_, by simp⟩⟩
  · simp only [List.orderedInsert_length, List.length_append, List.length_singleton]
    omega
  · rw [List.append_nil] at hperm ⊢
    calc q.orderedInsert (Above key) v ~ v :: q := List.perm_orderedInsert _ v q
      _ ~ q ++ [v] := (List.perm_append_singleton v q).symm
      _ ~ seen ++ [v] := hperm.append_right [v]

/-- A push into a full queue of an element above its least: the least is left out. -/
theorem IsTop.push_of_lt_key {top : ℕ} {seen q : List α} (h : IsTop key top seen q)
    (hfull : ¬q.length < top) {least v : α} (hl : q.getLast? = some least)
    (hv : key least < key v) :
    IsTop key top (seen ++ [v]) (q.dropLast.orderedInsert (Above key) v) := by
  obtain ⟨rest, hperm, hrest⟩ := h.selects
  have hsplit : q.dropLast ++ [least] = q := List.dropLast_append_getLast? least hl
  have hleast : ∀ y ∈ q, key least ≤ key y := key_getLast_le h.sorted hl
  have hq : q.length = top := by
    have := h.length_eq
    omega
  refine ⟨(h.sorted.sublist (List.dropLast_sublist q)).orderedInsert v _, ?_,
    ⟨least :: rest, ?_, ?_⟩⟩
  · have hpos : 0 < q.length := by
      rw [← hsplit]
      simp
    have hseen := h.length_eq
    simp only [List.orderedInsert_length, List.length_dropLast, List.length_append,
      List.length_singleton]
    omega
  · calc q.dropLast.orderedInsert (Above key) v ++ least :: rest
          ~ (v :: q.dropLast) ++ least :: rest :=
            (List.perm_orderedInsert _ v q.dropLast).append_right _
      _ = v :: ((q.dropLast ++ [least]) ++ rest) := by simp
      _ ~ ((q.dropLast ++ [least]) ++ rest) ++ [v] := (List.perm_append_singleton v _).symm
      _ = q ++ rest ++ [v] := by rw [hsplit]
      _ ~ seen ++ [v] := hperm.append_right [v]
  · intro x hx y hy
    have hxleast : key x ≤ key least := by
      rcases List.mem_cons.mp hx with rfl | hx
      · exact le_rfl
      · exact hrest x hx least (hsplit ▸ List.mem_append_right _ (List.mem_singleton_self _))
    rcases (List.mem_orderedInsert _).mp hy with rfl | hy
    · exact hxleast.trans hv.le
    · rcases List.mem_cons.mp hx with rfl | hx
      · exact hleast y (List.dropLast_subset q hy)
      · exact hrest x hx y (List.dropLast_subset q hy)

/-- A push into a full queue of an element not above its least: the element is left out. -/
theorem IsTop.push_of_key_le {top : ℕ} {seen q : List α} (h : IsTop key top seen q)
    (hfull : ¬q.length < top) {least v : α} (hl : q.getLast? = some least)
    (hv : key v ≤ key least) : IsTop key top (seen ++ [v]) q := by
  obtain ⟨rest, hperm, hrest⟩ := h.selects
  have hleast : ∀ y ∈ q, key least ≤ key y := key_getLast_le h.sorted hl
  refine ⟨h.sorted, ?_, ⟨rest ++ [v], ?_, ?_⟩⟩
  · have := h.length_eq
    simp only [List.length_append, List.length_singleton]
    omega
  · rw [← List.append_assoc]
    exact hperm.append_right [v]
  · intro x hx y hy
    rcases List.mem_append.mp hx with hx | hx
    · exact hrest x hx y hy
    · rw [List.mem_singleton.mp hx]
      exact hv.trans (hleast y hy)

/-- **One push keeps a top selection.** -/
theorem IsTop.push {top : ℕ} {seen q : List α} (h : IsTop key top seen q) (htop : 0 < top)
    (v : α) : IsTop key top (seen ++ [v]) (push key top q v) := by
  unfold TopK.push
  by_cases hlt : q.length < top
  · rw [if_pos hlt]
    exact h.push_of_lt hlt v
  · rw [if_neg hlt]
    -- a full queue of positive capacity has a least element
    have hne : q ≠ [] := by
      rintro rfl
      simp at hlt
      omega
    obtain ⟨least, hl⟩ := Option.ne_none_iff_exists'.mp (mt List.getLast?_eq_none_iff.mp hne)
    rw [hl]
    dsimp only
    by_cases hv : key least < key v
    · rw [if_pos hv]
      exact h.push_of_lt_key hlt hl hv
    · rw [if_neg hv]
      exact h.push_of_key_le hlt hl (not_lt.mp hv)

/-- **A run of pushes keeps a top selection.** -/
theorem IsTop.foldl {top : ℕ} (htop : 0 < top) :
    ∀ (l : List α) {seen q : List α}, IsTop key top seen q →
      IsTop key top (seen ++ l) (l.foldl (TopK.push key top) q)
  | [], _, _, h => by simpa using h
  | v :: l, seen, q, h => by
    have hv := h.push htop v
    have := IsTop.foldl htop l hv
    simpa [List.append_assoc] using this

/-- **`peek_top_largest_iterable` selects the top elements.** -/
theorem isTop_peekTopLargest (top : ℕ) (elements : List α) :
    IsTop key top elements (peekTopLargest key top elements) := by
  unfold peekTopLargest
  split
  · rename_i h0
    subst h0
    exact ⟨List.Pairwise.nil, by simp, ⟨elements, by simp, by simp⟩⟩
  · rename_i h0
    simpa using IsTop.foldl (Nat.pos_of_ne_zero h0) elements (isTop_nil top)

/-- The selection holds each element of the stream at most as often as the stream does. -/
theorem IsTop.subperm {top : ℕ} {seen q : List α} (h : IsTop key top seen q) : q.Subperm seen := by
  obtain ⟨rest, hperm, -⟩ := h.selects
  exact (List.sublist_append_left q rest).subperm.trans hperm.subperm

/-- **A top selection is the first `top` elements of a sorting of the whole stream**: the
stream sorted by descending key, with ties as the selection puts them. -/
theorem IsTop.exists_sorted_take {top : ℕ} {seen q : List α} (h : IsTop key top seen q) :
    ∃ s : List α, s.Perm seen ∧ s.Pairwise (Above key) ∧ q = s.take top := by
  obtain ⟨rest, hperm, hle⟩ := h.selects
  refine ⟨q ++ rest.insertionSort (Above key), ?_, ?_, ?_⟩
  · exact ((List.perm_insertionSort _ rest).append_left q).trans hperm
  · refine List.pairwise_append.mpr ⟨h.sorted, List.pairwise_insertionSort _ rest, ?_⟩
    intro a ha b hb
    exact hle b ((List.mem_insertionSort _).mp hb) a ha
  · -- `q` is `top` long, or it is the whole stream and nothing is left out
    have hlen := hperm.length_eq
    rw [List.length_append] at hlen
    have hq : q.length ≤ top := h.length_eq ▸ min_le_left _ _
    have hrest : top - q.length = 0 ∨ rest = [] := by
      rcases le_total top seen.length with hts | hts
      · left
        rw [h.length_eq, min_eq_left hts]
        omega
      · right
        rw [h.length_eq, min_eq_right hts] at hlen
        exact List.eq_nil_of_length_eq_zero (by omega)
    rw [List.take_append, List.take_of_length_le hq]
    rcases hrest with h0 | rfl
    · rw [h0, List.take_zero, List.append_nil]
    · simp

end TopK
