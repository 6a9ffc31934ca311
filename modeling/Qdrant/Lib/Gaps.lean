/-
# Counting a finite set between borders

A sorted sequence of borders cuts a linear order into gaps; with an open end (`none`) on each
side the gaps cover the whole order.  `Gaps.count S lo hi` is the number of elements of a
finite set `S` strictly between `lo` and `hi`, and `Gaps.bracket l` is the sequence `l` with
the two open ends added, so that a relation between consecutive elements of `bracket l`
speaks about every gap at once, the two outer ones included.

The lemmas say how a count moves when the set gains or loses an element (`count_insert`,
`count_erase`), when a gap is cut at an element of the set (`count_split`), and when it holds
nothing (`count_eq_zero_iff`); and how a chain over a bracketed sequence splits around a window
of it (`isChain_bracket_window`), which is how a local update of the borders is checked.
-/
import Mathlib

namespace Gaps

variable {α β : Type} [LinearOrder α]

/-- `z` lies strictly between `lo` and `hi`; an open end bounds nothing. -/
def inGap (lo hi : Option α) (z : α) : Bool := lo.all (· < z) && hi.all (z < ·)

/-- The number of elements of `S` strictly between `lo` and `hi`. -/
def count (S : Finset α) (lo hi : Option α) : ℕ := (S.filter fun z => inGap lo hi z).card

@[simp] theorem inGap_eq_true {lo hi : Option α} {z : α} :
    inGap lo hi z = true ↔ (∀ a ∈ lo, a < z) ∧ ∀ b ∈ hi, z < b := by
  cases lo <;> cases hi <;> simp [inGap]

/-- Two sets that agree inside a gap count it alike. -/
theorem count_congr {S S' : Finset α} {lo hi : Option α}
    (h : ∀ z, inGap lo hi z = true → (z ∈ S ↔ z ∈ S')) : count S lo hi = count S' lo hi := by
  unfold count
  congr 1
  ext z
  simp only [Finset.mem_filter]
  exact ⟨fun ⟨hz, hg⟩ => ⟨(h z hg).mp hz, hg⟩, fun ⟨hz, hg⟩ => ⟨(h z hg).mpr hz, hg⟩⟩

theorem count_insert [DecidableEq α] {S : Finset α} {p : α} (hp : p ∉ S) (lo hi : Option α) :
    count (insert p S) lo hi = count S lo hi + if inGap lo hi p then 1 else 0 := by
  unfold count
  rw [Finset.filter_insert]
  split_ifs with h
  · rw [Finset.card_insert_of_notMem (fun hm => hp (Finset.mem_of_mem_filter p hm))]
  · rfl

theorem count_insert_of_gap [DecidableEq α] {S : Finset α} {p : α} (hp : p ∉ S) {lo hi : Option α}
    (hg : inGap lo hi p = true) : count (insert p S) lo hi = count S lo hi + 1 := by
  rw [count_insert hp, if_pos hg]

theorem count_insert_of_not_gap [DecidableEq α] {S : Finset α} {p : α} (hp : p ∉ S) {lo hi : Option α}
    (hg : inGap lo hi p = false) : count (insert p S) lo hi = count S lo hi := by
  rw [count_insert hp, hg]
  rfl

theorem count_erase [DecidableEq α] {S : Finset α} {p : α} (hp : p ∈ S) (lo hi : Option α) :
    count S lo hi = count (S.erase p) lo hi + if inGap lo hi p then 1 else 0 := by
  conv_lhs => rw [← Finset.insert_erase hp]
  exact count_insert (Finset.notMem_erase p S) lo hi

@[simp] theorem count_none_none (S : Finset α) : count S none none = S.card := by
  simp [count, inGap]

theorem count_some_some (S : Finset α) (a b : α) :
    count S (some a) (some b) = (S.filter fun z => a < z ∧ z < b).card := by
  simp [count, inGap]

theorem count_eq_zero_iff {S : Finset α} {lo hi : Option α} :
    count S lo hi = 0 ↔ ∀ z ∈ S, inGap lo hi z = false := by
  simp only [count, Finset.card_eq_zero, Finset.filter_eq_empty_iff, Bool.not_eq_true]

/-- A gap that counts something holds an element of the set. -/
theorem exists_of_count_pos {S : Finset α} {lo hi : Option α} (h : 0 < count S lo hi) :
    ∃ z ∈ S, inGap lo hi z = true := by
  by_contra hne
  refine h.ne' (count_eq_zero_iff.mpr fun z hz => ?_)
  cases hg : inGap lo hi z
  · rfl
  · exact absurd ⟨z, hz, hg⟩ hne

/-- A gap cut at one of its elements that lies in the set: the two halves and the element. -/
theorem count_split {S : Finset α} {lo hi : Option α} {m : α} (hm : m ∈ S)
    (hg : inGap lo hi m = true) :
    count S lo hi = count S lo (some m) + 1 + count S (some m) hi := by
  obtain ⟨hlo, hhi⟩ := inGap_eq_true.mp hg
  have hsplit : S.filter (fun z => inGap lo hi z) =
      ((S.filter fun z => inGap lo (some m) z) ∪ {m}) ∪ S.filter fun z => inGap (some m) hi z := by
    ext z
    simp only [Finset.mem_filter, Finset.mem_union, Finset.mem_singleton, inGap_eq_true,
      Option.mem_def, Option.some.injEq, forall_eq']
    constructor
    · rintro ⟨hz, hzlo, hzhi⟩
      rcases lt_trichotomy z m with h | rfl | h
      · exact .inl (.inl ⟨hz, hzlo, h⟩)
      · exact .inl (.inr rfl)
      · exact .inr ⟨hz, h, hzhi⟩
    · rintro ((⟨hz, hzlo, h⟩ | rfl) | ⟨hz, h, hzhi⟩)
      · exact ⟨hz, hzlo, fun b hb => h.trans (hhi b hb)⟩
      · exact ⟨hm, hlo, hhi⟩
      · exact ⟨hz, fun a ha => (hlo a ha).trans h, hzhi⟩
  have hdisj₁ : Disjoint (S.filter fun z => inGap lo (some m) z) {m} := by
    simp [Finset.disjoint_singleton_right]
  have hdisj₂ : Disjoint ((S.filter fun z => inGap lo (some m) z) ∪ {m})
      (S.filter fun z => inGap (some m) hi z) := by
    rw [Finset.disjoint_left]
    intro z hz hz'
    simp only [Finset.mem_union, Finset.mem_filter, Finset.mem_singleton, inGap_eq_true,
      Option.mem_def, Option.some.injEq, forall_eq'] at hz hz'
    rcases hz with ⟨-, -, h⟩ | rfl
    · exact lt_asymm h hz'.2.1
    · exact lt_irrefl z hz'.2.1
  rw [count, hsplit, Finset.card_union_of_disjoint hdisj₂, Finset.card_union_of_disjoint hdisj₁,
    Finset.card_singleton, count, count]

/-! ## Bracketed sequences -/

/-- The sequence with an open end added on each side. -/
def bracket (l : List β) : List (Option β) := none :: l.map some ++ [none]

/-- A chain over a bracketed sequence: the two open ends meet when the sequence is empty, and
otherwise each meets its end of the sequence. -/
theorem isChain_bracket_iff {R : Option β → Option β → Prop} {l : List β} :
    (bracket l).IsChain R ↔ (l = [] → R none none) ∧ (∀ b ∈ l.head?, R none (some b)) ∧
      l.IsChain (fun a b => R (some a) (some b)) ∧ ∀ b ∈ l.getLast?, R (some b) none := by
  cases l with
  | nil => simp [bracket]
  | cons b rest =>
    have hbr : bracket (b :: rest) = none :: ((b :: rest).map some ++ [none]) := rfl
    have happ : ((b :: rest).map some ++ [none]).IsChain R ↔ _ := List.isChain_append
    rw [hbr, List.isChain_cons (x := none), happ, List.isChain_map, List.getLast?_map]
    simp

/-- A list is its first element, if any, and its tail. -/
theorem head?_toList_append_tail (l : List β) : l = l.head?.toList ++ l.tail := by
  cases l <;> rfl

/-- A list is its front and its last element, if any. -/
theorem dropLast_append_getLast?_toList (l : List β) : l = l.dropLast ++ l.getLast?.toList := by
  cases h : l.getLast? with
  | none => simp_all
  | some a => simpa using (List.dropLast_append_getLast? a h).symm

/-- A chain over a bracketed sequence, cut around a window `fl ++ M ++ fr` whose optional ends
stand for the open ends when absent: the part up to the window's left end, the window with its
two ends, and the part from its right end on. -/
theorem isChain_bracket_window {R : Option β → Option β → Prop} {A M B : List β}
    {fl fr : Option β} (hA : fl = none → A = []) (hB : fr = none → B = []) :
    (bracket (A ++ (fl.toList ++ M ++ fr.toList) ++ B)).IsChain R ↔
      (none :: (A ++ fl.toList).map some).IsChain R ∧ (fl :: M.map some ++ [fr]).IsChain R ∧
        ((fr.toList ++ B).map some ++ [none]).IsChain R := by
  -- with an end present, the bracketed sequence is cut at it; an absent end is the open one
  have hright : ∀ (P : List (Option β)),
      (P ++ (fr.toList ++ B).map some ++ [none]).IsChain R ↔
        (P ++ [fr]).IsChain R ∧ ((fr.toList ++ B).map some ++ [none]).IsChain R := by
    intro P
    cases fr with
    | none =>
      simp only [hB rfl, Option.toList_none, List.append_nil, List.map_nil, List.nil_append]
      simp
    | some g =>
      have hsplit : (P ++ some g :: (B.map some ++ [none])).IsChain R ↔ _ := List.isChain_split
      simpa using hsplit
  cases fl with
  | none =>
    simp only [hA rfl, Option.toList_none, List.nil_append, List.append_nil, List.map_nil]
    have := hright (none :: M.map some)
    simp only [bracket, List.map_append, List.append_assoc, List.cons_append] at this ⊢
    simpa [List.isChain_singleton] using this
  | some f =>
    have hleft : ((none :: A.map some) ++
        some f :: (M.map some ++ (fr.toList ++ B).map some ++ [none])).IsChain R ↔ _ :=
      List.isChain_split
    have := hright (some f :: M.map some)
    simp only [bracket, List.map_append, List.append_assoc, List.cons_append, Option.toList_some,
      List.map_cons, List.map_nil, List.nil_append] at hleft this ⊢
    rw [hleft, this]

end Gaps
