/-
# The histogram keeps counting its points

`Histogram::insert` and `Histogram::remove` (`Index/Histogram.lean`) have a dozen branches
each, and a branch rewrites up to four borders and may move one.  This module proves that when
the neighbour callbacks answer with the exact predecessor and successor in the UPDATED set of
points, as `NumericIndex` arranges, every branch keeps `Histogram.Represents`, and hence
**over any run of inserts of new points and removals of stored ones the histogram represents
the stored points** (`histogram_represents_run`).

The proof counts with open ends (`Lib/Gaps.lean`).  With a `none` added on each side of the
border list, `Represents` becomes one condition between consecutive entries, `Linked`
(`Histogram.represents_iff`), the two outer conditions included.  The borders are cut around
the value at its far neighbours (`Histogram.neighbours_window`); an adjustment writes only
between them (`Adjustment.apply_local`), so that each branch is one check of `Linked` on the
window from the far left to the far right neighbour (`BordersExact.window`), with the counts
moved by the one point that enters or leaves.
-/
import Qdrant.Index.Histogram
import Qdrant.Lib.Gaps

namespace Qdrant

open OrdMap hiding insert erase
open Gaps

variable {T : Type}

/-! ## 1. Borders with open ends -/

/-- The count of the bucket right of a border; nothing lies past an open end. -/
def rightCount : Option (Point T × Counts) → ℕ
  | some b => b.2.right
  | none => 0

/-- The count of the bucket left of a border. -/
def leftCount : Option (Point T × Counts) → ℕ
  | some b => b.2.left
  | none => 0

@[simp] theorem rightCount_some (b : Point T × Counts) : rightCount (some b) = b.2.right := rfl
@[simp] theorem rightCount_none : rightCount (none : Option (Point T × Counts)) = 0 := rfl
@[simp] theorem leftCount_some (b : Point T × Counts) : leftCount (some b) = b.2.left := rfl
@[simp] theorem leftCount_none : leftCount (none : Option (Point T × Counts)) = 0 := rfl

@[simp] theorem setLeft_fst (n : ℕ) (e : Point T × Counts) : (setLeft n e).1 = e.1 := rfl
@[simp] theorem setLeft_right (n : ℕ) (e : Point T × Counts) : (setLeft n e).2.right = e.2.right :=
  rfl
@[simp] theorem setLeft_left (n : ℕ) (e : Point T × Counts) : (setLeft n e).2.left = n := rfl
@[simp] theorem setRight_fst (n : ℕ) (e : Point T × Counts) : (setRight n e).1 = e.1 := rfl
@[simp] theorem setRight_left (n : ℕ) (e : Point T × Counts) : (setRight n e).2.left = e.2.left :=
  rfl
@[simp] theorem setRight_right (n : ℕ) (e : Point T × Counts) : (setRight n e).2.right = n := rfl

variable [LinearOrder T]

/-- Two consecutive borders over the points `S`, `none` for an open end: they agree on the
count of the bucket between them, and it is the number of points there. -/
def Linked (S : Finset (Point T)) (x y : Option (Point T × Counts)) : Prop :=
  rightCount x = leftCount y ∧ rightCount x = count S (x.map Prod.fst) (y.map Prod.fst)

/-- The borders count the points `S` exactly: each is a point of `S`, and consecutive borders
of the list with its two open ends are `Linked`. -/
structure BordersExact (S : Finset (Point T)) (bs : List (Point T × Counts)) : Prop where
  border_mem : ∀ b ∈ bs, b.1 ∈ S
  chain : (bracket bs).IsChain (Linked S)

theorem linked_congr {S S' : Finset (Point T)} {x x' y y' : Option (Point T × Counts)}
    (hr : rightCount x = rightCount x') (hl : leftCount y = leftCount y')
    (hc : count S (x.map Prod.fst) (y.map Prod.fst) = count S' (x'.map Prod.fst) (y'.map Prod.fst)) :
    Linked S x y ↔ Linked S' x' y' := by
  unfold Linked
  rw [hr, hl, hc]

/-- The two open ends meet only over no points. -/
theorem linked_none_none {S : Finset (Point T)} : Linked S none none ↔ S = ∅ := by
  simp [Linked, eq_comm (a := 0)]

/-- The first border: nothing left of it, and no point below it. -/
theorem linked_none_some {S : Finset (Point T)} {b : Point T × Counts} :
    Linked S none (some b) ↔ b.2.left = 0 ∧ ∀ z ∈ S, b.1 ≤ z := by
  simp only [Linked, rightCount_none, leftCount_some, Option.map_none, Option.map_some]
  rw [eq_comm, @eq_comm _ 0 (count _ _ _), count_eq_zero_iff]
  simp [inGap]

/-- The last border: nothing right of it, and no point above it. -/
theorem linked_some_none {S : Finset (Point T)} {b : Point T × Counts} :
    Linked S (some b) none ↔ b.2.right = 0 ∧ ∀ z ∈ S, z ≤ b.1 := by
  simp only [Linked, rightCount_some, leftCount_none, Option.map_none, Option.map_some]
  constructor
  · rintro ⟨h0, hc⟩
    rw [h0, eq_comm, count_eq_zero_iff] at hc
    exact ⟨h0, fun z hz => by simpa [inGap] using hc z hz⟩
  · rintro ⟨h0, hle⟩
    refine ⟨h0, ?_⟩
    rw [h0, eq_comm, count_eq_zero_iff]
    exact fun z hz => by simpa [inGap] using hle z hz

theorem linked_some_some {S : Finset (Point T)} {a b : Point T × Counts} :
    Linked S (some a) (some b) ↔
      a.2.right = b.2.left ∧ a.2.right = (S.filter fun x => a.1 < x ∧ x < b.1).card := by
  simp [Linked, count_some_some]

/-- `Represents` is `BordersExact` with the right total. -/
theorem Histogram.represents_iff (h : Histogram T) (S : Finset (Point T)) :
    h.Represents S ↔ h.totalCount = S.card ∧ BordersExact S h.borders := by
  constructor
  · intro hr
    refine ⟨hr.totalCount_eq, hr.border_mem, isChain_bracket_iff.mpr ⟨?_, ?_, ?_, ?_⟩⟩
    · -- no borders: a least point would be one
      intro hnil
      rw [linked_none_none, ← Finset.not_nonempty_iff_eq_empty]
      intro hne
      have hmin := hr.min_mem _ (S.min'_mem hne) fun y hy => S.min'_le y hy
      simp [hnil] at hmin
    · intro b hb
      refine linked_none_some.mpr ⟨hr.head_left b hb, fun z hz => ?_⟩
      obtain ⟨e, he, hkey⟩ := List.mem_map.mp
        (hr.min_mem _ (S.min'_mem ⟨z, hz⟩) fun y hy => S.min'_le y hy)
      calc b.1 ≤ e.1 := head?_le h.sorted hb he
        _ = S.min' ⟨z, hz⟩ := hkey
        _ ≤ z := S.min'_le z hz
    · exact hr.chain.imp fun a b hab => linked_some_some.mpr hab
    · intro b hb
      refine linked_some_none.mpr ⟨hr.last_right b hb, fun z hz => ?_⟩
      obtain ⟨e, he, hkey⟩ := List.mem_map.mp
        (hr.max_mem _ (S.max'_mem ⟨z, hz⟩) fun y hy => S.le_max' y hy)
      calc z ≤ S.max' ⟨z, hz⟩ := S.le_max' z hz
        _ = e.1 := hkey.symm
        _ ≤ b.1 := le_getLast? h.sorted hb he
  · rintro ⟨htotal, hex⟩
    obtain ⟨hnil, hhead, hchain, hlast⟩ := isChain_bracket_iff.mp hex.chain
    refine ⟨htotal, hex.border_mem, ?_, ?_, ?_, ?_, hchain.imp fun a b hab => linked_some_some.mp hab⟩
    · -- the least point is not below the first border, which is a point
      intro x hx hmin
      cases hbs : h.borders with
      | nil => simp [linked_none_none.mp (hnil hbs)] at hx
      | cons b rest =>
        have hb : b ∈ h.borders.head? := by simp [hbs]
        have hbS : b.1 ∈ S := hex.border_mem b (by simp [hbs])
        have hx' : x = b.1 := le_antisymm (hmin _ hbS) ((linked_none_some.mp (hhead b hb)).2 x hx)
        simp [hx']
    · intro x hx hmax
      cases hbs : h.borders.getLast? with
      | none => simp [linked_none_none.mp (hnil (List.getLast?_eq_none_iff.mp hbs))] at hx
      | some b =>
        have hb : b ∈ h.borders.getLast? := hbs
        have hbS : b.1 ∈ S := hex.border_mem b (List.mem_of_getLast? hb)
        have hx' : x = b.1 := le_antisymm ((linked_some_none.mp (hlast b hb)).2 x hx) (hmax _ hbS)
        exact List.mem_map.mpr ⟨b, List.mem_of_getLast? hb, hx'.symm⟩
    · exact fun b hb => (linked_none_some.mp (hhead b hb)).1
    · exact fun b hb => (linked_some_none.mp (hlast b hb)).1

/-! ## 2. The window around a value -/

/-- The borders cut around `val`: the far and the close left neighbour end the part at or below
it, the close and the far right neighbour begin the part above it; a missing close neighbour
has no far one behind it, and a missing far neighbour nothing behind it. -/
theorem Histogram.neighbours_window (h : Histogram T) {val : Point T}
    {cl cr fl fr : Option (Point T × Counts)} (hn : h.neighbours val = ((cl, cr), (fl, fr))) :
    ∃ A B, h.borders = A ++ (fl.toList ++ (cl.toList ++ cr.toList) ++ fr.toList) ++ B ∧
      (fl = none → A = []) ∧ (fr = none → B = []) ∧ (cl = none → fl = none) ∧
      (cr = none → fr = none) ∧ (∀ e ∈ cl, e.1 ≤ val) ∧ (∀ e ∈ cr, val < e.1) := by
  simp only [Histogram.neighbours, Prod.mk.injEq] at hn
  obtain ⟨⟨hcl, hcr⟩, hfl, hfr⟩ := hn
  set L := range .unbounded (.included val) h.borders
  set R := range (.excluded val) .unbounded h.borders
  refine ⟨L.dropLast.dropLast, R.tail.tail, ?_, ?_, ?_, ?_, ?_, ?_, ?_⟩
  · have hL : L = L.dropLast.dropLast ++ fl.toList ++ cl.toList := by
      rw [← hfl, ← hcl, ← dropLast_append_getLast?_toList, ← dropLast_append_getLast?_toList]
    have hR : R = cr.toList ++ fr.toList ++ R.tail.tail := by
      rw [← hfr, ← hcr, List.append_assoc, ← head?_toList_append_tail, ← head?_toList_append_tail]
    calc h.borders = L ++ R := (range_included_append_range_excluded h.sorted val).symm
      _ = (L.dropLast.dropLast ++ fl.toList ++ cl.toList) ++ (cr.toList ++ fr.toList ++ R.tail.tail) :=
          congrArg₂ (· ++ ·) hL hR
      _ = _ := by simp only [List.append_assoc]
  · intro h0
    rw [← hfl, List.getLast?_eq_none_iff] at h0
    rw [h0, List.dropLast_nil]
  · intro h0
    rw [← hfr, List.head?_eq_none_iff] at h0
    rw [h0, List.tail_nil]
  · intro h0
    rw [← hcl, List.getLast?_eq_none_iff] at h0
    rw [← hfl, h0, List.dropLast_nil, List.getLast?_nil]
  · intro h0
    rw [← hcr, List.head?_eq_none_iff] at h0
    rw [← hfr, h0, List.tail_nil, List.head?_nil]
  · intro e he
    rw [← hcl] at he
    simpa [Bound.below] using (mem_range.mp (List.mem_of_getLast? he)).2.2
  · intro e he
    rw [← hcr] at he
    simpa [Bound.above] using (mem_range.mp (List.mem_of_mem_head? he)).2.1

/-- The keys an adjustment writes or removes. -/
def Adjustment.keys (a : Adjustment T) : List (Point T) :=
  (a.closeLeft.toList ++ a.closeRight.toList ++ a.farLeft.toList ++ a.farRight.toList ++
    a.toCreate.toList).map Prod.fst ++ a.toRemove.toList

theorem insertOpt_local {e : Option (Point T × Counts)} {A W B : List (Point T × Counts)}
    (hA : ∀ x ∈ e, ∀ a ∈ A, a.1 < x.1) (hB : ∀ x ∈ e, ∀ b ∈ B, x.1 < b.1) :
    insertOpt e (A ++ W ++ B) = A ++ insertOpt e W ++ B := by
  cases e with
  | none => rfl
  | some x =>
    simp only [insertOpt, Option.mem_def, Option.some.injEq, forall_eq'] at hA hB ⊢
    rw [List.append_assoc, insert_append_of_lt _ hA, insert_append_of_gt _ hB, List.append_assoc]

theorem eraseOpt_local {k : Option (Point T)} {A W B : List (Point T × Counts)}
    (hA : ∀ x ∈ k, ∀ a ∈ A, a.1 < x) (hB : ∀ x ∈ k, ∀ b ∈ B, x < b.1) :
    eraseOpt k (A ++ W ++ B) = A ++ eraseOpt k W ++ B := by
  cases k with
  | none => rfl
  | some x =>
    simp only [eraseOpt, Option.mem_def, Option.some.injEq, forall_eq'] at hA hB ⊢
    exact erase_append_append (fun a ha => (hA a ha).ne) (fun b hb => (hB b hb).ne')

/-- **An adjustment writes only where its keys are**: when they all lie between `A` and `B`,
applying it to `A ++ W ++ B` applies it to `W`. -/
theorem Adjustment.apply_local (a : Adjustment T) {A W B : List (Point T × Counts)}
    (hA : ∀ k ∈ a.keys, ∀ x ∈ A, x.1 < k) (hB : ∀ k ∈ a.keys, ∀ y ∈ B, k < y.1) :
    a.apply (A ++ W ++ B) = A ++ a.apply W ++ B := by
  -- every entry the adjustment writes has its key among `a.keys`
  have hentry : ∀ e ∈ [a.closeLeft, a.closeRight, a.farLeft, a.farRight, a.toCreate],
      ∀ x ∈ e, x.1 ∈ a.keys := by
    intro e he x hx
    rw [Option.mem_def] at hx
    simp only [List.mem_cons, List.not_mem_nil, or_false] at he
    simp only [Adjustment.keys, List.mem_append, List.mem_map, Option.mem_toList]
    refine .inl ⟨x, ?_, rfl⟩
    rcases he with rfl | rfl | rfl | rfl | rfl <;> simp [hx]
  have hins : ∀ e ∈ [a.closeLeft, a.closeRight, a.farLeft, a.farRight, a.toCreate],
      ∀ W, insertOpt e (A ++ W ++ B) = A ++ insertOpt e W ++ B := fun e he _ =>
    insertOpt_local (fun x hx => hA _ (hentry e he x hx)) (fun x hx => hB _ (hentry e he x hx))
  have hremove : ∀ x ∈ a.toRemove, x ∈ a.keys := fun x hx =>
    List.mem_append_right _ (Option.mem_toList.mpr hx)
  simp only [Adjustment.apply]
  rw [hins a.closeLeft (by simp), hins a.closeRight (by simp), hins a.farLeft (by simp),
    hins a.farRight (by simp),
    eraseOpt_local (fun x hx => hA _ (hremove x hx)) (fun x hx => hB _ (hremove x hx)),
    hins a.toCreate (by simp)]

/-- In a sorted window, the far left neighbour lies below the middle. -/
theorem window_fl_lt {M : List (Point T × Counts)} {fl fr : Option (Point T × Counts)}
    (hs : Sorted (fl.toList ++ M ++ fr.toList)) : ∀ f ∈ fl, ∀ m ∈ M, f.1 < m.1 := fun f hf m hm =>
  (sorted_append.mp (sorted_append.mp hs).1).2.2 f (by simp [Option.mem_def.mp hf]) m hm

/-- In a sorted window, the far right neighbour lies above the middle. -/
theorem window_lt_fr {M : List (Point T × Counts)} {fl fr : Option (Point T × Counts)}
    (hs : Sorted (fl.toList ++ M ++ fr.toList)) : ∀ g ∈ fr, ∀ m ∈ M, m.1 < g.1 := fun g hg m hm =>
  (sorted_append.mp hs).2.2 m (by simp [hm]) g (by simp [Option.mem_def.mp hg])

/-- The adjustment without its two far neighbours: what it writes inside the window. -/
def Adjustment.inner (a : Adjustment T) : Adjustment T := { a with farLeft := none, farRight := none }

omit [LinearOrder T] in
theorem Adjustment.mem_keys {a : Adjustment T} {k : Point T} (hk : k ∈ a.keys) :
    k ∈ a.inner.keys ∨ (∃ x ∈ a.farLeft, x.1 = k) ∨ ∃ x ∈ a.farRight, x.1 = k := by
  simp only [Adjustment.keys, Adjustment.inner, List.mem_append, List.mem_map, Option.mem_toList,
    Option.toList_none, List.append_nil, Option.mem_def] at hk ⊢
  rcases hk with ⟨x, (((hx | hx) | hx) | hx) | hx, rfl⟩ | hk
  · exact .inl (.inl ⟨x, .inl (.inl hx), rfl⟩)
  · exact .inl (.inl ⟨x, .inl (.inr hx), rfl⟩)
  · exact .inr (.inl ⟨x, hx, rfl⟩)
  · exact .inr (.inr ⟨x, hx, rfl⟩)
  · exact .inl (.inl ⟨x, .inr hx, rfl⟩)
  · exact .inl (.inr hk)

/-- Writing an entry with the key of the window's left end replaces it. -/
theorem insertOpt_toList_append {e fl : Option (Point T × Counts)} {Y : List (Point T × Counts)}
    (he : e.map Prod.fst = fl.map Prod.fst) : insertOpt e (fl.toList ++ Y) = e.toList ++ Y := by
  cases fl with
  | none =>
    obtain rfl : e = none := by simpa using he
    rfl
  | some f =>
    cases e with
    | none => simp at he
    | some e =>
      obtain ⟨fk, fv⟩ := f
      obtain ⟨ek, ev⟩ := e
      obtain rfl : ek = fk := by simpa using he
      simp [insertOpt, insert_cons_self]

/-- Writing an entry with the key of the window's right end replaces it. -/
theorem insertOpt_append_toList {e fr : Option (Point T × Counts)} {Y : List (Point T × Counts)}
    (he : e.map Prod.fst = fr.map Prod.fst) (hY : ∀ y ∈ Y, ∀ g ∈ fr, y.1 < g.1) :
    insertOpt e (Y ++ fr.toList) = Y ++ e.toList := by
  cases fr with
  | none =>
    obtain rfl : e = none := by simpa using he
    rfl
  | some g =>
    cases e with
    | none => simp at he
    | some e =>
      obtain ⟨gk, gv⟩ := g
      obtain ⟨ek, ev⟩ := e
      obtain rfl : ek = gk := by simpa using he
      simp only [insertOpt, Option.toList_some]
      rw [insert_append_of_lt _ fun y hy => hY y hy _ rfl, insert_cons_self]

/-- **An adjustment inside its window**: when its far neighbours keep the keys of the window's
ends and everything else it writes lies strictly between them, it replaces the ends and applies
its inner part to the middle. -/
theorem Adjustment.apply_within (a : Adjustment T) {M : List (Point T × Counts)}
    {fl fr : Option (Point T × Counts)}
    (hfl : a.farLeft.map Prod.fst = fl.map Prod.fst) (hfr : a.farRight.map Prod.fst = fr.map Prod.fst)
    (hM : Sorted (fl.toList ++ M ++ fr.toList))
    (hkeys : ∀ k ∈ a.inner.keys, inGap (fl.map Prod.fst) (fr.map Prod.fst) k = true) :
    a.apply (fl.toList ++ M ++ fr.toList) = a.farLeft.toList ++ a.inner.apply M ++ a.farRight.toList := by
  -- the ends' keys, before and after, and what lies strictly between them
  have hendL : ∀ l ∈ fl.toList ++ a.farLeft.toList, ∀ k ∈ a.inner.keys, l.1 < k := by
    intro l hl k hk
    have hl' : l.1 ∈ fl.map Prod.fst := by
      rcases List.mem_append.mp hl with hl | hl
      · exact Option.mem_map_of_mem _ (Option.mem_toList.mp hl)
      · exact hfl ▸ Option.mem_map_of_mem _ (Option.mem_toList.mp hl)
    exact (inGap_eq_true.mp (hkeys k hk)).1 _ hl'
  have hendR : ∀ r ∈ fr.toList ++ a.farRight.toList, ∀ k ∈ a.inner.keys, k < r.1 := by
    intro r hr k hk
    have hr' : r.1 ∈ fr.map Prod.fst := by
      rcases List.mem_append.mp hr with hr | hr
      · exact Option.mem_map_of_mem _ (Option.mem_toList.mp hr)
      · exact hfr ▸ Option.mem_map_of_mem _ (Option.mem_toList.mp hr)
    exact (inGap_eq_true.mp (hkeys k hk)).2 _ hr'
  have hentry : ∀ e ∈ [a.closeLeft, a.closeRight, a.toCreate], ∀ x ∈ e, x.1 ∈ a.inner.keys := by
    intro e he x hx
    rw [Option.mem_def] at hx
    simp only [List.mem_cons, List.not_mem_nil, or_false] at he
    simp only [Adjustment.keys, Adjustment.inner, List.mem_append, List.mem_map, Option.mem_toList]
    refine .inl ⟨x, ?_, rfl⟩
    rcases he with rfl | rfl | rfl <;> simp [hx]
  have hremove : ∀ k ∈ a.toRemove, k ∈ a.inner.keys := fun k hk =>
    List.mem_append_right _ (Option.mem_toList.mpr hk)
  have hlocal : ∀ e ∈ [a.closeLeft, a.closeRight, a.toCreate], ∀ W,
      insertOpt e (fl.toList ++ W ++ fr.toList) = fl.toList ++ insertOpt e W ++ fr.toList ∧
      insertOpt e (a.farLeft.toList ++ W ++ a.farRight.toList) =
        a.farLeft.toList ++ insertOpt e W ++ a.farRight.toList := fun e he W =>
    ⟨insertOpt_local (fun x hx l hl => hendL l (List.mem_append_left _ hl) _ (hentry e he x hx))
      (fun x hx r hr => hendR r (List.mem_append_left _ hr) _ (hentry e he x hx)),
     insertOpt_local (fun x hx l hl => hendL l (List.mem_append_right _ hl) _ (hentry e he x hx))
      (fun x hx r hr => hendR r (List.mem_append_right _ hr) _ (hentry e he x hx))⟩
  -- the keys of the middle stay below the right end
  have hmid : ∀ y ∈ a.farLeft.toList ++ insertOpt a.closeRight (insertOpt a.closeLeft M),
      ∀ g ∈ fr, y.1 < g.1 := by
    intro y hy g hg
    have hg' : g ∈ fr.toList := Option.mem_toList.mpr hg
    rcases List.mem_append.mp hy with hy | hy
    · have hy' := Option.mem_map_of_mem Prod.fst (Option.mem_toList.mp hy)
      rw [hfl] at hy'
      obtain ⟨f, hf, hkey⟩ := Option.mem_map.mp hy'
      rw [← hkey]
      exact (sorted_append.mp hM).2.2 f (by simp [Option.mem_def.mp hf]) g hg'
    · -- an entry of the middle is an old one or one the adjustment wrote
      have hinner : ∀ (e : Option (Point T × Counts)) (X : List (Point T × Counts)),
          (∀ w ∈ e, w.1 < g.1) → (∀ x ∈ X, x.1 < g.1) → ∀ x ∈ insertOpt e X, x.1 < g.1 := by
        intro e X he hX x hx
        cases e with
        | none => exact hX x hx
        | some w =>
          rcases mem_of_mem_insert hx with rfl | hx
          · exact he _ rfl
          · exact hX x hx
      have hbelow : ∀ e ∈ [a.closeLeft, a.closeRight, a.toCreate], ∀ w ∈ e, w.1 < g.1 :=
        fun e he w hw => hendR g (List.mem_append_left _ hg') _ (hentry e he w hw)
      exact hinner _ _ (hbelow _ (by simp)) (hinner _ M (hbelow _ (by simp))
        (fun m hm => window_lt_fr hM g hg m hm)) y hy
  simp only [Adjustment.apply]
  rw [(hlocal _ (by simp) M).1, (hlocal _ (by simp) _).1, List.append_assoc,
    insertOpt_toList_append hfl, ← List.append_assoc, insertOpt_append_toList hfr hmid,
    eraseOpt_local (fun k hk l hl => hendL l (List.mem_append_right _ hl) k (hremove k hk))
      (fun k hk r hr => hendR r (List.mem_append_right _ hr) k (hremove k hk)),
    (hlocal _ (by simp) _).2]
  rfl

/-! ## 3. Checking a window -/

/-- The chain up to a border `f`, over two sets that agree up to `f`, with `f` replaced by a
border of the same key and left count. -/
theorem isChain_linked_upTo {S S' : Finset (Point T)} {A : List (Point T × Counts)}
    {f f' : Point T × Counts} (hsorted : ∀ a ∈ A, a.1 < f.1) (hkey : f'.1 = f.1)
    (hleft : f'.2.left = f.2.left) (hagree : ∀ z, z < f.1 → (z ∈ S ↔ z ∈ S'))
    (hc : (none :: (A ++ [f]).map some).IsChain (Linked S)) :
    (none :: (A ++ [f']).map some).IsChain (Linked S') := by
  simp only [List.map_append, List.map_cons, List.map_nil, ← List.cons_append] at hc ⊢
  rw [List.isChain_append] at hc ⊢
  obtain ⟨hA, -, hj⟩ := hc
  refine ⟨?_, List.isChain_singleton _, ?_⟩
  · -- every bucket inside `A` lies below `f`
    refine (List.IsChain.iff_of_mem_tail_imp fun x y _ hy => linked_congr rfl rfl ?_).mp hA
    rw [List.tail_cons] at hy
    obtain ⟨a, ha, rfl⟩ := List.mem_map.mp hy
    exact count_congr fun z hz => hagree z (((inGap_eq_true.mp hz).2 a.1 rfl).trans (hsorted a ha))
  · intro x hx y hy
    obtain rfl : y = some f' := by simpa [eq_comm] using hy
    refine (linked_congr rfl (by simp [hleft]) ?_).mp (hj x hx (some f) (by simp))
    simp only [Option.map_some, hkey]
    exact count_congr fun z hz => hagree z ((inGap_eq_true.mp hz).2 f.1 rfl)

/-- The chain from a border `g` on, over two sets that agree from `g` on, with `g` replaced by a
border of the same key and right count. -/
theorem isChain_linked_from {S S' : Finset (Point T)} {B : List (Point T × Counts)}
    {g g' : Point T × Counts} (hsorted : ∀ b ∈ B, g.1 < b.1) (hkey : g'.1 = g.1)
    (hright : g'.2.right = g.2.right) (hagree : ∀ z, g.1 < z → (z ∈ S ↔ z ∈ S'))
    (hc : ((g :: B).map some ++ [none]).IsChain (Linked S)) :
    ((g' :: B).map some ++ [none]).IsChain (Linked S') := by
  rw [List.map_cons, List.cons_append, List.isChain_cons] at hc ⊢
  obtain ⟨hhead, htail⟩ := hc
  refine ⟨fun y hy => ?_, ?_⟩
  · refine (linked_congr (by simp [hright]) rfl ?_).mp (hhead y hy)
    simp only [Option.map_some, hkey]
    exact count_congr fun z hz => hagree z ((inGap_eq_true.mp hz).1 g.1 rfl)
  · -- every bucket from the first border of `B` on lies above `g`
    have hafter : ∀ b ∈ B, ∀ hi : Option (Point T), ∀ z, inGap (some b.1) hi z = true →
        (z ∈ S ↔ z ∈ S') := fun b hb hi z hz =>
      hagree z ((hsorted b hb).trans ((inGap_eq_true.mp hz).1 b.1 rfl))
    rw [List.isChain_append, List.isChain_map] at htail ⊢
    obtain ⟨hB, -, hlast⟩ := htail
    refine ⟨hB.imp_of_mem_imp fun a b ha _ hab => ?_, List.isChain_singleton _, fun x hx y hy => ?_⟩
    · exact (linked_congr rfl rfl (count_congr (hafter a ha _))).mp hab
    · rw [List.getLast?_map] at hx
      obtain ⟨b, hb, rfl⟩ := Option.mem_map.mp hx
      exact (linked_congr rfl rfl (count_congr (hafter b (List.mem_of_getLast? hb) _))).mp
        (hlast _ (by rw [List.getLast?_map]; exact Option.mem_map_of_mem some hb) y hy)

/-- In sorted borders cut at a window, `A` lies below the window's left end. -/
theorem window_left_lt {A M B : List (Point T × Counts)} {fl fr : Option (Point T × Counts)}
    (hsorted : Sorted (A ++ (fl.toList ++ M ++ fr.toList) ++ B)) :
    ∀ f ∈ fl, ∀ a ∈ A, a.1 < f.1 := fun f hf a ha =>
  (sorted_append.mp (sorted_append.mp hsorted).1).2.2 a ha f (by simp [Option.mem_def.mp hf])

/-- In sorted borders cut at a window, `B` lies above the window's right end. -/
theorem window_lt_right {A M B : List (Point T × Counts)} {fl fr : Option (Point T × Counts)}
    (hsorted : Sorted (A ++ (fl.toList ++ M ++ fr.toList) ++ B)) :
    ∀ g ∈ fr, ∀ b ∈ B, g.1 < b.1 := fun g hg b hb =>
  (sorted_append.mp hsorted).2.2 g (by simp [Option.mem_def.mp hg]) b hb

/-- **A window check.**  Borders cut as `A ++ (fl ++ M ++ fr) ++ B`, exact over `S`, whose
middle `M` is replaced by `M'` while the window's ends keep their keys and outer counts, are
exact over a set `S'` that agrees with `S` outside the window, once the window with its ends
is `Linked` over `S'`. -/
theorem BordersExact.window {S S' : Finset (Point T)} {A M M' B : List (Point T × Counts)}
    {fl fr fl' fr' : Option (Point T × Counts)}
    (hS : BordersExact S (A ++ (fl.toList ++ M ++ fr.toList) ++ B))
    (hsorted : Sorted (A ++ (fl.toList ++ M ++ fr.toList) ++ B))
    (hA : fl = none → A = []) (hB : fr = none → B = [])
    (hfl : fl'.map Prod.fst = fl.map Prod.fst) (hflc : leftCount fl' = leftCount fl)
    (hfr : fr'.map Prod.fst = fr.map Prod.fst) (hfrc : rightCount fr' = rightCount fr)
    (hout : ∀ z, inGap (fl.map Prod.fst) (fr.map Prod.fst) z = false → (z ∈ S ↔ z ∈ S'))
    (hmem : ∀ b ∈ M', b.1 ∈ S')
    (hwin : (fl' :: M'.map some ++ [fr']).IsChain (Linked S')) :
    BordersExact S' (A ++ (fl'.toList ++ M' ++ fr'.toList) ++ B) := by
  have hA' : fl' = none → A = [] := fun h => hA (by simpa [h] using hfl.symm)
  have hB' : fr' = none → B = [] := fun h => hB (by simpa [h] using hfr.symm)
  obtain ⟨hleft, -, hright⟩ := (isChain_bracket_window hA hB).mp hS.chain
  -- the sets agree up to the window's left end and from its right end on
  have hupTo : ∀ f ∈ fl, ∀ z, z ≤ f.1 → (z ∈ S ↔ z ∈ S') := fun f hf z hz =>
    hout z (by rw [Option.mem_def.mp hf]; simp [inGap, not_lt.mpr hz])
  have hfrom : ∀ g ∈ fr, ∀ z, g.1 ≤ z → (z ∈ S ↔ z ∈ S') := fun g hg z hz =>
    hout z (by rw [Option.mem_def.mp hg]; simp [inGap, not_lt.mpr hz])
  have hAf := window_left_lt hsorted
  have hgB := window_lt_right hsorted
  constructor
  · intro b hb
    simp only [List.mem_append, Option.mem_toList] at hb
    rcases hb with (hbA | (hb | hbM) | hb) | hbB
    · cases hf : fl with
      | none => simp [hA hf] at hbA
      | some f =>
        exact (hupTo f hf b.1 (hAf f hf b hbA).le).mp (hS.border_mem b (by simp [hbA]))
    · obtain ⟨f, hf, hkey⟩ := Option.map_eq_some_iff.mp (hfl ▸ Option.map_eq_some_iff.mpr ⟨b, hb, rfl⟩)
      rw [← hkey]
      exact (hupTo f hf f.1 le_rfl).mp (hS.border_mem f (by simp [hf]))
    · exact hmem b hbM
    · obtain ⟨g, hg, hkey⟩ := Option.map_eq_some_iff.mp (hfr ▸ Option.map_eq_some_iff.mpr ⟨b, hb, rfl⟩)
      rw [← hkey]
      exact (hfrom g hg g.1 le_rfl).mp (hS.border_mem g (by simp [hg]))
    · cases hg : fr with
      | none => simp [hB hg] at hbB
      | some g =>
        exact (hfrom g hg b.1 (hgB g hg b hbB).le).mp (hS.border_mem b (by simp [hbB]))
  · rw [isChain_bracket_window hA' hB']
    refine ⟨?_, hwin, ?_⟩
    · cases hf : fl with
      | none =>
        have hf' : fl' = none := by simpa [hf] using hfl
        simp [hA hf, hf']
      | some f =>
        have hkey' : fl'.map Prod.fst = some f.1 := by rw [hfl, hf]; rfl
        obtain ⟨f', hf', hkey⟩ := Option.map_eq_some_iff.mp hkey'
        rw [hf'] at hflc ⊢
        rw [hf] at hleft
        exact isChain_linked_upTo (hAf f hf) hkey (by simpa [hf] using hflc)
          (fun z hz => hupTo f hf z hz.le) hleft
    · cases hg : fr with
      | none =>
        have hg' : fr' = none := by simpa [hg] using hfr
        simp [hB hg, hg']
      | some g =>
        have hkey' : fr'.map Prod.fst = some g.1 := by rw [hfr, hg]; rfl
        obtain ⟨g', hg', hkey⟩ := Option.map_eq_some_iff.mp hkey'
        rw [hg'] at hfrc ⊢
        rw [hg] at hright
        exact isChain_linked_from (hgB g hg) hkey (by simpa [hg] using hfrc)
          (fun z hz => hfrom g hg z hz.le) hright

/-- **An adjustment checked on its window.**  An adjustment whose far neighbours keep the keys
and outer counts of the window's ends, and which writes everything else strictly between them,
leaves exact borders exact over a set `S'` that agrees with `S` outside the window, once its
inner part turns the middle `M` into an `M'` that is `Linked` over `S'` between the new ends. -/
theorem BordersExact.adjust {S S' : Finset (Point T)} {A M M' B : List (Point T × Counts)}
    {fl fr : Option (Point T × Counts)} (a : Adjustment T)
    (hS : BordersExact S (A ++ (fl.toList ++ M ++ fr.toList) ++ B))
    (hsorted : Sorted (A ++ (fl.toList ++ M ++ fr.toList) ++ B))
    (hA : fl = none → A = []) (hB : fr = none → B = [])
    (hfl : a.farLeft.map Prod.fst = fl.map Prod.fst) (hflc : leftCount a.farLeft = leftCount fl)
    (hfr : a.farRight.map Prod.fst = fr.map Prod.fst) (hfrc : rightCount a.farRight = rightCount fr)
    (hkeys : ∀ k ∈ a.inner.keys, inGap (fl.map Prod.fst) (fr.map Prod.fst) k = true)
    (happly : a.inner.apply M = M')
    (hout : ∀ z, inGap (fl.map Prod.fst) (fr.map Prod.fst) z = false → (z ∈ S ↔ z ∈ S'))
    (hmem : ∀ b ∈ M', b.1 ∈ S')
    (hwin : (a.farLeft :: M'.map some ++ [a.farRight]).IsChain (Linked S')) :
    BordersExact S' (a.apply (A ++ (fl.toList ++ M ++ fr.toList) ++ B)) := by
  have hwsorted : Sorted (fl.toList ++ M ++ fr.toList) := (sorted_append.mp (sorted_append.mp hsorted).1).2.1
  -- every key the adjustment writes lies at or between the window's ends, so between `A` and `B`
  have hAk : ∀ f ∈ fl, ∀ k, f.1 ≤ k → ∀ x ∈ A, x.1 < k := fun f hf k hk x hx =>
    lt_of_lt_of_le (window_left_lt hsorted f hf x hx) hk
  have hkB : ∀ g ∈ fr, ∀ k, k ≤ g.1 → ∀ y ∈ B, k < y.1 := fun g hg k hk y hy =>
    lt_of_le_of_lt hk (window_lt_right hsorted g hg y hy)
  have hflB : ∀ f ∈ fl, ∀ y ∈ B, f.1 < y.1 := fun f hf y hy =>
    (sorted_append.mp hsorted).2.2 f (by simp [Option.mem_def.mp hf]) y hy
  have hAfr : ∀ g ∈ fr, ∀ x ∈ A, x.1 < g.1 := fun g hg x hx =>
    (sorted_append.mp (sorted_append.mp hsorted).1).2.2 x hx g (by simp [Option.mem_def.mp hg])
  have hlocal : ∀ k ∈ a.keys, (∀ x ∈ A, x.1 < k) ∧ ∀ y ∈ B, k < y.1 := by
    intro k hk
    rcases Adjustment.mem_keys hk with hk | ⟨x, hx, rfl⟩ | ⟨x, hx, rfl⟩
    · obtain ⟨hlo, hhi⟩ := inGap_eq_true.mp (hkeys k hk)
      refine ⟨fun y hy => ?_, fun y hy => ?_⟩
      · cases hf : fl with
        | none => simp [hA hf] at hy
        | some f => exact hAk f hf k (hlo f.1 (by simp [hf])).le y hy
      · cases hg : fr with
        | none => simp [hB hg] at hy
        | some g => exact hkB g hg k (hhi g.1 (by simp [hg])).le y hy
    · have hx' := Option.mem_map_of_mem Prod.fst hx
      rw [hfl] at hx'
      obtain ⟨f, hf, hkey⟩ := Option.mem_map.mp hx'
      rw [← hkey]
      exact ⟨hAk f hf f.1 le_rfl, hflB f hf⟩
    · have hx' := Option.mem_map_of_mem Prod.fst hx
      rw [hfr] at hx'
      obtain ⟨g, hg, hkey⟩ := Option.mem_map.mp hx'
      rw [← hkey]
      exact ⟨hAfr g hg, hkB g hg g.1 le_rfl⟩
  rw [a.apply_local (fun k hk => (hlocal k hk).1) (fun k hk => (hlocal k hk).2),
    a.apply_within hfl hfr hwsorted hkeys, happly]
  exact hS.window hsorted hA hB hfl hflc hfr hfrc hout hmem hwin

/-- The window of exact borders is `Linked`. -/
theorem BordersExact.window_chain {S : Finset (Point T)} {A M B : List (Point T × Counts)}
    {fl fr : Option (Point T × Counts)} (hS : BordersExact S (A ++ (fl.toList ++ M ++ fr.toList) ++ B))
    (hA : fl = none → A = []) (hB : fr = none → B = []) :
    (fl :: M.map some ++ [fr]).IsChain (Linked S) :=
  ((isChain_bracket_window hA hB).mp hS.chain).2.1

/-- Outside a gap that holds `p`, adding `p` changes nothing. -/
theorem agree_insert [DecidableEq (Point T)] {S : Finset (Point T)} {p : Point T} {lo hi : Option (Point T)}
    (hp : inGap lo hi p = true) (z : Point T) (hz : inGap lo hi z = false) :
    z ∈ S ↔ z ∈ insert p S := by
  have hne : z ≠ p := by
    rintro rfl
    rw [hp] at hz
    exact Bool.noConfusion hz
  simp [hne]

/-- Outside a gap that holds `p`, removing `p` changes nothing. -/
theorem agree_erase [DecidableEq (Point T)] {S : Finset (Point T)} {p : Point T} {lo hi : Option (Point T)}
    (hp : inGap lo hi p = true) (z : Point T) (hz : inGap lo hi z = false) :
    z ∈ S ↔ z ∈ S.erase p := by
  have hne : z ≠ p := by
    rintro rfl
    rw [hp] at hz
    exact Bool.noConfusion hz
  simp [hne]

/-- A bucket that `p` does not fall in is `Linked` alike with and without `p`. -/
theorem linked_insert_of_not_gap [DecidableEq (Point T)] {S : Finset (Point T)} {p : Point T} (hp : p ∉ S)
    {x y : Option (Point T × Counts)} (hg : inGap (x.map Prod.fst) (y.map Prod.fst) p = false) :
    Linked (insert p S) x y ↔ Linked S x y :=
  linked_congr rfl rfl (count_insert_of_not_gap hp hg)

theorem linked_erase_of_not_gap [DecidableEq (Point T)] {S : Finset (Point T)} {p : Point T} (hp : p ∈ S)
    {x y : Option (Point T × Counts)} (hg : inGap (x.map Prod.fst) (y.map Prod.fst) p = false) :
    Linked (S.erase p) x y ↔ Linked S x y := by
  refine linked_congr rfl rfl ?_
  rw [count_erase hp, hg]
  rfl

/-! ## 4. Exact neighbours -/

/-- `left` answers with the greatest point of `S` below its argument, if any. -/
def IsLeftNeighbour (S : Finset (Point T)) (left : Point T → Option (Point T)) : Prop :=
  ∀ x y, left x = some y ↔ y ∈ S ∧ y < x ∧ ∀ z ∈ S, z < x → z ≤ y

/-- `right` answers with the least point of `S` above its argument, if any. -/
def IsRightNeighbour (S : Finset (Point T)) (right : Point T → Option (Point T)) : Prop :=
  ∀ x y, right x = some y ↔ y ∈ S ∧ x < y ∧ ∀ z ∈ S, x < z → y ≤ z

/-- Below a point of `S` there is a left neighbour, at or above it, with nothing of `S` between
it and the argument. -/
theorem IsLeftNeighbour.exists {S : Finset (Point T)} {left : Point T → Option (Point T)}
    (hl : IsLeftNeighbour S left) {x z : Point T} (hz : z ∈ S) (hzx : z < x) :
    ∃ y, left x = some y ∧ y ∈ S ∧ y < x ∧ z ≤ y ∧ count S (some y) (some x) = 0 := by
  have hne : (S.filter (· < x)).Nonempty := ⟨z, Finset.mem_filter.mpr ⟨hz, hzx⟩⟩
  obtain ⟨hyS, hyx⟩ := Finset.mem_filter.mp ((S.filter (· < x)).max'_mem hne)
  have hmax : ∀ w ∈ S, w < x → w ≤ (S.filter (· < x)).max' hne := fun w hw hwx =>
    (S.filter (· < x)).le_max' w (Finset.mem_filter.mpr ⟨hw, hwx⟩)
  refine ⟨_, (hl x _).mpr ⟨hyS, hyx, hmax⟩, hyS, hyx, hmax z hz hzx, ?_⟩
  rw [count_eq_zero_iff]
  intro w hw
  simp only [inGap, Option.all_some, Bool.and_eq_false_iff, decide_eq_false_iff_not, not_lt]
  by_cases hwx : w < x
  · exact .inl (hmax w hw hwx)
  · exact .inr (not_lt.mp hwx)

/-- Above a point of `S` there is a right neighbour, at or below it, with nothing of `S` between
the argument and it. -/
theorem IsRightNeighbour.exists {S : Finset (Point T)} {right : Point T → Option (Point T)}
    (hr : IsRightNeighbour S right) {x z : Point T} (hz : z ∈ S) (hxz : x < z) :
    ∃ y, right x = some y ∧ y ∈ S ∧ x < y ∧ y ≤ z ∧ count S (some x) (some y) = 0 := by
  have hne : (S.filter (x < ·)).Nonempty := ⟨z, Finset.mem_filter.mpr ⟨hz, hxz⟩⟩
  obtain ⟨hyS, hxy⟩ := Finset.mem_filter.mp ((S.filter (x < ·)).min'_mem hne)
  have hmin : ∀ w ∈ S, x < w → (S.filter (x < ·)).min' hne ≤ w := fun w hw hxw =>
    (S.filter (x < ·)).min'_le w (Finset.mem_filter.mpr ⟨hw, hxw⟩)
  refine ⟨_, (hr x _).mpr ⟨hyS, hxy, hmin⟩, hyS, hxy, hmin z hz hxz, ?_⟩
  rw [count_eq_zero_iff]
  intro w hw
  simp only [inGap, Option.all_some, Bool.and_eq_false_iff, decide_eq_false_iff_not, not_lt]
  by_cases hxw : x < w
  · exact .inr (hmin w hw hxw)
  · exact .inl (not_lt.mp hxw)

/-! ## 5. `insert` keeps the borders exact -/

section Insert

variable [Numericable T] {S : Finset (Point T)} {p : Point T}
  {left right : Point T → Option (Point T)}

/-- A value below every border: a new first border, or the first border moved to it. -/
theorem BordersExact.insert_below {h : Histogram T} {rb : Point T} {rbc : Counts}
    {fl fr : Option (Point T × Counts)} (hS : BordersExact S h.borders) (hp : p ∉ S)
    (hlen : 2 ≤ h.borders.length) (hn : h.neighbours p = ((none, some (rb, rbc)), (fl, fr))) :
    ∃ a, h.insertAdjustment p left right = some a ∧
      BordersExact (insert p S) (a.apply h.borders) := by
  obtain ⟨A, B, hbs, hA, hB, hcl, -, -, hgt⟩ := h.neighbours_window hn
  obtain rfl : fl = none := hcl rfl
  have hprb : p < rb := hgt _ rfl
  have hsorted := h.sorted
  rw [hbs] at hS hsorted hlen
  -- with two borders or more, the far right neighbour is there
  obtain ⟨g, rfl⟩ : ∃ g, fr = some g := by
    cases fr with
    | none => simp [hA rfl, hB rfl] at hlen
    | some g => exact ⟨g, rfl⟩
  have hrbg : rb < g.1 := by
    simpa [Sorted] using (sorted_append.mp (sorted_append.mp hsorted).1).2.1
  have hwin := hS.window_chain hA hB
  simp only [Option.toList_none, Option.toList_some, List.nil_append, List.map_cons, List.map_nil,
    List.cons_append, List.isChain_cons_cons, List.isChain_singleton, and_true] at hwin
  obtain ⟨hfirst, hnext⟩ := hwin
  obtain ⟨hrbc0, hbelow⟩ := linked_none_some.mp hfirst
  have hpg : p < g.1 := hprb.trans hrbg
  have hrbS : rb ∈ S := hS.border_mem (rb, rbc) (by simp)
  -- nothing of `insert p S` lies below `p`
  have hnew : ∀ c, Linked (insert p S) none (some (p, ⟨0, c⟩)) := fun c => by
    refine linked_none_some.mpr ⟨rfl, fun z hz => ?_⟩
    rcases Finset.mem_insert.mp hz with rfl | hz
    · exact le_rfl
    · exact hprb.le.trans (hbelow z hz)
  have hout : ∀ z, inGap ((none : Option (Point T × Counts)).map Prod.fst) ((some g).map Prod.fst) z = false →
      (z ∈ S ↔ z ∈ insert p S) := agree_insert (by simp [inGap, hpg])
  simp only [Histogram.insertAdjustment, hn]
  rw [hbs]
  split_ifs with hover
  · -- the first bucket is full: `p` becomes a new first border
    refine ⟨_, rfl, hS.adjust _ hsorted hA hB rfl rfl rfl rfl ?_
      (?_ : _ = [(p, ⟨0, 0⟩), (rb, rbc)]) hout ?_ ?_⟩
    · simp [Adjustment.keys, Adjustment.inner, inGap, hrbg, hpg]
    · simp [Adjustment.inner, Adjustment.apply, insertOpt, eraseOpt, insert_cons_self,
        insert_cons_of_lt, hprb]
    · simp [hrbS]
    · -- the new first bucket is empty, and the old first border keeps its counts
      have hzero : count S (some p) (some rb) = 0 :=
        count_eq_zero_iff.mpr fun z hz => by simp [inGap, not_lt.mpr (hbelow z hz)]
      have hpp : inGap (some p) (some rb) p = false := by simp [inGap]
      have hrg : inGap (some rb) (some g.1) p = false := by simp [inGap, not_lt.mpr hprb.le]
      simp only [List.map_cons, List.map_nil, List.cons_append, List.nil_append,
        List.isChain_cons_cons, List.isChain_singleton, and_true]
      refine ⟨hnew 0, ⟨hrbc0.symm, ?_⟩, (linked_insert_of_not_gap (x := some (rb, rbc)) (y := some g) hp hrg).mpr hnext⟩
      simp [count_insert_of_not_gap hp hpp, hzero]
  · -- `p` takes the first border's place, its bucket one larger
    refine ⟨_, rfl, hS.adjust _ hsorted hA hB rfl rfl rfl rfl ?_
      (?_ : _ = [(p, ⟨0, rbc.right + 1⟩)]) hout ?_ ?_⟩
    · simp [Adjustment.keys, Adjustment.inner, inGap, hrbg, hpg]
    · simp [Adjustment.inner, Adjustment.apply, insertOpt, eraseOpt, insert_cons_self]
    · simp
    · -- the bucket from `p` to the far border holds the old first bucket and `rb`
      have hgap : inGap none (some g.1) p = true := by simp [inGap, hpg]
      have hsplit' := count_split (Finset.mem_insert_self p S) hgap
      have hsplit := count_split hrbS (by simp [inGap, hrbg] : inGap none (some g.1) rb = true)
      have hins := count_insert_of_gap hp hgap
      have hlow := (hnew (rbc.right + 1)).2
      have hfirst' := hfirst.2
      have hnext' := hnext.2
      simp only [rightCount_none, rightCount_some, Option.map_none, Option.map_some] at hlow hfirst' hnext'
      simp only [List.map_cons, List.map_nil, List.cons_append, List.nil_append,
        List.isChain_cons_cons, List.isChain_singleton, and_true]
      refine ⟨hnew _, rfl, ?_⟩
      simp only [rightCount_some, setLeft, Option.map_some]
      omega

/-- A value above every border: a new last border, or the last border moved to it. -/
theorem BordersExact.insert_above {h : Histogram T} {lb : Point T} {lbc : Counts}
    {fl fr : Option (Point T × Counts)} (hS : BordersExact S h.borders) (hp : p ∉ S)
    (hlen : 2 ≤ h.borders.length) (hn : h.neighbours p = ((some (lb, lbc), none), (fl, fr))) :
    ∃ a, h.insertAdjustment p left right = some a ∧
      BordersExact (insert p S) (a.apply h.borders) := by
  obtain ⟨A, B, hbs, hA, hB, -, hcr, hle, -⟩ := h.neighbours_window hn
  obtain rfl : fr = none := hcr rfl
  have hsorted := h.sorted
  rw [hbs] at hS hsorted hlen
  -- with two borders or more, the far left neighbour is there
  obtain ⟨f, rfl⟩ : ∃ f, fl = some f := by
    cases fl with
    | none => simp [hA rfl, hB rfl] at hlen
    | some f => exact ⟨f, rfl⟩
  have hflb : f.1 < lb := by
    simpa [Sorted] using (sorted_append.mp (sorted_append.mp hsorted).1).2.1
  have hwin := hS.window_chain hA hB
  simp only [Option.toList_none, Option.toList_some, List.append_nil, List.map_cons, List.map_nil,
    List.cons_append, List.nil_append, List.isChain_cons_cons, List.isChain_singleton,
    and_true] at hwin
  obtain ⟨hprev, hlast⟩ := hwin
  obtain ⟨hlbc0, habove⟩ := linked_some_none.mp hlast
  have hright : lbc.right = 0 := hlbc0
  have hlbS : lb ∈ S := hS.border_mem (lb, lbc) (by simp)
  have hlbp : lb < p := lt_of_le_of_ne (hle _ rfl) fun h => hp (h ▸ hlbS)
  have hfp : f.1 < p := hflb.trans hlbp
  -- nothing of `insert p S` lies above `p`
  have hnew : ∀ c, Linked (insert p S) (some (p, ⟨c, 0⟩)) none := fun c => by
    refine linked_some_none.mpr ⟨rfl, fun z hz => ?_⟩
    rcases Finset.mem_insert.mp hz with rfl | hz
    · exact le_rfl
    · exact (habove z hz).trans hlbp.le
  have hout : ∀ z, inGap ((some f).map Prod.fst) ((none : Option (Point T × Counts)).map Prod.fst) z = false →
      (z ∈ S ↔ z ∈ insert p S) := agree_insert (by simp [inGap, hfp])
  simp only [Histogram.insertAdjustment, hn]
  rw [hbs]
  split_ifs with hover
  · -- the last bucket is full: `p` becomes a new last border
    refine ⟨_, rfl, hS.adjust _ hsorted hA hB rfl rfl rfl rfl ?_
      (?_ : _ = [(lb, lbc), (p, ⟨0, 0⟩)]) hout ?_ ?_⟩
    · simp [Adjustment.keys, Adjustment.inner, inGap, hflb, hfp]
    · simp [Adjustment.inner, Adjustment.apply, insertOpt, eraseOpt, insert_cons_self,
        insert_cons_of_gt, hlbp]
    · simp [hlbS]
    · -- the new last bucket is empty, and the old last border keeps its counts
      have hzero : count S (some lb) (some p) = 0 :=
        count_eq_zero_iff.mpr fun z hz => by simp [inGap, not_lt.mpr (habove z hz)]
      have hpp : inGap (some lb) (some p) p = false := by simp [inGap]
      have hfl : inGap (some f.1) (some lb) p = false := by simp [inGap, not_lt.mpr hlbp.le]
      simp only [List.map_cons, List.map_nil, List.cons_append, List.nil_append,
        List.isChain_cons_cons, List.isChain_singleton, and_true]
      refine ⟨(linked_insert_of_not_gap (x := some f) (y := some (lb, lbc)) hp hfl).mpr hprev,
        ⟨hright, ?_⟩, hnew 0⟩
      simp [count_insert_of_not_gap hp hpp, hzero, hright]
  · -- `p` takes the last border's place, its bucket one larger
    refine ⟨_, rfl, hS.adjust _ hsorted hA hB rfl rfl rfl rfl ?_
      (?_ : _ = [(p, ⟨lbc.left + 1, 0⟩)]) hout ?_ ?_⟩
    · simp [Adjustment.keys, Adjustment.inner, inGap, hflb, hfp]
    · simp [Adjustment.inner, Adjustment.apply, insertOpt, eraseOpt, insert_cons_self]
    · simp
    · -- the bucket from the far border to `p` holds the old last bucket and `lb`
      have hgap : inGap (some f.1) none p = true := by simp [inGap, hfp]
      have hsplit' := count_split (Finset.mem_insert_self p S) hgap
      have hsplit := count_split hlbS (by simp [inGap, hflb] : inGap (some f.1) none lb = true)
      have hins := count_insert_of_gap hp hgap
      have hhigh := (hnew (lbc.left + 1)).2
      obtain ⟨hprev₁, hprev₂⟩ := hprev
      have hlast' := hlast.2
      simp only [rightCount_some, leftCount_some, Option.map_none, Option.map_some]
        at hhigh hprev₁ hprev₂ hlast'
      simp only [List.map_cons, List.map_nil, List.cons_append, List.nil_append,
        List.isChain_cons_cons, List.isChain_singleton, and_true]
      refine ⟨⟨rfl, ?_⟩, hnew _⟩
      simp only [rightCount_some, setRight_right, Option.map_some, setRight_fst]
      omega

/-- A value between two borders: their bucket grows, or, when it is full, the closer border
moves onto the value's side or a new border splits the bucket. -/
theorem BordersExact.insert_between {h : Histogram T} {lb rb : Point T} {lbc rbc : Counts}
    {fl fr : Option (Point T × Counts)} (hS : BordersExact S h.borders) (hp : p ∉ S)
    (hl : IsLeftNeighbour (insert p S) left) (hr : IsRightNeighbour (insert p S) right)
    (hn : h.neighbours p = ((some (lb, lbc), some (rb, rbc)), (fl, fr))) :
    ∃ a, h.insertAdjustment p left right = some a ∧
      BordersExact (insert p S) (a.apply h.borders) := by
  obtain ⟨A, B, hbs, hA, hB, -, -, hle, hgt⟩ := h.neighbours_window hn
  have hsorted := h.sorted
  rw [hbs] at hS hsorted
  have hlbS : lb ∈ S := hS.border_mem (lb, lbc) (by simp)
  have hrbS : rb ∈ S := hS.border_mem (rb, rbc) (by simp)
  have hprb : p < rb := hgt _ rfl
  have hlbp : lb < p := lt_of_le_of_ne (hle _ rfl) fun h => hp (h ▸ hlbS)
  have hwsorted := (sorted_append.mp (sorted_append.mp hsorted).1).2.1
  have hfl : ∀ f ∈ fl, f.1 < lb := fun f hf => window_fl_lt hwsorted f hf (lb, lbc) (by simp)
  have hfr : ∀ g ∈ fr, rb < g.1 := fun g hg => window_lt_fr hwsorted g hg (rb, rbc) (by simp)
  have hwin := hS.window_chain hA hB
  simp only [Option.toList_some, List.map_cons, List.map_nil, List.cons_append, List.nil_append,
    List.isChain_cons_cons, List.isChain_singleton, and_true] at hwin
  obtain ⟨hL, hM, hR⟩ := hwin
  -- the buckets left and right of `p`'s own are unchanged
  have hL' : Linked (insert p S) fl (some (lb, lbc)) :=
    (linked_insert_of_not_gap hp (by simp [inGap, not_lt.mpr hlbp.le])).mpr hL
  have hR' : Linked (insert p S) (some (rb, rbc)) fr :=
    (linked_insert_of_not_gap hp (by simp [inGap, not_lt.mpr hprb.le])).mpr hR
  obtain ⟨hM₁, hM₂⟩ := hM
  simp only [rightCount_some, leftCount_some, Option.map_some] at hM₁ hM₂
  -- `p`'s bucket grows by one
  have hmid : count (insert p S) (some lb) (some rb) = lbc.right + 1 := by
    rw [count_insert_of_gap hp (by simp [inGap, hlbp, hprb]), hM₂]
  have hgap : inGap (fl.map Prod.fst) (fr.map Prod.fst) p = true := by
    refine inGap_eq_true.mpr ⟨fun f hf => ?_, fun g hg => ?_⟩
    · obtain ⟨f', hf', rfl⟩ := Option.mem_map.mp hf
      exact (hfl f' hf').trans hlbp
    · obtain ⟨g', hg', rfl⟩ := Option.mem_map.mp hg
      exact hprb.trans (hfr g' hg')
  have hout := agree_insert (S := S) hgap
  -- both neighbours of `p`'s bucket exist, since `p` is in it
  obtain ⟨nb, hnb, hnbS, hlbnb, hnbp, hzero⟩ := hr.exists (Finset.mem_insert_self p S) hlbp
  obtain ⟨nb', hnb', hnbS', hnbrb', hpnb', hzero'⟩ := hl.exists (Finset.mem_insert_self p S) hprb
  have hnbrb : nb < rb := lt_of_le_of_lt hnbp hprb
  have hlbnb' : lb < nb' := lt_of_lt_of_le hlbp hpnb'
  simp only [Histogram.insertAdjustment, hn, hnb, hnb']
  rw [hbs, if_neg (not_not.mpr hM₁)]
  have hlbS' : lb ∈ insert p S := Finset.mem_insert_of_mem hlbS
  have hrbS' : rb ∈ insert p S := Finset.mem_insert_of_mem hrbS
  -- the bucket that `p` joins, from either side of the neighbour that splits it
  have hrest : count (insert p S) (some nb) (some rb) = lbc.right := by
    have := count_split hnbS (by simp [inGap, hlbnb, hnbrb] : inGap (some lb) (some rb) nb = true)
    omega
  have hrest' : count (insert p S) (some lb) (some nb') = lbc.right := by
    have := count_split hnbS' (by simp [inGap, hlbnb', hnbrb'] : inGap (some lb) (some rb) nb' = true)
    omega
  -- every key written between `lb` and `rb` lies inside the window
  have hinside : ∀ k, lb ≤ k → k ≤ rb → inGap (fl.map Prod.fst) (fr.map Prod.fst) k = true := by
    intro k hlo hhi
    refine inGap_eq_true.mpr ⟨fun f hf => ?_, fun g hg => ?_⟩
    · obtain ⟨f', hf', rfl⟩ := Option.mem_map.mp hf
      exact lt_of_lt_of_le (hfl f' hf') hlo
    · obtain ⟨g', hg', rfl⟩ := Option.mem_map.mp hg
      exact lt_of_le_of_lt hhi (hfr g' hg')
  have hlbrb : lb < rb := hlbp.trans hprb
  split_ifs with hover hcloser hmove hmove'
  · -- the left border moves to `nb`, and its bucket joins the far left one
    obtain ⟨f, rfl⟩ := Option.isSome_iff_exists.mp hmove.2
    have hflb : f.1 < lb := hfl f rfl
    simp only [Option.map_some] at hinside
    refine ⟨_, rfl, hS.adjust _ hsorted hA hB rfl rfl rfl rfl ?_
      (?_ : _ = [(nb, ⟨lbc.left + 1, lbc.right⟩), (rb, rbc)]) hout ?_ ?_⟩
    · simp [-inGap_eq_true, Adjustment.keys, Adjustment.inner, hinside, hlbrb.le, hlbnb.le, hnbrb.le]
    · simp [Adjustment.inner, Adjustment.apply, insertOpt, eraseOpt, insert_cons_self,
        insert_cons_of_lt, insert_cons_of_gt, erase_cons_of_lt, hlbrb, hnbrb]
    · simpa using And.intro hnbS hrbS'
    · have hsplit := count_split hlbS'
        (by simp [inGap, hflb, hlbnb] : inGap (some f.1) (some nb) lb = true)
      obtain ⟨hL₁, hL₂⟩ := hL'
      simp only [rightCount_some, leftCount_some, Option.map_some] at hL₁ hL₂
      simp only [List.map_cons, List.map_nil, List.cons_append, List.nil_append, Option.map_some,
        List.isChain_cons_cons, List.isChain_singleton, and_true]
      refine ⟨⟨rfl, ?_⟩, ⟨hM₁, hrest.symm⟩, hR'⟩
      simp only [rightCount_some, setRight_right, setRight_fst, Option.map_some]
      omega
  · -- a new border at `nb` closes the left border's bucket
    refine ⟨_, rfl, hS.adjust _ hsorted hA hB rfl rfl rfl rfl ?_
      (?_ : _ = [(lb, ⟨lbc.left, 0⟩), (nb, ⟨0, lbc.right⟩), (rb, rbc)]) hout ?_ ?_⟩
    · simp [-inGap_eq_true, Adjustment.keys, Adjustment.inner, hinside, hlbrb.le, hlbnb.le, hnbrb.le]
    · simp [Adjustment.inner, Adjustment.apply, insertOpt, eraseOpt, insert_cons_self,
        insert_cons_of_lt, insert_cons_of_gt, hlbrb, hlbnb, hnbrb]
    · simpa using And.intro hlbS' (And.intro hnbS hrbS')
    · simp only [List.map_cons, List.map_nil, List.cons_append, List.nil_append,
        List.isChain_cons_cons, List.isChain_singleton, and_true]
      exact ⟨hL', ⟨rfl, hzero.symm⟩, ⟨hM₁, hrest.symm⟩, hR'⟩
  · -- the right border moves to `nb'`, and its bucket joins the far right one
    obtain ⟨g, rfl⟩ := Option.isSome_iff_exists.mp hmove'.2
    have hrbg : rb < g.1 := hfr g rfl
    simp only [Option.map_some] at hinside
    refine ⟨_, rfl, hS.adjust _ hsorted hA hB rfl rfl rfl rfl ?_
      (?_ : _ = [(lb, lbc), (nb', ⟨rbc.left, rbc.right + 1⟩)]) hout ?_ ?_⟩
    · simp [-inGap_eq_true, Adjustment.keys, Adjustment.inner, hinside, hlbrb.le, hlbnb'.le, hnbrb'.le]
    · simp [Adjustment.inner, Adjustment.apply, insertOpt, eraseOpt, insert_cons_self,
        insert_cons_of_gt, erase_cons_of_gt, hlbrb, hlbnb']
    · simpa using And.intro hlbS' hnbS'
    · have hsplit := count_split hrbS'
        (by simp [inGap, hnbrb', hrbg] : inGap (some nb') (some g.1) rb = true)
      obtain ⟨hR₁, hR₂⟩ := hR'
      simp only [rightCount_some, leftCount_some, Option.map_some] at hR₁ hR₂
      simp only [List.map_cons, List.map_nil, List.cons_append, List.nil_append, Option.map_some,
        List.isChain_cons_cons, List.isChain_singleton, and_true]
      refine ⟨hL', ⟨hM₁, hrest'.symm⟩, ⟨rfl, ?_⟩⟩
      simp only [rightCount_some, setLeft_fst, Option.map_some]
      omega
  · -- a new border at `nb'` closes the right border's bucket
    refine ⟨_, rfl, hS.adjust _ hsorted hA hB rfl rfl rfl rfl ?_
      (?_ : _ = [(lb, lbc), (nb', ⟨rbc.left, 0⟩), (rb, ⟨0, rbc.right⟩)]) hout ?_ ?_⟩
    · simp [-inGap_eq_true, Adjustment.keys, Adjustment.inner, hinside, hlbrb.le, hlbnb'.le, hnbrb'.le]
    · simp [Adjustment.inner, Adjustment.apply, insertOpt, eraseOpt, insert_cons_self,
        insert_cons_of_lt, insert_cons_of_gt, hlbrb, hlbnb', hnbrb']
    · simpa using And.intro hlbS' (And.intro hnbS' hrbS')
    · simp only [List.map_cons, List.map_nil, List.cons_append, List.nil_append,
        List.isChain_cons_cons, List.isChain_singleton, and_true]
      exact ⟨hL', ⟨hM₁, hrest'.symm⟩, ⟨rfl, hzero'.symm⟩, hR'⟩
  · -- room in the bucket: both borders count one more
    refine ⟨_, rfl, hS.adjust _ hsorted hA hB rfl rfl rfl rfl ?_
      (?_ : _ = [(lb, ⟨lbc.left, lbc.right + 1⟩), (rb, ⟨lbc.right + 1, rbc.right⟩)]) hout ?_ ?_⟩
    · simp [-inGap_eq_true, Adjustment.keys, Adjustment.inner, hinside, hlbrb.le]
    · simp [Adjustment.inner, Adjustment.apply, insertOpt, eraseOpt, insert_cons_self,
        insert_cons_of_gt, hlbrb]
    · simpa using And.intro hlbS' hrbS'
    · simp only [List.map_cons, List.map_nil, List.cons_append, List.nil_append,
        List.isChain_cons_cons, List.isChain_singleton, and_true]
      exact ⟨hL', ⟨rfl, hmid.symm⟩, hR'⟩

omit [Numericable T] in
/-- Fewer than two borders: the value becomes a border with two empty buckets. -/
theorem BordersExact.insert_short {bs : List (Point T × Counts)} (hS : BordersExact S bs)
    (hp : p ∉ S) (hlen : bs.length < 2) :
    BordersExact (insert p S) (OrdMap.insert p ⟨0, 0⟩ bs) := by
  -- an empty bucket between two borders over `insert p S`
  have hempty : ∀ a b : Point T × Counts, a.2.right = 0 → b.2.left = 0 →
      (∀ z ∈ insert p S, z ≤ a.1 ∨ b.1 ≤ z) → Linked (insert p S) (some a) (some b) := by
    intro a b ha hb hz
    refine ⟨by simp [ha, hb], ?_⟩
    simp only [rightCount_some, ha, Option.map_some]
    refine (count_eq_zero_iff.mpr fun z hzS => ?_).symm
    rcases hz z hzS with h | h <;> simp [inGap, not_lt.mpr h]
  rcases bs with _ | ⟨b, _ | ⟨c, rest⟩⟩
  · obtain rfl : S = ∅ := linked_none_none.mp ((isChain_bracket_iff.mp hS.chain).1 rfl)
    refine ⟨by simp, isChain_bracket_iff.mpr ⟨by simp, ?_, by simp, ?_⟩⟩
    · simp [linked_none_some]
    · simp [linked_some_none]
  · obtain ⟨-, hhead, -, hlast⟩ := isChain_bracket_iff.mp hS.chain
    obtain ⟨hb0, hbelow⟩ := linked_none_some.mp (hhead b rfl)
    obtain ⟨hb0', habove⟩ := linked_some_none.mp (hlast b rfl)
    have hbS : b.1 ∈ S := hS.border_mem b (by simp)
    have hne : p ≠ b.1 := fun h => hp (h ▸ hbS)
    obtain ⟨bk, bv⟩ := b
    rcases lt_or_gt_of_ne hne with hlt | hgt
    · -- `p` is the new first border
      rw [insert_cons_of_lt _ _ _ hlt]
      refine ⟨by simp [hbS], ?_⟩
      simp only [bracket, List.map_cons, List.map_nil, List.cons_append, List.nil_append,
        List.isChain_cons_cons, List.isChain_singleton, and_true]
      refine ⟨linked_none_some.mpr ⟨rfl, fun z hz => ?_⟩, hempty _ _ rfl hb0 fun z hz => ?_,
        linked_some_none.mpr ⟨hb0', fun z hz => ?_⟩⟩
      · rcases Finset.mem_insert.mp hz with rfl | hz
        · exact le_rfl
        · exact hlt.le.trans (hbelow z hz)
      · rcases Finset.mem_insert.mp hz with rfl | hz
        · exact .inl le_rfl
        · exact .inr (hbelow z hz)
      · rcases Finset.mem_insert.mp hz with rfl | hz
        · exact hlt.le
        · exact habove z hz
    · -- `p` is the new last border
      rw [insert_cons_of_gt _ _ _ hgt, insert_nil]
      refine ⟨by simp [hbS], ?_⟩
      simp only [bracket, List.map_cons, List.map_nil, List.cons_append, List.nil_append,
        List.isChain_cons_cons, List.isChain_singleton, and_true]
      refine ⟨linked_none_some.mpr ⟨hb0, fun z hz => ?_⟩, hempty _ _ hb0' rfl fun z hz => ?_,
        linked_some_none.mpr ⟨rfl, fun z hz => ?_⟩⟩
      · rcases Finset.mem_insert.mp hz with rfl | hz
        · exact hgt.le
        · exact hbelow z hz
      · rcases Finset.mem_insert.mp hz with rfl | hz
        · exact .inr le_rfl
        · exact .inl (habove z hz)
      · rcases Finset.mem_insert.mp hz with rfl | hz
        · exact le_rfl
        · exact (habove z hz).trans hgt.le
  · simp at hlen

/-- **`insert` keeps the borders exact**: a new point, with callbacks that answer exactly in the
updated set, gives a histogram that counts one more and whose borders are exact over it. -/
theorem BordersExact.insert_step {h : Histogram T} (hS : BordersExact S h.borders) (hp : p ∉ S)
    (hl : IsLeftNeighbour (insert p S) left) (hr : IsRightNeighbour (insert p S) right) :
    ∃ h', h.insert p left right = some h' ∧ h'.totalCount = h.totalCount + 1 ∧
      BordersExact (insert p S) h'.borders := by
  unfold Histogram.insert
  dsimp only
  split_ifs with hlen
  · exact ⟨_, rfl, rfl, hS.insert_short hp hlen⟩
  · -- the neighbours are read on the same borders, with the new total
    set h' : Histogram T := { h with totalCount := h.totalCount + 1 }
    have hS' : BordersExact S h'.borders := hS
    have hlen' : 2 ≤ h'.borders.length := not_lt.mp hlen
    obtain ⟨a, ha, hex⟩ : ∃ a, h'.insertAdjustment p left right = some a ∧
        BordersExact (insert p S) (a.apply h'.borders) := by
      rcases hn : h'.neighbours p with ⟨⟨cl, cr⟩, fl, fr⟩
      rcases cl with _ | ⟨lb, lbc⟩ <;> rcases cr with _ | ⟨rb, rbc⟩
      · -- no border on either side: there are none at all
        obtain ⟨A, B, hbs, hA, hB, hcl, hcr, -, -⟩ := h'.neighbours_window hn
        obtain rfl := hcl rfl
        obtain rfl := hcr rfl
        rw [hbs, hA rfl, hB rfl] at hlen'
        simp at hlen'
      · exact hS'.insert_below hp hlen' hn
      · exact hS'.insert_above hp hlen' hn
      · exact hS'.insert_between hp hl hr hn
    exact ⟨_, by rw [ha]; rfl, rfl, hex⟩

end Insert

/-! ## 6. `remove` keeps the borders exact -/

section Remove

variable {S : Finset (Point T)} {p : Point T} {left right : Point T → Option (Point T)}

/-- The value is the last border: it goes, or the border moves to the point below it. -/
theorem BordersExact.remove_last {h : Histogram T} {lb : Point T} {lbc : Counts}
    {fl fr : Option (Point T × Counts)} (hS : BordersExact S h.borders) (hp : p ∈ S)
    (hl : IsLeftNeighbour (S.erase p) left)
    (hn : h.neighbours p = ((some (lb, lbc), none), (fl, fr))) :
    ∃ a, h.removeAdjustment p left right = some (a, true) ∧
      BordersExact (S.erase p) (a.apply h.borders) := by
  obtain ⟨A, B, hbs, hA, hB, -, hcr, hle, -⟩ := h.neighbours_window hn
  obtain rfl : fr = none := hcr rfl
  have hsorted := h.sorted
  rw [hbs] at hS hsorted
  have hwin := hS.window_chain hA hB
  simp only [Option.toList_some, Option.toList_none, List.append_nil, List.map_cons, List.map_nil,
    List.cons_append, List.nil_append, List.isChain_cons_cons, List.isChain_singleton,
    and_true] at hwin
  obtain ⟨hL, hlast⟩ := hwin
  obtain ⟨hlbc0, habove⟩ := linked_some_none.mp hlast
  have hright : lbc.right = 0 := hlbc0
  -- the last border is the greatest point, so it is `p`
  obtain rfl : lb = p := le_antisymm (hle _ rfl) (habove p hp)
  have hwsorted := (sorted_append.mp (sorted_append.mp hsorted).1).2.1
  have hfl : ∀ f ∈ fl, f.1 < lb := fun f hf => window_fl_lt hwsorted f hf (lb, lbc) (by simp)
  have hgap : inGap (fl.map Prod.fst) none lb = true := by
    refine inGap_eq_true.mpr ⟨fun f hf => ?_, by simp⟩
    obtain ⟨f', hf', rfl⟩ := Option.mem_map.mp hf
    exact hfl f' hf'
  have hout := agree_erase (S := S) hgap
  obtain ⟨hL₁, hL₂⟩ := hL
  simp only [leftCount_some, Option.map_some] at hL₁ hL₂
  -- the last bucket, from the far left border on, loses `lb`
  have hsplit := count_split hp hgap
  have herase := count_erase hp (fl.map Prod.fst) none
  rw [if_pos hgap] at herase
  have hlast₂ := hlast.2
  simp only [rightCount_some, Option.map_some, Option.map_none] at hlast₂
  simp only [Histogram.removeAdjustment, hn, if_true]
  rw [hbs]
  split_ifs with hleft
  · -- nothing between the two last borders: the far left one becomes the last
    refine ⟨_, rfl, hS.adjust _ hsorted hA hB rfl rfl rfl rfl ?_ (?_ : _ = []) hout (by simp) ?_⟩
    · simp [-inGap_eq_true, Adjustment.keys, Adjustment.inner, hgap]
    · simp [Adjustment.inner, Adjustment.apply, insertOpt, eraseOpt, insert_cons_self]
    · simp only [List.map_nil, List.cons_append, List.nil_append, List.isChain_pair]
      refine ⟨by simp [hL₁, hleft], ?_⟩
      simp only [Option.map_none]
      omega
  · -- the last border moves down to the greatest point left
    obtain ⟨w, hwS, hwgap⟩ := exists_of_count_pos (hL₂ ▸ hL₁ ▸ Nat.pos_of_ne_zero hleft)
    obtain ⟨hwlo, hwlb⟩ := inGap_eq_true.mp hwgap
    have hwlb' : w < lb := hwlb lb rfl
    obtain ⟨nb, hnb, hnbS, hnblb, hwnb, hzero⟩ :=
      hl.exists (Finset.mem_erase.mpr ⟨hwlb'.ne, hwS⟩) hwlb'
    -- a bucket left of `lb` is not empty, so the far left border is there
    obtain ⟨f, rfl⟩ : ∃ f, fl = some f := by
      cases fl with
      | none => exact absurd hL₁.symm hleft
      | some f => exact ⟨f, rfl⟩
    have hfnb : f.1 < nb := lt_of_lt_of_le (hwlo f.1 rfl) hwnb
    simp only [hnb, Option.map_some]
    refine ⟨_, rfl, hS.adjust _ hsorted hA hB rfl rfl rfl rfl ?_
      (?_ : _ = [(nb, ⟨lbc.left - 1, 0⟩)]) hout ?_ ?_⟩
    · simp [Adjustment.keys, Adjustment.inner, inGap, hfl f rfl, hfnb]
    · simp [Adjustment.inner, Adjustment.apply, insertOpt, eraseOpt, insert_cons_self]
    · simpa using hnbS
    · -- the bucket up to `nb` is the old last-but-one bucket without `nb`
      have hsplit' := count_split hnbS (by simp [inGap, hfnb, hnblb] : inGap (some f.1) (some lb) nb = true)
      have hlb := count_erase hp (some f.1) (some lb)
      rw [if_neg (by simp [inGap])] at hlb
      have hnbtop := count_erase hp (some nb) none
      rw [if_pos (by simp [inGap, hnblb])] at hnbtop
      have hsplit'' := count_split hp (by simp [inGap, hnblb] : inGap (some nb) none lb = true)
      have hnbz := count_erase hp (some nb) (some lb)
      rw [if_neg (by simp [inGap])] at hnbz
      simp only [rightCount_some, Option.map_some] at hL₁ hL₂ hlast₂
      simp only [List.map_cons, List.map_nil, List.cons_append, List.nil_append,
        List.isChain_cons_cons, List.isChain_singleton, and_true]
      refine ⟨⟨by simp [hL₁], ?_⟩, ⟨rfl, ?_⟩⟩
      · simp only [rightCount_some, setRight_right, setRight_fst, Option.map_some]
        omega
      · simp only [rightCount_some, Option.map_some, Option.map_none]
        omega

/-- The value lies between two borders: if it is the left one, that border goes, and its bucket
joins the one on its right or the border moves to the point above it; otherwise the bucket
between the two borders shrinks by one. -/
theorem BordersExact.remove_between {h : Histogram T} {lb rb : Point T} {lbc rbc : Counts}
    {fl fr : Option (Point T × Counts)} (hS : BordersExact S h.borders) (hp : p ∈ S)
    (hr : IsRightNeighbour (S.erase p) right)
    (hn : h.neighbours p = ((some (lb, lbc), some (rb, rbc)), (fl, fr))) :
    ∃ a, h.removeAdjustment p left right = some (a, true) ∧
      BordersExact (S.erase p) (a.apply h.borders) := by
  obtain ⟨A, B, hbs, hA, hB, -, -, hle, hgt⟩ := h.neighbours_window hn
  have hsorted := h.sorted
  rw [hbs] at hS hsorted
  have hlbS : lb ∈ S := hS.border_mem (lb, lbc) (by simp)
  have hrbS : rb ∈ S := hS.border_mem (rb, rbc) (by simp)
  have hprb : p < rb := hgt _ rfl
  have hlbp : lb ≤ p := hle _ rfl
  have hlbrb : lb < rb := lt_of_le_of_lt hlbp hprb
  have hwsorted := (sorted_append.mp (sorted_append.mp hsorted).1).2.1
  have hfl : ∀ f ∈ fl, f.1 < lb := fun f hf => window_fl_lt hwsorted f hf (lb, lbc) (by simp)
  have hfr : ∀ g ∈ fr, rb < g.1 := fun g hg => window_lt_fr hwsorted g hg (rb, rbc) (by simp)
  have hflt : ∀ a ∈ fl.map Prod.fst, a < lb := fun a ha => by
    obtain ⟨f, hf, rfl⟩ := Option.mem_map.mp ha
    exact hfl f hf
  have hwin := hS.window_chain hA hB
  simp only [Option.toList_some, List.map_cons, List.map_nil, List.cons_append, List.nil_append,
    List.isChain_cons_cons, List.isChain_singleton, and_true] at hwin
  obtain ⟨hL, hM, hR⟩ := hwin
  -- the bucket right of the right border is unchanged
  have hR' : Linked (S.erase p) (some (rb, rbc)) fr :=
    (linked_erase_of_not_gap hp (by simp [inGap, not_lt.mpr hprb.le])).mpr hR
  obtain ⟨hL₁, hL₂⟩ := hL
  obtain ⟨hM₁, hM₂⟩ := hM
  simp only [rightCount_some, leftCount_some, Option.map_some] at hL₁ hL₂ hM₁ hM₂
  -- every key written between `lb` and `rb` lies inside the window
  have hinside : ∀ k, lb ≤ k → k ≤ rb → inGap (fl.map Prod.fst) (fr.map Prod.fst) k = true := by
    intro k hlo hhi
    refine inGap_eq_true.mpr ⟨fun f hf => ?_, fun g hg => ?_⟩
    · obtain ⟨f', hf', rfl⟩ := Option.mem_map.mp hf
      exact lt_of_lt_of_le (hfl f' hf') hlo
    · obtain ⟨g', hg', rfl⟩ := Option.mem_map.mp hg
      exact lt_of_le_of_lt hhi (hfr g' hg')
  have hout := agree_erase (S := S) (hinside p hlbp hprb.le)
  have hrbS' : rb ∈ S.erase p := Finset.mem_erase.mpr ⟨hprb.ne', hrbS⟩
  simp only [Histogram.removeAdjustment, hn]
  rw [hbs, if_neg (ne_of_gt hprb)]
  rcases eq_or_lt_of_le hlbp with rfl | hlbp'
  · -- the left border is the value removed
    have hgap : inGap (fl.map Prod.fst) (some rb) lb = true :=
      inGap_eq_true.mpr ⟨hflt, by simpa using hlbrb⟩
    have hsplit := count_split hp hgap
    have herase := count_erase hp (fl.map Prod.fst) (some rb)
    rw [if_pos hgap] at herase
    rw [if_pos rfl]
    split_ifs with hright hmerge
    · -- nothing between the two borders: the right one takes the left one's left count
      refine ⟨_, rfl, hS.adjust _ hsorted hA hB rfl rfl rfl rfl ?_
        (?_ : _ = [(rb, ⟨lbc.left, rbc.right⟩)]) hout (by simpa using hrbS') ?_⟩
      · simp [-inGap_eq_true, Adjustment.keys, Adjustment.inner, hinside, hlbrb.le]
      · simp [Adjustment.inner, Adjustment.apply, insertOpt, eraseOpt, insert_cons_self,
          insert_cons_of_gt, erase_cons_of_lt, hlbrb]
      · simp only [List.map_cons, List.map_nil, List.cons_append, List.nil_append,
          List.isChain_cons_cons, List.isChain_singleton, and_true]
        refine ⟨⟨hL₁, ?_⟩, hR'⟩
        simp only [Option.map_some]
        omega
    · -- the far left border absorbs the left border's bucket
      obtain ⟨f, rfl⟩ := Option.isSome_iff_exists.mp hmerge.2
      simp only [Option.map_some, rightCount_some] at hinside hsplit herase hL₁ hL₂
      refine ⟨_, rfl, hS.adjust _ hsorted hA hB rfl rfl rfl rfl ?_
        (?_ : _ = [(rb, ⟨f.2.right + rbc.left, rbc.right⟩)]) hout (by simpa using hrbS') ?_⟩
      · simp [-inGap_eq_true, Adjustment.keys, Adjustment.inner, hinside, hlbrb.le]
      · simp [Adjustment.inner, Adjustment.apply, insertOpt, eraseOpt, insert_cons_self,
          insert_cons_of_gt, erase_cons_of_lt, hlbrb]
      · simp only [List.map_cons, List.map_nil, List.cons_append, List.nil_append,
          List.isChain_cons_cons, List.isChain_singleton, and_true, Option.map_some]
        refine ⟨⟨rfl, ?_⟩, hR'⟩
        simp only [rightCount_some, setRight_right, setRight_fst, Option.map_some]
        omega
    · -- the left border moves up to the least point left in its bucket
      obtain ⟨w, hwS, hwgap⟩ := exists_of_count_pos (hM₂ ▸ Nat.pos_of_ne_zero hright)
      obtain ⟨hlbw, hwrb⟩ : lb < w ∧ w < rb := by simpa [inGap] using hwgap
      obtain ⟨nb, hnb, hnbS, hlbnb, hnbw, hzero⟩ :=
        hr.exists (Finset.mem_erase.mpr ⟨hlbw.ne', hwS⟩) hlbw
      have hnbrb : nb < rb := lt_of_le_of_lt hnbw hwrb
      simp only [hnb]
      refine ⟨_, rfl, hS.adjust _ hsorted hA hB rfl rfl rfl rfl ?_
        (?_ : _ = [(nb, ⟨lbc.left, lbc.right - 1⟩), (rb, ⟨rbc.left - 1, rbc.right⟩)]) hout ?_ ?_⟩
      · simp [-inGap_eq_true, Adjustment.keys, Adjustment.inner, hinside, hlbrb.le, hlbnb.le,
          hnbrb.le]
      · simp [Adjustment.inner, Adjustment.apply, insertOpt, eraseOpt, insert_cons_self,
          insert_cons_of_gt, insert_cons_of_lt, erase_cons_of_lt, hlbrb, hnbrb]
      · simpa using And.intro hnbS hrbS'
      · -- `lb` leaves the left bucket, which now ends at `nb`, and the bucket from `nb` loses `nb`
        have hgap' : inGap (fl.map Prod.fst) (some nb) lb = true :=
          inGap_eq_true.mpr ⟨hflt, by simpa using hlbnb⟩
        have hsplit' := count_split hp hgap'
        have herase' := count_erase hp (fl.map Prod.fst) (some nb)
        rw [if_pos hgap'] at herase'
        have hlbnb' := count_erase hp (some lb) (some nb)
        rw [if_neg (by simp [inGap])] at hlbnb'
        have hlbrb' := count_erase hp (some lb) (some rb)
        rw [if_neg (by simp [inGap])] at hlbrb'
        have hnbsplit := count_split hnbS
          (by simp [inGap, hlbnb, hnbrb] : inGap (some lb) (some rb) nb = true)
        simp only [List.map_cons, List.map_nil, List.cons_append, List.nil_append,
          List.isChain_cons_cons, List.isChain_singleton, and_true]
        refine ⟨⟨hL₁, ?_⟩, ⟨by simp [hM₁], ?_⟩, hR'⟩
        · simp only [Option.map_some]
          omega
        · simp only [rightCount_some, Option.map_some]
          omega
  · -- the value is inside the bucket, which therefore is not empty
    have herase := count_erase hp (some lb) (some rb)
    rw [if_pos (by simp [inGap, hlbp', hprb])] at herase
    rw [if_neg hlbp'.ne, if_neg (by omega)]
    have hL' : Linked (S.erase p) fl (some (lb, lbc)) :=
      (linked_erase_of_not_gap hp (by simp [inGap, not_lt.mpr hlbp'.le])).mpr ⟨hL₁, hL₂⟩
    refine ⟨_, rfl, hS.adjust _ hsorted hA hB rfl rfl rfl rfl ?_
      (?_ : _ = [(lb, ⟨lbc.left, lbc.right - 1⟩), (rb, ⟨rbc.left - 1, rbc.right⟩)]) hout ?_ ?_⟩
    · simp [-inGap_eq_true, Adjustment.keys, Adjustment.inner, hinside, hlbrb.le]
    · simp [Adjustment.inner, Adjustment.apply, insertOpt, eraseOpt, insert_cons_self,
        insert_cons_of_gt, hlbrb]
    · simpa using And.intro (Finset.mem_erase.mpr ⟨hlbp'.ne, hlbS⟩) hrbS'
    · simp only [List.map_cons, List.map_nil, List.cons_append, List.nil_append,
        List.isChain_cons_cons, List.isChain_singleton, and_true]
      refine ⟨hL', ⟨by simp [hM₁], ?_⟩, hR'⟩
      simp only [rightCount_some, Option.map_some]
      omega

/-- A stored point has a border at or below it: the least border is the least point. -/
theorem BordersExact.closeLeft_ne_none {h : Histogram T}
    {cl cr fl fr : Option (Point T × Counts)} (hS : BordersExact S h.borders) (hp : p ∈ S)
    (hn : h.neighbours p = ((cl, cr), (fl, fr))) : cl ≠ none := by
  rintro rfl
  obtain ⟨A, B, hbs, hA, hB, hcl, hcr, -, hgt⟩ := h.neighbours_window hn
  obtain rfl := hcl rfl
  rw [hbs] at hS
  have hwin := hS.window_chain hA hB
  cases cr with
  | none =>
    -- no border at all: nothing is stored
    obtain rfl := hcr rfl
    simp only [Option.toList_none, List.append_nil, List.map_nil, List.cons_append,
      List.nil_append, List.isChain_pair, linked_none_none] at hwin
    simp [hwin] at hp
  | some r =>
    simp only [Option.toList_none, Option.toList_some, List.nil_append, List.map_cons,
      List.map_nil, List.cons_append, List.isChain_cons_cons] at hwin
    exact absurd ((linked_none_some.mp hwin.1).2 p hp) (not_le.mpr (hgt r rfl))

/-- **`remove` of a stored point keeps the borders exact**, given the exact neighbours among the
points left, and counts one point less. -/
theorem BordersExact.remove_step {h : Histogram T} (hS : BordersExact S h.borders) (hp : p ∈ S)
    (hl : IsLeftNeighbour (S.erase p) left) (hr : IsRightNeighbour (S.erase p) right) :
    ∃ h', h.remove p left right = some h' ∧ h'.totalCount = h.totalCount - 1 ∧
      BordersExact (S.erase p) h'.borders := by
  obtain ⟨a, ha, hex⟩ : ∃ a, h.removeAdjustment p left right = some (a, true) ∧
      BordersExact (S.erase p) (a.apply h.borders) := by
    rcases hn : h.neighbours p with ⟨⟨cl, cr⟩, fl, fr⟩
    rcases cl with _ | ⟨lb, lbc⟩
    · exact absurd rfl (hS.closeLeft_ne_none hp hn)
    rcases cr with _ | ⟨rb, rbc⟩
    · exact hS.remove_last hp hl hn
    · exact hS.remove_between hp hr hn
  exact ⟨_, by rw [Histogram.remove, ha]; rfl, rfl, hex⟩

end Remove

/-! ## 7. Runs of updates

`NumericIndex` inserts a key its map does not hold and removes one it holds, and its callbacks
read the map after the update.  A run is a list of such updates from a set of stored points,
with the callbacks of each step the exact neighbours in the updated set. -/

/-- One update of the stored points. -/
inductive HistogramUpdate (T : Type)
  | insert (p : Point T)
  | remove (p : Point T)
deriving DecidableEq, Repr

namespace HistogramUpdate

/-- The stored points after the update. -/
def points (S : Finset (Point T)) : HistogramUpdate T → Finset (Point T)
  | .insert p => Insert.insert p S
  | .remove p => S.erase p

/-- The update is one the index makes: a point not stored comes, a stored one goes. -/
def valid (S : Finset (Point T)) : HistogramUpdate T → Bool
  | .insert p => p ∉ S
  | .remove p => p ∈ S

/-- Every update of the run is valid where it is made. -/
def validRun : Finset (Point T) → List (HistogramUpdate T) → Bool
  | _, [] => true
  | S, u :: us => u.valid S && validRun (u.points S) us

/-- The stored points after a run. -/
def pointsAfter : Finset (Point T) → List (HistogramUpdate T) → Finset (Point T)
  | S, [] => S
  | S, u :: us => pointsAfter (u.points S) us

variable [Numericable T] (left right : Finset (Point T) → Point T → Option (Point T))

/-- The histogram's step; its callbacks read the updated points. -/
def apply (S : Finset (Point T)) (h : Histogram T) : HistogramUpdate T → Option (Histogram T)
  | .insert p => h.insert p (left (Insert.insert p S)) (right (Insert.insert p S))
  | .remove p => h.remove p (left (S.erase p)) (right (S.erase p))

/-- The histogram after a run; `none` where a step panics. -/
def run : Finset (Point T) → Histogram T → List (HistogramUpdate T) → Option (Histogram T)
  | _, h, [] => some h
  | S, h, u :: us => (u.apply left right S h).bind fun h' => run (u.points S) h' us

end HistogramUpdate

open HistogramUpdate

/-- A new histogram represents no points. -/
theorem Histogram.represents_new (maxBucketSize : ℕ) (precision : ℚ) :
    (Histogram.new maxBucketSize precision : Histogram T).Represents ∅ :=
  (Histogram.represents_iff _ _).mpr ⟨rfl, fun _ hb => absurd hb List.not_mem_nil,
    List.isChain_pair.mpr (linked_none_none.mpr rfl)⟩

/-- The greatest point of `S` below `x`: the exact left neighbour. -/
def leftNeighbourIn (S : Finset (Point T)) (x : Point T) : Option (Point T) :=
  if h : (S.filter (· < x)).Nonempty then some ((S.filter (· < x)).max' h) else none

/-- The least point of `S` above `x`: the exact right neighbour. -/
def rightNeighbourIn (S : Finset (Point T)) (x : Point T) : Option (Point T) :=
  if h : (S.filter (x < ·)).Nonempty then some ((S.filter (x < ·)).min' h) else none

theorem isLeftNeighbour_leftNeighbourIn (S : Finset (Point T)) :
    IsLeftNeighbour S (leftNeighbourIn S) := by
  intro x y
  unfold leftNeighbourIn
  split_ifs with hne
  · rw [Option.some.injEq]
    constructor
    · rintro rfl
      obtain ⟨hyS, hyx⟩ := Finset.mem_filter.mp ((S.filter (· < x)).max'_mem hne)
      exact ⟨hyS, hyx, fun z hz hzx => (S.filter (· < x)).le_max' z (Finset.mem_filter.mpr ⟨hz, hzx⟩)⟩
    · rintro ⟨hyS, hyx, hmax⟩
      refine le_antisymm ((S.filter (· < x)).max'_le hne y fun z hz => ?_)
        ((S.filter (· < x)).le_max' y (Finset.mem_filter.mpr ⟨hyS, hyx⟩))
      obtain ⟨hzS, hzx⟩ := Finset.mem_filter.mp hz
      exact hmax z hzS hzx
  · simp only [false_iff]
    rintro ⟨hyS, hyx, -⟩
    exact hne ⟨y, Finset.mem_filter.mpr ⟨hyS, hyx⟩⟩

theorem isRightNeighbour_rightNeighbourIn (S : Finset (Point T)) :
    IsRightNeighbour S (rightNeighbourIn S) := by
  intro x y
  unfold rightNeighbourIn
  split_ifs with hne
  · rw [Option.some.injEq]
    constructor
    · rintro rfl
      obtain ⟨hyS, hxy⟩ := Finset.mem_filter.mp ((S.filter (x < ·)).min'_mem hne)
      exact ⟨hyS, hxy, fun z hz hxz => (S.filter (x < ·)).min'_le z (Finset.mem_filter.mpr ⟨hz, hxz⟩)⟩
    · rintro ⟨hyS, hxy, hmin⟩
      refine le_antisymm ((S.filter (x < ·)).min'_le y (Finset.mem_filter.mpr ⟨hyS, hxy⟩))
        ((S.filter (x < ·)).le_min' hne y fun z hz => ?_)
      obtain ⟨hzS, hxz⟩ := Finset.mem_filter.mp hz
      exact hmin z hzS hxz
  · simp only [false_iff]
    rintro ⟨hyS, hxy, -⟩
    exact hne ⟨y, Finset.mem_filter.mpr ⟨hyS, hxy⟩⟩

section Run

variable [Numericable T] {left right : Finset (Point T) → Point T → Option (Point T)}

/-- One valid update keeps the histogram representing the stored points. -/
theorem Histogram.Represents.apply {S : Finset (Point T)} {h : Histogram T}
    (hS : h.Represents S) (hleft : ∀ S, IsLeftNeighbour S (left S))
    (hright : ∀ S, IsRightNeighbour S (right S)) {u : HistogramUpdate T}
    (hu : u.valid S = true) :
    ∃ h', u.apply left right S h = some h' ∧ h'.Represents (u.points S) := by
  obtain ⟨htot, hex⟩ := (h.represents_iff S).mp hS
  cases u with
  | insert p =>
    have hp : p ∉ S := by simpa [valid] using hu
    obtain ⟨h', hh', htot', hex'⟩ := hex.insert_step hp (hleft _) (hright _)
    refine ⟨h', hh', (h'.represents_iff _).mpr ⟨?_, hex'⟩⟩
    rw [htot', htot, points, Finset.card_insert_of_notMem hp]
  | remove p =>
    have hp : p ∈ S := by simpa [valid] using hu
    obtain ⟨h', hh', htot', hex'⟩ := hex.remove_step hp (hleft _) (hright _)
    refine ⟨h', hh', (h'.represents_iff _).mpr ⟨?_, hex'⟩⟩
    rw [htot', htot, points, Finset.card_erase_of_mem hp]

/-- A valid run keeps the histogram representing the stored points, from any state that does;
the induction is on the run, with the state generalised. -/
theorem Histogram.Represents.run (hleft : ∀ S, IsLeftNeighbour S (left S))
    (hright : ∀ S, IsRightNeighbour S (right S)) (us : List (HistogramUpdate T)) :
    ∀ {S : Finset (Point T)} {h : Histogram T}, h.Represents S → validRun S us = true →
      ∃ h', run left right S h us = some h' ∧ h'.Represents (pointsAfter S us) := by
  induction us with
  | nil => exact fun hS _ => ⟨_, rfl, hS⟩
  | cons u us ih =>
    intro S h hS hvalid
    simp only [validRun, Bool.and_eq_true] at hvalid
    obtain ⟨h', hh', hS'⟩ := hS.apply hleft hright hvalid.1
    obtain ⟨h'', hh'', hS''⟩ := ih hS' hvalid.2
    exact ⟨h'', by rw [HistogramUpdate.run, hh', Option.bind_some, hh''], hS''⟩

/-- **The histogram represents its points over every run**: from a new histogram, every run of
inserts of points not stored and removals of stored ones, with the callbacks of each step the
exact neighbours in the updated points, succeeds, and the histogram counts the stored points,
its borders are stored points with the least and the greatest among them, its outer counts are
zero, and two consecutive borders share the number of points strictly between them. -/
theorem histogram_represents_run (left right : Finset (Point T) → Point T → Option (Point T))
    (hleft : ∀ S, IsLeftNeighbour S (left S)) (hright : ∀ S, IsRightNeighbour S (right S))
    (maxBucketSize : ℕ) (precision : ℚ) (us : List (HistogramUpdate T))
    (hvalid : validRun ∅ us = true) :
    ∃ h, run left right ∅ (Histogram.new maxBucketSize precision) us = some h ∧
      h.Represents (pointsAfter ∅ us) :=
  (Histogram.represents_new maxBucketSize precision).run hleft hright us hvalid

theorem histogram_represents_run_of_four_updates :
    validRun ∅ [.insert ⟨0, 0⟩, .insert ⟨2, 1⟩, .insert ⟨1, 2⟩, .remove ⟨0, 0⟩] = true ∧
      ∃ h, run leftNeighbourIn rightNeighbourIn ∅ (Histogram.new 10000 (1 / 100) : Histogram ℤ)
          [.insert ⟨0, 0⟩, .insert ⟨2, 1⟩, .insert ⟨1, 2⟩, .remove ⟨0, 0⟩] = some h ∧
        h.Represents (pointsAfter ∅ [.insert ⟨0, 0⟩, .insert ⟨2, 1⟩, .insert ⟨1, 2⟩, .remove ⟨0, 0⟩]) :=
  ⟨by decide, histogram_represents_run leftNeighbourIn rightNeighbourIn
    isLeftNeighbour_leftNeighbourIn isRightNeighbour_rightNeighbourIn 10000 (1 / 100) _
    (by decide)⟩

end Run

end Qdrant
