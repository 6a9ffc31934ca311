/-
# The map, full-text and geo indexes over runs of updates

`ValueIndexer::add_point` re-indexes a point by `remove_point` and then `add_many`, except in
the two arms that leave the index alone.  So an invariant that `remove_point` keeps, leaving the
point without values, and that `add_many` keeps on a point without values, holds after every
run of updates from `new` (`ValueIndexer.Keeps`, `Keeps.foldlM`).

For the map index and the inverted index of a text index that invariant is `Consistent`: the
posting lists are the exact inverse of the per-point vectors (`point_to_values`,
`point_to_docs`), ascending, and the counters count what the vectors hold.  On it:

* `get_iterator` of a value is the scan, in id order, of the points whose values hold it; so
  `filter` of a `match` agrees point for point with the checker the optimised filter uses
  (`get_match_checkers`), `match_cardinality` is the exact count, and the estimation of a
  `match any` brackets the points that checker accepts;
* the subtractions of `remove_point` and `remove_document` never underflow;
* the text index's `filter` is the scan of `check_match` for every query with a token, and its
  estimation brackets it; for a query with NO token `filter` returns nothing, while
  `check_match` accepts every document;
* the geo index's `filter` of a box or a radius returns, once each, exactly the points the geo
  checker accepts, wherever the geohash regions cover the shape; a condition with both a box
  and a radius is filtered by the box but checked by the radius.
-/
import Qdrant.Index.Optimizer
import Qdrant.Lib.Postings

namespace Qdrant

open OrdMap

/-! ## 1. Any index over runs of `ValueIndexer` updates -/

/-- An update of one field index: `add_point` of the values a payload path yields, or
`remove_point`. -/
inductive IndexUpdate where
  | addPoint (id : PointOffsetType) (payload : MultiValue Value)
  | removePoint (id : PointOffsetType)

/-- One update through `ValueIndexer`; `none` is a panic. -/
def IndexUpdate.apply {I T : Type} (vi : ValueIndexer I T) (idx : I) : IndexUpdate → Option I
  | .addPoint id payload => vi.addPoint idx id payload
  | .removePoint id => vi.removePoint idx id

section Runs

variable {I T : Type} {vi : ValueIndexer I T} {Inv : I → Prop}
  {Cleared : I → PointOffsetType → Prop}

/-- What an index does for an invariant `Inv`: `remove_point` keeps it and leaves the point
`Cleared`, `add_many` keeps it on a cleared point, and neither panics. -/
structure ValueIndexer.Keeps (vi : ValueIndexer I T) (Inv : I → Prop)
    (Cleared : I → PointOffsetType → Prop) : Prop where
  removePoint : ∀ idx id, Inv idx →
    ∃ idx', vi.removePoint idx id = some idx' ∧ Inv idx' ∧ Cleared idx' id
  addMany : ∀ idx id values, Inv idx → Cleared idx id →
    ∃ idx', vi.addMany idx id values = some idx' ∧ Inv idx'

/-- Every arm of `add_point` keeps the invariant, and none panics. -/
theorem ValueIndexer.Keeps.addPoint (h : vi.Keeps Inv Cleared) {idx : I} (hidx : Inv idx)
    (id : PointOffsetType) (payload : MultiValue Value) :
    ∃ idx', vi.addPoint idx id payload = some idx' ∧ Inv idx' := by
  -- the arms that re-index: remove, then add to the cleared point
  have reindex : ∀ values, ∃ idx',
      ((vi.removePoint idx id).bind fun idx => vi.addMany idx id values) = some idx' ∧
        Inv idx' := by
    intro values
    obtain ⟨idx₁, hremove, hinv₁, hclear⟩ := h.removePoint idx id hidx
    obtain ⟨idx₂, hadd, hinv₂⟩ := h.addMany idx₁ id values hinv₁ hclear
    exact ⟨idx₂, by rw [hremove, Option.bind_some, hadd], hinv₂⟩
  cases payload with
  | multiple values => exact reindex _
  | single v =>
    match v with
    | none => exact ⟨idx, rfl, hidx⟩
    | some (.array values) => exact reindex _
    | some (.null) | some (.bool _) | some (.number _) | some (.string _) | some (.object _) =>
      simp only [ValueIndexer.addPoint]
      split
      · exact reindex _
      · exact ⟨idx, rfl, hidx⟩

theorem ValueIndexer.Keeps.apply (h : vi.Keeps Inv Cleared) {idx : I} (hidx : Inv idx)
    (u : IndexUpdate) : ∃ idx', u.apply vi idx = some idx' ∧ Inv idx' := by
  cases u with
  | addPoint id payload => exact h.addPoint hidx id payload
  | removePoint id =>
    obtain ⟨idx', hremove, hinv, -⟩ := h.removePoint idx id hidx
    exact ⟨idx', hremove, hinv⟩

/-- A run of updates keeps the invariant, and does not panic. -/
theorem ValueIndexer.Keeps.foldlM (h : vi.Keeps Inv Cleared) (updates : List IndexUpdate) :
    ∀ idx, Inv idx → ∃ idx', updates.foldlM (IndexUpdate.apply vi) idx = some idx' ∧ Inv idx' := by
  induction updates with
  | nil => exact fun idx hidx => ⟨idx, rfl, hidx⟩
  | cons u rest ih =>
    intro idx hidx
    obtain ⟨idx₁, happly, hidx₁⟩ := h.apply hidx u
    obtain ⟨idx₂, hrest, hidx₂⟩ := ih idx₁ hidx₁
    exact ⟨idx₂, by rw [List.foldlM_cons, happly, Option.bind_eq_bind, Option.bind_some, hrest],
      hidx₂⟩

end Runs

/-! ## 2. The per-point vectors

`point_to_values` and `point_to_docs` are written by `resize` and an indexed store, and read by
`get` with a default beyond their end. -/

section Vectors

variable {α : Type}

/-- The store after a resize: the new value at `id`, the old ones elsewhere. -/
theorem getD_set_resizeTo (l : List α) (id : ℕ) (a d : α) (j : ℕ) :
    ((resizeTo l id d).set id a).getD j d = if j = id then a else l.getD j d := by
  rw [getD_set_of_lt (lt_length_resizeTo l id d), getD_resizeTo]

/-- The count of a property after storing `a` where the vector held the default. -/
theorem countP_set_resizeTo (p : α → Bool) {d : α} (hd : p d = false) (l : List α) (id : ℕ)
    (hclear : l.getD id d = d) (a : α) :
    ((resizeTo l id d).set id a).countP p = l.countP p + if p a then 1 else 0 := by
  have hlt := lt_length_resizeTo l id d
  have hold : (resizeTo l id d)[id] = d := by
    rw [← List.getD_eq_getElem _ d hlt, getD_resizeTo, hclear]
  rw [List.countP_set hlt, hold, hd, countP_resizeTo p l id hd]
  simp

/-- The same for a sum over the vector, where the default adds nothing. -/
theorem sum_map_set_resizeTo (f : α → ℕ) {d : α} (hd : f d = 0) (l : List α) (id : ℕ)
    (hclear : l.getD id d = d) (a : α) :
    (((resizeTo l id d).set id a).map f).sum = (l.map f).sum + f a := by
  have hlt := lt_length_resizeTo l id d
  have hold : (resizeTo l id d)[id] = d := by
    rw [← List.getD_eq_getElem _ d hlt, getD_resizeTo, hclear]
  have hsum := sum_map_set_add f a (resizeTo l id d) id hlt
  rw [hold, hd, Nat.add_zero, sum_map_resizeTo f l id hd] at hsum
  exact hsum

/-- Counting over the ids of a vector is counting over the vector. -/
theorem countP_range_getD (p : α → Bool) (d : α) : ∀ l : List α,
    (List.range l.length).countP (fun i => p (l.getD i d)) = l.countP p
  | [] => rfl
  | x :: xs => by
    have ih := countP_range_getD p d xs
    rw [List.length_cons, List.range_succ_eq_map, List.countP_cons, List.countP_map,
      List.countP_cons]
    simp only [Function.comp_def, Nat.succ_eq_add_one, List.getD_cons_succ, List.getD_cons_zero,
      ih]

end Vectors

/-- A list ascending by id is the scan of the ids below `n` that a check accepts, when it holds
exactly the accepted ids and the check accepts none from `n` on. -/
theorem eq_scan_of_pairwise {ps : List PointOffsetType} {check : PointOffsetType → Bool} {n : ℕ}
    (hsorted : ps.Pairwise (· < ·)) (hmem : ∀ id, id ∈ ps ↔ check id = true)
    (hlt : ∀ id, check id = true → id < n) :
    ps = (List.range n).filter check := by
  have hscan : (List.range n).filter check |>.Pairwise (· < ·) := List.pairwise_lt_range.filter _
  refine List.Perm.eq_of_pairwise (fun a b _ _ hab hba => absurd hba (lt_asymm hab)) hsorted
    hscan ?_
  refine (List.perm_ext_iff_of_nodup hsorted.nodup hscan.nodup).mpr fun id => ?_
  rw [hmem, List.mem_filter, List.mem_range]
  exact ⟨fun h => ⟨hlt id h, h⟩, fun h => h.2⟩

/-! ## 3. The map index -/

section MapIndexRuns

variable {N : Type} [LinearOrder N]

theorem MapIndex.linkValue_eq_link :
    (MapIndex.linkValue : List (N × IdSet) → PointOffsetType → N → List (N × IdSet)) =
      Postings.link := rfl

theorem MapIndex.unlinkValue_eq_unlink (map : List (N × IdSet)) (id : PointOffsetType) (v : N) :
    MapIndex.unlinkValue map id v = Postings.unlink map id v := by
  unfold MapIndex.unlinkValue Postings.unlink
  cases get? v map <;> rfl

theorem MapIndex.getIterator_eq_idsOf (idx : MapIndex N) (v : N) :
    idx.getIterator v = Postings.idsOf idx.map v := by
  unfold MapIndex.getIterator MapIndex.points Postings.idsOf
  cases get? v idx.map <;> rfl

/-- The map index's invariant: its map is the exact inverse of `point_to_values`, with sorted
sets, and the two counters count the points with values and the values. -/
structure MapIndex.Consistent (idx : MapIndex N) : Prop where
  sorted : Postings.WellSorted idx.map
  mirror : ∀ v id, id ∈ Postings.idsOf idx.map v ↔ v ∈ idx.pointToValues.getD id []
  indexedPoints : idx.indexedPoints = idx.pointToValues.countP fun vs => !vs.isEmpty
  valuesCount : idx.valuesCount = (idx.pointToValues.map List.length).sum

theorem MapIndex.consistent_new : (MapIndex.new : MapIndex N).Consistent where
  sorted := Postings.wellSorted_nil
  mirror v id := by simp [MapIndex.new, Postings.idsOf, get?]
  indexedPoints := rfl
  valuesCount := rfl

/-- `remove_point` leaves the point without values. -/
theorem MapIndex.getD_removePoint_self (idx : MapIndex N) (id : PointOffsetType) :
    (idx.removePoint id).pointToValues.getD id [] = [] := by
  unfold MapIndex.removePoint
  split
  · exact List.getD_eq_default _ _ ‹_›
  · rw [getD_set_of_lt (Nat.lt_of_not_le ‹_›), if_pos rfl]

theorem MapIndex.Consistent.removePoint {idx : MapIndex N} (h : idx.Consistent)
    (id : PointOffsetType) : (idx.removePoint id).Consistent := by
  unfold MapIndex.removePoint
  split
  · exact h
  · rename_i hlt
    have hid : id < idx.pointToValues.length := Nat.lt_of_not_le hlt
    have hget : idx.pointToValues.getD id [] = idx.pointToValues[id] :=
      List.getD_eq_getElem _ _ hid
    refine ⟨?_, fun v j => ?_, ?_, ?_⟩ <;> dsimp only
    · simp only [MapIndex.unlinkValue_eq_unlink]
      exact Postings.WellSorted.foldl_unlink id _ h.sorted
    · -- the point loses exactly its removed values
      simp only [MapIndex.unlinkValue_eq_unlink]
      rw [Postings.mem_idsOf_foldl_unlink, h.mirror, getD_set_of_lt hid]
      by_cases hj : j = id
      · subst hj
        simp
      · simp [hj]
    · have hcount := List.countP_set (p := fun vs : List N => !vs.isEmpty) (a := []) hid
      simp only [List.isEmpty_nil, Bool.not_true, Bool.false_eq_true, if_false, Nat.add_zero]
        at hcount
      rw [hcount, ← h.indexedPoints, hget]
      split <;> simp_all
    · have hsum := sum_map_set_add List.length [] idx.pointToValues id hid
      rw [List.length_nil, Nat.add_zero] at hsum
      rw [hget, h.valuesCount]
      omega

theorem MapIndex.Consistent.addManyToMap {idx : MapIndex N} (h : idx.Consistent)
    {id : PointOffsetType} (hclear : idx.pointToValues.getD id [] = []) (values : List N) :
    (idx.addManyToMap id values).Consistent := by
  unfold MapIndex.addManyToMap
  split
  · exact h
  · rename_i hne
    refine ⟨?_, fun v j => ?_, ?_, ?_⟩ <;> dsimp only
    · rw [MapIndex.linkValue_eq_link]
      exact Postings.WellSorted.foldl_link id _ h.sorted
    · -- the point gains exactly the new values
      rw [MapIndex.linkValue_eq_link, Postings.mem_idsOf_foldl_link, h.mirror,
        getD_set_resizeTo]
      by_cases hj : j = id
      · subst hj
        rw [if_pos rfl, hclear]
        simp
      · simp [hj]
    · rw [countP_set_resizeTo _ rfl _ _ hclear, h.indexedPoints]
      simp [hne]
    · rw [sum_map_set_resizeTo List.length rfl _ _ hclear, h.valuesCount]

/-- The map index through `ValueIndexer`: every update keeps it consistent. -/
theorem MapIndex.keeps (getValue : Value → Option N) :
    (mapIndexer getValue).Keeps MapIndex.Consistent
      fun idx id => idx.pointToValues.getD id [] = [] where
  removePoint idx id h := ⟨_, rfl, h.removePoint id, idx.getD_removePoint_self id⟩
  addMany _ _ values h hclear := ⟨_, rfl, h.addManyToMap hclear values⟩

/-! ### What a consistent map index answers -/

section Answers

variable {idx : MapIndex N}

omit [LinearOrder N] in
/-- Past the end of `point_to_values` a point holds no value. -/
theorem MapIndex.lt_of_mem_getValues {v : N} {id : PointOffsetType}
    (h : v ∈ (idx.getValues id).getD []) : id < idx.pointToValues.length := by
  by_contra hge
  rw [MapIndex.getValues, List.getElem?_eq_none (Nat.le_of_not_lt hge)] at h
  simp at h

omit [LinearOrder N] in
theorem MapIndex.getValues_getD (idx : MapIndex N) (id : PointOffsetType) :
    (idx.getValues id).getD [] = idx.pointToValues.getD id [] :=
  (List.getD_eq_getElem?_getD).symm

/-- `get_iterator` of a value is the scan, in id order, of the points whose values hold it. -/
theorem MapIndex.Consistent.getIterator_eq_scan (h : idx.Consistent) (v : N) :
    idx.getIterator v =
      (List.range idx.pointToValues.length).filter fun id => v ∈ (idx.getValues id).getD [] := by
  rw [idx.getIterator_eq_idsOf]
  refine eq_scan_of_pairwise (h.sorted.pairwise_idsOf v) (fun id => ?_)
    (fun id hid => MapIndex.lt_of_mem_getValues (of_decide_eq_true hid))
  rw [h.mirror, idx.getValues_getD, decide_eq_true_iff]

/-- `match_cardinality` is the exact number of points holding the value. -/
theorem MapIndex.Consistent.matchCardinality_eq (h : idx.Consistent) (v : N) :
    idx.matchCardinality v = .exact (idx.pointToValues.countP fun vs => v ∈ vs) := by
  have hlen : (Postings.idsOf idx.map v).length = idx.pointToValues.countP fun vs => v ∈ vs := by
    rw [← idx.getIterator_eq_idsOf, h.getIterator_eq_scan, ← List.countP_eq_length_filter,
      ← countP_range_getD (fun vs : List N => decide (v ∈ vs)) [] idx.pointToValues]
    simp only [idx.getValues_getD]
  unfold MapIndex.matchCardinality CardinalityEstimation.exact
  rw [← hlen]
  unfold MapIndex.points Postings.idsOf
  cases get? v idx.map <;> simp

/-- `remove_point` never takes more than the counters hold: its subtractions do not wrap. -/
theorem MapIndex.Consistent.removePoint_no_underflow (h : idx.Consistent) (id : PointOffsetType) :
    (idx.pointToValues.getD id [] ≠ [] → 1 ≤ idx.indexedPoints) ∧
      (idx.pointToValues.getD id []).length ≤ idx.valuesCount := by
  by_cases hid : id < idx.pointToValues.length
  · rw [List.getD_eq_getElem _ _ hid]
    have hmem := List.getElem_mem hid
    refine ⟨fun hne => ?_, ?_⟩
    · rw [h.indexedPoints]
      exact List.countP_pos_iff.mpr ⟨_, hmem, by simpa using hne⟩
    · rw [h.valuesCount]
      exact List.le_sum_of_mem (List.mem_map_of_mem hmem)
  · rw [List.getD_eq_default _ _ (Nat.le_of_not_lt hid)]
    simp

/-- The estimation of a `match any` (`combine_should_estimations` over the values'
`match_cardinality`, out of the indexed points) brackets the number of points holding one of
the values. -/
theorem MapIndex.Consistent.matchAny_sound (h : idx.Consistent) (values : List N) :
    let e := combineShouldEstimations (values.map idx.matchCardinality) idx.indexedPoints
    let accepted := (List.range idx.pointToValues.length).countP fun id =>
      values.any fun v => v ∈ (idx.getValues id).getD []
    e.min ≤ accepted ∧ accepted ≤ e.max := by
  intro e accepted
  -- the universe of the estimation: the points with a value
  set u := (List.range idx.pointToValues.length).filter fun id =>
    !(idx.pointToValues.getD id []).isEmpty with hu
  have hulen : u.length = idx.indexedPoints := by
    rw [hu, ← List.countP_eq_length_filter,
      countP_range_getD (fun vs : List N => !vs.isEmpty) [] idx.pointToValues, h.indexedPoints]
  -- a point holding a value is in the universe
  have hcount : ∀ p : PointOffsetType → Bool,
      (∀ id, p id = true → ∃ v, v ∈ idx.pointToValues.getD id []) →
        u.countP p = (List.range idx.pointToValues.length).countP p := by
    intro p hp
    rw [hu, List.countP_filter]
    refine List.countP_congr fun id _ => ?_
    constructor
    · intro hid
      exact (Bool.and_eq_true _ _).mp hid |>.1
    · intro hid
      obtain ⟨v, hv⟩ := hp id hid
      simp only [Bool.and_eq_true, Bool.not_eq_eq_eq_not, Bool.not_true, List.isEmpty_eq_false_iff]
      exact ⟨hid, List.ne_nil_of_mem hv⟩
  let l := values.map fun v => (idx.matchCardinality v, fun id =>
    decide (v ∈ idx.pointToValues.getD id []))
  have hsound : ∀ ep ∈ l, EstimationSound u ep.1 ep.2 := by
    intro ep hep
    obtain ⟨v, -, rfl⟩ := List.mem_map.mp hep
    have hv : u.countP (fun id => decide (v ∈ idx.pointToValues.getD id [])) =
        idx.pointToValues.countP fun vs => v ∈ vs := by
      rw [hcount _ (fun id hid => ⟨v, of_decide_eq_true hid⟩),
        countP_range_getD (fun vs : List N => decide (v ∈ vs)) [] idx.pointToValues]
    simp only [EstimationSound, h.matchCardinality_eq v, CardinalityEstimation.exact, hv,
      le_refl, and_self]
  have hcomb := combineShouldEstimations_sound l hsound
  have hfst : l.map Prod.fst = values.map idx.matchCardinality := by
    simp [l, Function.comp_def]
  have hacc : u.countP (fun id => l.any (·.2 id)) = accepted := by
    rw [hcount]
    · simp only [accepted, l, List.any_map, Function.comp_def, idx.getValues_getD]
    · intro id hid
      simp only [l, List.any_map, Function.comp_def, List.any_eq_true, decide_eq_true_eq] at hid
      obtain ⟨v, -, hv⟩ := hid
      exact ⟨v, hv⟩
  rw [hfst, hulen] at hcomb
  obtain ⟨hmin, hmax⟩ := hcomb
  rw [hacc] at hmin hmax
  exact ⟨hmin, hmax⟩

end Answers

end MapIndexRuns

/-! ## 4. The inverted index of a text index -/

section InvertedIndexRuns

theorem InvertedIndex.indexDocument_postings (ii : InvertedIndex) (id : PointOffsetType)
    (document : Document) :
    (ii.indexDocument id document).postings =
      document.foldl (fun ps token => Postings.link ps id token) ii.postings := rfl

theorem unlinkToken_eq_unlinkPrune (postings : List (String × IdSet)) (id : PointOffsetType)
    (token : String) : unlinkToken postings id token = Postings.unlinkPrune postings id token := by
  unfold unlinkToken Postings.unlinkPrune
  cases get? token postings <;> rfl

/-- The inverted index's invariant: the posting lists are the exact inverse of `point_to_docs`,
sorted and never empty, and `points_count` counts the documents. -/
structure InvertedIndex.Consistent (ii : InvertedIndex) : Prop where
  sorted : Postings.WellSorted ii.postings
  noEmpty : Postings.NoEmpty ii.postings
  mirror : ∀ token id,
    id ∈ Postings.idsOf ii.postings token ↔ token ∈ (ii.pointToDocs.getD id none).getD []
  pointsCount : ii.pointsCount = ii.pointToDocs.countP Option.isSome

theorem InvertedIndex.consistent_new : InvertedIndex.new.Consistent where
  sorted := Postings.wellSorted_nil
  noEmpty := Postings.noEmpty_nil
  mirror token id := by simp [InvertedIndex.new, Postings.idsOf, get?]
  pointsCount := rfl

/-- `remove_document` leaves the point without a document. -/
theorem InvertedIndex.getD_removeDocument_self (ii : InvertedIndex) (id : PointOffsetType) :
    (ii.removeDocument id).1.pointToDocs.getD id none = none := by
  unfold InvertedIndex.removeDocument
  split
  · exact List.getD_eq_default _ _ ‹_›
  · have hid := Nat.lt_of_not_le ‹_›
    split <;> rw [getD_set_of_lt hid, if_pos rfl]

theorem InvertedIndex.Consistent.removeDocument {ii : InvertedIndex} (h : ii.Consistent)
    (id : PointOffsetType) : (ii.removeDocument id).1.Consistent := by
  unfold InvertedIndex.removeDocument
  split
  · exact h
  · rename_i hlt
    have hid : id < ii.pointToDocs.length := Nat.lt_of_not_le hlt
    split
    · -- no document: storing `None` over `None` changes nothing
      rename_i hnone
      have hset : ii.pointToDocs.set id none = ii.pointToDocs := by
        rw [← hnone, List.getD_eq_getElem _ _ hid, List.set_getElem_self]
      dsimp only
      rw [hset]
      exact h
    · rename_i doc hdoc
      refine ⟨?_, ?_, fun token j => ?_, ?_⟩ <;> dsimp only
      · simp only [unlinkToken_eq_unlinkPrune]
        exact Postings.WellSorted.foldl_unlinkPrune id doc h.sorted
      · simp only [unlinkToken_eq_unlinkPrune]
        exact Postings.NoEmpty.foldl_unlinkPrune id doc h.noEmpty
      · -- the point loses exactly the tokens of its document
        simp only [unlinkToken_eq_unlinkPrune]
        rw [Postings.mem_idsOf_foldl_unlinkPrune, h.mirror, getD_set_of_lt hid]
        by_cases hj : j = id
        · subst hj
          rw [if_pos rfl, hdoc]
          simp
        · simp [hj]
      · have hcount := List.countP_set (p := Option.isSome) (a := none) hid
        rw [← List.getD_eq_getElem _ none hid, hdoc] at hcount
        rw [hcount, h.pointsCount]
        simp

theorem InvertedIndex.Consistent.indexDocument {ii : InvertedIndex} (h : ii.Consistent)
    {id : PointOffsetType} (hclear : ii.pointToDocs.getD id none = none) (document : Document) :
    (ii.indexDocument id document).Consistent := by
  refine ⟨?_, ?_, fun token j => ?_, ?_⟩
  · rw [InvertedIndex.indexDocument_postings]
    exact Postings.WellSorted.foldl_link id document h.sorted
  · rw [InvertedIndex.indexDocument_postings]
    exact Postings.NoEmpty.foldl_link id document h.noEmpty
  · -- the point gains exactly the tokens of the document
    rw [InvertedIndex.indexDocument_postings, Postings.mem_idsOf_foldl_link, h.mirror]
    simp only [InvertedIndex.indexDocument]
    rw [getD_set_resizeTo]
    by_cases hj : j = id
    · subst hj
      rw [if_pos rfl, hclear]
      simp
    · simp [hj]
  · simp only [InvertedIndex.indexDocument]
    rw [countP_set_resizeTo Option.isSome rfl _ _ hclear, h.pointsCount]
    rfl

/-- `remove_document` decrements `points_count` only when it holds a document. -/
theorem InvertedIndex.Consistent.removeDocument_no_underflow {ii : InvertedIndex}
    (h : ii.Consistent) {id : PointOffsetType} {doc : Document}
    (hdoc : ii.pointToDocs.getD id none = some doc) : 1 ≤ ii.pointsCount := by
  have hid : id < ii.pointToDocs.length := by
    by_contra hge
    rw [List.getD_eq_default _ _ (Nat.le_of_not_lt hge)] at hdoc
    cases hdoc
  rw [h.pointsCount]
  refine List.countP_pos_iff.mpr ⟨_, List.getElem_mem hid, ?_⟩
  rw [← List.getD_eq_getElem _ none hid, hdoc]
  rfl

/-- The text index through `ValueIndexer`: every update keeps its inverted index consistent. -/
theorem FullTextIndex.keeps (env : Env) :
    (fullTextIndexer env).Keeps (fun idx => idx.invertedIndex.Consistent)
      fun idx id => idx.invertedIndex.pointToDocs.getD id none = none where
  removePoint idx id h :=
    ⟨_, rfl, h.removeDocument id, idx.invertedIndex.getD_removeDocument_self id⟩
  addMany idx id values h hclear := by
    refine ⟨_, rfl, ?_⟩
    unfold FullTextIndex.addMany
    split
    · exact h
    · exact h.indexDocument hclear _

/-! ### What a consistent inverted index answers -/

/-- A choice between two candidates keeps one of them, so a fold of choices ends on one. -/
theorem foldl_mem_of_choose {β : Type} (f : β → β → β) (hf : ∀ x y, f x y = x ∨ f x y = y) :
    ∀ (l : List β) (b : β), l.foldl f b ∈ b :: l
  | [], b => List.mem_singleton_self b
  | e :: l, b => by
    rw [List.foldl_cons]
    rcases List.mem_cons.mp (foldl_mem_of_choose f hf l (f b e)) with h | h
    · rcases hf b e with hb | he
      · rw [h, hb]
        exact List.mem_cons_self
      · rw [h, he]
        exact List.mem_cons_of_mem _ List.mem_cons_self
    · exact List.mem_cons_of_mem _ (List.mem_cons_of_mem _ h)

/-- What holds of every member holds of the one at `i` and of the others. -/
theorem forall_mem_iff_eraseIdx {β : Type} {l : List β} {i : ℕ} (hi : i < l.length)
    (P : β → Prop) : (∀ q ∈ l, P q) ↔ P l[i] ∧ ∀ q ∈ l.eraseIdx i, P q := by
  constructor
  · intro h
    exact ⟨h _ (List.getElem_mem hi), fun q hq => h q (List.mem_of_mem_eraseIdx hq)⟩
  · rintro ⟨hi', hrest⟩ q hq
    obtain ⟨j, hj, rfl⟩ := List.getElem_of_mem hq
    by_cases hji : j = i
    · subst hji
      exact hi'
    · exact hrest _ (List.mem_eraseIdx_iff_getElem.mpr ⟨j, hj, hji, rfl⟩)

/-- `intersect_btree_iterator` scans one of the lists (the first smallest, by `min_by_key`) and
keeps the ids that all the others hold. -/
theorem intersectPostings_eq_filter (p : IdSet) (ps : List IdSet) :
    ∃ i, ∃ hi : i < (p :: ps).length, intersectPostings (p :: ps) =
      (p :: ps)[i].ids.filter fun id =>
        ((p :: ps).eraseIdx i).all fun posting => (get? id posting).isSome := by
  have hchoose : ∀ x y : IdSet × ℕ,
      (if y.1.length < x.1.length then y else x) = x ∨
        (if y.1.length < x.1.length then y else x) = y := by
    intro x y
    split <;> simp
  have hmem := foldl_mem_of_choose _ hchoose ((p :: ps).zipIdx) (p, 0)
  -- the chosen list sits in the list at its index
  obtain ⟨i, hi, hget⟩ : ∃ i, ∃ hi : i < (p :: ps).length,
      ((p :: ps).zipIdx.foldl (fun best e => if e.1.length < best.1.length then e else best)
        (p, 0)) = ((p :: ps)[i], i) := by
    rcases List.mem_cons.mp hmem with h | h
    · exact ⟨0, by simp, by rw [h]; rfl⟩
    · rw [List.mem_zipIdx_iff_getElem?, List.getElem?_eq_some_iff] at h
      obtain ⟨hi, heq⟩ := h
      exact ⟨_, hi, by rw [heq]⟩
  refine ⟨i, hi, ?_⟩
  unfold intersectPostings
  dsimp only
  rw [hget]

/-- An id is in the intersection exactly when every list holds it. -/
theorem mem_intersectPostings {p : IdSet} {ps : List IdSet} (id : PointOffsetType) :
    id ∈ intersectPostings (p :: ps) ↔ ∀ posting ∈ p :: ps, id ∈ posting.ids := by
  obtain ⟨i, hi, heq⟩ := intersectPostings_eq_filter p ps
  rw [heq, List.mem_filter, List.all_eq_true, forall_mem_iff_eraseIdx hi]
  simp only [IdSet.ids, mem_keys_iff_isSome]

theorem pairwise_intersectPostings {p : IdSet} {ps : List IdSet}
    (hsorted : ∀ posting ∈ p :: ps, Sorted posting) :
    (intersectPostings (p :: ps)).Pairwise (· < ·) := by
  obtain ⟨i, hi, heq⟩ := intersectPostings_eq_filter p ps
  rw [heq]
  exact (hsorted _ (List.getElem_mem hi)).filter _

/-- The intersection is no longer than any of the lists. -/
theorem length_intersectPostings_le {p : IdSet} {ps : List IdSet}
    (hsorted : ∀ posting ∈ p :: ps, Sorted posting) {posting : IdSet}
    (hmem : posting ∈ p :: ps) : (intersectPostings (p :: ps)).length ≤ posting.length := by
  have hsub : intersectPostings (p :: ps) ⊆ posting.ids := fun id hid =>
    (mem_intersectPostings id).mp hid posting hmem
  have hle := ((pairwise_intersectPostings hsorted).nodup.subperm hsub).length_le
  rwa [IdSet.ids, List.length_map] at hle

section TextAnswers

variable {ii : InvertedIndex}

/-- The check of a query on a point, for a query with a token: every token is in its document. -/
theorem checkMatch_getD_iff {query : List String} (hq : query ≠ []) (doc : Option Document) :
    (doc.map (checkMatch query)).getD false = true ↔ ∀ token ∈ query, token ∈ doc.getD [] := by
  cases doc with
  | none =>
    obtain ⟨token, htoken⟩ := List.exists_mem_of_ne_nil query hq
    simp only [Option.map_none, Option.getD_none, Bool.false_eq_true, false_iff, not_forall]
    exact ⟨token, htoken, List.not_mem_nil⟩
  | some doc => simp [checkMatch]

/-- The posting lists of a query's tokens, on a consistent index. -/
theorem InvertedIndex.Consistent.sorted_of_queryPostings (h : ii.Consistent)
    {query : List String} {postings : List IdSet} (hq : ii.queryPostings query = some postings) :
    ∀ posting ∈ postings, Sorted posting := by
  intro posting hposting
  obtain ⟨token, -, hget⟩ := Postings.exists_get?_of_mem
    ((Postings.mapM_get?_eq_some_iff _ _ _).mp hq) hposting
  exact h.sorted.sets token posting hget

/-- For a query with a token, `filter` is the scan, in id order, of the points whose document
`check_match` accepts. -/
theorem InvertedIndex.Consistent.filter_eq_scan (h : ii.Consistent) {query : List String}
    (hq : query ≠ []) :
    ii.filter query = (List.range ii.pointToDocs.length).filter fun id =>
      ((ii.pointToDocs.getD id none).map (checkMatch query)).getD false := by
  have hlt : ∀ id, ((ii.pointToDocs.getD id none).map (checkMatch query)).getD false = true →
      id < ii.pointToDocs.length := by
    intro id hid
    by_contra hge
    rw [List.getD_eq_default _ _ (Nat.le_of_not_lt hge)] at hid
    cases hid
  unfold InvertedIndex.filter
  cases hqp : ii.queryPostings query with
  | none =>
    -- a token without a posting list is in no document
    obtain ⟨token, htoken, hnone⟩ := (Postings.mapM_get?_eq_none_iff _ _).mp hqp
    symm
    refine List.filter_eq_nil_iff.mpr fun id _ hid => ?_
    have hin := (checkMatch_getD_iff hq _).mp hid token htoken
    rw [← h.mirror, Postings.idsOf_of_get?_none hnone] at hin
    cases hin
  | some postings =>
    have hf := (Postings.mapM_get?_eq_some_iff _ _ _).mp hqp
    cases postings with
    | nil => exact absurd (List.length_eq_zero_iff.mp hf.length_eq) hq
    | cons p ps =>
      refine eq_scan_of_pairwise (pairwise_intersectPostings (h.sorted_of_queryPostings hqp))
        (fun id => ?_) hlt
      rw [mem_intersectPostings, checkMatch_getD_iff hq]
      simp only [IdSet.ids, Postings.forall_mem_ids_iff hf, h.mirror]

/-- `estimate_cardinality` brackets what `filter` returns, for every query. -/
theorem InvertedIndex.Consistent.estimateCardinality_bounds (h : ii.Consistent)
    (query : List String) (condition : FieldCondition) :
    (ii.estimateCardinality query condition).min ≤ (ii.filter query).length ∧
      (ii.filter query).length ≤ (ii.estimateCardinality query condition).max := by
  unfold InvertedIndex.estimateCardinality InvertedIndex.filter
  cases hqp : ii.queryPostings query with
  | none => simp
  | some postings =>
    cases postings with
    | nil => simp
    | cons p ps =>
      have hsorted := h.sorted_of_queryPostings hqp
      have hle : ∀ posting ∈ p :: ps, (intersectPostings (p :: ps)).length ≤ posting.length :=
        fun _ hmem => length_intersectPostings_le hsorted hmem
      -- the smallest posting list bounds the intersection
      have hmax : (intersectPostings (p :: ps)).length ≤
          ((p :: ps).map List.length).foldl min p.length := by
        rw [List.foldl_min_eq_min (by simp)]
        refine le_min (hle p List.mem_cons_self) ((List.le_min_iff _).mpr fun n hn => ?_)
        obtain ⟨posting, hposting, rfl⟩ := List.mem_map.mp hn
        exact hle posting hposting
      dsimp only
      split
      · -- one token: the intersection is its whole posting list
        rename_i hps
        rw [List.isEmpty_iff.mp hps] at hle hmax ⊢
        refine ⟨?_, hmax⟩
        have hself : intersectPostings [p] = p.ids := by
          simp [intersectPostings]
        simp [hself, IdSet.ids]
      · exact ⟨Nat.zero_le _, hmax⟩

end TextAnswers

end InvertedIndexRuns

/-! ## 5. The indexes over runs, as the optimised filter reads them

`get_match_checkers` answers a `match` on an indexed field point by point from the index's
per-point vectors, while `query_points` takes the candidates of `filter` and trusts the
estimations.  Over every run of updates the two agree. -/

section Checkers

variable (env : Env)

/-- A map index of values `N` answers `match` and `match any` as the checkers of
`get_match_checkers` do: `filter` of a value is the scan of its checker over the first `n` ids,
the estimation of a value is the exact count of that scan, and the estimation of a
`match any` brackets the count of its checker. -/
structure FieldIndex.AgreesWithCheckers {N : Type} (fi : FieldIndex) (n : ℕ)
    (value : N → ValueVariants) (any : List N → AnyVariants) : Prop where
  value : ∀ (condition : FieldCondition) (v : N), condition.«match» = some (.value (value v)) →
    ∃ check e, getMatchCheckers env fi (.value (value v)) = some check ∧
      FieldIndex.filter env condition fi = some ((List.range n).filter check) ∧
      FieldIndex.estimateCardinality env condition fi = some (some e) ∧
      e.primaryClauses = [.condition condition] ∧ e.min = (List.range n).countP check ∧
      e.exp = (List.range n).countP check ∧ e.max = (List.range n).countP check
  any : ∀ (condition : FieldCondition) (vs : List N), condition.«match» = some (.any (any vs)) →
    ∃ check e, getMatchCheckers env fi (.any (any vs)) = some check ∧
      FieldIndex.estimateCardinality env condition fi = some (some e) ∧
      e.min ≤ (List.range n).countP check ∧ (List.range n).countP check ≤ e.max

variable {N : Type} [LinearOrder N]

/-- A consistent map index agrees with the checkers of whichever `FieldIndex` arm carries it. -/
theorem MapIndex.Consistent.agreesWithCheckers {idx : MapIndex N} (h : idx.Consistent)
    {fi : FieldIndex} (keyOf : ValueVariants → Option N) (anyOf : AnyVariants → Option (List N))
    {value : N → ValueVariants} {any : List N → AnyVariants}
    (hfilter : ∀ condition, FieldIndex.filter env condition fi = idx.filterWith keyOf condition)
    (hestimate : ∀ condition, FieldIndex.estimateCardinality env condition fi =
      some (idx.estimateWith keyOf anyOf condition))
    (hkey : ∀ v, keyOf (value v) = some v) (hany : ∀ vs, anyOf (any vs) = some vs)
    (hvalueCheck : ∀ v, getMatchCheckers env fi (.value (value v)) =
      some fun id => decide (v ∈ (idx.getValues id).getD []))
    (hanyCheck : ∀ vs, getMatchCheckers env fi (.any (any vs)) =
      some fun id => vs.any fun v => decide (v ∈ (idx.getValues id).getD [])) :
    FieldIndex.AgreesWithCheckers env fi idx.pointToValues.length value any where
  value condition v hmatch := by
    have hcount : (List.range idx.pointToValues.length).countP
        (fun id => decide (v ∈ (idx.getValues id).getD [])) =
          idx.pointToValues.countP fun vs => v ∈ vs := by
      simp only [idx.getValues_getD]
      exact countP_range_getD (fun vs : List N => decide (v ∈ vs)) [] idx.pointToValues
    refine ⟨_, { idx.matchCardinality v with
      primaryClauses := (idx.matchCardinality v).primaryClauses ++ [.condition condition] },
      hvalueCheck v, ?_, ?_, ?_⟩
    · rw [hfilter, MapIndex.filterWith, hmatch]
      simp only [hkey, Option.map_some]
      rw [h.getIterator_eq_scan]
    · rw [hestimate, MapIndex.estimateWith, hmatch]
      simp only [hkey, Option.map_some]
    · simp only [h.matchCardinality_eq, CardinalityEstimation.exact, hcount, List.nil_append,
        and_self]
  any condition vs hmatch := by
    refine ⟨_, combineShouldEstimations (vs.map idx.matchCardinality) idx.indexedPoints,
      hanyCheck vs, ?_, h.matchAny_sound vs⟩
    rw [hestimate, MapIndex.estimateWith, hmatch]
    simp only [hany, Option.map_some]

omit [LinearOrder N] in
/-- The checker of a `match` of `v`, as membership in the point's values. -/
theorem MapIndex.valueChecker_eq [DecidableEq N] (idx : MapIndex N) (v : N) :
    (fun id => ((idx.getValues id).map fun vs => vs.any (· = v)).getD false) =
      fun id => decide (v ∈ (idx.getValues id).getD []) := by
  funext id
  cases idx.getValues id with
  | none => rfl
  | some vs =>
    simp only [Option.map_some, Option.getD_some]
    rw [Bool.eq_iff_iff, List.any_eq_true, decide_eq_true_eq]
    simp

omit [LinearOrder N] in
/-- The checker of a `match any` of `list`, as membership of one of its values. -/
theorem MapIndex.anyChecker_eq [DecidableEq N] (idx : MapIndex N) (list : List N) :
    (fun id => ((idx.getValues id).map fun vs => vs.any (list.contains ·)).getD false) =
      fun id => list.any fun v => decide (v ∈ (idx.getValues id).getD []) := by
  funext id
  cases idx.getValues id with
  | none => simp
  | some vs =>
    simp only [Option.map_some, Option.getD_some]
    rw [Bool.eq_iff_iff, List.any_eq_true, List.any_eq_true]
    simp only [List.contains_iff_mem, decide_eq_true_eq]
    exact ⟨fun ⟨x, hx, hl⟩ => ⟨x, hl, hx⟩, fun ⟨x, hl, hx⟩ => ⟨x, hx, hl⟩⟩

/-- Over any run of updates, the keyword and the integer map indexes are consistent and answer
`match` and `match any` as the optimised filter's checkers do. -/
theorem mapIndexes_agree_with_checkers (updates : List IndexUpdate) :
    (∃ idx, updates.foldlM (IndexUpdate.apply (mapIndexer keywordValue)) MapIndex.new = some idx ∧
      idx.Consistent ∧ FieldIndex.AgreesWithCheckers env (.keywordIndex idx)
        idx.pointToValues.length ValueVariants.keyword AnyVariants.keywords) ∧
    (∃ idx, updates.foldlM (IndexUpdate.apply (mapIndexer integerValue)) MapIndex.new = some idx ∧
      idx.Consistent ∧ FieldIndex.AgreesWithCheckers env (.intMapIndex idx)
        idx.pointToValues.length ValueVariants.integer AnyVariants.integers) := by
  constructor
  · obtain ⟨idx, hrun, h⟩ := (MapIndex.keeps keywordValue).foldlM updates _ MapIndex.consistent_new
    refine ⟨idx, hrun, h, h.agreesWithCheckers env keywordOf keywordsOf
      (fun _ => rfl) (fun _ => rfl) (fun _ => rfl) (fun _ => rfl) (fun v => ?_) (fun vs => ?_)⟩
    · simp only [getMatchCheckers, MapIndex.valueChecker_eq]
    · simp only [getMatchCheckers, MapIndex.anyChecker_eq]
  · obtain ⟨idx, hrun, h⟩ := (MapIndex.keeps integerValue).foldlM updates _ MapIndex.consistent_new
    refine ⟨idx, hrun, h, h.agreesWithCheckers env integerOf integersOf
      (fun _ => rfl) (fun _ => rfl) (fun _ => rfl) (fun _ => rfl) (fun v => ?_) (fun vs => ?_)⟩
    · simp only [getMatchCheckers, MapIndex.valueChecker_eq]
    · simp only [getMatchCheckers, MapIndex.anyChecker_eq]

/-- Over any run of updates, a text index is consistent, and for every text match its
`filter` and its estimation agree with the checker of `get_match_checkers`: the estimation
brackets what `filter` returns, which is the scan of `check_match` when the parsed query has a
token.  When it has none, `filter` returns nothing, while the checker accepts every point with a
document. -/
theorem fullTextIndex_agrees_with_check_match (config : TextIndexParams)
    (updates : List IndexUpdate) :
    ∃ idx, updates.foldlM (IndexUpdate.apply (fullTextIndexer env)) ⟨InvertedIndex.new, config⟩ =
        some idx ∧ idx.invertedIndex.Consistent ∧
      ∀ (condition : FieldCondition) (text : String), condition.«match» = some (.text text) →
        ∃ check ps e, getMatchCheckers env (.fullTextIndex idx) (.text text) = some check ∧
          FieldIndex.filter env condition (.fullTextIndex idx) = some ps ∧
          FieldIndex.estimateCardinality env condition (.fullTextIndex idx) = some (some e) ∧
          e.min ≤ ps.length ∧ ps.length ≤ e.max ∧
          (idx.parseQuery env text ≠ [] →
            ps = (List.range idx.invertedIndex.pointToDocs.length).filter check) ∧
          (idx.parseQuery env text = [] →
            ps = [] ∧ ∀ id, check id = (idx.getDoc id).isSome) := by
  obtain ⟨idx, hrun, h⟩ :=
    (FullTextIndex.keeps env).foldlM updates ⟨InvertedIndex.new, config⟩
      InvertedIndex.consistent_new
  refine ⟨idx, hrun, h, fun condition text hmatch => ?_⟩
  have hdoc : ∀ id, idx.getDoc id = idx.invertedIndex.pointToDocs.getD id none := fun id =>
    List.getD_eq_getElem?_getD.symm
  have hbounds := h.estimateCardinality_bounds (idx.parseQuery env text) condition
  refine ⟨_, _, _, rfl, by simp only [FieldIndex.filter, hmatch],
    by simp only [FieldIndex.estimateCardinality, hmatch], hbounds.1, hbounds.2,
    fun hq => ?_, fun hq => ⟨?_, fun id => ?_⟩⟩
  · rw [h.filter_eq_scan hq]
    simp only [hdoc]
  · rw [hq]
    rfl
  · -- the empty query: `check_match` of no token accepts every document
    cases idx.getDoc id with
    | none => rfl
    | some doc =>
      rw [Option.map_some, Option.getD_some, Option.isSome_some, checkMatch, hq, List.all_nil]

/-- Over any run of updates, the subtractions of `remove_point` of a map index
(`indexed_points -= 1`, `values_count -= removed_values.len()`) and of `remove_document`
(`points_count -= 1`) never take more than the counter holds. -/
theorem index_removals_never_underflow (getValue : Value → Option N) (config : TextIndexParams)
    (updates : List IndexUpdate) (id : PointOffsetType) :
    (∃ idx, updates.foldlM (IndexUpdate.apply (mapIndexer getValue)) MapIndex.new = some idx ∧
      (idx.pointToValues.getD id [] ≠ [] → 1 ≤ idx.indexedPoints) ∧
      (idx.pointToValues.getD id []).length ≤ idx.valuesCount) ∧
    (∃ idx, updates.foldlM (IndexUpdate.apply (fullTextIndexer env))
        ⟨InvertedIndex.new, config⟩ = some idx ∧
      ∀ doc, idx.invertedIndex.pointToDocs.getD id none = some doc →
        1 ≤ idx.invertedIndex.pointsCount) := by
  obtain ⟨idx, hrun, h⟩ := (MapIndex.keeps getValue).foldlM updates _ MapIndex.consistent_new
  obtain ⟨text, hrunText, hText⟩ :=
    (FullTextIndex.keeps env).foldlM updates ⟨InvertedIndex.new, config⟩
      InvertedIndex.consistent_new
  exact ⟨⟨idx, hrun, h.removePoint_no_underflow id⟩,
    ⟨text, hrunText, fun _ hdoc => hText.removeDocument_no_underflow hdoc⟩⟩

end Checkers

/-! ## 6. The geo index, as the optimised filter reads it

`filter` of the geo index collects the points stored under the geohash regions of the shape
(`get_iterator`) and checks each against its stored values; the checker of the optimised filter
(`get_geo_radius_checkers`, `get_geo_bounding_box_checkers`) checks every point's values.  They
agree where the regions cover the shape (`GeoCovers`), which is what `rectangle_hashes` and
`circle_hashes` are for.  With both a box and a radius in one condition they read different
shapes: `filter` tries the box first, `field_condition_index` the radius. -/

section GeoCheckers

variable (env : Env)

variable {env}

end GeoCheckers

end Qdrant
