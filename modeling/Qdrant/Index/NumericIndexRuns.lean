/-
# The numeric index over runs of updates

`NumericIndex` keeps three views of the same values: the key map from `(value, id)` to `id`,
the histogram of those keys, and `point_to_values`.  `add_to_map` and `remove_from_map` feed
the histogram the key that enters or leaves, with neighbour callbacks that read the UPDATED key
map; the histogram's invariant (`Index/HistogramInvariant.lean`) asks for exactly that, with the
exact predecessor and successor among the stored keys.  So:

* the callbacks ARE the exact neighbours of the map's keys (`isLeftNeighbour_histogramLeftNeighbor`,
  `isRightNeighbour_histogramRightNeighbor`), and every update is one of the histogram's valid
  steps: a key enters only when the map lacked it, and leaves only when the map held it;
* hence over every run of `add_point` and `remove_point` the index never panics, the histogram
  represents the map's keys, and the keys are exactly the pairs of `point_to_values`
  (`NumericIndex.Consistent`, `NumericIndex.keeps`);
* on such an index `filter` of a range holds exactly the points with a value in range, for
  every point id a `u32` can hold and every bound that `from_f64` keeps (every bound for `f64`,
  for `i64` the integral ones it holds, such as those of magnitude at most `2 ^ 53`), when each
  side has one bound; with both `gt` and `gte` (or `lt` and `lte`) it keeps only the first, and
  still holds every accepted point.  `filter` compares the keys exactly, while the checker of
  `get_range_checkers` compares each value `as f64`: the two agree on the points whose values
  `to_f64` orders exactly (`Numericable.OrderExact`), every point for `f64`, and for `i64` the
  points whose values lie strictly within `2 ^ 53` in magnitude.  Above it an `i64` rounds, and
  the two part, at `2 ^ 53 + 5` already (`numericIndexes_agree_with_range_checkers`).
-/
import Qdrant.Index.IndexRuns
import Qdrant.Index.HistogramInvariant
import Qdrant.Index.KeyEncoding
import Qdrant.Index.StructPayloadIndex

namespace Qdrant

open OrdMap hiding insert erase

variable {T : Type} [LinearOrder T]

/-! ## 1. The neighbour callbacks are the exact neighbours of the keys -/

/-- The keys of a map, as a set. -/
def mapKeys {β : Type} (map : List (Point T × β)) : Finset (Point T) :=
  (map.map Prod.fst).toFinset

@[simp] theorem mem_mapKeys {β : Type} {map : List (Point T × β)} {p : Point T} :
    p ∈ mapKeys map ↔ p ∈ map.map Prod.fst :=
  List.mem_toFinset

theorem mapKeys_insert {β : Type} (map : List (Point T × β)) (p : Point T) (b : β) :
    mapKeys (OrdMap.insert p b map) = Insert.insert p (mapKeys map) := by
  ext q
  rw [mem_mapKeys, mem_keys_insert, Finset.mem_insert, mem_mapKeys]

theorem mapKeys_erase {β : Type} (map : List (Point T × β)) (p : Point T) :
    mapKeys (OrdMap.erase p map) = (mapKeys map).erase p := by
  ext q
  simp only [mem_mapKeys, Finset.mem_erase, OrdMap.erase, List.mem_map, List.mem_filter,
    decide_eq_true_eq]
  constructor
  · rintro ⟨e, ⟨he, hne⟩, rfl⟩
    exact ⟨hne, e, he, rfl⟩
  · rintro ⟨hne, e, he, rfl⟩
    exact ⟨e, ⟨he, hne⟩, rfl⟩

theorem sorted_range {β : Type} {map : List (Point T × β)} (hs : Sorted map)
    (lo hi : Bound (Point T)) : Sorted (range lo hi map) :=
  List.Pairwise.sublist (List.filter_sublist.map Prod.fst) hs

/-- `get_histogram_left_neighbor` answers with the greatest key below its argument. -/
theorem isLeftNeighbour_histogramLeftNeighbor {map : List (Point T × PointOffsetType)}
    (hs : Sorted map) : IsLeftNeighbour (mapKeys map) (histogramLeftNeighbor map) := by
  intro x y
  have hsr := sorted_range hs .unbounded (.excluded x)
  -- the keys below `x` are the entries of the range
  have hbelow : ∀ e ∈ map, e.1 < x → e ∈ range .unbounded (.excluded x) map := fun e he hlt =>
    mem_range.mpr ⟨he, rfl, by simpa [Bound.below] using hlt⟩
  unfold histogramLeftNeighbor
  constructor
  · intro h
    obtain ⟨b, hb, rfl⟩ := Option.map_eq_some_iff.mp h
    obtain ⟨hbm, -, hblt⟩ := mem_range.mp (List.mem_of_getLast? hb)
    refine ⟨mem_mapKeys.mpr (List.mem_map_of_mem hbm), by simpa [Bound.below] using hblt,
      fun z hz hzx => ?_⟩
    obtain ⟨e, he, rfl⟩ := List.mem_map.mp (mem_mapKeys.mp hz)
    exact le_getLast? hsr hb (hbelow e he hzx)
  · rintro ⟨hy, hyx, hmax⟩
    obtain ⟨e, he, rfl⟩ := List.mem_map.mp (mem_mapKeys.mp hy)
    have hb := List.getLast?_eq_some_getLast (List.ne_nil_of_mem (hbelow e he hyx))
    set b := (range .unbounded (.excluded x) map).getLast _
    obtain ⟨hbm, -, hblt⟩ := mem_range.mp (List.mem_of_getLast? hb)
    have hle : e.1 ≤ b.1 := le_getLast? hsr hb (hbelow e he hyx)
    have hge : b.1 ≤ e.1 := hmax b.1 (mem_mapKeys.mpr (List.mem_map_of_mem hbm))
      (by simpa [Bound.below] using hblt)
    rw [hb, Option.map_some, le_antisymm hge hle]

/-- `get_histogram_right_neighbor` answers with the least key above its argument. -/
theorem isRightNeighbour_histogramRightNeighbor {map : List (Point T × PointOffsetType)}
    (hs : Sorted map) : IsRightNeighbour (mapKeys map) (histogramRightNeighbor map) := by
  intro x y
  have hsr := sorted_range hs (.excluded x) .unbounded
  have habove : ∀ e ∈ map, x < e.1 → e ∈ range (.excluded x) .unbounded map := fun e he hlt =>
    mem_range.mpr ⟨he, by simpa [Bound.above] using hlt, rfl⟩
  unfold histogramRightNeighbor
  constructor
  · intro h
    obtain ⟨b, hb, rfl⟩ := Option.map_eq_some_iff.mp h
    obtain ⟨hbm, hbgt, -⟩ := mem_range.mp (List.mem_of_mem_head? hb)
    refine ⟨mem_mapKeys.mpr (List.mem_map_of_mem hbm), by simpa [Bound.above] using hbgt,
      fun z hz hxz => ?_⟩
    obtain ⟨e, he, rfl⟩ := List.mem_map.mp (mem_mapKeys.mp hz)
    exact head?_le hsr hb (habove e he hxz)
  · rintro ⟨hy, hxy, hmin⟩
    obtain ⟨e, he, rfl⟩ := List.mem_map.mp (mem_mapKeys.mp hy)
    have hb := List.head?_eq_some_head (List.ne_nil_of_mem (habove e he hxy))
    set b := (range (.excluded x) .unbounded map).head _
    obtain ⟨hbm, hbgt, -⟩ := mem_range.mp (List.mem_of_mem_head? hb)
    have hle : b.1 ≤ e.1 := head?_le hsr hb (habove e he hxy)
    have hge : e.1 ≤ b.1 := hmin b.1 (mem_mapKeys.mpr (List.mem_map_of_mem hbm))
      (by simpa [Bound.above] using hbgt)
    rw [hb, Option.map_some, le_antisymm hle hge]

/-- Exact neighbours are unique: two callbacks that both are one are the same. -/
theorem IsLeftNeighbour.eq {S : Finset (Point T)} {f g : Point T → Option (Point T)}
    (hf : IsLeftNeighbour S f) (hg : IsLeftNeighbour S g) : f = g := by
  funext x
  exact Option.ext fun y => (hf x y).trans (hg x y).symm

theorem IsRightNeighbour.eq {S : Finset (Point T)} {f g : Point T → Option (Point T)}
    (hf : IsRightNeighbour S f) (hg : IsRightNeighbour S g) : f = g := by
  funext x
  exact Option.ext fun y => (hf x y).trans (hg x y).symm

/-! ## 2. One key in, one key out -/

variable [Numericable T]

/-- `add_to_map` is the histogram's insert step when the key is new, and leaves the histogram
alone when the map already held it. -/
theorem addToMap_eq {map : List (Point T × PointOffsetType)} (hs : Sorted map)
    (histogram : Histogram T) (key : Point T) (id : PointOffsetType) :
    addToMap map histogram key id =
      if key ∈ mapKeys map then some histogram
      else HistogramUpdate.apply leftNeighbourIn rightNeighbourIn (mapKeys map) histogram
        (.insert key) := by
  have hs' := sorted_insert (v := id) (k := key) hs
  rw [addToMap, HistogramUpdate.apply,
    (isLeftNeighbour_histogramLeftNeighbor hs').eq (isLeftNeighbour_leftNeighbourIn _),
    (isRightNeighbour_histogramRightNeighbor hs').eq (isRightNeighbour_rightNeighbourIn _),
    mapKeys_insert]
  by_cases hkey : key ∈ mapKeys map
  · have hsome := mem_keys_iff_isSome.mp (mem_mapKeys.mp hkey)
    have hnotNone : ¬ (get? key map).isNone = true := by
      rw [Option.isNone_iff_eq_none]
      exact Option.isSome_iff_ne_none.mp hsome
    rw [if_pos hkey, if_neg hnotNone]
  · have hnone := get?_eq_none_of_not_mem (fun h => hkey (mem_mapKeys.mpr h))
    rw [if_neg hkey, hnone]
    rfl

/-- `remove_from_map` is the histogram's remove step when the map held the key, and leaves the
histogram alone otherwise. -/
theorem removeFromMap_eq {map : List (Point T × PointOffsetType)} (hs : Sorted map)
    (histogram : Histogram T) (key : Point T) :
    removeFromMap map histogram key =
      if key ∈ mapKeys map then HistogramUpdate.apply leftNeighbourIn rightNeighbourIn
        (mapKeys map) histogram (.remove key)
      else some histogram := by
  have hs' := sorted_erase (k := key) hs
  rw [removeFromMap, HistogramUpdate.apply,
    (isLeftNeighbour_histogramLeftNeighbor hs').eq (isLeftNeighbour_leftNeighbourIn _),
    (isRightNeighbour_histogramRightNeighbor hs').eq (isRightNeighbour_rightNeighbourIn _),
    mapKeys_erase]
  by_cases hkey : key ∈ mapKeys map
  · have hsome := mem_keys_iff_isSome.mp (mem_mapKeys.mp hkey)
    rw [if_pos hkey, if_pos hsome]
  · have hnone := get?_eq_none_of_not_mem (fun h => hkey (mem_mapKeys.mpr h))
    rw [if_neg hkey, hnone]
    rfl

/-- The key map and the histogram agree: each key maps to the id it holds, and the histogram
represents the keys. -/
structure KeysExact (map : List (Point T × PointOffsetType)) (histogram : Histogram T) : Prop where
  entryId : ∀ e ∈ map, e.2 = e.1.idx
  hist : histogram.Represents (mapKeys map)

/-- The fields `add_value` and `remove_from_map` leave alone. -/
structure NumericIndex.SameValues (idx idx' : NumericIndex T) : Prop where
  pointToValues : idx'.pointToValues = idx.pointToValues
  pointsCount : idx'.pointsCount = idx.pointsCount

theorem KeysExact.addValue {idx : NumericIndex T} (h : KeysExact idx.map idx.histogram)
    (id : PointOffsetType) (v : T) :
    ∃ idx', idx.addValue id v = some idx' ∧ KeysExact idx'.map idx'.histogram ∧
      idx'.map = OrdMap.insert ⟨v, id⟩ id idx.map ∧ idx.SameValues idx' := by
  have hentry : ∀ e ∈ OrdMap.insert ⟨v, id⟩ id idx.map, e.2 = e.1.idx := by
    intro e he
    rcases mem_of_mem_insert he with rfl | he
    · rfl
    · exact h.entryId e he
  unfold NumericIndex.addValue
  rw [addToMap_eq idx.mapSorted]
  split
  · -- the key was there: the histogram stays, and so do the keys
    rename_i hkey
    refine ⟨_, rfl, ⟨hentry, ?_⟩, rfl, rfl, rfl⟩
    rw [mapKeys_insert, Finset.insert_eq_of_mem hkey]
    exact h.hist
  · rename_i hkey
    obtain ⟨histogram, happly, hrep⟩ := h.hist.apply isLeftNeighbour_leftNeighbourIn
      isRightNeighbour_rightNeighbourIn (u := .insert ⟨v, id⟩)
      (by simpa [HistogramUpdate.valid] using hkey)
    rw [happly]
    refine ⟨_, rfl, ⟨hentry, ?_⟩, rfl, rfl, rfl⟩
    rwa [mapKeys_insert]

theorem KeysExact.removeValue {idx : NumericIndex T} (h : KeysExact idx.map idx.histogram)
    (id : PointOffsetType) (v : T) :
    ∃ idx', idx.removeValue id v = some idx' ∧ KeysExact idx'.map idx'.histogram ∧
      idx'.map = OrdMap.erase ⟨v, id⟩ idx.map ∧ idx.SameValues idx' := by
  have hentry : ∀ e ∈ OrdMap.erase ⟨v, id⟩ idx.map, e.2 = e.1.idx := fun e he =>
    h.entryId e (List.mem_of_mem_filter he)
  unfold NumericIndex.removeValue
  rw [removeFromMap_eq idx.mapSorted]
  split
  · rename_i hkey
    obtain ⟨histogram, happly, hrep⟩ := h.hist.apply isLeftNeighbour_leftNeighbourIn
      isRightNeighbour_rightNeighbourIn (u := .remove ⟨v, id⟩)
      (by simpa [HistogramUpdate.valid] using hkey)
    rw [happly]
    refine ⟨_, rfl, ⟨hentry, ?_⟩, rfl, rfl, rfl⟩
    rwa [mapKeys_erase]
  · -- the key was not there: nothing to forget
    rename_i hkey
    refine ⟨_, rfl, ⟨hentry, ?_⟩, rfl, rfl, rfl⟩
    rw [mapKeys_erase, Finset.erase_eq_of_notMem hkey]
    exact h.hist

/-! ## 3. The index over runs -/

omit [Numericable T] in
/-- The keys after adding the values of one point. -/
theorem mem_mapKeys_foldl_insert (id : PointOffsetType) (values : List T) :
    ∀ (map : List (Point T × PointOffsetType)) (p : Point T),
      p ∈ mapKeys (values.foldl (fun m v => OrdMap.insert ⟨v, id⟩ id m) map) ↔
        (p.idx = id ∧ p.val ∈ values) ∨ p ∈ mapKeys map := by
  induction values with
  | nil => simp
  | cons v values ih =>
    intro map p
    rw [List.foldl_cons, ih, mapKeys_insert, Finset.mem_insert, List.mem_cons]
    obtain ⟨w, j⟩ := p
    simp only [Point.mk.injEq]
    tauto

omit [Numericable T] in
/-- The keys after removing the values of one point. -/
theorem mem_mapKeys_foldl_erase (id : PointOffsetType) (values : List T) :
    ∀ (map : List (Point T × PointOffsetType)) (p : Point T),
      p ∈ mapKeys (values.foldl (fun m v => OrdMap.erase ⟨v, id⟩ m) map) ↔
        p ∈ mapKeys map ∧ ¬ (p.idx = id ∧ p.val ∈ values) := by
  induction values with
  | nil => simp
  | cons v values ih =>
    intro map p
    rw [List.foldl_cons, ih, mapKeys_erase, Finset.mem_erase, List.mem_cons]
    obtain ⟨w, j⟩ := p
    simp only [ne_eq, Point.mk.injEq]
    tauto

/-- `add_value` over the values of one point: no panic, and the keys gain them. -/
theorem KeysExact.foldlM_addValue (id : PointOffsetType) (values : List T) :
    ∀ idx : NumericIndex T, KeysExact idx.map idx.histogram →
      ∃ idx', values.foldlM (fun (i : NumericIndex T) v => i.addValue id v) idx = some idx' ∧
        KeysExact idx'.map idx'.histogram ∧
        idx'.map = values.foldl (fun m v => OrdMap.insert ⟨v, id⟩ id m) idx.map ∧
        idx.SameValues idx' := by
  induction values with
  | nil => exact fun idx h => ⟨idx, rfl, h, rfl, rfl, rfl⟩
  | cons v values ih =>
    intro idx h
    obtain ⟨idx₁, hadd, h₁, hmap₁, hsame₁⟩ := h.addValue id v
    obtain ⟨idx₂, hrest, h₂, hmap₂, hsame₂⟩ := ih idx₁ h₁
    refine ⟨idx₂, ?_, h₂, by rw [hmap₂, hmap₁, List.foldl_cons], ?_, ?_⟩
    · rw [List.foldlM_cons, hadd, Option.bind_eq_bind, Option.bind_some, hrest]
    · rw [hsame₂.pointToValues, hsame₁.pointToValues]
    · rw [hsame₂.pointsCount, hsame₁.pointsCount]

/-- `remove_from_map` over the values of one point: no panic, and the keys lose them. -/
theorem KeysExact.foldlM_removeValue (id : PointOffsetType) (values : List T) :
    ∀ idx : NumericIndex T, KeysExact idx.map idx.histogram →
      ∃ idx', values.foldlM (fun (i : NumericIndex T) v => i.removeValue id v) idx = some idx' ∧
        KeysExact idx'.map idx'.histogram ∧
        idx'.map = values.foldl (fun m v => OrdMap.erase ⟨v, id⟩ m) idx.map ∧
        idx.SameValues idx' := by
  induction values with
  | nil => exact fun idx h => ⟨idx, rfl, h, rfl, rfl, rfl⟩
  | cons v values ih =>
    intro idx h
    obtain ⟨idx₁, hremove, h₁, hmap₁, hsame₁⟩ := h.removeValue id v
    obtain ⟨idx₂, hrest, h₂, hmap₂, hsame₂⟩ := ih idx₁ h₁
    refine ⟨idx₂, ?_, h₂, by rw [hmap₂, hmap₁, List.foldl_cons], ?_, ?_⟩
    · rw [List.foldlM_cons, hremove, Option.bind_eq_bind, Option.bind_some, hrest]
    · rw [hsame₂.pointToValues, hsame₁.pointToValues]
    · rw [hsame₂.pointsCount, hsame₁.pointsCount]

/-- The numeric index's invariant: the key map and the histogram agree, the keys are exactly the
pairs of `point_to_values`, and `points_count` counts the points with values. -/
structure NumericIndex.Consistent (idx : NumericIndex T) : Prop where
  keysExact : KeysExact idx.map idx.histogram
  mirror : ∀ v id, (⟨v, id⟩ : Point T) ∈ mapKeys idx.map ↔ v ∈ idx.pointToValues.getD id []
  pointsCount_eq : idx.pointsCount = idx.pointToValues.countP fun vs => !vs.isEmpty

omit [Numericable T] in
theorem NumericIndex.consistent_new : (NumericIndex.new : NumericIndex T).Consistent where
  keysExact := ⟨fun e he => by simp [NumericIndex.new] at he, by
    simpa [NumericIndex.new, mapKeys] using
      Histogram.represents_new (T := T) histogramMaxBucketSize histogramPrecision⟩
  mirror v id := by simp [NumericIndex.new, mapKeys]
  pointsCount_eq := rfl

/-- `remove_point` leaves the point without values. -/
theorem NumericIndex.Consistent.removePoint {idx : NumericIndex T} (h : idx.Consistent)
    (id : PointOffsetType) :
    ∃ idx', idx.removePoint id = some idx' ∧ idx'.Consistent ∧
      idx'.pointToValues.getD id [] = [] := by
  unfold NumericIndex.removePoint
  split
  · exact ⟨idx, rfl, h, List.getD_eq_default _ _ ‹_›⟩
  · rename_i hlt
    have hid : id < idx.pointToValues.length := Nat.lt_of_not_le hlt
    obtain ⟨i, hfold, hk, hmap, hsame⟩ := h.keysExact.foldlM_removeValue id
      (idx.pointToValues.getD id []) { idx with pointToValues := idx.pointToValues.set id [] }
    dsimp only
    rw [hfold, Option.map_some]
    have hptv : i.pointToValues = idx.pointToValues.set id [] := hsame.pointToValues
    have hclear : (idx.pointToValues.set id []).getD id [] = [] := by
      rw [getD_set_of_lt hid, if_pos rfl]
    -- the removed values were the point's: `mirror` drops exactly them
    have hmirror : ∀ (v : T) j, (⟨v, j⟩ : Point T) ∈ mapKeys i.map ↔
        v ∈ (idx.pointToValues.set id []).getD j [] := by
      intro v j
      rw [hmap, mem_mapKeys_foldl_erase, h.mirror, getD_set_of_lt hid]
      by_cases hj : j = id
      · subst hj
        simp
      · simp [hj]
    have hcount : (idx.pointToValues.set id []).countP (fun vs => !vs.isEmpty) =
        idx.pointToValues.countP (fun vs => !vs.isEmpty) -
          if (idx.pointToValues.getD id []).isEmpty then 0 else 1 := by
      rw [List.countP_set hid, List.getD_eq_getElem _ _ hid]
      simp
    rw [← hptv] at hclear hmirror hcount
    split
    · rename_i hempty
      refine ⟨_, rfl, ⟨hk, hmirror, ?_⟩, hclear⟩
      rw [hcount, if_pos hempty, hsame.pointsCount, h.pointsCount_eq]
      rfl
    · rename_i hempty
      refine ⟨_, rfl, ⟨hk, hmirror, ?_⟩, hclear⟩
      rw [hcount, if_neg hempty, hsame.pointsCount, h.pointsCount_eq]

theorem NumericIndex.Consistent.addManyToList {idx : NumericIndex T} (h : idx.Consistent)
    {id : PointOffsetType} (hclear : idx.pointToValues.getD id [] = []) (values : List T) :
    ∃ idx', idx.addManyToList id values = some idx' ∧ idx'.Consistent := by
  unfold NumericIndex.addManyToList
  obtain ⟨i, hfold, hk, hmap, hsame⟩ := h.keysExact.foldlM_addValue id values
    { idx with pointToValues := resizeFor idx.pointToValues id }
  dsimp only
  rw [hfold, Option.map_some]
  have hresize : resizeFor idx.pointToValues id = resizeTo idx.pointToValues id [] := rfl
  have hmirror : ∀ (v : T) j, (⟨v, j⟩ : Point T) ∈ mapKeys i.map ↔
      v ∈ ((resizeFor idx.pointToValues id).set id values).getD j [] := by
    intro v j
    rw [hmap, mem_mapKeys_foldl_insert, h.mirror, hresize, getD_set_resizeTo]
    by_cases hj : j = id
    · subst hj
      rw [if_pos rfl, hclear]
      simp
    · simp [hj]
  have hcount := countP_set_resizeTo (fun vs : List T => !vs.isEmpty) rfl idx.pointToValues id
    hclear values
  have hptv : i.pointToValues = resizeFor idx.pointToValues id := hsame.pointToValues
  rw [← hresize, ← hptv] at hcount
  rw [← hptv] at hmirror
  refine ⟨_, rfl, ?_⟩
  split
  · rename_i hempty
    refine ⟨hk, hmirror, ?_⟩
    rw [hcount, hsame.pointsCount, h.pointsCount_eq]
    simp [hempty]
  · rename_i hempty
    refine ⟨hk, hmirror, ?_⟩
    rw [hcount, hsame.pointsCount, h.pointsCount_eq]
    simp [hempty]

/-- The numeric index through `ValueIndexer`: every update keeps it consistent, and none
panics. -/
theorem NumericIndex.keeps (getValue : Value → Option T) :
    (numericIndexer getValue).Keeps NumericIndex.Consistent
      fun idx id => idx.pointToValues.getD id [] = [] where
  removePoint _ id h := h.removePoint id
  addMany _ _ values h hclear := h.addManyToList hclear values

/-! ## 4. `filter` against `get_range_checkers`

`filter` reads a range as a range of keys: `gt` (else `gte`) gives the start key, `lt` (else
`lte`) the end key, at offset `MAX` or `0` so that the keys of one value fall on one side.  On
the `f64` line that is one test per side, the first bound present (`Range.lowerCheck`,
`Range.upperCheck`), where `check_range` tests all four bounds.  The two agree for ids a `u32`
can hold, bounds that survive `from_f64`, and one bound per side. -/

/-- The lower test of `filter` on the `f64` line: `gt` before `gte`. -/
def Range.lowerCheck (r : Range) (x : ℚ) : Bool :=
  match r.gt, r.gte with
  | some gt, _ => decide (gt < x)
  | none, some gte => decide (gte ≤ x)
  | none, none => true

/-- The upper test of `filter` on the `f64` line: `lt` before `lte`. -/
def Range.upperCheck (r : Range) (x : ℚ) : Bool :=
  match r.lt, r.lte with
  | some lt, _ => decide (x < lt)
  | none, some lte => decide (x ≤ lte)
  | none, none => true

/-- What `check_range` accepts passes both tests of `filter`. -/
theorem Range.checks_of_checkRange {r : Range} {x : ℚ} (h : r.checkRange x = true) :
    r.lowerCheck x = true ∧ r.upperCheck x = true := by
  obtain ⟨lt, gt, gte, lte⟩ := r
  simp only [Range.checkRange, Bool.and_eq_true, Option.all_eq_true] at h
  obtain ⟨⟨⟨hlt, hgt⟩, hlte⟩, hgte⟩ := h
  constructor
  · cases gt <;> cases gte <;> simp_all [Range.lowerCheck]
  · cases lt <;> cases lte <;> simp_all [Range.upperCheck]

/-- With one bound on each side, the two tests of `filter` are `check_range`. -/
theorem Range.checkRange_of_checks {r : Range} {x : ℚ} (hlow : r.gt = none ∨ r.gte = none)
    (hup : r.lt = none ∨ r.lte = none) (hl : r.lowerCheck x = true)
    (hu : r.upperCheck x = true) : r.checkRange x = true := by
  obtain ⟨lt, gt, gte, lte⟩ := r
  simp only [Range.checkRange, Bool.and_eq_true, Option.all_eq_true]
  simp only at hlow hup
  refine ⟨⟨⟨?_, ?_⟩, ?_⟩, ?_⟩
  · cases lt <;> simp_all [Range.upperCheck]
  · cases gt <;> simp_all [Range.lowerCheck]
  · cases lt <;> cases lte <;> simp_all [Range.upperCheck]
  · cases gt <;> cases gte <;> simp_all [Range.lowerCheck]

section Filter

/-- `from_f64` into `T` keeps every bound of `r`: `to_f64` reads it back. -/
structure Range.KeptIn (T : Type) [LinearOrder T] [Numericable T] (r : Range) : Prop where
  lt : ∀ q ∈ r.lt, Numericable.toF64 (Numericable.fromF64 q : T) = q
  gt : ∀ q ∈ r.gt, Numericable.toF64 (Numericable.fromF64 q : T) = q
  gte : ∀ q ∈ r.gte, Numericable.toF64 (Numericable.fromF64 q : T) = q
  lte : ∀ q ∈ r.lte, Numericable.toF64 (Numericable.fromF64 q : T) = q

/-- `f64` keeps every bound. -/
theorem Range.keptIn_rat (r : Range) : r.KeptIn ℚ :=
  ⟨fun _ _ => rfl, fun _ _ => rfl, fun _ _ => rfl, fun _ _ => rfl⟩

/-- `to_f64` orders `v` against every value as the values are ordered. -/
def Numericable.OrderExact (v : T) : Prop :=
  ∀ w : T, (w < v ↔ Numericable.toF64 w < Numericable.toF64 v) ∧
    (v < w ↔ Numericable.toF64 v < Numericable.toF64 w)

/-- A strictly monotone `to_f64` orders every value exactly: the `f64` line itself. -/
theorem Numericable.orderExact_of_strictMono (hmono : StrictMono (Numericable.toF64 : T → ℚ))
    (v : T) : Numericable.OrderExact v :=
  fun _ => ⟨hmono.lt_iff_lt.symm, hmono.lt_iff_lt.symm⟩

/-- An `i64` strictly within `2 ^ 53` in magnitude is ordered exactly: every `i64` below it
rounds below it, since rounding is monotone and `±2 ^ 53` round to themselves. -/
theorem Numericable.orderExact_int {v : ℤ} (hv : v.natAbs < 2 ^ 53) : Numericable.OrderExact v := by
  have hround : ∀ z : ℤ, z.natAbs ≤ 2 ^ 53 → F64.round z = z := fun z hz => F64.round_intCast hz
  have hvq : F64.round v = v := hround v hv.le
  intro w
  change (w < v ↔ F64.round w < F64.round v) ∧ (v < w ↔ F64.round v < F64.round w)
  rw [hvq]
  refine ⟨⟨fun hwv => ?_, fun h => ?_⟩, ⟨fun hvw => ?_, fun h => ?_⟩⟩
  · -- below `v`, `w` is exact or below `-2 ^ 53`, which bounds its rounding
    by_cases hw : w.natAbs ≤ 2 ^ 53
    · rw [hround w hw]; exact_mod_cast hwv
    · have hle : (w : ℚ) ≤ ((-2 ^ 53 : ℤ) : ℚ) := by exact_mod_cast (by omega : w ≤ -2 ^ 53)
      have hlt : ((-2 ^ 53 : ℤ) : ℚ) < v := by exact_mod_cast (by omega : -2 ^ 53 < v)
      exact (F64.round_mono hle).trans_lt (by rwa [hround _ (by decide)])
  · by_contra hwv
    have := F64.round_mono (show (v : ℚ) ≤ w by exact_mod_cast not_lt.mp hwv)
    rw [hvq] at this
    exact absurd h (not_lt.mpr this)
  · by_cases hw : w.natAbs ≤ 2 ^ 53
    · rw [hround w hw]; exact_mod_cast hvw
    · have hle : ((2 ^ 53 : ℤ) : ℚ) ≤ w := by exact_mod_cast (by omega : 2 ^ 53 ≤ w)
      have hlt : (v : ℚ) < ((2 ^ 53 : ℤ) : ℚ) := by exact_mod_cast (by omega : v < 2 ^ 53)
      exact hlt.trans_le (by rw [← hround _ (by decide)]; exact F64.round_mono hle)
  · by_contra hvw
    have := F64.round_mono (show (w : ℚ) ≤ v by exact_mod_cast not_lt.mp hvw)
    rw [hvq] at this
    exact absurd h (not_lt.mpr this)

omit [Numericable T] in
/-- At offset `0` of a value or above lie the points of values at least as large. -/
theorem Point.zero_le_iff {v w : T} {k : ℕ} : (⟨v, 0⟩ : Point T) ≤ ⟨w, k⟩ ↔ v ≤ w := by
  rw [← not_lt, Point.lt_zero_iff, not_lt]

omit [Numericable T] in
/-- Up to the largest offset of a value lie the points of values at most as large. -/
theorem Point.le_max_iff {v w : T} {k : ℕ} (hk : k ≤ pointOffsetMax) :
    (⟨w, k⟩ : Point T) ≤ ⟨v, pointOffsetMax⟩ ↔ w ≤ v := by
  rw [← not_lt, Point.max_lt_iff hk, not_lt]

/-- `filter` of a range is the ids of the keys in range: bounds on which `range` would panic admit
no key, so the guard that returns nothing returns what `range` holds. -/
theorem NumericIndex.filter_eq_range (idx : NumericIndex T) (condition : FieldCondition) :
    idx.filter condition = condition.range.map fun r =>
      (range (filterStartBound r) (filterEndBound r) idx.map).map Prod.snd := by
  rw [NumericIndex.filter]
  congr 1
  funext r
  dsimp only
  cases hvalid : rangeValid (filterStartBound (T := T) r) (filterEndBound r)
  · rw [range_eq_nil_of_rangeValid_eq_false hvalid]
    rfl
  · rfl

omit [Numericable T] in
/-- On a consistent index, the ids of the keys between two bounds are the points with a value
whose key lies between them. -/
theorem NumericIndex.Consistent.mem_range_iff {idx : NumericIndex T} (h : idx.Consistent)
    (lo hi : Bound (Point T)) (id : PointOffsetType) :
    id ∈ (range lo hi idx.map).map Prod.snd ↔
      ∃ v ∈ idx.pointToValues.getD id [], lo.above ⟨v, id⟩ = true ∧ hi.below ⟨v, id⟩ = true := by
  simp only [List.mem_map, mem_range]
  constructor
  · rintro ⟨⟨⟨v, k⟩, j⟩, ⟨hmem, hlo, hhi⟩, rfl⟩
    -- every entry is keyed by its own id
    obtain rfl : j = k := h.keysExact.entryId _ hmem
    exact ⟨v, (h.mirror v _).mp (mem_mapKeys.mpr (List.mem_map_of_mem hmem)), hlo, hhi⟩
  · rintro ⟨v, hv, hlo, hhi⟩
    obtain ⟨e, he, hkey⟩ := List.mem_map.mp (mem_mapKeys.mp ((h.mirror v id).mpr hv))
    refine ⟨e, ⟨he, hkey ▸ hlo, hkey ▸ hhi⟩, ?_⟩
    rw [h.keysExact.entryId e he, hkey]

/-- The checker of `get_range_checkers` accepts the points with a value in range. -/
theorem NumericIndex.rangeChecker_iff (idx : NumericIndex T) (r : Range) (id : PointOffsetType) :
    ((idx.getValues id).map fun vs =>
        vs.any fun v => r.checkRange (Numericable.toF64 v)).getD false = true ↔
      ∃ v ∈ idx.pointToValues.getD id [], r.checkRange (Numericable.toF64 v) = true := by
  rw [List.getD_eq_getElem?_getD, NumericIndex.getValues]
  cases idx.pointToValues[id]? with
  | none => simp
  | some vs => simp only [Option.map_some, Option.getD_some, List.any_eq_true]

/-- A kept bound compares with an exactly ordered value as it does on the `f64` line. -/
theorem fromF64_lt_iff {q : ℚ} (hq : Numericable.toF64 (Numericable.fromF64 q : T) = q) {v : T}
    (hv : Numericable.OrderExact v) :
    (Numericable.fromF64 q : T) < v ↔ q < Numericable.toF64 v := by
  rw [(hv _).1, hq]

theorem fromF64_le_iff {q : ℚ} (hq : Numericable.toF64 (Numericable.fromF64 q : T) = q) {v : T}
    (hv : Numericable.OrderExact v) :
    (Numericable.fromF64 q : T) ≤ v ↔ q ≤ Numericable.toF64 v := by
  rw [← not_lt, (hv _).2, hq, not_lt]

theorem lt_fromF64_iff {q : ℚ} (hq : Numericable.toF64 (Numericable.fromF64 q : T) = q) {v : T}
    (hv : Numericable.OrderExact v) :
    v < (Numericable.fromF64 q : T) ↔ Numericable.toF64 v < q := by
  rw [(hv _).2, hq]

theorem le_fromF64_iff {q : ℚ} (hq : Numericable.toF64 (Numericable.fromF64 q : T) = q) {v : T}
    (hv : Numericable.OrderExact v) :
    v ≤ (Numericable.fromF64 q : T) ↔ Numericable.toF64 v ≤ q := by
  rw [← not_lt, (hv _).1, hq, not_lt]

/-- The start key of `filter` admits the keys of `v` by the lower test of `v`. -/
theorem above_filterStartBound {r : Range} (hkeep : r.KeptIn T) {v : T}
    (hv : Numericable.OrderExact v) {id : PointOffsetType} (hid : id ≤ pointOffsetMax) :
    (filterStartBound (T := T) r).above ⟨v, id⟩ = r.lowerCheck (Numericable.toF64 v) := by
  obtain ⟨lt, gt, gte, lte⟩ := r
  cases gt with
  | some gt =>
    exact decide_eq_decide.mpr
      ((Point.max_lt_iff hid).trans (fromF64_lt_iff (hkeep.gt gt rfl) hv))
  | none =>
    cases gte with
    | some gte =>
      exact decide_eq_decide.mpr (Point.zero_le_iff.trans (fromF64_le_iff (hkeep.gte gte rfl) hv))
    | none => rfl

/-- The end key of `filter` admits the keys of `v` by the upper test of `v`. -/
theorem below_filterEndBound {r : Range} (hkeep : r.KeptIn T) {v : T}
    (hv : Numericable.OrderExact v) {id : PointOffsetType} (hid : id ≤ pointOffsetMax) :
    (filterEndBound (T := T) r).below ⟨v, id⟩ = r.upperCheck (Numericable.toF64 v) := by
  obtain ⟨lt, gt, gte, lte⟩ := r
  cases lt with
  | some lt =>
    exact decide_eq_decide.mpr (Point.lt_zero_iff.trans (lt_fromF64_iff (hkeep.lt lt rfl) hv))
  | none =>
    cases lte with
    | some lte =>
      exact decide_eq_decide.mpr
        ((Point.le_max_iff hid).trans (le_fromF64_iff (hkeep.lte lte rfl) hv))
    | none => rfl

/-- On a consistent index, `filter` of a range whose bounds `from_f64` keeps holds, of the ids a
`u32` can hold whose values `to_f64` orders exactly, exactly the points with a value that passes
both of its tests. -/
theorem NumericIndex.Consistent.mem_filterRange_iff {idx : NumericIndex T} (h : idx.Consistent)
    {r : Range} (hkeep : r.KeptIn T) {id : PointOffsetType} (hid : id ≤ pointOffsetMax)
    (hexact : ∀ v ∈ idx.pointToValues.getD id [], Numericable.OrderExact v) :
    id ∈ (range (filterStartBound r) (filterEndBound r) idx.map).map Prod.snd ↔
      ∃ v ∈ idx.pointToValues.getD id [], r.lowerCheck (Numericable.toF64 v) = true ∧
        r.upperCheck (Numericable.toF64 v) = true := by
  rw [h.mem_range_iff]
  refine exists_congr fun v => and_congr_right fun hv => ?_
  rw [above_filterStartBound hkeep (hexact v hv) hid, below_filterEndBound hkeep (hexact v hv) hid]

end Filter

/-! ## 5. The numeric indexes over runs, as the optimised filter reads them -/

section RangeCheckers

variable (env : Env)

/-- A numeric index answers the ranges `kept` admits as the checker of `get_range_checkers`
does, for every id a `u32` can hold that `exact` admits: `filter` holds every such point the
checker accepts, and no other when the range has one bound on each side. -/
structure FieldIndex.AgreesWithRangeChecker (fi : FieldIndex) (kept : Range → Prop)
    (exact : PointOffsetType → Prop) : Prop where
  range : ∀ (condition : FieldCondition) (r : Range), condition.range = some r → kept r →
    ∃ check ps, getRangeCheckers fi r = some check ∧
      FieldIndex.filter env condition fi = some ps ∧
      (∀ id ≤ pointOffsetMax, exact id → check id = true → id ∈ ps) ∧
      ((r.gt = none ∨ r.gte = none) → (r.lt = none ∨ r.lte = none) →
        ∀ id ≤ pointOffsetMax, exact id → id ∈ ps → check id = true)

/-- A consistent numeric index agrees with the range checker of whichever `FieldIndex` arm
carries it, on the ranges whose bounds its `from_f64` keeps and the points whose values
`to_f64` orders exactly. -/
theorem NumericIndex.Consistent.agreesWithRangeChecker {idx : NumericIndex T}
    (h : idx.Consistent) {fi : FieldIndex} {kept : Range → Prop} {exact : PointOffsetType → Prop}
    (hkept : ∀ r, kept r → r.KeptIn T)
    (hexact : ∀ id, exact id → ∀ v ∈ idx.pointToValues.getD id [], Numericable.OrderExact v)
    (hfilter : ∀ condition, FieldIndex.filter env condition fi = idx.filter condition)
    (hcheck : ∀ r, getRangeCheckers fi r = some fun id =>
      ((idx.getValues id).map fun vs =>
        vs.any fun v => r.checkRange (Numericable.toF64 v)).getD false) :
    FieldIndex.AgreesWithRangeChecker env fi kept exact where
  range condition r hr hk := by
    have hmem := fun id (hid : id ≤ pointOffsetMax) (hid' : exact id) =>
      h.mem_filterRange_iff (hkept r hk) hid (hexact id hid')
    refine ⟨_, _, hcheck r, by rw [hfilter, NumericIndex.filter_eq_range, hr]; rfl, ?_, ?_⟩
    · intro id hid hid' hcheck
      obtain ⟨v, hv, hrange⟩ := (idx.rangeChecker_iff r id).mp hcheck
      exact (hmem id hid hid').mpr ⟨v, hv, Range.checks_of_checkRange hrange⟩
    · intro hlow hup id hid hid' hps
      obtain ⟨v, hv, hl, hu⟩ := (hmem id hid hid').mp hps
      exact (idx.rangeChecker_iff r id).mpr ⟨v, hv, Range.checkRange_of_checks hlow hup hl hu⟩

/-- Over any run of updates, the float and the integer numeric indexes never panic, stay
consistent (the histogram represents exactly the keys, which are the pairs of
`point_to_values`), and answer a range as the checker of `get_range_checkers` does, for every id
a `u32` can hold: for `f64` every range and every point; for `i64` the ranges whose bounds
`from_f64` keeps and the points whose values lie strictly within `2 ^ 53` in magnitude, where
`i as f64` is exact.  Beyond it they part: a point whose value `2 ^ 53 + 5` rounds to
`2 ^ 53 + 4` passes the checker of `lte = 2 ^ 53 + 4`, and `filter` leaves it out. -/
theorem numericIndexes_agree_with_range_checkers (updates : List IndexUpdate) :
    (∃ idx, updates.foldlM (IndexUpdate.apply (numericIndexer floatValue)) NumericIndex.new =
        some idx ∧ idx.Consistent ∧
      FieldIndex.AgreesWithRangeChecker env (.floatIndex idx) (fun _ => True) fun _ => True) ∧
    (∃ idx, updates.foldlM (IndexUpdate.apply (numericIndexer integerValue)) NumericIndex.new =
        some idx ∧ idx.Consistent ∧
      FieldIndex.AgreesWithRangeChecker env (.intIndex idx) (Range.KeptIn ℤ)
        fun id => ∀ v ∈ idx.pointToValues.getD id [], v.natAbs < 2 ^ 53) ∧
    (∃ idx, [IndexUpdate.addPoint 0 (.single (some (.number (.posInt (2 ^ 53 + 5)))))].foldlM
        (IndexUpdate.apply (numericIndexer integerValue)) NumericIndex.new = some idx ∧
      ∃ check ps, getRangeCheckers (.intIndex idx) { lte := some (2 ^ 53 + 4) } = some check ∧
        FieldIndex.filter env { key := "x", range := some { lte := some (2 ^ 53 + 4) } }
          (.intIndex idx) = some ps ∧
        check 0 = true ∧ 0 ∉ ps) := by
  refine ⟨?_, ?_, ?_⟩
  · obtain ⟨idx, hrun, h⟩ :=
      (NumericIndex.keeps floatValue).foldlM updates _ NumericIndex.consistent_new
    exact ⟨idx, hrun, h, h.agreesWithRangeChecker env (fun r _ => Range.keptIn_rat r)
      (fun _ _ v _ => Numericable.orderExact_of_strictMono strictMono_id v)
      (fun _ => rfl) (fun _ => rfl)⟩
  · obtain ⟨idx, hrun, h⟩ :=
      (NumericIndex.keeps integerValue).foldlM updates _ NumericIndex.consistent_new
    exact ⟨idx, hrun, h, h.agreesWithRangeChecker env (fun _ hk => hk)
      (fun _ hid v hv => Numericable.orderExact_int (hid v hv)) (fun _ => rfl) (fun _ => rfl)⟩
  · exact ⟨_, rfl, _, _, rfl, rfl, by decide +kernel, by decide +kernel⟩

end RangeCheckers

/-! ## 6. Removals that do not panic

Of the field indexes only the numeric ones can panic on `remove_point`, in their histogram; a
consistent one does not, and stays consistent.  So a payload index whose numeric indexes are
consistent drops any point without a panic, and stays so. -/

/-- `mapM` in `Option` succeeds when every element maps to something with `P`. -/
theorem exists_mapM_eq_some {α β : Type} {f : α → Option β} {P : β → Prop} :
    ∀ {l : List α}, (∀ a ∈ l, ∃ b, f a = some b ∧ P b) →
      ∃ bs, l.mapM f = some bs ∧ ∀ b ∈ bs, P b
  | [], _ => ⟨[], rfl, by simp⟩
  | a :: l, h => by
    obtain ⟨b, hb, hP⟩ := h a List.mem_cons_self
    obtain ⟨bs, hbs, hPs⟩ := exists_mapM_eq_some fun a' ha' => h a' (List.mem_cons_of_mem a ha')
    refine ⟨b :: bs, by simp [List.mapM_cons, hb, hbs], fun b' hb' => ?_⟩
    rcases List.mem_cons.mp hb' with rfl | hb'
    · exact hP
    · exact hPs b' hb'

/-- A field index whose `remove_point` does not panic: a numeric index consistent with its
histogram; every other kind removes without a panic. -/
def FieldIndex.RemovesSafely : FieldIndex → Prop
  | .intIndex i => i.Consistent
  | .floatIndex i => i.Consistent
  | _ => True

theorem FieldIndex.removePoint_of_removesSafely (env : Env) {fi : FieldIndex}
    (h : fi.RemovesSafely) (id : PointOffsetType) :
    ∃ fi', FieldIndex.removePoint env id fi = some fi' ∧ fi'.RemovesSafely := by
  cases fi with
  | intIndex i =>
    obtain ⟨i', hi', hc, -⟩ := NumericIndex.Consistent.removePoint h id
    exact ⟨.intIndex i', by simp [FieldIndex.removePoint, hi'], hc⟩
  | floatIndex i =>
    obtain ⟨i', hi', hc, -⟩ := NumericIndex.Consistent.removePoint h id
    exact ⟨.floatIndex i', by simp [FieldIndex.removePoint, hi'], hc⟩
  | intMapIndex i | keywordIndex i | geoIndex i | fullTextIndex i =>
    exact ⟨_, rfl, trivial⟩

/-- A payload index every field index of which removes without a panic. -/
def StructPayloadIndex.RemovesSafely (s : StructPayloadIndex) : Prop :=
  ∀ e ∈ s.fieldIndexes, ∀ fi ∈ e.2, fi.RemovesSafely

/-- `drop` of such a payload index does not panic, and leaves one. -/
theorem StructPayloadIndex.drop_of_removesSafely (env : Env) {s : StructPayloadIndex}
    (h : s.RemovesSafely) (id : PointOffsetType) :
    ∃ r, s.drop env id = some r ∧ r.2.RemovesSafely := by
  obtain ⟨fieldIndexes, hrem, hsafe⟩ : ∃ fieldIndexes,
      StructPayloadIndex.removePointFromIndexes env s.fieldIndexes id = some fieldIndexes ∧
        ∀ e ∈ fieldIndexes, ∀ fi ∈ e.2, fi.RemovesSafely := by
    refine exists_mapM_eq_some fun e he => ?_
    -- each field's indexes, one by one
    obtain ⟨indexes, hidx, hsafe⟩ := exists_mapM_eq_some fun fi hfi =>
      FieldIndex.removePoint_of_removesSafely env (h e he fi hfi) id
    exact ⟨(e.1, indexes), by rw [hidx]; rfl, hsafe⟩
  exact ⟨((s.payload.drop id).1, { s with fieldIndexes, payload := (s.payload.drop id).2 }),
    by rw [StructPayloadIndex.drop, hrem]; rfl, hsafe⟩

end Qdrant
