/-
# The geo index

`index/field_index/geo_index.rs` indexes geo points by their geohash at full precision.  Its
state holds, for every geohash PREFIX, the number of points and of values under it
(`points_per_hash`, `values_per_hash`), the points of each full-precision hash
(`points_map`), and the points' own values.  A bounding box or a radius is answered through a
geohash cover of the region (at most `GEO_QUERY_MAX_REGION` hashes): `filter` takes the points
stored under the cover and then checks their values exactly, and `estimate_cardinality`
reads the prefix counters.

The geohash encoder and the covers come from `Env`.  A `HashSet` of points is iterated in
ascending order here; the source leaves that order unspecified.
-/
import Qdrant.Index.MapIndex

namespace Qdrant

open OrdMap

/-- `GEO_QUERY_MAX_REGION`. -/
def geoQueryMaxRegion : ℕ := 12

/-- The prefixes `geo_hash[0..i]` for `i` in `0..=len`, shortest first. -/
def hashPrefixes (hash : String) : List String :=
  (List.range (hash.length + 1)).map fun i => String.ofList (hash.toList.take i)

/-- `common_hash_prefix`: the longest prefix of the first hash that the others share; `none`
where the source panics (no hash, or a byte index past a shorter hash). -/
def commonHashPrefix : List String → Option String
  | [] => none
  | first :: rest =>
    let step (len : Option ℕ) (h : String) : Option ℕ :=
      len.bind fun p =>
        match (List.range p).find? (fun i => first.toList[i]? != h.toList[i]?) with
        | none => some p
        | some i => if i < h.length then some i else none
    (rest.foldl step (some first.length)).map fun p => String.ofList (first.toList.take p)

/-- `GeoMapIndex`. -/
structure GeoMapIndex where
  pointsPerHash : List (String × ℕ)
  valuesPerHash : List (String × ℕ)
  pointsMap : List (String × IdSet)
  pointToValues : List (List GeoPoint)
  pointsCount : ℕ
  valuesCount : ℕ
  maxValuesPerPoint : ℕ

/-- `GeoMapIndex::new`. -/
def GeoMapIndex.new : GeoMapIndex := ⟨[], [], [], [], 0, 0, 1⟩

/-- Add one to the counter of `key`, or take one off (`-= 1`), creating a missing entry. -/
def bumpCount (up : Bool) (m : List (String × ℕ)) (key : String) : List (String × ℕ) :=
  let c := (get? key m).getD 0
  OrdMap.insert key (if up then c + 1 else c - 1) m

/-- `increment_hash_value_counts` / `decrement_hash_value_counts`: every prefix of one hash. -/
def bumpValueCounts (up : Bool) (m : List (String × ℕ)) (hash : String) : List (String × ℕ) :=
  (hashPrefixes hash).foldl (bumpCount up) m

/-- `increment_hash_point_counts` / `decrement_hash_point_counts`: every prefix of the
point's hashes, each once. -/
def bumpPointCounts (up : Bool) (m : List (String × ℕ)) (hashes : List String) :
    List (String × ℕ) :=
  (hashes.foldl (fun (acc : List (String × ℕ) × List String) hash =>
    (hashPrefixes hash).foldl (fun (acc : List (String × ℕ) × List String) p =>
      if acc.2.contains p then acc else (bumpCount up acc.1 p, p :: acc.2)) acc) (m, [])).1

/-! ## 2. Prefixes and counters

A counter map reads `0` for a missing hash.  `bumpCount` moves one counter by one, and a fold of
it moves each counter by the number of times its key occurs; `bumpPointCounts` goes through the
prefixes of all the point's hashes with a set of those already seen, so each distinct prefix is
moved once. -/

/-- The counter of `key`: `get(key).unwrap_or(0)`. -/
def counter (m : List (String × ℕ)) (key : String) : ℕ := (get? key m).getD 0

/-- A counter moved `n` times up, or `n` times down (saturating at zero, as a decrement of a
missing entry inserts `0`). -/
def bumped (up : Bool) (c n : ℕ) : ℕ := if up then c + n else c - n

@[simp] theorem bumped_zero (up : Bool) (c : ℕ) : bumped up c 0 = c := by
  cases up <;> simp [bumped]

theorem bumped_bumped (up : Bool) (c a b : ℕ) : bumped up (bumped up c a) b = bumped up c (a + b) := by
  cases up <;> simp [bumped, Nat.sub_sub, Nat.add_assoc]

/-- `h` is a prefix of the hash `hash`. -/
def hashPrefix (h hash : String) : Bool := h.toList.isPrefixOf hash.toList

theorem mem_hashPrefixes {k hash : String} : k ∈ hashPrefixes hash ↔ hashPrefix k hash = true := by
  simp only [hashPrefixes, hashPrefix, List.mem_map, List.mem_range, List.isPrefixOf_iff_prefix]
  constructor
  · rintro ⟨i, -, rfl⟩
    simpa using List.take_prefix i hash.toList
  · intro h
    refine ⟨k.toList.length, ?_, ?_⟩
    · have hle := h.length_le
      simp only [String.length_toList] at hle ⊢
      omega
    · rw [String.ext_iff, String.toList_ofList]
      exact (List.prefix_iff_eq_take.mp h).symm

theorem nodup_hashPrefixes (hash : String) : (hashPrefixes hash).Nodup := by
  refine List.Nodup.map_on ?_ List.nodup_range
  intro i hi j hj hij
  have hlen := congrArg (fun s : String => s.toList.length) hij
  simp only [List.mem_range, String.length_toList.symm] at hi hj
  simp only [String.toList_ofList, List.length_take] at hlen
  omega

theorem count_hashPrefixes (k hash : String) :
    (hashPrefixes hash).count k = if hashPrefix k hash then 1 else 0 := by
  rw [(nodup_hashPrefixes hash).count]
  simp only [mem_hashPrefixes]

theorem counter_bumpCount (up : Bool) (m : List (String × ℕ)) (key k : String) :
    counter (bumpCount up m key) k = if k = key then bumped up (counter m key) 1 else counter m k := by
  by_cases hk : k = key
  · subst hk
    cases up <;> simp [counter, bumpCount, bumped, get?_insert]
  · simp [counter, bumpCount, get?_insert, hk]

/-- A fold of `bumpCount` moves each counter by the occurrences of its key. -/
theorem counter_foldl_bumpCount (up : Bool) (keys : List String) (m : List (String × ℕ))
    (k : String) :
    counter (keys.foldl (bumpCount up) m) k = bumped up (counter m k) (keys.count k) := by
  induction keys generalizing m with
  | nil => simp
  | cons key rest ih =>
    rw [List.foldl_cons, ih, List.count_cons, counter_bumpCount]
    by_cases hk : k = key
    · subst hk
      simp [bumped_bumped, Nat.add_comm]
    · have hne : (key == k) = false := by simpa using Ne.symm hk
      simp [hk, hne]

theorem counter_bumpValueCounts (up : Bool) (m : List (String × ℕ)) (hash k : String) :
    counter (bumpValueCounts up m hash) k =
      bumped up (counter m k) (if hashPrefix k hash then 1 else 0) := by
  rw [bumpValueCounts, counter_foldl_bumpCount, count_hashPrefixes]

/-- A fold of `bumpValueCounts` moves each counter by the number of hashes under its key. -/
theorem counter_foldl_bumpValueCounts (up : Bool) (hashes : List String)
    (m : List (String × ℕ)) (k : String) :
    counter (hashes.foldl (bumpValueCounts up) m) k =
      bumped up (counter m k) (hashes.countP (hashPrefix k)) := by
  induction hashes generalizing m with
  | nil => simp
  | cons hash rest ih =>
    rw [List.foldl_cons, ih, counter_bumpValueCounts, bumped_bumped, List.countP_cons]
    congr 1
    split <;> simp [*, Nat.add_comm]

/-- One prefix of `bumpPointCounts`: moved unless already seen. -/
def seenBump (up : Bool) (acc : List (String × ℕ) × List String) (p : String) :
    List (String × ℕ) × List String :=
  if acc.2.contains p then acc else (bumpCount up acc.1 p, p :: acc.2)

theorem bumpPointCounts_eq (up : Bool) (m : List (String × ℕ)) (hashes : List String) :
    bumpPointCounts up m hashes = ((hashes.flatMap hashPrefixes).foldl (seenBump up) (m, [])).1 := by
  rw [List.foldl_flatMap]
  rfl

/-- The fold of `seenBump` moves exactly the counters of the keys it has seen, once each. -/
theorem foldl_seenBump (up : Bool) (m : List (String × ℕ)) (keys : List String)
    (acc : List (String × ℕ) × List String)
    (hacc : ∀ k, counter acc.1 k = bumped up (counter m k) (if k ∈ acc.2 then 1 else 0)) :
    (∀ k, counter (keys.foldl (seenBump up) acc).1 k =
      bumped up (counter m k) (if k ∈ (keys.foldl (seenBump up) acc).2 then 1 else 0)) ∧
    ∀ k, k ∈ (keys.foldl (seenBump up) acc).2 ↔ k ∈ acc.2 ∨ k ∈ keys := by
  induction keys generalizing acc with
  | nil => exact ⟨hacc, fun k => by simp⟩
  | cons p rest ih =>
    rw [List.foldl_cons]
    by_cases hp : p ∈ acc.2
    · have hstep : seenBump up acc p = acc := by simp [seenBump, hp]
      rw [hstep]
      obtain ⟨hcount, hmem⟩ := ih acc hacc
      refine ⟨hcount, fun k => ?_⟩
      rw [hmem k]
      by_cases hk : k = p
      · subst hk
        simp [hp]
      · simp [hk]
    · have hstep : seenBump up acc p = (bumpCount up acc.1 p, p :: acc.2) := by
        simp [seenBump, hp]
      rw [hstep]
      have hacc' : ∀ k, counter (bumpCount up acc.1 p) k =
          bumped up (counter m k) (if k ∈ p :: acc.2 then 1 else 0) := by
        intro k
        rw [counter_bumpCount]
        by_cases hk : k = p
        · subst hk
          rw [hacc k]
          simp [hp]
        · simp [hk, hacc k]
      obtain ⟨hcount, hmem⟩ := ih (bumpCount up acc.1 p, p :: acc.2) hacc'
      refine ⟨hcount, fun k => ?_⟩
      rw [hmem k]
      simp only [List.mem_cons]
      tauto

/-- `bumpPointCounts` moves the counter of each prefix of some hash once. -/
theorem counter_bumpPointCounts (up : Bool) (m : List (String × ℕ)) (hashes : List String)
    (k : String) :
    counter (bumpPointCounts up m hashes) k =
      bumped up (counter m k) (if hashes.any (hashPrefix k) then 1 else 0) := by
  obtain ⟨hcount, hmem⟩ := foldl_seenBump up m (hashes.flatMap hashPrefixes) (m, [])
    (fun k => by simp)
  rw [bumpPointCounts_eq, hcount k]
  congr 2
  have hiff : k ∈ ((hashes.flatMap hashPrefixes).foldl (seenBump up) (m, [])).2 ↔
      hashes.any (hashPrefix k) = true := by
    rw [hmem k]
    simp [List.mem_flatMap, mem_hashPrefixes]
  by_cases hk : hashes.any (hashPrefix k) = true
  · simp [hiff.mpr hk, hk]
  · simp [mt hiff.mp hk, hk]

/-- `get_values`. -/
def GeoMapIndex.getValues (idx : GeoMapIndex) (id : PointOffsetType) : Option (List GeoPoint) :=
  idx.pointToValues[id]?

/-- `match_cardinality` of a geohash cover; `none` is a panic, of `common_hash_prefix` on no
hash or of the selection estimate's `assert!`. -/
def GeoMapIndex.matchCardinality (env : Env) (idx : GeoMapIndex) (values : List String) :
    Option CardinalityEstimation :=
  (commonHashPrefix values).bind fun commonHash =>
    let totalPoints := (get? commonHash idx.pointsPerHash).getD 0
    let totalValues := (get? commonHash idx.valuesPerHash).getD 0
    let counts := values.map fun region => (get? region idx.pointsPerHash).getD 0
    let sum := counts.foldl (· + ·) 0
    let maximumPerHash := counts.foldl max 0
    let minHitsByValueGroups := sum / idx.maxValuesPerPoint
    let pointDuplications := totalValues - totalPoints
    let possibleNonDuplicated := sum - pointDuplications
    let estimationMin := max (max minHitsByValueGroups possibleNonDuplicated) maximumPerHash
    let estimationMax := min sum totalPoints
    (estimateMultiValueSelectionCardinality env totalPoints totalValues sum).map fun selection =>
      let estimationExp := f64Round selection
      ⟨[], estimationMin, min estimationMax (max estimationMin estimationExp), estimationMax⟩

/-- `add_many_geo_points`. -/
def GeoMapIndex.addManyGeoPoints (env : Env) (idx : GeoMapIndex) (id : PointOffsetType)
    (values : List GeoPoint) : GeoMapIndex :=
  if values.isEmpty then idx
  else
    let geoHashes := values.map env.encodeMaxPrecision
    { pointsPerHash := bumpPointCounts true idx.pointsPerHash geoHashes
      valuesPerHash := geoHashes.foldl (bumpValueCounts true) idx.valuesPerHash
      pointsMap := geoHashes.foldl
        (fun m h => OrdMap.insert h (OrdMap.insert id () ((get? h m).getD [])) m) idx.pointsMap
      pointToValues := (resizeTo idx.pointToValues id []).set id values
      pointsCount := idx.pointsCount + 1
      valuesCount := idx.valuesCount + values.length
      maxValuesPerPoint := max idx.maxValuesPerPoint values.length }

/-- `remove_point` of the geo index. -/
def GeoMapIndex.removePoint (env : Env) (idx : GeoMapIndex) (id : PointOffsetType) :
    GeoMapIndex :=
  if idx.pointToValues.length ≤ id then idx
  else
    let removed := idx.pointToValues.getD id []
    let idx₀ := { idx with pointToValues := idx.pointToValues.set id [] }
    if removed.isEmpty then idx₀
    else
      let geoHashes := removed.map env.encodeMaxPrecision
      { idx₀ with
        pointsCount := idx.pointsCount - 1
        valuesCount := idx.valuesCount - removed.length
        pointsMap := geoHashes.foldl (fun m h =>
          match get? h m with
          | none => m
          | some ids =>
            let ids' := OrdMap.erase id ids
            if ids'.isEmpty then OrdMap.erase h m else OrdMap.insert h ids' m) idx.pointsMap
        valuesPerHash := geoHashes.foldl (bumpValueCounts false) idx.valuesPerHash
        pointsPerHash := bumpPointCounts false idx.pointsPerHash geoHashes }

/-- `get_iterator`: the points stored under some hash of the cover, each once. -/
def GeoMapIndex.getIterator (idx : GeoMapIndex) (values : List String) : List PointOffsetType :=
  (values.flatMap fun top =>
    (idx.pointsMap.filter fun e => top.toList.isPrefixOf e.1.toList).flatMap (·.2.ids)).dedup

/-- `filter` of the geo index: a box first, then a radius. -/
def GeoMapIndex.filter (env : Env) (idx : GeoMapIndex) (condition : FieldCondition) :
    Option (List PointOffsetType) :=
  let check (p : GeoPoint → Bool) (id : PointOffsetType) : Bool :=
    ((idx.pointToValues[id]?).getD []).any p
  match condition.geoBoundingBox, condition.geoRadius with
  | some box, _ =>
    some ((idx.getIterator (env.rectangleHashes box geoQueryMaxRegion)).filter
      (check fun p => box.checkPoint p.lon p.lat))
  | none, some radius =>
    some ((idx.getIterator (env.circleHashes radius geoQueryMaxRegion)).filter
      (check fun p => radius.checkPoint env p.lon p.lat))
  | none, none => none

/-- `estimate_cardinality` of the geo index; the outer `none` is a panic. -/
def GeoMapIndex.estimateCardinality (env : Env) (idx : GeoMapIndex) (condition : FieldCondition) :
    Option (Option CardinalityEstimation) :=
  let withClause (e : CardinalityEstimation) : CardinalityEstimation :=
    { e with primaryClauses := e.primaryClauses ++ [.condition condition] }
  match condition.geoBoundingBox, condition.geoRadius with
  | some box, _ =>
    (idx.matchCardinality env (env.rectangleHashes box geoQueryMaxRegion)).map (some ∘ withClause)
  | none, some radius =>
    (idx.matchCardinality env (env.circleHashes radius geoQueryMaxRegion)).map (some ∘ withClause)
  | none, none => some none

/-! ## 3. The counters are exact

The state of the index is exact when every counter, `points_map`, the two totals and the largest
number of values a point had agree with the values the index stores per point
(`point_to_values`).  `remove_point` and `add_many_geo_points` of a point without values keep
it, so every sequence of `add_point`/`remove_point` does (`Index/FieldIndex.lean`). -/

section Exact

variable (env : Env)

/-- Setting one entry of a list changes the sum of `f` over it by the old and the new value. -/
theorem sum_map_set_add {α : Type} (f : α → ℕ) (a : α) :
    ∀ (l : List α) (i : ℕ) (hi : i < l.length),
      ((l.set i a).map f).sum + f l[i] = (l.map f).sum + f a
  | _ :: _, 0, _ => by
    simp only [List.set_cons_zero, List.map_cons, List.sum_cons, List.getElem_cons_zero]
    omega
  | x :: l, i + 1, hi => by
    have ih := sum_map_set_add f a l i (by simpa using hi)
    simp only [List.set_cons_succ, List.map_cons, List.sum_cons, List.getElem_cons_succ]
    omega

theorem getD_resizeTo {α : Type} (l : List α) (i j : ℕ) (d : α) :
    (resizeTo l i d).getD j d = l.getD j d := by
  unfold resizeTo
  split
  · by_cases hj : j < l.length
    · exact List.getD_append l _ d j hj
    · rw [List.getD_eq_default l d (by omega), List.getD_append_right _ _ _ _ (by omega)]
      by_cases hr : j - l.length < i + 1 - l.length
      · exact List.getD_replicate d hr
      · exact List.getD_eq_default _ d (by simp; omega)
  · rfl

theorem lt_length_resizeTo {α : Type} (l : List α) (i : ℕ) (d : α) : i < (resizeTo l i d).length := by
  unfold resizeTo
  split
  · simp only [List.length_append, List.length_replicate]
    omega
  · omega

theorem countP_resizeTo {α : Type} (p : α → Bool) (l : List α) (i : ℕ) {d : α} (hd : p d = false) :
    (resizeTo l i d).countP p = l.countP p := by
  unfold resizeTo
  split <;> simp [List.countP_append, List.countP_replicate, hd]

theorem sum_map_resizeTo {α : Type} (f : α → ℕ) (l : List α) (i : ℕ) {d : α} (hd : f d = 0) :
    ((resizeTo l i d).map f).sum = (l.map f).sum := by
  unfold resizeTo
  split <;> simp [List.sum_replicate, hd]

theorem mem_resizeTo {α : Type} {l : List α} {i : ℕ} {d x : α} (h : x ∈ resizeTo l i d) :
    x ∈ l ∨ x = d := by
  unfold resizeTo at h
  split at h
  · rcases List.mem_append.mp h with hl | hr
    · exact Or.inl hl
    · exact Or.inr (List.eq_of_mem_replicate hr)
  · exact Or.inl h

/-- A value of the index lies under the prefix `h`. -/
def valueUnder (h : String) (v : GeoPoint) : Bool := hashPrefix h (env.encodeMaxPrecision v)

/-- The number of points with a value under `h`. -/
def GeoMapIndex.pointsUnder (idx : GeoMapIndex) (h : String) : ℕ :=
  idx.pointToValues.countP fun values => values.any (valueUnder env h)

/-- The number of values under `h`. -/
def GeoMapIndex.valuesUnder (idx : GeoMapIndex) (h : String) : ℕ :=
  (idx.pointToValues.map fun values => values.countP (valueUnder env h)).sum

/-- A point under `h` has at least one value under `h`. -/
theorem GeoMapIndex.pointsUnder_le_valuesUnder (idx : GeoMapIndex) (h : String) :
    idx.pointsUnder env h ≤ idx.valuesUnder env h := by
  rw [GeoMapIndex.pointsUnder, GeoMapIndex.valuesUnder, Count.countP_eq_sum_map_ite]
  exact List.sum_le_sum fun values _ => Count.ite_any_le_countP _ values

/-- The points `points_map` holds for the hash `g`. -/
def pointsAt (m : List (String × IdSet)) (g : String) : List PointOffsetType :=
  ((get? g m).map IdSet.ids).getD []

/-- The counters, `points_map` and the totals agree with the stored values. -/
structure GeoMapIndex.CountersExact (idx : GeoMapIndex) : Prop where
  pointsPerHash : ∀ h, counter idx.pointsPerHash h = idx.pointsUnder env h
  valuesPerHash : ∀ h, counter idx.valuesPerHash h = idx.valuesUnder env h
  pointsMap : ∀ g id, id ∈ pointsAt idx.pointsMap g ↔
    ∃ v ∈ idx.pointToValues.getD id [], env.encodeMaxPrecision v = g
  pointsMap_ne_nil : ∀ g ids, get? g idx.pointsMap = some ids → ids ≠ []
  pointsCount : idx.pointsCount = idx.pointToValues.countP fun values => !values.isEmpty
  valuesCount : idx.valuesCount = (idx.pointToValues.map List.length).sum
  maxValuesPerPoint_pos : 0 < idx.maxValuesPerPoint
  length_le : ∀ values ∈ idx.pointToValues, values.length ≤ idx.maxValuesPerPoint

theorem countersExact_new : GeoMapIndex.new.CountersExact env where
  pointsPerHash h := by simp [GeoMapIndex.new, counter, get?, GeoMapIndex.pointsUnder]
  valuesPerHash h := by simp [GeoMapIndex.new, counter, get?, GeoMapIndex.valuesUnder]
  pointsMap g id := by simp [GeoMapIndex.new, pointsAt, get?]
  pointsMap_ne_nil g ids := by simp [GeoMapIndex.new, get?]
  pointsCount := rfl
  valuesCount := rfl
  maxValuesPerPoint_pos := Nat.one_pos
  length_le := by simp [GeoMapIndex.new]

/-! ### `points_map` updates -/

theorem mem_ids_insert {id p : PointOffsetType} {s : IdSet} :
    p ∈ IdSet.ids (OrdMap.insert id () s) ↔ p = id ∨ p ∈ IdSet.ids s := by
  simp only [IdSet.ids, mem_keys_iff_isSome, get?_insert]
  split <;> simp [*]

theorem mem_ids_erase {id p : PointOffsetType} {s : IdSet} :
    p ∈ IdSet.ids (OrdMap.erase id s) ↔ p ∈ IdSet.ids s ∧ p ≠ id := by
  simp [IdSet.ids, OrdMap.erase]

/-- One hash of `add_many_geo_points`: the point joins the hash's set. -/
def linkHash (id : PointOffsetType) (m : List (String × IdSet)) (h : String) :
    List (String × IdSet) :=
  OrdMap.insert h (OrdMap.insert id () ((get? h m).getD [])) m

/-- One hash of `remove_point`: the point leaves the hash's set, and an emptied set goes. -/
def unlinkHash (id : PointOffsetType) (m : List (String × IdSet)) (h : String) :
    List (String × IdSet) :=
  match get? h m with
  | none => m
  | some ids =>
    let ids' := OrdMap.erase id ids
    if ids'.isEmpty then OrdMap.erase h m else OrdMap.insert h ids' m

theorem mem_pointsAt_foldl_linkHash (id : PointOffsetType) (hashes : List String) :
    ∀ (m : List (String × IdSet)) (g : String) (p : PointOffsetType),
      p ∈ pointsAt (hashes.foldl (linkHash id) m) g ↔ p ∈ pointsAt m g ∨ (p = id ∧ g ∈ hashes) := by
  induction hashes with
  | nil => simp
  | cons h rest ih =>
    intro m g p
    rw [List.foldl_cons, ih]
    by_cases hg : g = h
    · subst hg
      simp only [pointsAt, linkHash, get?_insert, if_true, Option.map_some, Option.getD_some,
        mem_ids_insert, List.mem_cons, true_or, and_true]
      cases get? g m <;> simp <;> tauto
    · simp [pointsAt, linkHash, get?_insert, hg]

theorem ne_nil_foldl_linkHash (id : PointOffsetType) (hashes : List String) :
    ∀ (m : List (String × IdSet)), (∀ g ids, get? g m = some ids → ids ≠ []) →
      ∀ g ids, get? g (hashes.foldl (linkHash id) m) = some ids → ids ≠ [] := by
  induction hashes with
  | nil => exact fun m hm => hm
  | cons h rest ih =>
    intro m hm
    apply ih
    intro g ids hget
    rw [linkHash, get?_insert] at hget
    split at hget
    · cases hget
      intro hnil
      have hmem : id ∈ IdSet.ids [] := by
        rw [← hnil]
        exact mem_ids_insert.mpr (Or.inl rfl)
      simp [IdSet.ids] at hmem
    · exact hm g ids hget

theorem mem_pointsAt_foldl_unlinkHash (id : PointOffsetType) (hashes : List String) :
    ∀ (m : List (String × IdSet)) (g : String) (p : PointOffsetType),
      p ∈ pointsAt (hashes.foldl (unlinkHash id) m) g ↔
        p ∈ pointsAt m g ∧ ¬(p = id ∧ g ∈ hashes) := by
  induction hashes with
  | nil => simp
  | cons h rest ih =>
    intro m g p
    rw [List.foldl_cons, ih]
    by_cases hg : g = h
    · subst hg
      simp only [unlinkHash]
      cases hget : get? g m with
      | none => simp [pointsAt, hget]
      | some ids =>
        simp only
        split
        · rename_i hempty
          have hsub : ∀ q ∈ IdSet.ids ids, q = id := by
            intro q hq
            by_contra hne
            have hq' : q ∈ IdSet.ids (OrdMap.erase id ids) := mem_ids_erase.mpr ⟨hq, hne⟩
            simp [List.isEmpty_iff.mp hempty, IdSet.ids] at hq'
          simp only [pointsAt, get?_erase, if_true, Option.map_none, Option.getD_none,
            List.not_mem_nil, false_and, hget, Option.map_some, Option.getD_some, List.mem_cons,
            true_or, and_true, false_iff, not_and, not_not]
          intro hp
          exact hsub p hp
        · simp [pointsAt, get?_insert, hget, mem_ids_erase]
          tauto
    · simp only [unlinkHash]
      cases hget : get? h m with
      | none => simp [List.mem_cons, hg]
      | some ids =>
        simp only
        split <;> simp [pointsAt, get?_insert, get?_erase, hg]

theorem ne_nil_foldl_unlinkHash (id : PointOffsetType) (hashes : List String) :
    ∀ (m : List (String × IdSet)), (∀ g ids, get? g m = some ids → ids ≠ []) →
      ∀ g ids, get? g (hashes.foldl (unlinkHash id) m) = some ids → ids ≠ [] := by
  induction hashes with
  | nil => exact fun m hm => hm
  | cons h rest ih =>
    intro m hm
    apply ih
    intro g ids hget
    simp only [unlinkHash] at hget
    cases hh : get? h m with
    | none => rw [hh] at hget; exact hm g ids hget
    | some old =>
      rw [hh] at hget
      simp only at hget
      split at hget
      · rw [get?_erase] at hget
        split at hget
        · cases hget
        · exact hm g ids hget
      · rename_i hne
        rw [get?_insert] at hget
        split at hget
        · cases hget
          simpa using hne
        · exact hm g ids hget

theorem getD_set_of_lt {α : Type} {l : List α} {i : ℕ} (hi : i < l.length) (a : α) (j : ℕ)
    (d : α) : (l.set i a).getD j d = if j = i then a else l.getD j d := by
  simp only [List.getD_eq_getElem?_getD, List.getElem?_set, hi, if_true]
  by_cases hj : j = i
  · subst hj
    simp
  · simp [Ne.symm hj, hj]

/-! ### `remove_point` -/

/-- `remove_point` of a point with values, field by field. -/
theorem removePoint_of_ne_nil {idx : GeoMapIndex} {id : PointOffsetType}
    (hid : id < idx.pointToValues.length) (hne : idx.pointToValues.getD id [] ≠ []) :
    idx.removePoint env id =
      let removed := idx.pointToValues.getD id []
      let geoHashes := removed.map env.encodeMaxPrecision
      { idx with
        pointToValues := idx.pointToValues.set id []
        pointsCount := idx.pointsCount - 1
        valuesCount := idx.valuesCount - removed.length
        pointsMap := geoHashes.foldl (unlinkHash id) idx.pointsMap
        valuesPerHash := geoHashes.foldl (bumpValueCounts false) idx.valuesPerHash
        pointsPerHash := bumpPointCounts false idx.pointsPerHash geoHashes } := by
  have hnotle : ¬idx.pointToValues.length ≤ id := Nat.not_le.mpr hid
  have hnotempty : (idx.pointToValues.getD id []).isEmpty = false := by
    simpa [List.isEmpty_iff] using hne
  simp only [GeoMapIndex.removePoint, hnotle, if_false, hnotempty]
  rfl

/-- `remove_point` of a point without values changes nothing. -/
theorem removePoint_of_nil {idx : GeoMapIndex} {id : PointOffsetType}
    (h : idx.pointToValues.getD id [] = []) : idx.removePoint env id = idx := by
  unfold GeoMapIndex.removePoint
  split
  · rfl
  · rename_i hlt
    have hid : id < idx.pointToValues.length := Nat.lt_of_not_le hlt
    have hget : idx.pointToValues[id] = [] := by rw [← List.getD_eq_getElem _ [] hid, h]
    have hset : idx.pointToValues.set id [] = idx.pointToValues := by
      rw [← hget, List.set_getElem_self]
    simp only [List.getD_eq_getElem?_getD] at h
    simp [h, hset]

/-- After `remove_point` the point has no values. -/
theorem getD_removePoint_self (idx : GeoMapIndex) (id : PointOffsetType) :
    (idx.removePoint env id).pointToValues.getD id [] = [] := by
  by_cases hid : id < idx.pointToValues.length
  · by_cases hne : idx.pointToValues.getD id [] = []
    · rw [removePoint_of_nil env hne, hne]
    · rw [removePoint_of_ne_nil env hid hne]
      exact (getD_set_of_lt hid [] id []).trans (if_pos rfl)
  · have hnil : idx.pointToValues.getD id [] = [] :=
      List.getD_eq_default _ _ (Nat.le_of_not_lt hid)
    rw [removePoint_of_nil env hnil, hnil]

theorem any_map_encode (h : String) (values : List GeoPoint) :
    (values.map env.encodeMaxPrecision).any (hashPrefix h) = values.any (valueUnder env h) := by
  rw [List.any_map]
  rfl

theorem countP_map_encode (h : String) (values : List GeoPoint) :
    (values.map env.encodeMaxPrecision).countP (hashPrefix h) = values.countP (valueUnder env h) := by
  rw [List.countP_map]
  rfl

theorem mem_map_encode (g : String) (values : List GeoPoint) :
    g ∈ values.map env.encodeMaxPrecision ↔ ∃ v ∈ values, env.encodeMaxPrecision v = g := by
  simp

/-- **`remove_point` keeps the counters exact.** -/
theorem GeoMapIndex.CountersExact.removePoint {idx : GeoMapIndex} (hidx : idx.CountersExact env)
    (id : PointOffsetType) : (idx.removePoint env id).CountersExact env := by
  by_cases hid : id < idx.pointToValues.length
  · by_cases hne : idx.pointToValues.getD id [] = []
    · rwa [removePoint_of_nil env hne]
    · rw [removePoint_of_ne_nil env hid hne]
      -- the stored list loses the removed values at `id`
      have hget : idx.pointToValues[id] = idx.pointToValues.getD id [] :=
        (List.getD_eq_getElem _ [] hid).symm
      constructor
      · intro h
        have hcount := List.countP_set (p := fun values => values.any (valueUnder env h))
          (a := []) hid
        simp only [counter_bumpPointCounts, any_map_encode, hidx.pointsPerHash h, bumped,
          GeoMapIndex.pointsUnder, hcount, hget, List.any_nil, Bool.false_eq_true, if_false,
          Nat.add_zero]
      · intro h
        have hsum := sum_map_set_add (fun values => values.countP (valueUnder env h)) [] _ _ hid
        simp only [hget, List.countP_nil] at hsum
        simp only [counter_foldl_bumpValueCounts, countP_map_encode, hidx.valuesPerHash h, bumped,
          GeoMapIndex.valuesUnder, if_false, Bool.false_eq_true]
        omega
      · intro g p
        rw [mem_pointsAt_foldl_unlinkHash, hidx.pointsMap, getD_set_of_lt hid, mem_map_encode]
        by_cases hp : p = id
        · subst hp
          simp only [if_true, List.not_mem_nil, false_and, exists_false, iff_false]
          exact fun h => h.2 ⟨trivial, h.1⟩
        · simp [hp]
      · exact ne_nil_foldl_unlinkHash id _ _ hidx.pointsMap_ne_nil
      · have hcount := List.countP_set (p := fun values : List GeoPoint => !values.isEmpty)
          (a := []) hid
        have hpos : (!(idx.pointToValues.getD id []).isEmpty) = true := by
          simpa [List.isEmpty_iff] using hne
        simp only [hidx.pointsCount, hcount, hget, hpos, if_true, List.isEmpty_nil, Bool.not_true,
          Bool.false_eq_true, if_false, Nat.add_zero]
      · have hsum := sum_map_set_add List.length [] _ _ hid
        simp only [hget, List.length_nil] at hsum
        simp only [hidx.valuesCount]
        omega
      · exact hidx.maxValuesPerPoint_pos
      · intro values hvalues
        rcases List.mem_or_eq_of_mem_set hvalues with hmem | rfl
        · exact hidx.length_le values hmem
        · simp
  · have hnil : idx.pointToValues.getD id [] = [] :=
      List.getD_eq_default _ _ (Nat.le_of_not_lt hid)
    rwa [removePoint_of_nil env hnil]

/-! ### `add_many_geo_points` -/

/-- `add_many_geo_points` of some values, field by field. -/
theorem addManyGeoPoints_of_ne_nil {idx : GeoMapIndex} {id : PointOffsetType}
    {values : List GeoPoint} (hne : values ≠ []) :
    idx.addManyGeoPoints env id values =
      let geoHashes := values.map env.encodeMaxPrecision
      { pointsPerHash := bumpPointCounts true idx.pointsPerHash geoHashes
        valuesPerHash := geoHashes.foldl (bumpValueCounts true) idx.valuesPerHash
        pointsMap := geoHashes.foldl (linkHash id) idx.pointsMap
        pointToValues := (resizeTo idx.pointToValues id []).set id values
        pointsCount := idx.pointsCount + 1
        valuesCount := idx.valuesCount + values.length
        maxValuesPerPoint := max idx.maxValuesPerPoint values.length } := by
  have hnotempty : values.isEmpty = false := by simpa [List.isEmpty_iff] using hne
  simp only [GeoMapIndex.addManyGeoPoints, hnotempty]
  rfl

/-- **`add_many_geo_points` of a point without values keeps the counters exact.** -/
theorem GeoMapIndex.CountersExact.addManyGeoPoints {idx : GeoMapIndex}
    (hidx : idx.CountersExact env) (id : PointOffsetType) (values : List GeoPoint)
    (hnil : idx.pointToValues.getD id [] = []) :
    (idx.addManyGeoPoints env id values).CountersExact env := by
  by_cases hne : values = []
  · subst hne
    simpa [GeoMapIndex.addManyGeoPoints] using hidx
  · rw [addManyGeoPoints_of_ne_nil env hne]
    -- the stored list, padded to reach `id`, holds nothing there yet
    have hlen := lt_length_resizeTo idx.pointToValues id []
    have hget : (resizeTo idx.pointToValues id [])[id] = [] := by
      rw [← List.getD_eq_getElem _ [] hlen, getD_resizeTo, hnil]
    constructor
    · intro h
      have hcount := List.countP_set (p := fun values => values.any (valueUnder env h))
        (a := values) hlen
      have hpad := countP_resizeTo (fun values => values.any (valueUnder env h))
        idx.pointToValues id (d := []) rfl
      simp only [counter_bumpPointCounts, any_map_encode, hidx.pointsPerHash h, bumped,
        GeoMapIndex.pointsUnder, hcount, hget, hpad, List.any_nil, Bool.false_eq_true, if_false,
        if_true, Nat.sub_zero]
    · intro h
      have hsum := sum_map_set_add (fun values => values.countP (valueUnder env h)) values _ _ hlen
      have hpad := sum_map_resizeTo (fun values => values.countP (valueUnder env h))
        idx.pointToValues id (d := []) rfl
      simp only [hget, List.countP_nil, Nat.add_zero, hpad] at hsum
      simp only [counter_foldl_bumpValueCounts, countP_map_encode, hidx.valuesPerHash h, bumped,
        GeoMapIndex.valuesUnder, if_true]
      omega
    · intro g p
      rw [mem_pointsAt_foldl_linkHash, hidx.pointsMap, getD_set_of_lt hlen, getD_resizeTo,
        mem_map_encode]
      by_cases hp : p = id
      · subst hp
        rw [hnil]
        simp
      · simp [hp]
    · exact ne_nil_foldl_linkHash id _ _ hidx.pointsMap_ne_nil
    · have hcount := List.countP_set (p := fun values : List GeoPoint => !values.isEmpty)
        (a := values) hlen
      have hpad := countP_resizeTo (fun values : List GeoPoint => !values.isEmpty)
        idx.pointToValues id (d := []) rfl
      have hpos : (!values.isEmpty) = true := by simpa [List.isEmpty_iff] using hne
      simp only [hidx.pointsCount, hcount, hget, hpad, hpos, if_true, List.isEmpty_nil,
        Bool.not_true, Bool.false_eq_true, if_false, Nat.sub_zero]
    · have hsum := sum_map_set_add List.length values _ _ hlen
      have hpad := sum_map_resizeTo List.length idx.pointToValues id (d := []) rfl
      simp only [hget, List.length_nil, Nat.add_zero, hpad] at hsum
      simp only [hidx.valuesCount]
      omega
    · exact lt_of_lt_of_le hidx.maxValuesPerPoint_pos (le_max_left _ _)
    · intro values' hmem
      rcases List.mem_or_eq_of_mem_set hmem with hpad | rfl
      · rcases mem_resizeTo hpad with hold | rfl
        · exact (hidx.length_le values' hold).trans (le_max_left _ _)
        · simp
      · exact le_max_right _ _

end Exact

/-! ## 4. `match_cardinality` brackets the points in the regions

For a non-empty list of distinct geohash regions of one length, `common_hash_prefix` is a prefix
of every region, and no value lies under two regions.  With exact counters the sum of the
regions' point counts is at least the number `N` of points with a value in the regions, at most
`N` times the most values a point has, and at most `N` plus the surplus `total_values -
total_points` of values over points under the common prefix; so each of the three lower bounds,
and both upper bounds, bracket `N`.  An empty list makes `common_hash_prefix` index past the
end. -/

section Cardinality

variable (env : Env)

/-- One hash of `common_hash_prefix`: the length drops to the first byte where it differs. -/
def commonPrefixStep (first : String) (len : Option ℕ) (h : String) : Option ℕ :=
  len.bind fun p =>
    match (List.range p).find? (fun i => first.toList[i]? != h.toList[i]?) with
    | none => some p
    | some i => if i < h.length then some i else none

theorem commonHashPrefix_cons (first : String) (rest : List String) :
    commonHashPrefix (first :: rest) =
      (rest.foldl (commonPrefixStep first) (some first.length)).map
        fun p => String.ofList (first.toList.take p) := rfl

theorem commonPrefixStep_some {first h : String} {p : ℕ} (hp : p ≤ first.length)
    (hlen : h.length = first.length) :
    ∃ p' ≤ p, commonPrefixStep first (some p) h = some p' ∧
      ∀ i < p', first.toList[i]? = h.toList[i]? := by
  unfold commonPrefixStep
  cases hfind : (List.range p).find? (fun i => first.toList[i]? != h.toList[i]?) with
  | none =>
    refine ⟨p, le_rfl, by simp [hfind], fun i hi => ?_⟩
    have hi' := List.find?_eq_none.mp hfind i (List.mem_range.mpr hi)
    simpa using hi'
  | some i =>
    obtain ⟨-, j, hj, hji, hbefore⟩ := List.find?_eq_some_iff_getElem.mp hfind
    rw [List.getElem_range] at hji
    subst hji
    have hjp : j < p := by simpa using hj
    have hjh : j < h.length := by omega
    refine ⟨j, hjp.le, by simp [hfind, hjh], fun i hi => ?_⟩
    have hi' := hbefore i hi
    simpa using hi'

theorem foldl_commonPrefixStep {first : String} :
    ∀ (rest : List String) (p : ℕ), p ≤ first.length → (∀ h ∈ rest, h.length = first.length) →
      ∃ p' ≤ p, rest.foldl (commonPrefixStep first) (some p) = some p' ∧
        ∀ h ∈ rest, ∀ i < p', first.toList[i]? = h.toList[i]?
  | [], p, _, _ => ⟨p, le_rfl, rfl, by simp⟩
  | h :: rest, p, hp, hlen => by
    obtain ⟨p₁, hp₁, hstep, hagree⟩ := commonPrefixStep_some hp (hlen h List.mem_cons_self)
    obtain ⟨p₂, hp₂, hfold, hagree'⟩ := foldl_commonPrefixStep rest p₁ (hp₁.trans hp)
      fun h' hh' => hlen h' (List.mem_cons_of_mem h hh')
    refine ⟨p₂, hp₂.trans hp₁, by rw [List.foldl_cons, hstep, hfold], ?_⟩
    intro h' hh' i hi
    rcases List.mem_cons.mp hh' with rfl | hmem
    · exact hagree i (by omega)
    · exact hagree' h' hmem i hi

/-- **`common_hash_prefix` of distinct-length-free regions** is a prefix of every region. -/
theorem commonHashPrefix_spec {regions : List String} (hne : regions ≠ [])
    (hlen : ∀ r ∈ regions, ∀ r' ∈ regions, r.length = r'.length) :
    ∃ c, commonHashPrefix regions = some c ∧ ∀ r ∈ regions, hashPrefix c r = true := by
  obtain ⟨first, rest, rfl⟩ := List.exists_cons_of_ne_nil hne
  obtain ⟨p, hp, hfold, hagree⟩ := foldl_commonPrefixStep rest first.length le_rfl
    fun h hh => hlen h (List.mem_cons_of_mem first hh) first List.mem_cons_self
  refine ⟨_, by rw [commonHashPrefix_cons, hfold]; rfl, fun r hr => ?_⟩
  simp only [hashPrefix, String.toList_ofList, List.isPrefixOf_iff_prefix]
  rcases List.mem_cons.mp hr with rfl | hmem
  · exact List.take_prefix p _
  · -- the first `p` bytes of `first` are those of `r`
    have htake : first.toList.take p = r.toList.take p := by
      apply List.ext_getElem?
      intro i
      simp only [List.getElem?_take]
      split
      · exact hagree r hmem i (by omega)
      · rfl
    rw [htake]
    exact List.take_prefix p _

/-- The number of points with a value under one of the regions. -/
def GeoMapIndex.pointsInRegions (idx : GeoMapIndex) (regions : List String) : ℕ :=
  idx.pointToValues.countP fun values => regions.any fun r => values.any (valueUnder env r)

theorem valueUnder_of_hashPrefix {c r : String} {v : GeoPoint} (hc : hashPrefix c r = true)
    (hr : valueUnder env r v = true) : valueUnder env c v = true := by
  simp only [valueUnder, hashPrefix, List.isPrefixOf_iff_prefix] at *
  exact hc.trans hr

/-- No value lies under two distinct regions of one length. -/
theorem countP_regions_le_one {regions : List String} (hnodup : regions.Nodup)
    (hlen : ∀ r ∈ regions, ∀ r' ∈ regions, r.length = r'.length) (v : GeoPoint) :
    regions.countP (valueUnder env · v) ≤ 1 := by
  rw [List.countP_eq_length_filter]
  apply Count.length_le_one_of_nodup (hnodup.filter _)
  intro a ha b hb
  simp only [List.mem_filter, valueUnder, hashPrefix, List.isPrefixOf_iff_prefix] at ha hb
  have hab : a.toList.length = b.toList.length := by
    simp only [String.length_toList]
    exact hlen a ha.1 b hb.1
  exact String.ext_iff.mpr
    ((List.prefix_of_prefix_length_le ha.2 hb.2 hab.le).eq_of_length hab)

/-- The regions one point's values reach are at most its values in the regions. -/
theorem countP_regions_hit_le {regions : List String} (hnodup : regions.Nodup)
    (hlen : ∀ r ∈ regions, ∀ r' ∈ regions, r.length = r'.length) (values : List GeoPoint) :
    regions.countP (fun r => values.any (valueUnder env r)) ≤
      values.countP (fun v => regions.any (valueUnder env · v)) := by
  calc regions.countP (fun r => values.any (valueUnder env r))
      ≤ (regions.map fun r => values.countP (valueUnder env r)).sum := by
        rw [Count.countP_eq_sum_map_ite]
        apply List.sum_le_sum
        intro r _
        split
        · rename_i hany
          exact List.countP_pos_iff.mpr (List.any_eq_true.mp hany)
        · exact Nat.zero_le _
    _ = (values.map fun v => regions.countP (valueUnder env · v)).sum :=
        Count.sum_map_countP_comm _ _ _
    _ ≤ (values.map fun v => if regions.any (valueUnder env · v) then 1 else 0).sum := by
        apply List.sum_le_sum
        intro v _
        split
        · exact countP_regions_le_one env hnodup hlen v
        · rename_i hnone
          have hzero : regions.countP (valueUnder env · v) = 0 := by
            rw [List.countP_eq_zero]
            intro r hr hv
            exact hnone (List.any_eq_true.mpr ⟨r, hr, hv⟩)
          omega
    _ = values.countP (fun v => regions.any (valueUnder env · v)) :=
        (Count.countP_eq_sum_map_ite _ _).symm

/-- A point whose values reach no region counts for no region. -/
theorem countP_regions_hit_eq_zero {regions : List String} {values : List GeoPoint}
    (hnone : ¬(regions.any fun r => values.any (valueUnder env r)) = true) :
    regions.countP (fun r => values.any (valueUnder env r)) = 0 :=
  List.countP_eq_zero.mpr fun r hr h => hnone (List.any_eq_true.mpr ⟨r, hr, h⟩)

/-- **`match_cardinality` brackets the points in the regions**: for a non-empty list of
distinct regions of one length, on an index whose counters are exact. -/
theorem GeoMapIndex.CountersExact.matchCardinality_bounds {idx : GeoMapIndex}
    (hidx : idx.CountersExact env) {regions : List String} (hne : regions ≠ [])
    (hnodup : regions.Nodup) (hlen : ∀ r ∈ regions, ∀ r' ∈ regions, r.length = r'.length) :
    ∃ e, idx.matchCardinality env regions = some e ∧
      e.min ≤ idx.pointsInRegions env regions ∧ idx.pointsInRegions env regions ≤ e.max := by
  obtain ⟨c, hc, hcpre⟩ := commonHashPrefix_spec hne hlen
  -- a point's values under some region are under the common prefix
  have hunder_c : ∀ values : List GeoPoint, ∀ r ∈ regions, values.any (valueUnder env r) = true →
      values.any (valueUnder env c) = true := by
    intro values r hr hvr
    obtain ⟨v, hv, hvu⟩ := List.any_eq_true.mp hvr
    exact List.any_eq_true.mpr ⟨v, hv, valueUnder_of_hashPrefix env (hcpre r hr) hvu⟩
  -- the sum of the regions' counters, counted point by point
  have hsum : (regions.map (idx.pointsUnder env)).sum = (idx.pointToValues.map
      fun values => regions.countP fun r => values.any (valueUnder env r)).sum :=
    Count.sum_map_countP_comm
      (fun (r : String) (values : List GeoPoint) => values.any (valueUnder env r)) regions
      idx.pointToValues
  have hN_sum : idx.pointsInRegions env regions ≤ (regions.map (idx.pointsUnder env)).sum :=
    Count.countP_any_le_sum
      (fun (r : String) (values : List GeoPoint) => values.any (valueUnder env r)) regions
      idx.pointToValues
  have hN_total : idx.pointsInRegions env regions ≤ idx.pointsUnder env c :=
    List.countP_mono_left fun values _ hv => by
      obtain ⟨r, hr, hvr⟩ := List.any_eq_true.mp hv
      exact hunder_c values r hr hvr
  have hmax : ∀ m ∈ regions.map (idx.pointsUnder env), m ≤ idx.pointsInRegions env regions := by
    intro m hm
    obtain ⟨r, hr, rfl⟩ := List.mem_map.mp hm
    exact Count.countP_le_countP_any_of_mem
      (fun (r : String) (values : List GeoPoint) => values.any (valueUnder env r)) hr _
  -- each point reaches at most as many regions as it has values
  have hgroups : (regions.map (idx.pointsUnder env)).sum ≤
      idx.pointsInRegions env regions * idx.maxValuesPerPoint := by
    rw [hsum, GeoMapIndex.pointsInRegions, Count.countP_eq_sum_map_ite, ← List.sum_map_mul_right]
    apply List.sum_le_sum
    intro values hvalues
    split
    · calc regions.countP (fun r => values.any (valueUnder env r))
          ≤ values.countP (fun v => regions.any (valueUnder env · v)) :=
            countP_regions_hit_le env hnodup hlen values
        _ ≤ values.length := List.countP_le_length
        _ ≤ idx.maxValuesPerPoint := hidx.length_le values hvalues
        _ = 1 * idx.maxValuesPerPoint := (one_mul _).symm
    · rename_i hnone
      rw [countP_regions_hit_eq_zero env hnone]
      exact Nat.zero_le _
  -- and at most one region more than its surplus of values under the common prefix
  have hsurplus : idx.valuesUnder env c - idx.pointsUnder env c =
      (idx.pointToValues.map fun values => values.countP (valueUnder env c) -
        if values.any (valueUnder env c) then 1 else 0).sum := by
    rw [Count.sum_map_sub_of_le, GeoMapIndex.valuesUnder, GeoMapIndex.pointsUnder,
      Count.countP_eq_sum_map_ite]
    exact fun values _ => Count.ite_any_le_countP _ values
  have hdup : (regions.map (idx.pointsUnder env)).sum ≤
      idx.pointsInRegions env regions + (idx.valuesUnder env c - idx.pointsUnder env c) := by
    rw [hsum, hsurplus, GeoMapIndex.pointsInRegions, Count.countP_eq_sum_map_ite,
      ← List.sum_map_add]
    apply List.sum_le_sum
    intro values _
    split
    · rename_i hhit
      obtain ⟨r, hr, hvr⟩ := List.any_eq_true.mp hhit
      have hc_any := hunder_c values r hr hvr
      have hle : values.countP (fun v => regions.any (valueUnder env · v)) ≤
          values.countP (valueUnder env c) :=
        List.countP_mono_left fun v _ hv => by
          obtain ⟨r', hr', hvr'⟩ := List.any_eq_true.mp hv
          exact valueUnder_of_hashPrefix env (hcpre r' hr') hvr'
      have hpos := List.countP_pos_iff.mpr (List.any_eq_true.mp hc_any)
      have hhit_le := countP_regions_hit_le env hnodup hlen values
      simp only [hc_any, if_true]
      omega
    · rename_i hnone
      rw [countP_regions_hit_eq_zero env hnone]
      exact Nat.zero_le _
  have hcounts : (regions.map fun region => (get? region idx.pointsPerHash).getD 0) =
      regions.map (idx.pointsUnder env) :=
    List.map_congr_left fun r _ => hidx.pointsPerHash r
  -- the selection estimate's `assert!` holds: a point under `c` has a value under it
  have hpv : (get? c idx.pointsPerHash).getD 0 ≤ (get? c idx.valuesPerHash).getD 0 := by
    rw [← counter, ← counter, hidx.valuesPerHash c, hidx.pointsPerHash c]
    exact idx.pointsUnder_le_valuesUnder env c
  simp only [GeoMapIndex.matchCardinality, hc, Option.bind_some,
    estimateMultiValueSelectionCardinality, if_neg (not_lt.mpr hpv), Option.map_some]
  refine ⟨_, rfl, ?_, ?_⟩
  · simp only [hcounts, ← List.sum_eq_foldl_nat]
    refine Nat.max_le.mpr ⟨Nat.max_le.mpr ⟨Nat.div_le_of_le_mul ?_, ?_⟩,
      Count.foldl_max_le _ 0 (Nat.zero_le _) hmax⟩
    · rw [Nat.mul_comm]
      exact hgroups
    · have htotals : (get? c idx.valuesPerHash).getD 0 - (get? c idx.pointsPerHash).getD 0 =
          idx.valuesUnder env c - idx.pointsUnder env c := by
        rw [← counter, ← counter, hidx.valuesPerHash c, hidx.pointsPerHash c]
      omega
  · simp only [hcounts, ← List.sum_eq_foldl_nat]
    exact le_min hN_sum (by rw [← counter, hidx.pointsPerHash c]; exact hN_total)

end Cardinality

end Qdrant
