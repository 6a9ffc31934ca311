/-
# The numeric index

`index/field_index/numeric_index.rs` indexes the numbers of one payload field.  Its state is a
sorted map from the encoded key `(value, id)` to the id, a `Histogram` of the same keys, the
values of each point (`point_to_values`), and two counters.  The key encoding
(`encode_i64_key_ascending`, `encode_f64_key_ascending`) is ORDER-PRESERVING and injective on
`(value, id)`, so the model keys the map by the histogram's `Point` directly, and
`key_to_histogram_point` is the identity.

Three operations matter:

* `add_many_to_list` and `remove_point` update the map and the histogram value by value; the
  histogram's neighbour callbacks read the map AFTER it has been updated;
* `filter(range)` turns the range into two key bounds, after converting each `f64` bound with
  `from_f64` (for `i64`, truncation towards zero), and returns the ids in the key range;
* `range_cardinality(range)` turns the histogram's value estimate into a point estimate.

The two bound conversions differ: `filter` gives `gt` priority over `gte` (and `lt` over
`lte`), `range_cardinality` the other way round.  The RocksDB column the index mirrors its map
into is not modelled.
-/
import Qdrant.Index.Histogram

namespace Qdrant

open OrdMap

/-- `HISTOGRAM_MAX_BUCKET_SIZE`. -/
def histogramMaxBucketSize : ℕ := 10000

/-- `HISTOGRAM_PRECISION`. -/
def histogramPrecision : ℚ := 1 / 100

/-- `PointOffsetType::MAX`. -/
def pointOffsetMax : ℕ := 2 ^ 32 - 1

variable {T : Type} [LinearOrder T]

/-- `NumericIndex`: the key map (sorted by its keys), the histogram and the per-point values. -/
structure NumericIndex (T : Type) [LinearOrder T] where
  map : List (Point T × PointOffsetType)
  mapSorted : Sorted map
  histogram : Histogram T
  pointsCount : ℕ
  maxValuesPerPoint : ℕ
  pointToValues : List (List T)

/-- `NumericIndex::new`. -/
def NumericIndex.new : NumericIndex T :=
  ⟨[], OrdMap.sorted_nil, .new histogramMaxBucketSize histogramPrecision, 0, 1, []⟩

/-! ## 1. Keeping the map and the histogram together -/

/-- `get_histogram_left_neighbor`: the greatest key below `p`. -/
def histogramLeftNeighbor (map : List (Point T × PointOffsetType)) (p : Point T) :
    Option (Point T) :=
  ((range .unbounded (.excluded p) map).getLast?).map Prod.fst

/-- `get_histogram_right_neighbor`: the least key above `p`. -/
def histogramRightNeighbor (map : List (Point T × PointOffsetType)) (p : Point T) :
    Option (Point T) :=
  ((range (.excluded p) .unbounded map).head?).map Prod.fst

variable [Numericable T]

/-- `add_to_map`: the map takes `key ↦ id` (`OrdMap.insert key id map`, done by the caller), and
the histogram learns the key only when the map did not hold it; this is the new histogram. -/
def addToMap (map : List (Point T × PointOffsetType)) (histogram : Histogram T) (key : Point T)
    (id : PointOffsetType) : Option (Histogram T) :=
  let existed := get? key map
  let map' := OrdMap.insert key id map
  if existed.isNone then histogram.insert key (histogramLeftNeighbor map') (histogramRightNeighbor map')
  else some histogram

/-- `remove_from_map`: the map drops `key` (`OrdMap.erase key map`, done by the caller), and the
histogram forgets the key only when the map held it; this is the new histogram. -/
def removeFromMap (map : List (Point T × PointOffsetType)) (histogram : Histogram T)
    (key : Point T) : Option (Histogram T) :=
  let existed := get? key map
  let map' := OrdMap.erase key map
  if existed.isSome then histogram.remove key (histogramLeftNeighbor map') (histogramRightNeighbor map')
  else some histogram

/-- `add_value`. -/
def NumericIndex.addValue (idx : NumericIndex T) (id : PointOffsetType) (value : T) :
    Option (NumericIndex T) :=
  (addToMap idx.map idx.histogram ⟨value, id⟩ id).map fun histogram =>
    { idx with map := OrdMap.insert ⟨value, id⟩ id idx.map, mapSorted := sorted_insert idx.mapSorted,
               histogram }

/-- Grow `point_to_values` so that it has an entry for `id`. -/
def resizeFor (ptv : List (List T)) (id : PointOffsetType) : List (List T) :=
  if ptv.length ≤ id then ptv ++ List.replicate (id + 1 - ptv.length) [] else ptv

/-- `add_many_to_list`. -/
def NumericIndex.addManyToList (idx : NumericIndex T) (id : PointOffsetType) (values : List T) :
    Option (NumericIndex T) :=
  let idx₀ := { idx with pointToValues := resizeFor idx.pointToValues id }
  (values.foldlM (fun (i : NumericIndex T) v => i.addValue id v) idx₀).map fun i =>
    let i' := if values.isEmpty then i
      else { i with pointsCount := i.pointsCount + 1,
                    maxValuesPerPoint := max i.maxValuesPerPoint values.length }
    { i' with pointToValues := i'.pointToValues.set id values }

/-- One removed value: `remove_from_map` of its key. -/
def NumericIndex.removeValue (idx : NumericIndex T) (id : PointOffsetType) (value : T) :
    Option (NumericIndex T) :=
  (removeFromMap idx.map idx.histogram ⟨value, id⟩).map fun histogram =>
    { idx with map := OrdMap.erase ⟨value, id⟩ idx.map, mapSorted := sorted_erase idx.mapSorted,
               histogram }

/-- `remove_point`: take the point's values and remove each key. -/
def NumericIndex.removePoint (idx : NumericIndex T) (id : PointOffsetType) :
    Option (NumericIndex T) :=
  if idx.pointToValues.length ≤ id then some idx
  else
    let removed := idx.pointToValues.getD id []
    let idx₀ := { idx with pointToValues := idx.pointToValues.set id [] }
    (removed.foldlM (fun (i : NumericIndex T) v => i.removeValue id v) idx₀).map fun i =>
      if removed.isEmpty then i else { i with pointsCount := i.pointsCount - 1 }

/-- `get_values`. -/
def NumericIndex.getValues (idx : NumericIndex T) (id : PointOffsetType) : Option (List T) :=
  idx.pointToValues[id]?

/-! ## 2. Filtering and estimating a range -/

/-- The start key of `filter`: `gt` before `gte`. -/
def filterStartBound (r : Range) : Bound (Point T) :=
  match r.gt, r.gte with
  | some gt, _ => .excluded ⟨Numericable.fromF64 gt, pointOffsetMax⟩
  | none, some gte => .included ⟨Numericable.fromF64 gte, 0⟩
  | none, none => .unbounded

/-- The end key of `filter`: `lt` before `lte`. -/
def filterEndBound (r : Range) : Bound (Point T) :=
  match r.lt, r.lte with
  | some lt, _ => .excluded ⟨Numericable.fromF64 lt, 0⟩
  | none, some lte => .included ⟨Numericable.fromF64 lte, pointOffsetMax⟩
  | none, none => .unbounded

/-- `PayloadFieldIndex::filter` of a numeric index: the ids of the keys in range, in key
order; no iterator without a range condition, and an empty one where `BTreeMap::range` would
panic. -/
def NumericIndex.filter (idx : NumericIndex T) (condition : FieldCondition) :
    Option (List PointOffsetType) :=
  condition.range.map fun r =>
    let s := filterStartBound (T := T) r
    let e := filterEndBound r
    if !rangeValid s e then [] else (range s e idx.map).map Prod.snd

/-- The upper value bound of `range_cardinality`: `lte` before `lt`. -/
def cardinalityUpperBound (r : Range) : Bound T :=
  match r.lte, r.lt with
  | some lte, _ => .included (Numericable.fromF64 lte)
  | none, some lt => .excluded (Numericable.fromF64 lt)
  | none, none => .unbounded

/-- The lower value bound of `range_cardinality`: `gte` before `gt`. -/
def cardinalityLowerBound (r : Range) : Bound T :=
  match r.gte, r.gt with
  | some gte, _ => .included (Numericable.fromF64 gte)
  | none, some gt => .excluded (Numericable.fromF64 gt)
  | none, none => .unbounded

/-- `range_cardinality`: the histogram's estimate of values, turned into points; `none` is a
panic, of the histogram or of the selection estimate's `assert!`. -/
def NumericIndex.rangeCardinality (env : Env) (idx : NumericIndex T) (r : Range) :
    Option CardinalityEstimation :=
  (idx.histogram.estimate (cardinalityLowerBound r) (cardinalityUpperBound r)).bind
    fun (minEstimation, expEstimation, maxEstimation) =>
      let totalValues := idx.map.length
      let expectedMin := max (minEstimation / idx.maxValuesPerPoint)
        (max (min 1 minEstimation) (minEstimation - (totalValues - idx.pointsCount)))
      let expectedMax := min idx.pointsCount maxEstimation
      (estimateMultiValueSelectionCardinality env idx.pointsCount totalValues expEstimation).map
        fun selection =>
          let estimation := f64Round selection
          ⟨[], expectedMin, min expectedMax (max estimation expectedMin), expectedMax⟩

/-- **The estimate misses the point it is asked about**: one point, id `1`, with the value
`5`, and the range `5 ≤ x ≤ 5`.  The histogram learns the point as a single border whose
counters are both zero, so `estimate` counts nothing and the estimation's maximum is `0`,
while `filter` returns the point. -/
theorem rangeCardinality_max_below_filter (env : Env) :
    ((NumericIndex.new : NumericIndex ℤ).addManyToList 1 [5]).bind
        (fun i => i.filter { key := "x", range := some { gte := some 5, lte := some 5 } }) =
      some [1] ∧
    (((NumericIndex.new : NumericIndex ℤ).addManyToList 1 [5]).bind
        fun i => i.rangeCardinality env { gte := some 5, lte := some 5 }).map (·.max) = some 0 :=
  ⟨rfl, rfl⟩

end Qdrant
