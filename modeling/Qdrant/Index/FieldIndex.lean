/-
# Field indexes: `ValueIndexer::add_point` and the `FieldIndex` enum

`index/field_index/field_index_base.rs` gives every field index the same way in: the default
method `ValueIndexer::add_point`, which turns the `MultiValue` a payload path yields into a
list of indexable values and re-indexes the point.  Its four arms treat the shapes
differently, and that is what the invariant between payloads and indexes turns on:

* several values (`Multiple`): the point is removed, then the values are flattened one array
  level deep, the unindexable ones dropped, and the rest added;
* one array: the point is removed and the indexable elements added;
* one value: **only if it is indexable** is the point removed and re-added; an unindexable
  value leaves the point's old values in place;
* no value: nothing happens.

`FieldIndex` is the enum of the six index kinds, and `index_selector` the indexes a payload
schema creates.  A `none` result is a panic of the underlying index (the histogram of a numeric
index); for `filter` and `estimate_cardinality` an inner `none` is the source's `None`: this
index does not serve the condition.
-/
import Qdrant.Index.NumericIndex
import Qdrant.Index.GeoIndex

namespace Qdrant

/-! ## 1. `ValueIndexer` -/

/-- The three required methods of `ValueIndexer<T>` for an index state `I`. -/
structure ValueIndexer (I T : Type) where
  addMany : I → PointOffsetType → List T → Option I
  getValue : Value → Option T
  removePoint : I → PointOffsetType → Option I

/-- The values of `Multiple(values)`: arrays flattened one level, unindexable values dropped. -/
def ValueIndexer.flattenValues {I T : Type} (vi : ValueIndexer I T) (values : List Value) :
    List T :=
  values.flatMap fun
    | .array vs => vs.filterMap vi.getValue
    | v => (vi.getValue v).toList

/-- `ValueIndexer::add_point`. -/
def ValueIndexer.addPoint {I T : Type} (vi : ValueIndexer I T) (idx : I) (id : PointOffsetType) :
    MultiValue Value → Option I
  | .multiple values => (vi.removePoint idx id).bind fun idx =>
      vi.addMany idx id (vi.flattenValues values)
  | .single (some (.array values)) => (vi.removePoint idx id).bind fun idx =>
      vi.addMany idx id (values.filterMap vi.getValue)
  | .single (some value) => match vi.getValue value with
    | some x => (vi.removePoint idx id).bind fun idx => vi.addMany idx id [x]
    | none => some idx
  | .single none => some idx

/-- The values `get_value` extracts from a field's `MultiValue`, arrays flattened one
level: what an index should hold for the point.  `add_point` indexes exactly these, except for
a single value that `get_value` rejects (and for no value), where it leaves the point's old
values in place. -/
def ValueIndexer.extractedValues {I T : Type} (vi : ValueIndexer I T) : MultiValue Value → List T
  | .multiple values => vi.flattenValues values
  | .single (some (.array values)) => values.filterMap vi.getValue
  | .single (some value) => (vi.getValue value).toList
  | .single none => []

/-- `get_value` of the integer indexes: a number that fits an `i64`. -/
def integerValue : Value → Option ℤ
  | .number n => n.asI64
  | _ => none

/-- `get_value` of the float index: any number. -/
def floatValue : Value → Option ℚ
  | .number n => n.asF64
  | _ => none

/-- `get_value` of the keyword and text indexes: a string. -/
def keywordValue : Value → Option String
  | .string s => some s
  | _ => none

/-- `get_value` of the geo index: an object with numeric `lon` and `lat` in range. -/
def geoValue : Value → Option GeoPoint
  | .object obj =>
    match (obj.lookup "lon").bind Value.asF64, (obj.lookup "lat").bind Value.asF64 with
    | some lon, some lat => GeoPoint.new lon lat
    | _, _ => none
  | _ => none

/-- `impl ValueIndexer<T> for NumericIndex<T>`. -/
def numericIndexer {T : Type} [LinearOrder T] [Numericable T] (getValue : Value → Option T) :
    ValueIndexer (NumericIndex T) T :=
  ⟨NumericIndex.addManyToList, getValue, NumericIndex.removePoint⟩

/-- `impl ValueIndexer<N> for MapIndex<N>`. -/
def mapIndexer {N : Type} [LinearOrder N] (getValue : Value → Option N) :
    ValueIndexer (MapIndex N) N :=
  ⟨fun idx id vs => some (idx.addManyToMap id vs), getValue, fun idx id => some (idx.removePoint id)⟩

/-- `impl ValueIndexer<GeoPoint> for GeoMapIndex`. -/
def geoIndexer (env : Env) : ValueIndexer GeoMapIndex GeoPoint :=
  ⟨fun idx id vs => some (idx.addManyGeoPoints env id vs), geoValue,
    fun idx id => some (idx.removePoint env id)⟩

/-- `impl ValueIndexer<String> for FullTextIndex`. -/
def fullTextIndexer (env : Env) : ValueIndexer FullTextIndex String :=
  ⟨fun idx id vs => some (FullTextIndex.addMany env idx id vs), keywordValue,
    fun idx id => some (idx.removePoint id)⟩

/-! ## 2. The map index as a `PayloadFieldIndex` -/

section MapIndexQueries

variable {N : Type} [LinearOrder N]

/-- `filter` of a map index: an exact match of one value of the index's type. -/
def MapIndex.filterWith (keyOf : ValueVariants → Option N) (idx : MapIndex N)
    (condition : FieldCondition) : Option (List PointOffsetType) :=
  match condition.«match» with
  | some (.value v) => (keyOf v).map idx.getIterator
  | _ => none

/-- `estimate_cardinality` of a map index: an exact match, or a `match any` combined as a
`should` over the indexed points. -/
def MapIndex.estimateWith (keyOf : ValueVariants → Option N) (anyOf : AnyVariants → Option (List N))
    (idx : MapIndex N) (condition : FieldCondition) : Option CardinalityEstimation :=
  match condition.«match» with
  | some (.value v) => (keyOf v).map fun k =>
      let e := idx.matchCardinality k
      { e with primaryClauses := e.primaryClauses ++ [.condition condition] }
  | some (.any a) => (anyOf a).map fun ks =>
      combineShouldEstimations (ks.map idx.matchCardinality) idx.indexedPoints
  | _ => none

end MapIndexQueries

/-- The keyword of a `match`. -/
def keywordOf : ValueVariants → Option String
  | .keyword k => some k
  | _ => none

/-- The integer of a `match`. -/
def integerOf : ValueVariants → Option ℤ
  | .integer i => some i
  | _ => none

/-- The keywords of a `match any`. -/
def keywordsOf : AnyVariants → Option (List String)
  | .keywords l => some l
  | _ => none

/-- The integers of a `match any`. -/
def integersOf : AnyVariants → Option (List ℤ)
  | .integers l => some l
  | _ => none

/-! ## 3. `FieldIndex` -/

/-- `FieldIndex`. -/
inductive FieldIndex where
  | intIndex (i : NumericIndex ℤ)
  | intMapIndex (i : MapIndex ℤ)
  | keywordIndex (i : MapIndex String)
  | floatIndex (i : NumericIndex ℚ)
  | geoIndex (i : GeoMapIndex)
  | fullTextIndex (i : FullTextIndex)

namespace FieldIndex

/-- `FieldIndex::add_point`. -/
def addPoint (env : Env) (id : PointOffsetType) (payload : MultiValue Value) :
    FieldIndex → Option FieldIndex
  | .intIndex i => ((numericIndexer integerValue).addPoint i id payload).map .intIndex
  | .intMapIndex i => ((mapIndexer integerValue).addPoint i id payload).map .intMapIndex
  | .keywordIndex i => ((mapIndexer keywordValue).addPoint i id payload).map .keywordIndex
  | .floatIndex i => ((numericIndexer floatValue).addPoint i id payload).map .floatIndex
  | .geoIndex i => ((geoIndexer env).addPoint i id payload).map .geoIndex
  | .fullTextIndex i => ((fullTextIndexer env).addPoint i id payload).map .fullTextIndex

/-- `FieldIndex::remove_point`. -/
def removePoint (env : Env) (id : PointOffsetType) : FieldIndex → Option FieldIndex
  | .intIndex i => (i.removePoint id).map .intIndex
  | .intMapIndex i => some (.intMapIndex (i.removePoint id))
  | .keywordIndex i => some (.keywordIndex (i.removePoint id))
  | .floatIndex i => (i.removePoint id).map .floatIndex
  | .geoIndex i => some (.geoIndex (i.removePoint env id))
  | .fullTextIndex i => some (.fullTextIndex (i.removePoint id))

/-- `FieldIndex::filter`: the points of the condition, if this index serves it. -/
def filter (env : Env) (condition : FieldCondition) : FieldIndex → Option (List PointOffsetType)
  | .intIndex i => i.filter condition
  | .intMapIndex i => i.filterWith integerOf condition
  | .keywordIndex i => i.filterWith keywordOf condition
  | .floatIndex i => i.filter condition
  | .geoIndex i => i.filter env condition
  | .fullTextIndex i => match condition.«match» with
    | some (.text t) => some (i.invertedIndex.filter (i.parseQuery env t))
    | _ => none

/-- `estimate_cardinality` of a numeric index: the range's cardinality with the condition as
its primary clause. -/
def numericEstimate {T : Type} [LinearOrder T] [Numericable T] (env : Env) (i : NumericIndex T)
    (condition : FieldCondition) : Option (Option CardinalityEstimation) :=
  match condition.range with
  | none => some none
  | some r => (i.rangeCardinality env r).map fun e =>
      some { e with primaryClauses := e.primaryClauses ++ [.condition condition] }

/-- `FieldIndex::estimate_cardinality`; the outer `none` is a panic. -/
def estimateCardinality (env : Env) (condition : FieldCondition) :
    FieldIndex → Option (Option CardinalityEstimation)
  | .intIndex i => numericEstimate env i condition
  | .intMapIndex i => some (i.estimateWith integerOf integersOf condition)
  | .keywordIndex i => some (i.estimateWith keywordOf keywordsOf condition)
  | .floatIndex i => numericEstimate env i condition
  | .geoIndex i => i.estimateCardinality env condition
  | .fullTextIndex i => match condition.«match» with
    | some (.text t) =>
      some (some (i.invertedIndex.estimateCardinality (i.parseQuery env t) condition))
    | _ => some none

/-- Whether the index holds for point `id` exactly the values its `get_value` extracts from
`mv`; a text index holds the document of their tokens, and no document for no value. -/
def holdsExactly (env : Env) (id : PointOffsetType) (mv : MultiValue Value) : FieldIndex → Bool
  | .intIndex i => (i.getValues id).getD [] == (numericIndexer integerValue).extractedValues mv
  | .intMapIndex i => (i.getValues id).getD [] == (mapIndexer integerValue).extractedValues mv
  | .keywordIndex i => (i.getValues id).getD [] == (mapIndexer keywordValue).extractedValues mv
  | .floatIndex i => (i.getValues id).getD [] == (numericIndexer floatValue).extractedValues mv
  | .geoIndex i => (i.getValues id).getD [] == (geoIndexer env).extractedValues mv
  | .fullTextIndex i =>
    let values := (fullTextIndexer env).extractedValues mv
    i.getDoc id == if values.isEmpty then none
      else some (sortedSet (values.flatMap fun value => tokenizeDoc env value i.config))

/-- `FieldIndex::count_indexed_points`. -/
def countIndexedPoints : FieldIndex → ℕ
  | .intIndex i => i.pointsCount
  | .intMapIndex i => i.indexedPoints
  | .keywordIndex i => i.indexedPoints
  | .floatIndex i => i.pointsCount
  | .geoIndex i => i.pointsCount
  | .fullTextIndex i => i.invertedIndex.pointsCount

end FieldIndex

/-! ## 4. `index_selector` -/

/-- `PayloadSchemaType`, and for a text index its `TextIndexParams`: `FieldType(Text)` of
`PayloadFieldSchema` is `text {}`, and `FieldParams(Text(params))` is `text params`. -/
inductive PayloadSchemaType where
  | keyword
  | integer
  | float
  | geo
  | text (params : TextIndexParams)
deriving DecidableEq, Repr

/-- `index_selector`: the empty indexes a schema creates. -/
def indexSelector : PayloadSchemaType → List FieldIndex
  | .keyword => [.keywordIndex .new]
  | .integer => [.intMapIndex .new, .intIndex .new]
  | .float => [.floatIndex .new]
  | .geo => [.geoIndex .new]
  | .text params => [.fullTextIndex ⟨.new, params⟩]

/-! ## 5. The geo index over a run of updates

Every arm of `add_point` either leaves the geo index alone or removes the point and adds its new
values to a point that then has none; both keep the counters exact
(`GeoMapIndex.CountersExact.removePoint`, `.addManyGeoPoints`).  So every run of updates from an
empty index keeps them exact, and `match_cardinality` then brackets the points in any non-empty
list of distinct regions of one length. -/

/-- An update of a geo index: `add_point` of the values a payload path yields, or
`remove_point`. -/
inductive GeoIndexUpdate where
  | addPoint (id : PointOffsetType) (payload : MultiValue Value)
  | removePoint (id : PointOffsetType)

/-- One update, through `ValueIndexer`; `none` is a panic. -/
def GeoIndexUpdate.apply (env : Env) (idx : GeoMapIndex) : GeoIndexUpdate → Option GeoMapIndex
  | .addPoint id payload => (geoIndexer env).addPoint idx id payload
  | .removePoint id => (geoIndexer env).removePoint idx id

section GeoRun

variable (env : Env)

/-- Re-indexing a point (remove, then add its new values) keeps the counters exact. -/
theorem countersExact_reindex {idx : GeoMapIndex} (hidx : idx.CountersExact env)
    (id : PointOffsetType) (values : List GeoPoint) :
    ((idx.removePoint env id).addManyGeoPoints env id values).CountersExact env :=
  (hidx.removePoint env id).addManyGeoPoints env id values (getD_removePoint_self env idx id)

/-- Every arm of `add_point` keeps the counters exact, and none panics. -/
theorem countersExact_geoIndexer_addPoint {idx : GeoMapIndex} (hidx : idx.CountersExact env)
    (id : PointOffsetType) (payload : MultiValue Value) :
    ∃ idx', (geoIndexer env).addPoint idx id payload = some idx' ∧ idx'.CountersExact env := by
  cases payload with
  | multiple values => exact ⟨_, rfl, countersExact_reindex env hidx id _⟩
  | single v =>
    match v with
    | none => exact ⟨idx, rfl, hidx⟩
    | some (.array values) => exact ⟨_, rfl, countersExact_reindex env hidx id _⟩
    | some (.null) | some (.bool _) | some (.number _) | some (.string _) | some (.object _) =>
      simp only [ValueIndexer.addPoint]
      split
      · exact ⟨_, rfl, countersExact_reindex env hidx id _⟩
      · exact ⟨idx, rfl, hidx⟩

/-- One update keeps the counters exact, and does not panic. -/
theorem countersExact_apply {idx : GeoMapIndex} (hidx : idx.CountersExact env)
    (u : GeoIndexUpdate) : ∃ idx', u.apply env idx = some idx' ∧ idx'.CountersExact env := by
  cases u with
  | addPoint id payload => exact countersExact_geoIndexer_addPoint env hidx id payload
  | removePoint id => exact ⟨_, rfl, hidx.removePoint env id⟩

/-- A run of updates from an exact index keeps it exact, and does not panic. -/
theorem countersExact_foldlM (updates : List GeoIndexUpdate) :
    ∀ idx : GeoMapIndex, idx.CountersExact env →
      ∃ idx', updates.foldlM (GeoIndexUpdate.apply env) idx = some idx' ∧
        idx'.CountersExact env := by
  induction updates with
  | nil => exact fun idx hidx => ⟨idx, rfl, hidx⟩
  | cons u rest ih =>
    intro idx hidx
    obtain ⟨idx₁, happly, hidx₁⟩ := countersExact_apply env hidx u
    obtain ⟨idx₂, hrest, hidx₂⟩ := ih idx₁ hidx₁
    exact ⟨idx₂, by simp [List.foldlM_cons, happly, hrest], hidx₂⟩

/-- **The geo index's counters stay exact**: after any run of `add_point`/`remove_point` from an
empty index, every prefix counter, `points_map` and the totals agree with the stored values,
and `match_cardinality` of a non-empty list of distinct regions of one length brackets the
number of points with a value in the regions. -/
theorem geoIndex_counters_exact (updates : List GeoIndexUpdate) :
    ∃ idx, updates.foldlM (GeoIndexUpdate.apply env) GeoMapIndex.new = some idx ∧
      idx.CountersExact env ∧
      ∀ regions : List String, regions ≠ [] → regions.Nodup →
        (∀ r ∈ regions, ∀ r' ∈ regions, r.length = r'.length) →
        ∃ e, idx.matchCardinality env regions = some e ∧
          e.min ≤ idx.pointsInRegions env regions ∧ idx.pointsInRegions env regions ≤ e.max := by
  obtain ⟨idx, hrun, hidx⟩ := countersExact_foldlM env updates _ (countersExact_new env)
  exact ⟨idx, hrun, hidx, fun regions hne hnodup hlen =>
    hidx.matchCardinality_bounds env hne hnodup hlen⟩

/-- On an empty list of regions `match_cardinality` panics: `common_hash_prefix` reads the
first hash of the list. -/
theorem matchCardinality_nil (idx : GeoMapIndex) : idx.matchCardinality env [] = none := rfl

end GeoRun

/-- A new index asked for the empty list of regions panics. -/
theorem matchCardinality_nil_new :
    GeoMapIndex.new.matchCardinality ⟨fun _ _ => 0, id, id, id, fun _ => true, fun _ => false, id,
      fun _ => 0, fun _ => "", fun _ _ => [], fun _ _ => []⟩ [] = none :=
  matchCardinality_nil _ GeoMapIndex.new

end Qdrant
