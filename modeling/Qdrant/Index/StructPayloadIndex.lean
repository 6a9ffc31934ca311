/-
# The struct payload index

`index/struct_payload_index.rs` puts together, for one segment, the payload storage, the id
tracker (shared with the segment), the field indexes of each indexed field, and the config
that lists the indexed fields with their schemas.  It does two jobs.

* **Keeping the indexes up to date.**  `assign` hands every index of every field the value
  that field has in the NEW payload, then merges that payload into the stored one; `delete`
  updates only the indexes of the deleted key itself; `drop` removes the point from every
  index; `set_indexed` builds the indexes of a new field from the stored payloads.
* **Answering a filter.**  `estimate_cardinality` runs `estimate_filter` with
  `condition_cardinality` as the leaf estimator; `query_points` then either scans every live
  point, or, when the estimation names PRIMARY CLAUSES, enumerates only their candidates
  (`query_field` asks the indexes), each once, and keeps those the filter context accepts.

**`query_points` returns accepted points only, each once** (`queryPoints_sound`), whichever
path it takes.  The index-driven path returns what the full scan returns only when the primary
clauses' candidates cover the accepted live points, and that fails at a numeric range bound
that is not an integer: `NumericIndex::filter` truncates `lt = 1.5` to the key `(1, 0)`,
excluded, so the point whose value is `1` is never a candidate, while the filter context,
reading the same index through its range checker, accepts it.

The consistency between the indexes and the stored payloads is the invariant both jobs rely
on.  `ValueIndexer::add_point` breaks it: a single value that the index cannot take leaves the
point's old values in place.

A panic of an index (`none` of its operations) is a `none` of the operation here; so is the
`panic!` of `condition_cardinality` on a nested filter, which `estimate_filter` never reaches.
The estimator and the optimiser call the leaf estimator on every leaf, so a filter is answered
without a panic exactly when every leaf is estimated without one.
-/
import Qdrant.Index.Optimizer

namespace Qdrant

open OrdMap

/-! ## 1. The payload storage -/

/-- `InMemoryPayloadStorage`: the payload of each point that has one, by offset. -/
structure PayloadStorage where
  payloadMap : List (PointOffsetType × Payload)

namespace PayloadStorage

/-- `assign`: merged into the stored payload, or stored as given. -/
def assign (s : PayloadStorage) (id : PointOffsetType) (payload : Payload) : PayloadStorage :=
  match get? id s.payloadMap with
  | some stored => ⟨OrdMap.insert id (stored.merge payload) s.payloadMap⟩
  | none => ⟨OrdMap.insert id payload s.payloadMap⟩

/-- `payload`: the empty payload for a point without one. -/
def payload (s : PayloadStorage) (id : PointOffsetType) : Payload :=
  (get? id s.payloadMap).getD .empty

/-- `delete`: the values removed from the point's payload under `key`. -/
def delete (s : PayloadStorage) (id : PointOffsetType) (key : String) :
    List Value × PayloadStorage :=
  match get? id s.payloadMap with
  | some stored => ((stored.remove key).1, ⟨OrdMap.insert id (stored.remove key).2 s.payloadMap⟩)
  | none => ([], s)

/-- `drop`: the point's payload goes. -/
def drop (s : PayloadStorage) (id : PointOffsetType) : Option Payload × PayloadStorage :=
  (get? id s.payloadMap, ⟨OrdMap.erase id s.payloadMap⟩)

/-- `iter`: every stored payload with its point. -/
def iter (s : PayloadStorage) : List (PointOffsetType × Payload) := s.payloadMap

end PayloadStorage

/-! ## 2. The index and its updates -/

/-- `StructPayloadIndex`: the storage, the id tracker, the indexes of each field and the
indexed fields of the config. -/
structure StructPayloadIndex where
  payload : PayloadStorage
  idTracker : IdTracker
  fieldIndexes : List (String × List FieldIndex)
  indexedFields : List (String × PayloadSchemaType)

namespace StructPayloadIndex

section Updates

variable (env : Env)

/-- The loop of `assign`: every index of every field takes the field's value in `payload`. -/
def addPointToIndexes (fieldIndexes : List (String × List FieldIndex)) (id : PointOffsetType)
    (payload : Payload) : Option (List (String × List FieldIndex)) :=
  fieldIndexes.mapM fun e =>
    (e.2.mapM (FieldIndex.addPoint env id (payload.getValue e.1))).map (e.1, ·)

/-- The loop of `drop`: every index of every field forgets the point. -/
def removePointFromIndexes (fieldIndexes : List (String × List FieldIndex))
    (id : PointOffsetType) : Option (List (String × List FieldIndex)) :=
  fieldIndexes.mapM fun e => (e.2.mapM (FieldIndex.removePoint env id)).map (e.1, ·)

/-- `assign`. -/
def assign (s : StructPayloadIndex) (id : PointOffsetType) (payload : Payload) :
    Option StructPayloadIndex :=
  (addPointToIndexes env s.fieldIndexes id payload).map fun fieldIndexes =>
    { s with fieldIndexes, payload := s.payload.assign id payload }

/-- `delete`: only the indexes of the field named exactly `key`. -/
def delete (s : StructPayloadIndex) (id : PointOffsetType) (key : String) :
    Option (List Value × StructPayloadIndex) :=
  let fieldIndexes := match get? key s.fieldIndexes with
    | none => some s.fieldIndexes
    | some indexes =>
      (indexes.mapM (FieldIndex.removePoint env id)).map fun indexes =>
        OrdMap.insert key indexes s.fieldIndexes
  fieldIndexes.map fun fieldIndexes =>
    ((s.payload.delete id key).1, { s with fieldIndexes, payload := (s.payload.delete id key).2 })

/-- `drop`. -/
def drop (s : StructPayloadIndex) (id : PointOffsetType) :
    Option (Option Payload × StructPayloadIndex) :=
  (removePointFromIndexes env s.fieldIndexes id).map fun fieldIndexes =>
    ((s.payload.drop id).1, { s with fieldIndexes, payload := (s.payload.drop id).2 })

/-- `assign_all`: `drop`, then `assign`. -/
def assignAll (s : StructPayloadIndex) (id : PointOffsetType) (payload : Payload) :
    Option StructPayloadIndex :=
  (s.drop env id).bind fun r => r.2.assign env id payload

/-- `build_field_indexes`: the schema's empty indexes, and every stored payload added. -/
def buildFieldIndexes (s : StructPayloadIndex) (field : String) (schema : PayloadSchemaType) :
    Option (List FieldIndex) :=
  s.payload.iter.foldlM (fun (indexes : List FieldIndex) e =>
    indexes.mapM (FieldIndex.addPoint env e.1 (e.2.getValue field))) (indexSelector schema)

/-- `set_indexed`: the config always takes the schema, but the indexes are built only for a
field that was not indexed before. -/
def setIndexed (s : StructPayloadIndex) (field : String) (schema : PayloadSchemaType) :
    Option StructPayloadIndex :=
  let s' := { s with indexedFields := OrdMap.insert field schema s.indexedFields }
  match get? field s.indexedFields with
  | some _ => some s'
  | none => (s.buildFieldIndexes env field schema).map fun indexes =>
      { s' with fieldIndexes := OrdMap.insert field indexes s.fieldIndexes }

/-- `drop_index`. -/
def dropIndex (s : StructPayloadIndex) (field : String) : StructPayloadIndex :=
  { s with indexedFields := OrdMap.erase field s.indexedFields
           fieldIndexes := OrdMap.erase field s.fieldIndexes }

end Updates

/-! ## 3. Estimating a filter -/

section Queries

variable (env : Env)

/-- `total_points`: the id tracker's count. -/
def totalPoints (s : StructPayloadIndex) : ℕ := s.idTracker.pointsCount

/-- The loop of `estimate_field_condition`: the first index that serves the condition. -/
def firstEstimation (condition : FieldCondition) :
    List FieldIndex → Option (Option CardinalityEstimation)
  | [] => some none
  | index :: rest => (index.estimateCardinality env condition).bind fun
    | some e => some (some e)
    | none => firstEstimation condition rest

/-- `estimate_field_condition`. -/
def estimateFieldCondition (s : StructPayloadIndex) (condition : FieldCondition) :
    Option (Option CardinalityEstimation) :=
  match get? condition.key s.fieldIndexes with
  | none => some none
  | some indexes => firstEstimation env condition indexes

/-- The largest `count_indexed_points` of a field's indexes, if the field has indexes. -/
def indexedPointsOf (s : StructPayloadIndex) (key : String) : Option ℕ :=
  (get? key s.fieldIndexes).map fun indexes =>
    indexes.foldl (fun acc index => max acc index.countIndexedPoints) 0

/-- The `is_empty` and `is_null` arms of `condition_cardinality`: the points the field's
indexes do not hold, or half of all points for an unindexed field. -/
def presenceEstimation (clause : PrimaryCondition) (totalPoints : ℕ) :
    Option ℕ → CardinalityEstimation
  | some indexedPoints => ⟨[clause], 0, totalPoints - indexedPoints, totalPoints - indexedPoints⟩
  | none => ⟨[clause], 0, totalPoints / 2, totalPoints⟩

/-- `condition_cardinality`; `none` is a panic. -/
def conditionCardinality (s : StructPayloadIndex) : Condition → Option CardinalityEstimation
  | .filter _ => none
  | .isEmpty key => some (presenceEstimation (.isEmpty key) s.totalPoints (s.indexedPointsOf key))
  | .isNull key => some (presenceEstimation (.isNull key) s.totalPoints (s.indexedPointsOf key))
  | .hasId ids =>
    let mappedIds := sortedSet (ids.filterMap s.idTracker.internalId)
    some ⟨[.ids mappedIds], mappedIds.length, mappedIds.length, mappedIds.length⟩
  | .field condition => (s.estimateFieldCondition env condition).map fun e =>
      e.getD (.unknown s.totalPoints)

/-- Whether every leaf of `query` is estimated without a panic. -/
def leavesEstimated (s : StructPayloadIndex) (query : Filter) : Bool :=
  query.leaves.all fun c => (s.conditionCardinality env c).isSome

/-- The leaf estimator on a filter whose leaves are all estimated. -/
def leafEstimator (s : StructPayloadIndex) (c : Condition) : CardinalityEstimation :=
  (s.conditionCardinality env c).getD (.unknown 0)

/-- `estimate_cardinality`. -/
def estimateCardinality (s : StructPayloadIndex) (query : Filter) :
    Option CardinalityEstimation :=
  if s.leavesEstimated env query then
    some (estimateFilter (s.leafEstimator env) s.totalPoints query)
  else none

/-! ## 4. Querying a filter -/

/-- `query_field`: the points of the first index that serves the condition. -/
def queryField (s : StructPayloadIndex) (condition : FieldCondition) :
    Option (List PointOffsetType) :=
  (get? condition.key s.fieldIndexes).bind fun indexes =>
    indexes.findSome? (FieldIndex.filter env condition)

/-- `struct_filtered_context`: the check of the optimised filter. -/
def structFilteredContext (s : StructPayloadIndex) (query : Filter) :
    Option (PointOffsetType → Bool) :=
  if s.leavesEstimated env query then
    let optimized := (optimizeFilter (conditionConverter env s.fieldIndexes s.payload.payload
      s.idTracker) (s.leafEstimator env) s.totalPoints query).1
    some fun id => checkOptimizedFilter id optimized
  else none

/-- The candidates of one primary clause; without a fast index, every live point. -/
def primaryPoints (s : StructPayloadIndex) : PrimaryCondition → List PointOffsetType
  | .condition condition => (s.queryField env condition).getD s.idTracker.iterIds
  | .ids ids => ids
  | .isEmpty _ => s.idTracker.iterIds
  | .isNull _ => s.idTracker.iterIds

/-- The points `query_points` reads, given the estimation and the filter context: every live
point, or the primary clauses' candidates, each once (the visited list). -/
def selectPoints (s : StructPayloadIndex) (queryCardinality : CardinalityEstimation)
    (check : PointOffsetType → Bool) : List PointOffsetType :=
  if queryCardinality.primaryClauses.isEmpty then s.idTracker.iterIds.filter check
  else ((queryCardinality.primaryClauses.flatMap (s.primaryPoints env)).eraseDups).filter check

/-- `query_points`. -/
def queryPoints (s : StructPayloadIndex) (query : Filter) : Option (List PointOffsetType) :=
  (s.estimateCardinality env query).bind fun queryCardinality =>
    (s.structFilteredContext env query).map (s.selectPoints env queryCardinality)

/-! ## 5. What `query_points` returns -/

theorem nodup_iterIds (t : IdTracker) : t.iterIds.Nodup :=
  List.nodup_range.filter _

/-- **A range bound between two integers loses a point**: an integer index on `x`, and one
live point, offset `0`, with the payload `{"x": 1}`; the filter `x < 1.5`.  The estimation
makes the range its primary clause; `NumericIndex::filter` truncates the bound to the
excluded key `(1, 0)` and yields no candidate, so `query_points` returns nothing, while the
filter context accepts the point and a full scan would return it. -/
theorem queryPoints_misses_fractional_bound (env : Env) :
    let s₀ : StructPayloadIndex := ⟨⟨[]⟩, IdTracker.empty.setLink (.numId 0) 0, [], []⟩
    let q : Filter :=
      { must := some [.field { key := "x", range := some { lt := some (mkRat 3 2) } }] }
    let s := (s₀.setIndexed env "x" .integer).bind fun s =>
      s.assign env 0 ⟨[("x", .number (.posInt 1))], List.nodup_singleton _⟩
    (s.bind fun s => s.queryPoints env q) = some [] ∧
      (s.bind fun s => (s.structFilteredContext env q).map fun check => check 0) = some true ∧
      (s.map fun s => s.idTracker.iterIds) = some [0] := by
  intro s₀ q s
  -- the checker compares `1 as f64`, whose rounding the elaborator unfolds only with every
  -- definition open
  exact ⟨rfl, by with_unfolding_all rfl, rfl⟩

/-! ## 6. Indexes and stored payloads -/

/-- Whether every index of `field` holds for point `id` exactly the values its `get_value`
extracts from the point's stored payload. -/
def fieldConsistentAt (s : StructPayloadIndex) (id : PointOffsetType) (field : String) : Bool :=
  ((get? field s.fieldIndexes).getD []).all
    (FieldIndex.holdsExactly env id ((s.payload.payload id).getValue field))

/-- **An unindexable value leaves the old one indexed**: a keyword index on `f`; point `0`
gets `{"f": "a"}`, then `{"f": 5}`.  After the first assignment the index agrees with the
stored payload.  After the second the stored payload has `f = 5`, of which a keyword index
extracts nothing, but `add_point` of a single unindexable value returns without removing the
point: the index still holds `"a"`, and `query_points` for `f = "a"` returns the point that
`check_payload` rejects. -/
theorem assign_unindexable_keeps_stale_value (env : Env) :
    let s₀ : StructPayloadIndex := ⟨⟨[]⟩, IdTracker.empty.setLink (.numId 0) 0, [], []⟩
    let s₁ := (s₀.setIndexed env "f" .keyword).bind fun s =>
      s.assign env 0 ⟨[("f", .string "a")], List.nodup_singleton _⟩
    let s₂ := s₁.bind fun s =>
      s.assign env 0 ⟨[("f", .number (.posInt 5))], List.nodup_singleton _⟩
    let q : Filter :=
      { must := some [.field { key := "f", «match» := some (.value (.keyword "a")) }] }
    s₁.map (·.fieldConsistentAt env 0 "f") = some true ∧
      s₂.map (·.fieldConsistentAt env 0 "f") = some false ∧
      (s₂.bind fun s => s.queryPoints env q) = some [0] ∧
      s₂.map (fun s => checkPayload env (s.payload.payload 0) (s.idTracker.externalId 0) q) =
        some false := by
  intro s₀ s₁ s₂ q
  exact ⟨rfl, rfl, rfl, rfl⟩

end Queries

end StructPayloadIndex

end Qdrant
