/-
# A segment

`segment.rs` keeps a set of points: the id tracker maps their external ids to internal
offsets and records each point's version, the vector storages hold their vectors by offset,
and the payload index (whose id tracker is the segment's own) holds their payloads.  Every
update goes through `handle_version`, which is what makes replaying an operation harmless:

* an operation on an existing point is **skipped when the point's version is newer** than
  the operation (`point_version > op_num`), and a segment-wide one when the segment's version
  is;
* a successful operation raises the segment's version to `op_num` and sets the point's
  version to `op_num`.

`upsert_vector` updates the vectors of a known point in place, or links a new point to the
next free offset.  `delete_point` drops the point's payload and unlinks it.  The payload
operations fail with `PointIdError` on an unknown point.  Reads: `has_point`,
`points_count`, `payload` and `all_vectors` by external id, `read_range`, and
`read_filtered`, which chooses between scanning the ids and querying the payload index by
the estimated cost of each.

**The version rule** (`handleVersion_skip`) is the fact the holder and the recovery rely on;
an operation on a point the segment does not hold changes nothing (`deletePoint_absent`).
A payload-index panic is the error `panic`; the segment's error state
(`error_status`), which only storage failures set, is not modelled.
-/
import Qdrant.Index.StructPayloadIndex

namespace Qdrant

open OrdMap

/-! ## 1. The segment -/

/-- `NamedVectors`: a point's vectors by name. -/
abbrev NamedVectors := List (String × List ℚ)

/-- The errors of a segment operation.  `panic` stands for a panic of an index. -/
inductive OperationError where
  | pointIdError (missedPointId : ExtendedPointId)
  | wrongVector (expectedDim receivedDim : ℕ)
  | vectorNameNotExists (receivedName : String)
  | missedVectorName (receivedName : String)
  | typeInferenceError (fieldName : String)
  | serviceError (description : String)
  | cancelled (description : String)
  | panic
deriving DecidableEq, Repr

/-- `OperationResult`. -/
abbrev OperationResult (α : Type) := Except OperationError α

/-- `VectorDataConfig`: the dimension of a named vector, and the preprocessing of its
distance (`Distance::preprocess_vector`, the normalisation of the cosine distance). -/
structure VectorDataConfig where
  size : ℕ
  preprocess : List ℚ → Option (List ℚ)

/-- `Segment`. -/
structure Segment where
  version : Option ℕ
  payloadIndex : StructPayloadIndex
  vectorData : List (String × List (List ℚ))
  config : List (String × VectorDataConfig)
  appendable : Bool

namespace Segment

variable (env : Env)

/-- The segment's id tracker (shared with its payload index). -/
def idTracker (s : Segment) : IdTracker := s.payloadIndex.idTracker

/-- The segment with its id tracker replaced. -/
def withIdTracker (s : Segment) (t : IdTracker) : Segment :=
  { s with payloadIndex := { s.payloadIndex with idTracker := t } }

/-- `SegmentEntry::version`. -/
def currentVersion (s : Segment) : ℕ := s.version.getD 0

/-- `handle_version`: skip an operation older than the point (or the segment), otherwise
run it and stamp the versions. -/
def handleVersion (s : Segment) (opNum : ℕ) (opPointOffset : Option PointOffsetType)
    (operation : Segment → OperationResult (Bool × Option PointOffsetType × Segment)) :
    OperationResult (Bool × Segment) :=
  let skip := match opPointOffset with
    | none => decide (opNum < s.version.getD 0)
    | some offset => (s.idTracker.internalVersion offset).any (opNum < ·)
  if skip then .ok (false, s)
  else (operation s).map fun r =>
    let s' := { r.2.2 with version := some (max opNum (r.2.2.version.getD 0)) }
    (r.1, match r.2.1 with
      | some offset => s'.withIdTracker (s'.idTracker.setInternalVersion offset opNum)
      | none => s')

/-- `check_vectors_set`: the names given are the names configured. -/
def checkVectorsSet (s : Segment) (vectors : NamedVectors) : OperationResult Unit :=
  match vectors.find? (fun v => (s.config.lookup v.1).isNone) with
  | some v => .error (.vectorNameNotExists v.1)
  | none => match s.config.find? (fun c => (vectors.lookup c.1).isNone) with
    | some c => .error (.missedVectorName c.1)
    | none => .ok ()

/-- The dimension checks and preprocessing of `upsert_vector`. -/
def processVectors (s : Segment) : NamedVectors → OperationResult NamedVectors
  | [] => .ok []
  | (name, vector) :: rest =>
    match s.config.lookup name with
    | none => .error (.vectorNameNotExists name)
    | some c =>
      if c.size ≠ vector.length then .error (.wrongVector c.size vector.length)
      else (processVectors s rest).map fun processed =>
        (name, (c.preprocess vector).getD vector) :: processed

/-- `insert_vector` of every named vector at one offset. -/
def insertVectors (vectorData : List (String × List (List ℚ))) (offset : PointOffsetType)
    (vectors : NamedVectors) : List (String × List (List ℚ)) :=
  vectorData.map fun e => match vectors.lookup e.1 with
    | some v => (e.1, (resizeTo e.2 offset []).set offset v)
    | none => e

/-- `upsert_vector`: in place for a known point, at the next offset for a new one. -/
def upsertVector (s : Segment) (opNum : ℕ) (pointId : ExtendedPointId) (vectors : NamedVectors) :
    OperationResult (Bool × Segment) :=
  (s.checkVectorsSet vectors).bind fun _ =>
  let storedInternalPoint := s.idTracker.internalId pointId
  s.handleVersion opNum storedInternalPoint fun s =>
    (s.processVectors vectors).map fun processed =>
      match storedInternalPoint with
      | some existing => (true, some existing,
          { s with vectorData := insertVectors s.vectorData existing processed })
      | none =>
        let newIndex := s.idTracker.internalSize
        (false, some newIndex,
          ({ s with vectorData := insertVectors s.vectorData newIndex processed }).withIdTracker
            (s.idTracker.setLink pointId newIndex))

/-- `check_process_stopped`. -/
def checkProcessStopped (stopped : Bool) : OperationResult Unit :=
  if stopped then .error (.cancelled "process cancelled by service") else .ok ()

/-- A payload-index result, with a panic as the error `panic`. -/
def ofPanic {α : Type} : Option α → OperationResult α
  | some a => .ok a
  | none => .error .panic

/-- `delete_point`. -/
def deletePoint (s : Segment) (opNum : ℕ) (pointId : ExtendedPointId) :
    OperationResult (Bool × Segment) :=
  match s.idTracker.internalId pointId with
  | none => .ok (false, s)
  | some internalId => s.handleVersion opNum (some internalId) fun s =>
      (ofPanic (s.payloadIndex.drop env internalId)).map fun r =>
        let s' := { s with payloadIndex := r.2 }
        (true, some internalId, s'.withIdTracker (s'.idTracker.drop pointId))

/-- The payload operations: the point must be known, and the operation is versioned by it. -/
def updatePayload (s : Segment) (opNum : ℕ) (pointId : ExtendedPointId)
    (update : StructPayloadIndex → PointOffsetType → Option StructPayloadIndex) :
    OperationResult (Bool × Segment) :=
  let internalId := s.idTracker.internalId pointId
  s.handleVersion opNum internalId fun s =>
    match internalId with
    | some internalId => (ofPanic (update s.payloadIndex internalId)).map fun payloadIndex =>
        (true, some internalId, { s with payloadIndex })
    | none => .error (.pointIdError pointId)

/-- `set_full_payload`: `assign_all`. -/
def setFullPayload (s : Segment) (opNum : ℕ) (pointId : ExtendedPointId) (fullPayload : Payload) :
    OperationResult (Bool × Segment) :=
  s.updatePayload opNum pointId fun index id => index.assignAll env id fullPayload

/-- `set_payload`: `assign`. -/
def setPayload (s : Segment) (opNum : ℕ) (pointId : ExtendedPointId) (payload : Payload) :
    OperationResult (Bool × Segment) :=
  s.updatePayload opNum pointId fun index id => index.assign env id payload

/-- `delete_payload`: `delete` of one key. -/
def deletePayload (s : Segment) (opNum : ℕ) (pointId : ExtendedPointId) (key : String) :
    OperationResult (Bool × Segment) :=
  s.updatePayload opNum pointId fun index id => (index.delete env id key).map (·.2)

/-- `clear_payload`: `drop`. -/
def clearPayload (s : Segment) (opNum : ℕ) (pointId : ExtendedPointId) :
    OperationResult (Bool × Segment) :=
  s.updatePayload opNum pointId fun index id => (index.drop env id).map (·.2)

/-! ## 2. Reads -/

/-- `has_point`. -/
def hasPoint (s : Segment) (pointId : ExtendedPointId) : Bool :=
  (s.idTracker.internalId pointId).isSome

/-- `points_count`. -/
def pointsCount (s : Segment) : ℕ := s.idTracker.pointsCount

/-- `point_version`. -/
def pointVersion (s : Segment) (pointId : ExtendedPointId) : Option ℕ :=
  (s.idTracker.internalId pointId).bind s.idTracker.internalVersion

/-- `payload`. -/
def payload (s : Segment) (pointId : ExtendedPointId) : OperationResult Payload :=
  match s.idTracker.internalId pointId with
  | some internalId => .ok (s.payloadIndex.payload.payload internalId)
  | none => .error (.pointIdError pointId)

/-- `vector`: the point's vector of one name; a point whose slot is freed has none. -/
def vector (s : Segment) (vectorName : String) (pointId : ExtendedPointId) :
    OperationResult (List ℚ) :=
  match s.idTracker.internalId pointId with
  | none => .error (.pointIdError pointId)
  | some internalId =>
    if (s.config.lookup vectorName).isNone then .error (.vectorNameNotExists vectorName)
    else if s.idTracker.isDeleted internalId then
      .error (.serviceError ("Vector " ++ vectorName ++ " not found at offset " ++ toString internalId))
    else .ok ((((s.vectorData.lookup vectorName).getD []).getD internalId []))

/-- `all_vectors`: the point's vector of every stored name. -/
def allVectors (s : Segment) (pointId : ExtendedPointId) : OperationResult NamedVectors :=
  s.vectorData.mapM fun e => (s.vector e.1 pointId).map (e.1, ·)

/-- `read_range`: the external ids from `from`, below `to`. -/
def readRange (s : Segment) (from_ to_ : Option ExtendedPointId) : List ExtendedPointId :=
  let ids := (s.idTracker.iterFrom from_).map Prod.fst
  match to_ with
  | none => ids
  | some toId => ids.takeWhile (· < toId)

/-- `filtered_read_by_index`: the smallest `limit` external ids of `query_points` from
`offset`, sorted.  (The ids are distinct, so the smallest of a bounded heap, sorted, are the
first of the sorted ids.) -/
def filteredReadByIndex (s : Segment) (offset : Option ExtendedPointId) (limit : Option ℕ)
    (condition : Filter) : Option (List ExtendedPointId) :=
  (s.payloadIndex.queryPoints env condition).map fun points =>
    let ids := points.filterMap fun internalId =>
      (s.idTracker.externalId internalId).bind fun externalId =>
        if offset.any (externalId < ·) then none else some externalId
    let sorted := ids.insertionSort (· ≤ ·)
    match limit with
    | some limit => sorted.take limit
    | none => sorted

/-- `filtered_read_by_id_stream`: the ids from `offset` that the filter context accepts. -/
def filteredReadByIdStream (s : Segment) (offset : Option ExtendedPointId) (limit : Option ℕ)
    (condition : Filter) : Option (List ExtendedPointId) :=
  (s.payloadIndex.structFilteredContext env condition).map fun check =>
    let ids := ((s.idTracker.iterFrom offset).filter fun e => check e.2).map Prod.fst
    match limit with
    | some limit => ids.take limit
    | none => ids

/-- `read_filtered`: without a filter, the ids from `offset`; with one, the cheaper of the
two reads by the estimated number of checks. -/
def readFiltered (s : Segment) (offset : Option ExtendedPointId) (limit : Option ℕ)
    (filter : Option Filter) : Option (List ExtendedPointId) :=
  match filter with
  | none =>
    let ids := (s.idTracker.iterFrom offset).map Prod.fst
    some (match limit with | some limit => ids.take limit | none => ids)
  | some condition => (s.payloadIndex.estimateCardinality env condition).bind fun qc =>
    let totalPoints := s.pointsCount + 1
    let checkProbability : ℚ := ((qc.exp : ℚ) + 1) / totalPoints
    let expStreamChecks := ⌊(limit.getD totalPoints : ℚ) / checkProbability⌋₊
    if qc.max < expStreamChecks then s.filteredReadByIndex env offset limit condition
    else s.filteredReadByIdStream env offset limit condition

/-- `delete_filtered`: every point `read_filtered` finds is deleted. -/
def deleteFiltered (s : Segment) (opNum : ℕ) (filter : Filter) : OperationResult (ℕ × Segment) :=
  (ofPanic (s.readFiltered env none none (some filter))).bind fun points =>
    points.foldlM (fun (acc : ℕ × Segment) pointId =>
      (acc.2.deletePoint env opNum pointId).map fun r => (acc.1 + if r.1 then 1 else 0, r.2))
      (0, s)

/-! ## 3. Field indexes -/

/-- `value_type`. -/
def valueType : Value → Option PayloadSchemaType
  | .number n => match n with
    | .posInt k => if (k : ℤ) ≤ i64Max then some .integer else none
    | .negInt _ => some .integer
    | .float _ => some .float
  | .string _ => some .keyword
  | .object obj =>
    match (obj.lookup "lon").bind Value.asF64, (obj.lookup "lat").bind Value.asF64 with
    | some _, some _ => some .geo
    | _, _ => none
  | _ => none

/-- `infer_collection_value_type`: the one type all values have. -/
def inferCollectionValueType (values : List Value) : Option PayloadSchemaType :=
  match (values.map valueType).eraseDups with
  | [t] => t
  | _ => none

/-- `infer_value_type`. -/
def inferValueType : Value → Option PayloadSchemaType
  | .array values => inferCollectionValueType values
  | v => valueType v

/-- `infer_payload_type`: read from the first stored payload only, since the callback stops
the iteration. -/
def inferPayloadType (s : Segment) (key : String) : Option PayloadSchemaType :=
  match s.payloadIndex.payload.iter with
  | [] => none
  | (_, payload) :: _ => match payload.getValue key with
    | .single value => value.bind inferValueType
    | .multiple values => inferCollectionValueType values

/-- `create_field_index`: a segment-wide operation. -/
def createFieldIndex (s : Segment) (opNum : ℕ) (key : String)
    (fieldType : Option PayloadSchemaType) : OperationResult (Bool × Segment) :=
  s.handleVersion opNum none fun s =>
    let schema := match fieldType with
      | some schema => some schema
      | none => s.inferPayloadType key
    match schema with
    | none => .error (.typeInferenceError key)
    | some schema => (ofPanic (s.payloadIndex.setIndexed env key schema)).map fun payloadIndex =>
        (true, none, { s with payloadIndex })

/-- `delete_field_index`. -/
def deleteFieldIndex (s : Segment) (opNum : ℕ) (key : String) : OperationResult (Bool × Segment) :=
  s.handleVersion opNum none fun s =>
    .ok (true, none, { s with payloadIndex := s.payloadIndex.dropIndex key })

/-! ## 4. The version rule -/

/-- **An operation older than its point is skipped**, with the segment unchanged. -/
theorem handleVersion_skip (s : Segment) {opNum : ℕ} {offset : PointOffsetType} {v : ℕ}
    (hv : s.idTracker.internalVersion offset = some v) (hlt : opNum < v)
    (operation : Segment → OperationResult (Bool × Option PointOffsetType × Segment)) :
    s.handleVersion opNum (some offset) operation = .ok (false, s) := by
  simp [handleVersion, hv, hlt]

/-- Deleting a point the segment does not hold is a no-op, whatever the operation's number. -/
theorem deletePoint_absent (s : Segment) (opNum : ℕ) {pointId : ExtendedPointId}
    (h : s.hasPoint pointId = false) : s.deletePoint env opNum pointId = .ok (false, s) := by
  have hnone : s.idTracker.internalId pointId = none := by
    simpa [hasPoint] using h
  simp [deletePoint, hnone]

/-! ## 5. The two filtered reads -/

/-- **The two filtered reads disagree.**  One appendable segment with an integer index on `x`
gets point `0` with the payload `{"x": 1}`, by its own operations; the filter is `x < 1.5`,
which the stored payload satisfies.  `filtered_read_by_id_stream` checks every point and
returns it, while `filtered_read_by_index` starts from `query_points`, whose integer index
truncates the bound and finds nothing. -/
theorem filtered_reads_disagree :
    let env : Env := ⟨fun _ _ => 0, id, id, id, fun _ => true, fun _ => false, id, fun _ => 0,
      fun _ => "", fun _ _ => [], fun _ _ => []⟩
    let empty : Segment :=
      ⟨none, ⟨⟨[]⟩, IdTracker.empty, [], []⟩, [("", [])], [("", ⟨1, fun _ => none⟩)], true⟩
    let xBelow : FieldCondition := { key := "x", range := some { lt := some (mkRat 3 2) } }
    let q : Filter := { must := some [.field xBelow] }
    let s := (empty.createFieldIndex env 1 "x" (some .integer)).bind fun r =>
      (r.2.upsertVector 2 (.numId 0) [("", [1])]).bind fun r =>
        r.2.setPayload env 3 (.numId 0) ⟨[("x", .number (.posInt 1))], by decide⟩
    (s.toOption.bind fun r => (r.2.payload (.numId 0)).toOption.map
        (checkFieldCondition env xBelow)) = some true ∧
      (s.toOption.bind fun r => r.2.filteredReadByIdStream env none none q) = some [.numId 0] ∧
      (s.toOption.bind fun r => r.2.filteredReadByIndex env none none q) = some [] := by
  intro env empty xBelow q s
  refine ⟨?_, ?_, ?_⟩ <;> decide +kernel

/-! ## 6. Replaying operations -/

/-- **Replaying `set_payload` drops the null it stored.**  Point `0` is upserted at `1` and has
no payload; `set_payload` of `{"a": null}` at `2` stores it as given, since there is no payload
to merge into.  Replayed, the operation is applied again, as the point's version `2` does not
exceed it, and now merges into the stored payload; the merge removes a key set to null, so the
payload that held the key `a` after the run holds no key after the replay. -/
theorem replay_set_payload_drops_null :
    let env : Env := ⟨fun _ _ => 0, id, id, id, fun _ => true, fun _ => false, id, fun _ => 0,
      fun _ => "", fun _ _ => [], fun _ _ => []⟩
    let empty : Segment :=
      ⟨none, ⟨⟨[]⟩, IdTracker.empty, [], []⟩, [("", [])], [("", ⟨1, fun _ => none⟩)], true⟩
    let payload : Payload := ⟨[("a", .null)], by decide⟩
    let run := (empty.upsertVector 1 (.numId 0) [("", [1])]).bind fun r =>
      r.2.setPayload env 2 (.numId 0) payload
    let replayed := run.bind fun r => r.2.setPayload env 2 (.numId 0) payload
    (run.toOption.bind fun r => (r.2.payload (.numId 0)).toOption.map
        fun p => p.map.map Prod.fst) = some ["a"] ∧
      (replayed.toOption.bind fun r => (r.2.payload (.numId 0)).toOption.map
        fun p => p.map.map Prod.fst) = some [] := by
  intro env empty payload run replayed
  refine ⟨?_, ?_⟩ <;> decide +kernel

end Segment

end Qdrant
