/-
# Applying update operations to the segments

`collection_manager/segments_updater.rs` turns each request into calls on the segment
holder, and `collection_manager/collection_updater.rs` (`CollectionUpdater::update`)
dispatches a request and records it as failed when a service error stops it:

* deletes by id go through `apply_points`, every segment deleting the ids it holds;
* upserts and payload updates go through `apply_points_to_appendable`; an upsert then
  inserts the ids no segment held into one random appendable segment, and a payload update
  fails with `PointNotFound` on the first id no segment held;
* the `*_by_filter` variants first collect the ids every segment's `read_filtered` returns,
  and a delete by filter asks every segment to `delete_filtered`;
* index operations go to every segment.

`read_filtered` and `delete_filtered` answer from the payload index, so a delete by filter
removes the points the INDEX matches.  When the index is stale, that is not the points whose
payload matches: **`update_delete_by_filter_removes_unmatched`** runs four requests (create a
keyword index on `f`, upsert a point with `f = "a"`, set `f = 5` on it, delete by `f = "a"`)
and ends without the point, which the map semantics of `Collection.Operations` keeps.
-/
import Qdrant.Collection.SegmentHolder

namespace Qdrant

open StateExcept

/-! ## 1. Errors -/

/-- `CollectionError`, for the variants the update path and the shard code produce.  A
`BadInput` carries the segment error it formats (`badInput`) or the text `bad_input` was given
(`badInputText`). -/
inductive CollectionError where
  | badInput (error : OperationError)
  | pointNotFound (missedPointId : ExtendedPointId)
  | serviceError (error : String)
  | badRequest (description : String)
  | cancelled (description : String)
  | panic
  | notFound (what : String)
  | badInputText (description : String)
  | forwardProxyError (peerId : ℕ) (error : CollectionError)
deriving DecidableEq, Repr

/-- `From<OperationError> for CollectionError`. -/
def CollectionError.ofOperationError : OperationError → CollectionError
  | .wrongVector expectedDim receivedDim => .badInput (.wrongVector expectedDim receivedDim)
  | .vectorNameNotExists receivedName => .badInput (.vectorNameNotExists receivedName)
  | .missedVectorName receivedName => .badInput (.missedVectorName receivedName)
  | .pointIdError missedPointId => .pointNotFound missedPointId
  | .serviceError description => .serviceError description
  | .typeInferenceError fieldName => .badInput (.typeInferenceError fieldName)
  | .cancelled description => .cancelled description
  | .panic => .panic

/-- `CollectionResult`. -/
abbrev CollectionResult (α : Type) := Except CollectionError α

/-- A computation on the segments that fails with a `CollectionError`. -/
abbrev CollectionM := StateExcept SegmentHeap CollectionError

/-- A segment computation under `?`: its error converted. -/
def liftOperation {α : Type} (x : HeapM α) : CollectionM α :=
  StateExcept.mapError CollectionError.ofOperationError x

/-- `NamedVectors` compared as maps. -/
def namedVectorsEq (a b : NamedVectors) : Bool :=
  a.length == b.length && a.all fun e => b.lookup e.1 == some e.2

/-! ## 2. `segments_updater.rs` -/

namespace SegmentsUpdater

variable (env : Env) (holder : SegmentHolder)

/-- `check_unprocessed_points`: the first requested id that was not reached is an error. -/
def checkUnprocessedPoints (points processed : List ExtendedPointId) : CollectionResult ℕ :=
  match (points.filter (· ∉ processed)).head? with
  | none => .ok processed.length
  | some missedPoint => .error (.pointNotFound missedPoint)

/-- `delete_points`. -/
def deletePoints (opNum : ℕ) (ids : List ExtendedPointId) : CollectionM ℕ :=
  liftOperation (holder.applyPoints ids fun id _idx writeSegment =>
    writeSegment.deletePoint env opNum id)

/-- The payload updates by ids: `f` on every reached point, then every id must have been
reached. -/
def updatePayloadOfPoints (opNum : ℕ) (points : List ExtendedPointId)
    (f : ExtendedPointId → LockedSegment → HeapM Bool) : CollectionM ℕ := do
  let updatedPoints ← liftOperation (holder.applyPointsToAppendable env opNum points f)
  let _ ← liftExcept (checkUnprocessedPoints points updatedPoints)
  return updatedPoints.length

/-- `overwrite_payload`. -/
def overwritePayload (opNum : ℕ) (payload : Payload) (points : List ExtendedPointId) :
    CollectionM ℕ :=
  updatePayloadOfPoints env holder opNum points fun id writeSegment => do
    let _ ← writeSegment.setFullPayload env opNum id payload
    return true

/-- `set_payload`. -/
def setPayload (opNum : ℕ) (payload : Payload) (points : List ExtendedPointId) : CollectionM ℕ :=
  updatePayloadOfPoints env holder opNum points fun id writeSegment => do
    let _ ← writeSegment.setPayload env opNum id payload
    return true

/-- `delete_payload`: every key removed; the point counts as changed only if every removal
reports one. -/
def deletePayload (opNum : ℕ) (points : List ExtendedPointId) (keys : List String) :
    CollectionM ℕ :=
  updatePayloadOfPoints env holder opNum points fun id writeSegment =>
    keys.foldlM (fun res key => do
      let removed ← writeSegment.deletePayload env opNum id key
      return removed && res) true

/-- `clear_payload`. -/
def clearPayload (opNum : ℕ) (points : List ExtendedPointId) : CollectionM ℕ :=
  updatePayloadOfPoints env holder opNum points fun id writeSegment =>
    writeSegment.clearPayload env opNum id

/-- `points_by_filter`: the ids every segment's `read_filtered` returns. -/
def pointsByFilter (filter : Filter) : CollectionM (List ExtendedPointId) := do
  let h ← MonadStateOf.get
  holder.segments.foldlM (fun affectedPoints e => do
    let points ← liftOperation (liftExcept (Segment.ofPanic
      (e.2.readFiltered env h none none (some filter))))
    return affectedPoints ++ points) []

/-- `overwrite_payload_by_filter`. -/
def overwritePayloadByFilter (opNum : ℕ) (payload : Payload) (filter : Filter) : CollectionM ℕ := do
  let affectedPoints ← pointsByFilter env holder filter
  overwritePayload env holder opNum payload affectedPoints

/-- `set_payload_by_filter`. -/
def setPayloadByFilter (opNum : ℕ) (payload : Payload) (filter : Filter) : CollectionM ℕ := do
  let affectedPoints ← pointsByFilter env holder filter
  setPayload env holder opNum payload affectedPoints

/-- `delete_payload_by_filter`. -/
def deletePayloadByFilter (opNum : ℕ) (filter : Filter) (keys : List String) : CollectionM ℕ := do
  let affectedPoints ← pointsByFilter env holder filter
  deletePayload env holder opNum affectedPoints keys

/-- `clear_payload_by_filter`: no id can be missed, so none is checked. -/
def clearPayloadByFilter (opNum : ℕ) (filter : Filter) : CollectionM ℕ := do
  let pointsToClear ← pointsByFilter env holder filter
  let updatedPoints ← liftOperation (holder.applyPointsToAppendable env opNum pointsToClear
    fun id writeSegment => writeSegment.clearPayload env opNum id)
  return updatedPoints.length

/-- `create_field_index`. -/
def createFieldIndex (opNum : ℕ) (fieldName : String) (fieldSchema : Option PayloadSchemaType) :
    CollectionM ℕ :=
  liftOperation (holder.applySegments fun writeSegment =>
    writeSegment.createFieldIndex env opNum fieldName fieldSchema)

/-- `delete_field_index`. -/
def deleteFieldIndex (opNum : ℕ) (fieldName : String) : CollectionM ℕ :=
  liftOperation (holder.applySegments fun writeSegment =>
    writeSegment.deleteFieldIndex opNum fieldName)

/-- `upsert_with_payload`. -/
def upsertWithPayload (segment : LockedSegment) (opNum : ℕ) (pointId : ExtendedPointId)
    (vectors : NamedVectors) (payload : Option Payload) : HeapM Bool := do
  let res ← segment.upsertVector env opNum pointId vectors
  match payload with
  | some fullPayload =>
    let payloadSet ← segment.setFullPayload env opNum pointId fullPayload
    return res && payloadSet
  | none => return res

/-- The point of each id a request names last, as `HashMap` collection keeps it. -/
def pointsMap (points : List PointStruct) (id : ExtendedPointId) : Option PointStruct :=
  points.reverse.find? (·.id = id)

/-- `upsert_points`: the points some segment holds are updated where they are (moved out of a
non-appendable segment first); the others are inserted into the appendable segment `rng`
picks. -/
def upsertPoints (rng opNum : ℕ) (points : List PointStruct) : CollectionM ℕ := do
  let ids := (points.map (·.id)).eraseDups
  let updatedPoints ← liftOperation (holder.applyPointsToAppendable env opNum ids
    fun id writeSegment => match pointsMap points id with
      | some point => upsertWithPayload env writeSegment opNum id point.getVectors point.payload
      | none => throw .panic)
  let newPointIds := ids.filter (· ∉ updatedPoints)
  let some defaultWriteSegment := holder.randomAppendableSegment (← MonadStateOf.get) rng
    | throw (.serviceError "No segments exists, expected at least one")
  newPointIds.foldlM (fun res pointId => match pointsMap points pointId with
    | some point => do
      let inserted ← liftOperation
        (upsertWithPayload env defaultWriteSegment opNum pointId point.getVectors point.payload)
      return res + inserted.toNat
    | none => throw .panic) updatedPoints.length

/-- The stored points of a sync that differ from the requested ones, each time a segment
holding one is read. -/
def changedPoints (h : SegmentHeap) (existingPointIds : List ExtendedPointId)
    (idToPoint : ExtendedPointId → Option PointStruct) : CollectionResult (List PointStruct) :=
  holder.segments.foldlM (fun pointsToUpdate e =>
    (existingPointIds.filter (e.2.hasPoint h)).foldlM (fun pointsToUpdate id => do
      let allVectors ← (e.2.allVectors h id).mapError CollectionError.ofOperationError
      let payload ← (e.2.payload h id).mapError CollectionError.ofOperationError
      let some point := idToPoint id | throw .panic
      if !namedVectorsEq point.getVectors allVectors then return pointsToUpdate ++ [point]
      let payloadMatch := match point.payload with
        | some p => p.jsonEq payload
        | none => Payload.empty.jsonEq payload
      return if payloadMatch then pointsToUpdate else pointsToUpdate ++ [point]) pointsToUpdate) []

/-- `sync_points`: the stored points of the range that the request lacks are deleted, the
changed and the new ones upserted; the numbers deleted, new and updated. -/
def syncPoints (rng opNum : ℕ) (fromId toId : Option ExtendedPointId) (points : List PointStruct) :
    CollectionM (ℕ × ℕ × ℕ) := do
  let syncPointIds := (points.map (·.id)).eraseDups
  let h ← MonadStateOf.get
  let storedPointIds := (holder.segments.flatMap fun e => e.2.readRange h fromId toId).eraseDups
  let pointsToRemove := storedPointIds.filter (· ∉ syncPointIds)
  let deleted ← deletePoints env holder opNum pointsToRemove
  let existingPointIds := storedPointIds.filter (· ∈ syncPointIds)
  let pointsToUpdate ← liftExcept
    (changedPoints holder (← MonadStateOf.get) existingPointIds (pointsMap points))
  let newPoints := (syncPointIds.filter (· ∉ storedPointIds)).filterMap (pointsMap points)
  let _ ← upsertPoints env holder rng opNum (pointsToUpdate ++ newPoints)
  return (deleted, newPoints.length, pointsToUpdate.length)

/-- `delete_points_by_filter`: every segment deletes what its `delete_filtered` finds. -/
def deletePointsByFilter (opNum : ℕ) (filter : Filter) : CollectionM ℕ := do
  let deleted ← liftOperation (holder.segments.foldlM (fun deleted e => do
    let n ← e.2.deleteFiltered env opNum filter
    return deleted + n) 0)
  return deleted

/-- `process_point_operation`. -/
def processPointOperation (rng opNum : ℕ) : PointOperations → CollectionM ℕ
  | .deletePoints ids => deletePoints env holder opNum ids
  | .upsertPoints operation => upsertPoints env holder rng opNum operation.points
  | .deletePointsByFilter filter => deletePointsByFilter env holder opNum filter
  | .syncPoints operation => do
    let (deleted, new, updated) ←
      syncPoints env holder rng opNum operation.fromId operation.toId operation.points
    return deleted + new + updated

/-- The error of a payload request that names neither points nor a filter. -/
def noPointsOrFilter : CollectionError := .badRequest "No points or filter specified"

/-- `process_payload_operation`. -/
def processPayloadOperation (opNum : ℕ) : PayloadOps → CollectionM ℕ
  | .setPayload sp => match sp.points, sp.filter with
    | some points, _ => setPayload env holder opNum sp.payload points
    | none, some filter => setPayloadByFilter env holder opNum sp.payload filter
    | none, none => throw noPointsOrFilter
  | .deletePayload dp => match dp.points, dp.filter with
    | some points, _ => deletePayload env holder opNum points dp.keys
    | none, some filter => deletePayloadByFilter env holder opNum filter dp.keys
    | none, none => throw noPointsOrFilter
  | .clearPayload points => clearPayload env holder opNum points
  | .clearPayloadByFilter filter => clearPayloadByFilter env holder opNum filter
  | .overwritePayload sp => match sp.points, sp.filter with
    | some points, _ => overwritePayload env holder opNum sp.payload points
    | none, some filter => overwritePayloadByFilter env holder opNum sp.payload filter
    | none, none => throw noPointsOrFilter

/-- `process_field_index_operation`. -/
def processFieldIndexOperation (opNum : ℕ) : FieldIndexOperations → CollectionM ℕ
  | .createIndex indexData =>
    createFieldIndex env holder opNum indexData.fieldName indexData.fieldSchema
  | .deleteIndex fieldName => deleteFieldIndex holder opNum fieldName

end SegmentsUpdater

/-! ## 3. `CollectionUpdater::update` -/

/-- The segment holder and the segments it points to. -/
structure Store where
  holder : SegmentHolder
  heap : SegmentHeap

namespace CollectionUpdater

variable (env : Env)

/-- `handle_update_result`: a success clears the operation's failure, a service error
records it; other errors only decline the request. -/
def handleUpdateResult (holder : SegmentHolder) (opNum : ℕ) :
    CollectionResult ℕ → SegmentHolder
  | .ok _ => { holder with failedOperation := holder.failedOperation.filter (· ≠ opNum) }
  | .error (.serviceError _) =>
    { holder with failedOperation :=
        if opNum ∈ holder.failedOperation then holder.failedOperation
        else holder.failedOperation ++ [opNum] }
  | .error _ => holder

/-- `CollectionUpdater::update`; `rng` is the random number an upsert picks its segment by. -/
def update (rng : ℕ) (st : Store) (opNum : ℕ) (operation : CollectionUpdateOperations) :
    CollectionResult ℕ × Store :=
  let run := match operation with
    | .pointOperation pointOperation =>
      SegmentsUpdater.processPointOperation env st.holder rng opNum pointOperation
    | .payloadOperation payloadOperation =>
      SegmentsUpdater.processPayloadOperation env st.holder opNum payloadOperation
    | .fieldIndexOperation indexOperation =>
      SegmentsUpdater.processFieldIndexOperation env st.holder opNum indexOperation
  let (operationResult, heap) := run.run st.heap
  (operationResult, ⟨handleUpdateResult st.holder opNum operationResult, heap⟩)

/-- The update worker: operations applied one after another, each with its own number and
random choice. -/
def applyAll (st : Store) : List (ℕ × ℕ × CollectionUpdateOperations) → Store
  | [] => st
  | (rng, opNum, operation) :: rest => applyAll (update env rng st opNum operation).2 rest

end CollectionUpdater

/-! ## 4. A delete by filter follows the index, not the payload -/

/-- **A stale index deletes a point whose payload does not match.**  One appendable segment
with one vector of size one; a keyword index on `f`; a point upserted with `f = "a"`; then
`f = 5`, which the keyword index cannot hold, so it keeps `"a"`; then a delete by
`f = "a"`.  The holder ends without the point, while the map semantics, in which the point's
payload `f = 5` does not match, keeps it. -/
theorem update_delete_by_filter_removes_unmatched :
    let env : Env := ⟨fun _ _ => 0, id, id, id, fun _ => true, fun _ => false, id, fun _ => 0,
      fun _ => "", fun _ _ => [], fun _ _ => []⟩
    let segment : Segment :=
      ⟨none, ⟨⟨[]⟩, IdTracker.empty, [], []⟩, [("", [])], [("", ⟨1, fun _ => none⟩)], true⟩
    let st : Store := ⟨⟨[(0, .original 0)], by decide, []⟩,
      ⟨fun _ => segment, fun _ => [], fun _ => [], fun _ => []⟩⟩
    let isA : Filter := { must := some [.field { key := "f", «match» := some (.value (.keyword "a")) }] }
    let ops : List (ℕ × ℕ × CollectionUpdateOperations) :=
      [(0, 1, .fieldIndexOperation (.createIndex ⟨"f", some .keyword⟩)),
       (0, 2, .pointOperation (.upsertPoints (.pointsList
          [⟨.numId 0, .single [1], some ⟨[("f", .string "a")], by decide⟩⟩]))),
       (0, 3, .payloadOperation (.setPayload
          ⟨⟨[("f", .number (.posInt 5))], by decide⟩, some [.numId 0], none⟩)),
       (0, 4, .pointOperation (.deletePointsByFilter isA))]
    let final := CollectionUpdater.applyAll env st ops
    (final.holder.content final.heap (.numId 0)).isSome = false ∧
      (ops.foldl (fun c op => Content.apply env c op.2.2) (fun _ => none) (.numId 0)).isSome =
        true := by
  intro env segment st isA ops final
  constructor
  · decide +kernel
  · decide +kernel

/-! ## 5. A sync does not clear a payload -/

/-- **A sync leaves the payload a point without one should lose.**  One appendable segment; a
first sync stores point 1 with `[1]` and `{"a": 1}`; a second sync names point 1 with the same
vector and no payload.  `sync_points` compares a missing payload with the empty one, finds the
point changed and counts it as updated, but `upsert_with_payload` writes a payload only when one
is given: the point keeps `{"a": 1}`. -/
theorem sync_keeps_payload_of_unpayloaded_point :
    let env : Env := ⟨fun _ _ => 0, id, id, id, fun _ => true, fun _ => false, id, fun _ => 0,
      fun _ => "", fun _ _ => [], fun _ _ => []⟩
    let segment : Segment :=
      ⟨none, ⟨⟨[]⟩, IdTracker.empty, [], []⟩, [("", [])], [("", ⟨1, fun _ => none⟩)], true⟩
    let holder : SegmentHolder := ⟨[(0, .original 0)], by decide, []⟩
    let h : SegmentHeap := ⟨fun _ => segment, fun _ => [], fun _ => [], fun _ => []⟩
    let payload : Payload := ⟨[("a", .number (.posInt 1))], by decide⟩
    let first := (SegmentsUpdater.syncPoints env holder 0 1 none none
      [⟨.numId 1, .single [1], some payload⟩]).run h
    let second :=
      (SegmentsUpdater.syncPoints env holder 0 2 none none [⟨.numId 1, .single [1], none⟩]).run first.2
    second.1.toOption = some (0, 0, 1) ∧
      (holder.content second.2 (.numId 1)).map (·.vectors) = some [("", [1])] ∧
      (holder.content second.2 (.numId 1)).map (·.payload.jsonEq payload) = some true := by
  intro env segment holder h payload first second
  refine ⟨?_, ?_, ?_⟩ <;> decide +kernel

end Qdrant
