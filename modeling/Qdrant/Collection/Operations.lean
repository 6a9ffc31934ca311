/-
# Collection update operations and what they mean

`operations/point_ops.rs`, `operations/payload_ops.rs` and `operations/mod.rs` define the
requests a shard applies (`CollectionUpdateOperations`).  This module gives them as data,
with the conversions of a request's vectors to `NamedVectors`, and states what a shard is
for: its **logical content** is a map from point id to the point's vectors and payload, and
each request is a map operation on it (`Content.apply`):

* an upsert sets each id's vectors, and its payload when one is given (an existing point
  without one keeps its payload, a new one gets the empty payload); of two points of one
  request with the same id, the later wins;
* a delete by ids or by filter removes the ids, or exactly the ids whose content satisfies
  the filter;
* `set_payload` merges the given keys into each point's payload, `overwrite_payload`
  replaces it, `delete_payload` removes keys, `clear_payload` empties it, for the listed
  ids or for those whose content satisfies the filter;
* a sync makes the points with ids in its range exactly its own points;
* the field index operations do not change the content.

The segments that store the content are related to this map in `Collection.Updater`.
-/
import Qdrant.Segment.Segment

namespace Qdrant

open OrdMap

/-! ## 1. Requests -/

/-- `DEFAULT_VECTOR_NAME`. -/
def defaultVectorName : String := ""

/-- `VectorStruct`: one unnamed vector, or vectors by name. -/
inductive VectorStruct where
  | single (vector : List ℚ)
  | multi (vectors : List (String × List ℚ))

/-- `VectorStruct::into_all_vectors`, as `PointStruct::get_vectors` reads it. -/
def VectorStruct.intoAllVectors : VectorStruct → NamedVectors
  | .single v => [(defaultVectorName, v)]
  | .multi vs => vs.foldl (fun m e => OrdMap.insert e.1 e.2 m) []

/-- `PointStruct`. -/
structure PointStruct where
  id : ExtendedPointId
  vector : VectorStruct
  payload : Option Payload

/-- `PointStruct::get_vectors`. -/
def PointStruct.getVectors (p : PointStruct) : NamedVectors := p.vector.intoAllVectors

/-- `BatchVectorStruct`: one unnamed vector per record, or per name one vector per record. -/
inductive BatchVectorStruct where
  | single (vectors : List (List ℚ))
  | multi (vectors : List (String × List (List ℚ)))

/-- `transpose_map_into_named_vector`: each name resizes the records to its own number of
vectors (the last name decides how many there are) and adds its vector to each. -/
def transposeMapIntoNamedVector (map : List (String × List (List ℚ))) : List NamedVectors :=
  map.foldl (fun result e =>
    let resized := result.take e.2.length ++ List.replicate (e.2.length - result.length) []
    List.zipWith (fun named value => OrdMap.insert e.1 value named) resized e.2) []

/-- `BatchVectorStruct::into_all_vectors(num_records)`. -/
def BatchVectorStruct.intoAllVectors (numRecords : ℕ) : BatchVectorStruct → List NamedVectors
  | .single vectors => vectors.map fun v => [(defaultVectorName, v)]
  | .multi namedVectors =>
    if namedVectors.isEmpty then List.replicate numRecords [] else transposeMapIntoNamedVector namedVectors

/-- `Batch`. -/
structure Batch where
  ids : List ExtendedPointId
  vectors : BatchVectorStruct
  payloads : Option (List (Option Payload))

/-- `PointInsertOperations`. -/
inductive PointInsertOperations where
  | pointsBatch (batch : Batch)
  | pointsList (points : List PointStruct)

/-- The points of an insert request, as `process_point_operation` builds them: a batch is
zipped with its vectors and payloads, the shortest deciding the length. -/
def PointInsertOperations.points : PointInsertOperations → List PointStruct
  | .pointsBatch batch =>
    let vectorsIter := batch.ids.zip (batch.vectors.intoAllVectors batch.ids.length)
    match batch.payloads with
    | none => vectorsIter.map fun (id, vectors) => ⟨id, .multi vectors, none⟩
    | some payloads => (vectorsIter.zip payloads).map fun ((id, vectors), payload) =>
        ⟨id, .multi vectors, payload⟩
  | .pointsList points => points

/-- `PointSyncOperation`. -/
structure PointSyncOperation where
  fromId : Option ExtendedPointId
  toId : Option ExtendedPointId
  points : List PointStruct

/-- `PointOperations`. -/
inductive PointOperations where
  | upsertPoints (operation : PointInsertOperations)
  | deletePoints (ids : List ExtendedPointId)
  | deletePointsByFilter (filter : Filter)
  | syncPoints (operation : PointSyncOperation)

/-- `SetPayload`, also the body of `OverwritePayload`. -/
structure SetPayload where
  payload : Payload
  points : Option (List ExtendedPointId)
  filter : Option Filter

/-- `DeletePayload`. -/
structure DeletePayload where
  keys : List String
  points : Option (List ExtendedPointId)
  filter : Option Filter

/-- `PayloadOps`. -/
inductive PayloadOps where
  | setPayload (sp : SetPayload)
  | deletePayload (dp : DeletePayload)
  | clearPayload (points : List ExtendedPointId)
  | clearPayloadByFilter (filter : Filter)
  | overwritePayload (sp : SetPayload)

/-- `CreateIndex`; a schema with text-index parameters is not modelled. -/
structure CreateIndex where
  fieldName : String
  fieldSchema : Option PayloadSchemaType

/-- `FieldIndexOperations`. -/
inductive FieldIndexOperations where
  | createIndex (indexData : CreateIndex)
  | deleteIndex (fieldName : String)

/-- `CollectionUpdateOperations`. -/
inductive CollectionUpdateOperations where
  | pointOperation (operation : PointOperations)
  | payloadOperation (operation : PayloadOps)
  | fieldIndexOperation (operation : FieldIndexOperations)

/-! ## 2. The logical content of a shard -/

/-- What a shard holds for one point. -/
structure PointContent where
  vectors : NamedVectors
  payload : Payload

/-- The logical content: the points a shard holds. -/
abbrev Content := ExtendedPointId → Option PointContent

namespace Content

variable (env : Env)

/-- The last point of each id, in the order the ids first appear. -/
def lastOfEachId (points : List PointStruct) : List PointStruct :=
  (points.map (·.id)).eraseDups.filterMap fun id => (points.reverse.find? (·.id = id))

/-- One point upserted. -/
def upsertPoint (c : Content) (p : PointStruct) : Content :=
  Function.update c p.id (some ⟨p.getVectors, match p.payload with
    | some payload => payload
    | none => ((c p.id).map (·.payload)).getD Payload.empty⟩)

/-- The ids of `c` whose content satisfies `filter`. -/
def Satisfies (c : Content) (filter : Filter) (id : ExtendedPointId) : Bool :=
  match c id with
  | some pc => checkPayload env pc.payload (some id) filter
  | none => false

/-- The payload of the given ids changed by `f`; other ids, and absent ones, stay. -/
def mapPayload (c : Content) (ids : ExtendedPointId → Bool) (f : Payload → Payload) : Content :=
  fun id => (c id).map fun pc => if ids id then { pc with payload := f pc.payload } else pc

/-- The ids a payload request addresses: the listed ones, or those the filter selects. -/
def selected (c : Content) (points : Option (List ExtendedPointId)) (filter : Option Filter)
    (id : ExtendedPointId) : Bool :=
  match points, filter with
  | some points, _ => points.contains id
  | none, some filter => Satisfies env c filter id
  | none, none => false

/-- Whether an id lies in `[from, to)`. -/
def inRange (fromId toId : Option ExtendedPointId) (id : ExtendedPointId) : Bool :=
  fromId.all (· ≤ id) && toId.all (id < ·)

/-- **A request as a map operation.** -/
def apply (c : Content) : CollectionUpdateOperations → Content
  | .pointOperation (.upsertPoints operation) => (lastOfEachId operation.points).foldl upsertPoint c
  | .pointOperation (.deletePoints ids) => fun id => if ids.contains id then none else c id
  | .pointOperation (.deletePointsByFilter filter) =>
    fun id => if Satisfies env c filter id then none else c id
  | .pointOperation (.syncPoints operation) =>
    let kept : Content := fun id =>
      if inRange operation.fromId operation.toId id && !(operation.points.map (·.id)).contains id
      then none else c id
    (lastOfEachId operation.points).foldl upsertPoint kept
  | .payloadOperation (.setPayload sp) =>
    mapPayload c (selected env c sp.points sp.filter) fun p => p.merge sp.payload
  | .payloadOperation (.overwritePayload sp) =>
    mapPayload c (selected env c sp.points sp.filter) fun _ => sp.payload
  | .payloadOperation (.deletePayload dp) =>
    mapPayload c (selected env c dp.points dp.filter) fun p =>
      dp.keys.foldl (fun p key => (p.remove key).2) p
  | .payloadOperation (.clearPayload points) =>
    mapPayload c (fun id => points.contains id) fun _ => Payload.empty
  | .payloadOperation (.clearPayloadByFilter filter) =>
    mapPayload c (Satisfies env c filter) fun _ => Payload.empty
  | .fieldIndexOperation _ => c

end Content

end Qdrant
