/-
# Shared segments and the proxy segment

A `LockedSegment` is an `Arc<RwLock<..>>`: several holders of it see one segment.  The
optimiser builds on that sharing, so the model makes it explicit: a `SegmentHeap` holds
every segment in a CELL, and the sets the proxies share; a segment entry names its cell.
Operations on the heap are `HeapM` computations, which keep the writes they made before an
error, as the source's early returns do.

`collection_manager/holders/proxy_segment.rs` wraps a segment that is being optimised.  It
never writes to the wrapped segment: a point it writes is first MOVED to the shared write
segment (`move_if_exists` records it in the shared deleted set and copies it there), and a
point it deletes is only recorded in that set.  Reads combine the three parts: a point in the
deleted set is read from the write segment only, any other from the write segment first.

The deleted set is shared by every proxy of one optimisation, so it holds the points of
every wrapped segment.  **`points_count` subtracts the whole set**: a point deleted through a
sibling proxy lowers the count of every proxy (`pointsCount_sibling_delete`).
-/
import Qdrant.Segment.Segment
import Qdrant.Lib.StateExcept

namespace Qdrant

open OrdMap StateExcept

/-! ## 1. The heap of shared segments -/

/-- Every segment behind a lock, by cell, and the sets the proxies share, by set: deleted
points, created indexes with their schemas, deleted indexes. -/
structure SegmentHeap where
  cells : ℕ → Segment
  deletedSets : ℕ → List ExtendedPointId
  createdIndexSets : ℕ → List (String × PayloadSchemaType)
  deletedIndexSets : ℕ → List String

namespace SegmentHeap

/-- The segment of a cell, replaced. -/
def setCell (h : SegmentHeap) (cell : ℕ) (s : Segment) : SegmentHeap :=
  { h with cells := Function.update h.cells cell s }

/-- `HashSet::insert` into a shared set. -/
def insertDeleted (h : SegmentHeap) (sid : ℕ) (pointId : ExtendedPointId) : SegmentHeap :=
  let set := h.deletedSets sid
  { h with
    deletedSets := Function.update h.deletedSets sid (if pointId ∈ set then set else set ++ [pointId]) }

/-- The index sets of a proxy, updated as `created_indexes` and `deleted_indexes` are. -/
def modifyIndexSets (h : SegmentHeap) (created deleted : ℕ)
    (f : List (String × PayloadSchemaType) → List (String × PayloadSchemaType))
    (g : List String → List String) : SegmentHeap :=
  { h with
    createdIndexSets := Function.update h.createdIndexSets created (f (h.createdIndexSets created))
    deletedIndexSets := Function.update h.deletedIndexSets deleted (g (h.deletedIndexSets deleted)) }

@[simp] theorem setCell_cells_self (h : SegmentHeap) (cell : ℕ) (s : Segment) :
    (h.setCell cell s).cells cell = s := by
  simp [setCell]

@[simp] theorem setCell_cells_ne (h : SegmentHeap) {cell cell' : ℕ} (s : Segment)
    (hne : cell' ≠ cell) : (h.setCell cell s).cells cell' = h.cells cell' := by
  simp [setCell, hne]

@[simp] theorem setCell_deletedSets (h : SegmentHeap) (cell : ℕ) (s : Segment) :
    (h.setCell cell s).deletedSets = h.deletedSets := rfl

@[simp] theorem setCell_self (h : SegmentHeap) (cell : ℕ) : h.setCell cell (h.cells cell) = h := by
  simp [setCell]

@[simp] theorem insertDeleted_cells (h : SegmentHeap) (sid : ℕ) (pointId : ExtendedPointId) :
    (h.insertDeleted sid pointId).cells = h.cells := rfl

end SegmentHeap

/-- A computation on the shared segments. -/
abbrev HeapM := StateExcept SegmentHeap OperationError

/-- A segment operation on the segment of a cell: the cell is replaced when it succeeds. -/
def onCell {α : Type} (cell : ℕ) (op : Segment → OperationResult (α × Segment)) : HeapM α :=
  fun h => match op (h.cells cell) with
    | .ok (a, s) => (.ok a, h.setCell cell s)
    | .error e => (.error e, h)

theorem run_onCell_of_ok {α : Type} {cell : ℕ} {op : Segment → OperationResult (α × Segment)}
    {h : SegmentHeap} {a : α} {s : Segment} (hop : op (h.cells cell) = .ok (a, s)) :
    (onCell cell op).run h = (.ok a, h.setCell cell s) := by
  simp only [run, onCell, hop]

/-! ## 2. The proxy segment -/

/-- `ProxySegment`: the cells of its write and wrapped segments, and its shared sets.  Its
`last_flushed_version` only serves its own `flush`, which is not modelled. -/
structure ProxySegment where
  writeSegment : ℕ
  wrappedSegment : ℕ
  deletedPoints : ℕ
  deletedIndexes : ℕ
  createdIndexes : ℕ
deriving DecidableEq, Repr

namespace ProxySegment

variable (env : Env) (p : ProxySegment)

/-- The write segment. -/
def write (h : SegmentHeap) : Segment := h.cells p.writeSegment

/-- The wrapped segment. -/
def wrapped (h : SegmentHeap) : Segment := h.cells p.wrappedSegment

/-- The shared deleted set. -/
def deleted (h : SegmentHeap) : List ExtendedPointId := h.deletedSets p.deletedPoints

/-- `move_if_exists`: a point of the wrapped segment that is not yet moved is recorded as
deleted, then copied into the write segment. -/
def moveIfExists (opNum : ℕ) (pointId : ExtendedPointId) : HeapM Bool := do
  let h ← get
  if pointId ∈ p.deleted h then return false
  if !(p.wrapped h).hasPoint pointId then return false
  let allVectors ← liftExcept ((p.wrapped h).allVectors pointId)
  let payload ← liftExcept ((p.wrapped h).payload pointId)
  modify (·.insertDeleted p.deletedPoints pointId)
  let _ ← onCell p.writeSegment (·.upsertVector opNum pointId allVectors)
  let _ ← onCell p.writeSegment (·.setFullPayload env opNum pointId payload)
  return true

/-- The point operations that write: move the point, then apply to the write segment. -/
def moveThen (opNum : ℕ) (pointId : ExtendedPointId)
    (op : Segment → OperationResult (Bool × Segment)) : HeapM Bool := do
  let _ ← p.moveIfExists env opNum pointId
  onCell p.writeSegment op

/-- `upsert_vector`. -/
def upsertVector (opNum : ℕ) (pointId : ExtendedPointId) (vectors : NamedVectors) : HeapM Bool :=
  p.moveThen env opNum pointId (·.upsertVector opNum pointId vectors)

/-- `set_full_payload`. -/
def setFullPayload (opNum : ℕ) (pointId : ExtendedPointId) (fullPayload : Payload) : HeapM Bool :=
  p.moveThen env opNum pointId (·.setFullPayload env opNum pointId fullPayload)

/-- `set_payload`. -/
def setPayload (opNum : ℕ) (pointId : ExtendedPointId) (payload : Payload) : HeapM Bool :=
  p.moveThen env opNum pointId (·.setPayload env opNum pointId payload)

/-- `delete_payload`. -/
def deletePayload (opNum : ℕ) (pointId : ExtendedPointId) (key : String) : HeapM Bool :=
  p.moveThen env opNum pointId (·.deletePayload env opNum pointId key)

/-- `clear_payload`. -/
def clearPayload (opNum : ℕ) (pointId : ExtendedPointId) : HeapM Bool :=
  p.moveThen env opNum pointId (·.clearPayload env opNum pointId)

/-- `delete_point`: a point of the wrapped segment is only recorded as deleted. -/
def deletePoint (opNum : ℕ) (pointId : ExtendedPointId) : HeapM Bool := do
  let h ← get
  let wasDeleted := (p.wrapped h).hasPoint pointId
  if wasDeleted then modify (·.insertDeleted p.deletedPoints pointId)
  let wasDeletedInWritable ← onCell p.writeSegment (·.deletePoint env opNum pointId)
  return wasDeleted || wasDeletedInWritable

/-- `delete_filtered`: the wrapped segment's matches are recorded as deleted, the write
segment deletes its own. -/
def deleteFiltered (opNum : ℕ) (filter : Filter) : HeapM ℕ := do
  let h ← get
  let pointsToDelete ←
    liftExcept (Segment.ofPanic ((p.wrapped h).readFiltered env none none (some filter)))
  modify fun h => pointsToDelete.foldl (fun h pointId => h.insertDeleted p.deletedPoints pointId) h
  let deletedInWritable ← onCell p.writeSegment (·.deleteFiltered env opNum filter)
  return pointsToDelete.length + deletedInWritable

/-- `has_point`. -/
def hasPoint (h : SegmentHeap) (pointId : ExtendedPointId) : Bool :=
  if pointId ∈ p.deleted h then (p.write h).hasPoint pointId
  else (p.write h).hasPoint pointId || (p.wrapped h).hasPoint pointId

/-- `points_count`: both segments' counts, less the shared deleted set, saturating. -/
def pointsCount (h : SegmentHeap) : ℕ :=
  (p.wrapped h).pointsCount + (p.write h).pointsCount - (p.deleted h).length

/-- `point_version`: the write segment's first. -/
def pointVersion (h : SegmentHeap) (pointId : ExtendedPointId) : Option ℕ :=
  ((p.write h).pointVersion pointId).or ((p.wrapped h).pointVersion pointId)

/-- The segment a read of a point goes to: the write segment for a moved point or one it
holds, the wrapped segment otherwise. -/
def readSegment (h : SegmentHeap) (pointId : ExtendedPointId) : Segment :=
  if pointId ∈ p.deleted h then p.write h
  else if (p.write h).hasPoint pointId then p.write h
  else p.wrapped h

/-- `payload`. -/
def payload (h : SegmentHeap) (pointId : ExtendedPointId) : OperationResult Payload :=
  (p.readSegment h pointId).payload pointId

/-- `vector`. -/
def vector (h : SegmentHeap) (vectorName : String) (pointId : ExtendedPointId) :
    OperationResult (List ℚ) :=
  (p.readSegment h pointId).vector vectorName pointId

/-- `all_vectors`: the vector of every name the wrapped segment is configured with. -/
def allVectors (h : SegmentHeap) (pointId : ExtendedPointId) : OperationResult NamedVectors :=
  (p.wrapped h).config.mapM fun c => (p.vector h c.1 pointId).map (c.1, ·)

/-- `version`. -/
def version (h : SegmentHeap) : ℕ := max (p.wrapped h).currentVersion (p.write h).currentVersion

/-- `add_deleted_points_condition_to_filter`: a `must_not` on the deleted ids. -/
def addDeletedPointsConditionToFilter (filter : Option Filter)
    (deletedPoints : List ExtendedPointId) : Filter :=
  let wrapperCondition : Condition := .hasId deletedPoints
  match filter with
  | none => { mustNot := some [wrapperCondition] }
  | some f => { f with mustNot := some ((f.mustNot.getD []) ++ [wrapperCondition]) }

/-- `read_filtered`: the wrapped segment's ids without the deleted ones, then the write
segment's, each read with the limit, sorted. -/
def readFiltered (h : SegmentHeap) (offset : Option ExtendedPointId) (limit : Option ℕ)
    (filter : Option Filter) : Option (List ExtendedPointId) :=
  let wrappedFilter := if (p.deleted h).isEmpty then filter
    else some (addDeletedPointsConditionToFilter filter (p.deleted h))
  ((p.wrapped h).readFiltered env offset limit wrappedFilter).bind fun readPoints =>
  ((p.write h).readFiltered env offset limit filter).map fun writePoints =>
    (readPoints ++ writePoints).insertionSort (· ≤ ·)

/-- `read_range`. -/
def readRange (h : SegmentHeap) (from_ to_ : Option ExtendedPointId) : List ExtendedPointId :=
  (((p.wrapped h).readRange from_ to_).filter (· ∉ p.deleted h) ++
    (p.write h).readRange from_ to_).insertionSort (· ≤ ·)

/-- `get_indexed_fields`: the wrapped segment's, then the created ones over them, less the
deleted ones. -/
def getIndexedFields (h : SegmentHeap) : List (String × PayloadSchemaType) :=
  ((p.wrapped h).payloadIndex.indexedFields ++ h.createdIndexSets p.createdIndexes).foldl
      (fun m e => OrdMap.insert e.1 e.2 m) []
    |>.filter fun e => e.1 ∉ h.deletedIndexSets p.deletedIndexes

/-- `delete_field_index`: refused below the proxy's version; the key moves to the deleted
indexes before the write segment drops it. -/
def deleteFieldIndex (opNum : ℕ) (key : String) : HeapM Bool := do
  if opNum < p.version (← get) then return false
  modify fun h => h.modifyIndexSets p.createdIndexes p.deletedIndexes (OrdMap.erase key)
    fun set => if key ∈ set then set else set ++ [key]
  onCell p.writeSegment (·.deleteFieldIndex opNum key)

/-- `create_field_index`: refused below the proxy's version; the write segment builds the
index, and the schema it settled on moves to the created indexes. -/
def createFieldIndex (opNum : ℕ) (key : String) (fieldSchema : Option PayloadSchemaType) :
    HeapM Bool := do
  if opNum < p.version (← get) then return false
  let _ ← onCell p.writeSegment (·.createFieldIndex env opNum key fieldSchema)
  match OrdMap.get? key (p.write (← get)).payloadIndex.indexedFields with
  | none => return false
  | some schema =>
    modify fun h => h.modifyIndexSets p.createdIndexes p.deletedIndexes
      (OrdMap.insert key schema) (List.filter (· ≠ key))
    return true

/-- `replicate_field_indexes`: the write segment given the wrapped segment's indexes, those it
has with another schema rebuilt, and those the wrapped segment lacks dropped; both lists
are read once, before any change. -/
def replicateFieldIndexes (opNum : ℕ) : HeapM Unit := do
  let h ← get
  let existingIndexes := (p.write h).payloadIndex.indexedFields
  let expectedIndexes := (p.wrapped h).payloadIndex.indexedFields
  expectedIndexes.forM fun (expectedField, expectedSchema) => do
    let existingSchema := OrdMap.get? expectedField existingIndexes
    if existingSchema ≠ some expectedSchema then
      if existingSchema.isSome then
        let _ ← onCell p.writeSegment (·.deleteFieldIndex opNum expectedField)
      let _ ← onCell p.writeSegment (·.createFieldIndex env opNum expectedField (some expectedSchema))
  existingIndexes.forM fun (existingField, _) => do
    if (OrdMap.get? existingField expectedIndexes).isNone then
      let _ ← onCell p.writeSegment (·.deleteFieldIndex opNum existingField)

end ProxySegment

/-! ## 3. What a proxy reports -/

namespace ProxySegment

variable (env : Env) (p : ProxySegment)

/-- Deleting through a proxy a point of its wrapped segment that its write segment does not
hold only records the point in the shared set. -/
theorem run_deletePoint_of_wrapped {h : SegmentHeap} (opNum : ℕ) {pointId : ExtendedPointId}
    (hin : (p.wrapped h).hasPoint pointId = true)
    (hfresh : (p.write h).hasPoint pointId = false) :
    (p.deletePoint env opNum pointId).run h = (.ok true, h.insertDeleted p.deletedPoints pointId) := by
  have hwrite : (h.insertDeleted p.deletedPoints pointId).cells p.writeSegment = p.write h := rfl
  have hdel : (onCell p.writeSegment (·.deletePoint env opNum pointId)).run
      (h.insertDeleted p.deletedPoints pointId) =
        (.ok false, h.insertDeleted p.deletedPoints pointId) := by
    rw [run_onCell_of_ok (Segment.deletePoint_absent env _ opNum (hwrite ▸ hfresh))]
    -- the write segment is put back as it was
    exact congrArg (Prod.mk _) (SegmentHeap.setCell_self _ _)
  simp only [deletePoint, run_bind, run_get, hin, if_true, run_modify, hdel]
  rfl

/-- **A sibling's delete lowers the count**: two proxies share a write segment and a deleted
set; deleting through the second a point of its own wrapped segment leaves the first
proxy's segments as they were, but adds the point to the set the first subtracts. -/
theorem pointsCount_sibling_delete {q : ProxySegment} (hshare : q.deletedPoints = p.deletedPoints)
    (hwrite : q.writeSegment = p.writeSegment) {h : SegmentHeap} (opNum : ℕ)
    {pointId : ExtendedPointId} (hin : (q.wrapped h).hasPoint pointId = true)
    (hfresh : (p.write h).hasPoint pointId = false) (hnew : pointId ∉ p.deleted h) :
    ∃ h', (q.deletePoint env opNum pointId).run h = (.ok true, h') ∧ p.wrapped h' = p.wrapped h ∧
      p.write h' = p.write h ∧ p.pointsCount h' = p.pointsCount h - 1 := by
  have hfresh' : (q.write h).hasPoint pointId = false := by
    rw [write, hwrite]
    exact hfresh
  refine ⟨h.insertDeleted q.deletedPoints pointId,
    q.run_deletePoint_of_wrapped env opNum hin hfresh', rfl, rfl, ?_⟩
  -- the shared set grows by the point, the segments stay
  have hset : p.deleted (h.insertDeleted q.deletedPoints pointId) = p.deleted h ++ [pointId] := by
    have hnew' : pointId ∉ h.deletedSets p.deletedPoints := hnew
    simp [deleted, SegmentHeap.insertDeleted, hshare, hnew']
  unfold pointsCount
  rw [hset, List.length_append, List.length_singleton, Nat.sub_add_eq]
  rfl

/-- The count of the first proxy drops below the points it reports: two proxies of one
optimisation wrap the segments holding points 1 and 2; after point 2 is deleted through the
second, the first still has point 1 but counts no point, where a plain segment holding
point 1 counts one. -/
theorem pointsCount_below_hasPoint :
    let single (n : ℕ) : Segment :=
      ⟨none, ⟨⟨[]⟩, IdTracker.empty.setLink (.numId n) 0, [], []⟩, [], [], true⟩
    let h : SegmentHeap :=
      ⟨fun c => if c = 0 then single 1 else if c = 1 then single 2
        else ⟨none, ⟨⟨[]⟩, IdTracker.empty, [], []⟩, [], [], true⟩,
        fun _ => [], fun _ => [], fun _ => []⟩
    let a : ProxySegment := ⟨2, 0, 0, 0, 0⟩
    let b : ProxySegment := ⟨2, 1, 0, 0, 0⟩
    (fun r => (r.1, a.pointsCount r.2, a.hasPoint r.2 (.numId 1)))
        ((b.deletePoint env 1 (.numId 2)).run h) = (.ok true, 0, true) ∧
      (single 1).pointsCount = 1 ∧ (single 1).hasPoint (.numId 1) = true := by
  intro single h a b
  exact ⟨rfl, rfl, rfl⟩

end ProxySegment

end Qdrant
