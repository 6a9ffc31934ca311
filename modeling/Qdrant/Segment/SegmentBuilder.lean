/-
# Building a segment out of others

`segment_constructor/segment_builder.rs` fills a new, empty segment from the segments an
optimisation merges.  `update_from` appends the vectors of every live point of the other
segment, then links each point to its new offset unless the new segment already holds a
copy of it that is at least as new: **of two copies of a point, the newer one wins**, and
its version and payload come with it.  `build` then creates the indexes the merged segments
had.

Building the vector index, the quantization, the flush and the move of the files into the
collection directory change nothing the model observes and are left out.
-/
import Qdrant.Segment.Segment

namespace Qdrant

open OrdMap

/-- `SegmentBuilder`: the segment under construction and the indexes it will get. -/
structure SegmentBuilder where
  segment : Segment
  indexedFields : List (String × PayloadSchemaType)

namespace SegmentBuilder

variable (env : Env)

/-- The vector storages' `update_from`: for each name of the new segment, the other
segment's vectors of its live points appended; the offsets they took, which every name must
agree on. -/
def updateVectorsFrom (stopped : Bool) (self other : Segment) :
    OperationResult (List (String × List (List ℚ)) × Option (ℕ × ℕ)) :=
  if self.vectorData.length ≠ other.vectorData.length then
    .error (.serviceError ("Self and other segments have different vector names count. Self count: "
      ++ toString self.vectorData.length ++ ", other count: " ++ toString other.vectorData.length))
  else
    self.vectorData.foldlM (fun (acc : List (String × List (List ℚ)) × Option (ℕ × ℕ)) e => do
      Segment.checkProcessStopped stopped
      let some otherVectors := other.vectorData.lookup e.1
        | .error (.serviceError
            ("Cannot update from other segment because if missing vector name " ++ e.1))
      let updated := e.2 ++ other.idTracker.iterIds.map (otherVectors.getD · [])
      let internalRange := (e.2.length, updated.length)
      match acc.2 with
      | some range =>
        if range ≠ internalRange then
          .error (.serviceError
            "Internal ids range mismatch between self segment vectors and other segment vectors")
        else .ok (acc.1 ++ [(e.1, updated)], acc.2)
      | none => .ok (acc.1 ++ [(e.1, updated)], some internalRange)) ([], none)

/-- One point of the other segment, at its new offset: linked when the new segment lacks it,
relinked when the other copy is newer, skipped otherwise. -/
def mergePoint (other s : Segment) (ids : ℕ × PointOffsetType) : OperationResult Segment :=
  let newInternalId := ids.1
  let oldInternalId := ids.2
  match other.idTracker.externalId oldInternalId with
  | none => .ok s
  | some externalId => do
    let otherVersion ← Segment.ofPanic (other.idTracker.internalVersion oldInternalId)
    let otherPayload := other.payloadIndex.payload.payload oldInternalId
    match s.idTracker.internalId externalId with
    | none =>
      let s := s.withIdTracker
        ((s.idTracker.setLink externalId newInternalId).setInternalVersion newInternalId otherVersion)
      let payloadIndex ← Segment.ofPanic (s.payloadIndex.assign env newInternalId otherPayload)
      return { s with payloadIndex }
    | some existingInternalId =>
      let existingVersion ← Segment.ofPanic (s.idTracker.internalVersion existingInternalId)
      if existingVersion < otherVersion then
        let s := s.withIdTracker
          (((s.idTracker.drop externalId).setLink externalId newInternalId).setInternalVersion
            newInternalId otherVersion)
        let dropped ← Segment.ofPanic (s.payloadIndex.drop env existingInternalId)
        let payloadIndex ← Segment.ofPanic (dropped.2.assign env newInternalId otherPayload)
        return { s with payloadIndex }
      else return s

/-- `update_from`: the version raised to the other's, the vectors appended, the points merged
at their new offsets, and the other's indexes added.  With the flag raised, the first check of
the vector loop cancels. -/
def updateFrom (stopped : Bool) (b : SegmentBuilder) (other : Segment) :
    OperationResult SegmentBuilder := do
  let self := { b.segment with version := some (max b.segment.currentVersion other.currentVersion) }
  let (vectorData, newInternalRange) ← updateVectorsFrom stopped self other
  let self := { self with vectorData }
  let self ← match newInternalRange with
    | none => .ok self
    | some range =>
      ((List.range' range.1 (range.2 - range.1)).zip other.idTracker.iterIds).foldlM
        (mergePoint env other) self
  return ⟨self, other.payloadIndex.indexedFields.foldl (fun m e => insert e.1 e.2 m) b.indexedFields⟩

/-- `build`: every index the builder collected created, at the segment's own version. -/
def build (stopped : Bool) (b : SegmentBuilder) : OperationResult Segment :=
  b.indexedFields.foldlM (fun segment e => do
    let r ← segment.createFieldIndex env segment.currentVersion e.1 (some e.2)
    Segment.checkProcessStopped stopped
    return r.2) b.segment

end SegmentBuilder

end Qdrant
