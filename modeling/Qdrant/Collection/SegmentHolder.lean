/-
# The segment holder

`collection_manager/holders/segment_holder.rs` keeps the segments of a shard by id, each an
original segment or a proxy (`LockedSegment`), and runs updates over them:

* `apply_points` visits the segments in turn and calls the update on every requested id the
  segment holds at that moment;
* `apply_points_to_appendable` does the same, but skips a point whose copy is already at the
  operation's version, and first MOVES a point out of a non-appendable segment: it copies the
  point into an appendable segment, deletes it from the old one, and updates the copy;
* `aloha_random_write` picks the appendable segment of such a move.

Every `SegmentEntry` call is dispatched to the segment of an original's cell or to the proxy
(`LockedSegment.update`).  The `HashMap` of segments is a list with distinct ids, iterated in
list order; the order is arbitrary in the source, so nothing proved here depends on it.
Locks are not modelled: updates run one at a time, so the first `try_write` of
`aloha_random_write` always succeeds and the first appendable segment is written.

**The logical content** of the holder (`SegmentHolder.content`) is, for each id, the vectors
and payload of its copy of highest version; it is compared with `Content` in
`Collection.Updater`.
-/
import Qdrant.Segment.Proxy
import Qdrant.Collection.Operations

namespace Qdrant

open StateExcept

/-- `SegmentId`. -/
abbrev SegmentId := ℕ

/-- `LockedSegment`: an original segment, by its cell, or a proxy. -/
inductive LockedSegment where
  | original (cell : ℕ)
  | proxy (p : ProxySegment)
deriving DecidableEq, Repr

namespace LockedSegment

variable (env : Env) (h : SegmentHeap)

/-! ## 1. `SegmentEntry` on either kind -/

/-- A `SegmentEntry` write: the segment operation on an original's cell, the proxy's own
operation on a proxy. -/
def update {α : Type} (onSegment : Segment → OperationResult (α × Segment))
    (onProxy : ProxySegment → HeapM α) : LockedSegment → HeapM α
  | original cell => onCell cell onSegment
  | proxy p => onProxy p

/-- A `SegmentEntry` read. -/
def read {α : Type} (onSegment : Segment → α) (onProxy : ProxySegment → α) :
    LockedSegment → α
  | original cell => onSegment (h.cells cell)
  | proxy p => onProxy p

/-- `is_appendable`: a proxy always is. -/
def isAppendable (s : LockedSegment) : Bool := s.read h (·.appendable) fun _ => true

/-- `has_point`. -/
def hasPoint (s : LockedSegment) (pointId : ExtendedPointId) : Bool :=
  s.read h (·.hasPoint pointId) (·.hasPoint h pointId)

/-- `point_version`. -/
def pointVersion (s : LockedSegment) (pointId : ExtendedPointId) : Option ℕ :=
  s.read h (·.pointVersion pointId) (·.pointVersion h pointId)

/-- `all_vectors`. -/
def allVectors (s : LockedSegment) (pointId : ExtendedPointId) : OperationResult NamedVectors :=
  s.read h (·.allVectors pointId) (·.allVectors h pointId)

/-- `vector`. -/
def vector (s : LockedSegment) (vectorName : String) (pointId : ExtendedPointId) :
    OperationResult (List ℚ) :=
  s.read h (·.vector vectorName pointId) (·.vector h vectorName pointId)

/-- `payload`. -/
def payload (s : LockedSegment) (pointId : ExtendedPointId) : OperationResult Payload :=
  s.read h (·.payload pointId) (·.payload h pointId)

/-- `version`. -/
def version (s : LockedSegment) : ℕ := s.read h (·.currentVersion) (·.version h)

/-- `points_count`. -/
def pointsCount (s : LockedSegment) : ℕ := s.read h (·.pointsCount) (·.pointsCount h)

/-- `read_filtered`; `none` is a panic. -/
def readFiltered (s : LockedSegment) (offset : Option ExtendedPointId) (limit : Option ℕ)
    (filter : Option Filter) : Option (List ExtendedPointId) :=
  s.read h (·.readFiltered env offset limit filter) (·.readFiltered env h offset limit filter)

/-- `read_range`. -/
def readRange (s : LockedSegment) (from_ to_ : Option ExtendedPointId) : List ExtendedPointId :=
  s.read h (·.readRange from_ to_) (·.readRange h from_ to_)

/-- `iter_points`: a proxy's is `unimplemented!`, a panic. -/
def iterPoints (s : LockedSegment) : Option (List ExtendedPointId) :=
  s.read h (some ·.idTracker.iterExternal) fun _ => none

/-- `upsert_vector`. -/
def upsertVector (s : LockedSegment) (opNum : ℕ) (pointId : ExtendedPointId)
    (vectors : NamedVectors) : HeapM Bool :=
  s.update (·.upsertVector opNum pointId vectors) (·.upsertVector env opNum pointId vectors)

/-- `set_full_payload`. -/
def setFullPayload (s : LockedSegment) (opNum : ℕ) (pointId : ExtendedPointId)
    (fullPayload : Payload) : HeapM Bool :=
  s.update (·.setFullPayload env opNum pointId fullPayload)
    (·.setFullPayload env opNum pointId fullPayload)

/-- `set_payload`. -/
def setPayload (s : LockedSegment) (opNum : ℕ) (pointId : ExtendedPointId) (payload : Payload) :
    HeapM Bool :=
  s.update (·.setPayload env opNum pointId payload) (·.setPayload env opNum pointId payload)

/-- `delete_payload`. -/
def deletePayload (s : LockedSegment) (opNum : ℕ) (pointId : ExtendedPointId) (key : String) :
    HeapM Bool :=
  s.update (·.deletePayload env opNum pointId key) (·.deletePayload env opNum pointId key)

/-- `clear_payload`. -/
def clearPayload (s : LockedSegment) (opNum : ℕ) (pointId : ExtendedPointId) : HeapM Bool :=
  s.update (·.clearPayload env opNum pointId) (·.clearPayload env opNum pointId)

/-- `delete_point`. -/
def deletePoint (s : LockedSegment) (opNum : ℕ) (pointId : ExtendedPointId) : HeapM Bool :=
  s.update (·.deletePoint env opNum pointId) (·.deletePoint env opNum pointId)

/-- `delete_filtered`. -/
def deleteFiltered (s : LockedSegment) (opNum : ℕ) (filter : Filter) : HeapM ℕ :=
  s.update (·.deleteFiltered env opNum filter) (·.deleteFiltered env opNum filter)

/-- `create_field_index`. -/
def createFieldIndex (s : LockedSegment) (opNum : ℕ) (key : String)
    (fieldSchema : Option PayloadSchemaType) : HeapM Bool :=
  s.update (·.createFieldIndex env opNum key fieldSchema)
    (·.createFieldIndex env opNum key fieldSchema)

/-- `delete_field_index`. -/
def deleteFieldIndex (s : LockedSegment) (opNum : ℕ) (key : String) : HeapM Bool :=
  s.update (·.deleteFieldIndex opNum key) (·.deleteFieldIndex opNum key)

end LockedSegment

/-! ## 2. The holder -/

/-- `SegmentHolder`: the segments by distinct id, and the operations that failed. -/
structure SegmentHolder where
  segments : List (SegmentId × LockedSegment)
  nodup : (segments.map Prod.fst).Nodup
  failedOperation : List ℕ

namespace SegmentHolder

variable (env : Env) (holder : SegmentHolder)

/-- `get`. -/
def get (id : SegmentId) : Option LockedSegment := holder.segments.lookup id

/-- `generate_new_key`: the random draw when no segment has it, a larger key otherwise. -/
def generateNewKey (rng : ℕ) : SegmentId :=
  if rng ∈ holder.segments.map Prod.fst then (holder.segments.map Prod.fst).sum + 1 else rng

theorem generateNewKey_fresh (rng : ℕ) :
    holder.generateNewKey rng ∉ holder.segments.map Prod.fst := by
  unfold generateNewKey
  split
  · -- every key is at most the sum of the keys
    intro hmem
    have hle : (holder.segments.map Prod.fst).sum + 1 ≤ (holder.segments.map Prod.fst).sum :=
      List.le_sum_of_mem hmem
    exact Nat.not_succ_le_self _ hle
  · assumption

/-- `add`: the segment under a new key. -/
def add (segment : LockedSegment) (rng : ℕ) : SegmentHolder × SegmentId :=
  let key := holder.generateNewKey rng
  (⟨holder.segments ++ [(key, segment)], by
      rw [List.map_append, List.nodup_append]
      refine ⟨holder.nodup, List.nodup_singleton _, ?_⟩
      intro a ha b hb hab
      rw [List.map_singleton, List.mem_singleton] at hb
      rw [hab, hb] at ha
      exact holder.generateNewKey_fresh rng ha,
    holder.failedOperation⟩, key)

/-- `remove`: the segments of the given ids taken out, each once. -/
def remove (removeIds : List SegmentId) : SegmentHolder × List LockedSegment :=
  (⟨holder.segments.filter (·.1 ∉ removeIds),
      (List.filter_sublist.map Prod.fst).nodup holder.nodup,
      holder.failedOperation⟩,
    removeIds.eraseDups.filterMap holder.get)

/-- `swap`: the new segment added, then the old ones removed. -/
def swap (segment : LockedSegment) (removeIds : List SegmentId) (rng : ℕ) :
    SegmentHolder × SegmentId × List LockedSegment :=
  let (added, newId) := holder.add segment rng
  let (removed, segments) := added.remove removeIds
  (removed, newId, segments)

/-- `appendable_segments`. -/
def appendableSegments (h : SegmentHeap) : List SegmentId :=
  (holder.segments.filter fun e => e.2.isAppendable h).map Prod.fst

/-- `non_appendable_segments`. -/
def nonAppendableSegments (h : SegmentHeap) : List SegmentId :=
  (holder.segments.filter fun e => !e.2.isAppendable h).map Prod.fst

/-- `random_appendable_segment`: the appendable segment a random number picks. -/
def randomAppendableSegment (h : SegmentHeap) (rng : ℕ) : Option LockedSegment :=
  let segmentIds := holder.appendableSegments h
  segmentIds[rng % segmentIds.length]?.bind holder.get

/-- `segment_points`: the requested ids the segment holds. -/
def segmentPoints (ids : List ExtendedPointId) (segment : LockedSegment) (h : SegmentHeap) :
    List ExtendedPointId :=
  ids.filter (segment.hasPoint h)

/-- `apply_segments`: the update on every segment; the number that report a change. -/
def applySegments (f : LockedSegment → HeapM Bool) : HeapM ℕ :=
  holder.segments.foldlM (fun processedSegments e => do
    let isApplied ← f e.2
    return processedSegments + isApplied.toNat) 0

/-- The loop of `apply_points`: each segment in turn, each requested id it holds when it is
visited, passed to `f`; the ids visited, with what `f` returned. -/
def applyPointsLoop (ids : List ExtendedPointId)
    (f : ExtendedPointId → SegmentId → LockedSegment → HeapM Bool) :
    HeapM (List (ExtendedPointId × Bool)) :=
  holder.segments.foldlM (fun visited e => do
    let segmentPoints := segmentPoints ids e.2 (← MonadStateOf.get)
    segmentPoints.foldlM (fun visited pointId => do
      let isApplied ← f pointId e.1 e.2
      return visited ++ [(pointId, isApplied)]) visited) []

/-- `apply_points`: the number of points the update reports changed. -/
def applyPoints (ids : List ExtendedPointId)
    (f : ExtendedPointId → SegmentId → LockedSegment → HeapM Bool) : HeapM ℕ := do
  let visited ← holder.applyPointsLoop ids f
  return (visited.filter (·.2)).length

/-- `aloha_random_write`: of the given segments that the holder has, the `choice`-th (modulo
their number) is written, the first whose lock is free at once or the one that
`entries.choose(&mut rng)` picks and then waits for.  No segment at all is an error; ids the
holder does not have leave `entries` empty, and `choose(..).unwrap()` panics. -/
def alohaRandomWrite (segmentIds : List SegmentId) (choice : ℕ)
    (apply : SegmentId → LockedSegment → HeapM Bool) : HeapM Bool :=
  if segmentIds.isEmpty then
    throw (.serviceError "No appendable segments exists, expected at least one")
  else
    let entries := segmentIds.filterMap fun id => (holder.get id).map (id, ·)
    match entries[choice % entries.length]? with
    | some (id, segment) => apply id segment
    | none => throw .panic

/-- `apply_points_to_appendable`: the ids it reached; a point already at the operation's
version is reached without a write, and a point of a non-appendable segment is moved to an
appendable one before `f` updates it there. -/
def applyPointsToAppendable (opNum : ℕ) (ids : List ExtendedPointId)
    (f : ExtendedPointId → LockedSegment → HeapM Bool) : HeapM (List ExtendedPointId) := do
  let appendableSegments := holder.appendableSegments (← MonadStateOf.get)
  let visited ← holder.applyPointsLoop ids fun pointId _idx writeSegment => do
    let h ← MonadStateOf.get
    if (writeSegment.pointVersion h pointId).any (opNum ≤ ·) then return false
    if writeSegment.isAppendable h then f pointId writeSegment
    else
      holder.alohaRandomWrite appendableSegments (env.alohaChoice pointId)
        fun _ appendableWriteSegment => do
          let h ← MonadStateOf.get
          let allVectors ← liftExcept (writeSegment.allVectors h pointId)
          let payload ← liftExcept (writeSegment.payload h pointId)
          let _ ← appendableWriteSegment.upsertVector env opNum pointId allVectors
          let _ ← appendableWriteSegment.setFullPayload env opNum pointId payload
          let _ ← writeSegment.deletePoint env opNum pointId
          f pointId appendableWriteSegment
  return (visited.map (·.1)).eraseDups

/-- `read_points`: each segment in turn, each requested id it holds, passed to `f`. -/
def readPoints (ids : List ExtendedPointId) (h : SegmentHeap)
    (f : ExtendedPointId → LockedSegment → OperationResult Bool) : OperationResult ℕ :=
  holder.segments.foldlM (fun readPoints e =>
    (ids.filter (e.2.hasPoint h)).foldlM (fun readPoints point =>
      (f point e.2).map fun isOk => readPoints + isOk.toNat) readPoints) 0

/-! ## 3. The logical content -/

/-- The copies of a point: the segments that hold it, with the version each reports. -/
def copies (h : SegmentHeap) (pointId : ExtendedPointId) : List (Option ℕ × LockedSegment) :=
  holder.segments.filterMap fun e =>
    if e.2.hasPoint h pointId then some (e.2.pointVersion h pointId, e.2) else none

/-- A version below another; a copy without a version is below every versioned one. -/
def versionBelow : Option ℕ → Option ℕ → Bool
  | some a, some b => a < b
  | none, some _ => true
  | _, none => false

/-- The copy of highest version, the first of them on a tie. -/
def newestCopy (h : SegmentHeap) (pointId : ExtendedPointId) : Option (Option ℕ × LockedSegment) :=
  (holder.copies h pointId).foldl (fun best c => match best with
    | none => some c
    | some b => if versionBelow b.1 c.1 then some c else some b) none

/-- The logical content: the vectors and payload of each point's newest copy. -/
def content (h : SegmentHeap) : Content := fun pointId =>
  (holder.newestCopy h pointId).bind fun c =>
    match c.2.allVectors h pointId, c.2.payload h pointId with
    | .ok vectors, .ok payload => some ⟨vectors, payload⟩
    | _, _ => none

/-- The version of each point's newest copy. -/
def contentVersion (h : SegmentHeap) (pointId : ExtendedPointId) : Option ℕ :=
  (holder.newestCopy h pointId).bind (·.1)

/-- Whether every point is held by at most one segment. -/
def SingleCopy (h : SegmentHeap) : Prop := ∀ pointId, (holder.copies h pointId).length ≤ 1

/-! ## 4. A move the version check undoes -/

/-- **A move to an appendable segment can lose the point.**  Segment 0, not appendable, holds
point 1 at version 1; segment 1, appendable, is at version 5 (it holds point 2).  An update at
`3` of point 1 moves it: the copy's `upsert_vector` and `set_full_payload` into segment 1 are
skipped, since segment 1 is past `3` and does not hold the point, while the `delete_point` from
segment 0 is applied.  The update reports point 1 as reached, and no segment holds it. -/
theorem applyPointsToAppendable_loses_moved_point :
    let env : Env := ⟨fun _ _ => 0, id, id, id, fun _ => true, fun _ => false, id, fun _ => 0,
      fun _ => "", fun _ _ => [], fun _ _ => []⟩
    let sealed : Segment := ⟨some 1,
      ⟨⟨[]⟩, (IdTracker.empty.setLink (.numId 1) 0).setInternalVersion 0 1, [], []⟩,
      [("", [[9]])], [("", ⟨1, fun _ => none⟩)], false⟩
    let appendable : Segment := ⟨some 5,
      ⟨⟨[]⟩, (IdTracker.empty.setLink (.numId 2) 0).setInternalVersion 0 5, [], []⟩,
      [("", [[5]])], [("", ⟨1, fun _ => none⟩)], true⟩
    let h : SegmentHeap :=
      ⟨fun c => if c = 0 then sealed else appendable, fun _ => [], fun _ => [], fun _ => []⟩
    let holder : SegmentHolder := ⟨[(0, .original 0), (1, .original 1)], by decide, []⟩
    let payload : Payload := ⟨[("a", .number (.posInt 1))], by decide⟩
    let r := (holder.applyPointsToAppendable env 3 [.numId 1]
      fun pointId s => s.setPayload env 3 pointId payload).run h
    holder.contentVersion h (.numId 1) = some 1 ∧ r.1.toOption = some [.numId 1] ∧
      holder.copies r.2 (.numId 1) = [] := by
  intro env sealed appendable h holder payload r
  refine ⟨?_, ?_, ?_⟩ <;> decide +kernel

end SegmentHolder

end Qdrant
