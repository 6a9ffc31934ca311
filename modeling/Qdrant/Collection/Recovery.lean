/-
# Flushing, the write-ahead log and recovery

A shard writes every request to its WAL, then applies it (`LocalShard`, `update_handler.rs`).
Every so often the flush worker flushes the WAL, asks every segment to flush
(`SegmentHolder::flush_all(false)`) and acknowledges the WAL up to the version the segments
confirm; the WAL then drops the older entries.  After a crash the shard reloads every segment
from its files, removes duplicated points (`deduplicate_points`) and replays the WAL
(`load_from_wal`).

A segment's files change only when a flush job completes (`Segment::flush`): a flush that
is not synchronous starts a background job that captures the segment's version at the call,
and when the job completes the files hold the segment as it then is, stamped with that
version.  `flush_all` starts the jobs of the appendable segments before the others, but the
jobs complete in any order (`LocalShard.step`, `completeFlush`).

**A point can be lost** (`recover_loses_moved_point`): a payload update moves a point out of
a non-appendable segment into an appendable one (copy, then delete); the flush round starts
both jobs and confirms nothing; the job of the non-appendable segment completes first, and
the shard crashes.  The files hold the point nowhere, and the WAL's replay of the update
fails with `PointNotFound`, since no segment holds the point to update.

WAL entries count as durable once written: the model is a crash of the process.  A proxy's
`last_flushed_version` is not kept, so a proxy with pending changes reports its wrapped
segment's version.
-/
import Qdrant.Collection.SegmentOptimizer

namespace Qdrant

open StateExcept

/-! ## 1. The files of a segment -/

/-- A segment's files: the segment its last completed flush wrote, the version it persisted,
and the background flush running, with the version it captured at its call. -/
structure FlushState where
  durable : Segment
  persistedVersion : Option ℕ
  backgroundFlush : Option (Option ℕ)

namespace FlushState

/-- Files that hold exactly the segment. -/
def ofSegment (s : Segment) : FlushState := ⟨s, s.version, none⟩

/-- `Segment::flush(false)`: nothing while a background flush runs, nothing for an empty or
already persisted segment, and otherwise a background job started; the persisted version
before the call. -/
def flush (fs : FlushState) (s : Segment) : FlushState × ℕ :=
  let currentPersistedVersion := fs.persistedVersion
  let startJob := ({ fs with backgroundFlush := some s.version }, currentPersistedVersion.getD 0)
  if fs.backgroundFlush.isSome then (fs, currentPersistedVersion.getD 0)
  else match s.version, currentPersistedVersion with
    | none, _ => (fs, currentPersistedVersion.getD 0)
    | some version, some persistedVersion =>
      if version = persistedVersion then (fs, persistedVersion) else startJob
    | some _, none => startJob

/-- The background job completes: the files take the segment as it is now, stamped with the
captured version, which becomes the persisted one. -/
def complete (fs : FlushState) (s : Segment) : FlushState :=
  match fs.backgroundFlush with
  | some version => ⟨{ s with version }, version, none⟩
  | none => fs

end FlushState

/-! ## 2. `flush_all` -/

/-- The files of every segment, by cell. -/
abbrev Files := ℕ → FlushState

/-- One segment's flush: its version and the persisted version it reports.  A proxy flushes
both its segments only when it has no pending changes. -/
def flushEntry (h : SegmentHeap) (files : Files) : LockedSegment → Files × ℕ × ℕ
  | .original cell =>
    let (fs, persisted) := (files cell).flush (h.cells cell)
    (Function.update files cell fs, (h.cells cell).currentVersion, persisted)
  | .proxy p =>
    let version := p.version h
    if (p.deleted h).isEmpty && (h.deletedIndexSets p.deletedIndexes).isEmpty &&
        (h.createdIndexSets p.createdIndexes).isEmpty then
      let (fsWrapped, wrappedVersion) := (files p.wrappedSegment).flush (p.wrapped h)
      let files := Function.update files p.wrappedSegment fsWrapped
      let (fsWrite, writeSegmentVersion) := (files p.writeSegment).flush (p.write h)
      (Function.update files p.writeSegment fsWrite, version, max wrappedVersion writeSegmentVersion)
    else (files, version, (p.wrapped h).currentVersion)

namespace SegmentHolder

variable (holder : SegmentHolder)

/-- `segment_flush_ordering`: the appendable segments, then the others. -/
def segmentFlushOrdering (h : SegmentHeap) : List SegmentId :=
  holder.appendableSegments h ++ holder.nonAppendableSegments h

/-- `flush_all(false)`: the lowest persisted version of a segment with unsaved changes, or
else the highest persisted version. -/
def flushAll (h : SegmentHeap) (files : Files) : Files × ℕ :=
  let r := (holder.segmentFlushOrdering h).foldl (fun (acc : Files × ℕ × Option ℕ) segmentId =>
    match holder.get segmentId with
    | none => acc
    | some segment =>
      let (files, segmentVersion, segmentPersistedVersion) := flushEntry h acc.1 segment
      let minUnsaved := if segmentPersistedVersion < segmentVersion then
          some (min (acc.2.2.getD segmentPersistedVersion) segmentPersistedVersion)
        else acc.2.2
      (files, max acc.2.1 segmentPersistedVersion, minUnsaved)) (files, 0, none)
  (r.1, r.2.2.getD r.2.1)

/-- `deduplicate_points`: of the versioned copies of a point, the newest is kept (the last
seen on a tie); the others are deleted at their own version.  A proxy cannot list its points:
`iter_points` panics. -/
def deduplicatePoints (env : Env) : HeapM ℕ := do
  let h ← getThe SegmentHeap
  let seen ← holder.segments.foldlM (fun (acc : List (ExtendedPointId × SegmentId × ℕ) ×
      List (SegmentId × ExtendedPointId)) e => do
    let some points := e.2.iterPoints h | throw .panic
    return points.foldl (fun acc pointId =>
      match e.2.pointVersion h pointId with
      | none => acc
      | some pointVersion =>
        match acc.1.lookup pointId with
        | some (seenSegmentId, seenVersion) =>
          if pointVersion < seenVersion then (acc.1, acc.2 ++ [(e.1, pointId)])
          else ((pointId, e.1, pointVersion) :: acc.1, acc.2 ++ [(seenSegmentId, pointId)])
        | none => ((pointId, e.1, pointVersion) :: acc.1, acc.2)) acc) ([], [])
  seen.2.foldlM (fun removedPoints r => do
    let some segment := holder.get r.1 | throw .panic
    match segment.pointVersion (← getThe SegmentHeap) r.2 with
    | some pointVersion =>
      let _ ← segment.deletePoint env pointVersion r.2
      return removedPoints + 1
    | none => return removedPoints) 0

end SegmentHolder

/-! ## 3. The shard, its crashes and its recovery -/

/-- A shard: its segments in memory, their files, and its WAL of numbered requests. -/
structure LocalShard where
  store : Store
  files : Files
  wal : List (ℕ × CollectionUpdateOperations)
  nextOpNum : ℕ

/-- What happens next in a shard: a request, a round of the flush worker, or the completion of
the background flush of a segment's cell. -/
inductive ShardEvent where
  | update (rng : ℕ) (operation : CollectionUpdateOperations)
  | flushRound
  | completeFlush (cell : ℕ)

namespace LocalShard

variable (env : Env)

/-- One event.  A request is written to the WAL under the next number, then applied.  A flush
round confirms the version `flush_all` returns, lowered to the first failed operation, and
the WAL drops the entries below it. -/
def step (shard : LocalShard) : ShardEvent → LocalShard
  | .update rng operation =>
    let opNum := shard.nextOpNum
    { shard with
      store := (CollectionUpdater.update env rng shard.store opNum operation).2
      wal := shard.wal ++ [(opNum, operation)]
      nextOpNum := opNum + 1 }
  | .flushRound =>
    let (files, flushedVersion) := shard.store.holder.flushAll shard.store.heap shard.files
    let confirmedVersion := match shard.store.holder.failedOperation.min? with
      | none => flushedVersion
      | some failedOperation => min failedOperation flushedVersion
    { shard with files, wal := shard.wal.filter fun e => confirmedVersion ≤ e.1 }
  | .completeFlush cell =>
    let completed := (shard.files cell).complete (shard.store.heap.cells cell)
    { shard with files := Function.update shard.files cell completed }

/-- A run of events. -/
def run (shard : LocalShard) (events : List ShardEvent) : LocalShard :=
  events.foldl (step env) shard

/-- The cells of the segments with files: every original, and both segments of a proxy. -/
def segmentDirs (shard : LocalShard) : List ℕ :=
  (shard.store.holder.segments.flatMap fun e => match e.2 with
    | .original cell => [cell]
    | .proxy p => [p.wrappedSegment, p.writeSegment]).eraseDups

/-- `LocalShard::load` after a crash: every segment read from its files, the duplicates
removed, and the WAL replayed; a service error of the replay is a panic. -/
def recover (rng : ℕ) (shard : LocalShard) : Option Store :=
  let dirs := shard.segmentDirs
  let holder : SegmentHolder :=
    ⟨(List.range dirs.length).zip (dirs.map LockedSegment.original), by
      rw [List.map_fst_zip (by simp)]
      exact List.nodup_range, []⟩
  let heap : SegmentHeap :=
    ⟨fun cell => (shard.files cell).durable, fun _ => [], fun _ => [], fun _ => []⟩
  match (holder.deduplicatePoints env).run heap with
  | (.error _, _) => none
  | (.ok _, heap) =>
    shard.wal.foldlM (fun (st : Store) e =>
      match CollectionUpdater.update env rng st e.1 e.2 with
      | (.error (.serviceError _), _) => none
      | (_, st) => some st) ⟨holder, heap⟩

end LocalShard

/-- **A crash can lose a point the shard holds.**  A non-appendable segment (cell 0) holds
point 1 at version 1, an appendable one (cell 1) is empty, the files hold exactly that and the
WAL is empty.  Request 2 sets a payload on point 1, which moves it to the appendable segment.
The flush round starts both background flushes; the one of the non-appendable segment
completes; the shard crashes.  The recovered shard does not hold point 1, which the shard
held before the crash. -/
theorem recover_loses_moved_point :
    let env : Env := ⟨fun _ _ => 0, id, id, id, fun _ => true, fun _ => false, id, fun _ => 0,
      fun _ => "", fun _ _ => [], fun _ _ => []⟩
    let empty : Segment := ⟨none, ⟨⟨[]⟩, IdTracker.empty, [], []⟩, [], [], true⟩
    let frozen : Segment :=
      ⟨some 1, ⟨⟨[]⟩, (IdTracker.empty.setLink (.numId 1) 0).setInternalVersion 0 1, [], []⟩,
        [], [], false⟩
    let cells : ℕ → Segment := fun c => if c = 0 then frozen else empty
    let shard : LocalShard :=
      ⟨⟨⟨[(0, .original 0), (1, .original 1)], by decide, []⟩,
        ⟨cells, fun _ => [], fun _ => [], fun _ => []⟩⟩,
        fun c => FlushState.ofSegment (cells c), [], 2⟩
    let setPayload : CollectionUpdateOperations :=
      .payloadOperation (.setPayload ⟨⟨[("a", .bool true)], by decide⟩, some [.numId 1], none⟩)
    let crashed := LocalShard.run env shard [.update 0 setPayload, .flushRound, .completeFlush 0]
    (crashed.store.holder.content crashed.store.heap (.numId 1)).isSome = true ∧
      ((LocalShard.recover env 0 crashed).map
        fun st => (st.holder.content st.heap (.numId 1)).isSome) = some false := by
  intro env empty frozen cells shard setPayload crashed
  constructor
  · decide +kernel
  · decide +kernel

end Qdrant
