/-
# The segment optimiser, step by step

`collection_manager/optimizers/segment_optimizer.rs` (`SegmentOptimizer::optimize`) merges
segments into one while the shard keeps taking updates:

1. under the holder's lock it creates an empty temporary segment and, for each segment,
   a proxy that wraps it and writes into the temporary segment; all proxies share one set of
   deleted points and the sets of created and deleted indexes; the proxies replace the
   segments in the holder;
2. outside the lock it builds the merged segment from the wrapped segments, which nobody
   writes any more, and deletes from it the points deleted so far;
3. under the lock again it deletes the points deleted since, swaps the merged segment in for
   the proxies, and keeps the temporary segment when it holds points.

`stopped` is checked between the steps; when it is raised, `handle_cancellation` swaps the
wrapped segments back in for the proxies and keeps the temporary segment when it holds
points.  Updates run between the steps (`System.step`), through the proxies.

**A cancelled optimisation brings deleted points back** (`cancel_restores_deleted_point`):
a point deleted through a proxy was only recorded in the shared set, and the wrapped segment
that is swapped back in still holds it.  Fresh cells, set ids and segment keys are chosen by
the caller, as the allocator and `thread_rng` choose them.
-/
import Qdrant.Collection.Updater
import Qdrant.Segment.SegmentBuilder

namespace Qdrant

open StateExcept

/-- A computation on the holder and its segments. -/
abbrev StoreM := StateExcept Store CollectionError

/-- A segment computation, run on the store's segments, its error converted. -/
def onHeap {α : Type} (x : HeapM α) : StoreM α := fun st =>
  ((x.run st.heap).1.mapError CollectionError.ofOperationError, { st with heap := (x.run st.heap).2 })

/-- What `optimize` keeps from the swap of the proxies in to its end: the cells of the
optimised segments, the temporary segment's cell, the id of the proxies' shared sets, and
the keys of the proxies in the holder. -/
structure Optimization where
  optimizingSegments : List ℕ
  tmpSegment : ℕ
  proxySets : ℕ
  proxyIds : List SegmentId

/-- The empty segments `temp_segment` and `optimized_segment_builder` create. -/
structure OptimizerConfig where
  tmpSegment : Segment
  optimizedSegment : Segment

/-- How far a running optimisation has got. -/
inductive OptimizerPhase where
  | wrapped (o : Optimization)
  | built (o : Optimization) (optimizedSegment : Segment) (alreadyRemovePoints : List ExtendedPointId)

namespace SegmentOptimizer

variable (env : Env) (config : OptimizerConfig)

/-- The error of `check_cancellation`. -/
def cancelledByService : CollectionError := .cancelled "optimization cancelled by service"

/-- `check_cancellation`. -/
def checkCancellation (stopped : Bool) : CollectionResult Unit :=
  if stopped then .error cancelledByService else .ok ()

/-- `check_process_stopped`, under `?` of a collection operation. -/
def checkProcessStopped (stopped : Bool) : CollectionResult Unit :=
  (Segment.checkProcessStopped stopped).mapError CollectionError.ofOperationError

/-- `unwrap_proxy`: each proxy swapped back for the segment it wraps. -/
def unwrapProxy (holder : SegmentHolder) (proxyIds : List SegmentId) (rng : ℕ) :
    SegmentHolder × List SegmentId :=
  proxyIds.foldl (fun acc proxyId => match acc.1.get proxyId with
    | some (.proxy p) =>
      let (holder, restoredId, _) := acc.1.swap (.original p.wrappedSegment) [proxyId] rng
      (holder, acc.2 ++ [restoredId])
    | _ => acc) (holder, [])

/-- `handle_cancellation`: the wrapped segments back, and the temporary segment kept when it
holds points. -/
def handleCancellation (o : Optimization) (rng : ℕ) : StoreM Unit :=
  modify fun st =>
    let holder := (unwrapProxy st.holder o.proxyIds rng).1
    { st with holder :=
        if 0 < (st.heap.cells o.tmpSegment).pointsCount then (holder.add (.original o.tmpSegment) rng).1
        else holder }

/-- The fresh temporary segment and empty shared sets. -/
def freshSegments (h : SegmentHeap) (tmpCell proxySets : ℕ) : SegmentHeap :=
  { h.setCell tmpCell config.tmpSegment with
    deletedSets := Function.update h.deletedSets proxySets []
    createdIndexSets := Function.update h.createdIndexSets proxySets []
    deletedIndexSets := Function.update h.deletedIndexSets proxySets [] }

/-- `optimize` up to the swap of the proxies in: `none` when a segment is missing or already
under optimisation (`Ok(false)`). -/
def start (stopped : Bool) (ids : List SegmentId) (tmpCell proxySets rng : ℕ) :
    StoreM (Option Optimization) := do
  liftExcept (checkProcessStopped stopped)
  let st ← get
  let optimizingSegments := ids.filterMap st.holder.get
  let cells := optimizingSegments.filterMap fun
    | .original cell => some cell
    | .proxy _ => none
  if !(optimizingSegments.length == ids.length && cells.length == optimizingSegments.length) then
    return none
  modify fun st => { st with heap := freshSegments config st.heap tmpCell proxySets }
  let proxies : List ProxySegment := cells.map fun cell => ⟨tmpCell, cell, proxySets, proxySets, proxySets⟩
  -- outside the lock, then once more under it before each swap
  proxies.forM fun proxy => onHeap (proxy.replicateFieldIndexes env 0)
  let proxyIds ← (proxies.zip ids).foldlM (fun proxyIds e => do
    onHeap (e.1.replicateFieldIndexes env 0)
    let st ← get
    let (holder, newId, _) := st.holder.swap (.proxy e.1) [e.2] rng
    set { st with holder }
    return proxyIds ++ [newId]) []
  return some ⟨cells, tmpCell, proxySets, proxyIds⟩

/-- Points deleted from the merged segment at its own version; `unwrap()` makes an error a
panic. -/
def deleteFromOptimized (s : Segment) (points : List ExtendedPointId) : CollectionResult Segment :=
  points.foldlM (fun s pointId => match s.deletePoint env s.currentVersion pointId with
    | .ok r => .ok r.2
    | .error _ => .error CollectionError.panic) s

/-- `build_new_segment`: the wrapped segments merged, the indexes the proxies created or
deleted applied, and the points deleted so far deleted. -/
def buildNewSegment (stopped : Bool) (h : SegmentHeap) (o : Optimization) :
    CollectionResult Segment := do
  checkCancellation stopped
  let builder ← o.optimizingSegments.foldlM (fun builder cell =>
    (builder.updateFrom env stopped (h.cells cell)).mapError CollectionError.ofOperationError)
    (⟨config.optimizedSegment, []⟩ : SegmentBuilder)
  let deletedIndexes := h.deletedIndexSets o.proxySets
  let createdIndexes := h.createdIndexSets o.proxySets
  let indexedFields := createdIndexes.foldl (fun m e => OrdMap.insert e.1 e.2 m)
    (builder.indexedFields.filter (·.1 ∉ deletedIndexes))
  let optimizedSegment ← ({ builder with indexedFields }.build env stopped).mapError
    CollectionError.ofOperationError
  let optimizedSegment ← deleteFromOptimized env optimizedSegment (h.deletedSets o.proxySets)
  let optimizedSegment ← deletedIndexes.foldlM (fun s deleteFieldName => do
    let r ← (s.deleteFieldIndex s.currentVersion deleteFieldName).mapError
      CollectionError.ofOperationError
    checkCancellation stopped
    return r.2) optimizedSegment
  createdIndexes.foldlM (fun s e => do
    let r ← (s.createFieldIndex env s.currentVersion e.1 (some e.2)).mapError
      CollectionError.ofOperationError
    checkCancellation stopped
    return r.2) optimizedSegment

/-- The slow part after the check that follows the swap: a cancelled build unwraps the
proxies; another error leaves them in place. -/
def stepWrapped (stopped : Bool) (o : Optimization) (rng : ℕ) : StoreM OptimizerPhase := do
  if stopped then
    handleCancellation o rng
    liftExcept (checkProcessStopped stopped)
  let st ← get
  match buildNewSegment env config stopped st.heap o with
  | .ok optimizedSegment =>
    let alreadyRemovePoints := (st.heap.deletedSets o.proxySets).filter
      (· ∉ optimizedSegment.idTracker.iterExternal)
    return .built o optimizedSegment alreadyRemovePoints
  | .error error =>
    if let .cancelled _ := error then handleCancellation o rng
    throw error

/-- The critical section: the points deleted since the build deleted, the indexes applied,
the merged segment swapped in, and the temporary segment kept when it holds points or when
no other segment is appendable. -/
def finish (o : Optimization) (optimizedSegment : Segment)
    (alreadyRemovePoints : List ExtendedPointId) (optimizedCell rng : ℕ) : StoreM Bool := do
  let st ← get
  let pointsDiff := (st.heap.deletedSets o.proxySets).filter (· ∉ alreadyRemovePoints)
  let optimizedSegment ← liftExcept (deleteFromOptimized env optimizedSegment pointsDiff)
  let optimizedSegment ← liftExcept ((st.heap.deletedIndexSets o.proxySets).foldlM
    (fun s deletedFieldName => ((s.deleteFieldIndex s.currentVersion deletedFieldName).map
      (·.2)).mapError CollectionError.ofOperationError) optimizedSegment)
  let optimizedSegment ← liftExcept ((st.heap.createdIndexSets o.proxySets).foldlM
    (fun s e => ((s.createFieldIndex env s.currentVersion e.1 (some e.2)).map (·.2)).mapError
      CollectionError.ofOperationError) optimizedSegment)
  let heap := st.heap.setCell optimizedCell optimizedSegment
  let (holder, _, _) := st.holder.swap (.original optimizedCell) o.proxyIds rng
  let hasAppendableSegments := (holder.randomAppendableSegment heap rng).isSome
  let holder := if 0 < (heap.cells o.tmpSegment).pointsCount || !hasAppendableSegments then
      (holder.add (.original o.tmpSegment) rng).1
    else holder
  set (⟨holder, heap⟩ : Store)
  return true

/-- The step after the build: the check, then the critical section. -/
def stepBuilt (stopped : Bool) (o : Optimization) (optimizedSegment : Segment)
    (alreadyRemovePoints : List ExtendedPointId) (optimizedCell rng : ℕ) : StoreM Bool := do
  if stopped then
    handleCancellation o rng
    liftExcept (checkProcessStopped stopped)
  finish env o optimizedSegment alreadyRemovePoints optimizedCell rng

end SegmentOptimizer

/-! ## The shard while it optimises -/

/-- What happens next in a shard: an update, the start of an optimisation, or the next step
of the running one, with whether `stopped` is raised at its check. -/
inductive Event where
  | update (rng opNum : ℕ) (operation : CollectionUpdateOperations)
  | startOptimization (ids : List SegmentId) (stopped : Bool) (tmpCell proxySets rng : ℕ)
  | optimizerStep (stopped : Bool) (optimizedCell rng : ℕ)

/-- The store and the optimisation running on it. -/
structure System where
  store : Store
  optimization : Option OptimizerPhase

namespace System

variable (env : Env) (config : OptimizerConfig)

/-- One event.  An optimisation that ends, however it ends, leaves nothing running; an event
that does not apply changes nothing. -/
def step (sys : System) : Event → System
  | .update rng opNum operation =>
    { sys with store := (CollectionUpdater.update env rng sys.store opNum operation).2 }
  | .startOptimization ids stopped tmpCell proxySets rng =>
    match sys.optimization with
    | some _ => sys
    | none =>
      let (r, store) := (SegmentOptimizer.start env config stopped ids tmpCell proxySets rng).run sys.store
      ⟨store, match r with
        | .ok (some o) => some (.wrapped o)
        | _ => none⟩
  | .optimizerStep stopped optimizedCell rng =>
    match sys.optimization with
    | none => sys
    | some (.wrapped o) =>
      let (r, store) := (SegmentOptimizer.stepWrapped env config stopped o rng).run sys.store
      ⟨store, r.toOption⟩
    | some (.built o optimizedSegment alreadyRemovePoints) =>
      let (_, store) := (SegmentOptimizer.stepBuilt env stopped o optimizedSegment
        alreadyRemovePoints optimizedCell rng).run sys.store
      ⟨store, none⟩

/-- A run of events. -/
def run (sys : System) (events : List Event) : System := events.foldl (step env config) sys

end System

/-- **A cancelled optimisation brings a deleted point back.**  One appendable segment holds
point 1.  An optimisation wraps it; point 1 is deleted through the proxy; the optimisation is
cancelled at its next check.  The shard holds point 1 again, where the same delete on the
shard without the optimisation removes it. -/
theorem cancel_restores_deleted_point :
    let env : Env := ⟨fun _ _ => 0, id, id, id, fun _ => true, fun _ => false, id, fun _ => 0,
      fun _ => "", fun _ _ => [], fun _ _ => []⟩
    let empty : Segment := ⟨none, ⟨⟨[]⟩, IdTracker.empty, [], []⟩, [], [], true⟩
    let segment : Segment :=
      ⟨some 1, ⟨⟨[]⟩, (IdTracker.empty.setLink (.numId 1) 0).setInternalVersion 0 1, [], []⟩,
        [], [], true⟩
    let config : OptimizerConfig := ⟨empty, empty⟩
    let store : Store := ⟨⟨[(0, .original 0)], by decide, []⟩,
      ⟨fun c => if c = 0 then segment else empty, fun _ => [], fun _ => [], fun _ => []⟩⟩
    let delete : CollectionUpdateOperations := .pointOperation (.deletePoints [.numId 1])
    let final := System.run env config ⟨store, none⟩
      [.startOptimization [0] false 1 0 5, .update 0 2 delete, .optimizerStep true 2 7]
    let plain := (CollectionUpdater.update env 0 store 2 delete).2
    (final.store.holder.content final.store.heap (.numId 1)).isSome = true ∧
      (plain.holder.content plain.heap (.numId 1)).isSome = false := by
  intro env empty segment config store delete final plain
  constructor
  · decide +kernel
  · decide +kernel

end Qdrant
