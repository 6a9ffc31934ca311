/-
# Transferring a shard through a forward proxy

`shards/forward_proxy_shard.rs` and `transfer_batches` in `shards/transfer/shard_transfer.rs`.
While a shard is sent to another peer, its local shard is wrapped in a `ForwardProxyShard`.
Every client update goes to the wrapped shard and is then forwarded to the remote shard; the
transfer task meanwhile scrolls the wrapped shard batch by batch from offset `None` and sends
each batch to the remote as a `SyncPoints` operation over the batch's id range.  An update and
a batch each hold the proxy's `update_lock`, so they never overlap.

What the lock does not order is the wrapped shard's UPDATE WORKER.  `LocalShard::update`
writes the operation to the WAL and queues it; with `wait = false` it returns before the worker
applies it.  So a forwarded update can reach the remote while the wrapped shard has not applied
it yet, and a batch scrolled in between reads the old copy of the point and writes it over the
remote's newer one (`forward_proxy_transfer_keeps_stale_copy`).  With `wait = true` the update
is applied before it returns, and nothing is queued.

The remote applies what it receives in arrival order, each operation as its peer's
`LocalShard` does (`remoteUpdate_snd`).  The transfer's cancellation flag and the index
transfer that precedes the batches are not modelled.
-/
import Qdrant.Collection.Scroll

namespace Qdrant

/-- `TRANSFER_BATCH_SIZE`. -/
def transferBatchSize : ℕ := 100

/-- `TryFrom<Record> for PointStruct`: a record without vectors is refused.  The vectors go as
named ones. -/
def Record.toPointStruct (record : Record) : Except String PointStruct :=
  match record.vector with
  | none => .error "Vector is empty"
  | some vector => .ok ⟨record.id, .multi vector, record.payload⟩

/-- A shard being transferred: the wrapped local shard, the operations it has written to its
WAL and queued for its update worker, oldest first, and the remote shard on the receiving
peer. -/
structure ForwardProxyShard where
  wrappedShard : LocalShard
  updateQueue : List (ℕ × CollectionUpdateOperations)
  remoteShard : LocalShard

/-- The transfer in progress: the proxy, the offset `transfer_batches` sends from next, and
whether its loop has ended. -/
structure ShardTransferRun where
  proxy : ForwardProxyShard
  offset : Option ExtendedPointId
  finished : Bool

/-- What happens next during a transfer: a client update, a step of the wrapped shard's update
worker, or a batch of `transfer_batches`.  The numbers are the random choices of the segment a
point is written to. -/
inductive TransferEvent where
  | update (rng : ℕ) (operation : CollectionUpdateOperations) (wait : Bool)
  | applyQueued (rng : ℕ)
  | transferBatch (rng : ℕ)

namespace ForwardProxyShard

variable (env : Env)

/-! ## 1. The two shards' updates -/

/-- The update worker applies queued operations in order; the result is the last one's. -/
def applyOperations (rng : ℕ) (shard : LocalShard) (operations : List (ℕ × CollectionUpdateOperations)) :
    CollectionResult Unit × LocalShard :=
  operations.foldl (fun acc e =>
    let (result, store) := CollectionUpdater.update env rng acc.2.store e.1 e.2
    (result.map fun _ => (), { acc.2 with store })) (.ok (), shard)

/-- `LocalShard::update` on the wrapped shard: the operation is written to the WAL under the
next number and queued.  With `wait` the call returns when the worker has applied it, and so
every operation queued before it, with its result. -/
def localUpdate (rng : ℕ) (p : ForwardProxyShard) (operation : CollectionUpdateOperations)
    (wait : Bool) : CollectionResult Unit × ForwardProxyShard :=
  let opNum := p.wrappedShard.nextOpNum
  let shard := { p.wrappedShard with
    wal := p.wrappedShard.wal ++ [(opNum, operation)], nextOpNum := opNum + 1 }
  let updateQueue := p.updateQueue ++ [(opNum, operation)]
  if wait then
    let (result, shard) := applyOperations env rng shard updateQueue
    (result, { p with wrappedShard := shard, updateQueue := [] })
  else (.ok (), { p with wrappedShard := shard, updateQueue })

/-- The remote shard's `update`: its peer writes the operation to its WAL and applies it; the
result reaches the caller only when it waits. -/
def remoteUpdate (rng : ℕ) (remote : LocalShard) (operation : CollectionUpdateOperations)
    (wait : Bool) : CollectionResult Unit × LocalShard :=
  let opNum := remote.nextOpNum
  let (result, store) := CollectionUpdater.update env rng remote.store opNum operation
  (if wait then result.map fun _ => () else .ok (),
    { remote with store, wal := remote.wal ++ [(opNum, operation)], nextOpNum := opNum + 1 })

/-- The remote applies an operation as its peer's shard applies a request. -/
theorem remoteUpdate_snd (rng : ℕ) (remote : LocalShard) (operation : CollectionUpdateOperations)
    (wait : Bool) :
    (remoteUpdate env rng remote operation wait).2 = LocalShard.step env remote (.update rng operation) :=
  rfl

/-! ## 2. The proxy -/

/-- `ForwardProxyShard::update`: the wrapped shard first, then the remote without waiting. -/
def update (rng : ℕ) (p : ForwardProxyShard) (operation : CollectionUpdateOperations)
    (wait : Bool) : CollectionResult Unit × ForwardProxyShard :=
  match localUpdate env rng p operation wait with
  | (.error e, p) => (.error e, p)
  | (.ok (), p) =>
    let (result, remoteShard) := remoteUpdate env rng p.remoteShard operation false
    (result, { p with remoteShard })

/-- `ForwardProxyShard::transfer_batch`: one more point than the batch is scrolled, and its id
is the next offset; the batch goes as a sync of the range up to it, waited for when it is the
last. -/
def transferBatch (rng : ℕ) (p : ForwardProxyShard) (offset : Option ExtendedPointId)
    (batchSize : ℕ) : CollectionResult (Option ExtendedPointId) × ForwardProxyShard :=
  let limit := batchSize + 1
  match p.wrappedShard.scrollBy env offset limit (.bool true) (.bool true) none with
  | .error e => (.error e, p)
  | .ok batch =>
    let nextPageOffset := if batch.length < limit then none else batch.getLast?.map (·.id)
    let batch := if batch.length < limit then batch else batch.dropLast
    match batch.mapM Record.toPointStruct with
    | .error e => (.error (.serviceError e), p)
    | .ok points =>
      let insertPointsOperation : CollectionUpdateOperations :=
        .pointOperation (.syncPoints ⟨offset, nextPageOffset, points⟩)
      let wait := nextPageOffset.isNone
      match remoteUpdate env rng p.remoteShard insertPointsOperation wait with
      | (.error e, remoteShard) => (.error e, { p with remoteShard })
      | (.ok (), remoteShard) => (.ok nextPageOffset, { p with remoteShard })

end ForwardProxyShard

/-! ## 3. Updates interleaved with the transfer -/

namespace ShardTransferRun

variable (env : Env)

/-- One event.  The worker applies the oldest queued operation; a batch is sent only while
the loop runs, and its next offset ends the loop when there is none.  A failed update or batch
keeps what it wrote. -/
def step (t : ShardTransferRun) : TransferEvent → ShardTransferRun
  | .update rng operation wait =>
    { t with proxy := (t.proxy.update env rng operation wait).2 }
  | .applyQueued rng =>
    match t.proxy.updateQueue with
    | [] => t
    | e :: rest =>
      let (_, shard) := ForwardProxyShard.applyOperations env rng t.proxy.wrappedShard [e]
      { t with proxy := { t.proxy with wrappedShard := shard, updateQueue := rest } }
  | .transferBatch rng =>
    if t.finished then t
    else
      match t.proxy.transferBatch env rng t.offset transferBatchSize with
      | (.ok nextOffset, proxy) => ⟨proxy, nextOffset, nextOffset.isNone⟩
      | (.error _, proxy) => { t with proxy }

/-- A run of events. -/
def run (t : ShardTransferRun) (events : List TransferEvent) : ShardTransferRun :=
  events.foldl (step env) t

end ShardTransferRun

/-! ## 4. A batch read before the worker applied an update -/

/-- **A transfer ends with the remote holding a stale copy.**  The wrapped shard holds point 0
with vector `[1]`; the remote starts empty.  A client upserts point 0 with vector `[2]` without
waiting: the wrapped shard queues it and the remote applies it.  The transfer's first batch
then scrolls the wrapped shard, which still has `[1]`, and syncs it to the remote, which takes
`[1]` back; it is the last batch.  Then the worker applies the queued upsert.  Nothing is left
to apply on either side, and the wrapped shard holds `[2]` where the remote holds `[1]`. -/
theorem forward_proxy_transfer_keeps_stale_copy :
    let env : Env := ⟨fun _ _ => 0, id, id, id, fun _ => true, fun _ => false, id, fun _ => 0,
      fun _ => "", fun _ _ => [], fun _ _ => []⟩
    let segment : Segment :=
      ⟨none, ⟨⟨[]⟩, IdTracker.empty, [], []⟩, [("", [])], [("", ⟨1, fun _ => none⟩)], true⟩
    let empty : LocalShard := ⟨⟨⟨[(0, .original 0)], by decide, []⟩,
      ⟨fun _ => segment, fun _ => [], fun _ => [], fun _ => []⟩⟩,
      fun _ => FlushState.ofSegment segment, [], 1⟩
    let upsert (v : ℚ) : CollectionUpdateOperations :=
      .pointOperation (.upsertPoints (.pointsList [⟨.numId 0, .single [v], none⟩]))
    let source := LocalShard.run env empty [.update 0 (upsert 1)]
    let final := ShardTransferRun.run env ⟨⟨source, [], empty⟩, none, false⟩
      [.update 0 (upsert 2) false, .transferBatch 0, .applyQueued 0]
    final.finished = true ∧ final.proxy.updateQueue = [] ∧
      (final.proxy.wrappedShard.store.holder.content final.proxy.wrappedShard.store.heap
        (.numId 0)).map (·.vectors) = some [("", [2])] ∧
      (final.proxy.remoteShard.store.holder.content final.proxy.remoteShard.store.heap
        (.numId 0)).map (·.vectors) = some [("", [1])] := by
  intro env segment empty upsert source final
  refine ⟨?_, ?_, ?_, ?_⟩
  · decide +kernel
  · decide +kernel
  · decide +kernel
  · decide +kernel

end Qdrant
