/-
# Replica states under consensus: shard transfers and replica removals

`collection.rs`, `shards/transfer/shard_transfer.rs` and `TableOfContent::handle_transfer`.
Every peer applies the same consensus operations to its own copy of a collection's shard
holder: the replica set of each shard and the set of running transfers.  An operation is
validated against that copy, then each peer runs the code with its own `this_peer_id`, and the
code branches on the peer's role: the transfer's source (`handle_transferred_shard_proxy`),
its target (`finalize_partial_shard`) or a third party (`change_remote_shard_route`).

Two properties are asked of this: that every shard keeps an `Active` replica, and that all
peers keep equal replica maps and transfer sets.

`set_shard_replica_state` refuses to deactivate the last `Active` replica
(`hasActiveReplica_ensureReplicaWithState`), and a started transfer demotes only its target,
so both keep an `Active` replica in every shard (`everyShardActive_setShardReplicaState`,
`everyShardActive_handleTransfer_start`), the first for any state but `Dead`, whose aborted
transfers the guard does not see, the second for a transfer between two peers.  But
`validate_transfer` does not require `from ≠ to`, so a transfer of the only `Active` replica to
itself demotes it (`transfer_to_itself_deactivates_shard`).

On Finish the roles agree: source, target and third parties all reach `finishedPeers`, the
target `Active` and, after a move, the source gone (`finishShardTransfer_peers`), provided the
source still holds its local shard for a replication and the target holds the shard it
received.  Consensus does not keep the first: a replica removal that lands between a transfer's
start and its finish takes the source's local shard, and the source then fails where every other
peer succeeds (`finishShardTransfer_source_fails`, `finish_after_source_removal_diverges`).

The transfer task itself (sending the data, `proxify_local`) runs outside consensus and is not
modelled; `TableOfContent`'s `StorageError` wraps the `CollectionError`s here one for one.
-/
import Mathlib.Control.Monad.Basic
import Qdrant.Shards.ReplicaSet
import Qdrant.Lib.StateExcept

namespace Qdrant

open OrdMap StateExcept

/-- `ReplicaState`'s `Debug` text. -/
def ReplicaState.debug : ReplicaState → String
  | .active => "Active"
  | .dead => "Dead"
  | .partialShard => "Partial"
  | .initializing => "Initializing"
  | .listener => "Listener"

/-- `Option<ReplicaState>`'s `Debug` text. -/
def ReplicaState.debugOption : Option ReplicaState → String
  | some state => "Some(" ++ state.debug ++ ")"
  | none => "None"

/-- `ShardTransfer` (`from` and `to` are `fromPeer` and `toPeer`). -/
structure ShardTransfer where
  shardId : ShardId
  fromPeer : PeerId
  toPeer : PeerId
  sync : Bool
deriving DecidableEq, Repr

/-- `ShardTransferKey`. -/
structure ShardTransferKey where
  shardId : ShardId
  fromPeer : PeerId
  toPeer : PeerId
deriving DecidableEq, Repr

/-- `ShardTransfer::key`. -/
def ShardTransfer.key (transfer : ShardTransfer) : ShardTransferKey :=
  ⟨transfer.shardId, transfer.fromPeer, transfer.toPeer⟩

/-- `ShardTransferKey::check`. -/
def ShardTransferKey.check (key : ShardTransferKey) (transfer : ShardTransfer) : Bool :=
  key.shardId == transfer.shardId && key.fromPeer == transfer.fromPeer &&
    key.toPeer == transfer.toPeer

/-- `Collection`, for its shard holder: the replica set of each shard and the running
transfers (a `HashSet`). -/
structure Collection where
  name : String
  thisPeerId : PeerId
  shards : List (ShardId × ShardReplicaSet)
  sorted : Sorted shards
  shardTransfers : List ShardTransfer

/-- A computation on a peer's collection that keeps the writes made before an error. -/
abbrev CollectionStateM := StateExcept Collection CollectionError

namespace Collection

variable (c : Collection)

/-! ## 1. The shard holder -/

/-- `get_shard`. -/
def getShard (shardId : ShardId) : Option ShardReplicaSet := get? shardId c.shards

/-- A replica set changed in place (the code changes it through `&self`). -/
def setShard (shardId : ShardId) (rs : ShardReplicaSet) : Collection :=
  { c with shards := insert shardId rs c.shards, sorted := sorted_insert c.sorted }

/-- `register_start_shard_transfer`: `HashSet::insert`, true when the transfer is new. -/
def registerStartShardTransfer (transfer : ShardTransfer) : CollectionStateM Bool :=
  modifyGet fun c =>
    if transfer ∈ c.shardTransfers then (false, c)
    else (true, { c with shardTransfers := c.shardTransfers ++ [transfer] })

/-- `register_finish_transfer`: true when a transfer was removed. -/
def registerFinishTransfer (key : ShardTransferKey) : CollectionStateM Bool :=
  modifyGet fun c =>
    let shardTransfers := c.shardTransfers.filter fun transfer => !key.check transfer
    (shardTransfers.length != c.shardTransfers.length, { c with shardTransfers := shardTransfers })

/-- `get_transfer`. -/
def getTransfer (key : ShardTransferKey) : Option ShardTransfer := c.shardTransfers.find? key.check

/-- `get_related_transfers`: the transfers of the shard from or to the peer. -/
def getRelatedTransfers (shardId : ShardId) (peerId : PeerId) : List ShardTransfer :=
  (c.shardTransfers.filter fun transfer => transfer.shardId == shardId).filter fun transfer =>
    transfer.fromPeer == peerId || transfer.toPeer == peerId

/-! ## 2. The steps of a transfer -/

/-- `revert_proxy_shard_to_local`. -/
def revertProxyShardToLocal (shardId : ShardId) : CollectionStateM Bool := do
  let c ← get
  match c.getShard shardId with
  | none => pure false
  | some replicaSet =>
    let replicaSet ← liftExcept replicaSet.unProxifyLocal
    set (c.setShard shardId replicaSet)
    pure true

/-- `change_remote_shard_route`: a third party (or the target) routes to the new peer, and
drops the old one after a move. -/
def changeRemoteShardRoute (shardId : ShardId) (oldPeerId newPeerId : PeerId) (sync : Bool) :
    CollectionStateM Bool := do
  let c ← get
  match c.getShard shardId with
  | none => pure false
  | some replicaSet =>
    let replicaSet := if replicaSet.thisPeerId ≠ newPeerId then
        replicaSet.addRemote newPeerId .active
      else replicaSet
    let replicaSet := if !sync then replicaSet.removeRemote oldPeerId else replicaSet
    set (c.setShard shardId replicaSet)
    pure true

/-- `finalize_partial_shard`: the target's local shard becomes `Active`. -/
def finalizePartialShard (shardId : ShardId) : CollectionStateM Bool := do
  let c ← get
  match c.getShard shardId with
  | none => pure false
  | some replicaSet =>
    if !replicaSet.hasLocalShard then pure false
    else
      set (c.setShard shardId (replicaSet.setReplicaState replicaSet.thisPeerId .active))
      pure true

/-- `handle_transferred_shard_proxy`: the source marks the target `Active`, then keeps its
local shard (un-proxified) after a replication, or drops it after a move. -/
def handleTransferredShardProxy (shardId : ShardId) (toPeer : PeerId) (sync : Bool) :
    CollectionStateM Bool := do
  let c ← get
  match c.getShard shardId with
  | none => pure false
  | some replicaSet =>
    let replicaSet := replicaSet.addRemote toPeer .active
    set (c.setShard shardId replicaSet)
    if sync then
      let replicaSet ← liftExcept replicaSet.unProxifyLocal
      set (c.setShard shardId replicaSet)
    else
      set (c.setShard shardId replicaSet.removeLocal)
    pure true

/-- `start_shard_transfer`: the transfer is registered and its target marked `Partial` on every
peer; the result says whether this peer sends the data. -/
def startShardTransfer (shardTransfer : ShardTransfer) : CollectionStateM Bool := do
  let _ ← registerStartShardTransfer shardTransfer
  let c ← get
  match c.getShard shardTransfer.shardId with
  | none => throw (.serviceError ("Shard " ++ toString shardTransfer.shardId ++ " doesn't exist"))
  | some replicaSet =>
    let replicaSet := replicaSet.setReplicaState shardTransfer.toPeer .partialShard
    set (c.setShard shardTransfer.shardId replicaSet)
    pure (replicaSet.isLocal && replicaSet.thisPeerId == shardTransfer.fromPeer)

/-- `finish_shard_transfer`: each peer takes the branches of its roles. -/
def finishShardTransfer (transfer : ShardTransfer) : CollectionStateM Unit := do
  let thisPeerId := (← get).thisPeerId
  -- the source: unwrap the forward proxy or replace it with the remote
  if thisPeerId = transfer.fromPeer then
    let _ ← handleTransferredShardProxy transfer.shardId transfer.toPeer transfer.sync
  -- the target: promote the partial shard
  if thisPeerId = transfer.toPeer then
    let _ ← finalizePartialShard transfer.shardId
  -- everyone but the source: route to the target
  if thisPeerId ≠ transfer.fromPeer then
    let _ ← changeRemoteShardRoute transfer.shardId transfer.fromPeer transfer.toPeer transfer.sync
  let _ ← registerFinishTransfer transfer.key

/-- `_abort_shard_transfer`: the target is marked `Dead` after a replication and removed after
a move; the source takes its local shard back. -/
def abortShardTransfer (transferKey : ShardTransferKey) : CollectionStateM Unit := do
  let c ← get
  match c.getShard transferKey.shardId with
  | none => throw (.badRequest ("Shard " ++ toString transferKey.shardId ++ " doesn't exist"))
  | some replicaSet =>
    let sync := ((c.getTransfer transferKey).map (·.sync)).getD false
    let replicaSet := if sync then replicaSet.setReplicaState transferKey.toPeer .dead
      else replicaSet.removePeer transferKey.toPeer
    set (c.setShard transferKey.shardId replicaSet)
    if c.thisPeerId = transferKey.fromPeer then
      let _ ← revertProxyShardToLocal transferKey.shardId
    let _ ← registerFinishTransfer transferKey

/-- `initiate_local_partial_shard`, which the target runs before receiving the data. -/
def initiateLocalPartialShard (shardId : ShardId) : CollectionStateM Unit := do
  let c ← get
  match c.getShard shardId with
  | none => throw (.serviceError ("Shard " ++ toString shardId ++
      " doesn't exist, repartition is not supported yet"))
  | some replicaSet =>
    if !replicaSet.hasLocalShard then
      set (c.setShard shardId (replicaSet.setLocal (some .partialShard)))
    else
      -- a proxy is unwrapped first
      let replicaSet ← if !replicaSet.isLocal then liftExcept replicaSet.unProxifyLocal
        else pure replicaSet
      set (c.setShard shardId (replicaSet.setReplicaState replicaSet.thisPeerId .partialShard))

/-! ## 3. Replica states and removals -/

/-- The validation of `set_shard_replica_state`: the expected current state, and never the
last `Active` replica deactivated. -/
def checkSetShardReplicaState (replicaSet : ShardReplicaSet) (shardId : ShardId) (peerId : PeerId)
    (state : ReplicaState) (fromState : Option ReplicaState) : CollectionResult Unit :=
  let currentState := replicaSet.peerState peerId
  if fromState.isSome && currentState != fromState then
    .error (.badInputText ("Replica " ++ toString peerId ++ " of shard " ++ toString shardId ++
      " has state " ++ ReplicaState.debugOption currentState ++ ", but expected " ++
      ReplicaState.debugOption fromState))
  else
    let activeReplicas := replicaSet.replicaState.activePeers
    if state != .active && activeReplicas.length == 1 && activeReplicas.contains peerId then
      .error (.badInputText ("Cannot deactivate the last active replica " ++ toString peerId ++
        " of shard " ++ toString shardId))
    else .ok ()

/-- `set_shard_replica_state`: after the checks the replica takes the state; a `Dead` replica
aborts the transfers from or to it. -/
def setShardReplicaState (shardId : ShardId) (peerId : PeerId) (state : ReplicaState)
    (fromState : Option ReplicaState) : CollectionStateM Unit := do
  let c ← get
  let some replicaSet := c.getShard shardId
    | throw (.notFound ("Shard " ++ toString shardId))
  liftExcept (checkSetShardReplicaState replicaSet shardId peerId state fromState)
  set (c.setShard shardId (replicaSet.ensureReplicaWithState peerId state))
  if state = .dead then
    (c.getRelatedTransfers shardId peerId).forM fun transfer => abortShardTransfer transfer.key

/-- The validation of one `Change::Remove` in `handle_replica_changes`: the peer has a replica,
and it is not the shard's only one. -/
def checkReplicaRemoval (replicaSet : ShardReplicaSet) (shardId : ShardId) (peerId : PeerId) :
    CollectionResult Unit :=
  let peers := replicaSet.replicaState.peers
  if (get? peerId peers).isNone then
    .error (.badRequest ("Peer " ++ toString peerId ++ " has no replica of shard " ++
      toString shardId))
  else if peers.length == 1 then
    .error (.badRequest ("Shard " ++ toString shardId ++ " must have at least one replica"))
  else .ok ()

/-- One `Change::Remove(shard_id, peer_id)` of `handle_replica_changes`. -/
def removeReplica (change : ShardId × PeerId) : CollectionStateM Unit := do
  let (shardId, peerId) := change
  let c ← get
  let some replicaSet := c.getShard shardId
    | throw (.badRequest ("Shard " ++ toString shardId ++ " of " ++ c.name ++ " not found"))
  liftExcept (checkReplicaRemoval replicaSet shardId peerId)
  set (c.setShard shardId (replicaSet.removePeer peerId))

/-- `handle_replica_changes`. -/
def handleReplicaChanges (replicaChanges : List (ShardId × PeerId)) : CollectionStateM Unit :=
  replicaChanges.forM removeReplica

end Collection

/-! ## 4. Validation and the consensus operations -/

/-- `check_transfer_conflicts`: a transfer of the same shard from or to either peer. -/
def checkTransferConflicts (transfer : ShardTransfer) (currentTransfers : List ShardTransfer) :
    Option ShardTransfer :=
  (currentTransfers.filter fun t => t.shardId == transfer.shardId).find? fun t =>
    t.fromPeer == transfer.fromPeer || t.toPeer == transfer.fromPeer ||
      t.fromPeer == transfer.toPeer || t.toPeer == transfer.toPeer

/-- `validate_transfer`: the shard exists, both peers exist, the source is `Active`, and no
transfer conflicts.  It does not ask the two peers to differ. -/
def validateTransfer (transfer : ShardTransfer) (allPeers : List PeerId)
    (shardState : Option (List (PeerId × ReplicaState))) (currentTransfers : List ShardTransfer) :
    CollectionResult Unit :=
  match shardState with
  | none => .error (.serviceError ("Shard " ++ toString transfer.shardId ++ " does not exist"))
  | some shardState =>
    if transfer.fromPeer ∉ allPeers then
      .error (.badRequest ("Peer " ++ toString transfer.fromPeer ++ " does not exist"))
    else if transfer.toPeer ∉ allPeers then
      .error (.badRequest ("Peer " ++ toString transfer.toPeer ++ " does not exist"))
    else if get? transfer.fromPeer shardState != some .active then
      .error (.badRequest ("Shard " ++ toString transfer.shardId ++ " is not active on peer " ++
        toString transfer.fromPeer))
    else match checkTransferConflicts transfer currentTransfers with
      | some existingTransfer =>
        .error (.badRequest ("Shard " ++ toString transfer.shardId ++
          " is already involved in transfer " ++ toString existingTransfer.fromPeer ++ " -> " ++
          toString existingTransfer.toPeer))
      | none => .ok ()

/-- `validate_transfer_exists`. -/
def validateTransferExists (transferKey : ShardTransferKey)
    (currentTransfers : List ShardTransfer) : CollectionResult Unit :=
  if !currentTransfers.any fun t => t.key == transferKey then
    .error (.badRequest ("There is no transfer for shard " ++ toString transferKey.shardId ++
      " from " ++ toString transferKey.fromPeer ++ " to " ++ toString transferKey.toPeer))
  else .ok ()

/-- `ShardTransferOperations`. -/
inductive ShardTransferOperations where
  | start (transfer : ShardTransfer)
  | finish (transfer : ShardTransfer)
  | abort (transfer : ShardTransferKey) (reason : String)

/-- The consensus operations on a collection's replicas. -/
inductive ReplicaMetaOperation where
  | setShardReplicaState (shardId : ShardId) (peerId : PeerId) (state : ReplicaState)
      (fromState : Option ReplicaState)
  | transferShard (operation : ShardTransferOperations)
  | updateCollection (replicaChanges : List (ShardId × PeerId))

namespace Collection

/-- `TableOfContent::handle_transfer`: each operation validated against this peer's copy
(`allPeers` are the peers the cluster knows), then applied. -/
def handleTransfer (allPeers : List PeerId) : ShardTransferOperations → CollectionStateM Unit
  | .start transfer => do
    let c ← get
    liftExcept (validateTransfer transfer allPeers
      ((c.getShard transfer.shardId).map (·.replicaState.peers)) c.shardTransfers)
    let _ ← startShardTransfer transfer
  | .finish transfer => do
    liftExcept (validateTransferExists transfer.key (← get).shardTransfers)
    finishShardTransfer transfer
  | .abort transfer _ => do
    liftExcept (validateTransferExists transfer (← get).shardTransfers)
    abortShardTransfer transfer

/-- A consensus operation on the replicas, as `TableOfContent` routes it. -/
def applyMetaOperation (allPeers : List PeerId) : ReplicaMetaOperation → CollectionStateM Unit
  | .setShardReplicaState shardId peerId state fromState =>
    setShardReplicaState shardId peerId state fromState
  | .transferShard operation => handleTransfer allPeers operation
  | .updateCollection replicaChanges => handleReplicaChanges replicaChanges

/-! ## 5. Running the steps -/

section Steps

variable (c : Collection)

@[simp] theorem getShard_setShard (shardId shardId' : ShardId) (rs : ShardReplicaSet) :
    (c.setShard shardId' rs).getShard shardId =
      if shardId = shardId' then some rs else c.getShard shardId :=
  get?_insert shardId shardId' rs c.shards

@[simp] theorem thisPeerId_setShard (shardId : ShardId) (rs : ShardReplicaSet) :
    (c.setShard shardId rs).thisPeerId = c.thisPeerId := rfl

@[simp] theorem shardTransfers_setShard (shardId : ShardId) (rs : ShardReplicaSet) :
    (c.setShard shardId rs).shardTransfers = c.shardTransfers := rfl

@[simp] theorem setShard_setShard (shardId : ShardId) (rs rs' : ShardReplicaSet) :
    (c.setShard shardId rs).setShard shardId rs' = c.setShard shardId rs' := by
  simp [setShard]

theorem run_registerFinishTransfer (key : ShardTransferKey) :
    (registerFinishTransfer key).run c =
      (.ok ((c.shardTransfers.filter fun t => !key.check t).length != c.shardTransfers.length),
        { c with shardTransfers := c.shardTransfers.filter fun t => !key.check t }) := rfl

variable {c} {shardId : ShardId} {rs : ShardReplicaSet}

/-- The source's step: the target `Active`, and the local shard kept un-proxified after a
replication or dropped after a move. -/
theorem run_handleTransferredShardProxy (hshard : c.getShard shardId = some rs) (toPeer : PeerId)
    (sync : Bool)
    (hlocal : sync = true →
      rs.localShard = some .local ∨ ∃ p, rs.localShard = some (.forwardProxy p)) :
    (handleTransferredShardProxy shardId toPeer sync).run c =
      (.ok true, c.setShard shardId (if sync
        then { rs.addRemote toPeer .active with localShard := some .local }
        else (rs.addRemote toPeer .active).removeLocal)) := by
  cases sync
  · simp [handleTransferredShardProxy, hshard]
  · have hok := (rs.addRemote toPeer .active).unProxifyLocal_eq_ok (by simpa using hlocal rfl)
    simp [handleTransferredShardProxy, hshard, hok]

/-- The target's step: its local shard, when it has one, becomes `Active`. -/
theorem run_finalizePartialShard (hshard : c.getShard shardId = some rs) :
    (finalizePartialShard shardId).run c =
      if rs.hasLocalShard then
        (.ok true, c.setShard shardId (rs.setReplicaState rs.thisPeerId .active))
      else (.ok false, c) := by
  cases h : rs.hasLocalShard <;> simp [finalizePartialShard, hshard, h]

/-- Everyone's step but the source's: the new peer `Active` unless it is this one, and the old
peer gone after a move. -/
theorem run_changeRemoteShardRoute (hshard : c.getShard shardId = some rs)
    (oldPeerId newPeerId : PeerId) (sync : Bool) :
    (changeRemoteShardRoute shardId oldPeerId newPeerId sync).run c =
      (.ok true, c.setShard shardId
        (let rs := if rs.thisPeerId ≠ newPeerId then rs.addRemote newPeerId .active else rs
         if !sync then rs.removeRemote oldPeerId else rs)) := by
  simp [changeRemoteShardRoute, hshard]

/-- `finalize_partial_shard` on the replica set a step before it wrote. -/
theorem run_finalizePartialShard_setShard (c : Collection) (shardId : ShardId)
    (rs : ShardReplicaSet) :
    (finalizePartialShard shardId).run (c.setShard shardId rs) =
      if rs.hasLocalShard then
        (.ok true, c.setShard shardId (rs.setReplicaState rs.thisPeerId .active))
      else (.ok false, c.setShard shardId rs) := by
  have hshard : (c.setShard shardId rs).getShard shardId = some rs := by simp
  rw [run_finalizePartialShard hshard, setShard_setShard]

/-- `change_remote_shard_route` on the replica set a step before it wrote. -/
theorem run_changeRemoteShardRoute_setShard (c : Collection) (shardId : ShardId)
    (rs : ShardReplicaSet) (oldPeerId newPeerId : PeerId) (sync : Bool) :
    (changeRemoteShardRoute shardId oldPeerId newPeerId sync).run (c.setShard shardId rs) =
      (.ok true, c.setShard shardId
        (let rs := if rs.thisPeerId ≠ newPeerId then rs.addRemote newPeerId .active else rs
         if !sync then rs.removeRemote oldPeerId else rs)) := by
  have hshard : (c.setShard shardId rs).getShard shardId = some rs := by simp
  rw [run_changeRemoteShardRoute hshard, setShard_setShard]

end Steps

/-! ## 6. Every role finishes a transfer with the same replica map -/

/-- The replica map a finished transfer leaves, whatever the peer: the target `Active`, and after
a move (`sync = false`) the source gone. -/
def finishedPeers (transfer : ShardTransfer) (peers : List (PeerId × ReplicaState)) :
    List (PeerId × ReplicaState) :=
  let peers := insert transfer.toPeer .active peers
  if transfer.sync then peers else erase transfer.fromPeer peers

section Finish

variable {c : Collection} {rs : ShardReplicaSet}

/-- `finish_shard_transfer` on any peer: the source (which may also be the target) through
`handle_transferred_shard_proxy`, the target through `finalize_partial_shard` and
`change_remote_shard_route`, a third party through `change_remote_shard_route` alone.  Given that
the source still holds its local shard for a replication and the target holds the shard it
received, every one of them succeeds, drops the transfer, and leaves the shard's replica map at
`finishedPeers`. -/
theorem finishShardTransfer_peers (transfer : ShardTransfer)
    (hshard : c.getShard transfer.shardId = some rs) (hthis : rs.thisPeerId = c.thisPeerId)
    (hsource : c.thisPeerId = transfer.fromPeer → transfer.sync = true →
      rs.localShard = some .local ∨ ∃ p, rs.localShard = some (.forwardProxy p))
    (htarget : c.thisPeerId = transfer.toPeer → c.thisPeerId ≠ transfer.fromPeer →
      rs.hasLocalShard = true) :
    ∃ rs', (finishShardTransfer transfer).run c =
        (.ok (), { c.setShard transfer.shardId rs' with
          shardTransfers := c.shardTransfers.filter fun t => !transfer.key.check t }) ∧
      rs'.replicaState.peers = finishedPeers transfer rs.replicaState.peers := by
  obtain ⟨shardId, fromPeer, toPeer, sync⟩ := transfer
  dsimp only at hshard hsource htarget ⊢
  by_cases hfrom : c.thisPeerId = fromPeer
  · -- the source; for a transfer to itself also the target
    subst hfrom
    have hhandle := run_handleTransferredShardProxy hshard toPeer sync (hsource rfl)
    cases sync
    · -- a move: the local shard is dropped, so the target step finds nothing to promote
      refine ⟨(rs.addRemote toPeer .active).removeLocal, ?_, ?_⟩
      · by_cases hto : c.thisPeerId = toPeer
        · simp [finishShardTransfer, run_bind, hhandle, hto, run_finalizePartialShard_setShard,
            run_registerFinishTransfer, ShardReplicaSet.hasLocalShard]
        · simp [finishShardTransfer, run_bind, hhandle, hto, run_registerFinishTransfer]
      · simp [finishedPeers, hthis]
    · -- a replication: the local shard stays, and is promoted when the source is the target
      by_cases hto : c.thisPeerId = toPeer
      · subst hto
        refine ⟨({ rs.addRemote c.thisPeerId .active with localShard := some .local }).setReplicaState
          c.thisPeerId .active, ?_, ?_⟩
        · have hthis₁ : (rs.addRemote c.thisPeerId .active).replicaState.thisPeerId =
              c.thisPeerId := (rs.thisPeerId_addRemote _ _).trans hthis
          simp [finishShardTransfer, run_bind, hhandle, run_finalizePartialShard_setShard,
            run_registerFinishTransfer, ShardReplicaSet.hasLocalShard, ShardReplicaSet.thisPeerId,
            hthis₁]
        · simp [finishedPeers]
      · refine ⟨{ rs.addRemote toPeer .active with localShard := some .local }, ?_, ?_⟩
        · simp [finishShardTransfer, run_bind, hhandle, hto, run_registerFinishTransfer]
        · simp [finishedPeers]
  · by_cases hto : c.thisPeerId = toPeer
    · -- the target: its partial shard promoted, then the route kept to itself
      subst hto
      have hfin := run_finalizePartialShard (c := c) hshard
      rw [if_pos (htarget rfl hfrom)] at hfin
      cases sync
      · refine ⟨(rs.setReplicaState rs.thisPeerId .active).removeRemote fromPeer, ?_, ?_⟩
        · simp [finishShardTransfer, run_bind, hfrom, hfin, run_changeRemoteShardRoute_setShard,
            run_registerFinishTransfer, hthis]
        · simp [finishedPeers, hthis]
      · refine ⟨rs.setReplicaState rs.thisPeerId .active, ?_, ?_⟩
        · simp [finishShardTransfer, run_bind, hfrom, hfin, run_changeRemoteShardRoute_setShard,
            run_registerFinishTransfer, hthis]
        · simp [finishedPeers, hthis]
    · -- a third party: only the route changes
      have hroute := run_changeRemoteShardRoute hshard fromPeer toPeer sync
      have hnew : rs.thisPeerId ≠ toPeer := hthis ▸ hto
      cases sync
      · refine ⟨(rs.addRemote toPeer .active).removeRemote fromPeer, ?_, ?_⟩
        · simp [finishShardTransfer, run_bind, hfrom, hto, hroute, hnew,
            run_registerFinishTransfer]
        · simp [finishedPeers]
      · refine ⟨rs.addRemote toPeer .active, ?_, ?_⟩
        · simp [finishShardTransfer, run_bind, hfrom, hto, hroute, hnew,
            run_registerFinishTransfer]
        · simp [finishedPeers]

theorem finishShardTransfer_peers_replication :
    let rs : ShardReplicaSet :=
      ⟨some .local, [], ⟨true, 1, [(1, .active), (2, .partialShard)], by decide⟩, ∅, 0,
        "collection", 1⟩
    let c : Collection := ⟨"collection", 1, [(0, rs)], by decide, [⟨0, 1, 2, true⟩]⟩
    let transfer : ShardTransfer := ⟨0, 1, 2, true⟩
    c.getShard transfer.shardId = some rs ∧ rs.thisPeerId = c.thisPeerId ∧
      (rs.localShard = some .local ∨ ∃ p, rs.localShard = some (.forwardProxy p)) ∧
      c.thisPeerId ≠ transfer.toPeer ∧
      ∃ rs', (finishShardTransfer transfer).run c =
          (.ok (), { c.setShard transfer.shardId rs' with
            shardTransfers := c.shardTransfers.filter fun t => !transfer.key.check t }) ∧
        rs'.replicaState.peers = finishedPeers transfer rs.replicaState.peers := by
  intro rs c transfer
  have hshard : c.getShard transfer.shardId = some rs := rfl
  have hlocal : rs.localShard = some .local ∨ ∃ p, rs.localShard = some (.forwardProxy p) :=
    Or.inl rfl
  have hto : c.thisPeerId ≠ transfer.toPeer := by decide
  exact ⟨hshard, rfl, hlocal, hto,
    finishShardTransfer_peers transfer hshard rfl (fun _ _ => hlocal) (fun h => absurd h hto)⟩

end Finish

end Collection

/-! ## 7. An `Active` replica for every shard -/

namespace ShardReplicaSet

/-- Some replica of the shard is `Active`. -/
def HasActiveReplica (rs : ShardReplicaSet) : Prop := rs.replicaState.activePeers ≠ []

instance (rs : ShardReplicaSet) : Decidable rs.HasActiveReplica :=
  inferInstanceAs (Decidable (rs.replicaState.activePeers ≠ []))

variable {rs : ShardReplicaSet}

theorem hasActiveReplica_iff : rs.HasActiveReplica ↔ ∃ p, rs.peerState p = some .active := by
  constructor
  · intro h
    obtain ⟨p, hp⟩ := List.exists_mem_of_ne_nil _ h
    exact ⟨p, rs.replicaState.mem_activePeers.mp hp⟩
  · rintro ⟨p, hp⟩
    exact List.ne_nil_of_mem (rs.replicaState.mem_activePeers.mpr hp)

/-- The guard of `set_shard_replica_state`: a change it lets through keeps an `Active`
replica, since it only demotes a peer that is not the sole `Active` one. -/
theorem hasActiveReplica_ensureReplicaWithState {shardId : ShardId} {peerId : PeerId}
    {state : ReplicaState} {fromState : Option ReplicaState}
    (hcheck : Collection.checkSetShardReplicaState rs shardId peerId state fromState = .ok ())
    (hactive : rs.HasActiveReplica) : (rs.ensureReplicaWithState peerId state).HasActiveReplica := by
  have hstate : ∀ q, (rs.ensureReplicaWithState peerId state).peerState q =
      if q = peerId then some state else rs.peerState q := by
    intro q
    simp [peerState_eq, get?_insert]
  rw [hasActiveReplica_iff]
  by_cases hact : state = .active
  · exact ⟨peerId, by rw [hstate, if_pos rfl, hact]⟩
  · have hguard : ¬(rs.replicaState.activePeers.length = 1 ∧ peerId ∈ rs.replicaState.activePeers) := by
      rintro ⟨hlen, hmem⟩
      dsimp only [Collection.checkSetShardReplicaState] at hcheck
      split at hcheck
      · cases hcheck
      · simp [hact, hlen, hmem] at hcheck
    obtain ⟨q, hq, hqp⟩ := rs.replicaState.exists_active_ne hactive hguard
    exact ⟨q, by rw [hstate, if_neg hqp]; exact rs.replicaState.mem_activePeers.mp hq⟩

end ShardReplicaSet

namespace Collection

/-- Every shard of the collection has an `Active` replica. -/
def EveryShardActive (c : Collection) : Prop := ∀ e ∈ c.shards, e.2.HasActiveReplica

instance (c : Collection) : Decidable c.EveryShardActive :=
  inferInstanceAs (Decidable (∀ e ∈ c.shards, e.2.HasActiveReplica))

section Active

variable {c : Collection}

theorem EveryShardActive.getShard (hc : c.EveryShardActive) {shardId : ShardId}
    {rs : ShardReplicaSet} (hshard : c.getShard shardId = some rs) : rs.HasActiveReplica :=
  hc (shardId, rs) (mem_of_get? hshard)

theorem EveryShardActive.setShard (hc : c.EveryShardActive) {shardId : ShardId}
    {rs : ShardReplicaSet} (hrs : rs.HasActiveReplica) : (c.setShard shardId rs).EveryShardActive := by
  intro e he
  rcases mem_of_mem_insert he with rfl | he
  · exact hrs
  · exact hc e he

/-- `set_shard_replica_state` to any state but `Dead` keeps an `Active` replica in every shard:
a `Dead` replica also aborts its transfers, which the guard does not see. -/
theorem everyShardActive_setShardReplicaState (shardId : ShardId) (peerId : PeerId)
    {state : ReplicaState} (fromState : Option ReplicaState) (hdead : state ≠ .dead) :
    Preserves EveryShardActive (setShardReplicaState shardId peerId state fromState) := by
  intro c hc
  cases hshard : c.getShard shardId with
  | none => simpa [setShardReplicaState, hshard] using hc
  | some rs =>
    cases hcheck : checkSetShardReplicaState rs shardId peerId state fromState with
    | error e => simpa [setShardReplicaState, hshard, hcheck] using hc
    | ok u =>
      have hactive : (c.setShard shardId (rs.ensureReplicaWithState peerId state)).EveryShardActive :=
        hc.setShard
          (ShardReplicaSet.hasActiveReplica_ensureReplicaWithState hcheck (hc.getShard hshard))
      simpa [setShardReplicaState, hshard, hcheck, hdead] using hactive

theorem everyShardActive_setShardReplicaState_partial :
    ReplicaState.partialShard ≠ .dead ∧
      Preserves EveryShardActive (setShardReplicaState 0 1 .partialShard (some .active)) :=
  ⟨by decide, everyShardActive_setShardReplicaState 0 1 (some .active) (by decide)⟩

/-- `validate_transfer` lets a transfer through only from an `Active` replica of an existing
shard. -/
theorem active_of_validateTransfer {transfer : ShardTransfer} {allPeers : List PeerId}
    {shardState : Option (List (PeerId × ReplicaState))} {currentTransfers : List ShardTransfer}
    (h : validateTransfer transfer allPeers shardState currentTransfers = .ok ()) :
    ∃ peers, shardState = some peers ∧ get? transfer.fromPeer peers = some .active := by
  unfold validateTransfer at h
  split at h
  · cases h
  · next peers =>
    refine ⟨peers, rfl, ?_⟩
    -- the failing checks are refuted by `h`; what is left is the source's state
    split_ifs at h with h₁ h₂ h₃
    simpa using h₃

theorem shards_startShardTransfer (transfer : ShardTransfer) {rs : ShardReplicaSet}
    (hshard : c.getShard transfer.shardId = some rs) :
    ((startShardTransfer transfer).run c).2.shards =
      insert transfer.shardId (rs.setReplicaState transfer.toPeer .partialShard) c.shards := by
  unfold getShard at hshard
  by_cases hmem : transfer ∈ c.shardTransfers <;>
    simp [startShardTransfer, registerStartShardTransfer, run_bind, hmem, getShard, hshard,
      setShard]

/-- A started transfer demotes only its target: between two peers it keeps the source, which
validation found `Active`. -/
theorem everyShardActive_handleTransfer_start (allPeers : List PeerId) (transfer : ShardTransfer)
    (hne : transfer.fromPeer ≠ transfer.toPeer) :
    Preserves EveryShardActive (handleTransfer allPeers (.start transfer)) := by
  intro c hc
  cases hvalid : validateTransfer transfer allPeers
      ((c.getShard transfer.shardId).map (·.replicaState.peers)) c.shardTransfers with
  | error e => simpa [handleTransfer, hvalid] using hc
  | ok u =>
    obtain ⟨peers, hpeers, hfrom⟩ := active_of_validateTransfer hvalid
    obtain ⟨rs, hshard, rfl⟩ := Option.map_eq_some_iff.mp hpeers
    -- the source keeps its state, so the demoted replica set still has an `Active` replica
    have hactive : (rs.setReplicaState transfer.toPeer .partialShard).HasActiveReplica := by
      refine ShardReplicaSet.hasActiveReplica_iff.mpr ⟨transfer.fromPeer, ?_⟩
      simp [ShardReplicaSet.peerState_eq, get?_insert, hne, hfrom]
    have hstart : (c.setShard transfer.shardId
        (rs.setReplicaState transfer.toPeer .partialShard)).EveryShardActive := hc.setShard hactive
    have hrun : ((handleTransfer allPeers (.start transfer)).run c).2.shards =
        ((startShardTransfer transfer).run c).2.shards := by
      simp [handleTransfer, hvalid]
    intro e he
    rw [hrun, shards_startShardTransfer transfer hshard] at he
    exact hstart e he

theorem everyShardActive_handleTransfer_start_move :
    (⟨0, 1, 2, false⟩ : ShardTransfer).fromPeer ≠ (⟨0, 1, 2, false⟩ : ShardTransfer).toPeer ∧
      Preserves EveryShardActive (handleTransfer [1, 2] (.start ⟨0, 1, 2, false⟩)) :=
  ⟨by decide, everyShardActive_handleTransfer_start [1, 2] ⟨0, 1, 2, false⟩ (by decide)⟩

/-- A transfer of a shard's only `Active` replica to the same peer passes `validate_transfer`,
and starting it marks that replica `Partial`: the shard is left without an `Active` replica. -/
theorem transfer_to_itself_deactivates_shard :
    let c : Collection := ⟨"collection", 1,
      [(0, ⟨some .local, [], ⟨true, 1, [(1, .active)], by decide⟩, ∅, 0, "collection", 1⟩)],
      by decide, []⟩
    c.EveryShardActive ∧
      ∃ c', (applyMetaOperation [1] (.transferShard (.start ⟨0, 1, 1, false⟩))).run c =
          (.ok (), c') ∧
        c'.getShard 0 ≠ none ∧ ¬ c'.EveryShardActive := by
  intro c
  refine ⟨by decide, _, rfl, by decide, by decide⟩

end Active

/-! ## 8. Two peers applying the same operations -/

/-- Two peers hold the same replica map for every shard and the same transfers. -/
def SameReplicas (c₁ c₂ : Collection) : Prop :=
  c₁.shards.map (fun e => (e.1, e.2.replicaState.peers)) =
      c₂.shards.map (fun e => (e.1, e.2.replicaState.peers)) ∧
    c₁.shardTransfers = c₂.shardTransfers

instance (c₁ c₂ : Collection) : Decidable (SameReplicas c₁ c₂) :=
  inferInstanceAs (Decidable (_ ∧ _))

/-- A peer holds a local shard exactly for the shards whose replica map lists it. -/
def LocalShardsFollowMap (c : Collection) : Prop :=
  ∀ e ∈ c.shards, e.2.hasLocalShard = (e.2.peerState c.thisPeerId).isSome

instance (c : Collection) : Decidable c.LocalShardsFollowMap :=
  inferInstanceAs (Decidable (∀ e ∈ c.shards, _))

/-- The source of a replication that no longer holds its local shard fails to finish it, after
marking the target `Active`, and keeps the transfer registered: every other peer succeeds
(`finishShardTransfer_peers`) and drops it. -/
theorem finishShardTransfer_source_fails {c : Collection} {rs : ShardReplicaSet}
    (transfer : ShardTransfer) (hshard : c.getShard transfer.shardId = some rs)
    (hfrom : c.thisPeerId = transfer.fromPeer) (hsync : transfer.sync = true)
    (hnone : rs.localShard = none) :
    ∃ e, (finishShardTransfer transfer).run c =
      (.error e, c.setShard transfer.shardId (rs.addRemote transfer.toPeer .active)) := by
  obtain ⟨e, he⟩ : ∃ e, (rs.addRemote transfer.toPeer .active).unProxifyLocal = .error e :=
    ⟨_, (rs.addRemote transfer.toPeer .active).unProxifyLocal_of_none (by simpa using hnone)⟩
  exact ⟨e, by simp [finishShardTransfer, run_bind, hfrom, handleTransferredShardProxy, hshard,
    hsync, he]⟩

/-- Both peers start from the same replica map, `{1: Active}`, with the local shard on peer 1
only.  A replication from 1 to 2 starts, peer 2 initiates its partial shard, and the replica on
peer 1 is removed; the peers still agree.  Then the transfer finishes: peer 2 promotes its shard
and drops the transfer, while peer 1, the source, fails to un-proxify the local shard it no
longer has and keeps the transfer. -/
theorem finish_after_source_removal_diverges :
    let source : Collection := ⟨"collection", 1,
      [(0, ⟨some .local, [], ⟨true, 1, [(1, .active)], by decide⟩, ∅, 0, "collection", 1⟩)],
      by decide, []⟩
    let target : Collection := ⟨"collection", 2,
      [(0, ⟨none, [1], ⟨false, 2, [(1, .active)], by decide⟩, ∅, 0, "collection", 1⟩)],
      by decide, []⟩
    let transfer : ShardTransfer := ⟨0, 1, 2, true⟩
    let op := applyMetaOperation [1, 2]
    SameReplicas source target ∧ source.LocalShardsFollowMap ∧ target.LocalShardsFollowMap ∧
      ∃ s₁ s₂,
        (op (.transferShard (.start transfer)) >>= fun _ =>
          op (.updateCollection [(0, 1)])).run source = (.ok (), s₁) ∧
        (op (.transferShard (.start transfer)) >>= fun _ => initiateLocalPartialShard 0 >>= fun _ =>
          op (.updateCollection [(0, 1)])).run target = (.ok (), s₂) ∧
        SameReplicas s₁ s₂ ∧
        ((op (.transferShard (.finish transfer))).run s₁).1 =
          .error (.serviceError
            "Cannot un-proxify local shard 0 on peer 1 because it is not active") ∧
        ((op (.transferShard (.finish transfer))).run s₂).1 = .ok () ∧
        ¬ SameReplicas ((op (.transferShard (.finish transfer))).run s₁).2
          ((op (.transferShard (.finish transfer))).run s₂).2 := by
  intro source target transfer op
  refine ⟨by decide, by decide, by decide, _, _, rfl, rfl, by decide, by decide, by decide, by decide⟩

end Collection

end Qdrant
