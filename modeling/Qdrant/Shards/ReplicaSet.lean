/-
# A shard's replica set: replica states and locally disabled peers

`shards/replica_set.rs`.  A `ShardReplicaSet` holds this peer's local shard (if any), the
remote replicas, the persisted state of every peer's replica (`ReplicaSetState`), and the peers
DISABLED LOCALLY: peers an update failed on, used neither for reads nor for updates until
consensus changes their state.  A peer serves reads when its state is `Active` and it is not
locally disabled (`peer_is_active`).

Every change of a replica's state (`set_replica_state`, `add_remote`, `remove_remote`,
`remove_local`, `set_local`, `remove_peer`, `add_peer`, `apply_state`) ends in
`update_locally_disabled`, which re-enables the changed peer and, when exactly one peer is
Active, that peer.  So none of them ever disables a peer, and each leaves a sole Active
replica enabled (`KeepsEnabled`, `keepsEnabled_*`); over every run of them the same holds
(`keepsEnabled_of_changes`).  Only the update paths
disable peers — `handle_failed_replicas` and a failed forward in `update_with_consistency` —
and NEITHER applies the last-active check: when the only Active replica fails an update that a
Partial replica applies, no peer is left to read from (`update_disables_last_active`).

The shards' data is not modelled: an update's per-replica outcome, and whether consensus
deactivates the failed peers in time, are parameters.  `notify_peer_failure` only proposes a
consensus operation and leaves the replica set as it is.
-/
import Mathlib.Data.Finset.Basic
import Qdrant.Lib.OrdMap
import Qdrant.Collection.Updater

namespace Qdrant

open OrdMap

/-- `ReplicaState` (`Partial` is `partialShard`: the shard is partly loaded and receiving
data). -/
inductive ReplicaState where
  | active
  | dead
  | partialShard
  | initializing
  | listener
deriving DecidableEq, Repr

/-- `PeerId`. -/
abbrev PeerId := ℕ

/-- `ShardId`. -/
abbrev ShardId := ℕ

/-- `Shard`, by the variants the replica-set code tells apart: a forward proxy wraps the local
shard and forwards its updates to the peer it names. -/
inductive Shard where
  | local
  | proxy
  | forwardProxy (remotePeerId : PeerId)
deriving DecidableEq, Repr

/-- `Shard::variant_name`. -/
def Shard.variantName : Shard → String
  | .local => "local shard"
  | .proxy => "proxy shard"
  | .forwardProxy _ => "forward proxy shard"

/-- `CollectionError::remote_peer_id`. -/
def CollectionError.remotePeerId : CollectionError → Option PeerId
  | .forwardProxyError peerId _ => some peerId
  | _ => none

/-- `ReplicaSetState`: whether this peer holds a replica, its id, and the state of each peer's
replica, keyed by peer. -/
structure ReplicaSetState where
  isLocal : Bool
  thisPeerId : PeerId
  peers : List (PeerId × ReplicaState)
  sorted : Sorted peers

namespace ReplicaSetState

variable (s : ReplicaSetState)

/-- `get_peer_state`. -/
def getPeerState (peerId : PeerId) : Option ReplicaState := get? peerId s.peers

/-- `set_peer_state`. -/
def setPeerState (peerId : PeerId) (state : ReplicaState) : ReplicaSetState :=
  { s with peers := insert peerId state s.peers, sorted := sorted_insert s.sorted }

/-- `remove_peer_state`. -/
def removePeerState (peerId : PeerId) : ReplicaSetState :=
  { s with peers := erase peerId s.peers, sorted := sorted_erase s.sorted }

/-- The peers whose replica is `Active`, as `update_locally_disabled` and
`set_shard_replica_state` collect them. -/
def activePeers : List PeerId := (s.peers.filter fun e => e.2 = .active).map Prod.fst

@[simp] theorem getPeerState_setPeerState (p q : PeerId) (state : ReplicaState) :
    (s.setPeerState q state).getPeerState p = if p = q then some state else s.getPeerState p :=
  get?_insert p q state s.peers

@[simp] theorem getPeerState_removePeerState (p q : PeerId) :
    (s.removePeerState q).getPeerState p = if p = q then none else s.getPeerState p :=
  get?_erase p q s.peers

theorem mem_activePeers {p : PeerId} : p ∈ s.activePeers ↔ s.getPeerState p = some .active := by
  constructor
  · intro h
    obtain ⟨⟨q, st⟩, hmem, rfl⟩ := List.mem_map.mp h
    have hst : st = .active := by simpa using (List.mem_filter.mp hmem).2
    subst hst
    exact get?_of_mem s.sorted (List.mem_filter.mp hmem).1
  · intro h
    exact List.mem_map.mpr ⟨(p, .active), List.mem_filter.mpr ⟨mem_of_get? h, by simp⟩, rfl⟩

/-- The `Active` peers in key order, each once. -/
theorem activePeers_pairwise : s.activePeers.Pairwise (· < ·) :=
  List.Pairwise.sublist (List.filter_sublist.map Prod.fst) s.sorted

/-- Besides a peer that is not the sole `Active` one, some other peer is `Active`. -/
theorem exists_active_ne {p : PeerId} (hne : s.activePeers ≠ [])
    (h : ¬(s.activePeers.length = 1 ∧ p ∈ s.activePeers)) : ∃ q ∈ s.activePeers, q ≠ p := by
  have hpw := s.activePeers_pairwise
  rcases hA : s.activePeers with _ | ⟨a, _ | ⟨b, l⟩⟩
  · exact absurd hA hne
  · rw [hA] at h
    exact ⟨a, List.mem_singleton_self a, fun hap => h ⟨rfl, by simp [hap]⟩⟩
  · -- two `Active` peers differ, since the keys ascend
    rw [hA] at hpw
    have hab : a < b := List.rel_of_pairwise_cons hpw (by simp)
    by_cases hap : a = p
    · refine ⟨b, by simp, fun hbp => ?_⟩
      subst hap hbp
      exact lt_irrefl _ hab
    · exact ⟨a, by simp, hap⟩

end ReplicaSetState

/-- `ShardReplicaSet`, for the fields the replica-state logic reads. -/
structure ShardReplicaSet where
  localShard : Option Shard
  remotes : List PeerId
  replicaState : ReplicaSetState
  locallyDisabledPeers : Finset PeerId
  shardId : ShardId
  collectionId : String
  readRemoteReplicas : ℕ

namespace ShardReplicaSet

variable (rs : ShardReplicaSet)

/-! ## 1. Reading the state -/

/-- `this_peer_id`. -/
def thisPeerId : PeerId := rs.replicaState.thisPeerId

/-- `has_local_shard`. -/
def hasLocalShard : Bool := rs.localShard.isSome

/-- `is_local`: the local shard is there and not wrapped in a proxy. -/
def isLocal : Bool := rs.localShard == some .local

/-- `peer_state`. -/
def peerState (peerId : PeerId) : Option ReplicaState := rs.replicaState.getPeerState peerId

/-- `is_locally_disabled`. -/
def isLocallyDisabled (peerId : PeerId) : Bool := decide (peerId ∈ rs.locallyDisabledPeers)

/-- `peer_is_active`: unknown peers are not active. -/
def peerIsActive (peerId : PeerId) : Bool :=
  rs.peerState peerId == some .active && !rs.isLocallyDisabled peerId

/-- `peer_is_active_or_pending`. -/
def peerIsActiveOrPending (peerId : PeerId) : Bool :=
  let res := match rs.peerState peerId with
    | some .active => true
    | some .partialShard => true
    | some .initializing => true
    | some .dead => false
    | some .listener => true
    | none => false
  res && !rs.isLocallyDisabled peerId

/-! ## 2. Changing replica states -/

/-- `update_locally_disabled`: the peer is re-enabled, and so is the only Active peer when
there is exactly one. -/
def updateLocallyDisabled (peerIdToRemove : PeerId) : ShardReplicaSet :=
  let locallyDisabled := rs.locallyDisabledPeers.erase peerIdToRemove
  { rs with locallyDisabledPeers :=
      match rs.replicaState.activePeers with
      | [lastPeer] => locallyDisabled.erase lastPeer
      | _ => locallyDisabled }

/-- `remove_remote`. -/
def removeRemote (peerId : PeerId) : ShardReplicaSet :=
  let rs := { rs with replicaState := rs.replicaState.removePeerState peerId }
  let rs := rs.updateLocallyDisabled peerId
  { rs with remotes := rs.remotes.filter (· ≠ peerId) }

/-- `add_remote`: a remote is created unless one exists for the peer. -/
def addRemote (peerId : PeerId) (state : ReplicaState) : ShardReplicaSet :=
  let rs := { rs with replicaState := rs.replicaState.setPeerState peerId state }
  let rs := rs.updateLocallyDisabled peerId
  if rs.remotes.contains peerId then rs else { rs with remotes := rs.remotes ++ [peerId] }

/-- `remove_local`. -/
def removeLocal : ShardReplicaSet :=
  let rs := { rs with replicaState :=
    { rs.replicaState with isLocal := false }.removePeerState rs.replicaState.thisPeerId }
  let rs := rs.updateLocallyDisabled rs.thisPeerId
  { rs with localShard := none }

/-- `set_local`: a new local shard, and this peer's state when one is given. -/
def setLocal (state : Option ReplicaState) : ShardReplicaSet :=
  let rs := { rs with localShard := some .local }
  let rs := if !rs.replicaState.isLocal || state.isSome then
      { rs with replicaState :=
          let s := { rs.replicaState with isLocal := true }
          match state with
          | some st => s.setPeerState rs.thisPeerId st
          | none => s }
    else rs
  rs.updateLocallyDisabled rs.thisPeerId

/-- `set_replica_state`. -/
def setReplicaState (peerId : PeerId) (state : ReplicaState) : ShardReplicaSet :=
  let s := if rs.replicaState.thisPeerId = peerId then { rs.replicaState with isLocal := true }
    else rs.replicaState
  { rs with replicaState := s.setPeerState peerId state }.updateLocallyDisabled peerId

/-- `remove_peer`. -/
def removePeer (peerId : PeerId) : ShardReplicaSet :=
  if rs.thisPeerId = peerId then rs.removeLocal else rs.removeRemote peerId

/-- `add_peer`: for this peer, a local shard is built unless one exists. -/
def addPeer (peerId : PeerId) (state : ReplicaState) : ShardReplicaSet :=
  if rs.thisPeerId = peerId then
    let hadLocal := rs.localShard.isSome
    let rs := rs.setReplicaState peerId state
    if hadLocal then rs else { rs with localShard := some .local }
  else rs.addRemote peerId state

/-- `ensure_replica_with_state`. -/
def ensureReplicaWithState (peerId : PeerId) (state : ReplicaState) : ShardReplicaSet :=
  if peerId = rs.replicaState.thisPeerId then rs.setReplicaState peerId state
  else rs.addRemote peerId state

/-- One new replica of `apply_state`: a local shard for this peer, a remote for another. -/
def applyNewReplica (oldPeers : List (PeerId × ReplicaState)) (rs : ShardReplicaSet)
    (replica : PeerId × ReplicaState) : ShardReplicaSet :=
  let (peerId, state) := replica
  if (get? peerId oldPeers).isSome then rs
  else if peerId = rs.thisPeerId then rs.setLocal (some state)
  else { rs with remotes := rs.remotes ++ [peerId] }

/-- `apply_state`: consensus's replica map replaces the persisted one, the locally disabled
peers are cleared, replicas gone from the map are removed and new ones created. -/
def applyState (replicas : List (PeerId × ReplicaState)) (hreplicas : Sorted replicas) :
    ShardReplicaSet :=
  let oldPeers := rs.replicaState.peers
  let rs := { rs with
    replicaState := { rs.replicaState with peers := replicas, sorted := hreplicas }
    locallyDisabledPeers := ∅ }
  let removedPeers := (oldPeers.map Prod.fst).filter fun peerId => (get? peerId replicas).isNone
  let rs := removedPeers.foldl removePeer rs
  replicas.foldl (applyNewReplica oldPeers) rs

/-- `un_proxify_local`: a forward proxy is unwrapped; a local shard stays as it is. -/
def unProxifyLocal : CollectionResult ShardReplicaSet :=
  match rs.localShard with
  | some (.forwardProxy _) => .ok { rs with localShard := some .local }
  | some .local => .ok rs
  | some shard => .error (.serviceError ("Cannot un-proxify local shard " ++ toString rs.shardId ++
      " because it has unexpected type - " ++ shard.variantName))
  | none => .error (.serviceError ("Cannot un-proxify local shard " ++ toString rs.shardId ++
      " on peer " ++ toString rs.thisPeerId ++ " because it is not active"))

/-! The replica map each change leaves, and what it keeps of the local shard. -/

theorem peerState_eq (p : PeerId) : rs.peerState p = get? p rs.replicaState.peers := rfl

@[simp] theorem peers_addRemote (p : PeerId) (state : ReplicaState) :
    (rs.addRemote p state).replicaState.peers = insert p state rs.replicaState.peers := by
  dsimp only [addRemote]
  split <;> rfl

@[simp] theorem peers_removeRemote (p : PeerId) :
    (rs.removeRemote p).replicaState.peers = erase p rs.replicaState.peers := rfl

@[simp] theorem peers_removeLocal :
    rs.removeLocal.replicaState.peers = erase rs.thisPeerId rs.replicaState.peers := rfl

@[simp] theorem peers_setReplicaState (p : PeerId) (state : ReplicaState) :
    (rs.setReplicaState p state).replicaState.peers = insert p state rs.replicaState.peers := by
  dsimp only [setReplicaState]
  split <;> rfl

@[simp] theorem peers_setLocal_some (state : ReplicaState) :
    (rs.setLocal (some state)).replicaState.peers =
      insert rs.thisPeerId state rs.replicaState.peers := by
  simp [setLocal, updateLocallyDisabled, ReplicaSetState.setPeerState, thisPeerId]

@[simp] theorem peers_removePeer (p : PeerId) :
    (rs.removePeer p).replicaState.peers = erase p rs.replicaState.peers := by
  unfold removePeer
  split
  · next h => rw [peers_removeLocal, h]
  · rfl

@[simp] theorem peers_ensureReplicaWithState (p : PeerId) (state : ReplicaState) :
    (rs.ensureReplicaWithState p state).replicaState.peers =
      insert p state rs.replicaState.peers := by
  unfold ensureReplicaWithState
  split <;> simp

@[simp] theorem thisPeerId_addRemote (p : PeerId) (state : ReplicaState) :
    (rs.addRemote p state).thisPeerId = rs.thisPeerId := by
  dsimp only [addRemote]
  split <;> rfl

@[simp] theorem thisPeerId_removeRemote (p : PeerId) :
    (rs.removeRemote p).thisPeerId = rs.thisPeerId := rfl

@[simp] theorem thisPeerId_setReplicaState (p : PeerId) (state : ReplicaState) :
    (rs.setReplicaState p state).thisPeerId = rs.thisPeerId := by
  dsimp only [setReplicaState]
  split <;> rfl

@[simp] theorem localShard_addRemote (p : PeerId) (state : ReplicaState) :
    (rs.addRemote p state).localShard = rs.localShard := by
  dsimp only [addRemote]
  split <;> rfl

@[simp] theorem localShard_removeRemote (p : PeerId) :
    (rs.removeRemote p).localShard = rs.localShard := rfl

@[simp] theorem localShard_removeLocal : rs.removeLocal.localShard = none := rfl

@[simp] theorem localShard_setReplicaState (p : PeerId) (state : ReplicaState) :
    (rs.setReplicaState p state).localShard = rs.localShard := rfl

/-- A local shard, plain or forward-proxied, is un-proxified into a plain one. -/
theorem unProxifyLocal_eq_ok
    (h : rs.localShard = some .local ∨ ∃ p, rs.localShard = some (.forwardProxy p)) :
    rs.unProxifyLocal = .ok { rs with localShard := some .local } := by
  rcases h with h | ⟨p, h⟩
  · unfold unProxifyLocal
    rw [h]
    obtain ⟨localShard, _, _, _, _, _, _⟩ := rs
    subst h
    rfl
  · simp [unProxifyLocal, h]

/-- Without a local shard, un-proxifying fails. -/
theorem unProxifyLocal_of_none (h : rs.localShard = none) :
    rs.unProxifyLocal = .error (.serviceError ("Cannot un-proxify local shard " ++
      toString rs.shardId ++ " on peer " ++ toString rs.thisPeerId ++
      " because it is not active")) := by
  simp [unProxifyLocal, h]

/-! ## 3. Updates -/

/-- One failure of `handle_failed_replicas`: a peer whose state is `Active` is disabled
locally, and a transient failure of it makes the update wait for its deactivation. -/
def handleFailedReplica (state : ReplicaSetState) (acc : Bool × ShardReplicaSet)
    (failure : PeerId × CollectionError) : Bool × ShardReplicaSet :=
  let (waitForDeactivation, rs) := acc
  let (peerId, err) := failure
  if state.getPeerState peerId = some .active then
    let transient := match err with
      | .serviceError _ | .cancelled _ => true
      | _ => false
    (waitForDeactivation || transient,
      { rs with locallyDisabledPeers := insert peerId rs.locallyDisabledPeers })
  else (waitForDeactivation, rs)

/-- `handle_failed_replicas`: whether the update has to wait for a deactivation. -/
def handleFailedReplicas (failures : List (PeerId × CollectionError)) (state : ReplicaSetState) :
    Bool × ShardReplicaSet :=
  failures.foldl (handleFailedReplica state) (false, rs)

/-- `DEFAULT_SHARD_DEACTIVATION_TIMEOUT`, in seconds. -/
def defaultShardDeactivationTimeout : ℕ := 30

/-- `partition_result`: the successes and the failures, each in order. -/
def partitionResult {ε α : Type} : List (Except ε α) → List α × List ε
  | [] => ([], [])
  | .ok a :: rest => (a :: (partitionResult rest).1, (partitionResult rest).2)
  | .error e :: rest => ((partitionResult rest).1, e :: (partitionResult rest).2)

/-- The answers `update` collects: from every remote that is active or pending, then from the
local shard when there is one and this peer is active or pending.  A local failure inside a
forward proxy is the remote peer's. -/
def updateResults {R : Type} (outcome : PeerId → CollectionResult R) :
    List (Except (PeerId × CollectionError) R) :=
  let activeRemoteShards := rs.remotes.filter rs.peerIsActiveOrPending
  let remoteRes := activeRemoteShards.map fun peerId =>
    (outcome peerId).mapError fun err => (peerId, err)
  if rs.localShard.isSome && rs.peerIsActiveOrPending rs.thisPeerId then
    remoteRes ++ [(outcome rs.thisPeerId).mapError fun err =>
      (err.remotePeerId.getD rs.thisPeerId, err)]
  else remoteRes

/-- `update`: `outcome` is what each replica's update returns; `shardsDisabled` is whether
consensus deactivated the failed peers before the timeout. -/
def update {R : Type} (outcome : PeerId → CollectionResult R) (wait : Bool)
    (writeConsistencyFactor : ℕ) (shardsDisabled : Bool) : CollectionResult R × ShardReplicaSet :=
  let activeRemoteShards := rs.remotes.filter rs.peerIsActiveOrPending
  let localIsUpdatable := rs.localShard.isSome && rs.peerIsActiveOrPending rs.thisPeerId
  if activeRemoteShards.isEmpty && !localIsUpdatable then
    (.error (.serviceError ("The replica set for shard " ++ toString rs.shardId ++ " on peer " ++
      toString rs.thisPeerId ++ " has no active replica")), rs)
  else
    let allRes := rs.updateResults outcome
    let successes := (partitionResult allRes).1
    let failures := (partitionResult allRes).2
    -- failures are handled only when some replica succeeded
    let handled := if successes.isEmpty then (false, rs)
      else rs.handleFailedReplicas failures rs.replicaState
    let waitForDeactivation := handled.1
    let res : CollectionResult R :=
      if !successes.isEmpty && wait && waitForDeactivation && !failures.isEmpty && !shardsDisabled
      then .error (.serviceError ("Some replica of shard " ++ toString rs.shardId ++
        " failed to apply operation and deactivation timed out after " ++
        toString defaultShardDeactivationTimeout ++
        " seconds. Consistency of this update is not guaranteed. Please retry."))
      else if !failures.isEmpty && successes.length < min writeConsistencyFactor allRes.length then
        match failures with
        | (_, err) :: _ => .error err
        | [] => .error .panic
      else
        match successes with
        | res :: _ => .ok res
        | [] => .error .panic
    (res, handled.2)

/-- `WriteOrdering`. -/
inductive WriteOrdering where
  | weak
  | medium
  | strong
deriving DecidableEq, Repr

/-- `WriteOrdering`'s `Debug` text. -/
def WriteOrdering.debug : WriteOrdering → String
  | .weak => "Weak"
  | .medium => "Medium"
  | .strong => "Strong"

/-- `highest_replica_peer_id`. -/
def highestReplicaPeerId : Option PeerId := (rs.replicaState.peers.map Prod.fst).max?

/-- `highest_alive_replica_peer_id`. -/
def highestAliveReplicaPeerId : Option PeerId :=
  ((rs.replicaState.peers.map Prod.fst).filter rs.peerIsActive).max?

/-- `leader_peer_for_update`. -/
def leaderPeerForUpdate : WriteOrdering → Option PeerId
  | .weak => some rs.thisPeerId
  | .medium => rs.highestReplicaPeerId
  | .strong => rs.highestAliveReplicaPeerId

/-- `update_with_consistency`: the leader runs `update`; another peer forwards the update to
the leader (`forwardOutcome` is what the leader answers) and disables the leader locally when
the forward fails transiently. -/
def updateWithConsistency {R : Type} (outcome : PeerId → CollectionResult R)
    (forwardOutcome : CollectionResult R) (wait : Bool) (ordering : WriteOrdering)
    (writeConsistencyFactor : ℕ) (shardsDisabled : Bool) : CollectionResult R × ShardReplicaSet :=
  match rs.leaderPeerForUpdate ordering with
  | none => (.error (.serviceError ("Cannot update shard " ++ rs.collectionId ++ ":" ++
      toString rs.shardId ++ " with " ++ ordering.debug ++
      " ordering because no leader could be selected")), rs)
  | some leaderPeer =>
    if leaderPeer = rs.thisPeerId then rs.update outcome wait writeConsistencyFactor shardsDisabled
    else
      -- `forward_update`
      let forwarded : CollectionResult R := if rs.remotes.contains leaderPeer then forwardOutcome
        else .error (.serviceError ("Cannot forward update to shard " ++ toString rs.shardId ++
          " because was removed from the replica set"))
      let failed (text : String) : CollectionResult R × ShardReplicaSet :=
        (.error (.serviceError ("Failed to apply update with " ++ ordering.debug ++
          " ordering via leader peer " ++ toString leaderPeer ++ ": " ++ text)),
          { rs with locallyDisabledPeers := insert leaderPeer rs.locallyDisabledPeers })
      match forwarded with
      | .error (.serviceError error) => failed ("Service internal error: " ++ error)
      | .error (.cancelled description) => failed ("Operation Cancelled: " ++ description)
      | res => (res, rs)

/-! ## 4. Which peers are disabled -/

/-- Some peer serves reads whenever some peer is `Active`. -/
def ActiveEnabled : Prop :=
  (∃ p, rs.peerState p = some .active) → ∃ p, rs.peerIsActive p = true

/-- The only `Active` peer, when there is exactly one, is not disabled locally. -/
def LastActiveEnabled : Prop :=
  ∀ p, rs.replicaState.activePeers = [p] → p ∉ rs.locallyDisabledPeers

/-- What a replica-state change guarantees, from the set it started from: it disables no peer,
and it leaves a sole `Active` peer enabled. -/
structure KeepsEnabled (rs rs' : ShardReplicaSet) : Prop where
  subset : rs'.locallyDisabledPeers ⊆ rs.locallyDisabledPeers
  lastActive : rs'.LastActiveEnabled

section Changes

variable {rs}

theorem keepsEnabled_updateLocallyDisabled (p : PeerId) :
    KeepsEnabled rs (rs.updateLocallyDisabled p) := by
  constructor
  · unfold updateLocallyDisabled
    split
    · exact (Finset.erase_subset _ _).trans (Finset.erase_subset _ _)
    · exact Finset.erase_subset _ _
  · intro q hq
    change rs.replicaState.activePeers = [q] at hq
    simp only [updateLocallyDisabled, hq]
    exact Finset.notMem_erase q _

/-- A change whose disabled peers are those `update_locally_disabled` leaves, read against the
new replica states, keeps the peers enabled: the fields a change sets besides (remotes, the
local shard) are not read. -/
theorem KeepsEnabled.of_eq {rs' : ShardReplicaSet} (p : PeerId)
    (h : rs'.locallyDisabledPeers =
      ({ rs with replicaState := rs'.replicaState }.updateLocallyDisabled p).locallyDisabledPeers) :
    KeepsEnabled rs rs' := by
  have hu : KeepsEnabled { rs with replicaState := rs'.replicaState }
      ({ rs with replicaState := rs'.replicaState }.updateLocallyDisabled p) :=
    keepsEnabled_updateLocallyDisabled p
  constructor
  · rw [h]
    exact hu.subset
  · intro q hq
    rw [h]
    exact hu.lastActive q hq

theorem keepsEnabled_removeRemote (p : PeerId) : KeepsEnabled rs (rs.removeRemote p) :=
  KeepsEnabled.of_eq p rfl

theorem keepsEnabled_addRemote (p : PeerId) (state : ReplicaState) :
    KeepsEnabled rs (rs.addRemote p state) := by
  dsimp only [addRemote]
  split
  · exact KeepsEnabled.of_eq p rfl
  · exact KeepsEnabled.of_eq p rfl

theorem keepsEnabled_removeLocal : KeepsEnabled rs rs.removeLocal :=
  KeepsEnabled.of_eq _ rfl

theorem keepsEnabled_setLocal (state : Option ReplicaState) :
    KeepsEnabled rs (rs.setLocal state) := by
  dsimp only [setLocal]
  split
  · exact KeepsEnabled.of_eq _ rfl
  · exact KeepsEnabled.of_eq _ rfl

theorem keepsEnabled_setReplicaState (p : PeerId) (state : ReplicaState) :
    KeepsEnabled rs (rs.setReplicaState p state) :=
  KeepsEnabled.of_eq p rfl

theorem keepsEnabled_removePeer (p : PeerId) : KeepsEnabled rs (rs.removePeer p) := by
  unfold removePeer
  split
  · exact keepsEnabled_removeLocal
  · exact keepsEnabled_removeRemote p

theorem keepsEnabled_addPeer (p : PeerId) (state : ReplicaState) :
    KeepsEnabled rs (rs.addPeer p state) := by
  dsimp only [addPeer]
  split
  · split
    · exact keepsEnabled_setReplicaState p state
    · exact KeepsEnabled.of_eq p rfl
  · exact keepsEnabled_addRemote p state

theorem keepsEnabled_ensureReplicaWithState (p : PeerId) (state : ReplicaState) :
    KeepsEnabled rs (rs.ensureReplicaWithState p state) := by
  unfold ensureReplicaWithState
  split
  · exact keepsEnabled_setReplicaState p state
  · exact keepsEnabled_addRemote p state

/-- A loop of steps that disable no peer disables no peer. -/
theorem locallyDisabledPeers_foldl_subset {γ : Type} {f : ShardReplicaSet → γ → ShardReplicaSet}
    (hf : ∀ rs c, (f rs c).locallyDisabledPeers ⊆ rs.locallyDisabledPeers) :
    ∀ (l : List γ) (rs : ShardReplicaSet),
      (l.foldl f rs).locallyDisabledPeers ⊆ rs.locallyDisabledPeers
  | [], _ => subset_rfl
  | c :: l, rs => (locallyDisabledPeers_foldl_subset hf l (f rs c)).trans (hf rs c)

theorem locallyDisabledPeers_applyNewReplica_subset (oldPeers : List (PeerId × ReplicaState))
    (rs : ShardReplicaSet) (replica : PeerId × ReplicaState) :
    (applyNewReplica oldPeers rs replica).locallyDisabledPeers ⊆ rs.locallyDisabledPeers := by
  dsimp only [applyNewReplica]
  split
  · exact subset_rfl
  · split
    · exact (keepsEnabled_setLocal _).subset
    · exact subset_rfl

/-- `apply_state` clears the disabled peers, and nothing it does afterwards disables one. -/
theorem locallyDisabledPeers_applyState (replicas : List (PeerId × ReplicaState))
    (hreplicas : Sorted replicas) : (rs.applyState replicas hreplicas).locallyDisabledPeers = ∅ := by
  apply Finset.subset_empty.mp
  unfold applyState
  refine (locallyDisabledPeers_foldl_subset (locallyDisabledPeers_applyNewReplica_subset _) _ _).trans ?_
  exact locallyDisabledPeers_foldl_subset (fun rs p => (keepsEnabled_removePeer p).subset) _ _

theorem keepsEnabled_applyState (replicas : List (PeerId × ReplicaState))
    (hreplicas : Sorted replicas) : KeepsEnabled rs (rs.applyState replicas hreplicas) := by
  have hempty : (rs.applyState replicas hreplicas).locallyDisabledPeers = ∅ :=
    locallyDisabledPeers_applyState replicas hreplicas
  constructor
  · rw [hempty]
    exact Finset.empty_subset _
  · intro q _
    rw [hempty]
    exact Finset.notMem_empty q

theorem KeepsEnabled.trans {rs' rs'' : ShardReplicaSet} (h₁ : KeepsEnabled rs rs')
    (h₂ : KeepsEnabled rs' rs'') : KeepsEnabled rs rs'' :=
  ⟨h₂.subset.trans h₁.subset, h₂.lastActive⟩

end Changes

/-- One change of the replica states, as consensus drives them. -/
inductive ReplicaChange : ShardReplicaSet → ShardReplicaSet → Prop
  | setReplicaState (rs : ShardReplicaSet) (p : PeerId) (state : ReplicaState) :
      ReplicaChange rs (rs.setReplicaState p state)
  | addRemote (rs : ShardReplicaSet) (p : PeerId) (state : ReplicaState) :
      ReplicaChange rs (rs.addRemote p state)
  | removeRemote (rs : ShardReplicaSet) (p : PeerId) : ReplicaChange rs (rs.removeRemote p)
  | removeLocal (rs : ShardReplicaSet) : ReplicaChange rs rs.removeLocal
  | setLocal (rs : ShardReplicaSet) (state : Option ReplicaState) :
      ReplicaChange rs (rs.setLocal state)
  | removePeer (rs : ShardReplicaSet) (p : PeerId) : ReplicaChange rs (rs.removePeer p)
  | addPeer (rs : ShardReplicaSet) (p : PeerId) (state : ReplicaState) :
      ReplicaChange rs (rs.addPeer p state)
  | ensureReplicaWithState (rs : ShardReplicaSet) (p : PeerId) (state : ReplicaState) :
      ReplicaChange rs (rs.ensureReplicaWithState p state)
  | applyState (rs : ShardReplicaSet) (replicas : List (PeerId × ReplicaState))
      (hreplicas : Sorted replicas) : ReplicaChange rs (rs.applyState replicas hreplicas)

section Runs

variable {rs rs' : ShardReplicaSet}

theorem ReplicaChange.keepsEnabled (h : ReplicaChange rs rs') : KeepsEnabled rs rs' := by
  cases h with
  | setReplicaState p state => exact keepsEnabled_setReplicaState p state
  | addRemote p state => exact keepsEnabled_addRemote p state
  | removeRemote p => exact keepsEnabled_removeRemote p
  | removeLocal => exact keepsEnabled_removeLocal
  | setLocal state => exact keepsEnabled_setLocal state
  | removePeer p => exact keepsEnabled_removePeer p
  | addPeer p state => exact keepsEnabled_addPeer p state
  | ensureReplicaWithState p state => exact keepsEnabled_ensureReplicaWithState p state
  | applyState replicas hreplicas => exact keepsEnabled_applyState replicas hreplicas

/-- **Replica-state changes disable no peer**: over every run of them, the locally disabled
peers only shrink, and after the last one a sole `Active` peer is enabled. -/
theorem keepsEnabled_of_changes (h : Relation.TransGen ReplicaChange rs rs') :
    KeepsEnabled rs rs' := by
  induction h with
  | single step => exact step.keepsEnabled
  | tail _ step ih => exact ih.trans step.keepsEnabled

/-- From a replica set with no peer disabled locally, every run of replica-state changes
leaves some peer to read from whenever some peer is `Active`. -/
theorem activeEnabled_of_changes (h₀ : rs.locallyDisabledPeers = ∅)
    (h : Relation.ReflTransGen ReplicaChange rs rs') : rs'.ActiveEnabled := by
  -- no peer is disabled at the end either
  have hnone : rs'.locallyDisabledPeers = ∅ := by
    rcases Relation.reflTransGen_iff_eq_or_transGen.mp h with rfl | h
    · exact h₀
    · exact Finset.subset_empty.mp (h₀ ▸ (keepsEnabled_of_changes h).subset)
  rintro ⟨p, hp⟩
  exact ⟨p, by simp [peerIsActive, isLocallyDisabled, hp, hnone]⟩

end Runs

/-! ## 5. What an update disables -/

section Updates

variable {rs}

theorem mem_partitionResult_fst {ε α : Type} {a : α} :
    ∀ {l : List (Except ε α)}, a ∈ (partitionResult l).1 ↔ .ok a ∈ l
  | [] => by simp [partitionResult]
  | .ok b :: rest => by
    rw [partitionResult, List.mem_cons, mem_partitionResult_fst, List.mem_cons, Except.ok.injEq]
  | .error e :: rest => by
    rw [partitionResult, mem_partitionResult_fst, List.mem_cons]
    simp

theorem mem_partitionResult_snd {ε α : Type} {e : ε} :
    ∀ {l : List (Except ε α)}, e ∈ (partitionResult l).2 ↔ .error e ∈ l
  | [] => by simp [partitionResult]
  | .ok b :: rest => by
    rw [partitionResult, mem_partitionResult_snd, List.mem_cons]
    simp
  | .error f :: rest => by
    rw [partitionResult, List.mem_cons, mem_partitionResult_snd, List.mem_cons, Except.error.injEq]

theorem handleFailedReplica_snd (state : ReplicaSetState) (acc : Bool × ShardReplicaSet)
    (failure : PeerId × CollectionError) :
    (handleFailedReplica state acc failure).2 =
      if state.getPeerState failure.1 = some .active then
        { acc.2 with locallyDisabledPeers := insert failure.1 acc.2.locallyDisabledPeers }
      else acc.2 := by
  obtain ⟨waitForDeactivation, rs⟩ := acc
  obtain ⟨peerId, err⟩ := failure
  dsimp only [handleFailedReplica]
  split <;> rfl

/-- `handle_failed_replicas` keeps the replica states. -/
theorem replicaState_foldl_handleFailedReplica (state : ReplicaSetState) :
    ∀ (failures : List (PeerId × CollectionError)) (acc : Bool × ShardReplicaSet),
      (failures.foldl (handleFailedReplica state) acc).2.replicaState = acc.2.replicaState
  | [], _ => rfl
  | f :: failures, acc => by
    rw [List.foldl_cons, replicaState_foldl_handleFailedReplica state failures,
      handleFailedReplica_snd]
    split <;> rfl

/-- `handle_failed_replicas` disables exactly the failed peers whose state is `Active`. -/
theorem mem_foldl_handleFailedReplica (state : ReplicaSetState) (p : PeerId) :
    ∀ (failures : List (PeerId × CollectionError)) (acc : Bool × ShardReplicaSet),
      p ∈ (failures.foldl (handleFailedReplica state) acc).2.locallyDisabledPeers ↔
        p ∈ acc.2.locallyDisabledPeers ∨
          (p ∈ failures.map Prod.fst ∧ state.getPeerState p = some .active)
  | [], _ => by simp
  | f :: failures, acc => by
    rw [List.foldl_cons, mem_foldl_handleFailedReplica state p failures, handleFailedReplica_snd]
    by_cases hp : p = f.1
    · subst hp
      split_ifs with hf
      · simp [hf]
      · simp [hf]
    · split_ifs <;> simp [hp]

/-- When no replica has been sent the update, or none applied it, nothing is disabled. -/
theorem update_snd_of_no_success {R : Type} {outcome : PeerId → CollectionResult R}
    (wait : Bool) (writeConsistencyFactor : ℕ) (shardsDisabled : Bool)
    (h : (partitionResult (rs.updateResults outcome)).1 = []) :
    (rs.update outcome wait writeConsistencyFactor shardsDisabled).2 = rs := by
  dsimp only [update]
  split
  · rfl
  · simp only [h, List.isEmpty_nil, if_true]

/-- When some replica applied the update, the failed peers are handled. -/
theorem update_snd_of_success {R : Type} {outcome : PeerId → CollectionResult R}
    (wait : Bool) (writeConsistencyFactor : ℕ) (shardsDisabled : Bool) {r : R}
    (hr : r ∈ (partitionResult (rs.updateResults outcome)).1) :
    (rs.update outcome wait writeConsistencyFactor shardsDisabled).2 =
      (rs.handleFailedReplicas (partitionResult (rs.updateResults outcome)).2 rs.replicaState).2 := by
  have hne : (partitionResult (rs.updateResults outcome)).1.isEmpty = false :=
    List.isEmpty_eq_false_iff_exists_mem.mpr ⟨r, hr⟩
  dsimp only [update]
  split
  · -- no replica to send the update to: then none answered
    rename_i hnone
    have hres : rs.updateResults outcome = [] := by
      simp only [Bool.and_eq_true, List.isEmpty_iff, Bool.not_eq_true'] at hnone
      simp [updateResults, hnone.1, hnone.2]
    rw [hres] at hr
    simp [partitionResult] at hr
  · simp only [hne]
    rfl

/-- **An update keeps the replica states and disables only failed `Active` peers**, and only
when some replica applied it. -/
theorem update_locallyDisabledPeers {R : Type} (outcome : PeerId → CollectionResult R)
    (wait : Bool) (writeConsistencyFactor : ℕ) (shardsDisabled : Bool) (p : PeerId) :
    (rs.update outcome wait writeConsistencyFactor shardsDisabled).2.replicaState = rs.replicaState ∧
      (p ∈ (rs.update outcome wait writeConsistencyFactor shardsDisabled).2.locallyDisabledPeers →
        p ∈ rs.locallyDisabledPeers ∨
          (rs.peerState p = some .active ∧ ∃ err, .error (p, err) ∈ rs.updateResults outcome)) := by
  rcases hs : (partitionResult (rs.updateResults outcome)).1 with _ | ⟨r, _⟩
  · rw [update_snd_of_no_success wait writeConsistencyFactor shardsDisabled hs]
    exact ⟨rfl, Or.inl⟩
  · rw [update_snd_of_success wait writeConsistencyFactor shardsDisabled (r := r) (by simp [hs])]
    refine ⟨replicaState_foldl_handleFailedReplica _ _ _, fun hp => ?_⟩
    rcases (mem_foldl_handleFailedReplica _ p _ _).mp hp with hold | ⟨hfailed, hactive⟩
    · exact Or.inl hold
    · obtain ⟨⟨q, err⟩, hmem, rfl⟩ := List.mem_map.mp hfailed
      exact Or.inr ⟨hactive, err, mem_partitionResult_snd.mp hmem⟩

/-- **An update can disable the last `Active` replica.**  When this peer holds the only
`Active` replica and fails the update (not inside a forward proxy) while a remote that is
active or pending applies it, `handle_failed_replicas` disables this peer, and no peer is left
to serve reads — although one is `Active`. -/
theorem update_disables_last_active {R : Type} (outcome : PeerId → CollectionResult R)
    (wait : Bool) (writeConsistencyFactor : ℕ) (shardsDisabled : Bool) {p : PeerId} {r : R}
    {err : CollectionError} (hlocal : rs.localShard.isSome)
    (hsole : rs.replicaState.activePeers = [rs.thisPeerId])
    (henabled : rs.thisPeerId ∉ rs.locallyDisabledPeers) (hp : p ∈ rs.remotes)
    (hpending : rs.peerIsActiveOrPending p) (hok : outcome p = .ok r)
    (hfail : outcome rs.thisPeerId = .error err) (hproxy : err.remotePeerId = none) :
    rs.ActiveEnabled ∧ ¬ (rs.update outcome wait writeConsistencyFactor shardsDisabled).2.ActiveEnabled := by
  have hthis : rs.peerState rs.thisPeerId = some .active :=
    (rs.replicaState.mem_activePeers).mp (by simp [hsole])
  have hlocalUpdatable : rs.peerIsActiveOrPending rs.thisPeerId = true := by
    simp [peerIsActiveOrPending, hthis, isLocallyDisabled, henabled]
  -- the answers: the remotes', then this peer's failure
  have hres : rs.updateResults outcome =
      (rs.remotes.filter rs.peerIsActiveOrPending).map (fun peerId =>
        (outcome peerId).mapError fun err => (peerId, err)) ++ [.error (rs.thisPeerId, err)] := by
    simp [updateResults, hlocal, hlocalUpdatable, hfail, hproxy, Except.mapError]
  have hsuccess : r ∈ (partitionResult (rs.updateResults outcome)).1 := by
    rw [mem_partitionResult_fst, hres]
    exact List.mem_append_left _ (List.mem_map.mpr
      ⟨p, List.mem_filter.mpr ⟨hp, hpending⟩, by simp [hok, Except.mapError]⟩)
  have hfailure : (rs.thisPeerId, err) ∈ (partitionResult (rs.updateResults outcome)).2 := by
    rw [mem_partitionResult_snd, hres]
    simp
  set rs' := (rs.update outcome wait writeConsistencyFactor shardsDisabled).2 with hrs'
  have hstate : rs'.replicaState = rs.replicaState :=
    (update_locallyDisabledPeers outcome wait writeConsistencyFactor shardsDisabled 0).1
  have hdisabled : rs.thisPeerId ∈ rs'.locallyDisabledPeers := by
    rw [hrs', update_snd_of_success wait writeConsistencyFactor shardsDisabled hsuccess]
    exact (mem_foldl_handleFailedReplica _ _ _ _).mpr
      (Or.inr ⟨List.mem_map.mpr ⟨_, hfailure, rfl⟩, hthis⟩)
  constructor
  · intro _
    exact ⟨rs.thisPeerId, by simp [peerIsActive, hthis, isLocallyDisabled, henabled]⟩
  · intro henabled'
    obtain ⟨q, hq⟩ := henabled' ⟨rs.thisPeerId, by simp only [peerState, hstate]; exact hthis⟩
    -- an active peer of `rs'` is `Active`, so it is the only one: this peer, now disabled
    simp only [peerIsActive, Bool.and_eq_true, beq_iff_eq, Bool.not_eq_true', isLocallyDisabled,
      decide_eq_false_iff_not] at hq
    have hqactive : q ∈ rs.replicaState.activePeers := by
      rw [ReplicaSetState.mem_activePeers, ← hstate]
      exact hq.1
    rw [hsole, List.mem_singleton] at hqactive
    exact hq.2 (hqactive ▸ hdisabled)

/-- Peer 1 holds the local shard and the only `Active` replica; the `Partial` replica on
peer 2 applies an update that peer 1 fails with a service error.  Afterwards peer 1 is still
`Active`, but no peer serves reads. -/
theorem update_disables_only_active_replica :
    let rs : ShardReplicaSet := ⟨some .local, [2],
      ⟨true, 1, [(1, .active), (2, .partialShard)], by decide⟩, ∅, 0, "collection", 2⟩
    let outcome : PeerId → CollectionResult Unit :=
      fun p => if p = 1 then .error (.serviceError "timeout") else .ok ()
    let rs' := (rs.update outcome false 1 false).2
    rs.ActiveEnabled ∧ rs'.peerState 1 = some .active ∧ ¬ rs'.ActiveEnabled := by
  intro rs outcome rs'
  have hfail : outcome rs.thisPeerId = .error (.serviceError "timeout") := rfl
  obtain ⟨hbefore, hafter⟩ := update_disables_last_active outcome false 1 false (p := 2) (r := ())
    (show rs.localShard.isSome from rfl) (by decide) (by decide) (by decide) (by decide) rfl hfail rfl
  exact ⟨hbefore, by decide, hafter⟩

end Updates

end ShardReplicaSet

end Qdrant
