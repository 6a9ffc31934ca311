/-
# Shard placement: the proposal a new collection starts from

`content_manager/shard_distribution.rs`.  `ShardDistributionProposal::new` places the replicas
of every shard on the known peers one at a time, each on the peer at the top of a min-heap of
`(shard_count, peer_id)`: the least-loaded peer, and of those the one of least id.  Bumping
its count through `peek_mut` re-sifts the heap when the guard drops.

The heap is modelled by its elements in ascending order, so that its top is the head and the
re-sift is an ordered insertion.  Two facts carry the proofs:

* every placement is counted on the heap (`load_placeShards`), whatever the peers;
* on distinct peers the heap has one shape after `k` placements (`heapAfter`): the peers in
  ascending order, the first `k mod P` of them moved to the end with one replica more.  So
  the placements go round robin over the peers (`placeShards_heapAfter`).

`shardDistribution_balanced` follows: every shard gets `min(replication_factor, P)` distinct
known peers, and the numbers of replicas on any two peers differ by at most one.
-/
import Qdrant.Shards.ReplicaSet

namespace Qdrant

open scoped List

/-! ## 1. The model -/

/-- `PeerShardCount`: a peer and the number of shard replicas placed on it so far. -/
structure PeerShardCount where
  shardCount : ℕ
  peerId : PeerId
deriving DecidableEq, Repr

namespace PeerShardCount

def new (peerId : PeerId) : PeerShardCount := ⟨0, peerId⟩

def incShardCount (c : PeerShardCount) : PeerShardCount :=
  { c with shardCount := c.shardCount + 1 }

/-- The fields in the order the derived `Ord` compares them. -/
def lexKey (c : PeerShardCount) : ℕ ×ₗ PeerId := toLex (c.shardCount, c.peerId)

theorem lexKey_injective : Function.Injective lexKey := by
  rintro ⟨a, b⟩ ⟨c, d⟩ h
  simpa [lexKey] using h

/-- The derived `Ord`: `shard_count` first, then `peer_id`. -/
instance : LinearOrder PeerShardCount := LinearOrder.lift' lexKey lexKey_injective

theorem le_iff {a b : PeerShardCount} :
    a ≤ b ↔ a.shardCount < b.shardCount ∨ a.shardCount = b.shardCount ∧ a.peerId ≤ b.peerId :=
  Prod.Lex.le_iff

theorem lt_iff {a b : PeerShardCount} :
    a < b ↔ a.shardCount < b.shardCount ∨ a.shardCount = b.shardCount ∧ a.peerId < b.peerId :=
  Prod.Lex.lt_iff

end PeerShardCount

/-- The `BinaryHeap<Reverse<PeerShardCount>>`, a min-heap: its elements in ascending order, so
that its top, the least-loaded peer, is the head. -/
structure MinHeap where
  elems : List PeerShardCount
  sorted : elems.Pairwise (· ≤ ·)

namespace MinHeap

/-- `BinaryHeap::with_capacity`. -/
def withCapacity : MinHeap := ⟨[], .nil⟩

def push (h : MinHeap) (c : PeerShardCount) : MinHeap :=
  ⟨h.elems.orderedInsert (· ≤ ·) c, h.sorted.orderedInsert c _⟩

/-- `peek_mut().unwrap()`, then `inc_shard_count()` through the guard, whose drop re-sifts the
heap: the peer at the top, and the heap with its count one higher.  `none` where `unwrap`
panics on an empty heap. -/
def incLeastLoaded : MinHeap → Option (PeerId × MinHeap)
  | ⟨[], _⟩ => none
  | ⟨c :: rest, hs⟩ =>
    some (c.peerId, ⟨rest.orderedInsert (· ≤ ·) c.incShardCount, hs.of_cons.orderedInsert _ _⟩)

/-- The inner loop: the replicas of one shard, each on the least-loaded peer in turn. -/
def placeReplicas : ℕ → MinHeap → Option (List PeerId × MinHeap)
  | 0, h => some ([], h)
  | n + 1, h => (incLeastLoaded h).bind fun r =>
    (placeReplicas n r.2).map fun s => (r.1 :: s.1, s.2)

/-- The outer loop over the shard ids. -/
def placeShards (nReplicas : ℕ) :
    List ShardId → MinHeap → Option (List (ShardId × List PeerId) × MinHeap)
  | [], h => some ([], h)
  | shardId :: rest, h => (placeReplicas nReplicas h).bind fun r =>
    (placeShards nReplicas rest r.2).map fun s => ((shardId, r.1) :: s.1, s.2)

end MinHeap

/-- `ShardDistributionProposal`: a shard can be located on several peers if it has replicas. -/
structure ShardDistributionProposal where
  distribution : List (ShardId × List PeerId)
deriving DecidableEq, Repr

namespace ShardDistributionProposal

/-- `ShardDistributionProposal::new`, with `NonZeroU32` as `ℕ+`; `none` where an `unwrap`
panics, which it never does (`shardDistribution_balanced`). -/
def new (shardNumber replicationFactor : ℕ+) (knownPeers : List PeerId) :
    Option ShardDistributionProposal :=
  let minHeap := knownPeers.foldl (fun h peer => h.push (PeerShardCount.new peer))
    MinHeap.withCapacity
  -- there should not be more than one replica per peer
  let nReplicas := min (replicationFactor : ℕ) knownPeers.length
  (MinHeap.placeShards nReplicas (List.range shardNumber) minHeap).map fun r => ⟨r.1⟩

def localShardsFor (d : ShardDistributionProposal) (peerId : PeerId) : List ShardId :=
  (d.distribution.filter fun s => s.2.contains peerId).map Prod.fst

def remoteShardsFor (d : ShardDistributionProposal) (peerId : PeerId) :
    List (ShardId × List PeerId) :=
  d.distribution.filter fun s => !s.2.contains peerId

end ShardDistributionProposal

/-! ## 2. Every placement is counted on the heap -/

namespace MinHeap

/-- The replicas the heap counts for peer `x`. -/
def load (elems : List PeerShardCount) (x : PeerId) : ℕ :=
  ((elems.filter fun c => c.peerId = x).map PeerShardCount.shardCount).sum

variable {x : PeerId}

@[simp] theorem load_nil : load [] x = 0 := rfl

@[simp] theorem load_cons (c : PeerShardCount) (l : List PeerShardCount) :
    load (c :: l) x = (if c.peerId = x then c.shardCount else 0) + load l x := by
  unfold load
  by_cases hc : c.peerId = x <;> simp [hc]

@[simp] theorem load_append (l₁ l₂ : List PeerShardCount) :
    load (l₁ ++ l₂) x = load l₁ x + load l₂ x := by
  simp [load]

theorem load_perm {l₁ l₂ : List PeerShardCount} (h : l₁ ~ l₂) : load l₁ x = load l₂ x :=
  ((h.filter _).map _).sum_eq

/-- Peers that all carry `count` replicas. -/
theorem load_map_mk (count : ℕ) (ids : List PeerId) :
    load (ids.map (PeerShardCount.mk count)) x = count * ids.count x := by
  induction ids with
  | nil => simp
  | cons y ids ih =>
    rw [List.map_cons, load_cons, ih, List.count_cons]
    by_cases hy : y = x
    · simp [hy, Nat.mul_succ, Nat.add_comm]
    · simp [hy]

/-- **One placement is counted**: the peer at the top carries one replica more, the others
what they carried. -/
theorem load_incLeastLoaded {h h' : MinHeap} {p : PeerId} (hstep : incLeastLoaded h = some (p, h')) :
    load h'.elems x = load h.elems x + if p = x then 1 else 0 := by
  obtain ⟨_ | ⟨c, rest⟩, hs⟩ := h
  · simp [incLeastLoaded] at hstep
  · simp only [incLeastLoaded, Option.some.injEq, Prod.mk.injEq] at hstep
    obtain ⟨rfl, rfl⟩ := hstep
    rw [load_perm (List.perm_orderedInsert _ _ _), load_cons, load_cons]
    by_cases hc : c.peerId = x
    · simp [hc, PeerShardCount.incShardCount]
      omega
    · simp [hc, PeerShardCount.incShardCount]

theorem load_placeReplicas {n : ℕ} {h h' : MinHeap} {ps : List PeerId}
    (hrun : placeReplicas n h = some (ps, h')) : load h'.elems x = load h.elems x + ps.count x := by
  induction n generalizing h ps with
  | zero =>
    simp only [placeReplicas, Option.some.injEq, Prod.mk.injEq] at hrun
    obtain ⟨rfl, rfl⟩ := hrun
    simp
  | succ n ih =>
    simp only [placeReplicas, Option.bind_eq_some_iff, Option.map_eq_some_iff] at hrun
    obtain ⟨⟨p, h₁⟩, hstep, ⟨ps', h₂⟩, hrest, hps⟩ := hrun
    simp only [Prod.mk.injEq] at hps
    obtain ⟨rfl, rfl⟩ := hps
    rw [ih hrest, load_incLeastLoaded hstep, List.count_cons]
    by_cases hp : p = x
    · simp [hp]
      omega
    · simp [hp]

/-- **Every placement of a run is counted on the heap.** -/
theorem load_placeShards {n : ℕ} {shards : List ShardId} {h h' : MinHeap}
    {d : List (ShardId × List PeerId)} (hrun : placeShards n shards h = some (d, h')) :
    load h'.elems x = load h.elems x + (d.flatMap Prod.snd).count x := by
  induction shards generalizing h d with
  | nil =>
    simp only [placeShards, Option.some.injEq, Prod.mk.injEq] at hrun
    obtain ⟨rfl, rfl⟩ := hrun
    simp
  | cons s shards ih =>
    simp only [placeShards, Option.bind_eq_some_iff, Option.map_eq_some_iff] at hrun
    obtain ⟨⟨ps, h₁⟩, hreplicas, ⟨d', h₂⟩, hrest, hd⟩ := hrun
    simp only [Prod.mk.injEq] at hd
    obtain ⟨rfl, rfl⟩ := hd
    rw [ih hrest, load_placeReplicas hreplicas]
    simp only [List.flatMap_cons, List.count_append]
    omega

/-- Pushing peers onto a heap adds them, each with no replica yet. -/
theorem elems_foldl_push (peers : List PeerId) (h : MinHeap) :
    (peers.foldl (fun h peer => h.push (PeerShardCount.new peer)) h).elems ~
      h.elems ++ peers.map PeerShardCount.new := by
  induction peers generalizing h with
  | nil => simp
  | cons p peers ih =>
    rw [List.foldl_cons, List.map_cons]
    calc _ ~ (h.push (PeerShardCount.new p)).elems ++ peers.map PeerShardCount.new := ih _
      _ ~ (PeerShardCount.new p :: h.elems) ++ peers.map PeerShardCount.new :=
        (List.perm_orderedInsert _ _ _).append_right _
      _ ~ h.elems ++ PeerShardCount.new p :: peers.map PeerShardCount.new :=
        List.perm_middle.symm

end MinHeap

/-! ## 3. On distinct peers the placements go round robin -/

section RoundRobin

open MinHeap

variable {ids : List PeerId}

/-- An element above every element of a list is inserted at its end. -/
theorem orderedInsert_of_forall_lt {α : Type} [LinearOrder α] {a : α} {l : List α}
    (h : ∀ b ∈ l, b < a) : l.orderedInsert (· ≤ ·) a = l ++ [a] := by
  induction l with
  | nil => rfl
  | cons b l ih =>
    rw [List.orderedInsert_of_not_le _ _ (not_le.mpr (h b List.mem_cons_self)),
      ih fun c hc => h c (List.mem_cons_of_mem _ hc), List.cons_append]

/-- One more placement moves to the next peer, or after the last one starts a new round. -/
theorem succ_mod_cases {k P : ℕ} (hP : 0 < P) :
    (k % P + 1 < P ∧ (k + 1) % P = k % P + 1 ∧ (k + 1) / P = k / P) ∨
      (k % P + 1 = P ∧ (k + 1) % P = 0 ∧ (k + 1) / P = k / P + 1) := by
  have hk := Nat.div_add_mod k P
  rcases Nat.lt_or_ge (k % P + 1) P with hlt | hge
  · obtain ⟨hd, hm⟩ := (Nat.div_mod_unique hP).mpr ⟨(by omega : k % P + 1 + P * (k / P) = k + 1), hlt⟩
    exact .inl ⟨hlt, hm, hd⟩
  · have hlast : k % P + 1 = P := le_antisymm (Nat.mod_lt k hP) hge
    obtain ⟨hd, hm⟩ := (Nat.div_mod_unique hP).mpr
      ⟨(by rw [Nat.mul_succ]; omega : 0 + P * (k / P + 1) = k + 1), hP⟩
    exact .inr ⟨hlast, hm, hd⟩

/-- The heap after `k` placements on the peers `ids` (ascending): the first `k mod |ids|` peers
carry one replica more than the others and sort last. -/
def heapAfter (ids : List PeerId) (k : ℕ) : List PeerShardCount :=
  (ids.drop (k % ids.length)).map (PeerShardCount.mk (k / ids.length)) ++
    (ids.take (k % ids.length)).map (PeerShardCount.mk (k / ids.length + 1))

/-- The peer of the `k`-th placement. -/
def roundRobin (ids : List PeerId) (k : ℕ) : PeerId := ids.getD (k % ids.length) 0

/-- `n` placements from the `k`-th on. -/
def roundRobinFrom (ids : List PeerId) (k n : ℕ) : List PeerId :=
  (List.range n).map fun j => roundRobin ids (k + j)

@[simp] theorem length_roundRobinFrom (k n : ℕ) : (roundRobinFrom ids k n).length = n := by
  simp [roundRobinFrom]

theorem roundRobinFrom_succ (k n : ℕ) :
    roundRobinFrom ids k (n + 1) = roundRobin ids k :: roundRobinFrom ids (k + 1) n := by
  simp only [roundRobinFrom, List.range_succ_eq_map, List.map_cons, List.map_map, Nat.add_zero]
  congr 2
  funext j
  simp only [Function.comp_apply, Nat.add_assoc, Nat.add_comm 1 j]

/-- The heap before the first placement: every peer, ascending, with no replica. -/
theorem heapAfter_zero : heapAfter ids 0 = ids.map (PeerShardCount.mk 0) := by
  simp [heapAfter]

/-- **One placement is a step of the round robin**: from the heap after `k` placements, the
least-loaded peer is the `k`-th of the round, and the heap is the one after `k + 1`. -/
theorem incLeastLoaded_heapAfter (hids : ids.Pairwise (· < ·)) (hP : 0 < ids.length)
    {h : MinHeap} {k : ℕ} (hh : h.elems = heapAfter ids k) :
    ∃ h', incLeastLoaded h = some (roundRobin ids k, h') ∧ h'.elems = heapAfter ids (k + 1) := by
  have hr : k % ids.length < ids.length := Nat.mod_lt k hP
  set r := k % ids.length with hr_def
  set q := k / ids.length with hq_def
  -- the peers after the top, and where the top goes back once bumped: after all of them
  set rest := (ids.drop (r + 1)).map (PeerShardCount.mk q) ++
    (ids.take r).map (PeerShardCount.mk (q + 1))
  have htop : h.elems = ⟨q, ids[r]⟩ :: rest := by
    rw [hh, heapAfter, ← hr_def, ← hq_def, List.drop_eq_getElem_cons hr]
    rfl
  have habove : ∀ b ∈ rest, b < ⟨q + 1, ids[r]⟩ := by
    intro b hb
    rcases List.mem_append.mp hb with hb | hb
    · obtain ⟨y, -, rfl⟩ := List.mem_map.mp hb
      exact PeerShardCount.lt_iff.mpr (.inl (Nat.lt_succ_self q))
    · obtain ⟨y, hy, rfl⟩ := List.mem_map.mp hb
      obtain ⟨i, hi, rfl⟩ := List.getElem_of_mem hy
      have hir : i < r := by
        rw [List.length_take] at hi
        omega
      exact PeerShardCount.lt_iff.mpr (.inr ⟨rfl, by
        rw [List.getElem_take]
        exact List.pairwise_iff_getElem.mp hids _ _ _ _ hir⟩)
  obtain ⟨elems, hs⟩ := h
  simp only at htop
  subst htop
  refine ⟨⟨rest.orderedInsert (· ≤ ·) (PeerShardCount.incShardCount ⟨q, ids[r]⟩),
    hs.of_cons.orderedInsert _ _⟩, ?_, ?_⟩
  · simp [incLeastLoaded, roundRobin, ← hr_def, List.getElem?_eq_getElem hr]
  have hlast : (ids.take r).map (PeerShardCount.mk (q + 1)) ++ [⟨q + 1, ids[r]⟩] =
      (ids.take (r + 1)).map (PeerShardCount.mk (q + 1)) := by
    rw [List.take_add_one, List.getElem?_eq_getElem hr, Option.toList_some, List.map_append,
      List.map_singleton]
  simp only [PeerShardCount.incShardCount]
  rw [orderedInsert_of_forall_lt habove, List.append_assoc, hlast]
  rcases succ_mod_cases (k := k) hP with ⟨-, hm, hd⟩ | ⟨hend, hm, hd⟩
  · -- the next peer of the round
    rw [heapAfter, hm, hd]
  · -- the last peer of the round: the next round starts
    have hend' : r + 1 = ids.length := hend
    rw [List.drop_of_length_le hend'.ge, List.take_of_length_le hend'.ge, heapAfter, hm, hd]
    simp [← hq_def]

/-- **The replicas of one shard are the next placements of the round robin.** -/
theorem placeReplicas_heapAfter (hids : ids.Pairwise (· < ·)) {n : ℕ} (hn : n ≤ ids.length)
    {h : MinHeap} {k : ℕ} (hh : h.elems = heapAfter ids k) :
    ∃ h', placeReplicas n h = some (roundRobinFrom ids k n, h') ∧
      h'.elems = heapAfter ids (k + n) := by
  induction n generalizing h k with
  | zero => exact ⟨h, rfl, hh⟩
  | succ n ih =>
    obtain ⟨h₁, hstep, hh₁⟩ := incLeastLoaded_heapAfter hids (by omega) hh
    obtain ⟨h₂, hrun, hh₂⟩ := ih (by omega) hh₁
    refine ⟨h₂, ?_, by rw [hh₂, Nat.add_right_comm, Nat.add_assoc]⟩
    simp [placeReplicas, hstep, hrun, roundRobinFrom_succ]

/-- **The shards take the placements of the round robin in turn.** -/
theorem placeShards_heapAfter (hids : ids.Pairwise (· < ·)) {n : ℕ} (hn : n ≤ ids.length)
    (shards : List ShardId) {h : MinHeap} {k : ℕ} (hh : h.elems = heapAfter ids k) :
    ∃ d h', placeShards n shards h = some (d, h') ∧ d.map Prod.fst = shards ∧
      (∀ s ∈ d, ∃ k', s.2 = roundRobinFrom ids k' n) ∧
      h'.elems = heapAfter ids (k + shards.length * n) := by
  induction shards generalizing h k with
  | nil => exact ⟨[], h, rfl, rfl, by simp, by simpa using hh⟩
  | cons s shards ih =>
    obtain ⟨h₁, hreplicas, hh₁⟩ := placeReplicas_heapAfter hids hn hh
    obtain ⟨d, h₂, hrun, hfst, hrr, hh₂⟩ := ih hh₁
    refine ⟨(s, roundRobinFrom ids k n) :: d, h₂, ?_, by simp [hfst], ?_, ?_⟩
    · simp [placeShards, hreplicas, hrun]
    · intro e he
      rcases List.mem_cons.mp he with rfl | he
      · exact ⟨k, rfl⟩
      · exact hrr e he
    · rw [hh₂, List.length_cons, Nat.add_one_mul]
      congr 1
      omega

theorem roundRobin_eq_get (hP : 0 < ids.length) (k : ℕ) :
    roundRobin ids k = ids.get ⟨k % ids.length, Nat.mod_lt k hP⟩ :=
  List.getD_eq_getElem _ _ _

theorem mem_roundRobinFrom {k n : ℕ} (hn : n ≤ ids.length) {x : PeerId}
    (hx : x ∈ roundRobinFrom ids k n) : x ∈ ids := by
  obtain ⟨j, hj, rfl⟩ := List.mem_map.mp hx
  have hP : 0 < ids.length := by
    rw [List.mem_range] at hj
    omega
  rw [roundRobin_eq_get hP]
  exact List.get_mem _ _

/-- **No more placements than peers go to distinct peers.** -/
theorem nodup_roundRobinFrom (hnd : ids.Nodup) (k : ℕ) {n : ℕ} (hn : n ≤ ids.length) :
    (roundRobinFrom ids k n).Nodup := by
  refine List.Nodup.map_on ?_ List.nodup_range
  intro i hi j hj hij
  rw [List.mem_range] at hi hj
  have hP : 0 < ids.length := by omega
  rw [roundRobin_eq_get hP, roundRobin_eq_get hP] at hij
  have hmod : (k + i) % ids.length = (k + j) % ids.length :=
    Fin.mk.inj_iff.mp (hnd.get_inj_iff.mp hij)
  exact Nat.ModEq.eq_of_lt_of_lt (Nat.ModEq.add_left_cancel' k hmod) (by omega) (by omega)

/-- **On the heap after `k` placements every peer carries `⌊k / P⌋` replicas or one more.** -/
theorem load_heapAfter (hnd : ids.Nodup) {x : PeerId} (hx : x ∈ ids) (k : ℕ) :
    k / ids.length ≤ load (heapAfter ids k) x ∧ load (heapAfter ids k) x ≤ k / ids.length + 1 := by
  -- `x` is in exactly one of the two runs of the heap
  have hone : (ids.drop (k % ids.length)).count x + (ids.take (k % ids.length)).count x = 1 := by
    rw [Nat.add_comm, ← List.count_append, List.take_append_drop]
    exact List.count_eq_one_of_mem hnd hx
  rw [heapAfter, load_append, load_map_mk, load_map_mk]
  rcases Nat.add_eq_one_iff.mp hone with ⟨h0, h1⟩ | ⟨h1, h0⟩
  · simp [h0, h1]
  · simp [h0, h1]

/-- Any two peers on the heap after `k` placements carry numbers of replicas within one. -/
theorem load_heapAfter_le (hnd : ids.Nodup) {a b : PeerId} (ha : a ∈ ids) (hb : b ∈ ids)
    (k : ℕ) : load (heapAfter ids k) a ≤ load (heapAfter ids k) b + 1 := by
  have ha' := (load_heapAfter hnd ha k).2
  have hb' := (load_heapAfter hnd hb k).1
  omega

end RoundRobin

/-! ## 4. The proposal -/

section Proposal

open MinHeap

/-- The heap `new` starts from: the known peers, ascending, with no replica. -/
theorem elems_initial (knownPeers : List PeerId) :
    (knownPeers.foldl (fun h peer => h.push (PeerShardCount.new peer)) withCapacity).elems =
      heapAfter (knownPeers.insertionSort (· ≤ ·)) 0 := by
  rw [heapAfter_zero]
  refine List.Perm.eq_of_pairwise' (r := (· ≤ ·)) (MinHeap.sorted _) ?_ ?_
  · -- peers of equal counts ascend by id
    refine List.Pairwise.map _ (fun a b hab => ?_) (List.pairwise_insertionSort _ _)
    exact PeerShardCount.le_iff.mpr (.inr ⟨rfl, hab⟩)
  · calc _ ~ [] ++ knownPeers.map PeerShardCount.new := elems_foldl_push knownPeers _
      _ = knownPeers.map (PeerShardCount.mk 0) := List.nil_append _
      _ ~ _ := ((List.perm_insertionSort _ _).map _).symm

/-- **Shard placement is balanced and replica-distinct**: on distinct known peers, `new`
succeeds with one entry per shard id; each shard gets `min(replication_factor, P)` distinct
known peers, and the numbers of replicas on any two peers differ by at most one. -/
theorem shardDistribution_balanced (shardNumber replicationFactor : ℕ+)
    (knownPeers : List PeerId) (hpeers : knownPeers.Nodup) :
    ∃ d, ShardDistributionProposal.new shardNumber replicationFactor knownPeers = some d ∧
      d.distribution.map Prod.fst = List.range shardNumber ∧
      (∀ s ∈ d.distribution, s.2.length = min (replicationFactor : ℕ) knownPeers.length ∧
        s.2.Nodup ∧ ∀ p ∈ s.2, p ∈ knownPeers) ∧
      ∀ a ∈ knownPeers, ∀ b ∈ knownPeers,
        (d.distribution.flatMap Prod.snd).count a ≤
          (d.distribution.flatMap Prod.snd).count b + 1 := by
  set ids := knownPeers.insertionSort (· ≤ ·)
  have hperm : ids ~ knownPeers := List.perm_insertionSort _ _
  have hnd : ids.Nodup := hperm.nodup_iff.mpr hpeers
  have hids : ids.Pairwise (· < ·) :=
    ((List.pairwise_insertionSort _ _).and hnd).imp fun h => lt_of_le_of_ne h.1 h.2
  have hn : min (replicationFactor : ℕ) knownPeers.length ≤ ids.length :=
    hperm.length_eq ▸ min_le_right _ _
  obtain ⟨d, h', hrun, hfst, hrr, hh'⟩ :=
    placeShards_heapAfter hids hn (List.range shardNumber) (elems_initial knownPeers)
  refine ⟨⟨d⟩, by simp [ShardDistributionProposal.new, hrun], hfst, ?_, ?_⟩
  · -- each shard: the next placements of the round
    intro s hs
    obtain ⟨k', hk'⟩ := hrr s hs
    rw [hk']
    exact ⟨length_roundRobinFrom _ _, nodup_roundRobinFrom hnd _ hn,
      fun p hp => hperm.mem_iff.mp (mem_roundRobinFrom hn hp)⟩
  · -- the final heap counts every placement, and its counts differ by at most one
    intro a ha b hb
    have hcount : ∀ x, (d.flatMap Prod.snd).count x = load h'.elems x := by
      intro x
      rw [load_placeShards hrun, elems_initial, heapAfter_zero, load_map_mk, Nat.zero_mul,
        Nat.zero_add]
    rw [hcount a, hcount b, hh']
    exact load_heapAfter_le hnd (hperm.mem_iff.mpr ha) (hperm.mem_iff.mpr hb) _

theorem shardDistribution_balanced_of_four_peers :
    ([4, 1, 3, 2] : List PeerId).Nodup ∧
      ∃ d, ShardDistributionProposal.new 6 3 [4, 1, 3, 2] = some d ∧
        d.distribution.map Prod.fst = List.range ((6 : ℕ+) : ℕ) ∧
        (∀ s ∈ d.distribution, s.2.length = min ((3 : ℕ+) : ℕ) [4, 1, 3, 2].length ∧
          s.2.Nodup ∧ ∀ p ∈ s.2, p ∈ [4, 1, 3, 2]) ∧
        ∀ a ∈ [4, 1, 3, 2], ∀ b ∈ [4, 1, 3, 2],
          (d.distribution.flatMap Prod.snd).count a ≤
            (d.distribution.flatMap Prod.snd).count b + 1 :=
  ⟨by decide, shardDistribution_balanced 6 3 [4, 1, 3, 2] (by decide)⟩

/-- The source's own test: six shards, one replica each, on four peers. -/
example : ShardDistributionProposal.new 6 1 [1, 2, 3, 4] =
    some ⟨[(0, [1]), (1, [2]), (2, [3]), (3, [4]), (4, [1]), (5, [2])]⟩ := by
  decide

end Proposal

end Qdrant
