/-
# Reads at a consistency level

`ShardReplicaSet::execute_and_resolve_read_operation` (`shards/replica_set.rs`).  The read
consistency fixes a FACTOR, the number of answers the read needs: every replica for `All` and
`Majority`, a majority for `Quorum`, `n` clamped to `[1, total]` for `Factor(n)`.  The read
fails at once when fewer replicas are active; otherwise it starts `factor` reads (at least
`read_remote_replicas` of them without an active local replica), and after each completion
either stops with `factor` answers or tops the pending reads up to `factor` possible answers,
giving up when not even that many are left.

Over every completion order (`pick` chooses which pending read completes) and every pattern of
transient failures, the loop starts reads only on active replicas, each at most once, and ends
with `factor` answers exactly when `factor` of the active replicas answer
(`executeAndResolveReadOperation_spec`).  But `factor.clamp(1, total_count)` panics when the
replica set has no replica at all (`read_factor_panics_without_replicas`).

The shuffle of the active remotes is the order of `remotes`, over which every theorem here
quantifies.
-/
import Qdrant.Shards.ReplicaSet

namespace Qdrant

/-- `ReadConsistencyType`. -/
inductive ReadConsistencyType where
  | majority
  | quorum
  | all
deriving DecidableEq, Repr

/-- `ReadConsistency`. -/
inductive ReadConsistency where
  | factor (n : ℕ)
  | type (t : ReadConsistencyType)
deriving DecidableEq, Repr

/-- `ResolveCondition`. -/
inductive ResolveCondition where
  | all
  | majority
deriving DecidableEq, Repr

/-- `Ord::clamp`, which panics unless `min ≤ max`. -/
def clamp (self min max : ℕ) : CollectionResult ℕ :=
  if min ≤ max then .ok (if self < min then min else if self > max then max else self)
  else .error .panic

/-- The factor and the resolve condition of a read consistency, for `total_count` replicas. -/
def ReadConsistency.factorAndCondition (totalCount : ℕ) :
    ReadConsistency → CollectionResult (ℕ × ResolveCondition)
  | .type .all => .ok (totalCount, .all)
  | .type .majority => .ok (totalCount, .majority)
  | .type .quorum => .ok (totalCount / 2 + 1, .all)
  | .factor n => (clamp n 1 totalCount).map fun factor => (factor, .all)

/-- The failures after which a read goes on with other replicas. -/
def CollectionError.isTransient : CollectionError → Bool
  | .serviceError _ | .cancelled _ => true
  | _ => false

namespace ShardReplicaSet

/-- The completion loop of `execute_and_resolve_read_operation`: `pending` are the reads
started, `operations` those not started yet, `responses` the answers so far.  It returns the
answers it ended with (or the error of a failure that is not transient) and the reads it never
started. -/
def readLoop {Res : Type} (outcome : PeerId → CollectionResult Res) (factor : ℕ)
    (pick : List PeerId → ℕ) (operations pending : List PeerId) (responses : List Res) :
    CollectionResult (List Res) × List PeerId :=
  if h : pending = [] then (.ok responses, operations)
  else
    let i := pick pending % pending.length
    let peer := pending.get ⟨i, Nat.mod_lt _ (List.length_pos_iff.mpr h)⟩
    let rest := pending.eraseIdx i
    -- a failure that is not transient ends the read at once
    let fatal : Option CollectionError := match outcome peer with
      | .error err => if err.isTransient then none else some err
      | .ok _ => none
    let responses := match outcome peer with
      | .ok resp => responses ++ [resp]
      | .error _ => responses
    match fatal with
    | some err => (.error err, operations)
    | none =>
      -- stop with `factor` answers, else top the reads up to `factor` possible answers
      if responses.length ≥ factor then (.ok responses, operations)
      else
        let schedule := factor - (responses.length + rest.length)
        let toppedUp := rest ++ operations.take schedule
        if responses.length + toppedUp.length < factor then (.ok responses, operations.drop schedule)
        else readLoop outcome factor pick (operations.drop schedule) toppedUp responses
termination_by pending.length + operations.length
decreasing_by
  all_goals
    have hpos : 0 < pending.length := List.length_pos_iff.mpr h
    have hi : pick pending % pending.length < pending.length := Nat.mod_lt _ hpos
    simp only [List.length_append, List.length_take, List.length_drop, List.length_eraseIdx, hi,
      if_true]
    omega

variable (rs : ShardReplicaSet)

/-- The replicas of the set: the local one, if any, and the remotes. -/
def totalCount : ℕ := (if rs.localShard.isSome then 1 else 0) + rs.remotes.length

/-- The replicas a read may use: the local one when this peer is active, then the active
remotes. -/
def readOperations : List PeerId :=
  (if rs.localShard.isSome && rs.peerIsActive rs.thisPeerId then [rs.thisPeerId] else []) ++
    rs.remotes.filter rs.peerIsActive

/-- The reads started first: `factor` of them, and without an active local replica at least
`read_remote_replicas` (with one, the fan-out is ignored). -/
def requiredReads (factor : ℕ) : ℕ :=
  let activeLocalCount := if rs.localShard.isSome && rs.peerIsActive rs.thisPeerId then 1 else 0
  if activeLocalCount > 0 then factor else max factor rs.readRemoteReplicas

/-- `execute_and_resolve_read_operation`: `outcome` is what the read returns on each replica,
`resolve` is `Res::resolve`.  Besides the result, the replicas `read_operation` was called on. -/
def executeAndResolveReadOperation {Res : Type} (outcome : PeerId → CollectionResult Res)
    (resolve : List Res → ResolveCondition → Res) (readConsistency : ReadConsistency)
    (pick : List PeerId → ℕ) : CollectionResult Res × List PeerId :=
  let activeLocal := rs.localShard.isSome && rs.peerIsActive rs.thisPeerId
  let activeLocalCount := if activeLocal then 1 else 0
  let activeCount := activeLocalCount + (rs.remotes.filter rs.peerIsActive).length
  match readConsistency.factorAndCondition rs.totalCount with
  | .error err => (.error err, [])
  | .ok (factor, condition) =>
    if activeCount < factor then
      (.error (.serviceError ("The replica set for shard " ++ toString rs.shardId ++ " on peer " ++
        toString rs.thisPeerId ++ " does not have enough active replicas")), [])
    else
      let operations := rs.readOperations
      let requiredReads := rs.requiredReads factor
      let loop := readLoop outcome factor pick (operations.drop requiredReads)
        (operations.take requiredReads) []
      let called := operations.take (operations.length - loop.2.length)
      let result : CollectionResult Res := match loop.1 with
        | .error err => .error err
        | .ok responses =>
          if responses.length ≥ factor then
            if factor = 1 then
              match responses with
              | response :: _ => .ok response
              | [] => .error .panic
            else .ok (resolve responses condition)
          else .error (.serviceError
            "Failed to complete read operation: too many replicas returned an error")
      (result, called)

/-! ## The completion loop -/

section Loop

variable {Res : Type} (outcome : PeerId → CollectionResult Res) (factor : ℕ)
  (pick : List PeerId → ℕ)

/-- The replicas among `l` whose read answers. -/
def okCount (l : List PeerId) : ℕ := l.countP fun p => (outcome p).isOk

theorem okCount_append (l l' : List PeerId) :
    okCount outcome (l ++ l') = okCount outcome l + okCount outcome l' :=
  List.countP_append

theorem okCount_le_length (l : List PeerId) : okCount outcome l ≤ l.length :=
  List.countP_le_length

/-- A completed read leaves the others pending. -/
theorem perm_getElem_cons_eraseIdx (l : List PeerId) {i : ℕ} (hi : i < l.length) :
    l.Perm (l[i] :: l.eraseIdx i) := by
  have hsplit : l = l.take i ++ l[i] :: l.drop (i + 1) := by
    rw [List.getElem_cons_drop hi, List.take_append_drop]
  rw [List.eraseIdx_eq_take_drop_succ]
  conv_lhs => rw [hsplit]
  exact List.perm_middle

theorem okCount_eraseIdx (l : List PeerId) {i : ℕ} (hi : i < l.length) :
    okCount outcome l =
      okCount outcome (l.eraseIdx i) + if (outcome l[i]).isOk then 1 else 0 := by
  rw [okCount, okCount, (perm_getElem_cons_eraseIdx l hi).countP_eq, List.countP_cons]

theorem length_answered (responses : List Res) (x : CollectionResult Res) :
    (match x with
      | .ok resp => responses ++ [resp]
      | .error _ => responses).length = responses.length + if x.isOk then 1 else 0 := by
  cases x <;> simp [Except.isOk, Except.toBool]

variable {outcome}

/-- **The count of the loop.**  With every failure transient, from a state short of `factor`
answers whose pending reads reach `factor` possible answers unless none are left to start, the
loop ends with at most `factor` answers, and with `factor` of them exactly when `factor` of
the reads answered so far, pending or left answer. -/
theorem readLoop_spec (htransient : ∀ p err, outcome p = .error err → err.isTransient = true) :
    ∀ (operations pending : List PeerId) (responses : List Res),
      responses.length < factor →
      (factor ≤ responses.length + pending.length ∨ operations = []) →
      ∃ responses', (readLoop outcome factor pick operations pending responses).1 = .ok responses' ∧
        responses'.length ≤ factor ∧
        (factor ≤ responses'.length ↔
          factor ≤ responses.length + okCount outcome pending + okCount outcome operations) := by
  intro operations pending responses
  fun_induction readLoop outcome factor pick operations pending responses with
  | case1 operations responses =>
    intro hlt henough
    refine ⟨responses, rfl, hlt.le, ?_⟩
    -- nothing pending: by `henough` nothing is left to start either
    have hops : operations = [] := henough.resolve_left (by simp; omega)
    subst hops
    simp [okCount]
  | case2 operations pending responses h i peer fatal err hfatal =>
    intro _ _
    exfalso
    -- a failure ends the read only when it is not transient
    simp only [fatal] at hfatal
    split at hfatal
    · rename_i err' hout
      split at hfatal
      · cases hfatal
      · rename_i hnt
        exact hnt (htransient peer err' hout)
    · cases hfatal
  | case3 operations pending responses h i peer fatal responses' hfatal hge =>
    intro hlt _
    have hi : i < pending.length := Nat.mod_lt _ (List.length_pos_iff.mpr h)
    have hcount : okCount outcome pending =
        okCount outcome (pending.eraseIdx i) + if (outcome peer).isOk then 1 else 0 :=
      okCount_eraseIdx outcome pending hi
    have hlen : responses'.length = responses.length + if (outcome peer).isOk then 1 else 0 :=
      length_answered responses (outcome peer)
    have hone : (if (outcome peer).isOk then 1 else 0) ≤ 1 := by split <;> omega
    refine ⟨responses', rfl, by omega, ⟨fun _ => by omega, fun _ => hge⟩⟩
  | case4 operations pending responses h i peer rest fatal responses' hfatal hlt' schedule toppedUp
      hshort =>
    intro hlt _
    have hi : i < pending.length := Nat.mod_lt _ (List.length_pos_iff.mpr h)
    have hcount : okCount outcome pending =
        okCount outcome rest + if (outcome peer).isOk then 1 else 0 :=
      okCount_eraseIdx outcome pending hi
    have hlen : responses'.length = responses.length + if (outcome peer).isOk then 1 else 0 :=
      length_answered responses (outcome peer)
    have hschedule : schedule = factor - (responses'.length + rest.length) := rfl
    have htopped : toppedUp.length = rest.length + min schedule operations.length := by
      simp [toppedUp, List.length_append, List.length_take]
    -- the top-up started every read left, and still `factor` answers are out of reach
    have hops : operations.length < schedule := by omega
    have hrest := okCount_le_length outcome rest
    have hrestOps := okCount_le_length outcome operations
    refine ⟨responses', rfl, by omega, ⟨fun hge => by omega, fun hge => by omega⟩⟩
  | case5 operations pending responses h i peer rest fatal responses' hfatal hlt' schedule toppedUp
      hfull ih =>
    intro hlt _
    have hi : i < pending.length := Nat.mod_lt _ (List.length_pos_iff.mpr h)
    have hcount : okCount outcome pending =
        okCount outcome rest + if (outcome peer).isOk then 1 else 0 :=
      okCount_eraseIdx outcome pending hi
    have hlen : responses'.length = responses.length + if (outcome peer).isOk then 1 else 0 :=
      length_answered responses (outcome peer)
    obtain ⟨responses'', hres, hle, hiff⟩ := ih (by omega) (Or.inl (by omega))
    refine ⟨responses'', hres, hle, ?_⟩
    rw [hiff]
    -- the reads moved from `operations` to `toppedUp` keep the count
    have htopped : okCount outcome toppedUp =
        okCount outcome rest + okCount outcome (operations.take schedule) :=
      okCount_append outcome rest _
    have hops : okCount outcome operations =
        okCount outcome (operations.take schedule) + okCount outcome (operations.drop schedule) := by
      rw [← okCount_append, List.take_append_drop]
    omega

/-- One completion: the answers so far, with the completed read's if it answered, are those of
distinct reads, among the reads answered before and the ones still pending. -/
theorem answered_step (pending : List PeerId) {i : ℕ} (hi : i < pending.length)
    (responses : List Res) (answered : List PeerId)
    (hmap : answered.map outcome = responses.map .ok) :
    ∃ answered', answered'.map outcome =
        (match outcome pending[i] with
          | .ok resp => responses ++ [resp]
          | .error _ => responses).map .ok ∧
      (answered' ++ pending.eraseIdx i).Subperm (answered ++ pending) := by
  rcases hout : outcome pending[i] with err | resp
  · -- a failed read adds no answer
    refine ⟨answered, hmap, ?_⟩
    exact (List.subperm_append_left answered).mpr (List.eraseIdx_sublist _ _).subperm
  · refine ⟨answered ++ [pending[i]], by simp [hmap, hout], ?_⟩
    have hperm : (answered ++ [pending[i]] ++ pending.eraseIdx i).Perm (answered ++ pending) := by
      rw [List.append_assoc, List.singleton_append]
      exact (perm_getElem_cons_eraseIdx pending hi).symm.append_left answered
    exact hperm.subperm

/-- **Where the answers come from.**  The answers the loop ends with are those of distinct
reads: of the replicas answered before, the pending ones and the ones left. -/
theorem readLoop_answers :
    ∀ (operations pending : List PeerId) (responses : List Res) (answered : List PeerId),
      answered.map outcome = responses.map .ok →
      ∀ responses', (readLoop outcome factor pick operations pending responses).1 = .ok responses' →
        ∃ answered' : List PeerId, answered'.map outcome = responses'.map .ok ∧
          answered'.Subperm (answered ++ pending ++ operations) := by
  intro operations pending responses
  fun_induction readLoop outcome factor pick operations pending responses with
  | case1 operations responses =>
    intro answered hmap responses' hres
    cases hres
    refine ⟨answered, hmap, ?_⟩
    rw [List.append_nil]
    exact (List.sublist_append_left _ _).subperm
  | case2 => intro _ _ _ hres; cases hres
  | case3 operations pending responses h i peer fatal responses' hfatal hge =>
    intro answered hmap responses'' hres
    cases hres
    have hi : i < pending.length := Nat.mod_lt _ (List.length_pos_iff.mpr h)
    obtain ⟨answered', hmap', hsub⟩ := answered_step pending hi responses answered hmap
    refine ⟨answered', hmap', ?_⟩
    exact ((List.sublist_append_left _ _).subperm.trans hsub).trans
      (List.sublist_append_left _ _).subperm
  | case4 operations pending responses h i peer rest fatal responses' hfatal hlt schedule toppedUp
      hshort =>
    intro answered hmap responses'' hres
    cases hres
    have hi : i < pending.length := Nat.mod_lt _ (List.length_pos_iff.mpr h)
    obtain ⟨answered', hmap', hsub⟩ := answered_step pending hi responses answered hmap
    refine ⟨answered', hmap', ?_⟩
    exact ((List.sublist_append_left _ _).subperm.trans hsub).trans
      (List.sublist_append_left _ _).subperm
  | case5 operations pending responses h i peer rest fatal responses' hfatal hlt schedule toppedUp
      hfull ih =>
    intro answered hmap responses'' hres
    have hi : i < pending.length := Nat.mod_lt _ (List.length_pos_iff.mpr h)
    obtain ⟨answered', hmap', hsub⟩ := answered_step pending hi responses answered hmap
    obtain ⟨answered'', hmap'', hsub''⟩ := ih answered' hmap' responses'' hres
    refine ⟨answered'', hmap'', hsub''.trans ?_⟩
    -- the top-up only moves reads from `operations` to the pending ones
    have hsplit : answered' ++ toppedUp ++ operations.drop schedule =
        (answered' ++ rest) ++ operations := by
      simp only [toppedUp, List.append_assoc, List.take_append_drop]
    rw [hsplit]
    exact hsub.append (List.Subperm.refl operations)

end Loop

/-! ## The read -/

section Read

variable {Res : Type} (outcome : PeerId → CollectionResult Res)
  (resolve : List Res → ResolveCondition → Res) (readConsistency : ReadConsistency)
  (pick : List PeerId → ℕ)

/-- A read uses only replicas that serve reads. -/
theorem peerIsActive_of_mem_readOperations {p : PeerId} (hp : p ∈ rs.readOperations) :
    rs.peerIsActive p = true := by
  rcases List.mem_append.mp hp with hlocal | hremote
  · split at hlocal
    · rename_i hactive
      rw [List.mem_singleton.mp hlocal]
      exact (Bool.and_eq_true_iff.mp hactive).2
    · cases hlocal
  · exact (List.mem_filter.mp hremote).2

/-- The replicas a read calls are the first of those it may use. -/
theorem executeAndResolveReadOperation_snd_prefix :
    (rs.executeAndResolveReadOperation outcome resolve readConsistency pick).2 <+:
      rs.readOperations := by
  simp only [executeAndResolveReadOperation]
  split
  · exact List.nil_prefix
  · -- too few active replicas: no call; otherwise the calls are a prefix
    split_ifs <;> simp only [List.nil_prefix, List.take_prefix]

/-- **A read calls only replicas that serve reads**: `Active` and not disabled locally. -/
theorem peerIsActive_of_mem_called {p : PeerId}
    (hp : p ∈ (rs.executeAndResolveReadOperation outcome resolve readConsistency pick).2) :
    rs.peerIsActive p = true :=
  rs.peerIsActive_of_mem_readOperations
    ((rs.executeAndResolveReadOperation_snd_prefix outcome resolve readConsistency pick).subset hp)

theorem length_readOperations : rs.readOperations.length =
    (if rs.localShard.isSome && rs.peerIsActive rs.thisPeerId then 1 else 0) +
      (rs.remotes.filter rs.peerIsActive).length := by
  unfold readOperations
  split <;> simp [Nat.add_comm]

/-- The factor is positive unless the set has no replica. -/
theorem factor_pos_or {factor : ℕ} {condition : ResolveCondition}
    (h : readConsistency.factorAndCondition rs.totalCount = .ok (factor, condition)) :
    0 < factor ∨ rs.totalCount = 0 := by
  cases readConsistency with
  | factor n =>
    simp only [ReadConsistency.factorAndCondition, clamp] at h
    split at h
    · -- `clamp` did not panic: its result is at least the lower bound 1
      left
      simp only [Except.map, Except.ok.injEq, Prod.mk.injEq] at h
      rw [← h.1]
      split_ifs <;> omega
    · cases h
  | type t =>
    cases t <;> simp only [ReadConsistency.factorAndCondition, Except.ok.injEq,
      Prod.mk.injEq] at h <;> omega

theorem readOperations_eq_nil (h : rs.totalCount = 0) : rs.readOperations = [] := by
  unfold totalCount at h
  have hlocal : rs.localShard.isSome = false := by
    by_contra hsome
    simp only [Bool.not_eq_false] at hsome
    simp [hsome] at h
  have hremotes : rs.remotes = [] := List.eq_nil_of_length_eq_zero (by omega)
  simp [readOperations, hlocal, hremotes]

theorem le_requiredReads (factor : ℕ) : factor ≤ rs.requiredReads factor := by
  simp only [requiredReads]
  split_ifs <;> omega

/-- The loop started with `factor` reads or more from none answered: its pending reads reach
`factor` possible answers unless no read is left to start. -/
theorem enough_of_le_requiredReads {factor : ℕ} (operations : List PeerId) {required : ℕ}
    (hle : factor ≤ required) :
    factor ≤ ([] : List Res).length + (operations.take required).length ∨
      operations.drop required = [] := by
  by_cases hlen : required ≤ operations.length
  · left
    simp only [List.length_nil, List.length_take, Nat.zero_add]
    omega
  · right
    exact List.drop_eq_nil_of_le (by omega)

/-- **Reads at a consistency level.**  When the factor is defined (the read does not panic)
and every failure is transient, then over every completion order the read calls a prefix of
the replicas that serve reads, it succeeds exactly when `factor` of them answer, and its
result is built from the answers of exactly `factor` distinct replicas: the only one for a
factor of 1, their resolution otherwise. -/
theorem executeAndResolveReadOperation_spec
    (htransient : ∀ p err, outcome p = .error err → err.isTransient = true)
    {factor : ℕ} {condition : ResolveCondition}
    (hfactor : readConsistency.factorAndCondition rs.totalCount = .ok (factor, condition)) :
    let read := rs.executeAndResolveReadOperation outcome resolve readConsistency pick
    read.2 <+: rs.readOperations ∧
      ((∃ r, read.1 = .ok r) ↔ factor ≤ okCount outcome rs.readOperations) ∧
      ∀ r, read.1 = .ok r → ∃ (answered : List PeerId) (responses : List Res),
        answered.Subperm rs.readOperations ∧ answered.map outcome = responses.map .ok ∧
        responses.length = factor ∧
        (if factor = 1 then responses = [r] else r = resolve responses condition) := by
  intro read
  have hcount := length_readOperations rs
  have hbound := okCount_le_length outcome rs.readOperations
  simp only [read, executeAndResolveReadOperation, hfactor]
  rw [← hcount]
  split
  · -- fewer active replicas than the factor: the read fails before starting one
    rename_i hlt
    refine ⟨?_, ⟨?_, fun h => by omega⟩, fun _ h => by cases h⟩
    · exact List.nil_prefix
    · rintro ⟨_, h⟩
      cases h
  · rcases factor_pos_or rs readConsistency hfactor with hpos | hzero
    · -- the loop, started from no answer
      have hreq := rs.le_requiredReads factor
      obtain ⟨responses', hres, hlen, hiff⟩ := readLoop_spec factor pick htransient
        (rs.readOperations.drop (rs.requiredReads factor))
        (rs.readOperations.take (rs.requiredReads factor)) [] hpos
        (enough_of_le_requiredReads rs.readOperations hreq)
      obtain ⟨answered, hmap, hsub⟩ := readLoop_answers factor pick
        (rs.readOperations.drop (rs.requiredReads factor))
        (rs.readOperations.take (rs.requiredReads factor)) [] []
        (show ([] : List PeerId).map outcome = ([] : List Res).map .ok from rfl) responses' hres
      rw [List.nil_append, List.take_append_drop] at hsub
      have htotal : okCount outcome (rs.readOperations.take (rs.requiredReads factor)) +
          okCount outcome (rs.readOperations.drop (rs.requiredReads factor)) =
            okCount outcome rs.readOperations := by
        rw [← okCount_append, List.take_append_drop]
      simp only [List.length_nil, Nat.zero_add, htotal] at hiff
      simp only [hres]
      refine ⟨?_, ?_, ?_⟩
      · exact List.take_prefix _ _
      · by_cases hge : responses'.length ≥ factor
        · rw [if_pos hge]
          refine ⟨fun _ => hiff.mp hge, fun _ => ?_⟩
          split
          · -- a factor of 1: the single response
            obtain ⟨response, rfl⟩ : ∃ response, responses' = [response] :=
              List.length_eq_one_iff.mp (by omega)
            exact ⟨response, rfl⟩
          · exact ⟨_, rfl⟩
        · rw [if_neg hge]
          refine ⟨?_, fun h => absurd (hiff.mpr h) hge⟩
          rintro ⟨_, h⟩
          cases h
      · intro r hr
        refine ⟨answered, responses', hsub, hmap, ?_⟩
        by_cases hge : responses'.length ≥ factor
        · rw [if_pos hge] at hr
          have hlen' : responses'.length = factor := by omega
          refine ⟨hlen', ?_⟩
          split at hr
          · rename_i hone
            rw [if_pos hone]
            obtain ⟨response, rfl⟩ : ∃ response, responses' = [response] :=
              List.length_eq_one_iff.mp (by omega)
            cases hr
            rfl
          · rename_i hone
            rw [if_neg hone]
            cases hr
            rfl
        · rw [if_neg hge] at hr
          cases hr
    · -- no replica at all: nothing to wait for, an empty read resolved at once
      have hops := rs.readOperations_eq_nil hzero
      have hfactor0 : factor = 0 := by
        rename_i hge
        rw [hops, List.length_nil] at hge
        omega
      have hloop : readLoop outcome 0 pick [] [] [] = (.ok [], []) := by
        rw [readLoop, dif_pos rfl]
      simp only [hops, hfactor0, List.drop_nil, List.take_nil, hloop]
      refine ⟨?_, ⟨fun _ => Nat.zero_le _, fun _ => ⟨_, rfl⟩⟩, ?_⟩
      · exact List.nil_prefix
      intro r hr
      cases hr
      exact ⟨[], [], List.nil_subperm, rfl, rfl, by simp⟩

/-- A local replica and one remote, both active and answering, read at `Quorum`. -/
theorem executeAndResolveReadOperation_spec_quorum :
    let rs : ShardReplicaSet :=
      ⟨some .local, [2], ⟨true, 1, [(1, .active), (2, .active)], by decide⟩, ∅, 0, "collection", 1⟩
    let outcome : PeerId → CollectionResult ℕ := fun p => .ok p
    let read := rs.executeAndResolveReadOperation outcome (fun responses _ => responses.sum)
      (.type .quorum) (fun _ => 0)
    (∀ p err, outcome p = .error err → err.isTransient = true) ∧
      (ReadConsistency.type .quorum).factorAndCondition rs.totalCount = .ok (2, .all) ∧
      read.2 <+: rs.readOperations ∧
      ((∃ r, read.1 = .ok r) ↔ 2 ≤ okCount outcome rs.readOperations) := by
  intro rs outcome read
  have htransient : ∀ p err, outcome p = .error err → err.isTransient = true := by
    intro p err h
    cases h
  have hfactor : (ReadConsistency.type .quorum).factorAndCondition rs.totalCount = .ok (2, .all) := by
    simp [rs, totalCount, ReadConsistency.factorAndCondition]
  obtain ⟨hcalled, hiff, _⟩ := executeAndResolveReadOperation_spec rs outcome
    (fun responses _ => responses.sum) (.type .quorum) (fun _ => 0) htransient hfactor
  exact ⟨htransient, hfactor, hcalled, hiff⟩

/-- **A factor read panics on a set without replicas**: `factor.clamp(1, total_count)` asserts
`1 ≤ total_count`. -/
theorem executeAndResolveReadOperation_factor_panics (n : ℕ) (hlocal : rs.localShard = none)
    (hremotes : rs.remotes = []) :
    rs.executeAndResolveReadOperation outcome resolve (.factor n) pick = (.error .panic, []) := by
  have htotal : rs.totalCount = 0 := by simp [totalCount, hlocal, hremotes]
  simp [executeAndResolveReadOperation, htotal, ReadConsistency.factorAndCondition, clamp,
    Except.map]

/-- A replica set with neither a local replica nor remotes, read at `Factor(1)`. -/
theorem read_factor_panics_without_replicas :
    let rs : ShardReplicaSet :=
      ⟨none, [], ⟨false, 1, [], OrdMap.sorted_nil⟩, ∅, 0, "collection", 1⟩
    (rs.executeAndResolveReadOperation (fun _ => (.ok () : CollectionResult Unit)) (fun _ _ => ())
      (.factor 1) (fun _ => 0)).1 = .error .panic := by
  intro rs
  rw [executeAndResolveReadOperation_factor_panics rs _ _ _ 1 rfl rfl]

end Read

end ShardReplicaSet

end Qdrant
