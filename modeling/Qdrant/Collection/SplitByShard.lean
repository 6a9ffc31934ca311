/-
# Splitting an update by shard

`operations/mod.rs` and `operations/point_ops.rs`.  Before an update reaches the shards of a
collection, `split_by_shard` cuts it into one operation per shard: each point goes to the
shard the hash ring gives its id (`point_to_shard`).  A list of points or of ids is grouped by
shard in a `HashMap` of lists; a `Batch`, whose ids, vectors and payloads are parallel lists
(with named vectors kept as one list per name), is walked record by record (`izip!`, after
`transpose_map_into_named_vector` has turned the lists per name into one map per record) and
rebuilt per shard.  Deletes by filter, and field index operations, go to all shards.

`PointInsertOperations::validate` accepts a batch whose vector lists (every list of a name)
and payloads have as many entries as its ids.  For every operation that passes it:

* `Batch.splitByShard_spec`: each shard's batch passes it too, and the points it upserts are
  exactly the points of the request whose id the ring sends to that shard, in their order,
  with their own vectors and payload; each shard that gets a point has one batch;
* `SplitsByShard.perm`: the shards' points together are the request's points, each once;
* `splitByShard_partitions` (the result) says this for each kind of point operation, as a
  `CollectionUpdateOperations`.

The ring is its lookup, total for a ring with at least one shard.  The `HashMap` of shards is
a list in the order shards first get a point; nothing here depends on that order.
-/
import Qdrant.Collection.Operations
import Qdrant.Shards.ReplicaSet
import Qdrant.Lib.Grouping

namespace Qdrant

open Grouping

/-! ## 1. The model -/

/-- `OperationToShard`: one operation per shard, or one for all shards. -/
inductive OperationToShard (O : Type) where
  | byShard (operations : List (ShardId × O))
  | toAll (operation : O)

/-- `OperationToShard::map`. -/
def OperationToShard.map {O O₂ : Type} (f : O → O₂) : OperationToShard O → OperationToShard O₂
  | .byShard operations => .byShard (operations.map fun e => (e.1, f e.2))
  | .toAll operation => .toAll (f operation)

/-- `OperationToShard::to_none`. -/
def OperationToShard.toNone {O : Type} : OperationToShard O := .byShard []

/-- A hash ring, by its lookup `point_to_shard`: a ring with at least one shard gives every id
a shard. -/
abbrev HashRing := ExtendedPointId → ShardId

/-- `split_iter_by_shard`: each item pushed to the list of its shard. -/
def splitIterByShard {O : Type} (iter : List O) (idExtractor : O → ExtendedPointId)
    (ring : HashRing) : OperationToShard (List O) :=
  .byShard (groupBy (fun o => ring (idExtractor o)) [] (fun l o => l ++ [o]) iter)

/-- The records `izip!` walks in a batch: each id with its vectors, and with its payload when
the batch has payloads; the shortest list decides how many. -/
def batchRecords {V : Type} (ids : List ExtendedPointId) (vectors : List V)
    (payloads : Option (List (Option Payload))) : List (ExtendedPointId × V × Option (Option Payload)) :=
  match payloads with
  | some payloads => ((ids.zip vectors).zip payloads).map fun r => (r.1.1, r.1.2, some r.2)
  | none => (ids.zip vectors).map fun r => (r.1, r.2, none)

/-- A shard's batch while `split_by_shard` fills it: its ids, its vectors (one list, or one list
per name) and its payloads when the request has them. -/
structure BatchBuilder (C : Type) where
  ids : List ExtendedPointId
  vectors : C
  payloads : Option (List (Option Payload))

/-- One record pushed to its shard's batch. -/
def BatchBuilder.push {V C : Type} (pushVectors : C → V → C) (b : BatchBuilder C)
    (r : ExtendedPointId × V × Option (Option Payload)) : BatchBuilder C :=
  ⟨b.ids ++ [r.1], pushVectors b.vectors r.2.1, b.payloads.map (· ++ r.2.2.toList)⟩

/-- The loop of `split_by_shard` over the records of a batch, each shard's batch started from
`vectorsInit` and the request's kind of payloads. -/
def splitBatchRecords {V C : Type} (ring : HashRing) (vectorsInit : C) (pushVectors : C → V → C)
    (toStruct : C → BatchVectorStruct) (payloadsInit : Option (List (Option Payload)))
    (records : List (ExtendedPointId × V × Option (Option Payload))) : List (ShardId × Batch) :=
  (groupBy (fun r => ring r.1) ⟨[], vectorsInit, payloadsInit⟩ (BatchBuilder.push pushVectors)
    records).map fun e => (e.1, ⟨e.2.ids, toStruct e.2.vectors, e.2.payloads⟩)

/-- The loop body for named vectors: `batch_vectors.entry(name).or_insert_with(Vec::new)`
`.push(vector)` for each name of the record. -/
def pushNamedVectors (batchVectors : List (String × List (List ℚ))) (namedVector : NamedVectors) :
    List (String × List (List ℚ)) :=
  namedVector.foldl (fun m e => modifyEntry e.1 [] (fun vs => vs ++ [e.2]) m) batchVectors

/-- `Batch::split_by_shard`.  The source's four loops (one vector or named vectors, with
payloads or without) are one loop over the records `izip!` walks; a shard's batch is made
`Single` or `Multi` as the request is, and gets payloads when the request has them. -/
def Batch.splitByShard (ring : HashRing) (batch : Batch) : OperationToShard Batch :=
  let payloadsInit := batch.payloads.map fun _ => []
  match batch.vectors with
  | .single vectors =>
    .byShard (splitBatchRecords ring [] (fun vs v => vs ++ [v]) .single payloadsInit
      (batchRecords batch.ids vectors batch.payloads))
  | .multi namedVectors =>
    let namedVectorsList := if !namedVectors.isEmpty then transposeMapIntoNamedVector namedVectors
      else List.replicate batch.ids.length []
    .byShard (splitBatchRecords ring [] pushNamedVectors .multi payloadsInit
      (batchRecords batch.ids namedVectorsList batch.payloads))

/-- `PointInsertOperations::split_by_shard`. -/
def PointInsertOperations.splitByShard (ring : HashRing) :
    PointInsertOperations → OperationToShard PointInsertOperations
  | .pointsBatch batch => (batch.splitByShard ring).map .pointsBatch
  | .pointsList list => (splitIterByShard list (·.id) ring).map .pointsList

/-- `PointOperations::split_by_shard`; a sync, meant for one shard only, goes nowhere (the
`debug_assert!` is off in a release build). -/
def PointOperations.splitByShard (ring : HashRing) :
    PointOperations → OperationToShard PointOperations
  | .upsertPoints operation => (operation.splitByShard ring).map .upsertPoints
  | .deletePoints ids => (splitIterByShard ids id ring).map .deletePoints
  | .deletePointsByFilter filter => .toAll (.deletePointsByFilter filter)
  | .syncPoints _ => .byShard []

/-- `SetPayload::split_by_shard`: by its points when it has them, else to all shards by its
filter, else nowhere. -/
def SetPayload.splitByShard (ring : HashRing) (operation : SetPayload) :
    OperationToShard SetPayload :=
  match operation.points, operation.filter with
  | some points, _ => (splitIterByShard points id ring).map fun points =>
      { operation with points := some points }
  | none, some _ => .toAll operation
  | none, none => .toNone

/-- `DeletePayload::split_by_shard`, as `SetPayload`'s. -/
def DeletePayload.splitByShard (ring : HashRing) (operation : DeletePayload) :
    OperationToShard DeletePayload :=
  match operation.points, operation.filter with
  | some points, _ => (splitIterByShard points id ring).map fun points =>
      { operation with points := some points }
  | none, some _ => .toAll operation
  | none, none => .toNone

/-- `PayloadOps::split_by_shard`. -/
def PayloadOps.splitByShard (ring : HashRing) : PayloadOps → OperationToShard PayloadOps
  | .setPayload operation => (operation.splitByShard ring).map .setPayload
  | .deletePayload operation => (operation.splitByShard ring).map .deletePayload
  | .clearPayload points => (splitIterByShard points id ring).map .clearPayload
  | .clearPayloadByFilter filter => .toAll (.clearPayloadByFilter filter)
  | .overwritePayload operation => (operation.splitByShard ring).map .overwritePayload

/-- `CollectionUpdateOperations::split_by_shard`. -/
def CollectionUpdateOperations.splitByShard (ring : HashRing) :
    CollectionUpdateOperations → OperationToShard CollectionUpdateOperations
  | .pointOperation operation => (operation.splitByShard ring).map .pointOperation
  | .payloadOperation operation => (operation.splitByShard ring).map .payloadOperation
  | .fieldIndexOperation operation => .toAll (.fieldIndexOperation operation)

/-! ## 2. Validation -/

/-- A `ValidationError` of `validate`, under the field it names. -/
structure ValidationError where
  field : String
  code : String
  message : String

/-- The error `PointInsertOperations::validate` reports: `point_insert_operation` under `batch`. -/
def createError (message : String) : ValidationError := ⟨"batch", "point_insert_operation", message⟩

/-- The message for a vector list of the wrong length. -/
def badInputDescription (ids vecs : ℕ) : String :=
  "number of ids and vectors must be equal (" ++ toString ids ++ " != " ++ toString vecs ++ ")"

/-- One vector list checked against the number of ids. -/
def checkVectorsLength (ids vecs : ℕ) : Except ValidationError Unit :=
  if ids ≠ vecs then .error (createError (badInputDescription ids vecs)) else .ok ()

/-- The `for` loop over the vector lists of the names, in the map's order: the first list of
the wrong length fails. -/
def checkNamedVectors (ids : ℕ) : List (String × List (List ℚ)) → Except ValidationError Unit
  | [] => .ok ()
  | e :: rest => (checkVectorsLength ids e.2.length).bind fun _ => checkNamedVectors ids rest

/-- The vector lists of a batch checked against its ids. -/
def checkBatchVectors (batch : Batch) : Except ValidationError Unit :=
  match batch.vectors with
  | .single vectors => checkVectorsLength batch.ids.length vectors.length
  | .multi namedVectors => checkNamedVectors batch.ids.length namedVectors

/-- The payloads of a batch, when it has them, checked against its ids. -/
def checkBatchPayloads (batch : Batch) : Except ValidationError Unit :=
  match batch.payloads with
  | some payloadVector =>
    if payloadVector.length ≠ batch.ids.length then
      .error (createError ("number of ids and payloads must be equal (" ++
        toString batch.ids.length ++ " != " ++ toString payloadVector.length ++ ")"))
    else .ok ()
  | none => .ok ()

/-- `PointInsertOperations::validate`: the vector lists, then the payloads. -/
def PointInsertOperations.validate : PointInsertOperations → Except ValidationError Unit
  | .pointsList _ => .ok ()
  | .pointsBatch batch => (checkBatchVectors batch).bind fun _ => checkBatchPayloads batch

/-- `PointOperations::validate`. -/
def PointOperations.validate : PointOperations → Except ValidationError Unit
  | .upsertPoints operation => operation.validate
  | .deletePoints _ => .ok ()
  | .deletePointsByFilter _ => .ok ()
  | .syncPoints _ => .ok ()

/-- Every vector list of a batch has `n` entries. -/
def BatchVectorStruct.HasLength (n : ℕ) : BatchVectorStruct → Prop
  | .single vectors => vectors.length = n
  | .multi namedVectors => ∀ e ∈ namedVectors, e.2.length = n

/-- The lists of a batch agree in length with its ids. -/
def Batch.Consistent (batch : Batch) : Prop :=
  batch.vectors.HasLength batch.ids.length ∧ ∀ ps, batch.payloads = some ps → ps.length = batch.ids.length

theorem checkVectorsLength_eq_ok {ids vecs : ℕ} : checkVectorsLength ids vecs = .ok () ↔ vecs = ids := by
  unfold checkVectorsLength
  split_ifs with h
  · constructor
    · intro hok
      cases hok
    · intro heq
      exact absurd heq.symm h
  · exact ⟨fun _ => (not_not.mp h).symm, fun _ => rfl⟩

theorem checkNamedVectors_eq_ok {ids : ℕ} :
    ∀ namedVectors : List (String × List (List ℚ)),
      checkNamedVectors ids namedVectors = .ok () ↔ ∀ e ∈ namedVectors, e.2.length = ids
  | [] => by simp [checkNamedVectors]
  | e :: rest => by
    rw [checkNamedVectors, List.forall_mem_cons, ← checkNamedVectors_eq_ok rest,
      ← checkVectorsLength_eq_ok]
    cases checkVectorsLength ids e.2.length with
    | error err => simp [Except.bind]
    | ok u => simp [Except.bind]

theorem checkBatchVectors_eq_ok (batch : Batch) :
    checkBatchVectors batch = .ok () ↔ batch.vectors.HasLength batch.ids.length := by
  unfold checkBatchVectors
  cases batch.vectors with
  | single vectors => exact checkVectorsLength_eq_ok
  | multi namedVectors => exact checkNamedVectors_eq_ok namedVectors

theorem checkBatchPayloads_eq_ok (batch : Batch) :
    checkBatchPayloads batch = .ok () ↔
      ∀ ps, batch.payloads = some ps → ps.length = batch.ids.length := by
  unfold checkBatchPayloads
  cases batch.payloads with
  | none => simp
  | some ps => by_cases h : ps.length = batch.ids.length <;> simp [h]

/-- A batch passes `validate` exactly when its lists agree in length with its ids. -/
theorem validate_pointsBatch_eq_ok (batch : Batch) :
    (PointInsertOperations.pointsBatch batch).validate = .ok () ↔ batch.Consistent := by
  rw [PointInsertOperations.validate, Batch.Consistent, ← checkBatchVectors_eq_ok,
    ← checkBatchPayloads_eq_ok]
  cases checkBatchVectors batch with
  | error err => simp [Except.bind]
  | ok u => simp [Except.bind]

theorem checkVectorsLength_error {ids vecs : ℕ} {err : ValidationError}
    (h : checkVectorsLength ids vecs = .error err) : err = createError err.message := by
  unfold checkVectorsLength at h
  split_ifs at h
  cases h
  rfl

theorem checkNamedVectors_error {ids : ℕ} {err : ValidationError} :
    ∀ {namedVectors : List (String × List (List ℚ))},
      checkNamedVectors ids namedVectors = .error err → err = createError err.message
  | [], h => by cases h
  | e :: rest, h => by
    rw [checkNamedVectors] at h
    cases hcheck : checkVectorsLength ids e.2.length with
    | error err' =>
      rw [hcheck] at h
      cases h
      exact checkVectorsLength_error hcheck
    | ok u =>
      rw [hcheck] at h
      exact checkNamedVectors_error h

/-- Every error `validate` reports is a `point_insert_operation` error under `batch`. -/
theorem validate_error_eq_createError {operation : PointInsertOperations} {err : ValidationError}
    (h : operation.validate = .error err) : err = createError err.message := by
  cases operation with
  | pointsList points => cases h
  | pointsBatch batch =>
    rw [PointInsertOperations.validate] at h
    cases hvectors : checkBatchVectors batch with
    | error err' =>
      rw [hvectors] at h
      cases h
      unfold checkBatchVectors at hvectors
      split at hvectors
      · exact checkVectorsLength_error hvectors
      · exact checkNamedVectors_error hvectors
    | ok u =>
      simp only [hvectors, Except.bind] at h
      unfold checkBatchPayloads at h
      split at h
      · split_ifs at h
        cases h
        rfl
      · cases h

/-- **`validate` of a batch**: it accepts exactly a batch whose lists agree in length with its
ids, and rejects any other with a `point_insert_operation` error under `batch`. -/
theorem validate_pointsBatch_spec (batch : Batch) :
    (PointInsertOperations.pointsBatch batch).validate = .ok () ∧ batch.Consistent ∨
      ∃ message, (PointInsertOperations.pointsBatch batch).validate = .error (createError message) ∧
        ¬ batch.Consistent := by
  cases h : (PointInsertOperations.pointsBatch batch).validate with
  | ok u => exact .inl ⟨rfl, (validate_pointsBatch_eq_ok batch).mp h⟩
  | error err =>
    refine .inr ⟨err.message, congrArg Except.error (validate_error_eq_createError h), ?_⟩
    rw [← validate_pointsBatch_eq_ok, h]
    exact fun hok => nomatch hok

/-! ## 3. What a split is -/

/-- `L` splits `xs` by shard: one operation per shard that an item goes to, each holding (as
`content` reads it) exactly the items of its shard, in their order. -/
structure SplitsByShard {α O : Type} (shard : α → ShardId) (content : O → List α) (xs : List α)
    (L : List (ShardId × O)) : Prop where
  nodup : (L.map Prod.fst).Nodup
  shards : ∀ s, s ∈ L.map Prod.fst ↔ ∃ x ∈ xs, shard x = s
  content : ∀ e ∈ L, content e.2 = xs.filter fun x => shard x = e.1

section Splits

variable {α β O O₂ : Type} {shard : α → ShardId} {content : O → List α} {xs : List α}
  {L : List (ShardId × O)}

/-- The shards' items together are the items of the request, each as often as there. -/
theorem SplitsByShard.perm (h : SplitsByShard shard content xs L) :
    (L.flatMap fun e => content e.2).Perm xs := by
  have hcontent : (L.flatMap fun e => content e.2) =
      (L.map Prod.fst).flatMap fun s => xs.filter fun x => shard x = s := by
    rw [List.flatMap_map]
    exact List.flatMap_congr fun e he => h.content e he
  rw [hcontent]
  exact perm_flatMap_filter h.nodup fun x hx => (h.shards _).mpr ⟨x, hx, rfl⟩

theorem SplitsByShard.map_snd (f : O → O₂) (content₂ : O₂ → List α)
    (h : SplitsByShard shard (fun o => content₂ (f o)) xs L) :
    SplitsByShard shard content₂ xs (L.map fun e => (e.1, f e.2)) := by
  refine ⟨?_, fun s => ?_, fun e he => ?_⟩
  · rw [List.map_map]
    exact h.nodup
  · rw [List.map_map]
    exact h.shards s
  · obtain ⟨e', he', rfl⟩ := List.mem_map.mp he
    exact h.content e' he'

/-- A grouping by shard whose groups read back as the items they were built from is a split. -/
theorem SplitsByShard.of_isGrouping {γ B : Type} {key : γ → ShardId} {init : B} {push : B → γ → B}
    {records : List γ} {L : List (ShardId × B)} (hgroup : IsGrouping key init push records L)
    (toItem : γ → α) (hshard : ∀ r, shard (toItem r) = key r) (content : B → List α)
    (hcontent : ∀ ys : List γ, ys.Sublist records → content (ys.foldl push init) = ys.map toItem) :
    SplitsByShard shard content (records.map toItem) L := by
  refine ⟨hgroup.nodup, fun s => ?_, fun e he => ?_⟩
  · rw [hgroup.keys]
    simp only [List.mem_map]
    constructor
    · rintro ⟨r, hr, rfl⟩
      exact ⟨toItem r, ⟨r, hr, rfl⟩, hshard r⟩
    · rintro ⟨_, ⟨r, hr, rfl⟩, hs⟩
      exact ⟨r, hr, (hshard r).symm.trans hs⟩
  · rw [hgroup.groups e he, groupOf, hcontent _ List.filter_sublist, List.filter_map]
    congr 1
    exact List.filter_congr fun r _ => by simp [hshard]

end Splits

theorem foldl_append_map {α β : Type} (f : α → β) (ys : List α) (init : List β) :
    ys.foldl (fun l o => l ++ [f o]) init = init ++ ys.map f := by
  induction ys generalizing init with
  | nil => simp
  | cons y ys ih => rw [List.foldl_cons, ih, List.map_cons, List.append_assoc, List.singleton_append]

/-- `split_iter_by_shard` sends each item to the shard of its id, in order. -/
theorem splitIterByShard_spec {O : Type} (iter : List O) (idExtractor : O → ExtendedPointId)
    (ring : HashRing) :
    ∃ L, splitIterByShard iter idExtractor ring = .byShard L ∧
      SplitsByShard (fun o => ring (idExtractor o)) id iter L := by
  refine ⟨_, rfl, ?_⟩
  have hsplit : SplitsByShard (fun o => ring (idExtractor o)) id (iter.map id) _ :=
    SplitsByShard.of_isGrouping
      (isGrouping_groupBy (fun o => ring (idExtractor o)) [] (fun l o => l ++ [o]) iter) id
      (fun _ => rfl) id fun ys _ => by
      rw [foldl_append_map (fun o => o), List.nil_append, List.map_id', List.map_id, id]
  rwa [List.map_id] at hsplit

/-! ## 4. A batch, record by record -/

/-- The point a record of a batch upserts. -/
def recordPoint (r : ExtendedPointId × NamedVectors × Option (Option Payload)) : PointStruct :=
  ⟨r.1, .multi r.2.1, r.2.2.join⟩

/-- The points of a batch are the points of the records `izip!` walks in it. -/
theorem points_pointsBatch (batch : Batch) :
    (PointInsertOperations.pointsBatch batch).points =
      (batchRecords batch.ids (batch.vectors.intoAllVectors batch.ids.length) batch.payloads).map
        recordPoint := by
  obtain ⟨ids, vectors, payloads⟩ := batch
  cases payloads with
  | none => simp [PointInsertOperations.points, batchRecords, recordPoint]
  | some payloads => simp [PointInsertOperations.points, batchRecords, recordPoint]

theorem batchRecords_map_vectors {V W : Type} (g : V → W) (ids : List ExtendedPointId)
    (vectors : List V) (payloads : Option (List (Option Payload))) :
    batchRecords ids (vectors.map g) payloads =
      (batchRecords ids vectors payloads).map fun r => (r.1, g r.2.1, r.2.2) := by
  cases payloads with
  | none => simp [batchRecords, List.zip_map_right, Function.comp_def]
  | some payloads => simp [batchRecords, List.zip_map_right, List.zip_map_left, Function.comp_def]

/-- Each record holds a payload exactly when the batch has payloads. -/
theorem isSome_payload_of_mem_batchRecords {V : Type} {ids : List ExtendedPointId}
    {vectors : List V} {payloads : Option (List (Option Payload))}
    {r : ExtendedPointId × V × Option (Option Payload)} (hr : r ∈ batchRecords ids vectors payloads) :
    r.2.2.isSome = payloads.isSome := by
  cases payloads with
  | none =>
    obtain ⟨_, _, rfl⟩ := List.mem_map.mp hr
    rfl
  | some payloads =>
    obtain ⟨_, _, rfl⟩ := List.mem_map.mp hr
    rfl

theorem vectors_mem_of_mem_batchRecords {V : Type} {ids : List ExtendedPointId}
    {vectors : List V} {payloads : Option (List (Option Payload))}
    {r : ExtendedPointId × V × Option (Option Payload)} (hr : r ∈ batchRecords ids vectors payloads) :
    r.2.1 ∈ vectors := by
  cases payloads with
  | none =>
    obtain ⟨q, hq, rfl⟩ := List.mem_map.mp hr
    exact (List.of_mem_zip hq).2
  | some payloads =>
    obtain ⟨q, hq, rfl⟩ := List.mem_map.mp hr
    exact (List.of_mem_zip (List.of_mem_zip hq).1).2

/-- Records whose payloads are there exactly when the batch has payloads are the records of
the batch of their own columns. -/
theorem batchRecords_columns {V : Type} (payloads : Option (List (Option Payload))) :
    ∀ ys : List (ExtendedPointId × V × Option (Option Payload)),
      (∀ r ∈ ys, r.2.2.isSome = payloads.isSome) →
      batchRecords (ys.map (·.1)) (ys.map (·.2.1))
        (payloads.map fun _ => ys.flatMap fun r => r.2.2.toList) = ys
  | [], _ => by cases payloads <;> rfl
  | ⟨id, v, p⟩ :: ys, hys => by
    have ih := batchRecords_columns payloads ys fun r hr => hys r (List.mem_cons_of_mem _ hr)
    have hp : p.isSome = payloads.isSome := hys _ List.mem_cons_self
    cases payloads with
    | none =>
      rw [Option.isSome_none, Option.isSome_eq_false_iff, Option.isNone_iff_eq_none] at hp
      subst hp
      simpa [batchRecords] using ih
    | some payloads =>
      obtain ⟨q, rfl⟩ := Option.isSome_iff_exists.mp hp
      simpa [batchRecords] using ih

theorem length_flatMap_payloads {V : Type} :
    ∀ ys : List (ExtendedPointId × V × Option (Option Payload)), (∀ r ∈ ys, r.2.2.isSome) →
      (ys.flatMap fun r => r.2.2.toList).length = ys.length
  | [], _ => rfl
  | r :: ys, hys => by
    obtain ⟨q, hq⟩ := Option.isSome_iff_exists.mp (hys r List.mem_cons_self)
    rw [List.flatMap_cons, List.length_append, hq, Option.toList_some, List.length_singleton,
      length_flatMap_payloads ys fun r' hr' => hys r' (List.mem_cons_of_mem r hr'), List.length_cons,
      Nat.add_comm]

/-- A shard's batch after its records: their ids, their vectors as `pushVectors` gathers them,
and their payloads when the request has payloads. -/
theorem foldl_push {V C : Type} (pushVectors : C → V → C)
    (ys : List (ExtendedPointId × V × Option (Option Payload))) (b : BatchBuilder C) :
    ys.foldl (BatchBuilder.push pushVectors) b =
      ⟨b.ids ++ ys.map (·.1), ys.foldl (fun c r => pushVectors c r.2.1) b.vectors,
        b.payloads.map (· ++ ys.flatMap fun r => r.2.2.toList)⟩ := by
  induction ys generalizing b with
  | nil =>
    obtain ⟨ids, vectors, payloads⟩ := b
    simp
  | cons r ys ih =>
    rw [List.foldl_cons, ih]
    simp [BatchBuilder.push, Option.map_map, Function.comp_def]

/-- The split of records: what `splitBatchRecords` does for either kind of vectors, when the
shards' vectors, gathered and read back, are their records' own (`hvectors`). -/
theorem splitBatchRecords_spec {V C : Type} (ring : HashRing) (vectorsInit : C)
    (pushVectors : C → V → C) (toStruct : C → BatchVectorStruct) (toNamed : V → NamedVectors)
    (payloads : Option (List (Option Payload)))
    (records : List (ExtendedPointId × V × Option (Option Payload)))
    (hpayloads : ∀ r ∈ records, r.2.2.isSome = payloads.isSome)
    (hvectors : ∀ ys : List (ExtendedPointId × V × Option (Option Payload)), ys.Sublist records →
      (toStruct (ys.foldl (fun c r => pushVectors c r.2.1) vectorsInit)).intoAllVectors ys.length =
          ys.map (fun r => toNamed r.2.1) ∧
        (toStruct (ys.foldl (fun c r => pushVectors c r.2.1) vectorsInit)).HasLength ys.length) :
    SplitsByShard (fun p => ring p.id) (fun b => (PointInsertOperations.pointsBatch b).points)
        (records.map fun r => recordPoint (r.1, toNamed r.2.1, r.2.2))
        (splitBatchRecords ring vectorsInit pushVectors toStruct (payloads.map fun _ => []) records) ∧
      ∀ e ∈ splitBatchRecords ring vectorsInit pushVectors toStruct (payloads.map fun _ => []) records,
        e.2.Consistent := by
  have hgroup := isGrouping_groupBy (fun r => ring r.1) ⟨[], vectorsInit, payloads.map fun _ => []⟩
    (BatchBuilder.push pushVectors) records
  -- the batch a shard gets from the records `ys` that the ring sends to it
  have hshard : ∀ ys : List (ExtendedPointId × V × Option (Option Payload)), ys.Sublist records →
      ys.foldl (BatchBuilder.push pushVectors) ⟨[], vectorsInit, payloads.map fun _ => []⟩ =
        ⟨ys.map (·.1), ys.foldl (fun c r => pushVectors c r.2.1) vectorsInit,
          payloads.map fun _ => ys.flatMap fun r => r.2.2.toList⟩ := by
    intro ys _
    rw [foldl_push]
    simp [Option.map_map, Function.comp_def]
  have hsplit : SplitsByShard (fun p => ring p.id)
      (fun b => (PointInsertOperations.pointsBatch ⟨b.ids, toStruct b.vectors, b.payloads⟩).points)
      (records.map fun r => recordPoint (r.1, toNamed r.2.1, r.2.2))
      (groupBy (fun r => ring r.1) ⟨[], vectorsInit, payloads.map fun _ => []⟩
        (BatchBuilder.push pushVectors) records) := by
    refine SplitsByShard.of_isGrouping hgroup (fun r => recordPoint (r.1, toNamed r.2.1, r.2.2))
      (fun _ => rfl) _ ?_
    intro ys hys
    have hpays : ∀ r ∈ ys, r.2.2.isSome = payloads.isSome := fun r hr => hpayloads r (hys.subset hr)
    rw [hshard ys hys, points_pointsBatch]
    dsimp only
    rw [List.length_map, (hvectors ys hys).1]
    have hcolumns := batchRecords_columns payloads (ys.map fun r => (r.1, toNamed r.2.1, r.2.2))
      fun r hr => by
        obtain ⟨r', hr', rfl⟩ := List.mem_map.mp hr
        exact hpays r' hr'
    simp only [List.map_map, Function.comp_def, List.flatMap_map] at hcolumns
    rw [hcolumns, List.map_map]
    rfl
  refine ⟨SplitsByShard.map_snd (fun b : BatchBuilder C => (⟨b.ids, toStruct b.vectors, b.payloads⟩ : Batch))
    (fun b => (PointInsertOperations.pointsBatch b).points) hsplit, ?_⟩
  · intro e he
    obtain ⟨e', he', rfl⟩ := List.mem_map.mp he
    have hys : (records.filter fun r => ring r.1 = e'.1).Sublist records := List.filter_sublist
    rw [hgroup.groups e' he', groupOf, hshard _ hys]
    refine ⟨by simpa using (hvectors _ hys).2, fun ps hps => ?_⟩
    obtain ⟨_, hsome, rfl⟩ := Option.map_eq_some_iff.mp hps
    rw [List.length_map]
    exact length_flatMap_payloads _ fun r hr => by
      rw [hpayloads r (hys.subset hr), hsome]
      rfl

/-! ## 5. Named vectors, transposed and gathered back -/

/-- The loop body of `transpose_map_into_named_vector`. -/
def transposeStep (result : List NamedVectors) (e : String × List (List ℚ)) : List NamedVectors :=
  let resized := result.take e.2.length ++ List.replicate (e.2.length - result.length) []
  List.zipWith (fun named value => OrdMap.insert e.1 value named) resized e.2

theorem transposeMapIntoNamedVector_eq_foldl (map : List (String × List (List ℚ))) :
    transposeMapIntoNamedVector map = map.foldl transposeStep [] := rfl

/-- Record `j` of a transposed batch: each name's `j`-th vector, as a sorted map. -/
def transposedRow (map : List (String × List (List ℚ))) (j : ℕ) : NamedVectors :=
  map.foldl (fun m e => OrdMap.insert e.1 (e.2.getD j []) m) []

/-- A name whose list has one vector per record adds its vector to each record. -/
theorem transposeStep_rows {n : ℕ} (R : ℕ → NamedVectors) {e : String × List (List ℚ)}
    (he : e.2.length = n) :
    transposeStep ((List.range n).map R) e =
      (List.range n).map fun j => OrdMap.insert e.1 (e.2.getD j []) (R j) := by
  have hlen : ((List.range n).map R).length = n := by simp
  simp only [transposeStep]
  rw [hlen, he, Nat.sub_self, List.replicate_zero, List.append_nil,
    List.take_of_length_le hlen.le]
  apply List.ext_getElem
  · simp [he]
  · intro j h₁ h₂
    have hj : j < e.2.length := by
      rw [List.length_map, List.length_range] at h₂
      omega
    simp [List.getD_eq_getElem?_getD, List.getElem?_eq_getElem hj]

/-- The first name meets no records yet and starts one per vector, as if it met empty ones. -/
theorem transposeStep_nil {n : ℕ} {e : String × List (List ℚ)} (he : e.2.length = n) :
    transposeStep [] e = transposeStep ((List.range n).map fun _ => []) e := by
  have hempty : (List.range n).map (fun _ => ([] : NamedVectors)) = List.replicate n [] := by
    rw [List.map_const', List.length_range]
  simp only [transposeStep]
  rw [hempty, List.length_replicate, he, List.take_replicate, Nat.min_self, Nat.sub_self,
    List.replicate_zero, List.append_nil, List.take_nil, List.nil_append, List.length_nil,
    Nat.sub_zero]

theorem foldl_transposeStep_rows {n : ℕ} :
    ∀ (map : List (String × List (List ℚ))) (R : ℕ → NamedVectors), (∀ e ∈ map, e.2.length = n) →
      map.foldl transposeStep ((List.range n).map R) =
        (List.range n).map fun j => map.foldl (fun m e => OrdMap.insert e.1 (e.2.getD j []) m) (R j)
  | [], _, _ => rfl
  | e :: rest, R, hmap => by
    rw [List.foldl_cons, transposeStep_rows R (hmap e List.mem_cons_self),
      foldl_transposeStep_rows rest _ fun e' he' => hmap e' (List.mem_cons_of_mem e he')]
    rfl

/-- With every name's list as long as there are records, `into_all_vectors` gives record `j`
each name's `j`-th vector. -/
theorem intoAllVectors_multi {n : ℕ} {namedVectors : List (String × List (List ℚ))}
    (h : ∀ e ∈ namedVectors, e.2.length = n) :
    (BatchVectorStruct.multi namedVectors).intoAllVectors n =
      (List.range n).map (transposedRow namedVectors) := by
  cases namedVectors with
  | nil =>
    have hrow : transposedRow [] = fun _ => [] := rfl
    rw [BatchVectorStruct.intoAllVectors, if_pos List.isEmpty_nil, hrow, List.map_const',
      List.length_range]
  | cons e rest =>
    rw [BatchVectorStruct.intoAllVectors, if_neg (by simp), transposeMapIntoNamedVector_eq_foldl,
      List.foldl_cons, transposeStep_nil (h e List.mem_cons_self), ← List.foldl_cons,
      foldl_transposeStep_rows _ _ h]
    rfl

theorem sorted_transposedRow (map : List (String × List (List ℚ))) (j : ℕ) :
    OrdMap.Sorted (transposedRow map j) :=
  OrdMap.sorted_foldl_insert (fun c : List (List ℚ) => c.getD j []) map OrdMap.sorted_nil

theorem mem_keys_transposedRow (map : List (String × List (List ℚ))) (j : ℕ) (k : String) :
    k ∈ (transposedRow map j).map Prod.fst ↔ k ∈ map.map Prod.fst := by
  have hkeys := OrdMap.mem_keys_foldl_insert (fun c : List (List ℚ) => c.getD j []) map [] k
  rw [List.map_nil, List.mem_nil_iff, or_false] at hkeys
  exact hkeys

/-- `pushNamedVectors` over records is the grouping of all their entries by name. -/
theorem foldl_pushNamedVectors_eq_groupBy (rows : List NamedVectors) :
    rows.foldl pushNamedVectors [] =
      groupBy Prod.fst [] (fun vs e => vs ++ [e.2]) rows.flatten := by
  rw [groupBy, List.foldl_flatten]
  rfl

/-- What the records hold under one name, in record order. -/
theorem map_snd_filter_flatten {rows : List NamedVectors} (hsorted : ∀ r ∈ rows, OrdMap.Sorted r)
    (k : String) :
    ((rows.flatten.filter fun e => e.1 = k).map Prod.snd) = rows.filterMap (OrdMap.get? k) := by
  induction rows with
  | nil => rfl
  | cons r rows ih =>
    rw [List.flatten_cons, List.filter_append, List.map_append,
      OrdMap.map_snd_filter_key (hsorted r List.mem_cons_self),
      ih fun r' hr' => hsorted r' (List.mem_cons_of_mem r hr'), List.filterMap_cons]
    cases OrdMap.get? k r <;> rfl

theorem filterMap_get?_of_forall_mem {rows : List NamedVectors} {k : String}
    (hk : ∀ r ∈ rows, k ∈ r.map Prod.fst) :
    rows.filterMap (OrdMap.get? k) = rows.map fun r => (OrdMap.get? k r).getD [] := by
  induction rows with
  | nil => rfl
  | cons r rows ih =>
    obtain ⟨v, hv⟩ := Option.isSome_iff_exists.mp
      (OrdMap.mem_keys_iff_isSome.mp (hk r List.mem_cons_self))
    simp only [List.filterMap_cons, List.map_cons, hv, Option.getD_some,
      ih fun r' hr' => hk r' (List.mem_cons_of_mem r hr')]

/-- Records that are sorted maps of the same names, gathered per name by `pushNamedVectors` and
transposed back by `into_all_vectors`, are the same records; every name's list has one vector
per record. -/
theorem intoAllVectors_foldl_pushNamedVectors {rows : List NamedVectors}
    (hsorted : ∀ r ∈ rows, OrdMap.Sorted r)
    (hnames : ∀ r ∈ rows, ∀ r' ∈ rows, ∀ k, k ∈ r.map Prod.fst → k ∈ r'.map Prod.fst) :
    (∀ e ∈ rows.foldl pushNamedVectors [], e.2.length = rows.length) ∧
      (BatchVectorStruct.multi (rows.foldl pushNamedVectors [])).intoAllVectors rows.length = rows := by
  have hgroup := isGrouping_groupBy Prod.fst [] (fun vs (e : String × List ℚ) => vs ++ [e.2])
    rows.flatten
  rw [← foldl_pushNamedVectors_eq_groupBy] at hgroup
  -- a name that some record has, every record has
  have hall : ∀ k ∈ (rows.foldl pushNamedVectors []).map Prod.fst, ∀ r ∈ rows, k ∈ r.map Prod.fst := by
    intro k hk r hr
    obtain ⟨x, hx, rfl⟩ := (hgroup.keys k).mp hk
    obtain ⟨r', hr', hxr'⟩ := List.mem_flatten.mp hx
    exact hnames r' hr' r hr x.1 (List.mem_map_of_mem hxr')
  -- the list of a name is that name's vector of each record
  have hcolumn : ∀ e ∈ rows.foldl pushNamedVectors [],
      e.2 = rows.map fun r => (OrdMap.get? e.1 r).getD [] := by
    intro e he
    rw [hgroup.groups e he, groupOf, foldl_append_map, List.nil_append, map_snd_filter_flatten hsorted,
      filterMap_get?_of_forall_mem (hall e.1 (List.mem_map_of_mem he))]
  have hlength : ∀ e ∈ rows.foldl pushNamedVectors [], e.2.length = rows.length := by
    intro e he
    rw [hcolumn e he, List.length_map]
  refine ⟨hlength, ?_⟩
  rw [intoAllVectors_multi hlength]
  apply List.ext_getElem (by simp)
  intro j h₁ h₂
  rw [List.getElem_map, List.getElem_range]
  refine OrdMap.eq_of_get?_eq (sorted_transposedRow _ j) (hsorted _ (List.getElem_mem h₂)) fun k => ?_
  have hrow := OrdMap.get?_foldl_insert (fun c : List (List ℚ) => c.getD j []) hgroup.nodup [] k
  rw [show OrdMap.get? k (transposedRow _ j) = _ from hrow]
  cases hget : OrdMap.get? k (rows.foldl pushNamedVectors []) with
  | none =>
    -- no record has the name
    have hk : k ∉ rows[j].map Prod.fst := by
      intro hk
      obtain ⟨x, hx, hxk⟩ := List.mem_map.mp hk
      have hmem : k ∈ (rows.foldl pushNamedVectors []).map Prod.fst :=
        (hgroup.keys k).mpr ⟨x, List.mem_flatten.mpr ⟨rows[j], List.getElem_mem h₂, hx⟩, hxk⟩
      rw [OrdMap.mem_keys_iff_isSome, hget] at hmem
      cases hmem
    rw [OrdMap.get?_eq_none_of_not_mem hk]
    rfl
  | some c =>
    have hmem := OrdMap.mem_of_get? hget
    have hk : k ∈ rows[j].map Prod.fst :=
      hall k (List.mem_map_of_mem hmem) _ (List.getElem_mem h₂)
    obtain ⟨v, hv⟩ := Option.isSome_iff_exists.mp (OrdMap.mem_keys_iff_isSome.mp hk)
    have hc : c = rows.map fun r => (OrdMap.get? k r).getD [] := hcolumn _ hmem
    rw [hc, Option.map_some, Option.some_or, List.getD_eq_getElem?_getD,
      List.getElem?_map, List.getElem?_eq_getElem h₂, Option.map_some, Option.getD_some, hv]
    rfl

/-! ## 6. The split of every operation -/

/-- What a record of a valid batch holds as vectors: with named vectors, a sorted map of every
name of the batch. -/
theorem vectors_of_mem_records {ids : List ExtendedPointId}
    {namedVectors : List (String × List (List ℚ))} {payloads : Option (List (Option Payload))}
    (hvec : ∀ e ∈ namedVectors, e.2.length = ids.length)
    {r : ExtendedPointId × NamedVectors × Option (Option Payload)}
    (hr : r ∈ batchRecords ids ((BatchVectorStruct.multi namedVectors).intoAllVectors ids.length)
      payloads) :
    OrdMap.Sorted r.2.1 ∧ ∀ k, k ∈ r.2.1.map Prod.fst ↔ k ∈ namedVectors.map Prod.fst := by
  have hrow := vectors_mem_of_mem_batchRecords hr
  rw [intoAllVectors_multi hvec] at hrow
  obtain ⟨j, _, hj⟩ := List.mem_map.mp hrow
  rw [← hj]
  exact ⟨sorted_transposedRow _ j, mem_keys_transposedRow _ j⟩

/-- **Batch split.** A valid batch is cut into one valid batch per shard that gets a point, and
the points of each are the request's points of that shard, in order. -/
theorem Batch.splitByShard_spec (ring : HashRing) {batch : Batch} (hvalid : batch.Consistent) :
    ∃ L, batch.splitByShard ring = .byShard L ∧
      SplitsByShard (fun p => ring p.id) (fun b => (PointInsertOperations.pointsBatch b).points)
        (PointInsertOperations.pointsBatch batch).points L ∧
      ∀ e ∈ L, e.2.Consistent := by
  obtain ⟨ids, vectors, payloads⟩ := batch
  obtain ⟨hvec, -⟩ := hvalid
  cases vectors with
  | single vectors =>
    -- one vector per record, gathered by appending
    have hrecords := splitBatchRecords_spec ring [] (fun vs v => vs ++ [v]) BatchVectorStruct.single
      (fun v => [(defaultVectorName, v)]) payloads (batchRecords ids vectors payloads)
      (fun r hr => isSome_payload_of_mem_batchRecords hr) fun ys _ => by
        rw [foldl_append_map (fun r : ExtendedPointId × List ℚ × Option (Option Payload) => r.2.1),
          List.nil_append]
        exact ⟨by simp [BatchVectorStruct.intoAllVectors], List.length_map _⟩
    have hpoints : (PointInsertOperations.pointsBatch ⟨ids, .single vectors, payloads⟩).points =
        (batchRecords ids vectors payloads).map
          fun r => recordPoint (r.1, [(defaultVectorName, r.2.1)], r.2.2) := by
      rw [points_pointsBatch, BatchVectorStruct.intoAllVectors, batchRecords_map_vectors, List.map_map]
      rfl
    refine ⟨_, rfl, ?_, hrecords.2⟩
    rw [hpoints]
    exact hrecords.1
  | multi namedVectors =>
    -- the records' named vectors are maps of the batch's names, gathered back per name
    have hlist : (if !namedVectors.isEmpty then transposeMapIntoNamedVector namedVectors
        else List.replicate ids.length []) =
          (BatchVectorStruct.multi namedVectors).intoAllVectors ids.length := by
      cases namedVectors <;> rfl
    have hrecords := splitBatchRecords_spec ring [] pushNamedVectors BatchVectorStruct.multi id
      payloads _ (fun r hr => isSome_payload_of_mem_batchRecords hr) fun ys hys => by
        have hrows : ∀ r ∈ ys.map (·.2.1), OrdMap.Sorted r ∧
            ∀ k, k ∈ r.map Prod.fst ↔ k ∈ namedVectors.map Prod.fst := by
          intro r hr
          obtain ⟨y, hy, rfl⟩ := List.mem_map.mp hr
          exact vectors_of_mem_records hvec (hys.subset hy)
        have hgather := intoAllVectors_foldl_pushNamedVectors (fun r hr => (hrows r hr).1)
          fun r hr r' hr' k hk => ((hrows r' hr').2 k).mpr (((hrows r hr).2 k).mp hk)
        rw [List.foldl_map, List.length_map] at hgather
        exact ⟨hgather.2, hgather.1⟩
    refine ⟨_, ?_, ?_, hrecords.2⟩
    · show OperationToShard.byShard (splitBatchRecords ring [] pushNamedVectors .multi _
        (batchRecords ids (if !namedVectors.isEmpty then transposeMapIntoNamedVector namedVectors
          else List.replicate ids.length []) payloads)) = _
      rw [hlist]
    · exact (points_pointsBatch _).symm ▸ hrecords.1

/-- An insert that passes `validate` is cut into valid inserts, one per shard that gets a
point, holding the request's points of that shard in order. -/
theorem PointInsertOperations.splitByShard_spec (ring : HashRing) {operation : PointInsertOperations}
    (hvalid : operation.validate = .ok ()) :
    ∃ L, operation.splitByShard ring = .byShard L ∧
      SplitsByShard (fun p => ring p.id) PointInsertOperations.points operation.points L ∧
      ∀ e ∈ L, e.2.validate = .ok () := by
  cases operation with
  | pointsBatch batch =>
    obtain ⟨L, hsplit, hL, hvalidL⟩ :=
      Batch.splitByShard_spec ring ((validate_pointsBatch_eq_ok batch).mp hvalid)
    refine ⟨L.map fun e => (e.1, .pointsBatch e.2), ?_,
      SplitsByShard.map_snd .pointsBatch PointInsertOperations.points hL, fun e he => ?_⟩
    · rw [PointInsertOperations.splitByShard, hsplit]
      rfl
    · obtain ⟨e', he', rfl⟩ := List.mem_map.mp he
      exact (validate_pointsBatch_eq_ok e'.2).mpr (hvalidL e' he')
  | pointsList points =>
    obtain ⟨L, hsplit, hL⟩ := splitIterByShard_spec points (·.id) ring
    refine ⟨L.map fun e => (e.1, .pointsList e.2), ?_,
      SplitsByShard.map_snd .pointsList PointInsertOperations.points hL, fun e he => ?_⟩
    · rw [PointInsertOperations.splitByShard, hsplit]
      rfl
    · obtain ⟨e', -, rfl⟩ := List.mem_map.mp he
      rfl

/-- **Partition by shard.** An upsert that passes `validate`, of a batch or of a list of points,
is cut into valid upserts, one per shard that gets a point; each holds exactly the request's
points that the ring sends to its shard, in their order, and together they hold every point
once.  The ids of a delete are cut the same way; a delete by filter and a field index operation
go to all shards. -/
theorem CollectionUpdateOperations.splitByShard_partitions (ring : HashRing) :
    (∀ operation : PointInsertOperations, operation.validate = .ok () →
      ∃ L : List (ShardId × PointInsertOperations),
        (CollectionUpdateOperations.pointOperation (.upsertPoints operation)).splitByShard ring =
            .byShard (L.map fun e => (e.1, .pointOperation (.upsertPoints e.2))) ∧
          SplitsByShard (fun p => ring p.id) PointInsertOperations.points operation.points L ∧
          (L.flatMap fun e => e.2.points).Perm operation.points ∧
          ∀ e ∈ L, e.2.validate = .ok ()) ∧
    (∀ ids : List ExtendedPointId, ∃ L : List (ShardId × List ExtendedPointId),
      (CollectionUpdateOperations.pointOperation (.deletePoints ids)).splitByShard ring =
          .byShard (L.map fun e => (e.1, .pointOperation (.deletePoints e.2))) ∧
        SplitsByShard ring id ids L ∧ (L.flatMap fun e => e.2).Perm ids) ∧
    (∀ filter : Filter,
      (CollectionUpdateOperations.pointOperation (.deletePointsByFilter filter)).splitByShard ring =
        .toAll (.pointOperation (.deletePointsByFilter filter))) ∧
    (∀ operation : FieldIndexOperations,
      (CollectionUpdateOperations.fieldIndexOperation operation).splitByShard ring =
        .toAll (.fieldIndexOperation operation)) := by
  refine ⟨fun operation hvalid => ?_, fun ids => ?_, fun _ => rfl, fun _ => rfl⟩
  · obtain ⟨L, hsplit, hL, hvalidL⟩ := PointInsertOperations.splitByShard_spec ring hvalid
    refine ⟨L, ?_, hL, hL.perm, hvalidL⟩
    rw [CollectionUpdateOperations.splitByShard, PointOperations.splitByShard, hsplit]
    simp [OperationToShard.map]
  · obtain ⟨L, hsplit, hL⟩ := splitIterByShard_spec ids id ring
    refine ⟨L, ?_, hL, hL.perm⟩
    rw [CollectionUpdateOperations.splitByShard, PointOperations.splitByShard, hsplit]
    simp [OperationToShard.map]

theorem splitByShard_partitions_two_shards :
    (PointInsertOperations.pointsBatch ⟨[.numId 1, .numId 2], .single [[1], [2]], none⟩).validate =
        .ok () ∧
      ∃ L : List (ShardId × PointInsertOperations),
        (CollectionUpdateOperations.pointOperation (.upsertPoints
            (.pointsBatch ⟨[.numId 1, .numId 2], .single [[1], [2]], none⟩))).splitByShard
              (fun p => if p = .numId 1 then 0 else 1) =
            .byShard (L.map fun e => (e.1, .pointOperation (.upsertPoints e.2))) ∧
          SplitsByShard (fun p => if p.id = .numId 1 then 0 else 1) PointInsertOperations.points
            (PointInsertOperations.pointsBatch ⟨[.numId 1, .numId 2], .single [[1], [2]], none⟩).points
            L ∧
          (L.flatMap fun e => e.2.points).Perm
            (PointInsertOperations.pointsBatch ⟨[.numId 1, .numId 2], .single [[1], [2]], none⟩).points ∧
          ∀ e ∈ L, e.2.validate = .ok () :=
  ⟨rfl, (CollectionUpdateOperations.splitByShard_partitions _).1 _ rfl⟩

end Qdrant
