/-
# Scrolling through a collection

`Collection::scroll_by`, `LocalShard::scroll_by` and `SegmentsSearcher::retrieve`.  A page is
read in two passes.  First every segment of every shard lists the ids it finds from the offset
that match the filter (`read_filtered`, at most `limit + 1` of them); the shard sorts the ids,
drops duplicates and keeps the first `limit + 1`.  Then `retrieve` reads each of those ids from
every segment that holds it and keeps the copy of highest version.  The collection merges the
shards' records by id, keeps the first `limit + 1`, and returns the extra one's id as the offset
of the next page.

The FIRST pass decides membership: a segment reads the filter against its own copy and through
its own payload index, and nothing checks it against the copy `retrieve` returns.  A keyword
index that keeps a value the payload no longer has (`Index.MapIndex`) makes a scroll list a
point whose payload does not match (`scroll_lists_point_outside_filter`).

A shard holds one local replica here: with the default read consistency the replica set's
`scroll_by` returns its local shard's result.
-/
import Qdrant.Collection.Recovery

namespace Qdrant

open StateExcept

/-! ## 1. Requests and records -/

/-- `PayloadSelector`. -/
inductive PayloadSelector where
  | include_ (include_ : List String)
  | exclude (exclude : List String)

/-- `PayloadSelector::check`. -/
def PayloadSelector.check : PayloadSelector → String → Bool
  | .include_ keys, key => keys.contains key
  | .exclude keys, key => !keys.contains key

/-- `PayloadSelector::process`: the entries whose keys the selector keeps. -/
def PayloadSelector.process (selector : PayloadSelector) (x : Payload) : Payload :=
  ⟨x.map.filter (selector.check ·.1), List.Nodup.sublist (List.filter_sublist.map Prod.fst) x.nodup⟩

/-- `WithPayloadInterface`. -/
inductive WithPayloadInterface where
  | bool (b : Bool)
  | fields (fields : List String)
  | selector (selector : PayloadSelector)

/-- `WithPayload`. -/
structure WithPayload where
  enable : Bool
  payloadSelector : Option PayloadSelector

/-- `From<&WithPayloadInterface> for WithPayload`. -/
def WithPayload.ofInterface : WithPayloadInterface → WithPayload
  | .bool x => ⟨x, none⟩
  | .fields x => ⟨true, some (.include_ x)⟩
  | .selector x => ⟨true, some x⟩

/-- `WithVector`. -/
inductive WithVector where
  | bool (b : Bool)
  | selector (vectorNames : List String)

/-- `Record`.  The vectors are kept by name: `VectorStruct::from` only changes how they are
represented. -/
structure Record where
  id : ExtendedPointId
  payload : Option Payload
  vector : Option NamedVectors

/-- `ScrollRequest`, its fields defaulting as in `ScrollRequest::default`. -/
structure ScrollRequest where
  offset : Option ExtendedPointId := none
  limit : Option ℕ := some 10
  filter : Option Filter := none
  withPayload : Option WithPayloadInterface := some (.bool true)
  withVector : WithVector := .bool false

/-- `ScrollResult`. -/
structure ScrollResult where
  points : List Record
  nextPageOffset : Option ExtendedPointId

/-- The hexadecimal text of a UUID, in the groups `Uuid`'s `Display` prints. -/
def uuidText (u : ℕ) : String :=
  let hex := Nat.toDigits 16 u
  let digits := List.replicate (32 - hex.length) '0' ++ hex
  String.ofList (digits.take 8 ++ '-' :: (digits.drop 8).take 4 ++ '-' ::
    (digits.drop 12).take 4 ++ '-' :: (digits.drop 16).take 4 ++ '-' :: digits.drop 20)

/-- `ExtendedPointId`'s `Display`. -/
def ExtendedPointId.display : ExtendedPointId → String
  | .numId idx => toString idx
  | .uuid u => uuidText u

/-! ## 2. Reading the records -/

namespace SegmentsSearcher

/-- The record `retrieve` builds from one segment's copy of a point: the payload first, then
the vectors. -/
def record (h : SegmentHeap) (withPayload : WithPayload) (withVector : WithVector)
    (id : ExtendedPointId) (segment : LockedSegment) : OperationResult Record := do
  let payload ← if withPayload.enable then
      match withPayload.payloadSelector with
      | some selector => (segment.payload h id).map fun p => some (selector.process p)
      | none => (segment.payload h id).map some
    else pure none
  let vector ← match withVector with
    | .bool true => (segment.allVectors h id).map some
    | .bool false => pure none
    | .selector vectorNames =>
      (vectorNames.foldlM (fun (selectedVectors : NamedVectors) vectorName =>
        (segment.vector h vectorName id).map fun v =>
          selectedVectors.filter (·.1 ≠ vectorName) ++ [(vectorName, v)]) []).map some
  pure ⟨id, payload, vector⟩

/-- The maps `retrieve` fills: the version and the record kept for each point. -/
abbrev RetrieveState := List (ExtendedPointId × ℕ) × List (ExtendedPointId × Record)

/-- The `read_points` callback of `retrieve`: a copy replaces the kept one only when its version
is higher. -/
def retrieveStep (h : SegmentHeap) (withPayload : WithPayload) (withVector : WithVector)
    (acc : RetrieveState) (id : ExtendedPointId) (segment : LockedSegment) :
    OperationResult RetrieveState := do
  let some version := segment.pointVersion h id
    | throw (.serviceError ("No version for point " ++ id.display))
  if (OrdMap.get? id acc.1).all (· < version) then
    let record ← record h withPayload withVector id segment
    pure (OrdMap.insert id version acc.1, OrdMap.insert id record acc.2)
  else pure acc

/-- `retrieve`: `read_points` visits each segment, and in it each requested id it holds. -/
def retrieve (holder : SegmentHolder) (h : SegmentHeap) (points : List ExtendedPointId)
    (withPayload : WithPayload) (withVector : WithVector) : CollectionResult (List Record) :=
  ((holder.segments.foldlM (fun acc e =>
      (points.filter (e.2.hasPoint h)).foldlM (fun acc id =>
        retrieveStep h withPayload withVector acc id e.2) acc) (([], []) : RetrieveState)).map
    fun acc => acc.2.map Prod.snd).mapError CollectionError.ofOperationError

end SegmentsSearcher

/-! ## 3. A shard's page and the collection's -/

namespace LocalShard

variable (env : Env)

/-- `LocalShard::scroll_by`: the ids every segment reads, sorted, without duplicates, the first
`limit`; then their records, by id.  A panic of a read is the error `panic`. -/
def scrollBy (shard : LocalShard) (offset : Option ExtendedPointId) (limit : ℕ)
    (withPayloadInterface : WithPayloadInterface) (withVector : WithVector)
    (filter : Option Filter) : CollectionResult (List Record) := do
  let segments := shard.store.holder
  let some reads := segments.segments.mapM fun e =>
      e.2.readFiltered env shard.store.heap offset (some limit) filter
    | throw .panic
  let pointIds := ((reads.flatten.insertionSort (· ≤ ·)).destutter (· ≠ ·)).take limit
  let withPayload := WithPayload.ofInterface withPayloadInterface
  let points ← SegmentsSearcher.retrieve segments shard.store.heap pointIds withPayload withVector
  pure (points.insertionSort fun a b => a.id ≤ b.id)

end LocalShard

namespace Collection

variable (env : Env)

/-- `Collection::scroll_by` over the shards `target_shard` selects: one point more than the
limit is read, and its id is the next page's offset. -/
def scrollBy (shards : List LocalShard) (request : ScrollRequest) :
    CollectionResult ScrollResult := do
  let defaultRequest : ScrollRequest := {}
  let offset := request.offset
  let limit := request.limit.getD (defaultRequest.limit.getD 0)
  let withPayloadInterface := request.withPayload.getD (defaultRequest.withPayload.getD (.bool true))
  let withVector := request.withVector
  if limit = 0 then throw (.badRequest "Limit cannot be 0")
  let limit := limit + 1
  let retrievedPoints ← shards.mapM fun shard =>
    shard.scrollBy env offset limit withPayloadInterface withVector request.filter
  let points := (retrievedPoints.flatten.insertionSort fun a b => a.id ≤ b.id).take limit
  if points.length < limit then pure ⟨points, none⟩
  else pure ⟨points.dropLast, points.getLast?.map (·.id)⟩

section Pages

variable {env} {shards : List LocalShard} {request : ScrollRequest} {result : ScrollResult}

/-- A page the collection returns: the shards' records sorted by id, the first `limit + 1` of
them, the last split off as the next offset when there are that many. -/
theorem scrollBy_eq_ok (h : scrollBy env shards request = .ok result) :
    ∃ records : List Record, 0 < request.limit.getD 10 ∧
      let points := (records.insertionSort fun a b => a.id ≤ b.id).take (request.limit.getD 10 + 1)
      result = if points.length < request.limit.getD 10 + 1 then ⟨points, none⟩
        else ⟨points.dropLast, points.getLast?.map (·.id)⟩ := by
  simp only [scrollBy, Option.getD_some] at h
  split at h
  · cases h
  · next hlimit =>
    simp only [bind, Except.bind] at h
    split at h
    · cases h
    · next records hmap =>
      refine ⟨records.flatten, Nat.pos_of_ne_zero hlimit, ?_⟩
      split at h <;> cases h <;> simp_all

/-- Records sorted by id have ascending ids. -/
theorem pairwise_ids_insertionSort (records : List Record) :
    ((records.insertionSort fun a b => a.id ≤ b.id).map (·.id)).Pairwise (· ≤ ·) := by
  rw [List.map_insertionSort (fun a b : Record => a.id ≤ b.id) (· ≤ ·) Record.id records
    (fun _ _ _ _ => Iff.rfl)]
  exact List.pairwise_insertionSort _ _

/-- A page has at most `limit` points. -/
theorem length_points_le (h : scrollBy env shards request = .ok result) :
    result.points.length ≤ request.limit.getD 10 := by
  obtain ⟨records, -, rfl⟩ := scrollBy_eq_ok h
  split
  · next hlt => exact Nat.le_of_lt_succ hlt
  · simp only [List.length_dropLast, List.length_take]
    omega

/-- A page lists its points in ascending order of id, all of them at most the next page's
offset, which the next call reads from. -/
theorem points_sorted_le_next (h : scrollBy env shards request = .ok result) :
    (result.points.map (·.id)).Pairwise (· ≤ ·) ∧
      ∀ next, result.nextPageOffset = some next → ∀ p ∈ result.points, p.id ≤ next := by
  obtain ⟨records, -, rfl⟩ := scrollBy_eq_ok h
  -- the first `limit + 1` records, in ascending order of id
  have hsorted := (pairwise_ids_insertionSort records).sublist
    ((List.take_sublist (request.limit.getD 10 + 1) _).map Record.id)
  split
  · exact ⟨hsorted, fun _ hnext => nomatch hnext⟩
  · refine ⟨hsorted.sublist ((List.dropLast_sublist _).map Record.id), ?_⟩
    intro next hnext p hp
    dsimp only at hnext hp
    -- the last of the first `limit + 1` records is the next offset; the page is the rest
    obtain ⟨last, hlast, rfl⟩ := Option.map_eq_some_iff.mp hnext
    rw [← List.dropLast_append_getLast? last hlast, List.map_append, List.pairwise_append] at hsorted
    exact hsorted.2.2 p.id (List.mem_map_of_mem hp) last.id (by simp)

end Pages

end Collection

/-! ## 4. A filter read through a stale index -/

/-- **A scroll lists a point whose payload does not match its filter.**  One appendable segment
with a keyword index on `f`; point 0 is upserted with `f = "a"`, then its payload set to
`f = 5`, which the keyword index cannot hold, so the index keeps `"a"`.  A scroll with the
filter `f = "a"` reads the segment through its index and lists point 0 as the only point, while
the point's only copy has `f = 5`, which the filter rejects. -/
theorem scroll_lists_point_outside_filter :
    let env : Env := ⟨fun _ _ => 0, id, id, id, fun _ => true, fun _ => false, id, fun _ => 0,
      fun _ => "", fun _ _ => [], fun _ _ => []⟩
    let segment : Segment :=
      ⟨none, ⟨⟨[]⟩, IdTracker.empty, [], []⟩, [("", [])], [("", ⟨1, fun _ => none⟩)], true⟩
    let empty : LocalShard := ⟨⟨⟨[(0, .original 0)], by decide, []⟩,
      ⟨fun _ => segment, fun _ => [], fun _ => [], fun _ => []⟩⟩,
      fun _ => FlushState.ofSegment segment, [], 1⟩
    let isA : Filter := { must := some [.field { key := "f", «match» := some (.value (.keyword "a")) }] }
    let shard := LocalShard.run env empty
      [.update 0 (.fieldIndexOperation (.createIndex ⟨"f", some .keyword⟩)),
       .update 0 (.pointOperation (.upsertPoints (.pointsList
          [⟨.numId 0, .single [1], some ⟨[("f", .string "a")], by decide⟩⟩]))),
       .update 0 (.payloadOperation (.setPayload
          ⟨⟨[("f", .number (.posInt 5))], by decide⟩, some [.numId 0], none⟩))]
    ((Collection.scrollBy env [shard] { filter := some isA }).toOption.map fun result =>
        (result.points.map (·.id), result.nextPageOffset)) = some ([.numId 0], none) ∧
      ((shard.store.holder.content shard.store.heap (.numId 0)).map fun c =>
        checkPayload env c.payload (some (.numId 0)) isA) = some false := by
  intro env segment empty isA shard
  constructor
  · decide +kernel
  · decide +kernel

end Qdrant
