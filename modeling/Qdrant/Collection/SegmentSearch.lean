/-
# Searching one segment

`Segment::search_batch` checks the vector name and the dimension of every query, asks the
vector index for each query's best offsets, and turns them into `ScoredPoint`s
(`process_search_result`): an offset the id tracker no longer maps is skipped, and every other
one gets its external id, its version, and the payload and vectors the request asks for.

`ProxySegment::search_batch` asks the wrapped segment with the shared deleted points excluded
by a `must_not` on their ids, asks the write segment, and APPENDS the write segment's answer to
each query to the wrapped one's: a proxy answers with two top lists one after the other.

The index is `PlainIndex`, whose answer is a top selection for every query
(`plainIndex_search_isTop`), so **an original segment's answer is its exact top**
(`searchBatch_isTop`).  The graph index is not modelled here, and a query's `SearchParams`
change nothing in a plain index.  `similarity` is the distance each named vector is configured
with.
-/
import Qdrant.Collection.Scroll
import Qdrant.Index.VectorSearch

namespace Qdrant

/-! ## 1. Scored points -/

/-- `ScoredPoint`; the queues order it by its score only. -/
structure ScoredPoint where
  id : ExtendedPointId
  version : ℕ
  score : ℚ
  payload : Option Payload
  vector : Option NamedVectors

/-- `SearchParams`; the quantization parameters are left out. -/
structure SearchParams where
  hnswEf : Option ℕ := none
  exact : Bool := false
deriving DecidableEq, Repr

/-! ## 2. An original segment -/

namespace Segment

variable (env : Env) (similarity : String → List ℚ → List ℚ → ℚ)

/-- `vector_by_offset`: nothing for a deleted offset. -/
def vectorByOffset (s : Segment) (vectorName : String) (pointOffset : PointOffsetType) :
    OperationResult (Option (List ℚ)) :=
  if (s.config.lookup vectorName).isNone then .error (.vectorNameNotExists vectorName)
  else if !s.idTracker.isDeleted pointOffset then
    .ok (some (((s.vectorData.lookup vectorName).getD []).getD pointOffset []))
  else .ok none

/-- `all_vectors_by_offset`: the stored vector of every name. -/
def allVectorsByOffset (s : Segment) (pointOffset : PointOffsetType) : NamedVectors :=
  s.vectorData.map fun e => (e.1, e.2.getD pointOffset [])

/-- `process_search_result`.  The text of the selector's error is the source's, which is not
a format string. -/
def processSearchResult (s : Segment) (withPayload : WithPayload) (withVector : WithVector)
    (internalResult : List ScoredPointOffset) : OperationResult (List ScoredPoint) :=
  (internalResult.filterMap fun scoredPointOffset =>
      (s.idTracker.externalId scoredPointOffset.idx).map (·, scoredPointOffset)).mapM
    fun (pointId, scoredPointOffset) => do
      let pointOffset := scoredPointOffset.idx
      let some pointVersion := s.idTracker.internalVersion pointOffset
        | throw (.serviceError ("Corrupter id_tracker, no version for point " ++ pointId.display))
      let payload := if withPayload.enable then
          let initialPayload := s.payloadIndex.payload.payload pointOffset
          some ((withPayload.payloadSelector.map (·.process initialPayload)).getD initialPayload)
        else none
      let vector ← match withVector with
        | .bool false => pure none
        | .bool true => pure (some (s.allVectorsByOffset pointOffset))
        | .selector vectors => some <$> vectors.foldlM (fun (result : NamedVectors) vectorName => do
            match ← s.vectorByOffset vectorName pointOffset with
            | none => throw (.serviceError
                "Vector \x7bvector_name\x7d not found at offset \x7bpoint_offset\x7d")
            | some vector => pure (result.filter (·.1 ≠ vectorName) ++ [(vectorName, vector)])) []
      pure ⟨pointId, pointVersion, scoredPointOffset.score, payload, vector⟩

/-- The plain index over one named vector of the segment. -/
def searchContext (s : Segment) (vectorName : String) (config : VectorDataConfig) :
    SearchContext :=
  ⟨s.payloadIndex, ⟨(s.vectorData.lookup vectorName).getD [], ⟨similarity vectorName, config.preprocess⟩⟩⟩

/-- `Segment::search_batch`.  A panic of the payload index is `panic`. -/
def searchBatch (s : Segment) (vectorName : String) (vectors : List (List ℚ))
    (withPayload : WithPayload) (withVector : WithVector) (filter : Option Filter) (top : ℕ) :
    OperationResult (List (List ScoredPoint)) := do
  let some config := s.config.lookup vectorName | throw (.vectorNameNotExists vectorName)
  let expectedVectorDim := config.size
  vectors.forM fun vector =>
    if vector.length ≠ expectedVectorDim then throw (.wrongVector expectedVectorDim vector.length)
    else pure ()
  let some internalResults :=
      (s.searchContext similarity vectorName config).plainIndexSearch env vectors filter top
    | throw .panic
  internalResults.mapM (s.processSearchResult withPayload withVector)

end Segment

/-! ## 3. A proxy, and either kind -/

namespace ProxySegment

variable (env : Env) (similarity : String → List ℚ → List ℚ → ℚ)

/-- `ProxySegment::search_batch`: the wrapped segment without the deleted points, then the write
segment, whose answer to each query is appended to the wrapped one's. -/
def searchBatch (p : ProxySegment) (h : SegmentHeap) (vectorName : String)
    (vectors : List (List ℚ)) (withPayload : WithPayload) (withVector : WithVector)
    (filter : Option Filter) (top : ℕ) : OperationResult (List (List ScoredPoint)) := do
  let deletedPoints := p.deleted h
  let doUpdateFilter := !deletedPoints.isEmpty
  let wrappedResults ← if doUpdateFilter then
      let wrappedFilter := addDeletedPointsConditionToFilter filter deletedPoints
      (p.wrapped h).searchBatch env similarity vectorName vectors withPayload withVector
        (some wrappedFilter) top
    else (p.wrapped h).searchBatch env similarity vectorName vectors withPayload withVector filter top
  let writeResults ←
    (p.write h).searchBatch env similarity vectorName vectors withPayload withVector filter top
  pure (List.zipWith (· ++ ·) wrappedResults writeResults)

end ProxySegment

/-- `search_batch` on either kind of segment. -/
def LockedSegment.searchBatch (env : Env) (similarity : String → List ℚ → List ℚ → ℚ)
    (h : SegmentHeap) (s : LockedSegment) (vectorName : String) (vectors : List (List ℚ))
    (withPayload : WithPayload) (withVector : WithVector) (filter : Option Filter) (top : ℕ) :
    OperationResult (List (List ScoredPoint)) :=
  s.read h (·.searchBatch env similarity vectorName vectors withPayload withVector filter top)
    (·.searchBatch env similarity h vectorName vectors withPayload withVector filter top)

/-! ## 4. An original segment answers with its exact top -/

namespace Segment

variable (env : Env) (similarity : String → List ℚ → List ℚ → ℚ)

/-- The dimension check passes when every query has the configured dimension. -/
theorem forM_checkDim_ok {vectors : List (List ℚ)} {size : ℕ}
    (hdim : ∀ v ∈ vectors, v.length = size) :
    (vectors.forM fun vector =>
      if vector.length ≠ size then (throw (.wrongVector size vector.length) : OperationResult Unit)
      else pure ()) = .ok () := by
  induction vectors with
  | nil => rfl
  | cons v vs ih =>
    have hv : v.length = size := hdim v List.mem_cons_self
    have hvs := ih fun w hw => hdim w (List.mem_cons_of_mem v hw)
    simp only [List.forM, hv, ne_eq, not_true_eq_false, if_false, hvs]
    rfl

/-- **An original segment answers every query with its exact top**: with a configured vector,
queries of its dimension and a filter the payload index can answer, the answer to each query
is the processing of a top selection, by score, of the points the filter admits. -/
theorem searchBatch_isTop {s : Segment} {vectorName : String} {config : VectorDataConfig}
    {vectors : List (List ℚ)} {f : Filter} {filteredIds : List PointOffsetType} (top : ℕ)
    (withPayload : WithPayload) (withVector : WithVector)
    (hconfig : s.config.lookup vectorName = some config)
    (hdim : ∀ v ∈ vectors, v.length = config.size)
    (hq : s.payloadIndex.queryPoints env f = some filteredIds) :
    ∃ internalResults : List (List ScoredPointOffset),
      internalResults.length = vectors.length ∧
      (∀ i (hi : i < vectors.length), ∃ hr : i < internalResults.length,
        TopK.IsTop ScoredPointOffset.score top
          (((s.searchContext similarity vectorName config).scorer vectors[i]).admittedScores
            filteredIds) internalResults[i]) ∧
      s.searchBatch env similarity vectorName vectors withPayload withVector (some f) top =
        internalResults.mapM (s.processSearchResult withPayload withVector) := by
  obtain ⟨internalResults, hsearch, hlen, htop⟩ :=
    @SearchContext.plainIndex_search_isTop env (s.searchContext similarity vectorName config)
      vectors f top filteredIds hq
  refine ⟨internalResults, hlen, htop, ?_⟩
  simp only [searchBatch, hconfig, forM_checkDim_ok hdim, hsearch]
  rfl

end Segment

end Qdrant
