/-
# Searching the segments of a shard

`SegmentsSearcher::search` runs a batch of queries over every segment of a holder and merges
the answers.  Each segment answers every query with its best `limit + offset` points or, with
probabilistic SAMPLING, fewer: `sampling_limit` takes the depth from a Poisson table by the
segment's share of the points.  `process_search_result_step1` merges the answers per query in
a `BatchResultAggregator`: a point is pushed only when its version is the highest any answer
reported for its id, and only once, into a queue that keeps the best `limit + offset`.  A
segment is searched again without sampling for a query when it may hold more (its answer filled
the depth, with fewer points than the limit) and its lowest score is not below the merged
lowest one; the second answers are merged the same way.

**The merged answers are well formed** (`search_results_fit`): one per query, by descending
score, at most `limit + offset` long, each id at most once.  **The re-run rule catches every
segment whose last point the merge kept** (`step1_reruns_of_last_kept`).

What the merge does NOT compare is a version with the copies the answers did not report.  A
segment that answers with an old copy of a point, while the segment of the newer copy answers
with other points, puts the old copy into the result (`search_returns_outdated_copy`).  And
the re-run rule passes over a segment whose answer was empty: a proxy whose `points_count` a
sibling's deletion brought to zero is sampled to depth zero, answers nothing and is not
searched again, so sampling loses its points (`sampling_drops_undercounted_proxy`).

`HashMap` orders are arbitrary in the source: the model visits the segments in the holder's
order and re-runs them by ascending position.  The `f32` bounds the merge starts from are kept
as rationals, and the table's `f64` lambdas as the rationals of their decimals.
-/
import Qdrant.Collection.SegmentSearch

namespace Qdrant

/-! ## 1. `sampling_limit` -/

/-- `f32::MAX`. -/
def f32Max : ℚ := 2 ^ 128 - 2 ^ 104

/-- `f32::MIN`. -/
def f32Min : ℚ := -f32Max

/-- `POISSON_DISTRIBUTION_SEARCH_SAMPLING`: a depth for each lambda, by ascending lambda; the
last entry is `(f64::MAX, usize::MAX)`. -/
def poissonDistributionSearchSampling : List (ℚ × ℕ) :=
  [(0.19342359767891684, 4), (0.398406374501992, 5), (0.6666666666666667, 6),
    (0.9900990099009901, 7), (1.3513513513513513, 8), (1.7543859649122806, 9),
    (2.2222222222222223, 10), (2.7027027027027026, 11), (3.125, 12), (3.7037037037037033, 13),
    (4.166666666666666, 14), (4.761904761904762, 15), (5.263157894736842, 16),
    (5.88235294117647, 17), (6.25, 18), (7.142857142857142, 19), (7.6923076923076925, 20),
    (9.090909090909092, 22), (10.0, 24), (11.538461538461538, 26), (12.5, 28),
    (14.285714285714285, 30), (15.384615384615385, 32), (16.666666666666668, 34),
    (18.181818181818183, 36), (20.0, 38), (21.428571428571427, 40), (23.076923076923077, 43),
    (25.0, 46), (27.777777777777775, 49), (30.0, 52), (33.33333333333333, 55),
    (33.333333333333336, 58), (37.5, 61), (39.285714285714285, 65), (42.857142857142854, 69),
    (45.83333333333333, 73), (50.0, 77), (50.0, 81), (56.25, 86), (60.0, 91),
    (66.66666666666666, 96), (70.0, 101), (75.0, 107), (78.57142857142857, 113),
    (83.33333333333333, 119), (90.0, 125), (94.44444444444444, 132), (100.0, 139), (106.25, 146),
    (111.53846153846155, 154), (117.6470588235294, 162), (125.0, 171), (137.5, 180),
    (143.75, 190), (150.0, 200), (162.5, 211), (170.83333333333331, 222),
    (183.33333333333331, 234), (191.66666666666666, 246), (200.0, 259), (215.0, 272),
    (230.0, 286), (242.85714285714283, 301), (257.1428571428571, 317), (271.4285714285714, 333),
    (285.0, 350), (300.0, 368), (318.1818181818182, 387), (340.0, 407), (360.0, 429),
    (380.0, 451), (400.0, 474), (421.4285714285714, 498), (443.75, 523),
    (468.1818181818182, 551), (494.4444444444444, 579), (519.2307692307693, 608), (550.0, 639),
    (576.6666666666666, 671), (614.2857142857142, 706), (650.0, 742), (678.5714285714286, 780),
    (716.6666666666666, 820), (759.0909090909091, 864), (800.0, 908), (844.4444444444443, 954),
    (892.8571428571428, 1003), (941.6666666666666, 1054), (991.6666666666666, 1107),
    (1043.75, 1164), (1100.0, 1224), (1175.0, 1289), (1233.3333333333333, 1355),
    (1291.6666666666665, 1423), (1364.2857142857142, 1500), (1440.0, 1576),
    (1516.6666666666665, 1658), (1600.0, 1741), (1687.5, 1832), (1780.0, 1931), (1875.0, 2028),
    (1975.0, 2132), (2083.333333333333, 2240), (2200.0, 2356), (2316.6666666666665, 2482),
    (2437.5, 2611), (2575.0, 2744), (2716.6666666666665, 2896), (2866.6666666666665, 3051),
    (3016.6666666666665, 3205), (3183.333333333333, 3377), (3375.0, 3568), (3550.0, 3748),
    (3750.0, 3953), (3950.0, 4158), (4175.0, 4389), (4400.0, 4620), (4650.0, 4876),
    (4900.0, 5132), (2 ^ 1024 - 2 ^ 971, 2 ^ 64 - 1)]

/-- `find_search_sampling_over_point_distribution`: the depth of the first entry whose lambda
is not below `p * n`, where the binary search lands; no lambda passes the last entry. -/
def findSearchSamplingOverPointDistribution (n p : ℚ) : Option ℕ :=
  let targetLambda := p * n
  (poissonDistributionSearchSampling.find? fun e => targetLambda ≤ e.1).map (·.2)

/-- `sampling_limit`: nothing from an empty segment, never more than the limit unless the
`ef` asks for more. -/
def samplingLimit (limit : ℕ) (efLimit : Option ℕ) (segmentPoints totalPoints : ℕ) : ℕ :=
  if segmentPoints = 0 then 0
  else
    let segmentProbability : ℚ := segmentPoints / totalPoints
    let poissonSampling :=
      (findSearchSamplingOverPointDistribution limit segmentProbability).getD limit
    if poissonSampling > limit then limit else max poissonSampling (efLimit.getD 0)

/-! ## 2. The result aggregators -/

/-- `SearchResultAggregator`: the `FixedLengthPriorityQueue` of capacity `length`, kept as its
elements by descending score (`Lib/TopK`), and the ids pushed.  `FixedLengthPriorityQueue::new`
asserts a positive capacity. -/
structure SearchResultAggregator where
  queue : List ScoredPoint
  length : ℕ
  length_pos : 0 < length
  seen : List ExtendedPointId

namespace SearchResultAggregator

/-- `SearchResultAggregator::new`; `none` where the queue's assertion panics. -/
def new (limit : ℕ) : Option SearchResultAggregator :=
  if h : 0 < limit then some ⟨[], limit, h, []⟩ else none

/-- `push`: the point of an id not seen yet goes to the queue. -/
def push (agg : SearchResultAggregator) (point : ScoredPoint) : SearchResultAggregator :=
  if point.id ∈ agg.seen then agg
  else { agg with
    queue := TopK.push ScoredPoint.score agg.length agg.queue point
    seen := point.id :: agg.seen }

/-- `into_vec`: by descending score. -/
def intoVec (agg : SearchResultAggregator) : List ScoredPoint := agg.queue

/-- `lowest`: the queue's `top`, its least element. -/
def lowest (agg : SearchResultAggregator) : Option ScoredPoint := agg.queue.getLast?

end SearchResultAggregator

/-- `BatchResultAggregator`: an aggregator per query, and the highest version reported for
each id. -/
structure BatchResultAggregator where
  batchAggregators : List SearchResultAggregator
  pointVersions : List (ExtendedPointId × ℕ)

namespace BatchResultAggregator

/-- `BatchResultAggregator::new`. -/
def new (tops : List ℕ) : Option BatchResultAggregator :=
  (tops.mapM SearchResultAggregator.new).map fun batchAggregators => ⟨batchAggregators, []⟩

/-- `update_point_versions`: every point of every segment's answer to every query raises its
id's version. -/
def updatePointVersions (b : BatchResultAggregator)
    (searchResults : List (List (List ScoredPoint))) : BatchResultAggregator :=
  { b with pointVersions := searchResults.flatten.flatten.foldl (fun pointVersions point =>
      OrdMap.insert point.id
        (max ((OrdMap.get? point.id pointVersions).getD point.version) point.version)
        pointVersions) b.pointVersions }

/-- The loop body of `update_batch_results`: a point not older than its id's version is
pushed. -/
def pushIfCurrent (b : BatchResultAggregator) (aggregator : SearchResultAggregator)
    (scoredPoint : ScoredPoint) : SearchResultAggregator :=
  let pointMaxVersion := (OrdMap.get? scoredPoint.id b.pointVersions).getD 0
  if scoredPoint.version ≥ pointMaxVersion then aggregator.push scoredPoint else aggregator

/-- `update_batch_results`: the answer's points pushed into the query's aggregator. -/
def updateBatchResults (b : BatchResultAggregator) (batchId : ℕ)
    (searchResults : List ScoredPoint) : BatchResultAggregator :=
  { b with batchAggregators := b.batchAggregators.modify batchId fun aggregator =>
      searchResults.foldl b.pushIfCurrent aggregator }

/-- `batch_lowest_scores`. -/
def batchLowestScores (b : BatchResultAggregator) (batchId : ℕ) : Option ℚ :=
  b.batchAggregators[batchId]?.bind fun aggregator => aggregator.lowest.map (·.score)

/-- `into_topk`. -/
def intoTopk (b : BatchResultAggregator) : List (List ScoredPoint) :=
  b.batchAggregators.map (·.intoVec)

end BatchResultAggregator

/-! ## 3. The searcher -/

/-- `NamedVectorStruct`. -/
inductive NamedVectorStruct where
  | default (vector : List ℚ)
  | named (name : String) (vector : List ℚ)

/-- `get_name`. -/
def NamedVectorStruct.getName : NamedVectorStruct → String
  | .default _ => defaultVectorName
  | .named name _ => name

/-- `get_vector`. -/
def NamedVectorStruct.getVector : NamedVectorStruct → List ℚ
  | .default vector => vector
  | .named _ vector => vector

/-- `SearchRequest`. -/
structure SearchRequest where
  vector : NamedVectorStruct
  filter : Option Filter := none
  params : Option SearchParams := none
  limit : ℕ
  offset : ℕ := 0
  withPayload : Option WithPayloadInterface := none
  withVector : Option WithVector := none

mutual
/-- `PartialEq for Condition`. -/
def Condition.beq : Condition → Condition → Bool
  | .field a, .field b => a == b
  | .isEmpty a, .isEmpty b => a == b
  | .isNull a, .isNull b => a == b
  | .hasId a, .hasId b => a == b
  | .filter a, .filter b => Filter.beq a b
  | _, _ => false
termination_by structural c => c
/-- `PartialEq for Filter`: clause by clause. -/
def Filter.beq : Filter → Filter → Bool
  | ⟨should₁, must₁, mustNot₁⟩, ⟨should₂, must₂, mustNot₂⟩ =>
    Condition.beqClause should₁ should₂ && Condition.beqClause must₁ must₂ &&
      Condition.beqClause mustNot₁ mustNot₂
termination_by structural f => f
/-- Two clauses compared condition by condition. -/
def Condition.beqClause : Option (List Condition) → Option (List Condition) → Bool
  | none, none => true
  | some a, some b => Condition.beqList a b
  | _, _ => false
termination_by structural c => c
/-- Two lists of conditions compared in order. -/
def Condition.beqList : List Condition → List Condition → Bool
  | [], [] => true
  | a :: as, b :: bs => a.beq b && Condition.beqList as bs
  | _, _ => false
termination_by structural c => c
end

instance : BEq Filter := ⟨Filter.beq⟩

deriving instance DecidableEq for PayloadSelector, WithPayload, WithVector

/-- `BatchSearchParams`: what consecutive queries share to go in one `search_batch`. -/
structure BatchSearchParams where
  vectorName : String
  filter : Option Filter
  withPayload : WithPayload
  withVector : WithVector
  top : ℕ
  params : Option SearchParams
deriving BEq

namespace BatchSearchParams

/-- `BatchSearchParams::default()`. -/
def empty : BatchSearchParams := ⟨"", none, ⟨false, none⟩, .bool false, 0, none⟩

/-- The parameters of a query. -/
def ofQuery (searchQuery : SearchRequest) : BatchSearchParams :=
  ⟨searchQuery.vector.getName, searchQuery.filter,
    WithPayload.ofInterface (searchQuery.withPayload.getD (.bool false)),
    searchQuery.withVector.getD (.bool false), searchQuery.limit + searchQuery.offset,
    searchQuery.params⟩

end BatchSearchParams

/-- What the loop of `search_in_segment` carries: the answers and flags so far, and the
queries batched with their parameters. -/
structure SegmentSearchState where
  result : List (List ScoredPoint)
  furtherResults : List Bool
  vectorsBatch : List (List ℚ)
  prevParams : BatchSearchParams

namespace SegmentsSearcher

variable (env : Env) (similarity : String → List ℚ → List ℚ → ℚ) (h : SegmentHeap)

/-- One `search_batch` of `search_in_segment` for the batched queries: its depth, sampled or
not, and for each answer whether it filled that depth. -/
def searchBatched (segment : LockedSegment) (prevParams : BatchSearchParams)
    (vectorsBatch : List (List ℚ)) (totalPoints : ℕ) (useSampling : Bool) :
    CollectionResult (List (List ScoredPoint) × List Bool) := do
  let segmentPoints := segment.pointsCount h
  let top := if useSampling then
      -- `get_hnsw_ef_construct` is `None` for a plain index
      let efLimit := prevParams.params.bind (·.hnswEf)
      samplingLimit prevParams.top efLimit segmentPoints totalPoints
    else prevParams.top
  let res ← (segment.searchBatch env similarity h prevParams.vectorName vectorsBatch
    prevParams.withPayload prevParams.withVector prevParams.filter top).mapError
      CollectionError.ofOperationError
  pure (res, res.map fun batchResult => batchResult.length == top)

/-- One query of `search_in_segment`: batched with the previous ones when its parameters are
theirs, and otherwise after the batch so far is searched. -/
def searchInSegmentStep (segment : LockedSegment) (totalPoints : ℕ) (useSampling : Bool)
    (st : SegmentSearchState) (searchQuery : SearchRequest) :
    CollectionResult SegmentSearchState := do
  let params := BatchSearchParams.ofQuery searchQuery
  if params == st.prevParams then
    pure { st with vectorsBatch := st.vectorsBatch ++ [searchQuery.vector.getVector] }
  else
    let (result, furtherResults) ← if st.vectorsBatch.isEmpty then
        pure (st.result, st.furtherResults)
      else do
        let (res, further) ← searchBatched env similarity h segment st.prevParams st.vectorsBatch
          totalPoints useSampling
        pure (st.result ++ res, st.furtherResults ++ further)
    pure ⟨result, furtherResults, [searchQuery.vector.getVector], params⟩

/-- `search_in_segment`: the answers to the queries, and whether each filled its depth. -/
def searchInSegment (segment : LockedSegment) (request : List SearchRequest) (totalPoints : ℕ)
    (useSampling : Bool) : CollectionResult (List (List ScoredPoint) × List Bool) := do
  let st ← request.foldlM (searchInSegmentStep env similarity h segment totalPoints useSampling)
    ⟨[], [], [], BatchSearchParams.empty⟩
  if st.vectorsBatch.isEmpty then pure (st.result, st.furtherResults)
  else
    let (res, further) ← searchBatched env similarity h segment st.prevParams st.vectorsBatch
      totalPoints useSampling
    pure (st.result ++ res, st.furtherResults ++ further)

/-- `lowest_scores_per_request[segment_id][batch_id]` after the merge loop: the score of the
last point of the answer, `f32::MIN` for an empty answer, `f32::MAX` where none was given. -/
def lowestScore (searchResult : List (List (List ScoredPoint))) (segmentId batchId : ℕ) : ℚ :=
  match searchResult[segmentId]?.bind (·[batchId]?) with
  | some queryRes => (queryRes.getLast?.map (·.score)).getD f32Min
  | none => f32Max

/-- `retrieved_points_per_request[segment_id][batch_id]` after the merge loop. -/
def retrievedPoints (searchResult : List (List (List ScoredPoint))) (segmentId batchId : ℕ) : ℕ :=
  ((searchResult[segmentId]?.bind (·[batchId]?)).map (·.length)).getD 0

/-- The merge loop of `process_search_result_step1`: every segment's answers, in order. -/
def mergeResults (resultAggregator : BatchResultAggregator)
    (searchResult : List (List (List ScoredPoint))) : BatchResultAggregator :=
  searchResult.foldl (fun resultAggregator segmentResult =>
    segmentResult.zipIdx.foldl (fun resultAggregator e =>
      resultAggregator.updateBatchResults e.2 e.1) resultAggregator) resultAggregator

/-- The re-run loop of `process_search_result_step1`: for each query with a merged answer,
every segment that may hold more and whose lowest score is not below the merged lowest. -/
def searchesToRerun (resultAggregator : BatchResultAggregator)
    (searchResult : List (List (List ScoredPoint))) (limits : List ℕ)
    (furtherResults : List (List Bool)) : List (ℕ × List ℕ) :=
  limits.zipIdx.foldl (fun searchesToRerun e =>
    match resultAggregator.batchLowestScores e.2 with
    | none => searchesToRerun
    | some lowestBatchScore =>
      (List.range searchResult.length).foldl (fun searchesToRerun segmentId =>
        let haveFurtherResults := ((furtherResults[segmentId]?).bind (·[e.2]?)).getD false
        if haveFurtherResults && decide (retrievedPoints searchResult segmentId e.2 < e.1) &&
            decide (lowestBatchScore ≤ lowestScore searchResult segmentId e.2) then
          OrdMap.insert segmentId ((OrdMap.get? segmentId searchesToRerun).getD [] ++ [e.2])
            searchesToRerun
        else searchesToRerun) searchesToRerun) []

/-- `process_search_result_step1`; `none` where an aggregator's assertion panics. -/
def processSearchResultStep1 (searchResult : List (List (List ScoredPoint))) (limits : List ℕ)
    (furtherResults : List (List Bool)) : Option (BatchResultAggregator × List (ℕ × List ℕ)) := do
  let resultAggregator ← BatchResultAggregator.new limits
  let resultAggregator := mergeResults (resultAggregator.updatePointVersions searchResult)
    searchResult
  pure (resultAggregator, searchesToRerun resultAggregator searchResult limits furtherResults)

/-- The second step of `search`: the queries to re-run, searched without sampling and merged. -/
def rerunSearches (lockedSegments : List LockedSegment) (batchRequest : List SearchRequest)
    (resultAggregator : BatchResultAggregator) (searchesToRerun : List (ℕ × List ℕ)) :
    CollectionResult BatchResultAggregator := do
  let secondarySearches ← searchesToRerun.mapM fun e => do
    let some segment := lockedSegments[e.1]? | throw .panic
    searchInSegment env similarity h segment (e.2.filterMap (batchRequest[·]?)) 0 false
  let secondarySearchResults := secondarySearches.map Prod.fst
  let resultAggregator := resultAggregator.updatePointVersions secondarySearchResults
  pure ((searchesToRerun.zip secondarySearchResults).foldl (fun resultAggregator e =>
    (e.1.2.zip e.2).foldl (fun resultAggregator r =>
      resultAggregator.updateBatchResults r.1 r.2) resultAggregator) resultAggregator)

/-- `SegmentsSearcher::search`. -/
def search (holder : SegmentHolder) (batchRequest : List SearchRequest) (samplingEnabled : Bool) :
    CollectionResult (List (List ScoredPoint)) := do
  if holder.segments.isEmpty then return []
  let totalPointsSegments := (holder.segments.map fun e => e.2.pointsCount h).sum
  let useSampling :=
    samplingEnabled && decide (holder.segments.length > 1) && decide (totalPointsSegments > 0)
  let lockedSegments := holder.segments.map Prod.snd
  let searches ← lockedSegments.mapM fun segment =>
    searchInSegment env similarity h segment batchRequest totalPointsSegments useSampling
  let some (resultAggregator, searchesToRerun) :=
      processSearchResultStep1 (searches.map Prod.fst)
        (batchRequest.map fun request => request.limit + request.offset) (searches.map Prod.snd)
    | throw .panic
  if searchesToRerun.isEmpty then return resultAggregator.intoTopk
  let resultAggregator ←
    rerunSearches env similarity h lockedSegments batchRequest resultAggregator searchesToRerun
  pure resultAggregator.intoTopk

end SegmentsSearcher

/-! ## 4. What the aggregators hold

A query's aggregator holds a top selection, by score, of the points pushed into it, and every
pushed id once (`SearchResultAggregator.Wf`): the queue is the selection `Lib/TopK` describes,
and the seen set refuses a second copy.  Every step of the merge keeps that (`Wf.push`), and
leaves each aggregator's capacity as `new` set it. -/

namespace SearchResultAggregator

/-- What an aggregator holds: its queue is a top selection, by score, of the points pushed into
it, whose ids are distinct and seen. -/
def Wf (agg : SearchResultAggregator) : Prop :=
  ∃ pushed : List ScoredPoint, TopK.IsTop ScoredPoint.score agg.length pushed agg.queue ∧
    (pushed.map ScoredPoint.id).Nodup ∧ ∀ p ∈ pushed, p.id ∈ agg.seen

theorem wf_new {limit : ℕ} {agg : SearchResultAggregator} (h : new limit = some agg) :
    agg.Wf ∧ agg.length = limit := by
  unfold new at h
  split at h
  · cases h
    exact ⟨⟨[], TopK.isTop_nil _, List.nodup_nil, fun _ hp => absurd hp List.not_mem_nil⟩, rfl⟩
  · cases h

@[simp] theorem length_push (agg : SearchResultAggregator) (point : ScoredPoint) :
    (agg.push point).length = agg.length := by
  unfold push
  split <;> rfl

/-- **One push keeps what an aggregator holds.** -/
theorem Wf.push {agg : SearchResultAggregator} (h : agg.Wf) (point : ScoredPoint) :
    (agg.push point).Wf := by
  obtain ⟨pushed, htop, hnodup, hseen⟩ := h
  unfold SearchResultAggregator.push
  by_cases hp : point.id ∈ agg.seen
  · rw [if_pos hp]
    exact ⟨pushed, htop, hnodup, hseen⟩
  · rw [if_neg hp]
    refine ⟨pushed ++ [point], htop.push agg.length_pos point, ?_, ?_⟩
    · -- an id the aggregator has not seen is not among the pushed ones
      have hfresh : ∀ q ∈ pushed, q.id ≠ point.id := fun q hq hid => hp (hid ▸ hseen q hq)
      rw [List.map_append, List.map_singleton, List.nodup_append]
      refine ⟨hnodup, List.nodup_singleton _, ?_⟩
      intro a ha b hb
      obtain ⟨q, hq, rfl⟩ := List.mem_map.mp ha
      rw [List.mem_singleton.mp hb]
      exact hfresh q hq
    · intro q hq
      rcases List.mem_append.mp hq with hq | hq
      · exact List.mem_cons_of_mem _ (hseen q hq)
      · rw [List.mem_singleton.mp hq]
        exact List.mem_cons_self

/-- The queue holds each id at most once. -/
theorem Wf.nodup {agg : SearchResultAggregator} (h : agg.Wf) :
    (agg.queue.map ScoredPoint.id).Nodup := by
  obtain ⟨pushed, htop, hnodup, -⟩ := h
  obtain ⟨l, hperm, hsub⟩ := htop.subperm
  exact (hperm.map ScoredPoint.id).nodup_iff.mp (hnodup.sublist (hsub.map _))

end SearchResultAggregator

/-- An answer fits its request: each id at most once, by descending score, and at most
`limit + offset` points. -/
def ResultFits (request : SearchRequest) (result : List ScoredPoint) : Prop :=
  (result.map ScoredPoint.id).Nodup ∧ result.Pairwise (fun a b => b.score ≤ a.score) ∧
    result.length ≤ request.limit + request.offset

/-- An aggregator of the request's capacity gives an answer that fits it. -/
theorem SearchResultAggregator.Wf.fits {agg : SearchResultAggregator} (h : agg.Wf)
    {request : SearchRequest} (hlen : agg.length = request.limit + request.offset) :
    ResultFits request agg.intoVec := by
  obtain ⟨pushed, htop, -, -⟩ := id h
  refine ⟨h.nodup, htop.sorted, ?_⟩
  calc agg.queue.length = min agg.length pushed.length := htop.length_eq
    _ ≤ agg.length := min_le_left _ _
    _ = request.limit + request.offset := hlen

/-- A property every element has, and `f` keeps, holds of every element after `modify`. -/
theorem forall_mem_modify {α : Type} {p : α → Prop} {f : α → α} (hf : ∀ a, p a → p (f a)) :
    ∀ (l : List α) (i : ℕ), (∀ a ∈ l, p a) → ∀ a ∈ l.modify i f, p a
  | [], _, _, a, ha => by simp at ha
  | x :: l, 0, hl, a, ha => by
    rw [List.modify_zero_cons] at ha
    rcases List.mem_cons.mp ha with rfl | ha
    · exact hf x (hl x List.mem_cons_self)
    · exact hl a (List.mem_cons_of_mem x ha)
  | x :: l, i + 1, hl, a, ha => by
    rw [List.modify_succ_cons] at ha
    rcases List.mem_cons.mp ha with rfl | ha
    · exact hl a List.mem_cons_self
    · exact forall_mem_modify hf l i (fun b hb => hl b (List.mem_cons_of_mem x hb)) a ha

/-- `modify` with a function that keeps `g` keeps the list's image under `g`. -/
theorem map_modify_of_comp {α β : Type} {g : α → β} {f : α → α} (hf : ∀ a, g (f a) = g a) :
    ∀ (l : List α) (i : ℕ), (l.modify i f).map g = l.map g
  | [], _ => by simp
  | x :: l, 0 => by rw [List.modify_zero_cons, List.map_cons, List.map_cons, hf]
  | x :: l, i + 1 => by
    rw [List.modify_succ_cons, List.map_cons, List.map_cons, map_modify_of_comp hf l i]

namespace BatchResultAggregator

/-- What a batch aggregator holds: every query's aggregator holds its invariant, with the
capacities `tops`. -/
structure Wf (tops : List ℕ) (b : BatchResultAggregator) : Prop where
  aggregators : ∀ agg ∈ b.batchAggregators, agg.Wf
  lengths : b.batchAggregators.map (·.length) = tops

theorem wf_new {tops : List ℕ} {b : BatchResultAggregator} (h : new tops = some b) :
    b.Wf tops := by
  unfold new at h
  obtain ⟨aggs, haggs, rfl⟩ := Option.map_eq_some_iff.mp h
  clear h
  -- one aggregator per top, each as `SearchResultAggregator.new` makes it
  induction tops generalizing aggs with
  | nil =>
    simp only [List.mapM_nil, Option.pure_def, Option.some.injEq] at haggs
    subst haggs
    exact ⟨fun _ h => absurd h List.not_mem_nil, rfl⟩
  | cons top tops ih =>
    simp only [List.mapM_cons, Option.bind_eq_bind, Option.pure_def, Option.bind_eq_some_iff,
      Option.some.injEq] at haggs
    obtain ⟨agg, hagg, rest, hrest, rfl⟩ := haggs
    obtain ⟨hwf, hlen⟩ := SearchResultAggregator.wf_new hagg
    have ih' := ih rest hrest
    refine ⟨fun a ha => ?_, ?_⟩
    · rcases List.mem_cons.mp ha with rfl | ha
      · exact hwf
      · exact ih'.aggregators a ha
    · simp only [List.map_cons, hlen]
      exact congrArg _ ih'.lengths

@[simp] theorem batchAggregators_updatePointVersions (b : BatchResultAggregator)
    (searchResults : List (List (List ScoredPoint))) :
    (b.updatePointVersions searchResults).batchAggregators = b.batchAggregators := rfl

theorem Wf.updatePointVersions {tops : List ℕ} {b : BatchResultAggregator} (h : b.Wf tops)
    (searchResults : List (List (List ScoredPoint))) : (b.updatePointVersions searchResults).Wf tops :=
  ⟨h.aggregators, h.lengths⟩

theorem wf_pushIfCurrent (b : BatchResultAggregator) {agg : SearchResultAggregator}
    (h : agg.Wf) (point : ScoredPoint) : (b.pushIfCurrent agg point).Wf := by
  unfold pushIfCurrent
  dsimp only
  split
  · exact h.push point
  · exact h

@[simp] theorem length_pushIfCurrent (b : BatchResultAggregator) (agg : SearchResultAggregator)
    (point : ScoredPoint) : (b.pushIfCurrent agg point).length = agg.length := by
  unfold pushIfCurrent
  dsimp only
  split
  · exact agg.length_push point
  · rfl

/-- **Merging one answer keeps what the batch aggregator holds.** -/
theorem Wf.updateBatchResults {tops : List ℕ} {b : BatchResultAggregator} (h : b.Wf tops)
    (batchId : ℕ) (searchResults : List ScoredPoint) :
    (b.updateBatchResults batchId searchResults).Wf tops := by
  -- only the query's aggregator changes, by a fold of pushes over the answer
  refine ⟨forall_mem_modify (fun agg hagg => ?_) _ _ h.aggregators, ?_⟩
  · exact List.foldlRecOn (motive := SearchResultAggregator.Wf) searchResults b.pushIfCurrent hagg
      fun _ hwf p _ => b.wf_pushIfCurrent hwf p
  · rw [← h.lengths]
    exact map_modify_of_comp (fun agg =>
      List.foldlRecOn (motive := fun a => a.length = agg.length) searchResults b.pushIfCurrent rfl
        fun a ha p _ => (b.length_pushIfCurrent a p).trans ha) _ _

/-- Aggregators of the requests' capacities give answers that fit the requests. -/
theorem forall₂_fits : ∀ (batchRequest : List SearchRequest) (aggs : List SearchResultAggregator),
    (∀ agg ∈ aggs, agg.Wf) →
    aggs.map (·.length) = batchRequest.map (fun request => request.limit + request.offset) →
    List.Forall₂ ResultFits batchRequest (aggs.map (·.intoVec))
  | [], [], _, _ => .nil
  | r :: rs, a :: as, hwf, hlen => by
    simp only [List.map_cons, List.cons.injEq] at hlen
    exact .cons ((hwf a List.mem_cons_self).fits hlen.1)
      (forall₂_fits rs as (fun agg h => hwf agg (List.mem_cons_of_mem a h)) hlen.2)
  | [], _ :: _, _, hlen => by simp at hlen
  | _ :: _, [], _, hlen => by simp at hlen

/-- A batch aggregator of the requests' capacities answers every request with a fitting list. -/
theorem Wf.forall₂_intoTopk {batchRequest : List SearchRequest} {b : BatchResultAggregator}
    (hb : b.Wf (batchRequest.map fun request => request.limit + request.offset)) :
    List.Forall₂ ResultFits batchRequest b.intoTopk :=
  forall₂_fits batchRequest b.batchAggregators hb.aggregators hb.lengths

end BatchResultAggregator

/-! ## 5. What the search returns -/

/-- A successful bind is a successful computation followed by a successful continuation. -/
theorem except_bind_eq_ok {ε α β : Type} {x : Except ε α} {f : α → Except ε β} {b : β}
    (h : (x >>= f) = .ok b) : ∃ a, x = .ok a ∧ f a = .ok b := by
  cases x with
  | error e => cases h
  | ok a => exact ⟨a, rfl, h⟩

namespace SegmentsSearcher

variable (env : Env) (similarity : String → List ℚ → List ℚ → ℚ) (h : SegmentHeap)

theorem wf_mergeResults {tops : List ℕ} {b : BatchResultAggregator}
    (hb : b.Wf tops) (searchResult : List (List (List ScoredPoint))) :
    (mergeResults b searchResult).Wf tops := by
  -- every segment's answers are merged one by one
  refine List.foldlRecOn (motive := BatchResultAggregator.Wf tops) searchResult _ hb
    fun b' hb' segmentResult _ => ?_
  exact List.foldlRecOn (motive := BatchResultAggregator.Wf tops) _ _ hb'
    fun b'' hb'' e _ => hb''.updateBatchResults e.2 e.1

theorem wf_processSearchResultStep1 {searchResult : List (List (List ScoredPoint))}
    {limits : List ℕ} {furtherResults : List (List Bool)} {b : BatchResultAggregator}
    {rerun : List (ℕ × List ℕ)}
    (hstep : processSearchResultStep1 searchResult limits furtherResults = some (b, rerun)) :
    b.Wf limits := by
  unfold processSearchResultStep1 at hstep
  simp only [Option.bind_eq_bind, Option.pure_def, Option.bind_eq_some_iff, Option.some.injEq,
    Prod.mk.injEq] at hstep
  obtain ⟨b₀, hnew, rfl, -⟩ := hstep
  exact wf_mergeResults ((BatchResultAggregator.wf_new hnew).updatePointVersions searchResult)
    searchResult

theorem wf_rerunSearches {lockedSegments : List LockedSegment}
    {batchRequest : List SearchRequest} {tops : List ℕ} {b b' : BatchResultAggregator}
    {rerun : List (ℕ × List ℕ)} (hb : b.Wf tops)
    (hrerun : rerunSearches env similarity h lockedSegments batchRequest b rerun = .ok b') :
    b'.Wf tops := by
  unfold rerunSearches at hrerun
  obtain ⟨secondarySearches, -, hrest⟩ := except_bind_eq_ok hrerun
  cases hrest
  -- the second answers are merged like the first ones
  refine List.foldlRecOn (motive := BatchResultAggregator.Wf tops) _ _ (hb.updatePointVersions _)
    fun b₁ hb₁ e _ => ?_
  exact List.foldlRecOn (motive := BatchResultAggregator.Wf tops) _ _ hb₁
    fun b₂ hb₂ r _ => hb₂.updateBatchResults r.1 r.2

/-- **The search's answers fit the requests**: one per request, each by descending score, with
each id at most once and at most `limit + offset` points; a holder without segments answers
nothing. -/
theorem search_results_fit {holder : SegmentHolder} {batchRequest : List SearchRequest}
    {samplingEnabled : Bool} {results : List (List ScoredPoint)}
    (hsearch : search env similarity h holder batchRequest samplingEnabled = .ok results) :
    List.Forall₂ ResultFits batchRequest results ∨ (holder.segments = [] ∧ results = []) := by
  unfold search at hsearch
  split at hsearch
  · -- no segments: nothing is searched
    rename_i hempty
    cases hsearch
    exact .inr ⟨List.isEmpty_iff.mp hempty, rfl⟩
  · dsimp only at hsearch
    obtain ⟨searches, -, hrest⟩ := except_bind_eq_ok hsearch
    split at hrest
    · rename_i b rerun hstep
      have hb := wf_processSearchResultStep1 hstep
      left
      split at hrest
      · cases hrest
        exact hb.forall₂_intoTopk
      · -- the re-run merges into the same aggregators
        obtain ⟨b', hrerun, hout⟩ := except_bind_eq_ok hrest
        cases hout
        exact (wf_rerunSearches env similarity h hb hrerun).forall₂_intoTopk
    · cases hrest

/-- One segment holding point 1 at version 1, scored by the first coordinate of its vector
`[9]`, searched for one result. -/
theorem search_results_fit_one_point :
    let env : Env := ⟨fun _ _ => 0, id, id, id, fun _ => true, fun _ => false, id, fun _ => 0,
      fun _ => "", fun _ _ => [], fun _ _ => []⟩
    let similarity : String → List ℚ → List ℚ → ℚ := fun _ _ b => b.headD 0
    let segment : Segment := ⟨some 1,
      ⟨⟨[]⟩, (IdTracker.empty.setLink (.numId 1) 0).setInternalVersion 0 1, [], []⟩,
      [("", [[9]])], [("", ⟨1, fun _ => none⟩)], true⟩
    let h : SegmentHeap := ⟨fun _ => segment, fun _ => [], fun _ => [], fun _ => []⟩
    let holder : SegmentHolder := ⟨[(0, .original 0)], by decide, []⟩
    let request : SearchRequest := { vector := .default [1], limit := 1 }
    search env similarity h holder [request] false = .ok [[⟨.numId 1, 1, 9, none, none⟩]] ∧
      (List.Forall₂ ResultFits [request] [[⟨.numId 1, 1, 9, none, none⟩]] ∨
        (holder.segments = [] ∧
          [[⟨.numId 1, 1, 9, none, none⟩]] = ([] : List (List ScoredPoint)))) := by
  intro env similarity segment h holder request
  have hsearch : search env similarity h holder [request] false =
      .ok [[⟨.numId 1, 1, 9, none, none⟩]] := by
    rfl
  exact ⟨hsearch, search_results_fit env similarity h hsearch⟩

/-! ### The re-run rule -/

/-- A fold whose steps keep a property, and one of whose elements establishes it from any
accumulator, ends with it. -/
theorem foldl_of_mem_establishes {α β : Type} {p : β → Prop} {f : β → α → β}
    (hkeep : ∀ acc a, p acc → p (f acc a)) {x : α} (hx : ∀ acc, p (f acc x)) {l : List α}
    (hmem : x ∈ l) (init : β) : p (l.foldl f init) := by
  obtain ⟨l₁, l₂, rfl⟩ := List.append_of_mem hmem
  rw [List.foldl_append, List.foldl_cons]
  exact List.foldlRecOn (motive := p) l₂ f (hx _) fun acc hacc a _ => hkeep acc a hacc

/-- A query is listed for a segment in the map of searches to re-run. -/
def Listed (searchesToRerun : List (ℕ × List ℕ)) (segmentId batchId : ℕ) : Prop :=
  ∃ batchIds, OrdMap.get? segmentId searchesToRerun = some batchIds ∧ batchId ∈ batchIds

/-- Listing a query for a segment keeps every other listing. -/
theorem Listed.insert {m : List (ℕ × List ℕ)} {segmentId batchId : ℕ} (h : Listed m segmentId batchId)
    (segmentId' batchId' : ℕ) :
    Listed (OrdMap.insert segmentId' ((OrdMap.get? segmentId' m).getD [] ++ [batchId']) m)
      segmentId batchId := by
  obtain ⟨batchIds, hget, hmem⟩ := h
  rw [Listed, OrdMap.get?_insert]
  by_cases hs : segmentId = segmentId'
  · subst hs
    refine ⟨_, if_pos rfl, ?_⟩
    rw [hget, Option.getD_some]
    exact List.mem_append_left _ hmem
  · exact ⟨batchIds, by rw [if_neg hs, hget], hmem⟩

theorem listed_insert_self (m : List (ℕ × List ℕ)) (segmentId batchId : ℕ) :
    Listed (OrdMap.insert segmentId ((OrdMap.get? segmentId m).getD [] ++ [batchId]) m)
      segmentId batchId := by
  rw [Listed, OrdMap.get?_insert, if_pos rfl]
  exact ⟨_, rfl, List.mem_append_right _ (List.mem_singleton_self batchId)⟩

/-- **The re-run rule catches every segment whose last point the merge kept**: when a segment's
answer to a query filled its depth with fewer points than the limit, and the merged answer to
the query holds the answer's last point, the segment is searched again for the query. -/
theorem step1_reruns_of_last_kept {searchResult : List (List (List ScoredPoint))}
    {limits : List ℕ} {furtherResults : List (List Bool)} {b : BatchResultAggregator}
    {rerun : List (ℕ × List ℕ)}
    (hstep : processSearchResultStep1 searchResult limits furtherResults = some (b, rerun))
    {segmentId batchId requiredLimit : ℕ} {queryRes : List ScoredPoint} {last : ScoredPoint}
    (hres : searchResult[segmentId]?.bind (·[batchId]?) = some queryRes)
    (hlast : queryRes.getLast? = some last) (hlimit : limits[batchId]? = some requiredLimit)
    (hfurther : furtherResults[segmentId]?.bind (·[batchId]?) = some true)
    (hshort : queryRes.length < requiredLimit)
    (hkept : ∃ agg ∈ b.batchAggregators[batchId]?, last ∈ agg.queue) :
    Listed rerun segmentId batchId := by
  have hb := wf_processSearchResultStep1 hstep
  unfold processSearchResultStep1 at hstep
  simp only [Option.bind_eq_bind, Option.pure_def, Option.bind_eq_some_iff, Option.some.injEq,
    Prod.mk.injEq] at hstep
  obtain ⟨b₀, -, hb₀, rfl⟩ := hstep
  rw [hb₀]
  -- the merged answer's lowest score is at most the kept last point's
  obtain ⟨agg, hagg, hmem⟩ := hkept
  obtain ⟨pushed, htop, -, -⟩ := hb.aggregators agg (List.mem_of_getElem? hagg)
  obtain ⟨least, hleast⟩ : ∃ least, agg.queue.getLast? = some least :=
    Option.ne_none_iff_exists'.mp (mt List.getLast?_eq_none_iff.mp (List.ne_nil_of_mem hmem))
  have hle : least.score ≤ last.score := TopK.key_getLast_le htop.sorted hleast last hmem
  have hlowest : b.batchLowestScores batchId = some least.score := by
    rw [BatchResultAggregator.batchLowestScores, Option.mem_def.mp hagg]
    simp [SearchResultAggregator.lowest, hleast]
  have hseg : segmentId < searchResult.length := by
    obtain ⟨segmentResult, hsr, -⟩ := Option.bind_eq_some_iff.mp hres
    exact (List.getElem?_eq_some_iff.mp hsr).1
  -- the query's entry lists the segment, and later entries keep the listing
  unfold searchesToRerun
  refine foldl_of_mem_establishes (p := fun acc => Listed acc segmentId batchId)
    (x := (requiredLimit, batchId)) ?_ ?_ (List.mem_zipIdx_iff_getElem?.mpr hlimit) []
  · intro acc e hacc
    dsimp only
    split
    · exact hacc
    · exact List.foldlRecOn (motive := fun acc => Listed acc segmentId batchId) _ _ hacc
        fun acc' hacc' s _ => by
          split
          · exact hacc'.insert s e.2
          · exact hacc'
  · intro acc
    dsimp only
    rw [hlowest]
    refine foldl_of_mem_establishes (p := fun acc => Listed acc segmentId batchId) (x := segmentId)
      ?_ ?_ (List.mem_range.mpr hseg) acc
    · intro acc' s hacc'
      split
      · exact hacc'.insert s batchId
      · exact hacc'
    · intro acc'
      have hcond : (((furtherResults[segmentId]?).bind (·[batchId]?)).getD false &&
          decide (retrievedPoints searchResult segmentId batchId < requiredLimit) &&
          decide (least.score ≤ lowestScore searchResult segmentId batchId)) = true := by
        simp [hfurther, retrievedPoints, lowestScore, hres, hlast, hshort, hle]
      rw [if_pos hcond]
      exact listed_insert_self acc' segmentId batchId

/-- One segment whose one point fills a depth of one, for a query of limit two: the segment is
listed for the query. -/
theorem step1_reruns_of_last_kept_one_point :
    let point : ScoredPoint := ⟨.numId 1, 1, 9, none, none⟩
    let b : BatchResultAggregator := ⟨[⟨[point], 2, by decide, [.numId 1]⟩], [(.numId 1, 1)]⟩
    processSearchResultStep1 [[[point]]] [2] [[true]] = some (b, [(0, [0])]) ∧
      Listed [(0, [0])] 0 0 := by
  intro point b
  have hstep : processSearchResultStep1 [[[point]]] [2] [[true]] = some (b, [(0, [0])]) := rfl
  exact ⟨hstep, step1_reruns_of_last_kept hstep rfl rfl rfl rfl (by decide)
    ⟨_, rfl, List.mem_singleton_self _⟩⟩

end SegmentsSearcher

/-! ## 6. Where the merge goes wrong -/

/-- **The search returns an outdated copy.**  Segment 0 holds point 1 at version 1 with vector
`[9]`; segment 1 holds point 1 at version 2 with vector `[1]`, and point 2 with `[5]`.  The dot
product with `[1]`, one result: segment 0 answers with its point 1, segment 1 with point 2, and
the merge returns point 1 at version 1 and score 9, while the holder's newest copy of point 1
is at version 2 and scores 1, below point 2's 5. -/
theorem search_returns_outdated_copy :
    let env : Env := ⟨fun _ _ => 0, id, id, id, fun _ => true, fun _ => false, id, fun _ => 0,
      fun _ => "", fun _ _ => [], fun _ _ => []⟩
    let similarity : String → List ℚ → List ℚ → ℚ := fun _ a b => (List.zipWith (· * ·) a b).sum
    let older : Segment := ⟨some 1,
      ⟨⟨[]⟩, (IdTracker.empty.setLink (.numId 1) 0).setInternalVersion 0 1, [], []⟩,
      [("", [[9]])], [("", ⟨1, fun _ => none⟩)], true⟩
    let newer : Segment := ⟨some 2,
      ⟨⟨[]⟩, ((((IdTracker.empty.setLink (.numId 1) 0).setInternalVersion 0 2).setLink
        (.numId 2) 1).setInternalVersion 1 2), [], []⟩,
      [("", [[1], [5]])], [("", ⟨1, fun _ => none⟩)], true⟩
    let h : SegmentHeap :=
      ⟨fun c => if c = 0 then older else newer, fun _ => [], fun _ => [], fun _ => []⟩
    let holder : SegmentHolder := ⟨[(0, .original 0), (1, .original 1)], by decide, []⟩
    let request : SearchRequest := { vector := .default [1], limit := 1 }
    (SegmentsSearcher.search env similarity h holder [request] false).toOption.map
        (·.map (·.map fun p => (p.id, p.version, p.score))) = some [[(.numId 1, 1, 9)]] ∧
      holder.contentVersion h (.numId 1) = some 2 ∧
      (holder.content h (.numId 1)).map (·.vectors) = some [("", [1])] ∧
      (holder.content h (.numId 2)).map (·.vectors) = some [("", [5])] := by
  intro env similarity older newer h holder request
  refine ⟨?_, ?_, ?_, ?_⟩
  · decide +kernel
  · decide +kernel
  · decide +kernel
  · decide +kernel

/-- **Sampling loses the points of an under-counted proxy.**  Segment 0 holds point 1 (vector
`[9]`), segment 1 holds points 2 and 3 (`[5]`, `[1]`).  An optimisation wraps both in proxies
that share one deleted set, and point 2 is deleted through the second.  The first proxy still
holds point 1 but counts `1 - 1 = 0` points, so sampling gives it depth 0; it answers nothing,
its empty answer's lowest score `f32::MIN` is below the merged one, and it is not searched
again.  With two results asked, the sampled search returns point 3 alone, the search without
sampling points 1 and 3. -/
theorem sampling_drops_undercounted_proxy :
    let env : Env := ⟨fun _ _ => 0, id, id, id, fun _ => true, fun _ => false, id, fun _ => 0,
      fun _ => "", fun _ _ => [], fun _ _ => []⟩
    let similarity : String → List ℚ → List ℚ → ℚ := fun _ a b => (List.zipWith (· * ·) a b).sum
    let empty : Segment :=
      ⟨none, ⟨⟨[]⟩, IdTracker.empty, [], []⟩, [("", [])], [("", ⟨1, fun _ => none⟩)], true⟩
    let first : Segment := ⟨some 1,
      ⟨⟨[]⟩, (IdTracker.empty.setLink (.numId 1) 0).setInternalVersion 0 1, [], []⟩,
      [("", [[9]])], [("", ⟨1, fun _ => none⟩)], false⟩
    let second : Segment := ⟨some 1,
      ⟨⟨[]⟩, ((((IdTracker.empty.setLink (.numId 2) 0).setInternalVersion 0 1).setLink
        (.numId 3) 1).setInternalVersion 1 1), [], []⟩,
      [("", [[5], [1]])], [("", ⟨1, fun _ => none⟩)], false⟩
    let store : Store := ⟨⟨[(0, .original 0), (1, .original 1)], by decide, []⟩,
      ⟨fun c => if c = 0 then first else if c = 1 then second else empty,
        fun _ => [], fun _ => [], fun _ => []⟩⟩
    let delete : CollectionUpdateOperations := .pointOperation (.deletePoints [.numId 2])
    let final := System.run env ⟨empty, empty⟩ ⟨store, none⟩
      [.startOptimization [0, 1] false 2 0 5, .update 0 2 delete]
    let request : SearchRequest := { vector := .default [1], limit := 2 }
    final.store.holder.segments.map (fun e => (e.2.pointsCount final.store.heap,
        e.2.hasPoint final.store.heap (.numId 1))) = [(0, true), (1, false)] ∧
      (SegmentsSearcher.search env similarity final.store.heap final.store.holder [request]
        true).toOption.map (·.map (·.map fun p => (p.id, p.score))) = some [[(.numId 3, 1)]] ∧
      (SegmentsSearcher.search env similarity final.store.heap final.store.holder [request]
        false).toOption.map (·.map (·.map fun p => (p.id, p.score))) =
          some [[(.numId 1, 9), (.numId 3, 1)]] := by
  intro env similarity empty first second store delete final request
  refine ⟨?_, ?_, ?_⟩
  · decide +kernel
  · decide +kernel
  · decide +kernel

end Qdrant
