/-
# Scoring and searching the vectors of a segment

`vector_storage/raw_scorer.rs` scores one query against the stored vectors: `check_point`
admits a point that has a vector and is not deleted, and `peek_top_iter` / `peek_top_all`
push the scores of the admitted points of an iterator (or of every offset) into a bounded
priority queue of capacity `top` (`spaces/tools.rs`), which `Lib/TopK.lean` models.

Two vector indexes search a batch of queries with a filter by scoring the points of
`query_points`:

* `PlainIndex::search` collects them into a vector and gives every query a fresh iterator
  over it, so **every query gets the exact answer** (`plainIndex_search_isTop`);
* `HNSWIndex::search_vectors_plain`, the exact path of the graph index, creates ONE iterator
  and hands it to the scorer of every query in turn.  The first scorer drains it, so **every
  later query of the batch gets no result at all.**

The graph search itself (`GraphLayers::search`) is not modelled: it is a parameter of
`HNSWIndex.search`, as is the outcome of the random cardinality sample.  Quantized storage
is left out; the exact paths ignore it.
-/
import Qdrant.Index.StructPayloadIndex
import Qdrant.Lib.TopK

namespace Qdrant

/-! ## 1. The raw scorer -/

/-- `ScoredPointOffset`, ordered by its score only. -/
structure ScoredPointOffset where
  idx : PointOffsetType
  score : ℚ
deriving DecidableEq, Repr

/-- A `Metric`: the similarity of a query with a stored vector (greater is closer), and the
preprocessing of a query. -/
structure Metric where
  similarity : List ℚ → List ℚ → ℚ
  preprocess : List ℚ → Option (List ℚ)

/-- A vector storage: the stored vectors by offset, and the metric of its distance. -/
structure VectorStorage where
  vectors : List (List ℚ)
  metric : Metric

/-- `total_vector_count`. -/
def VectorStorage.totalVectorCount (s : VectorStorage) : ℕ := s.vectors.length

/-- `get_vector`. -/
def VectorStorage.getVector (s : VectorStorage) (point : PointOffsetType) : List ℚ :=
  s.vectors.getD point []

/-- `RawScorerImpl`. -/
structure RawScorer where
  pointsCount : ℕ
  query : List ℚ
  vectorStorage : VectorStorage
  deleted : List Bool

/-- `new_raw_scorer`: the query preprocessed by the storage's metric. -/
def newRawScorer (vector : List ℚ) (vectorStorage : VectorStorage) (deleted : List Bool) :
    RawScorer :=
  ⟨vectorStorage.totalVectorCount, (vectorStorage.metric.preprocess vector).getD vector,
    vectorStorage, deleted⟩

namespace RawScorer

/-- `check_point`: a stored vector, and a `false` deleted bit. -/
def checkPoint (r : RawScorer) (point : PointOffsetType) : Bool :=
  decide (point < r.pointsCount) && decide (point < r.deleted.length) && !r.deleted.getD point true

/-- `score_point`. -/
def scorePoint (r : RawScorer) (point : PointOffsetType) : ℚ :=
  r.vectorStorage.metric.similarity r.query (r.vectorStorage.getVector point)

/-- A point with its score. -/
def scored (r : RawScorer) (point : PointOffsetType) : ScoredPointOffset :=
  ⟨point, r.scorePoint point⟩

/-- The scores `peek_top_iter` pushes: those of the admitted points, in iterator order. -/
def admittedScores (r : RawScorer) (points : List PointOffsetType) : List ScoredPointOffset :=
  (points.filter r.checkPoint).map r.scored

/-- `peek_top_iter`, with what is left of the iterator afterwards: nothing, unless `top = 0`,
where `peek_top_largest_iterable` returns before touching it. -/
def peekTopIter (r : RawScorer) (points : List PointOffsetType) (top : ℕ) :
    List ScoredPointOffset × List PointOffsetType :=
  (TopK.peekTopLargest ScoredPointOffset.score top (r.admittedScores points),
    if top = 0 then points else [])

/-- `peek_top_all`: every offset below `points_count`. -/
def peekTopAll (r : RawScorer) (top : ℕ) : List ScoredPointOffset :=
  TopK.peekTopLargest ScoredPointOffset.score top (r.admittedScores (List.range r.pointsCount))

end RawScorer

/-! ## 2. The two vector indexes -/

/-- What a vector index reads of its segment: the payload index (whose id tracker is the
segment's) and the vector storage. -/
structure SearchContext where
  payloadIndex : StructPayloadIndex
  vectorStorage : VectorStorage

namespace SearchContext

variable (env : Env) (ctx : SearchContext)

/-- The raw scorer of a query over the segment, with the tracker's deleted bits. -/
def scorer (vector : List ℚ) : RawScorer :=
  newRawScorer vector ctx.vectorStorage ctx.payloadIndex.idTracker.deleted

/-- `PlainIndex::search`: every query scores a fresh iterator over the filtered points. -/
def plainIndexSearch (vectors : List (List ℚ)) (filter : Option Filter) (top : ℕ) :
    Option (List (List ScoredPointOffset)) :=
  match filter with
  | some f => (ctx.payloadIndex.queryPoints env f).map fun filteredIds =>
      vectors.map fun vector => ((ctx.scorer vector).peekTopIter filteredIds top).1
  | none => some (vectors.map fun vector => (ctx.scorer vector).peekTopAll top)

/-- The loop of `search_vectors_plain`: each query's scorer is given the iterator as the
previous one left it. -/
def peekTopShared (top : ℕ) : List PointOffsetType → List (List ℚ) → List (List ScoredPointOffset)
  | _, [] => []
  | points, vector :: vectors =>
    let r := (ctx.scorer vector).peekTopIter points top
    r.1 :: peekTopShared top r.2 vectors

/-- `HNSWIndex::search_vectors_plain`. -/
def searchVectorsPlain (vectors : List (List ℚ)) (filter : Filter) (top : ℕ) :
    Option (List (List ScoredPointOffset)) :=
  (ctx.payloadIndex.queryPoints env filter).map fun filteredIter =>
    ctx.peekTopShared top filteredIter vectors

/-- `HNSWIndex::search`.  `searchWithGraph` is the graph search of one query and
`sampleLarge` the verdict of `sample_check_cardinality`. -/
def hnswSearch (searchWithGraph : Option Filter → List ℚ → List ScoredPointOffset)
    (indexingThreshold : ℕ) (sampleLarge : Bool) (vectors : List (List ℚ))
    (filter : Option Filter) (top : ℕ) (exact : Bool) : Option (List (List ScoredPointOffset)) :=
  match filter with
  | none =>
    if exact then some (vectors.map fun vector => (ctx.scorer vector).peekTopAll top)
    else some (vectors.map (searchWithGraph none))
  | some f =>
    if exact then ctx.searchVectorsPlain env vectors f top
    else (ctx.payloadIndex.estimateCardinality env f).bind fun queryCardinality =>
      if queryCardinality.max < indexingThreshold then ctx.searchVectorsPlain env vectors f top
      else if queryCardinality.min > indexingThreshold then
        some (vectors.map (searchWithGraph (some f)))
      else if sampleLarge then some (vectors.map (searchWithGraph (some f)))
      else ctx.searchVectorsPlain env vectors f top

end SearchContext

/-! ## 3. What a scorer returns -/

namespace RawScorer

variable (r : RawScorer)

/-- **`peek_top_iter` is exact on its iterator**: its result is a top selection, by score,
of the admitted points of the iterator. -/
theorem peekTopIter_isTop (points : List PointOffsetType) (top : ℕ) :
    TopK.IsTop ScoredPointOffset.score top (r.admittedScores points) (r.peekTopIter points top).1 :=
  TopK.isTop_peekTopLargest top _

end RawScorer

/-! ## 4. The exact searches -/

namespace SearchContext

variable (env : Env) (ctx : SearchContext)

/-- **Plain search is exact for every query of the batch**: with a filter, the result of
each query is a top selection, by its own scores, of the admitted points of `query_points`,
whatever the other queries are. -/
theorem plainIndex_search_isTop {vectors : List (List ℚ)} {f : Filter} {top : ℕ}
    {filteredIds : List PointOffsetType}
    (hq : ctx.payloadIndex.queryPoints env f = some filteredIds) :
    ∃ results, ctx.plainIndexSearch env vectors (some f) top = some results ∧
      results.length = vectors.length ∧
      ∀ i (hi : i < vectors.length), ∃ hr : i < results.length,
        TopK.IsTop ScoredPointOffset.score top ((ctx.scorer vectors[i]).admittedScores filteredIds)
          results[i] := by
  refine ⟨vectors.map fun vector => ((ctx.scorer vector).peekTopIter filteredIds top).1,
    by simp [plainIndexSearch, hq], by simp, fun i hi => ⟨by simpa using hi, ?_⟩⟩
  rw [List.getElem_map]
  exact (ctx.scorer vectors[i]).peekTopIter_isTop filteredIds top

/-- One live point and the dot product; two queries, no condition in the filter. -/
theorem plainIndex_search_isTop_one_point :
    let env : Env := ⟨fun _ _ => 0, id, id, id, fun _ => true, fun _ => false, id, fun _ => 0,
      fun _ => "", fun _ _ => [], fun _ _ => []⟩
    let ctx : SearchContext := ⟨⟨⟨[]⟩, IdTracker.empty.setLink (.numId 0) 0, [], []⟩,
      ⟨[[1]], ⟨fun a b => (List.zipWith (· * ·) a b).sum, fun _ => none⟩⟩⟩
    ∃ results, ctx.plainIndexSearch env [[1], [2]] (some {}) 1 = some results ∧
      results.length = 2 ∧
      ∀ i (hi : i < 2), ∃ hr : i < results.length,
        TopK.IsTop ScoredPointOffset.score 1 ((ctx.scorer [[1], [2]][i]).admittedScores [0])
          results[i] := by
  intro env ctx
  exact @plainIndex_search_isTop env ctx [[1], [2]] {} 1 [0] rfl

/-- **A batch of two exact searches with one live point**: whatever the environment, the
graph index's exact search returns the point to the first query and nothing to the second,
while the plain index returns it to both. -/
theorem hnswSearch_exact_second_query_empty (env : Env) :
    let ctx : SearchContext := ⟨⟨⟨[]⟩, IdTracker.empty.setLink (.numId 0) 0, [], []⟩,
      ⟨[[1]], ⟨fun a b => (List.zipWith (· * ·) a b).sum, fun _ => none⟩⟩⟩
    (ctx.hnswSearch env (fun _ _ => []) 0 false [[1], [1]] (some {}) 1 true).map
        (·.map (·.map (·.idx))) = some [[0], []] ∧
      (ctx.plainIndexSearch env [[1], [1]] (some {}) 1).map (·.map (·.map (·.idx))) =
        some [[0], [0]] := by
  intro ctx
  exact ⟨rfl, rfl⟩

end SearchContext

end Qdrant
