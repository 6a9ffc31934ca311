/-
# Linking a new point into the HNSW graph

`index/hnsw_index/graph_layers_builder.rs` (`set_levels`, `link_new_point`,
`select_candidate_with_heuristic_from_sorted`), with the search it runs from
`graph_layers.rs` (`_search_on_level`, `search_on_level`, `search_entry`), `search_context.rs`
and `point_scorer.rs`.

`link_new_point` asks the entry points for a point to start from, walks greedily down to the
new point's level (`search_entry`), and then, level by level, searches the level for the
nearest points (`search_on_level`) and links the new point with them: with the heuristic, the
new point takes the heuristic's choice and each chosen point links back (pushed while there is
room, else re-chosen by the heuristic); without it, `connect_new_point` inserts each link on
both sides.

**Degree bound** (`linkNewPoint_degree_bound`): from `GraphLayersBuilder::new`, over any run of
`set_levels` and `link_new_point` calls that links each point at most once, every list of links
has at most `get_m(level)` links, none to its own point, and no link twice.  The invariant that
carries it (`BuilderOk`) adds that links only go to points already linked and that a point not
yet linked has no links; so the search never finds the point being linked
(`searchOnLevel_spec`, `searchEntry_linked`).

The model, against the source:

* scores are rationals (`ScoredPointOffset`, `Index/VectorSearch.lean`); the binary heap of
  candidates is a list by descending score, whose head `pop` takes; among equal scores the heap
  picks one, the model the one inserted last;
* the two `while` loops run on `fuel`: one more than the number of links on the level, which
  bounds the points either loop can move to;
* `FixedLengthPriorityQueue::new` asserts a positive length, and `get_point_level` subtracts
  one from the number of levels: `none` where these panic; a list of links outside the
  builder's lists reads as empty and is not written (the source indexes and panics);
* without the heuristic the source walks the nearest points in the heap's own array order; the
  model walks them by descending score, and the level lemma (`linkOnLevel_levelOk`) holds for
  any order of the nearest points.
-/
import Qdrant.Hnsw.GraphLayersBuilder
import Qdrant.Index.VectorSearch

namespace Qdrant

open TopK

/-! ## 1. Scoring while building -/

/-- `RawScorer::score_internal`: the similarity of two stored vectors. -/
def RawScorer.scoreInternal (r : RawScorer) (pointA pointB : PointOffsetType) : ℚ :=
  r.vectorStorage.metric.similarity (r.vectorStorage.getVector pointA)
    (r.vectorStorage.getVector pointB)

/-- `FilteredScorer`: the raw scorer of the point being linked, and the filter, if any. -/
structure FilteredScorer where
  rawScorer : RawScorer
  filterContext : Option (PointOffsetType → Bool)

namespace FilteredScorer

/-- `check_point`. -/
def checkPoint (s : FilteredScorer) (pointId : PointOffsetType) : Bool :=
  match s.filterContext with
  | none => s.rawScorer.checkPoint pointId
  | some f => f pointId && s.rawScorer.checkPoint pointId

/-- `score_points`: the points the filter keeps, scored where the raw scorer admits them, at
most `limit` of them (all of them for `limit = 0`). -/
def scorePoints (s : FilteredScorer) (pointIds : List PointOffsetType) (limit : ℕ) :
    List ScoredPointOffset :=
  let filteredPointIds := match s.filterContext with
    | none => pointIds
    | some f => pointIds.filter f
  let scores := s.rawScorer.admittedScores filteredPointIds
  if limit = 0 then scores else scores.take limit

/-- `score_point`. -/
def scorePoint (s : FilteredScorer) (pointId : PointOffsetType) : ℚ :=
  s.rawScorer.scorePoint pointId

/-- `score_internal`. -/
def scoreInternal (s : FilteredScorer) (pointA pointB : PointOffsetType) : ℚ :=
  s.rawScorer.scoreInternal pointA pointB

end FilteredScorer

/-! ## 2. The search -/

namespace Hnsw

/-- `SearchContext` of the graph search: the nearest points found so far, and the candidates
still to expand. -/
structure SearchContext where
  nearest : FixedLengthPriorityQueue ScoredPointOffset.score
  candidates : List ScoredPointOffset

namespace SearchContext

/-- `SearchContext::new`: the entry point is the first nearest point and the first candidate. -/
def new (entryPoint : ScoredPointOffset) (ef : ℕ) : Option SearchContext :=
  (FixedLengthPriorityQueue.new ScoredPointOffset.score ef).map fun nearest =>
    ⟨(nearest.push entryPoint).1, [entryPoint]⟩

/-- `lower_bound`: the score of the least nearest point; with none, the least score, which no
score is below. -/
def lowerBound (s : SearchContext) : WithBot ℚ :=
  match s.nearest.heap.getLast? with
  | none => ⊥
  | some worstOfTheBest => worstOfTheBest.score

/-- `process_candidate`: the point is pushed to the nearest ones, and becomes a candidate
unless the push gave it straight back. -/
def processCandidate (s : SearchContext) (scorePoint : ScoredPointOffset) : SearchContext :=
  let pushed := s.nearest.push scorePoint
  let wasAdded := match pushed.2 with
    | none => true
    | some removed => removed.idx != scorePoint.idx
  ⟨pushed.1, if wasAdded then s.candidates.orderedInsert (Above ScoredPointOffset.score) scorePoint
    else s.candidates⟩

end SearchContext

end Hnsw

namespace GraphLayersBuilder

/-- `get_m`. -/
def getM (b : GraphLayersBuilder) (level : ℕ) : ℕ := if level = 0 then b.m0 else b.m

/-- The number of links on a level: what bounds the points a search of the level moves to. -/
def linksCount (linksLayers : List (List (List PointOffsetType))) (level : ℕ) : ℕ :=
  (linksLayers.map fun layers => (layers.getD level []).length).sum

/-- The closure `links_map` runs in `_search_on_level`, on one link: the link is stamped, and
kept when it was not visited yet. -/
def visitLink (acc : List PointOffsetType × VisitedList) (link : PointOffsetType) :
    List PointOffsetType × VisitedList :=
  let r := acc.2.checkAndUpdateVisited link
  (if !r.2 then acc.1 ++ [link] else acc.1, r.1)

/-- The unvisited links of a point, in order, and the visited list after them. -/
def unvisitedLinks (visitedList : VisitedList) (links : List PointOffsetType) :
    List PointOffsetType × VisitedList :=
  links.foldl visitLink ([], visitedList)

/-- `_search_on_level`: the best candidate is expanded while it is not below the lower bound;
its unvisited links are scored and processed. -/
def searchOnLevelLoop (linksLayers : List (List (List PointOffsetType))) (level limit : ℕ)
    (pointsScorer : FilteredScorer) :
    ℕ → Hnsw.SearchContext → VisitedList → Hnsw.SearchContext × VisitedList
  | 0, searcher, visitedList => (searcher, visitedList)
  | fuel + 1, searcher, visitedList =>
    match searcher.candidates with
    | [] => (searcher, visitedList)
    | candidate :: candidates =>
      let searcher : Hnsw.SearchContext := ⟨searcher.nearest, candidates⟩
      if (candidate.score : WithBot ℚ) < searcher.lowerBound then (searcher, visitedList)
      else
        let pointsIds := unvisitedLinks visitedList (linksAt linksLayers candidate.idx level)
        let scores := pointsScorer.scorePoints pointsIds.1 limit
        searchOnLevelLoop linksLayers level limit pointsScorer fuel
          (scores.foldl Hnsw.SearchContext.processCandidate searcher) pointsIds.2

/-- `search_on_level`: the nearest points of the level from `level_entry`, with the point's
existing links offered as well; the visited list goes back to the pool. -/
def searchOnLevel (b : GraphLayersBuilder) (levelEntry : ScoredPointOffset) (level ef : ℕ)
    (pointsScorer : FilteredScorer) (existingLinks : List PointOffsetType) :
    Option (FixedLengthPriorityQueue ScoredPointOffset.score × VisitedPool) :=
  let got := b.visitedPool.get b.numPoints
  let visitedList := (got.1.checkAndUpdateVisited levelEntry.idx).1
  (Hnsw.SearchContext.new levelEntry ef).map fun searchContext =>
    let searched := searchOnLevelLoop b.linksLayers level (b.getM level) pointsScorer
      (linksCount b.linksLayers level + 1) searchContext visitedList
    let searchContext := existingLinks.foldl (fun searchContext existingLink =>
        if !searched.2.check existingLink then
          searchContext.processCandidate ⟨existingLink, pointsScorer.scorePoint existingLink⟩
        else searchContext)
      searched.1
    (searchContext.nearest, got.2.returnBack searched.2)

/-- `rev_range(a, b)`: from `a` down to `b + 1`. -/
def revRange (a b : ℕ) : List ℕ := (List.range' (b + 1) (a - b)).reverse

/-- One scored link offered to the greedy walk of `search_entry`: taken when it scores above the
current point, which sets `changed`. -/
def moveIfBetter (acc : ScoredPointOffset × Bool) (scorePoint : ScoredPointOffset) :
    ScoredPointOffset × Bool :=
  if acc.1.score < scorePoint.score then (scorePoint, true) else acc

/-- One level of `search_entry`: move to the best scored link while one scores above the
current point. -/
def searchEntryOnLevel (linksLayers : List (List (List PointOffsetType))) (level limit : ℕ)
    (pointsScorer : FilteredScorer) : ℕ → ScoredPointOffset → ScoredPointOffset
  | 0, currentPoint => currentPoint
  | fuel + 1, currentPoint =>
    let scores := pointsScorer.scorePoints (linksAt linksLayers currentPoint.idx level) limit
    let moved := scores.foldl moveIfBetter (currentPoint, false)
    if moved.2 then searchEntryOnLevel linksLayers level limit pointsScorer fuel moved.1
    else moved.1

/-- `search_entry`: greedy, from the entry point's level down to the level above the target. -/
def searchEntry (b : GraphLayersBuilder) (entryPoint : PointOffsetType) (topLevel targetLevel : ℕ)
    (pointsScorer : FilteredScorer) : ScoredPointOffset :=
  (revRange topLevel targetLevel).foldl (fun currentPoint level =>
      searchEntryOnLevel b.linksLayers level (b.getM level) pointsScorer
        (linksCount b.linksLayers level + 1) currentPoint)
    ⟨entryPoint, pointsScorer.scorePoint entryPoint⟩

/-! ## 3. Linking -/

/-- `get_point_level`: `none` where the source panics (no such point, or no level to count
down from). -/
def getPointLevel (b : GraphLayersBuilder) (pointId : PointOffsetType) : Option ℕ :=
  match b.linksLayers[pointId]? with
  | none => none
  | some layers => if layers.length = 0 then none else some (layers.length - 1)

/-- `set_levels`: empty points up to `point_id`, and empty levels up to `level` for it. -/
def setLevels (b : GraphLayersBuilder) (pointId : PointOffsetType) (level : ℕ) :
    GraphLayersBuilder :=
  let linksLayers := b.linksLayers ++ List.replicate (pointId + 1 - b.linksLayers.length) []
  let pointLayers := linksLayers.getD pointId []
  { b with
    linksLayers := linksLayers.set pointId
      (pointLayers ++ List.replicate (level + 1 - pointLayers.length) [])
    maxLevel := max b.maxLevel level }

/-- `links_layers[point_id][level].write()` given a new list. -/
def setLinks (linksLayers : List (List (List PointOffsetType))) (pointId level : ℕ)
    (links : List PointOffsetType) : List (List (List PointOffsetType)) :=
  linksLayers.modify pointId fun layers => layers.set level links

/-- `select_candidate_with_heuristic_from_sorted`: a candidate is kept unless it scores closer
to one already kept than to the new point; at most `m` are kept. -/
def selectCandidateWithHeuristicFromSorted (scoreInternal : PointOffsetType → PointOffsetType → ℚ)
    (m : ℕ) : List PointOffsetType → List ScoredPointOffset → List PointOffsetType
  | resultList, [] => resultList
  | resultList, currentClosest :: candidates =>
    if resultList.length ≥ m then resultList
    else
      let isGood := resultList.all fun selectedPoint =>
        !(currentClosest.score < scoreInternal currentClosest.idx selectedPoint)
      selectCandidateWithHeuristicFromSorted scoreInternal m
        (if isGood then resultList ++ [currentClosest.idx] else resultList) candidates

/-- The links of `other_point` after the new point links to it with the heuristic: pushed while
there is room, else chosen again among the new point and the first `level_m` old links,
sorted by descending score (`into_sorted_vec().into_iter().rev()`). -/
def backLinkWithHeuristic (pointsScorer : FilteredScorer) (pointId otherPoint : PointOffsetType)
    (levelM : ℕ) (otherPointLinks : List PointOffsetType) : List PointOffsetType :=
  if otherPointLinks.length < levelM then otherPointLinks ++ [pointId]
  else
    let candidates : List ScoredPointOffset :=
      ⟨pointId, pointsScorer.scoreInternal pointId otherPoint⟩ ::
        (otherPointLinks.take levelM).map fun otherPointLink =>
          ⟨otherPointLink, pointsScorer.scoreInternal otherPointLink otherPoint⟩
    selectCandidateWithHeuristicFromSorted pointsScorer.scoreInternal levelM []
      (candidates.insertionSort (Above ScoredPointOffset.score))

/-- One chosen point links back to the new point. -/
def linkBack (pointsScorer : FilteredScorer) (pointId : PointOffsetType) (level levelM : ℕ)
    (linksLayers : List (List (List PointOffsetType))) (otherPoint : PointOffsetType) :
    List (List (List PointOffsetType)) :=
  setLinks linksLayers otherPoint level
    (backLinkWithHeuristic pointsScorer pointId otherPoint levelM (linksAt linksLayers otherPoint level))

/-- With the heuristic: the new point takes the chosen nearest points, and each links back. -/
def linkWithHeuristic (pointsScorer : FilteredScorer) (pointId : PointOffsetType) (level levelM : ℕ)
    (nearestPoints : List ScoredPointOffset) (linksLayers : List (List (List PointOffsetType))) :
    List (List (List PointOffsetType)) :=
  let selectedNearest :=
    selectCandidateWithHeuristicFromSorted pointsScorer.scoreInternal levelM [] nearestPoints
  selectedNearest.foldl (linkBack pointsScorer pointId level levelM)
    (setLinks linksLayers pointId level selectedNearest)

/-- One nearest point linked without the heuristic: `connect_new_point` on both sides, and the
level entry moved to it when it scores higher. -/
def connectBoth (pointsScorer : FilteredScorer) (pointId : PointOffsetType) (level levelM : ℕ)
    (acc : List (List (List PointOffsetType)) × ScoredPointOffset) (nearestPoint : ScoredPointOffset) :
    List (List (List PointOffsetType)) × ScoredPointOffset :=
  let linksLayers := setLinks acc.1 pointId level
    (connectNewPoint (linksAt acc.1 pointId level) nearestPoint.idx pointId levelM
      pointsScorer.scoreInternal)
  let linksLayers := setLinks linksLayers nearestPoint.idx level
    (connectNewPoint (linksAt linksLayers nearestPoint.idx level) pointId nearestPoint.idx levelM
      pointsScorer.scoreInternal)
  (linksLayers, if acc.2.score < nearestPoint.score then nearestPoint else acc.2)

/-- Without the heuristic: both sides connected for each nearest point in turn. -/
def linkByScore (pointsScorer : FilteredScorer) (pointId : PointOffsetType) (level levelM : ℕ)
    (nearestPoints : List ScoredPointOffset) (linksLayers : List (List (List PointOffsetType)))
    (levelEntry : ScoredPointOffset) : List (List (List PointOffsetType)) × ScoredPointOffset :=
  nearestPoints.foldl (connectBoth pointsScorer pointId level levelM) (linksLayers, levelEntry)

/-- One level of the loop of `link_new_point`. -/
def linkOnLevel (b : GraphLayersBuilder) (pointId : PointOffsetType) (pointsScorer : FilteredScorer)
    (levelEntry : ScoredPointOffset) (currLevel : ℕ) : Option (GraphLayersBuilder × ScoredPointOffset) :=
  let levelM := b.getM currLevel
  (b.searchOnLevel levelEntry currLevel b.efConstruct pointsScorer
      (linksAt b.linksLayers pointId currLevel)).map fun searched =>
    if b.useHeuristic then
      ({ b with
          linksLayers := linkWithHeuristic pointsScorer pointId currLevel levelM searched.1.intoVec
            b.linksLayers
          visitedPool := searched.2 }, levelEntry)
    else
      let linked := linkByScore pointsScorer pointId currLevel levelM searched.1.intoVec
        b.linksLayers levelEntry
      ({ b with linksLayers := linked.1, visitedPool := searched.2 }, linked.2)

/-- The entry to the linking levels: the entry point found by `search_entry` when it stands
higher than the new point, else the entry point itself. -/
def levelEntryOf (b : GraphLayersBuilder) (pointId : PointOffsetType) (level : ℕ)
    (pointsScorer : FilteredScorer) (entryPoint : EntryPoint) : ScoredPointOffset :=
  if entryPoint.level > level then
    b.searchEntry entryPoint.pointId entryPoint.level level pointsScorer
  else ⟨entryPoint.pointId, pointsScorer.scoreInternal pointId entryPoint.pointId⟩

/-- `link_new_point`. -/
def linkNewPoint (b : GraphLayersBuilder) (pointId : PointOffsetType) (pointsScorer : FilteredScorer) :
    Option GraphLayersBuilder :=
  (b.getPointLevel pointId).bind fun level =>
    let added := b.entryPoints.newPoint pointId level pointsScorer.checkPoint
    let b := { b with entryPoints := added.1 }
    match added.2 with
    | none => some b
    | some entryPoint =>
      ((List.range (min level entryPoint.level + 1)).reverse.foldlM
          (fun (acc : GraphLayersBuilder × ScoredPointOffset) currLevel =>
            acc.1.linkOnLevel pointId pointsScorer acc.2 currLevel)
          (b, b.levelEntryOf pointId level pointsScorer entryPoint)).map Prod.fst

end GraphLayersBuilder

/-- A call on the builder while the graph is built. -/
inductive BuildCall where
  | setLevels (pointId : PointOffsetType) (level : ℕ)
  | linkNewPoint (pointId : PointOffsetType) (pointsScorer : FilteredScorer)

/-- The point a call links, if it links one. -/
def BuildCall.linkedPoint : BuildCall → Option PointOffsetType
  | .setLevels _ _ => none
  | .linkNewPoint pointId _ => some pointId

namespace GraphLayersBuilder

/-- One call; `none` where it panics. -/
def call (b : GraphLayersBuilder) : BuildCall → Option GraphLayersBuilder
  | .setLevels pointId level => some (b.setLevels pointId level)
  | .linkNewPoint pointId pointsScorer => b.linkNewPoint pointId pointsScorer

/-- The calls one after the other, up to the first that panics. -/
def run (b : GraphLayersBuilder) (calls : List BuildCall) : Option GraphLayersBuilder :=
  calls.foldlM call b

end GraphLayersBuilder

/-! ## 4. What the search finds -/

section Search

open GraphLayersBuilder

theorem map_idx_admittedScores (r : RawScorer) (points : List PointOffsetType) :
    (r.admittedScores points).map ScoredPointOffset.idx = points.filter r.checkPoint := by
  rw [RawScorer.admittedScores, List.map_map]
  exact List.map_id _

/-- The points `score_points` scores are some of the points it is given, in order. -/
theorem FilteredScorer.map_idx_scorePoints_sublist (s : FilteredScorer)
    (pointIds : List PointOffsetType) (limit : ℕ) :
    ((s.scorePoints pointIds limit).map ScoredPointOffset.idx).Sublist pointIds := by
  -- the filter, then the raw scorer's admission, then the limit: each keeps a sublist
  have hfiltered : (match s.filterContext with
      | none => pointIds
      | some f => pointIds.filter f).Sublist pointIds := by
    cases s.filterContext with
    | none => exact List.Sublist.refl _
    | some f => exact List.filter_sublist
  have hadmitted := (List.filter_sublist (p := s.rawScorer.checkPoint)).trans hfiltered
  unfold FilteredScorer.scorePoints
  dsimp only
  split_ifs
  · rw [map_idx_admittedScores]
    exact hadmitted
  · rw [List.map_take, map_idx_admittedScores]
    exact (List.take_sublist _ _).trans hadmitted

/-- The links the closure keeps from a list that stands for `V`: distinct, not in `V`, and
stamped, with those kept before. -/
theorem foldl_visitLink {pre : List PointOffsetType} {v : VisitedList} {V : Finset PointOffsetType}
    (hv : v.StandsFor V) (hpre : pre.Nodup) (hpreV : ∀ q ∈ pre, q ∈ V) (links : List PointOffsetType) :
    (links.foldl visitLink (pre, v)).2.StandsFor (V ∪ links.toFinset) ∧
      (links.foldl visitLink (pre, v)).1.Nodup ∧
      ∀ q ∈ (links.foldl visitLink (pre, v)).1, q ∈ pre ∨ (q ∈ links ∧ q ∉ V) := by
  induction links generalizing pre v V with
  | nil => exact ⟨by simpa using hv, hpre, fun q hq => .inl hq⟩
  | cons x rest ih =>
    obtain ⟨hstands, hanswer⟩ := hv.checkAndUpdateVisited x
    -- the link is kept exactly when it was not in `V`
    have hstep : visitLink (pre, v) x =
        (if x ∈ V then pre else pre ++ [x], (v.checkAndUpdateVisited x).1) := by
      by_cases hx : x ∈ V <;> simp [visitLink, hanswer, hx]
    have hpre' : (if x ∈ V then pre else pre ++ [x]).Nodup := by
      split_ifs with hx
      · exact hpre
      · exact List.nodup_append.mpr ⟨hpre, List.nodup_singleton x,
          fun a ha b hb hab => hx (List.mem_singleton.mp hb ▸ hab ▸ hpreV a ha)⟩
    have hpreV' : ∀ q ∈ (if x ∈ V then pre else pre ++ [x]), q ∈ insert x V := by
      intro q hq
      split_ifs at hq
      · exact Finset.mem_insert_of_mem (hpreV q hq)
      · rcases List.mem_append.mp hq with hq | hq
        · exact Finset.mem_insert_of_mem (hpreV q hq)
        · rw [List.mem_singleton.mp hq]
          exact Finset.mem_insert_self x V
    obtain ⟨hv', hnodup, hmem⟩ := ih hstands hpre' hpreV'
    rw [List.foldl_cons, hstep]
    refine ⟨?_, hnodup, fun q hq => ?_⟩
    · have hset : insert x V ∪ rest.toFinset = V ∪ (x :: rest).toFinset := by
        ext y
        simp only [Finset.mem_union, Finset.mem_insert, List.mem_toFinset, List.mem_cons]
        tauto
      rwa [← hset]
    · rcases hmem q hq with hq' | ⟨hrest, hnot⟩
      · split_ifs at hq' with hx
        · exact .inl hq'
        · rcases List.mem_append.mp hq' with hq' | hq'
          · exact .inl hq'
          · rw [List.mem_singleton.mp hq']
            exact .inr ⟨List.mem_cons_self, hx⟩
      · exact .inr ⟨List.mem_cons_of_mem x hrest, fun hV => hnot (Finset.mem_insert_of_mem hV)⟩

theorem unvisitedLinks_spec {v : VisitedList} {V : Finset PointOffsetType} (hv : v.StandsFor V)
    (links : List PointOffsetType) :
    (unvisitedLinks v links).2.StandsFor (V ∪ links.toFinset) ∧ (unvisitedLinks v links).1.Nodup ∧
      ∀ q ∈ (unvisitedLinks v links).1, q ∈ links ∧ q ∉ V := by
  obtain ⟨hv', hnodup, hmem⟩ := foldl_visitLink hv List.nodup_nil (fun _ h => absurd h List.not_mem_nil) links
  refine ⟨hv', hnodup, fun q hq => ?_⟩
  rcases hmem q hq with h | h
  · exact absurd h List.not_mem_nil
  · exact h

theorem subperm_map {α β : Type} (f : α → β) {l₁ l₂ : List α} (h : l₁.Subperm l₂) :
    (l₁.map f).Subperm (l₂.map f) := by
  obtain ⟨l, hperm, hsub⟩ := h
  exact ⟨l.map f, hperm.map f, hsub.map f⟩

theorem nodup_of_subperm {α : Type} [DecidableEq α] {l₁ l₂ : List α} (h : l₁.Subperm l₂)
    (hnodup : l₂.Nodup) : l₁.Nodup :=
  List.nodup_iff_count_le_one.mpr fun a =>
    (h.count_le a).trans (List.nodup_iff_count_le_one.mp hnodup a)

/-- The points kept after `process_candidate` are among those kept before and the new one. -/
theorem nearest_processCandidate (s : Hnsw.SearchContext) (scorePoint : ScoredPointOffset) :
    (s.processCandidate scorePoint).nearest.heap.Subperm (s.nearest.heap ++ [scorePoint]) :=
  (List.sublist_append_left _ _).subperm.trans (s.nearest.push_perm scorePoint).subperm

theorem nearest_foldl_processCandidate (scorePoints : List ScoredPointOffset) (s : Hnsw.SearchContext) :
    (scorePoints.foldl Hnsw.SearchContext.processCandidate s).nearest.heap.Subperm
      (s.nearest.heap ++ scorePoints) := by
  induction scorePoints generalizing s with
  | nil => simpa using List.Subperm.refl _
  | cons scorePoint rest ih =>
    rw [List.foldl_cons]
    refine (ih _).trans ?_
    have hstep := (List.subperm_append_right rest).mpr (nearest_processCandidate s scorePoint)
    rwa [List.append_assoc, List.singleton_append] at hstep

/-- What the search loop keeps track of: the visited list stands for `V`; every point pushed
so far (`pushed`) is visited, linked (in `S`) and pushed once; the nearest points are among
them. -/
structure SearchInv (S : Set PointOffsetType) (V : Finset PointOffsetType)
    (pushed : List PointOffsetType) (searcher : Hnsw.SearchContext) (v : VisitedList) : Prop where
  standsFor : v.StandsFor V
  pushed_nodup : pushed.Nodup
  pushed_visited : ∀ q ∈ pushed, q ∈ V
  pushed_linked : ∀ q ∈ pushed, q ∈ S
  nearest_subperm : (searcher.nearest.heap.map ScoredPointOffset.idx).Subperm pushed

variable {linksLayers : List (List (List PointOffsetType))} {level : ℕ} {S : Set PointOffsetType}

/-- One expansion: the unvisited links of the candidate are pushed once each. -/
theorem SearchInv.expand {V : Finset PointOffsetType} {pushed : List PointOffsetType}
    {searcher : Hnsw.SearchContext} {v : VisitedList} (h : SearchInv S V pushed searcher v)
    (hlinks : ∀ x, ∀ q ∈ linksAt linksLayers x level, q ∈ S) (pointsScorer : FilteredScorer)
    (limit : ℕ) (candidate : PointOffsetType) :
    let pointsIds := unvisitedLinks v (linksAt linksLayers candidate level)
    let scores := pointsScorer.scorePoints pointsIds.1 limit
    SearchInv S (V ∪ (linksAt linksLayers candidate level).toFinset)
      (pushed ++ scores.map ScoredPointOffset.idx)
      (scores.foldl Hnsw.SearchContext.processCandidate searcher) pointsIds.2 := by
  intro pointsIds scores
  obtain ⟨hv', hnodup, hmem⟩ := unvisitedLinks_spec h.standsFor (linksAt linksLayers candidate level)
  have hsub := pointsScorer.map_idx_scorePoints_sublist pointsIds.1 limit
  -- a scored point is an unvisited link of the candidate
  have hscored : ∀ q ∈ scores.map ScoredPointOffset.idx,
      q ∈ linksAt linksLayers candidate level ∧ q ∉ V := fun q hq => hmem q (hsub.subset hq)
  refine ⟨hv', ?_, fun q hq => ?_, fun q hq => ?_, ?_⟩
  · refine List.nodup_append.mpr ⟨h.pushed_nodup, hnodup.sublist hsub, ?_⟩
    intro a ha b hb hab
    exact (hscored b hb).2 (hab ▸ h.pushed_visited a ha)
  · rcases List.mem_append.mp hq with hq | hq
    · exact Finset.mem_union_left _ (h.pushed_visited q hq)
    · exact Finset.mem_union_right _ (List.mem_toFinset.mpr (hscored q hq).1)
  · rcases List.mem_append.mp hq with hq | hq
    · exact h.pushed_linked q hq
    · exact hlinks candidate q (hscored q hq).1
  · have hnearest := subperm_map ScoredPointOffset.idx (nearest_foldl_processCandidate scores searcher)
    rw [List.map_append] at hnearest
    exact hnearest.trans ((List.subperm_append_right _).mpr h.nearest_subperm)

/-- The search loop keeps its invariant, whatever its fuel. -/
theorem searchOnLevelLoop_spec (hlinks : ∀ x, ∀ q ∈ linksAt linksLayers x level, q ∈ S)
    (pointsScorer : FilteredScorer) (limit : ℕ) :
    ∀ (fuel : ℕ) (searcher : Hnsw.SearchContext) (v : VisitedList) (V : Finset PointOffsetType)
      (pushed : List PointOffsetType), SearchInv S V pushed searcher v →
      ∃ V' pushed', SearchInv S V' pushed'
        (searchOnLevelLoop linksLayers level limit pointsScorer fuel searcher v).1
        (searchOnLevelLoop linksLayers level limit pointsScorer fuel searcher v).2
  | 0, searcher, v, V, pushed, h => ⟨V, pushed, h⟩
  | fuel + 1, searcher, v, V, pushed, h => by
    rw [searchOnLevelLoop]
    cases hcandidates : searcher.candidates with
    | nil => exact ⟨V, pushed, h⟩
    | cons candidate candidates =>
      -- popping a candidate leaves the nearest points as they are
      have hpop : SearchInv S V pushed ⟨searcher.nearest, candidates⟩ v :=
        ⟨h.standsFor, h.pushed_nodup, h.pushed_visited, h.pushed_linked, h.nearest_subperm⟩
      dsimp only
      split_ifs
      · exact ⟨V, pushed, hpop⟩
      · exact searchOnLevelLoop_spec hlinks pointsScorer limit fuel _ _ _ _
          (hpop.expand hlinks pointsScorer limit candidate.idx)

/-- **What the search finds.** On a level whose links all go to points of `S`, from an entry
in `S` and with distinct existing links in `S`, `search_on_level` keeps distinct points of `S`. -/
theorem searchOnLevel_spec {b : GraphLayersBuilder} {levelEntry : ScoredPointOffset} {ef : ℕ}
    {pointsScorer : FilteredScorer} {existingLinks : List PointOffsetType}
    (hlinks : ∀ x, ∀ q ∈ linksAt b.linksLayers x level, q ∈ S) (hentry : levelEntry.idx ∈ S)
    (hexisting : existingLinks.Nodup) (hexistingS : ∀ q ∈ existingLinks, q ∈ S)
    {result : FixedLengthPriorityQueue ScoredPointOffset.score × VisitedPool}
    (h : b.searchOnLevel levelEntry level ef pointsScorer existingLinks = some result) :
    (result.1.heap.map ScoredPointOffset.idx).Nodup ∧ ∀ sp ∈ result.1.heap, sp.idx ∈ S := by
  unfold searchOnLevel at h
  obtain ⟨searchContext, hnew, rfl⟩ := Option.map_eq_some_iff.mp h
  obtain ⟨queue, hqueue, rfl⟩ := Option.map_eq_some_iff.mp hnew
  have hempty : queue.heap = [] := by
    unfold FixedLengthPriorityQueue.new at hqueue
    split_ifs at hqueue
    cases hqueue
    rfl
  -- the search starts with the entry visited and kept
  obtain ⟨hstands, -⟩ :=
    (VisitedPool.get_standsFor_empty b.visitedPool b.numPoints).checkAndUpdateVisited levelEntry.idx
  have hinit : SearchInv S {levelEntry.idx} [levelEntry.idx]
      ⟨(queue.push levelEntry).1, [levelEntry]⟩
      ((b.visitedPool.get b.numPoints).1.checkAndUpdateVisited levelEntry.idx).1 := by
    refine ⟨by simpa using hstands, List.nodup_singleton _, fun q hq => ?_, fun q hq => ?_, ?_⟩
    · rw [List.mem_singleton.mp hq]
      exact Finset.mem_singleton_self _
    · rw [List.mem_singleton.mp hq]
      exact hentry
    · have hpush := (List.sublist_append_left _ _).subperm.trans (queue.push_perm levelEntry).subperm
      rw [hempty, List.nil_append] at hpush
      exact subperm_map ScoredPointOffset.idx hpush
  obtain ⟨V, pushed, hsearched⟩ := searchOnLevelLoop_spec hlinks pointsScorer (b.getM level)
    (linksCount b.linksLayers level + 1) _ _ _ _ hinit
  set searched := searchOnLevelLoop b.linksLayers level (b.getM level) pointsScorer
    (linksCount b.linksLayers level + 1) ⟨(queue.push levelEntry).1, [levelEntry]⟩
    ((b.visitedPool.get b.numPoints).1.checkAndUpdateVisited levelEntry.idx).1
  -- the existing links offered are those not visited, each pushed once
  set offered := existingLinks.filter fun existingLink => !searched.2.check existingLink
  have hfold : existingLinks.foldl (fun searchContext existingLink =>
        if !searched.2.check existingLink then
          searchContext.processCandidate ⟨existingLink, pointsScorer.scorePoint existingLink⟩
        else searchContext) searched.1 =
      (offered.map fun existingLink => (⟨existingLink, pointsScorer.scorePoint existingLink⟩ :
        ScoredPointOffset)).foldl Hnsw.SearchContext.processCandidate searched.1 := by
    rw [List.foldl_map, List.foldl_filter]
  have hoffered : ∀ q ∈ offered, q ∈ existingLinks ∧ q ∉ V := by
    intro q hq
    obtain ⟨hmem, hcheck⟩ := List.mem_filter.mp hq
    rw [hsearched.standsFor.check, Bool.not_eq_true', decide_eq_false_iff_not] at hcheck
    exact ⟨hmem, hcheck⟩
  have hnearest := subperm_map ScoredPointOffset.idx (nearest_foldl_processCandidate
    (offered.map fun existingLink => (⟨existingLink, pointsScorer.scorePoint existingLink⟩ :
      ScoredPointOffset)) searched.1)
  rw [List.map_append, List.map_map] at hnearest
  have hids : (offered.map (ScoredPointOffset.idx ∘ fun existingLink =>
      (⟨existingLink, pointsScorer.scorePoint existingLink⟩ : ScoredPointOffset))) = offered :=
    List.map_id _
  rw [hids] at hnearest
  have hall := hnearest.trans ((List.subperm_append_right offered).mpr hsearched.nearest_subperm)
  dsimp only
  rw [hfold]
  refine ⟨nodup_of_subperm hall (List.nodup_append.mpr ⟨hsearched.pushed_nodup,
    hexisting.sublist List.filter_sublist, ?_⟩), fun sp hsp => ?_⟩
  · intro a ha c hc hac
    exact (hoffered c hc).2 (hac ▸ hsearched.pushed_visited a ha)
  · rcases List.mem_append.mp (hall.subset (List.mem_map_of_mem hsp)) with hq | hq
    · exact hsearched.pushed_linked _ hq
    · exact hexistingS _ (hoffered _ hq).1

theorem foldl_moveIfBetter_linked (scores : List ScoredPointOffset) (hscores : ∀ sp ∈ scores, sp.idx ∈ S) :
    ∀ acc : ScoredPointOffset × Bool, acc.1.idx ∈ S → (scores.foldl moveIfBetter acc).1.idx ∈ S := by
  induction scores with
  | nil => exact fun _ h => h
  | cons scorePoint rest ih =>
    intro acc hacc
    rw [List.foldl_cons]
    refine ih (fun sp hsp => hscores sp (List.mem_cons_of_mem _ hsp)) _ ?_
    unfold moveIfBetter
    split_ifs
    · exact hscores scorePoint List.mem_cons_self
    · exact hacc

/-- The greedy walk of one level stays on points of `S` when the level's links do. -/
theorem searchEntryOnLevel_linked (hlinks : ∀ x, ∀ q ∈ linksAt linksLayers x level, q ∈ S)
    (pointsScorer : FilteredScorer) (limit : ℕ) :
    ∀ (fuel : ℕ) (currentPoint : ScoredPointOffset), currentPoint.idx ∈ S →
      (searchEntryOnLevel linksLayers level limit pointsScorer fuel currentPoint).idx ∈ S
  | 0, _, hcurrent => hcurrent
  | fuel + 1, currentPoint, hcurrent => by
    have hscores : ∀ sp ∈ pointsScorer.scorePoints (linksAt linksLayers currentPoint.idx level) limit,
        sp.idx ∈ S := fun sp hsp =>
      hlinks currentPoint.idx sp.idx ((pointsScorer.map_idx_scorePoints_sublist _ limit).subset
        (List.mem_map_of_mem hsp))
    have hmoved := foldl_moveIfBetter_linked _ hscores (currentPoint, false) hcurrent
    rw [searchEntryOnLevel]
    split_ifs
    · exact searchEntryOnLevel_linked hlinks pointsScorer limit fuel _ hmoved
    · exact hmoved

end Search

/-- `search_entry` ends on a point of `S` when it starts on one and every link goes to one. -/
theorem GraphLayersBuilder.searchEntry_linked {b : GraphLayersBuilder} {S : Set PointOffsetType}
    (hlinks : ∀ x level, ∀ q ∈ linksAt b.linksLayers x level, q ∈ S) {entryPoint : PointOffsetType}
    (hentry : entryPoint ∈ S) (topLevel targetLevel : ℕ) (pointsScorer : FilteredScorer) :
    (b.searchEntry entryPoint topLevel targetLevel pointsScorer).idx ∈ S := by
  unfold searchEntry
  -- each level's walk starts where the one above ended
  suffices hwalk : ∀ (levels : List ℕ) (start : ScoredPointOffset), start.idx ∈ S →
      (levels.foldl (fun currentPoint level =>
        searchEntryOnLevel b.linksLayers level (b.getM level) pointsScorer
          (linksCount b.linksLayers level + 1) currentPoint) start).idx ∈ S from
    hwalk _ _ hentry
  intro levels
  induction levels with
  | nil => exact fun _ h => h
  | cons level rest ih =>
    intro start hstart
    rw [List.foldl_cons]
    exact ih _ (searchEntryOnLevel_linked (fun x => hlinks x level) pointsScorer _ _ _ hstart)

/-! ## 5. Lists of links the bound allows -/

/-- A list of links of point `x` that the bound allows: at most `levelM` links, none to `x`,
no link twice, and each to a point of `S`. -/
structure LinksOk (S : Set PointOffsetType) (x : PointOffsetType) (levelM : ℕ)
    (links : List PointOffsetType) : Prop where
  length_le : links.length ≤ levelM
  not_self : x ∉ links
  nodup : links.Nodup
  linked : ∀ q ∈ links, q ∈ S

/-- The links of one level, for the points `S` linked so far: every list allowed, and no links
for a point not linked. -/
structure LevelOk (linksLayers : List (List (List PointOffsetType))) (S : Set PointOffsetType)
    (level levelM : ℕ) : Prop where
  links_ok : ∀ x, LinksOk S x levelM (GraphLayersBuilder.linksAt linksLayers x level)
  unlinked : ∀ x ∉ S, GraphLayersBuilder.linksAt linksLayers x level = []

/-- The builder's invariant, for the points `S` linked so far: every level is ok, and the main
entry points are linked. -/
structure BuilderOk (b : GraphLayersBuilder) (S : Set PointOffsetType) : Prop where
  level_ok : ∀ level, LevelOk b.linksLayers S level (b.getM level)
  entry_linked : ∀ e ∈ b.entryPoints.entryPoints, e.pointId ∈ S

section Links

open GraphLayersBuilder

variable {S S' : Set PointOffsetType} {x : PointOffsetType} {levelM : ℕ}
  {linksLayers linksLayers' : List (List (List PointOffsetType))} {level : ℕ}

theorem LinksOk.nil : LinksOk S x levelM [] :=
  ⟨Nat.zero_le _, List.not_mem_nil, List.nodup_nil, fun _ h => absurd h List.not_mem_nil⟩

theorem LinksOk.mono {links : List PointOffsetType} (h : LinksOk S x levelM links) (hS : S ⊆ S') :
    LinksOk S' x levelM links :=
  ⟨h.length_le, h.not_self, h.nodup, fun q hq => hS (h.linked q hq)⟩

theorem LevelOk.mono (h : LevelOk linksLayers S level levelM) (hS : S ⊆ S') :
    LevelOk linksLayers S' level levelM :=
  ⟨fun x => (h.links_ok x).mono hS, fun x hx => h.unlinked x fun hxS => hx (hS hxS)⟩

/-- A level is ok as soon as its lists are those of an ok level. -/
theorem LevelOk.congr (h : LevelOk linksLayers S level levelM)
    (hsame : ∀ x, linksAt linksLayers' x level = linksAt linksLayers x level) :
    LevelOk linksLayers' S level levelM :=
  ⟨fun x => hsame x ▸ h.links_ok x, fun x hx => (hsame x).trans (h.unlinked x hx)⟩

theorem getD_setLinks (pointId : PointOffsetType) (links : List PointOffsetType) (y : PointOffsetType) :
    (setLinks linksLayers pointId level links).getD y [] =
      if y = pointId then (linksLayers.getD pointId []).set level links else linksLayers.getD y [] := by
  unfold setLinks
  by_cases hy : y = pointId
  · subst hy
    simp only [List.getD_eq_getElem?_getD, List.getElem?_modify, if_true]
    cases linksLayers[y]? <;> rfl
  · simp only [List.getD_eq_getElem?_getD, List.getElem?_modify, if_neg (Ne.symm hy), if_neg hy]
    cases linksLayers[y]? <;> rfl

/-- Writing the links of one point on one level leaves every other list as it was. -/
theorem linksAt_setLinks_of_ne {pointId y : PointOffsetType} (links : List PointOffsetType) (l : ℕ)
    (h : y ≠ pointId ∨ l ≠ level) :
    linksAt (setLinks linksLayers pointId level links) y l = linksAt linksLayers y l := by
  unfold linksAt
  rw [getD_setLinks]
  split_ifs with hy
  · subst hy
    have hl : l ≠ level := h.resolve_left (not_not.mpr rfl)
    rw [List.getD_eq_getElem?_getD, List.getElem?_set_ne (Ne.symm hl), ← List.getD_eq_getElem?_getD]
  · rfl

/-- The list written, unless the point or its level is missing, where it reads as empty. -/
theorem linksAt_setLinks_self (pointId : PointOffsetType) (links : List PointOffsetType) :
    linksAt (setLinks linksLayers pointId level links) pointId level =
      if level < (linksLayers.getD pointId []).length then links else [] := by
  unfold linksAt
  rw [getD_setLinks, if_pos rfl, List.getD_eq_getElem?_getD]
  split_ifs with hlevel
  · rw [List.getElem?_set_self hlevel]
    rfl
  · have hout : ((linksLayers.getD pointId []).set level links).length ≤ level := by
      rw [List.length_set]
      omega
    rw [List.getElem?_eq_none hout]
    rfl

theorem LinksOk.setLinks_self {pointId : PointOffsetType} {links : List PointOffsetType}
    (h : LinksOk S pointId levelM links) :
    LinksOk S pointId levelM (linksAt (setLinks linksLayers pointId level links) pointId level) := by
  rw [linksAt_setLinks_self]
  split_ifs
  · exact h
  · exact LinksOk.nil

theorem mem_linksAt_setLinks_self {pointId q : PointOffsetType} {links : List PointOffsetType}
    (hq : q ∈ linksAt (setLinks linksLayers pointId level links) pointId level) : q ∈ links := by
  rw [linksAt_setLinks_self] at hq
  split_ifs at hq
  · exact hq
  · exact absurd hq List.not_mem_nil

/-- Nothing changes off `level`. -/
def SameOffLevel (level : ℕ) (linksLayers linksLayers' : List (List (List PointOffsetType))) : Prop :=
  ∀ x l, l ≠ level → linksAt linksLayers' x l = linksAt linksLayers x l

theorem SameOffLevel.refl : SameOffLevel level linksLayers linksLayers := fun _ _ _ => rfl

theorem SameOffLevel.trans {linksLayers'' : List (List (List PointOffsetType))}
    (h₁ : SameOffLevel level linksLayers linksLayers') (h₂ : SameOffLevel level linksLayers' linksLayers'') :
    SameOffLevel level linksLayers linksLayers'' :=
  fun x l hl => (h₂ x l hl).trans (h₁ x l hl)

theorem sameOffLevel_setLinks (pointId : PointOffsetType) (links : List PointOffsetType) :
    SameOffLevel level linksLayers (setLinks linksLayers pointId level links) :=
  fun _ l hl => linksAt_setLinks_of_ne links l (.inr hl)

/-! ## 6. One level -/

/-- The heuristic keeps some of the candidates, in order, after the points it started with. -/
theorem selectCandidateWithHeuristicFromSorted_sublist
    (scoreInternal : PointOffsetType → PointOffsetType → ℚ) (m : ℕ) :
    ∀ (resultList : List PointOffsetType) (candidates : List ScoredPointOffset),
      (selectCandidateWithHeuristicFromSorted scoreInternal m resultList candidates).Sublist
        (resultList ++ candidates.map ScoredPointOffset.idx)
  | resultList, [] => by simp [selectCandidateWithHeuristicFromSorted]
  | resultList, currentClosest :: candidates => by
    rw [selectCandidateWithHeuristicFromSorted, List.map_cons]
    split_ifs
    · exact List.sublist_append_left _ _
    · dsimp only
      split_ifs
      · have hrest := selectCandidateWithHeuristicFromSorted_sublist scoreInternal m
          (resultList ++ [currentClosest.idx]) candidates
        rwa [List.append_assoc, List.singleton_append] at hrest
      · exact (selectCandidateWithHeuristicFromSorted_sublist scoreInternal m resultList candidates).trans
          ((List.sublist_cons_self _ _).append_left resultList)

/-- The heuristic keeps at most `m` points. -/
theorem length_selectCandidateWithHeuristicFromSorted_le
    (scoreInternal : PointOffsetType → PointOffsetType → ℚ) (m : ℕ) :
    ∀ (resultList : List PointOffsetType) (candidates : List ScoredPointOffset),
      resultList.length ≤ m →
      (selectCandidateWithHeuristicFromSorted scoreInternal m resultList candidates).length ≤ m
  | resultList, [], h => h
  | resultList, currentClosest :: candidates, h => by
    rw [selectCandidateWithHeuristicFromSorted]
    split_ifs with hfull
    · exact h
    · dsimp only
      apply length_selectCandidateWithHeuristicFromSorted_le
      split_ifs
      · rw [List.length_append, List.length_singleton]
        omega
      · exact h

/-- What the heuristic chooses from distinct candidates of `S`, none of them `x`, is a list of
links of `x` the bound allows. -/
theorem LinksOk.of_selectCandidateWithHeuristicFromSorted {ids : List PointOffsetType} (hids : ids.Nodup)
    (hx : x ∉ ids) (hS : ∀ q ∈ ids, q ∈ S) {candidates : List ScoredPointOffset}
    (hperm : (candidates.map ScoredPointOffset.idx).Perm ids)
    (scoreInternal : PointOffsetType → PointOffsetType → ℚ) :
    LinksOk S x levelM (selectCandidateWithHeuristicFromSorted scoreInternal levelM [] candidates) := by
  have hsub := selectCandidateWithHeuristicFromSorted_sublist scoreInternal levelM [] candidates
  rw [List.nil_append] at hsub
  have hmem : ∀ q ∈ selectCandidateWithHeuristicFromSorted scoreInternal levelM [] candidates,
      q ∈ ids := fun q hq => hperm.subset (hsub.subset hq)
  exact ⟨length_selectCandidateWithHeuristicFromSorted_le scoreInternal levelM [] candidates
      (Nat.zero_le _), fun hq => hx (hmem x hq), (hperm.nodup_iff.mpr hids).sublist hsub,
    fun q hq => hS q (hmem q hq)⟩

theorem mem_connectNewPoint {links : List PointOffsetType} (hlen : links.length ≤ levelM)
    {newPointId targetPointId q : PointOffsetType}
    {scoreInternal : PointOffsetType → PointOffsetType → ℚ}
    (hq : q ∈ connectNewPoint links newPointId targetPointId levelM scoreInternal) :
    q = newPointId ∨ q ∈ links := by
  rw [connectNewPoint_eq hlen] at hq
  exact List.mem_cons.mp ((List.perm_orderedInsert _ _ _).subset (List.mem_of_mem_take hq))

/-- `connect_new_point` of a new link to a point of `S`, other than the list's own point and
not in it yet, keeps the list allowed. -/
theorem LinksOk.of_connectNewPoint {links : List PointOffsetType} (h : LinksOk S x levelM links)
    {newPointId : PointOffsetType} (hnew : newPointId ∈ S) (hself : newPointId ≠ x)
    (hfresh : newPointId ∉ links) (targetPointId : PointOffsetType)
    (scoreInternal : PointOffsetType → PointOffsetType → ℚ) :
    LinksOk S x levelM (connectNewPoint links newPointId targetPointId levelM scoreInternal) := by
  have heq := connectNewPoint_eq h.length_le newPointId targetPointId scoreInternal
  refine ⟨?_, fun hx => ?_, ?_, fun q hq => ?_⟩
  · rw [heq]
    exact List.length_take_le _ _
  · rcases mem_connectNewPoint h.length_le hx with hx | hx
    · exact hself hx.symm
    · exact h.not_self hx
  · rw [heq]
    exact ((List.perm_orderedInsert _ _ _).nodup_iff.mpr
      (List.nodup_cons.mpr ⟨hfresh, h.nodup⟩)).sublist (List.take_sublist _ _)
  · rcases mem_connectNewPoint h.length_le hq with rfl | hq
    · exact hnew
    · exact h.linked q hq

/-- The list of a point the new point links to with the heuristic, after it links back. -/
theorem LinksOk.of_backLinkWithHeuristic {pointId otherPoint : PointOffsetType} {links : List PointOffsetType}
    (h : LinksOk S otherPoint levelM links) (hp : pointId ∉ S) (hne : pointId ≠ otherPoint)
    (pointsScorer : FilteredScorer) :
    LinksOk (insert pointId S) otherPoint levelM
      (backLinkWithHeuristic pointsScorer pointId otherPoint levelM links) := by
  have hfresh : pointId ∉ links := fun hmem => hp (h.linked _ hmem)
  unfold backLinkWithHeuristic
  split_ifs with hroom
  · -- room left: the new point is pushed
    refine ⟨by rw [List.length_append, List.length_singleton]; omega, fun hx => ?_, ?_, fun q hq => ?_⟩
    · rcases List.mem_append.mp hx with hx | hx
      · exact h.not_self hx
      · exact hne (List.mem_singleton.mp hx).symm
    · exact List.nodup_append.mpr ⟨h.nodup, List.nodup_singleton _,
        fun a ha b hb hab => hfresh (List.mem_singleton.mp hb ▸ hab ▸ ha)⟩
    · rcases List.mem_append.mp hq with hq | hq
      · exact Set.mem_insert_of_mem _ (h.linked q hq)
      · rw [List.mem_singleton.mp hq]
        exact Set.mem_insert _ _
  · -- a full list: the heuristic chooses among the new point and the first `level_m` links
    dsimp only
    have hids : (pointId :: links.take levelM).Nodup :=
      List.nodup_cons.mpr ⟨fun hmem => hfresh (List.mem_of_mem_take hmem),
        h.nodup.sublist (List.take_sublist _ _)⟩
    refine LinksOk.of_selectCandidateWithHeuristicFromSorted hids ?_ ?_ ?_ _
    · rintro (_ | ⟨_, hx⟩)
      · exact hne rfl
      · exact h.not_self (List.mem_of_mem_take hx)
    · rintro q (_ | ⟨_, hq⟩)
      · exact Set.mem_insert _ _
      · exact Set.mem_insert_of_mem _ (h.linked q (List.mem_of_mem_take hq))
    · refine ((List.perm_insertionSort _ _).map ScoredPointOffset.idx).trans ?_
      simp [List.map_map, Function.comp_def]

variable {ll₀ : List (List (List PointOffsetType))} {pointId : PointOffsetType}

/-- The back links of the chosen points, one after the other: each chosen point still has its
list from before the level was linked when its turn comes. -/
theorem foldl_linkBack_levelOk (h₀ : LevelOk ll₀ S level levelM) (hp : pointId ∉ S)
    (pointsScorer : FilteredScorer) :
    ∀ (others : List PointOffsetType) (linksLayers : List (List (List PointOffsetType))),
      others.Nodup → (∀ o ∈ others, o ∈ S) →
      (∀ x, LinksOk (insert pointId S) x levelM (linksAt linksLayers x level)) →
      (∀ o ∈ others, linksAt linksLayers o level = linksAt ll₀ o level) →
      (∀ x ∉ insert pointId S, linksAt linksLayers x level = []) →
      LevelOk (others.foldl (linkBack pointsScorer pointId level levelM) linksLayers)
          (insert pointId S) level levelM ∧
        SameOffLevel level linksLayers (others.foldl (linkBack pointsScorer pointId level levelM) linksLayers)
  | [], linksLayers, _, _, hall, _, hunlinked => ⟨⟨hall, hunlinked⟩, SameOffLevel.refl⟩
  | o :: rest, linksLayers, hnodup, hothers, hall, hbefore, hunlinked => by
    rw [List.nodup_cons] at hnodup
    have ho : o ∈ S := hothers o List.mem_cons_self
    have hop : o ≠ pointId := fun h => hp (h ▸ ho)
    -- the chosen point's list, from before the level, after it links back
    have hback : LinksOk (insert pointId S) o levelM
        (linksAt (linkBack pointsScorer pointId level levelM linksLayers o) o level) := by
      rw [linkBack]
      refine LinksOk.setLinks_self ?_
      rw [hbefore o List.mem_cons_self]
      exact (h₀.links_ok o).of_backLinkWithHeuristic hp hop.symm pointsScorer
    have hother : ∀ x ≠ o, linksAt (linkBack pointsScorer pointId level levelM linksLayers o) x level =
        linksAt linksLayers x level := fun x hx => linksAt_setLinks_of_ne _ _ (.inl hx)
    rw [List.foldl_cons]
    obtain ⟨hok, hsame⟩ := foldl_linkBack_levelOk h₀ hp pointsScorer rest _ hnodup.2
      (fun o' ho' => hothers o' (List.mem_cons_of_mem o ho'))
      (fun x => by
        by_cases hx : x = o
        · rw [hx]
          exact hback
        · rw [hother x hx]
          exact hall x)
      (fun o' ho' => (hother o' fun h => hnodup.1 (h ▸ ho')).trans
        (hbefore o' (List.mem_cons_of_mem o ho')))
      (fun x hx => (hother x fun h => hx (h ▸ Set.mem_insert_of_mem _ ho)).trans (hunlinked x hx))
    exact ⟨hok, (sameOffLevel_setLinks _ _).trans hsame⟩

/-- **With the heuristic**, a level stays ok when the new point, not linked before, is linked
to distinct nearest points of `S`. -/
theorem linkWithHeuristic_levelOk (h : LevelOk linksLayers S level levelM) (hp : pointId ∉ S)
    {nearestPoints : List ScoredPointOffset}
    (hnodup : (nearestPoints.map ScoredPointOffset.idx).Nodup)
    (hnearest : ∀ sp ∈ nearestPoints, sp.idx ∈ S) (pointsScorer : FilteredScorer) :
    LevelOk (linkWithHeuristic pointsScorer pointId level levelM nearestPoints linksLayers)
        (insert pointId S) level levelM ∧
      SameOffLevel level linksLayers (linkWithHeuristic pointsScorer pointId level levelM nearestPoints linksLayers) := by
  have hidsS : ∀ q ∈ nearestPoints.map ScoredPointOffset.idx, q ∈ S := by
    intro q hq
    obtain ⟨sp, hsp, rfl⟩ := List.mem_map.mp hq
    exact hnearest sp hsp
  -- the new point's list: the heuristic's choice among the nearest points
  have hselected : LinksOk S pointId levelM
      (selectCandidateWithHeuristicFromSorted pointsScorer.scoreInternal levelM [] nearestPoints) :=
    LinksOk.of_selectCandidateWithHeuristicFromSorted hnodup (fun hq => hp (hidsS _ hq)) hidsS
      (List.Perm.refl _) _
  set selected := selectCandidateWithHeuristicFromSorted pointsScorer.scoreInternal levelM [] nearestPoints
  have hselectedS : ∀ o ∈ selected, o ∈ S := hselected.linked
  have hother : ∀ x ≠ pointId, linksAt (setLinks linksLayers pointId level selected) x level =
      linksAt linksLayers x level := fun x hx => linksAt_setLinks_of_ne _ _ (.inl hx)
  obtain ⟨hok, hsame⟩ := foldl_linkBack_levelOk h hp pointsScorer selected
    (setLinks linksLayers pointId level selected) hselected.nodup hselectedS
    (fun x => by
      by_cases hx : x = pointId
      · rw [hx]
        exact (hselected.mono (Set.subset_insert _ _)).setLinks_self
      · rw [hother x hx]
        exact (h.links_ok x).mono (Set.subset_insert _ _))
    (fun o ho => hother o fun hop => hp (hop ▸ hselectedS o ho))
    (fun x hx => (hother x fun hxp => hx (hxp ▸ Set.mem_insert _ _)).trans
      (h.unlinked x fun hxS => hx (Set.mem_insert_of_mem _ hxS)))
  exact ⟨hok, (sameOffLevel_setLinks _ _).trans hsame⟩

/-- While the nearest points `rest` remain to be connected on `level` without the heuristic:
every list but the new point's is allowed with the new point linked; the new point's list is
allowed, and holds none of the points left; the points left still have their lists from before
the level (`ll₀`); a point not linked has no links; the level entry is linked. -/
structure ConnectInv (ll₀ : List (List (List PointOffsetType))) (S : Set PointOffsetType)
    (pointId : PointOffsetType) (level levelM : ℕ) (rest : List ScoredPointOffset)
    (acc : List (List (List PointOffsetType)) × ScoredPointOffset) : Prop where
  others_ok : ∀ x ≠ pointId, LinksOk (insert pointId S) x levelM (linksAt acc.1 x level)
  new_ok : LinksOk S pointId levelM (linksAt acc.1 pointId level)
  new_fresh : ∀ q ∈ linksAt acc.1 pointId level, q ∉ rest.map ScoredPointOffset.idx
  rest_before : ∀ x ∈ rest.map ScoredPointOffset.idx, linksAt acc.1 x level = linksAt ll₀ x level
  unlinked : ∀ x ∉ insert pointId S, linksAt acc.1 x level = []
  entry_linked : acc.2.idx ∈ S

/-- One nearest point connected on both sides. -/
theorem ConnectInv.step (h₀ : LevelOk ll₀ S level levelM) (hp : pointId ∉ S)
    {nearestPoint : ScoredPointOffset} {rest : List ScoredPointOffset}
    {acc : List (List (List PointOffsetType)) × ScoredPointOffset}
    (h : ConnectInv ll₀ S pointId level levelM (nearestPoint :: rest) acc) (hn : nearestPoint.idx ∈ S)
    (hnrest : nearestPoint.idx ∉ rest.map ScoredPointOffset.idx)
    (hrestS : ∀ q ∈ rest.map ScoredPointOffset.idx, q ∈ S) (pointsScorer : FilteredScorer) :
    ConnectInv ll₀ S pointId level levelM rest (connectBoth pointsScorer pointId level levelM acc nearestPoint) ∧
      SameOffLevel level acc.1 (connectBoth pointsScorer pointId level levelM acc nearestPoint).1 := by
  have hnp : nearestPoint.idx ≠ pointId := fun heq => hp (heq ▸ hn)
  obtain ⟨ll, levelEntry⟩ := acc
  unfold connectBoth
  dsimp only
  set newP := connectNewPoint (linksAt ll pointId level) nearestPoint.idx pointId levelM
    pointsScorer.scoreInternal with hnewP_def
  set ll₁ := setLinks ll pointId level newP
  -- the new point's list gains the nearest point, which it did not hold
  have hnewP : LinksOk S pointId levelM newP :=
    h.new_ok.of_connectNewPoint hn hnp (fun hmem => h.new_fresh _ hmem List.mem_cons_self) _ _
  have hn₁ : linksAt ll₁ nearestPoint.idx level = linksAt ll₀ nearestPoint.idx level :=
    (linksAt_setLinks_of_ne _ _ (.inl hnp)).trans (h.rest_before _ List.mem_cons_self)
  set newN := connectNewPoint (linksAt ll₁ nearestPoint.idx level) pointId nearestPoint.idx levelM
    pointsScorer.scoreInternal with hnewN_def
  -- the nearest point's list, from before the level, gains the new point
  have hnewN : LinksOk (insert pointId S) nearestPoint.idx levelM newN := by
    rw [hnewN_def, hn₁]
    exact ((h₀.links_ok nearestPoint.idx).mono (Set.subset_insert _ _)).of_connectNewPoint
      (Set.mem_insert _ _) hnp.symm (fun hmem => hp ((h₀.links_ok nearestPoint.idx).linked _ hmem)) _ _
  have hother : ∀ x, x ≠ pointId → x ≠ nearestPoint.idx →
      linksAt (setLinks ll₁ nearestPoint.idx level newN) x level = linksAt ll x level :=
    fun x hxp hxn => (linksAt_setLinks_of_ne _ _ (.inl hxn)).trans (linksAt_setLinks_of_ne _ _ (.inl hxp))
  have hnew : linksAt (setLinks ll₁ nearestPoint.idx level newN) pointId level =
      linksAt ll₁ pointId level := linksAt_setLinks_of_ne _ _ (.inl hnp.symm)
  refine ⟨⟨fun x hx => ?_, ?_, fun q hq => ?_, fun x hx => ?_, fun x hx => ?_, ?_⟩,
    (sameOffLevel_setLinks _ _).trans (sameOffLevel_setLinks _ _)⟩
  · by_cases hxn : x = nearestPoint.idx
    · rw [hxn]
      exact hnewN.setLinks_self
    · rw [hother x hx hxn]
      exact h.others_ok x hx
  · rw [hnew]
    exact hnewP.setLinks_self
  · rw [hnew] at hq
    rcases mem_connectNewPoint h.new_ok.length_le (mem_linksAt_setLinks_self hq) with rfl | hq
    · exact hnrest
    · exact fun hmem => h.new_fresh q hq (List.mem_cons_of_mem _ hmem)
  · have hxn : x ≠ nearestPoint.idx := fun heq => hnrest (heq ▸ hx)
    have hxp : x ≠ pointId := fun heq => hp (heq ▸ hrestS x hx)
    rw [hother x hxp hxn]
    exact h.rest_before x (List.mem_cons_of_mem _ hx)
  · have hxp : x ≠ pointId := fun heq => hx (heq ▸ Set.mem_insert _ _)
    have hxn : x ≠ nearestPoint.idx := fun heq => hx (heq ▸ Set.mem_insert_of_mem _ hn)
    rw [hother x hxp hxn]
    exact h.unlinked x hx
  · split_ifs
    · exact hn
    · exact h.entry_linked

theorem foldl_connectBoth_levelOk (h₀ : LevelOk ll₀ S level levelM) (hp : pointId ∉ S)
    (pointsScorer : FilteredScorer) :
    ∀ (rest : List ScoredPointOffset) (acc : List (List (List PointOffsetType)) × ScoredPointOffset),
      (rest.map ScoredPointOffset.idx).Nodup → (∀ sp ∈ rest, sp.idx ∈ S) →
      ConnectInv ll₀ S pointId level levelM rest acc →
      LevelOk (rest.foldl (connectBoth pointsScorer pointId level levelM) acc).1 (insert pointId S)
          level levelM ∧
        SameOffLevel level acc.1 (rest.foldl (connectBoth pointsScorer pointId level levelM) acc).1 ∧
        (rest.foldl (connectBoth pointsScorer pointId level levelM) acc).2.idx ∈ S
  | [], acc, _, _, h => by
    refine ⟨⟨fun x => ?_, h.unlinked⟩, SameOffLevel.refl, h.entry_linked⟩
    by_cases hx : x = pointId
    · rw [hx]
      exact h.new_ok.mono (Set.subset_insert _ _)
    · exact h.others_ok x hx
  | nearestPoint :: rest, acc, hnodup, hnearest, h => by
    rw [List.map_cons, List.nodup_cons] at hnodup
    have hrestS : ∀ q ∈ rest.map ScoredPointOffset.idx, q ∈ S := by
      intro q hq
      obtain ⟨sp, hsp, rfl⟩ := List.mem_map.mp hq
      exact hnearest sp (List.mem_cons_of_mem _ hsp)
    obtain ⟨hnext, hsame⟩ := h.step h₀ hp (hnearest nearestPoint List.mem_cons_self) hnodup.1
      hrestS pointsScorer
    obtain ⟨hok, hsame', hentry⟩ := foldl_connectBoth_levelOk h₀ hp pointsScorer rest _ hnodup.2
      (fun sp hsp => hnearest sp (List.mem_cons_of_mem _ hsp)) hnext
    rw [List.foldl_cons]
    exact ⟨hok, hsame.trans hsame', hentry⟩

/-- **Without the heuristic**, a level stays ok when the new point, not linked before, is
connected to distinct nearest points of `S`; the level entry stays linked. -/
theorem linkByScore_levelOk (h : LevelOk linksLayers S level levelM) (hp : pointId ∉ S)
    {nearestPoints : List ScoredPointOffset}
    (hnodup : (nearestPoints.map ScoredPointOffset.idx).Nodup)
    (hnearest : ∀ sp ∈ nearestPoints, sp.idx ∈ S) {levelEntry : ScoredPointOffset}
    (hentry : levelEntry.idx ∈ S) (pointsScorer : FilteredScorer) :
    LevelOk (linkByScore pointsScorer pointId level levelM nearestPoints linksLayers levelEntry).1
        (insert pointId S) level levelM ∧
      SameOffLevel level linksLayers
        (linkByScore pointsScorer pointId level levelM nearestPoints linksLayers levelEntry).1 ∧
      (linkByScore pointsScorer pointId level levelM nearestPoints linksLayers levelEntry).2.idx ∈ S := by
  have hempty : linksAt linksLayers pointId level = [] := h.unlinked pointId hp
  refine foldl_connectBoth_levelOk h hp pointsScorer nearestPoints _ hnodup hnearest
    ⟨fun x _ => (h.links_ok x).mono (Set.subset_insert _ _), ?_, fun q hq => ?_, fun _ _ => rfl,
      fun x hx => h.unlinked x fun hxS => hx (Set.mem_insert_of_mem _ hxS), hentry⟩
  · rw [hempty]
    exact LinksOk.nil
  · rw [hempty] at hq
    exact absurd hq List.not_mem_nil

end Links

/-! ## 7. Linking a point, and a whole build -/

namespace GraphLayersBuilder

/-- **One level of `link_new_point`.** On an ok level, with the new point not linked and the
level entry linked, the level is ok with the new point linked; nothing else changes. -/
theorem linkOnLevel_spec {b : GraphLayersBuilder} {S : Set PointOffsetType}
    {pointId : PointOffsetType} {pointsScorer : FilteredScorer} {levelEntry : ScoredPointOffset}
    {currLevel : ℕ} (hok : LevelOk b.linksLayers S currLevel (b.getM currLevel)) (hp : pointId ∉ S)
    (hentry : levelEntry.idx ∈ S) {r : GraphLayersBuilder × ScoredPointOffset}
    (h : b.linkOnLevel pointId pointsScorer levelEntry currLevel = some r) :
    LevelOk r.1.linksLayers (insert pointId S) currLevel (b.getM currLevel) ∧
      SameOffLevel currLevel b.linksLayers r.1.linksLayers ∧ r.2.idx ∈ S ∧
      r.1.getM = b.getM ∧ r.1.entryPoints = b.entryPoints := by
  unfold linkOnLevel at h
  obtain ⟨searched, hsearch, rfl⟩ := Option.map_eq_some_iff.mp h
  -- the new point has no links yet, so the search offers none
  rw [hok.unlinked pointId hp] at hsearch
  obtain ⟨hnodup, hnearest⟩ := searchOnLevel_spec (fun x q hq => (hok.links_ok x).linked q hq)
    hentry List.nodup_nil (fun _ hq => absurd hq List.not_mem_nil) hsearch
  dsimp only
  split_ifs
  · obtain ⟨hlevel, hsame⟩ := linkWithHeuristic_levelOk hok hp hnodup hnearest pointsScorer
    exact ⟨hlevel, hsame, hentry, rfl, rfl⟩
  · obtain ⟨hlevel, hsame, hentry'⟩ := linkByScore_levelOk hok hp hnodup hnearest hentry pointsScorer
    exact ⟨hlevel, hsame, hentry', rfl, rfl⟩

/-- The loop over the linking levels, each level once: every level ends ok with the new point
linked. -/
theorem foldlM_linkOnLevel {S : Set PointOffsetType} {pointId : PointOffsetType} (hp : pointId ∉ S)
    (pointsScorer : FilteredScorer) :
    ∀ (levels : List ℕ) (acc r : GraphLayersBuilder × ScoredPointOffset), levels.Nodup →
      (∀ l, LevelOk acc.1.linksLayers (insert pointId S) l (acc.1.getM l)) →
      (∀ l ∈ levels, LevelOk acc.1.linksLayers S l (acc.1.getM l)) → acc.2.idx ∈ S →
      levels.foldlM (fun (acc : GraphLayersBuilder × ScoredPointOffset) currLevel =>
          acc.1.linkOnLevel pointId pointsScorer acc.2 currLevel) acc = some r →
      (∀ l, LevelOk r.1.linksLayers (insert pointId S) l (r.1.getM l)) ∧
        r.1.getM = acc.1.getM ∧ r.1.entryPoints = acc.1.entryPoints
  | [], acc, r, _, hall, _, _, h => by
    cases h
    exact ⟨hall, rfl, rfl⟩
  | l :: rest, acc, r, hnodup, hall, hlevels, hentry, h => by
    rw [List.foldlM_cons] at h
    obtain ⟨next, hnext, h⟩ := Option.bind_eq_some_iff.mp h
    rw [List.nodup_cons] at hnodup
    obtain ⟨hlevel, hsame, hentry', hgetM, hentryPoints⟩ :=
      linkOnLevel_spec (hlevels l List.mem_cons_self) hp hentry hnext
    -- the level just linked is ok with the new point; the others are as they were
    have hall' : ∀ l', LevelOk next.1.linksLayers (insert pointId S) l' (next.1.getM l') := by
      intro l'
      rw [hgetM]
      by_cases hl : l' = l
      · rw [hl]
        exact hlevel
      · exact (hall l').congr fun x => hsame x l' hl
    have hlevels' : ∀ l' ∈ rest, LevelOk next.1.linksLayers S l' (next.1.getM l') := by
      intro l' hl'
      rw [hgetM]
      exact (hlevels l' (List.mem_cons_of_mem _ hl')).congr
        fun x => hsame x l' fun heq => hnodup.1 (heq ▸ hl')
    obtain ⟨hok, hgetM', hentryPoints'⟩ :=
      foldlM_linkOnLevel hp pointsScorer rest next r hnodup.2 hall' hlevels' hentry' h
    exact ⟨hok, hgetM'.trans hgetM, hentryPoints'.trans hentryPoints⟩

end GraphLayersBuilder

open GraphLayersBuilder

/-- **`link_new_point` keeps the invariant**, for a point not linked before, which is then
linked. -/
theorem BuilderOk.linkNewPoint {b : GraphLayersBuilder} {S : Set PointOffsetType}
    {pointId : PointOffsetType} {pointsScorer : FilteredScorer} {b' : GraphLayersBuilder}
    (hok : BuilderOk b S) (hp : pointId ∉ S) (h : b.linkNewPoint pointId pointsScorer = some b') :
    BuilderOk b' (insert pointId S) ∧ b'.getM = b.getM := by
  unfold GraphLayersBuilder.linkNewPoint at h
  obtain ⟨level, -, h⟩ := Option.bind_eq_some_iff.mp h
  -- the main entry points after `new_point`: those before, or the new point
  have hentries : ∀ e ∈ (b.entryPoints.newPoint pointId level pointsScorer.checkPoint).1.entryPoints,
      e.pointId ∈ insert pointId S := by
    intro e he
    rcases EntryPoints.mem_newPoint_fst he with he | he
    · exact Set.mem_insert_of_mem _ (hok.entry_linked e he)
    · rw [he]
      exact Set.mem_insert _ _
  dsimp only at h
  split at h
  · -- no entry point: the point only becomes one
    cases h
    exact ⟨⟨fun l => (hok.level_ok l).mono (Set.subset_insert _ _), hentries⟩, rfl⟩
  · rename_i entryPoint hanswer
    have hep : entryPoint.pointId ∈ S := hok.entry_linked _ (EntryPoints.newPoint_snd_mem hanswer)
    obtain ⟨r, hr, rfl⟩ := Option.map_eq_some_iff.mp h
    have hlevelEntry : ({ b with entryPoints :=
        (b.entryPoints.newPoint pointId level pointsScorer.checkPoint).1 }.levelEntryOf pointId level
          pointsScorer entryPoint).idx ∈ S := by
      unfold levelEntryOf
      split_ifs
      · exact searchEntry_linked (fun x l q hq => ((hok.level_ok l).links_ok x).linked q hq) hep _ _ _
      · exact hep
    obtain ⟨hlevels, hgetM, hentryPoints⟩ := foldlM_linkOnLevel hp pointsScorer _ _ r
      (List.nodup_reverse.mpr List.nodup_range) (fun l => (hok.level_ok l).mono (Set.subset_insert _ _))
      (fun l _ => hok.level_ok l) hlevelEntry hr
    refine ⟨⟨hlevels, ?_⟩, hgetM⟩
    rw [hentryPoints]
    exact hentries

theorem getD_append_replicate_nil {α : Type} (xs : List (List α)) (k i : ℕ) :
    (xs ++ List.replicate k []).getD i [] = xs.getD i [] := by
  by_cases hi : i < xs.length
  · exact List.getD_append _ _ _ _ hi
  · rw [List.getD_append_right _ _ _ _ (not_lt.mp hi), List.getD_eq_getElem?_getD,
      List.getElem?_getD_replicate_default_eq, List.getD_eq_default _ _ (not_lt.mp hi)]

/-- `set_levels` adds empty lists only: every list reads as before. -/
theorem GraphLayersBuilder.linksAt_setLevels (b : GraphLayersBuilder) (pointId : PointOffsetType)
    (level : ℕ) (x : PointOffsetType) (l : ℕ) :
    linksAt (b.setLevels pointId level).linksLayers x l = linksAt b.linksLayers x l := by
  unfold setLevels linksAt
  dsimp only
  have hlen : pointId <
      (b.linksLayers ++ List.replicate (pointId + 1 - b.linksLayers.length) []).length := by
    rw [List.length_append, List.length_replicate]
    exact Nat.lt_of_lt_of_le (Nat.lt_succ_self pointId) le_add_tsub
  rw [getD_set_of_lt hlen]
  split_ifs with hx
  · -- the point's own levels, padded with empty ones
    rw [hx]
    simp only [getD_append_replicate_nil]
  · simp only [getD_append_replicate_nil]

theorem BuilderOk.setLevels {b : GraphLayersBuilder} {S : Set PointOffsetType} (hok : BuilderOk b S)
    (pointId : PointOffsetType) (level : ℕ) :
    BuilderOk (b.setLevels pointId level) S ∧ (b.setLevels pointId level).getM = b.getM :=
  ⟨⟨fun l => (hok.level_ok l).congr fun x => b.linksAt_setLevels pointId level x l, hok.entry_linked⟩,
    rfl⟩

theorem linksAt_replicate (numVectors : ℕ) (x level : ℕ) :
    linksAt (List.replicate numVectors [[]]) x level = [] := by
  unfold linksAt
  by_cases hx : x < numVectors
  · rw [List.getD_replicate _ hx]
    cases level <;> rfl
  · have hlen : (List.replicate numVectors [([] : List PointOffsetType)]).length ≤ x := by
      rw [List.length_replicate]
      omega
    rw [List.getD_eq_default _ _ hlen]
    rfl

/-- A new builder: no links, no entry points. -/
theorem builderOk_new {numVectors m m0 efConstruct entryPointsNum : ℕ} {useHeuristic : Bool}
    {b₀ : GraphLayersBuilder}
    (h : GraphLayersBuilder.new numVectors m m0 efConstruct entryPointsNum useHeuristic = some b₀) :
    BuilderOk b₀ ∅ ∧ b₀.getM = fun level => if level = 0 then m0 else m := by
  unfold GraphLayersBuilder.new newWithParams at h
  obtain ⟨entryPoints, hentryPoints, rfl⟩ := Option.map_eq_some_iff.mp h
  have hempty : entryPoints.entryPoints = [] := by
    unfold EntryPoints.new at hentryPoints
    obtain ⟨_, -, rfl⟩ := Option.map_eq_some_iff.mp hentryPoints
    rfl
  refine ⟨⟨fun level => ⟨fun x => ?_, fun x _ => linksAt_replicate numVectors x level⟩,
    fun e he => ?_⟩, rfl⟩
  · rw [linksAt_replicate]
    exact LinksOk.nil
  · rw [hempty] at he
    exact absurd he List.not_mem_nil

/-- **A whole build keeps the invariant**, when no point is linked twice. -/
theorem BuilderOk.run :
    ∀ (calls : List BuildCall) {b b' : GraphLayersBuilder} {S : Set PointOffsetType}, BuilderOk b S →
      (calls.filterMap BuildCall.linkedPoint).Nodup →
      (∀ pointId ∈ calls.filterMap BuildCall.linkedPoint, pointId ∉ S) →
      b.run calls = some b' → (∃ S', BuilderOk b' S') ∧ b'.getM = b.getM
  | [], b, b', S, hok, _, _, h => by
    cases h
    exact ⟨⟨S, hok⟩, rfl⟩
  | c :: rest, b, b', S, hok, hnodup, hfresh, h => by
    unfold GraphLayersBuilder.run at h
    rw [List.foldlM_cons] at h
    obtain ⟨b₁, hb₁, hrest⟩ := Option.bind_eq_some_iff.mp h
    cases c with
    | setLevels pointId level =>
      simp only [call, Option.some.injEq] at hb₁
      subst hb₁
      obtain ⟨hok₁, hgetM₁⟩ := hok.setLevels pointId level
      obtain ⟨hok', hgetM'⟩ := BuilderOk.run rest hok₁ hnodup hfresh hrest
      exact ⟨hok', hgetM'.trans hgetM₁⟩
    | linkNewPoint pointId pointsScorer =>
      have hlinked : (BuildCall.linkNewPoint pointId pointsScorer :: rest).filterMap BuildCall.linkedPoint =
          pointId :: rest.filterMap BuildCall.linkedPoint := rfl
      rw [hlinked] at hnodup hfresh
      rw [List.nodup_cons] at hnodup
      obtain ⟨hok₁, hgetM₁⟩ := hok.linkNewPoint (hfresh pointId List.mem_cons_self) hb₁
      -- the points linked later are neither linked before nor this one
      have hfresh₁ : ∀ q ∈ rest.filterMap BuildCall.linkedPoint, q ∉ insert pointId S := by
        intro q hq hqS
        rcases hqS with rfl | hqS
        · exact hnodup.1 hq
        · exact hfresh q (List.mem_cons_of_mem _ hq) hqS
      obtain ⟨hok', hgetM'⟩ := BuilderOk.run rest hok₁ hnodup.2 hfresh₁ hrest
      exact ⟨hok', hgetM'.trans hgetM₁⟩

/-- **Degree bound.** From `GraphLayersBuilder::new`, after any calls of `set_levels` and
`link_new_point` (with or without the heuristic) that link no point twice, every list of links
has at most `m0` links on level 0 and `m` above, none to its own point, and no link twice. -/
theorem linkNewPoint_degree_bound {numVectors m m0 efConstruct entryPointsNum : ℕ}
    {useHeuristic : Bool} {b₀ : GraphLayersBuilder}
    (hnew : GraphLayersBuilder.new numVectors m m0 efConstruct entryPointsNum useHeuristic = some b₀)
    {calls : List BuildCall} (hlinked : (calls.filterMap BuildCall.linkedPoint).Nodup)
    {b : GraphLayersBuilder} (hrun : b₀.run calls = some b) (pointId : PointOffsetType) (level : ℕ) :
    (linksAt b.linksLayers pointId level).length ≤ (if level = 0 then m0 else m) ∧
      pointId ∉ linksAt b.linksLayers pointId level ∧ (linksAt b.linksLayers pointId level).Nodup := by
  obtain ⟨hok₀, hgetM₀⟩ := builderOk_new hnew
  obtain ⟨⟨S, hok⟩, hgetM⟩ := BuilderOk.run calls hok₀ hlinked (fun _ _ hq => hq) hrun
  have hlinks := (hok.level_ok level).links_ok pointId
  have hbound : b.getM level = if level = 0 then m0 else m := by
    rw [hgetM, hgetM₀]
  exact ⟨hbound ▸ hlinks.length_le, hlinks.not_self, hlinks.nodup⟩

/-- Three points on the levels `0`, `0` and `1`, with the heuristic, `m = 1` and `m0 = 2`. -/
theorem linkNewPoint_degree_bound_three_points :
    let pointsScorer : FilteredScorer :=
      ⟨⟨3, [], ⟨[[1], [2], [3]], ⟨fun _ _ => 0, some⟩⟩, [false, false, false]⟩, none⟩
    let calls := [BuildCall.setLevels 2 1, .linkNewPoint 0 pointsScorer,
      .linkNewPoint 2 pointsScorer, .linkNewPoint 1 pointsScorer]
    ∃ b₀ b, GraphLayersBuilder.new 3 1 2 2 1 true = some b₀ ∧
      (calls.filterMap BuildCall.linkedPoint).Nodup ∧ b₀.run calls = some b ∧
      ∀ pointId level, (linksAt b.linksLayers pointId level).length ≤ (if level = 0 then 2 else 1) ∧
        pointId ∉ linksAt b.linksLayers pointId level ∧ (linksAt b.linksLayers pointId level).Nodup := by
  intro pointsScorer calls
  exact ⟨_, _, rfl, by decide, rfl,
    @linkNewPoint_degree_bound 3 1 2 2 1 true _ rfl calls (by decide) _ rfl⟩

end Qdrant
