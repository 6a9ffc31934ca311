/-
# Building the HNSW graph

`index/hnsw_index/graph_layers_builder.rs`.  The builder keeps, for each point and each of its
levels, the list of the point's links.

* `connectNewPoint_keeps_best`: `connect_new_point` keeps a list sorted by descending score the
  `level_m` best of the old links and the new one, with a new link behind the old ones it ties
  with: the first `level_m` of the stable sort of the old links and the new one;
* `mergeFromOther_links`: `merge_from_other` keeps each list of the builder as a prefix and
  appends the other builder's links it lacks, once each; at a level the builder does not have,
  it takes the other builder's list as it is, repeated links included
  (`mergeFromOther_copies_repeats`).

The merge reads "already there" from a `VisitedList` (`Hnsw/VisitedPool.lean`), which stamps a point with the current
iteration; a list taken from the pool starts a new iteration, so that the stamps of earlier
searches read as not visited (`VisitedList.not_isVisited_nextIteration`).
-/
import Qdrant.Hnsw.EntryPoints
import Qdrant.Hnsw.VisitedPool

namespace Qdrant

/-! ## 1. Inserting a link by score -/

section Insert

variable {α : Type}

/-- The place a first match gives, or the end when nothing matches. -/
theorem findIdx?_getD_le (p : α → Bool) (l : List α) : (l.findIdx? p).getD l.length ≤ l.length := by
  induction l with
  | nil => simp
  | cons b l ih =>
    rw [List.findIdx?_cons]
    split_ifs
    · simp
    · have hmap := Option.getD_map (fun i => i + 1) l.length (l.findIdx? p)
      rw [List.length_cons, hmap]
      exact Nat.succ_le_succ ih

/-- Inserting into a list and keeping as many elements as it had drops its last one first. -/
theorem take_insertIdx_length (l : List α) {i : ℕ} (hi : i < l.length) (x : α) :
    (l.insertIdx i x).take l.length = l.dropLast.insertIdx i x := by
  induction l generalizing i with
  | nil => simp at hi
  | cons b l ih =>
    cases i with
    | zero => simp [List.dropLast_eq_take]
    | succ i =>
      have hi' : i < l.length := by simpa using hi
      have hne : l ≠ [] := List.ne_nil_of_length_pos (by omega)
      rw [List.insertIdx_succ_cons, List.length_cons, List.take_succ_cons, ih hi',
        List.dropLast_cons_of_ne_nil hne, List.insertIdx_succ_cons]

/-- An element above every element of a list is inserted in front. -/
theorem orderedInsert_of_forall {r : α → α → Prop} [DecidableRel r] {a : α} {l : List α}
    (h : ∀ b ∈ l, r a b) : l.orderedInsert r a = a :: l := by
  cases l with
  | nil => rfl
  | cons b l => exact List.orderedInsert_cons_of_le r l (h b List.mem_cons_self)

variable {β : Type} [LinearOrder β] (key : α → β)

/-- Inserting before the first element strictly below `x` is the ordered insertion by
descending key that stops there. -/
theorem insertIdx_findIdx?_getD (l : List α) (x : α) :
    l.insertIdx ((l.findIdx? fun b => key b < key x).getD l.length) x =
      l.orderedInsert (fun a b => key b < key a) x := by
  induction l with
  | nil => simp
  | cons b l ih =>
    rw [List.findIdx?_cons, List.orderedInsert_cons]
    by_cases hb : key b < key x
    · simp [hb]
    · have hmap := Option.getD_map (fun i => i + 1) l.length (l.findIdx? fun b => key b < key x)
      rw [if_neg (by simpa using hb), if_neg hb, List.length_cons, hmap, List.insertIdx_succ_cons,
        ih]

/-- The stable sort by descending key of a sorted list and one more element puts the element
behind every element it ties with. -/
theorem insertionSort_append_singleton {l : List α} (hl : l.Pairwise fun a b => key b ≤ key a)
    (x : α) :
    (l ++ [x]).insertionSort (fun a b => key b ≤ key a) =
      l.orderedInsert (fun a b => key b < key a) x := by
  induction l with
  | nil => rfl
  | cons a l ih =>
    obtain ⟨ha, hl'⟩ := List.pairwise_cons.mp hl
    rw [List.cons_append, List.insertionSort_cons, ih hl', List.orderedInsert_cons]
    split_ifs with hax
    · -- `x` is above `a`, hence above the whole list
      have hx : ∀ b ∈ l, key b < key x := fun b hb => lt_of_le_of_lt (ha b hb) hax
      rw [orderedInsert_of_forall (r := fun a b => key b < key a) hx,
        List.orderedInsert_of_not_le (fun a b => key b ≤ key a) l (not_le.mpr hax),
        orderedInsert_of_forall ha]
    · -- `a` is above `x` and the rest
      refine orderedInsert_of_forall fun b hb => ?_
      rcases (List.mem_orderedInsert _).mp hb with rfl | hb
      · exact not_lt.mp hax
      · exact ha b hb

end Insert

/-! ## 2. `connect_new_point` -/

section Connect

variable {β : Type} [LinearOrder β]

/-- `connect_new_point`: `new_point_id` goes before the first link scored strictly below it
against `target_point_id`; a full list first drops its last link, and keeps still when no link
scores below the new one. -/
def connectNewPoint (links : List PointOffsetType) (newPointId targetPointId : PointOffsetType)
    (levelM : ℕ) (scoreInternal : PointOffsetType → PointOffsetType → β) : List PointOffsetType :=
  let newToTarget := scoreInternal targetPointId newPointId
  let idToInsert :=
    (links.findIdx? fun item => scoreInternal targetPointId item < newToTarget).getD links.length
  if links.length < levelM then links.insertIdx idToInsert newPointId
  else if idToInsert ≠ links.length then links.dropLast.insertIdx idToInsert newPointId
  else links

/-- On a list of at most `level_m` links, `connect_new_point` is an ordered insertion cut at
`level_m`. -/
theorem connectNewPoint_eq {links : List PointOffsetType} {levelM : ℕ}
    (hlen : links.length ≤ levelM) (newPointId targetPointId : PointOffsetType)
    (scoreInternal : PointOffsetType → PointOffsetType → β) :
    connectNewPoint links newPointId targetPointId levelM scoreInternal =
      (links.orderedInsert (fun a b => scoreInternal targetPointId b < scoreInternal targetPointId a)
        newPointId).take levelM := by
  have hins := insertIdx_findIdx?_getD (scoreInternal targetPointId) links newPointId
  have hle := findIdx?_getD_le
    (fun item => decide (scoreInternal targetPointId item < scoreInternal targetPointId newPointId))
    links
  unfold connectNewPoint
  dsimp only
  split_ifs with hroom hpos
  · -- room left: the new link joins, and the list stays within `level_m`
    rw [hins, List.take_of_length_le (by rw [List.orderedInsert_length]; omega)]
  · -- a full list and a link below the new one: the last link goes
    have hfull : links.length = levelM := by omega
    rw [← take_insertIdx_length links (lt_of_le_of_ne hle hpos), hins, hfull]
  · -- a full list and no link below: nothing changes
    have hfull : links.length = levelM := by omega
    rw [← hins, not_not.mp hpos, List.insertIdx_length_self, ← hfull, List.take_left]

/-- **`connect_new_point` keeps the best links**: on a list of at most `level_m` links sorted by
descending score, it gives a list sorted by descending score, of length `min level_m (n + 1)`
for `n` old links, that is the first `level_m` of the stable sort by descending score of the old
links followed by the new one (so that the old links it ties with stay ahead of it). -/
theorem connectNewPoint_keeps_best (links : List PointOffsetType)
    (newPointId targetPointId : PointOffsetType) (levelM : ℕ)
    (scoreInternal : PointOffsetType → PointOffsetType → β) (hlen : links.length ≤ levelM)
    (hsorted : links.Pairwise fun a b =>
      scoreInternal targetPointId b ≤ scoreInternal targetPointId a) :
    (connectNewPoint links newPointId targetPointId levelM scoreInternal).Pairwise
        (fun a b => scoreInternal targetPointId b ≤ scoreInternal targetPointId a) ∧
      (connectNewPoint links newPointId targetPointId levelM scoreInternal).length =
        min levelM (links.length + 1) ∧
      connectNewPoint links newPointId targetPointId levelM scoreInternal =
        ((links ++ [newPointId]).insertionSort
          (fun a b => scoreInternal targetPointId b ≤ scoreInternal targetPointId a)).take levelM := by
  have heq : connectNewPoint links newPointId targetPointId levelM scoreInternal =
      ((links ++ [newPointId]).insertionSort
        (fun a b => scoreInternal targetPointId b ≤ scoreInternal targetPointId a)).take levelM := by
    rw [connectNewPoint_eq hlen, insertionSort_append_singleton _ hsorted]
  refine ⟨?_, ?_, heq⟩
  · rw [heq]
    exact (List.pairwise_insertionSort _ _).sublist (List.take_sublist _ _)
  · rw [heq, List.length_take, List.length_insertionSort, List.length_append, List.length_singleton]

theorem connectNewPoint_keeps_best_of_two :
    [3, 1].length ≤ 2 ∧ [3, 1].Pairwise (fun a b => (fun _ y : ℕ => y) 0 b ≤ (fun _ y : ℕ => y) 0 a) ∧
    ((connectNewPoint [3, 1] 2 0 2 fun _ y => y).Pairwise (fun a b => b ≤ a) ∧
      (connectNewPoint [3, 1] 2 0 2 fun _ y => y).length = min 2 ([3, 1].length + 1) ∧
      connectNewPoint [3, 1] 2 0 2 (fun _ y => y) =
        (([3, 1] ++ [2]).insertionSort (fun a b => b ≤ a)).take 2) :=
  ⟨by decide, by decide,
    connectNewPoint_keeps_best [3, 1] 2 0 2 (fun _ y => y) (by decide) (by decide)⟩

end Connect

/-! ## 3. Merging lists of links -/

section Merge

variable {α : Type}

/-- Two lists merged position by position; where one is shorter, the other's elements stand. -/
def zipLongest (f : α → α → α) : List α → List α → List α
  | a :: as, b :: bs => f a b :: zipLongest f as bs
  | as, [] => as
  | [], bs => bs

theorem length_zipLongest (f : α → α → α) :
    ∀ as bs : List α, (zipLongest f as bs).length = max as.length bs.length
  | a :: as, b :: bs => by simp [zipLongest, length_zipLongest f as bs, Nat.succ_max_succ]
  | as, [] => by simp [zipLongest]
  | [], b :: bs => by simp [zipLongest]

/-- A position of a merge of two lists, with a default that merges away on either side. -/
theorem getD_zipLongest (f : α → α → α) {d : α} (hl : ∀ a, f a d = a) (hr : ∀ b, f d b = b) :
    ∀ (as bs : List α) (i : ℕ), (zipLongest f as bs).getD i d = f (as.getD i d) (bs.getD i d)
  | a :: as, b :: bs, 0 => rfl
  | a :: as, b :: bs, i + 1 => getD_zipLongest f hl hr as bs i
  | as, [], i => by simp [zipLongest, hl]
  | [], b :: bs, i => by simp [zipLongest, hr]


variable [DecidableEq α]

/-- Each element of `other` appended to `cur` unless it is there already. -/
def appendNew (cur other : List α) : List α :=
  other.foldl (fun acc x => if x ∈ acc then acc else acc ++ [x]) cur

theorem prefix_appendNew (cur other : List α) : cur <+: appendNew cur other := by
  induction other generalizing cur with
  | nil => exact List.prefix_refl cur
  | cons x xs ih =>
    unfold appendNew at ih ⊢
    rw [List.foldl_cons]
    refine List.IsPrefix.trans ?_ (ih _)
    split_ifs
    · exact List.prefix_refl cur
    · exact List.prefix_append cur [x]

theorem mem_appendNew {cur other : List α} {y : α} :
    y ∈ appendNew cur other ↔ y ∈ cur ∨ y ∈ other := by
  induction other generalizing cur with
  | nil => simp [appendNew]
  | cons x xs ih =>
    simp only [appendNew, List.foldl_cons] at ih ⊢
    rw [ih, List.mem_cons]
    split_ifs with hx
    · constructor
      · rintro (hy | hy)
        · exact .inl hy
        · exact .inr (.inr hy)
      · rintro (hy | rfl | hy)
        · exact .inl hy
        · exact .inl hx
        · exact .inr hy
    · simp only [List.mem_append, List.mem_singleton]
      tauto

theorem nodup_appendNew {cur : List α} (h : cur.Nodup) (other : List α) :
    (appendNew cur other).Nodup := by
  induction other generalizing cur with
  | nil => exact h
  | cons x xs ih =>
    unfold appendNew at ih ⊢
    rw [List.foldl_cons]
    refine ih ?_
    split_ifs with hx
    · exact h
    · exact List.nodup_append.mpr ⟨h, List.nodup_singleton x, fun a ha b hb hab =>
        hx (by rw [List.mem_singleton.mp hb] at hab; exact hab ▸ ha)⟩

@[simp] theorem appendNew_nil (cur : List α) : appendNew cur [] = cur := rfl

/-- A level of merged lists: the merge where the first list has the level, else the second's. -/
theorem getD_zipLongest_appendNew :
    ∀ (cs os : List (List α)) (l : ℕ), (zipLongest appendNew cs os).getD l [] =
      if l < cs.length then appendNew (cs.getD l []) (os.getD l []) else os.getD l []
  | c :: cs, o :: os, 0 => by simp [zipLongest]
  | c :: cs, o :: os, l + 1 => by
    simp only [zipLongest, List.getD_cons_succ, List.length_cons, Nat.add_lt_add_iff_right]
    exact getD_zipLongest_appendNew cs os l
  | cs, [], l => by
    simp only [zipLongest, List.getD_nil, appendNew_nil]
    split_ifs with hl
    · rfl
    · exact List.getD_eq_default _ _ (not_lt.mp hl)
  | [], o :: os, l => by simp [zipLongest]

end Merge

/-! ## 4. The builder and `merge_from_other` -/

/-- `GraphLayersBuilder`.  The level factor only draws random levels, which are not modelled. -/
structure GraphLayersBuilder where
  maxLevel : ℕ
  m : ℕ
  m0 : ℕ
  efConstruct : ℕ
  useHeuristic : Bool
  linksLayers : List (List (List PointOffsetType))
  entryPoints : EntryPoints
  visitedPool : VisitedPool

namespace GraphLayersBuilder

/-- `num_points`. -/
def numPoints (b : GraphLayersBuilder) : ℕ := b.linksLayers.length

/-- `new_with_params`: one empty level per point; reserving memory changes nothing here. -/
def newWithParams (numVectors m m0 efConstruct entryPointsNum : ℕ) (useHeuristic _reserve : Bool) :
    Option GraphLayersBuilder :=
  (EntryPoints.new entryPointsNum).map fun entryPoints =>
    ⟨0, m, m0, efConstruct, useHeuristic, List.replicate numVectors [[]], entryPoints, ⟨[]⟩⟩

/-- `new`. -/
def new (numVectors m m0 efConstruct entryPointsNum : ℕ) (useHeuristic : Bool) :
    Option GraphLayersBuilder :=
  newWithParams numVectors m m0 efConstruct entryPointsNum useHeuristic true

/-- The inner loop of `merge_from_other` on one list of links: a new iteration, the current
links stamped, then each other link pushed unless it is visited, and stamped. -/
def mergeLinks (visitedList : VisitedList) (currentLinks otherLinks : List PointOffsetType) :
    List PointOffsetType × VisitedList :=
  let visitedList := visitedList.nextIteration
  let visitedList := currentLinks.foldl (fun v x => (v.checkAndUpdateVisited x).1) visitedList
  otherLinks.foldl (fun acc otherLink =>
      let r := acc.2.checkAndUpdateVisited otherLink
      (if !r.2 then acc.1 ++ [otherLink] else acc.1, r.1))
    (currentLinks, visitedList)

/-- The loop of `merge_from_other` over the levels of one point: a level the point lacks is
pushed whole, one it has is merged. -/
def mergeLayers (visitedList : VisitedList) (currentLayers : List (List PointOffsetType)) :
    ℕ → List (List PointOffsetType) → List (List PointOffsetType) × VisitedList
  | _, [] => (currentLayers, visitedList)
  | level, otherLinks :: rest =>
    if currentLayers.length ≤ level then
      mergeLayers visitedList (currentLayers ++ [otherLinks]) (level + 1) rest
    else
      let r := mergeLinks visitedList (currentLayers.getD level []) otherLinks
      mergeLayers r.2 (currentLayers.set level r.1) (level + 1) rest

/-- The loop of `merge_from_other` over the other builder's points. -/
def mergePoints (visitedList : VisitedList) (linksLayers : List (List (List PointOffsetType))) :
    ℕ → List (List (List PointOffsetType)) → List (List (List PointOffsetType)) × VisitedList
  | _, [] => (linksLayers, visitedList)
  | pointId, layers :: rest =>
    let r := mergeLayers visitedList (linksLayers.getD pointId []) 0 layers
    mergePoints r.2 (linksLayers.set pointId r.1) (pointId + 1) rest

/-- `merge_from_other`. -/
def mergeFromOther (b other : GraphLayersBuilder) : GraphLayersBuilder :=
  let maxLevel := max b.maxLevel other.maxLevel
  let got := b.visitedPool.get b.numPoints
  let linksLayers := if other.linksLayers.length > b.linksLayers.length then
      b.linksLayers ++ List.replicate (other.linksLayers.length - b.linksLayers.length) []
    else b.linksLayers
  let merged := mergePoints got.1 linksLayers 0 other.linksLayers
  { b with maxLevel, linksLayers := merged.1,
           entryPoints := b.entryPoints.mergeFromOther other.entryPoints,
           visitedPool := got.2.returnBack merged.2 }

/-! ## 5. What `merge_from_other` does to the links -/

/-- The stamped points are the list built so far, through the loop over the other links. -/
theorem mergeLinks_loop (otherLinks : List PointOffsetType) :
    ∀ (links : List PointOffsetType) (v : VisitedList), (∀ y, v.IsVisited y ↔ y ∈ links) →
      (otherLinks.foldl (fun acc otherLink =>
          let r := acc.2.checkAndUpdateVisited otherLink
          (if !r.2 then acc.1 ++ [otherLink] else acc.1, r.1)) (links, v)).1 =
        appendNew links otherLinks := by
  induction otherLinks with
  | nil => exact fun _ _ _ => rfl
  | cons x xs ih =>
    intro links v hv
    have hseen : (v.checkAndUpdateVisited x).2 = decide (x ∈ links) := by
      rw [Bool.eq_iff_iff, VisitedList.checkAndUpdateVisited_snd, hv, decide_eq_true_iff]
    rw [List.foldl_cons]
    dsimp only
    rw [hseen]
    by_cases hx : x ∈ links
    · -- already there: the list stays, and so do the stamps that matter
      simp only [hx, decide_true, Bool.not_true]
      refine (ih _ _ fun y => ?_).trans (by simp [appendNew, hx])
      rw [VisitedList.isVisited_checkAndUpdateVisited, hv]
      exact ⟨fun h => h.elim (fun e => e ▸ hx) id, Or.inr⟩
    · -- new: it is pushed and stamped
      simp only [hx, decide_false, Bool.not_false, if_true]
      refine (ih _ _ fun y => ?_).trans (by simp [appendNew, hx])
      rw [VisitedList.isVisited_checkAndUpdateVisited, hv, List.mem_append, List.mem_singleton]
      exact Or.comm

/-- Stamping a list marks exactly its points on top of those marked. -/
theorem isVisited_foldl_stamp (links : List PointOffsetType) :
    ∀ (v : VisitedList) (y : PointOffsetType),
      (links.foldl (fun v x => (v.checkAndUpdateVisited x).1) v).IsVisited y ↔
        y ∈ links ∨ v.IsVisited y := by
  induction links with
  | nil => simp
  | cons x xs ih =>
    intro v y
    rw [List.foldl_cons, ih, VisitedList.isVisited_checkAndUpdateVisited, List.mem_cons]
    tauto

/-- One merged list is the current links with the other links they lack appended once each,
whatever the visited list held before. -/
theorem mergeLinks_fst (v : VisitedList) (currentLinks otherLinks : List PointOffsetType) :
    (mergeLinks v currentLinks otherLinks).1 = appendNew currentLinks otherLinks := by
  refine mergeLinks_loop otherLinks currentLinks _ fun y => ?_
  rw [isVisited_foldl_stamp]
  exact ⟨fun h => h.resolve_right (VisitedList.not_isVisited_nextIteration v y), Or.inl⟩

/-- The levels of one point: each level both have is merged; the others stand as they are. -/
theorem mergeLayers_fst (rest : List (List PointOffsetType)) :
    ∀ (v : VisitedList) (done cur : List (List PointOffsetType)),
      (mergeLayers v (done ++ cur) done.length rest).1 =
        done ++ zipLongest appendNew cur rest := by
  induction rest with
  | nil => intro v done cur; simp [mergeLayers, zipLongest]
  | cons o os ih =>
    intro v done cur
    cases cur with
    | nil =>
      rw [mergeLayers, if_pos (by simp), List.append_nil]
      have := ih v (done ++ [o]) []
      simp only [List.append_nil, List.length_append, List.length_singleton] at this
      rw [this]
      cases os <;> simp [zipLongest]
    | cons c cs =>
      rw [mergeLayers, if_neg (by simp)]
      have hget : (done ++ c :: cs).getD done.length [] = c := by
        rw [List.getD_append_right _ _ _ _ le_rfl, Nat.sub_self]
        rfl
      have hset : (done ++ c :: cs).set done.length (mergeLinks v c o).1 =
          (done ++ [appendNew c o]) ++ cs := by
        rw [List.set_append_right _ _ le_rfl, Nat.sub_self, mergeLinks_fst]
        simp
      dsimp only
      rw [hget, hset]
      have := ih (mergeLinks v c o).2 (done ++ [appendNew c o]) cs
      simp only [List.length_append, List.length_singleton] at this
      rw [this]
      simp [zipLongest]

/-- The points: each point the other builder has is merged level by level. -/
theorem mergePoints_fst (rest : List (List (List PointOffsetType))) :
    ∀ (v : VisitedList) (done cur : List (List (List PointOffsetType))),
      rest.length ≤ cur.length →
      (mergePoints v (done ++ cur) done.length rest).1 =
        done ++ zipLongest (zipLongest appendNew) cur rest := by
  induction rest with
  | nil => intro v done cur _; simp [mergePoints, zipLongest]
  | cons o os ih =>
    intro v done cur hlen
    cases cur with
    | nil => simp at hlen
    | cons c cs =>
      have hget : (done ++ c :: cs).getD done.length [] = c := by
        rw [List.getD_append_right _ _ _ _ le_rfl, Nat.sub_self]
        rfl
      have hlayers := mergeLayers_fst o v [] c
      simp only [List.nil_append, List.length_nil] at hlayers
      rw [mergePoints, hget, hlayers, List.set_append_right _ _ le_rfl, Nat.sub_self]
      have := ih (mergeLayers v c 0 o).2 (done ++ [zipLongest appendNew c o]) cs
        (by simpa using hlen)
      simp only [List.length_append, List.length_singleton, List.append_assoc,
        List.singleton_append] at this
      simp only [List.set_cons_zero]
      rw [this]
      simp [zipLongest]

/-- The links of a point at a level; an absent point or level has none. -/
def linksAt (linksLayers : List (List (List PointOffsetType))) (p l : ℕ) : List PointOffsetType :=
  (linksLayers.getD p []).getD l []

/-- The merged links of a point, level by level: the builder's levels merged, then the other's. -/
theorem getD_mergeFromOther (b other : GraphLayersBuilder) (p : ℕ) :
    ((b.mergeFromOther other).linksLayers.getD p []) =
      zipLongest appendNew (b.linksLayers.getD p []) (other.linksLayers.getD p []) := by
  -- the resized links are the builder's, with empty points after them
  set resized := if other.linksLayers.length > b.linksLayers.length then
      b.linksLayers ++ List.replicate (other.linksLayers.length - b.linksLayers.length) []
    else b.linksLayers with hresized
  have hlen : other.linksLayers.length ≤ resized.length := by
    rw [hresized]
    split_ifs with h
    · rw [List.length_append, List.length_replicate]
      omega
    · omega
  have hget : resized.getD p [] = b.linksLayers.getD p [] := by
    rw [hresized]
    split_ifs
    · simp only [List.getD_eq_getElem?_getD, List.getElem?_append, List.getElem?_replicate]
      split_ifs <;> simp_all
    · rfl
  have hmerge := mergePoints_fst other.linksLayers (b.visitedPool.get b.numPoints).1 [] resized hlen
  simp only [List.nil_append, List.length_nil] at hmerge
  simp only [mergeFromOther]
  rw [← hresized, hmerge, getD_zipLongest _ (fun _ => by cases ‹List _› <;> rfl)
    (fun _ => by cases ‹List _› <;> rfl), hget]

/-- **`merge_from_other` keeps the builder's links and adds the other's**: for every point and
level, the point has as many levels as the more of the two builders gives it; the builder's
list is a prefix of the merged one; the merged list holds exactly the links of both; where the
builder had the level, the merged list repeats no link unless the builder's list did; and
where it did not, the merged list is the other builder's list as it was. -/
theorem mergeFromOther_links (b other : GraphLayersBuilder) (p l : ℕ) :
    ((b.mergeFromOther other).linksLayers.getD p []).length =
        max (b.linksLayers.getD p []).length (other.linksLayers.getD p []).length ∧
    linksAt b.linksLayers p l <+: linksAt (b.mergeFromOther other).linksLayers p l ∧
    (∀ x, x ∈ linksAt (b.mergeFromOther other).linksLayers p l ↔
        x ∈ linksAt b.linksLayers p l ∨ x ∈ linksAt other.linksLayers p l) ∧
    (l < (b.linksLayers.getD p []).length → (linksAt b.linksLayers p l).Nodup →
        (linksAt (b.mergeFromOther other).linksLayers p l).Nodup) ∧
    ((b.linksLayers.getD p []).length ≤ l →
        linksAt (b.mergeFromOther other).linksLayers p l = linksAt other.linksLayers p l) := by
  have hlevel : linksAt (b.mergeFromOther other).linksLayers p l =
      if l < (b.linksLayers.getD p []).length then
        appendNew (linksAt b.linksLayers p l) (linksAt other.linksLayers p l)
      else linksAt other.linksLayers p l := by
    rw [linksAt, getD_mergeFromOther, getD_zipLongest_appendNew]
    rfl
  -- a level the builder lacks: it had no links there
  have hnil : ¬l < (b.linksLayers.getD p []).length → linksAt b.linksLayers p l = [] :=
    fun hl => List.getD_eq_default _ _ (not_lt.mp hl)
  refine ⟨by rw [getD_mergeFromOther, length_zipLongest], ?_, fun x => ?_, fun hl hnodup => ?_,
    fun hl => ?_⟩
  · rw [hlevel]
    split_ifs with hl
    · exact prefix_appendNew _ _
    · rw [hnil hl]
      exact List.nil_prefix
  · rw [hlevel]
    split_ifs with hl
    · exact mem_appendNew
    · rw [hnil hl]
      simp
  · rw [hlevel, if_pos hl]
    exact nodup_appendNew hnodup _
  · rw [hlevel, if_neg (not_lt.mpr hl)]

/-- **A level the builder lacks is copied with its repeats**: a builder with one empty level
for point 0, merged with one whose point 0 has a second level linking point 1 twice, gets that
second level with point 1 twice, though it had no links there. -/
theorem mergeFromOther_copies_repeats :
    ∃ b other : GraphLayersBuilder, linksAt b.linksLayers 0 1 = [] ∧
      ¬ (linksAt (b.mergeFromOther other).linksLayers 0 1).Nodup :=
  ⟨⟨0, 16, 32, 100, false, [[[]]], ⟨[], ⟨[], 1, .nil, Nat.zero_le _, Nat.one_pos⟩⟩, ⟨[]⟩⟩,
    ⟨0, 16, 32, 100, false, [[[], [1, 1]]], ⟨[], ⟨[], 1, .nil, Nat.zero_le _, Nat.one_pos⟩⟩, ⟨[]⟩⟩,
    by decide⟩

end GraphLayersBuilder

end Qdrant
