/-
# The optimised filter

`index/query_optimization` compiles a `Filter` into an `OptimizedFilter` that
`StructFilterContext::check` evaluates point by point.  Three things happen on the way:

* every leaf becomes a CHECKER, a function of the point (`condition_converter`): a field
  condition on an indexed key is answered from the first index that serves its FIRST served
  sub-condition (`field_condition_index`: match, then range, then geo radius, then geo box),
  any other leaf from the payload, and `has_id` from the ids' internal offsets;
* the members of each clause list are SORTED by their estimated cardinality (`must` and
  `must_not` ascending, `should` descending), stably;
* a clause list that is `Some([])` becomes `None`.

`check_optimized_filter` then reads the tree exactly as `check_filter` reads a filter.  The
refinement theorem of this module says when the two agree: when every leaf checker agrees with
the payload checker, and no `should` list is empty.  The empty `should` list is where they
part: `check_filter` rejects every point, the optimised filter accepts every point.
-/
import Qdrant.Index.FieldIndex
import Qdrant.Index.QueryEstimator
import Qdrant.Segment.IdTracker

namespace Qdrant

/-! ## 1. Checkers of leaves -/

/-- `get_match_checkers`: keyword and integer map indexes answer `match` and `match any`, the
text index a text match. -/
def getMatchCheckers (env : Env) (index : FieldIndex) (condMatch : Match) :
    Option (PointOffsetType → Bool) :=
  match condMatch, index with
  | .value (.keyword keyword), .keywordIndex i =>
    some fun id => ((i.getValues id).map fun vs => vs.any (· = keyword)).getD false
  | .value (.integer value), .intMapIndex i =>
    some fun id => ((i.getValues id).map fun vs => vs.any (· = value)).getD false
  | .value _, _ => none
  | .text text, .fullTextIndex i =>
    let parsedQuery := i.parseQuery env text
    some fun id => ((i.getDoc id).map (checkMatch parsedQuery)).getD false
  | .text _, _ => none
  | .any (.keywords list), .keywordIndex i =>
    some fun id => ((i.getValues id).map fun vs => vs.any (list.contains ·)).getD false
  | .any (.integers list), .intMapIndex i =>
    some fun id => ((i.getValues id).map fun vs => vs.any (list.contains ·)).getD false
  | .any _, _ => none

/-- `get_range_checkers`: the numeric indexes; an integer is compared as the `f64` it rounds
to (`i as f64`). -/
def getRangeCheckers (index : FieldIndex) (range : Range) : Option (PointOffsetType → Bool) :=
  match index with
  | .intIndex i =>
    some fun id =>
      ((i.getValues id).map fun vs => vs.any fun v => range.checkRange (F64.round v)).getD false
  | .floatIndex i =>
    some fun id => ((i.getValues id).map fun vs => vs.any range.checkRange).getD false
  | _ => none

/-- `get_geo_radius_checkers` and `get_geo_bounding_box_checkers`: the geo index. -/
def getGeoCheckers (index : FieldIndex) (check : GeoPoint → Bool) :
    Option (PointOffsetType → Bool) :=
  match index with
  | .geoIndex i => some fun id => ((i.getValues id).map fun vs => vs.any check).getD false
  | _ => none

/-- `field_condition_index`: the checker of the first sub-condition this index serves. -/
def fieldConditionIndex (env : Env) (index : FieldIndex) (fc : FieldCondition) :
    Option (PointOffsetType → Bool) :=
  (fc.«match».bind (getMatchCheckers env index)).orElse fun _ =>
  (fc.range.bind (getRangeCheckers index)).orElse fun _ =>
  (fc.geoRadius.bind fun r => getGeoCheckers index fun p => r.checkPoint env p.lon p.lat).orElse
    fun _ => fc.geoBoundingBox.bind fun b => getGeoCheckers index fun p => b.checkPoint p.lon p.lat

/-- `condition_converter`: the checker of a leaf.  `payloadOf` is the `PayloadProvider` (the
empty payload for a point without one).  A nested filter never reaches it. -/
def conditionConverter (env : Env) (fieldIndexes : List (String × List FieldIndex))
    (payloadOf : PointOffsetType → Payload) (idTracker : IdTracker) :
    Condition → PointOffsetType → Bool
  | .field fc =>
    (((fieldIndexes.lookup fc.key).bind fun indexes =>
      indexes.findSome? fun index => fieldConditionIndex env index fc)).getD
      fun id => checkFieldCondition env fc (payloadOf id)
  | .isEmpty key => fun id => checkIsEmptyCondition key (payloadOf id)
  | .isNull key => fun id => checkIsNullCondition key (payloadOf id)
  | .hasId ids =>
    let segmentIds := ids.filterMap idTracker.internalId
    fun id => segmentIds.contains id
  | .filter _ => fun _ => false

/-! ## 2. The optimised tree -/

mutual
/-- `OptimizedCondition`. -/
inductive OptimizedCondition where
  | checker (f : PointOffsetType → Bool)
  | filter (f : OptimizedFilter)
/-- `OptimizedFilter`. -/
structure OptimizedFilter where
  should : Option (List OptimizedCondition)
  must : Option (List OptimizedCondition)
  mustNot : Option (List OptimizedCondition)
end

/-- `sort_by_key(|(_, e)| e.exp)`: stable, ascending.  Any two stable sorts by one key give
the same list; insertion sort is the one that computes by structural recursion. -/
def sortByExp (l : List (OptimizedCondition × CardinalityEstimation)) :
    List (OptimizedCondition × CardinalityEstimation) :=
  l.insertionSort fun a b => a.2.exp ≤ b.2.exp

/-- `sort_by_key(|(_, e)| Reverse(e.exp))`: stable, descending. -/
def sortByExpDesc (l : List (OptimizedCondition × CardinalityEstimation)) :
    List (OptimizedCondition × CardinalityEstimation) :=
  l.insertionSort fun a b => b.2.exp ≤ a.2.exp

section Optimize

variable (convert : Condition → PointOffsetType → Bool)
  (estimator : Condition → CardinalityEstimation) (total : ℕ)

mutual
/-- `optimize_filter`: the optimised clause lists and the filter's estimation. -/
def optimizeFilter : Filter → OptimizedFilter × CardinalityEstimation
  | ⟨should, must, mustNot⟩ =>
    let s := optimizeShould should
    let m := optimizeMust must
    let n := optimizeMustNot mustNot
    (⟨s.map (·.1), m.map (·.1), n.map (·.1)⟩,
      combineMustEstimations (s.toList.map (·.2) ++ m.toList.map (·.2) ++ n.toList.map (·.2)) total)
/-- `optimize_should` of a present, non-empty list. -/
def optimizeShould : Option (List Condition) →
    Option (List OptimizedCondition × CardinalityEstimation)
  | none => none
  | some [] => none
  | some (c :: cs) =>
    let converted := sortByExpDesc (convertConditions (c :: cs))
    some (converted.map (·.1), combineShouldEstimations (converted.map (·.2)) total)
/-- `optimize_must` of a present, non-empty list. -/
def optimizeMust : Option (List Condition) →
    Option (List OptimizedCondition × CardinalityEstimation)
  | none => none
  | some [] => none
  | some (c :: cs) =>
    let converted := sortByExp (convertConditions (c :: cs))
    some (converted.map (·.1), combineMustEstimations (converted.map (·.2)) total)
/-- `optimize_must_not` of a present, non-empty list. -/
def optimizeMustNot : Option (List Condition) →
    Option (List OptimizedCondition × CardinalityEstimation)
  | none => none
  | some [] => none
  | some (c :: cs) =>
    let converted := sortByExp (convertConditions (c :: cs))
    some (converted.map (·.1),
      combineMustEstimations (converted.map fun e => invertEstimation e.2 total) total)
/-- `convert_conditions`. -/
def convertConditions : List Condition → List (OptimizedCondition × CardinalityEstimation)
  | [] => []
  | c :: cs => convertCondition c :: convertConditions cs
/-- One member: a nested filter is optimised, a leaf becomes its checker. -/
def convertCondition : Condition → OptimizedCondition × CardinalityEstimation
  | .filter f => let (o, e) := optimizeFilter f; (.filter o, e)
  | c => (.checker (convert c), estimator c)
end

end Optimize

mutual
/-- `check_optimized_filter`. -/
def checkOptimizedFilter (id : PointOffsetType) : OptimizedFilter → Bool
  | ⟨should, must, mustNot⟩ =>
    checkOptimizedShould id should && checkOptimizedMust id must &&
      checkOptimizedMustNot id mustNot
/-- `check_condition` of the optimised tree. -/
def checkOptimizedCondition (id : PointOffsetType) : OptimizedCondition → Bool
  | .filter f => checkOptimizedFilter id f
  | .checker f => f id
/-- `check_should`. -/
def checkOptimizedShould (id : PointOffsetType) : Option (List OptimizedCondition) → Bool
  | none => true
  | some cs => anyOptimized id cs
/-- `check_must`. -/
def checkOptimizedMust (id : PointOffsetType) : Option (List OptimizedCondition) → Bool
  | none => true
  | some cs => allOptimized id cs
/-- `check_must_not`. -/
def checkOptimizedMustNot (id : PointOffsetType) : Option (List OptimizedCondition) → Bool
  | none => true
  | some cs => noneOptimized id cs
/-- `conditions.iter().any(check)`. -/
def anyOptimized (id : PointOffsetType) : List OptimizedCondition → Bool
  | [] => false
  | c :: cs => checkOptimizedCondition id c || anyOptimized id cs
/-- `conditions.iter().all(check)`. -/
def allOptimized (id : PointOffsetType) : List OptimizedCondition → Bool
  | [] => true
  | c :: cs => checkOptimizedCondition id c && allOptimized id cs
/-- `conditions.iter().all(|x| !check(x))`. -/
def noneOptimized (id : PointOffsetType) : List OptimizedCondition → Bool
  | [] => true
  | c :: cs => !checkOptimizedCondition id c && noneOptimized id cs
end

/-! ## 3. The optimised filter refines the filter

Fix a point `p` and the checker `chk` of its leaves.  If the converter agrees with `chk` on
every leaf, the optimised filter of a filter without an empty `should` list checks `p` as
`check_filter` does: the conversion of each member keeps its verdict, the sort only permutes
the members (`any` and `all` do not see the order), and the `Some([])` lists that become `None`
are the `must` and `must_not` ones, which impose nothing either way. -/

section Refinement

variable (convert : Condition → PointOffsetType → Bool)
  (estimator : Condition → CardinalityEstimation) (total : ℕ)
  (p : PointOffsetType) (chk : Condition → Bool)

@[simp] theorem anyOptimized_eq (cs : List OptimizedCondition) :
    anyOptimized p cs = cs.any (checkOptimizedCondition p) := by
  induction cs with
  | nil => rfl
  | cons c cs ih => simp [anyOptimized, ih]

@[simp] theorem allOptimized_eq (cs : List OptimizedCondition) :
    allOptimized p cs = cs.all (checkOptimizedCondition p) := by
  induction cs with
  | nil => rfl
  | cons c cs ih => simp [allOptimized, ih]

@[simp] theorem noneOptimized_eq (cs : List OptimizedCondition) :
    noneOptimized p cs = cs.all (fun c => !checkOptimizedCondition p c) := by
  induction cs with
  | nil => rfl
  | cons c cs ih => simp [noneOptimized, ih]

theorem convertConditions_eq_map (cs : List Condition) :
    convertConditions convert estimator total cs = cs.map (convertCondition convert estimator total) := by
  induction cs with
  | nil => rfl
  | cons c cs ih => simp [convertConditions, ih]

/-- The converted member `c` checks `p` as `c` does. -/
def ConvertAgrees (c : Condition) : Prop :=
  checkOptimizedCondition p (convertCondition convert estimator total c).1 = checkCondition chk c

section Clauses

variable {convert estimator total p chk} {cs : List Condition}
  (hcs : ∀ c ∈ cs, ConvertAgrees convert estimator total p chk c)
include hcs

/-- Reading the converted members in any order: a test on their verdicts is the test on the
members' own verdicts. -/
theorem map_converted_verdicts :
    (convertConditions convert estimator total cs).map (fun e => checkOptimizedCondition p e.1) =
      cs.map (checkCondition chk) := by
  rw [convertConditions_eq_map, List.map_map]
  exact List.map_congr_left fun c hc => hcs c hc

theorem any_sortByExpDesc :
    ((sortByExpDesc (convertConditions convert estimator total cs)).map (·.1)).any
      (checkOptimizedCondition p) = cs.any (checkCondition chk) := by
  have hperm := List.perm_insertionSort (fun a b => b.2.exp ≤ a.2.exp)
    (convertConditions convert estimator total cs)
  calc ((sortByExpDesc (convertConditions convert estimator total cs)).map (·.1)).any
        (checkOptimizedCondition p)
      = (convertConditions convert estimator total cs).any
          (fun e => checkOptimizedCondition p e.1) := by
        rw [List.any_map, sortByExpDesc, hperm.any_eq]
        rfl
    _ = ((convertConditions convert estimator total cs).map
          (fun e => checkOptimizedCondition p e.1)).any id := by simp
    _ = cs.any (checkCondition chk) := by
        rw [map_converted_verdicts hcs]
        simp

theorem all_sortByExp :
    ((sortByExp (convertConditions convert estimator total cs)).map (·.1)).all
      (checkOptimizedCondition p) = cs.all (checkCondition chk) := by
  have hperm := List.perm_insertionSort (fun a b => a.2.exp ≤ b.2.exp)
    (convertConditions convert estimator total cs)
  calc ((sortByExp (convertConditions convert estimator total cs)).map (·.1)).all
        (checkOptimizedCondition p)
      = (convertConditions convert estimator total cs).all
          (fun e => checkOptimizedCondition p e.1) := by
        rw [List.all_map, sortByExp, hperm.all_eq]
        rfl
    _ = ((convertConditions convert estimator total cs).map
          (fun e => checkOptimizedCondition p e.1)).all id := by simp
    _ = cs.all (checkCondition chk) := by
        rw [map_converted_verdicts hcs]
        simp

theorem none_sortByExp :
    ((sortByExp (convertConditions convert estimator total cs)).map (·.1)).all
      (fun c => !checkOptimizedCondition p c) = cs.all (fun c => !checkCondition chk c) := by
  have hperm := List.perm_insertionSort (fun a b => a.2.exp ≤ b.2.exp)
    (convertConditions convert estimator total cs)
  calc ((sortByExp (convertConditions convert estimator total cs)).map (·.1)).all
        (fun c => !checkOptimizedCondition p c)
      = (convertConditions convert estimator total cs).all
          (fun e => !checkOptimizedCondition p e.1) := by
        rw [List.all_map, sortByExp, hperm.all_eq]
        rfl
    _ = ((convertConditions convert estimator total cs).map
          (fun e => checkOptimizedCondition p e.1)).all (!·) := by
        simp [Function.comp_def]
    _ = cs.all (fun c => !checkCondition chk c) := by
        rw [map_converted_verdicts hcs]
        simp [Function.comp_def]

end Clauses

variable {convert estimator total p chk}

/-- The `should` arm: an optimised non-empty list is read as the list. -/
theorem optimizeShould_check {o : Option (List Condition)} (hne : ¬o.map List.isEmpty = some true)
    (hmem : ∀ cs, o = some cs → ∀ c ∈ cs, ConvertAgrees convert estimator total p chk c) :
    checkOptimizedShould p ((optimizeShould convert estimator total o).map (·.1)) =
      checkShould chk o := by
  match o, hne, hmem with
  | none, _, _ => rfl
  | some [], hne, _ => simp at hne
  | some (c :: cs), _, hmem =>
    simp only [optimizeShould, Option.map_some, checkOptimizedShould, anyOptimized_eq,
      checkShould, anyCondition_eq]
    exact any_sortByExpDesc (hmem _ rfl)

/-- The `must` arm: `Some([])` becomes `None`, and both impose nothing. -/
theorem optimizeMust_check {o : Option (List Condition)}
    (hmem : ∀ cs, o = some cs → ∀ c ∈ cs, ConvertAgrees convert estimator total p chk c) :
    checkOptimizedMust p ((optimizeMust convert estimator total o).map (·.1)) =
      checkMust chk o := by
  match o, hmem with
  | none, _ => rfl
  | some [], _ => rfl
  | some (c :: cs), hmem =>
    simp only [optimizeMust, Option.map_some, checkOptimizedMust, allOptimized_eq,
      checkMust, allConditions_eq]
    exact all_sortByExp (hmem _ rfl)

/-- The `must_not` arm, as the `must` one. -/
theorem optimizeMustNot_check {o : Option (List Condition)}
    (hmem : ∀ cs, o = some cs → ∀ c ∈ cs, ConvertAgrees convert estimator total p chk c) :
    checkOptimizedMustNot p ((optimizeMustNot convert estimator total o).map (·.1)) =
      checkMustNot chk o := by
  match o, hmem with
  | none, _ => rfl
  | some [], _ => rfl
  | some (c :: cs), hmem =>
    simp only [optimizeMustNot, Option.map_some, checkOptimizedMustNot, noneOptimized_eq,
      checkMustNot, noConditions_eq]
    exact none_sortByExp (hmem _ rfl)

mutual
/-- A member converts to an agreeing one: a leaf by the converter's agreement, a nested filter
by `optimizeFilter_check`. -/
theorem convertCondition_agrees (hleaf : ∀ c, (∀ f, c ≠ .filter f) → convert c p = chk c) :
    ∀ c : Condition, c.noEmptyShould = true → ConvertAgrees convert estimator total p chk c
  | .filter f, h => by
    have hf := optimizeFilter_check hleaf f h
    simpa [ConvertAgrees, convertCondition, checkOptimizedCondition] using hf
  | .field fc, _ => hleaf _ (fun _ h => by cases h)
  | .isEmpty key, _ => hleaf _ (fun _ h => by cases h)
  | .isNull key, _ => hleaf _ (fun _ h => by cases h)
  | .hasId ids, _ => hleaf _ (fun _ h => by cases h)
termination_by structural c => c
/-- **The optimised filter refines the filter**: for a filter without an empty `should`
list, if the converter agrees with the leaf checker of a point, the optimised filter checks the
point as `check_filter` does. -/
theorem optimizeFilter_check (hleaf : ∀ c, (∀ f, c ≠ .filter f) → convert c p = chk c) :
    ∀ f : Filter, f.noEmptyShould = true →
      checkOptimizedFilter p (optimizeFilter convert estimator total f).1 = checkFilter chk f
  | ⟨should, must, mustNot⟩, h => by
    simp only [Filter.noEmptyShould, Bool.and_eq_true, bne_iff_ne, ne_eq] at h
    obtain ⟨⟨⟨hne, hs⟩, hm⟩, hmn⟩ := h
    have hshould := clausesAgree hleaf should hs
    have hmust := clausesAgree hleaf must hm
    have hmustNot := clausesAgree hleaf mustNot hmn
    simp only [optimizeFilter, checkOptimizedFilter, checkFilter_mk]
    rw [optimizeShould_check hne hshould, optimizeMust_check hmust, optimizeMustNot_check hmustNot]
termination_by structural f => f
/-- The members of a present clause list agree. -/
theorem clausesAgree (hleaf : ∀ c, (∀ f, c ≠ .filter f) → convert c p = chk c) :
    ∀ o : Option (List Condition), clausesNoEmptyShould o = true → ∀ cs, o = some cs →
      ∀ c ∈ cs, ConvertAgrees convert estimator total p chk c
  | none, _, _, ho => by cases ho
  | some cs, h, _, ho => by
    cases ho
    exact allAgree hleaf cs h
termination_by structural o => o
/-- The members of a list agree. -/
theorem allAgree (hleaf : ∀ c, (∀ f, c ≠ .filter f) → convert c p = chk c) :
    ∀ cs : List Condition, allNoEmptyShould cs = true →
      ∀ c ∈ cs, ConvertAgrees convert estimator total p chk c
  | [], _ => by simp
  | c :: cs, h => by
    simp only [allNoEmptyShould, Bool.and_eq_true] at h
    have hc := convertCondition_agrees hleaf c h.1
    have hcs := allAgree hleaf cs h.2
    intro c' hc'
    rcases List.mem_cons.mp hc' with rfl | hc'
    · exact hc
    · exact hcs c' hc'
termination_by structural cs => cs
end

/-- A converter that accepts every point, on a filter with a nested `must_not`. -/
theorem optimizeFilter_check_nested :
    checkOptimizedFilter 0 (optimizeFilter (fun _ _ => true) (fun _ => .exact 0) 1
        { must := some [.isEmpty "a", .filter { mustNot := some [.isNull "b"] }] }).1 =
      checkFilter (fun _ => true)
        { must := some [.isEmpty "a", .filter { mustNot := some [.isNull "b"] }] } :=
  @optimizeFilter_check (fun _ _ => true) (fun _ => .exact 0) 1 0 (fun _ => true)
    (fun _ _ => rfl) _ rfl

/-- **An empty `should` list is where the refinement breaks**: whatever the converter, the
estimator and the point, the optimised filter of `should = Some([])` accepts the point and
`check_filter` rejects it. -/
theorem optimizeFilter_should_nil_accepts (chk : Condition → Bool) :
    checkOptimizedFilter p (optimizeFilter convert estimator total { should := some [] }).1 = true ∧
      checkFilter chk { should := some [] } = false := by
  constructor
  · rfl
  · simp [checkShould]


end Refinement

end Qdrant
