/-
# Cardinality estimation of a filter

`index/query_estimator.rs` estimates, for a filter, how many points of a segment of `total`
points match it: a triple `min ≤ exp ≤ max`, together with the PRIMARY CLAUSES, the leaf
conditions whose index iterators can serve as a first selection of candidate points.  The
estimation is computed bottom-up over the filter tree:

* a `must` list combines its members by `combine_must_estimations`: the Bonferroni lower bound
  `max(0, a + b - total)` folded from `total`, the least upper bound, and the primary clauses of
  the member with the smallest expectation;
* a `should` list combines by `combine_should_estimations`: the largest lower bound, the sum of
  upper bounds capped by `total`, and the union of primary clauses, which exists only when every
  member has some;
* a `must_not` list inverts each member against `total` (`invert_estimation`) and combines as
  `must`; an inverted estimation has no primary clauses.

The estimator of a leaf (`condition_cardinality` of the payload index) is a parameter here.
`estimate_filter` skips a clause list that is `Some([])` exactly as one that is `None`; that is
where it parts from the checker of `Filter.lean`, for which `should = Some([])` matches nothing.

The expectations are `f64` products of quotients, each operation rounded (`F64`), and the
result rounded to a `usize` (`f64Round`).  The selection estimate of `stat_tools.rs`, which the
numeric and the geo index use for their expectations, is here too.
-/
import Qdrant.Filter
import Qdrant.Lib.Count

namespace Qdrant

/-! ## 1. Estimations -/

/-- `usize::MAX`. -/
def usizeMax : ℕ := 2 ^ 64 - 1

/-- `PrimaryCondition`: a condition whose index can enumerate candidate points. -/
inductive PrimaryCondition where
  | condition (c : FieldCondition)
  | isEmpty (key : String)
  | isNull (key : String)
  | ids (ids : List PointOffsetType)
deriving DecidableEq, Repr

/-- `CardinalityEstimation`. -/
structure CardinalityEstimation where
  primaryClauses : List PrimaryCondition
  min : ℕ
  exp : ℕ
  max : ℕ
deriving DecidableEq, Repr

/-- `CardinalityEstimation::exact`. -/
def CardinalityEstimation.exact (count : ℕ) : CardinalityEstimation := ⟨[], count, count, count⟩

/-- `CardinalityEstimation::unknown`. -/
def CardinalityEstimation.unknown (total : ℕ) : CardinalityEstimation := ⟨[], 0, total / 2, total⟩

/-- `f64::round() as usize`: half away from zero, and negative values saturate to zero. -/
def f64Round (q : ℚ) : ℕ := if q < 0 then 0 else ⌊q + 1 / 2⌋₊

/-! ### `stat_tools` -/

/-- `approx_fact_log`: Stirling's approximation of `ln(n!)`, and `1` below `1`. -/
def approxFactLog (env : Env) (n : ℚ) : ℚ :=
  if n < 1 then 1
  else F64.add (env.ln (env.sqrt (F64.mul (F64.mul 2 F64.pi) n)))
    (F64.mul n (env.ln (F64.div n F64.e)))

/-- `prob_not_select`: the chance that a point is not among `selected` values drawn from
`total`, when each point has `avg` of them. -/
def probNotSelect (env : Env) (total : ℕ) (avg : ℚ) (selected : ℕ) : ℚ :=
  let total : ℚ := F64.round total
  let selected : ℚ := F64.round selected
  env.exp (F64.sub (F64.sub (F64.add (approxFactLog env (F64.sub total avg))
      (approxFactLog env (F64.sub total selected)))
      (approxFactLog env (F64.sub (F64.sub total avg) selected)))
    (approxFactLog env total))

/-- `estimate_multi_value_selection_cardinality`: the expected number of points among
`selectedValuesCount` values; `none` is the panic of its `assert!(total_values >= total_points)`.
With no points, `values_per_point` is NaN or infinite in the code, and the product with
`total_points`, `0`, rounds to the `usize` `0` as the model's `0` does. -/
def estimateMultiValueSelectionCardinality (env : Env)
    (totalPoints totalValues selectedValuesCount : ℕ) : Option ℚ :=
  if totalValues < totalPoints then none
  else
    let valuesPerPoint := F64.div (F64.round totalValues) (F64.round totalPoints)
    let probSelect := F64.sub 1 (probNotSelect env totalValues valuesPerPoint selectedValuesCount)
    some (F64.mul probSelect (F64.round totalPoints))

/-- `Iterator::min_by_key`: the FIRST element with the least key. -/
def minByKey {α : Type} (key : α → ℕ) : List α → Option α
  | [] => none
  | x :: xs => match minByKey key xs with
    | none => some x
    | some y => if key y < key x then some y else some x

/-! ## 2. Combining estimations -/

/-- `combine_should_estimations`. -/
def combineShouldEstimations (estimations : List CardinalityEstimation) (total : ℕ) :
    CardinalityEstimation :=
  let clauses := if estimations.any (·.primaryClauses.isEmpty) then []
    else estimations.flatMap (·.primaryClauses)
  let elementNotHitProb : ℚ :=
    F64.prod (estimations.map fun x => F64.div (F64.round (total - x.exp : ℕ)) (F64.round total))
  let elementHitProb := F64.sub 1 elementNotHitProb
  { primaryClauses := clauses
    min := (estimations.map (·.min)).foldl Nat.max 0
    exp := f64Round (F64.mul elementHitProb (F64.round total))
    max := Nat.min (estimations.map (·.max)).sum total }

/-- The fold of `combine_must_estimations`' lower bound: starting from `total`, each member
`x` takes the running bound to `max(0, acc + x - total)`, computed in `i64`. -/
def mustMinFold (total : ℕ) (mins : List ℕ) : ℕ :=
  (mins.foldl (fun (acc : ℤ) x => max 0 (acc + x - total)) (total : ℤ)).toNat

/-- `combine_must_estimations`. -/
def combineMustEstimations (estimations : List CardinalityEstimation) (total : ℕ) :
    CardinalityEstimation :=
  let expProb : ℚ :=
    F64.prod (estimations.map fun x => F64.div (F64.round x.exp) (F64.round total))
  { primaryClauses :=
      ((minByKey (·.exp) (estimations.filter (!·.primaryClauses.isEmpty))).map
        (·.primaryClauses)).getD []
    min := mustMinFold total (estimations.map (·.min))
    exp := f64Round (F64.mul expProb (F64.round total))
    max := ((estimations.map (·.max)).min?).getD total }

/-- `invert_estimation`: the complement against `total`, with no primary clauses. -/
def invertEstimation (e : CardinalityEstimation) (total : ℕ) : CardinalityEstimation :=
  ⟨[], total - e.max, total - e.exp, total - e.min⟩

/-! ## 3. `estimate_filter` -/

mutual
/-- `estimate_condition`: a nested filter recursively, a leaf by the estimator. -/
def estimateCondition (estimator : Condition → CardinalityEstimation) (total : ℕ) :
    Condition → CardinalityEstimation
  | .filter f => estimateFilter estimator total f
  | c => estimator c
/-- `estimate_filter`: the estimations of the present and non-empty clause lists, combined as
a `must`. -/
def estimateFilter (estimator : Condition → CardinalityEstimation) (total : ℕ) :
    Filter → CardinalityEstimation
  | ⟨should, must, mustNot⟩ =>
    combineMustEstimations
      (estimateMust estimator total must ++ estimateShould estimator total should ++
        estimateMustNot estimator total mustNot) total
/-- The `must` arm of `estimate_filter`: `estimate_must` of a present, non-empty list. -/
def estimateMust (estimator : Condition → CardinalityEstimation) (total : ℕ) :
    Option (List Condition) → List CardinalityEstimation
  | none => []
  | some [] => []
  | some (c :: cs) => [combineMustEstimations (estimateEach estimator total (c :: cs)) total]
/-- The `should` arm of `estimate_filter`: `estimate_should` of a present, non-empty list. -/
def estimateShould (estimator : Condition → CardinalityEstimation) (total : ℕ) :
    Option (List Condition) → List CardinalityEstimation
  | none => []
  | some [] => []
  | some (c :: cs) => [combineShouldEstimations (estimateEach estimator total (c :: cs)) total]
/-- The `must_not` arm of `estimate_filter`: `estimate_must_not` of a present, non-empty list,
whose members are inverted first. -/
def estimateMustNot (estimator : Condition → CardinalityEstimation) (total : ℕ) :
    Option (List Condition) → List CardinalityEstimation
  | none => []
  | some [] => []
  | some (c :: cs) =>
    [combineMustEstimations
      ((estimateEach estimator total (c :: cs)).map (invertEstimation · total)) total]
/-- `conditions.iter().map(estimate)`. -/
def estimateEach (estimator : Condition → CardinalityEstimation) (total : ℕ) :
    List Condition → List CardinalityEstimation
  | [] => []
  | c :: cs => estimateCondition estimator total c :: estimateEach estimator total cs
end

/-! ## 4. Soundness

An estimation is SOUND for a test over a universe `u` of points when it brackets the number of
points that pass.  The three combinators are sound for the conjunction, the disjunction and the
negation of sound members (`combineMustEstimations_sound`, `combineShouldEstimations_sound`,
`invertEstimation_sound`), by the counting facts of `Lib/Count.lean`.  Over a filter tree the
induction carries soundness from the leaves up, and it goes through at every node but one: a
`should` list that is `Some([])` is dropped by `estimate_filter` although it matches nothing.
`noEmptyShould` names the filters without one. -/

section Soundness

variable {ρ : Type} (u : List ρ)

/-- `e` brackets the number of points of `u` that pass `p`. -/
def EstimationSound (e : CardinalityEstimation) (p : ρ → Bool) : Prop :=
  e.min ≤ u.countP p ∧ u.countP p ≤ e.max

/-- The test a condition puts to each point, whose leaf checker is `chk`. -/
def conditionTest (chk : ρ → Condition → Bool) (c : Condition) (x : ρ) : Bool :=
  checkCondition (chk x) c

/-- The estimator that knows the exact count of every condition. -/
def exactEstimator (chk : ρ → Condition → Bool) (c : Condition) : CardinalityEstimation :=
  .exact (u.countP (conditionTest chk c))

theorem exactEstimator_sound (chk : ρ → Condition → Bool) (c : Condition) :
    EstimationSound u (exactEstimator u chk c) (conditionTest chk c) :=
  ⟨le_rfl, le_rfl⟩

mutual
/-- No `should` list of the tree is `Some([])`. -/
def Condition.noEmptyShould : Condition → Bool
  | .filter f => Filter.noEmptyShould f
  | _ => true
/-- No `should` list of the filter is `Some([])`. -/
def Filter.noEmptyShould : Filter → Bool
  | ⟨should, must, mustNot⟩ => should.map List.isEmpty != some true && clausesNoEmptyShould should &&
      clausesNoEmptyShould must && clausesNoEmptyShould mustNot
/-- No `should` list below a clause list is `Some([])`. -/
def clausesNoEmptyShould : Option (List Condition) → Bool
  | none => true
  | some cs => allNoEmptyShould cs
/-- No `should` list below a list of conditions is `Some([])`. -/
def allNoEmptyShould : List Condition → Bool
  | [] => true
  | c :: cs => c.noEmptyShould && allNoEmptyShould cs
end

variable {u}

theorem EstimationSound.congr {e : CardinalityEstimation} {p q : ρ → Bool}
    (h : EstimationSound u e p) (hpq : ∀ x, p x = q x) : EstimationSound u e q := by
  have : p = q := funext hpq
  exact this ▸ h

/-- The Bonferroni fold of `combine_must_estimations` stays below the count of the running
conjunction: the induction is on the members, and the running test `q` absorbs each. -/
theorem mustMinFold_foldl_le (l : List (CardinalityEstimation × (ρ → Bool)))
    (hl : ∀ ep ∈ l, EstimationSound u ep.1 ep.2) (q : ρ → Bool) (acc : ℤ)
    (hacc : acc ≤ u.countP q) :
    ((l.map Prod.fst).map (·.min)).foldl (fun (acc : ℤ) x => max 0 (acc + x - u.length)) acc
      ≤ u.countP (fun x => q x && l.all (·.2 x)) := by
  induction l generalizing q acc with
  | nil => simpa using hacc
  | cons ep l ih =>
    obtain ⟨e, p⟩ := ep
    have hp : EstimationSound u e p := hl (e, p) List.mem_cons_self
    have hbonf := Count.countP_add_countP_le_and u q p
    have hstep : max 0 (acc + e.min - u.length) ≤ u.countP (fun x => q x && p x) := by
      refine max_le (by positivity) ?_
      have := hp.1
      omega
    have hrest := ih (fun ep hep => hl ep (List.mem_cons_of_mem _ hep)) _ _ hstep
    simpa [Bool.and_assoc] using hrest

/-- **`must` is sound for the conjunction of its members.** -/
theorem combineMustEstimations_sound (l : List (CardinalityEstimation × (ρ → Bool)))
    (hl : ∀ ep ∈ l, EstimationSound u ep.1 ep.2) :
    EstimationSound u (combineMustEstimations (l.map Prod.fst) u.length)
      (fun x => l.all (·.2 x)) := by
  constructor
  · -- the fold starts from `total`, the count of the test that always passes
    have h := mustMinFold_foldl_le l hl (fun _ => true) u.length (by simp)
    simp only [combineMustEstimations, mustMinFold, Bool.true_and] at h ⊢
    exact Int.toNat_le.mpr h
  · simp only [combineMustEstimations]
    cases hmin : ((l.map Prod.fst).map (·.max)).min? with
    | none => exact List.countP_le_length
    | some m =>
      obtain ⟨e, he, rfl⟩ := List.mem_map.mp (List.min?_mem hmin)
      obtain ⟨⟨e', p⟩, hep, rfl⟩ := List.mem_map.mp he
      calc u.countP (fun x => l.all (·.2 x))
          ≤ u.countP p := Count.countP_all_le_of_mem Prod.snd hep u
        _ ≤ e'.max := (hl _ hep).2

theorem sum_countP_le_sum_max (l : List (CardinalityEstimation × (ρ → Bool)))
    (hl : ∀ ep ∈ l, EstimationSound u ep.1 ep.2) :
    (l.map fun ep => u.countP ep.2).sum ≤ ((l.map Prod.fst).map (·.max)).sum := by
  induction l with
  | nil => simp
  | cons ep l ih =>
    have h1 := (hl ep List.mem_cons_self).2
    have h2 := ih (fun ep' hep' => hl ep' (List.mem_cons_of_mem _ hep'))
    simp only [List.map_cons, List.sum_cons]
    omega

/-- **`should` is sound for the disjunction of its members.** -/
theorem combineShouldEstimations_sound (l : List (CardinalityEstimation × (ρ → Bool)))
    (hl : ∀ ep ∈ l, EstimationSound u ep.1 ep.2) :
    EstimationSound u (combineShouldEstimations (l.map Prod.fst) u.length)
      (fun x => l.any (·.2 x)) := by
  constructor
  · -- every member's lower bound is below the count of the disjunction
    refine Count.foldl_max_le _ 0 (Nat.zero_le _) ?_
    intro m hm
    obtain ⟨e, he, rfl⟩ := List.mem_map.mp hm
    obtain ⟨⟨e', p⟩, hep, rfl⟩ := List.mem_map.mp he
    exact (hl _ hep).1.trans (Count.countP_le_countP_any_of_mem Prod.snd hep u)
  · -- the union bound, and the count of any test is at most `total`
    have hsum := Count.countP_any_le_sum Prod.snd l u
    have hmax := sum_countP_le_sum_max l hl
    exact le_min (hsum.trans hmax) List.countP_le_length

/-- **`invert_estimation` is sound for the negation.** -/
theorem invertEstimation_sound {e : CardinalityEstimation} {p : ρ → Bool}
    (h : EstimationSound u e p) :
    EstimationSound u (invertEstimation e u.length) (fun x => !p x) := by
  have hnot := Count.countP_not u p
  obtain ⟨h1, h2⟩ := h
  simp only [EstimationSound, invertEstimation]
  omega

theorem estimateEach_eq_map (est : Condition → CardinalityEstimation) (total : ℕ)
    (cs : List Condition) : estimateEach est total cs = cs.map (estimateCondition est total) := by
  induction cs with
  | nil => rfl
  | cons c cs ih => simp [estimateEach, ih]

/-- A clause list contributes nothing, or one sound estimation of the clause's test: the shape
shared by the three arms of `estimate_filter`. -/
theorem clauseEstimation_sound (arm : Option (List Condition) → List CardinalityEstimation)
    (estimate : List Condition → CardinalityEstimation)
    (harm : ∀ c cs, arm (some (c :: cs)) = [estimate (c :: cs)])
    (check : Option (List Condition) → ρ → Bool) (o : Option (List Condition))
    (hnone : arm none = [] ∧ ∀ x, check none x = true)
    (hnil : o = some [] → arm (some []) = [] ∧ ∀ x, check (some []) x = true)
    (hsome : ∀ c cs, o = some (c :: cs) → EstimationSound u (estimate (c :: cs)) (check o)) :
    ∃ l : List (CardinalityEstimation × (ρ → Bool)), l.map Prod.fst = arm o ∧
      (∀ ep ∈ l, EstimationSound u ep.1 ep.2) ∧ ∀ x, l.all (·.2 x) = check o x := by
  match o with
  | none => exact ⟨[], hnone.1.symm, by simp, fun x => (hnone.2 x).symm⟩
  | some [] => exact ⟨[], (hnil rfl).1.symm, by simp, fun x => ((hnil rfl).2 x).symm⟩
  | some (c :: cs) =>
    refine ⟨[(estimate (c :: cs), check (some (c :: cs)))], by simp [harm], ?_, fun x => by simp⟩
    simpa using hsome c cs rfl

variable (chk : ρ → Condition → Bool) (est : Condition → CardinalityEstimation)

/-- The members of a list, each paired with its estimation and its test. -/
def memberTests (total : ℕ) (cs : List Condition) : List (CardinalityEstimation × (ρ → Bool)) :=
  cs.map fun c => (estimateCondition est total c, conditionTest chk c)

theorem map_fst_memberTests (total : ℕ) (cs : List Condition) :
    (memberTests chk est total cs).map Prod.fst = estimateEach est total cs := by
  simp [memberTests, estimateEach_eq_map]

theorem memberTests_sound {cs : List Condition}
    (hcs : ∀ c ∈ cs, EstimationSound u (estimateCondition est u.length c) (conditionTest chk c)) :
    ∀ ep ∈ memberTests chk est u.length cs, EstimationSound u ep.1 ep.2 := by
  intro ep hep
  obtain ⟨c, hc, rfl⟩ := List.mem_map.mp hep
  exact hcs c hc

section Lists

variable {chk est} {cs : List Condition}
  (hcs : ∀ c ∈ cs, EstimationSound u (estimateCondition est u.length c) (conditionTest chk c))
include hcs

theorem estimateMust_list_sound :
    EstimationSound u (combineMustEstimations (estimateEach est u.length cs) u.length)
      (fun x => checkMust (chk x) (some cs)) := by
  have h := combineMustEstimations_sound _ (memberTests_sound chk est hcs)
  rw [map_fst_memberTests] at h
  exact h.congr fun x => by simp [checkMust, memberTests, conditionTest, Function.comp_def]

theorem estimateShould_list_sound :
    EstimationSound u (combineShouldEstimations (estimateEach est u.length cs) u.length)
      (fun x => checkShould (chk x) (some cs)) := by
  have h := combineShouldEstimations_sound _ (memberTests_sound chk est hcs)
  rw [map_fst_memberTests] at h
  exact h.congr fun x => by simp [checkShould, memberTests, conditionTest, Function.comp_def]

theorem estimateMustNot_list_sound :
    EstimationSound u (combineMustEstimations
        ((estimateEach est u.length cs).map (invertEstimation · u.length)) u.length)
      (fun x => checkMustNot (chk x) (some cs)) := by
  -- each member is inverted before the `must` combination
  let l := (memberTests chk est u.length cs).map fun ep => (invertEstimation ep.1 u.length, fun x => !ep.2 x)
  have hl : ∀ ep ∈ l, EstimationSound u ep.1 ep.2 := by
    intro ep hep
    obtain ⟨ep', hep', rfl⟩ := List.mem_map.mp hep
    exact invertEstimation_sound (memberTests_sound chk est hcs ep' hep')
  have h := combineMustEstimations_sound l hl
  have hfst : l.map Prod.fst = (estimateEach est u.length cs).map (invertEstimation · u.length) := by
    rw [← map_fst_memberTests chk est u.length cs]
    simp [l]
  rw [hfst] at h
  exact h.congr fun x => by simp [l, checkMustNot, memberTests, conditionTest, Function.comp_def]

end Lists

mutual
/-- Soundness of `estimate_condition`: a leaf by the leaf estimator, a nested filter by
`estimateFilter_sound`. -/
theorem estimateCondition_sound
    (hleaf : ∀ c, (∀ f, c ≠ .filter f) → EstimationSound u (est c) (conditionTest chk c)) :
    ∀ c : Condition, c.noEmptyShould = true →
      EstimationSound u (estimateCondition est u.length c) (conditionTest chk c)
  | .filter f, h => by
    have hf := estimateFilter_sound hleaf f h
    have htest : conditionTest chk (.filter f) = fun x => checkFilter (chk x) f := by
      funext x
      simp [conditionTest]
    rw [htest]
    simpa [estimateCondition] using hf
  | .field fc, _ => hleaf _ (fun _ h => by cases h)
  | .isEmpty key, _ => hleaf _ (fun _ h => by cases h)
  | .isNull key, _ => hleaf _ (fun _ h => by cases h)
  | .hasId ids, _ => hleaf _ (fun _ h => by cases h)
termination_by structural c => c
/-- **Soundness of `estimate_filter`**: if the leaf estimator brackets every leaf condition,
the estimation of a filter without an empty `should` list brackets the number of points it
matches. -/
theorem estimateFilter_sound
    (hleaf : ∀ c, (∀ f, c ≠ .filter f) → EstimationSound u (est c) (conditionTest chk c)) :
    ∀ f : Filter, f.noEmptyShould = true →
      EstimationSound u (estimateFilter est u.length f) (fun x => checkFilter (chk x) f)
  | ⟨should, must, mustNot⟩, h => by
    simp only [Filter.noEmptyShould, Bool.and_eq_true, bne_iff_ne, ne_eq] at h
    obtain ⟨⟨⟨hne, hs⟩, hm⟩, hmn⟩ := h
    have hmust := clausesNoEmptyShould_sound hleaf must hm
    have hshould := clausesNoEmptyShould_sound hleaf should hs
    have hmustNot := clausesNoEmptyShould_sound hleaf mustNot hmn
    -- each clause list contributes at most one sound estimation of its own test
    obtain ⟨lm, hlm, hlm', hlm''⟩ := clauseEstimation_sound (estimateMust est u.length)
      (fun cs => combineMustEstimations (estimateEach est u.length cs) u.length)
      (fun _ _ => rfl) (fun o x => checkMust (chk x) o) must ⟨rfl, fun _ => rfl⟩
      (fun _ => ⟨rfl, fun _ => rfl⟩) (fun c cs ho => by
        subst ho
        exact estimateMust_list_sound (hmust _ rfl))
    obtain ⟨ls, hls, hls', hls''⟩ := clauseEstimation_sound (estimateShould est u.length)
      (fun cs => combineShouldEstimations (estimateEach est u.length cs) u.length)
      (fun _ _ => rfl) (fun o x => checkShould (chk x) o) should ⟨rfl, fun _ => rfl⟩
      (fun ho => by simp [ho] at hne) (fun c cs ho => by
        subst ho
        exact estimateShould_list_sound (hshould _ rfl))
    obtain ⟨lmn, hlmn, hlmn', hlmn''⟩ := clauseEstimation_sound (estimateMustNot est u.length)
      (fun cs => combineMustEstimations
        ((estimateEach est u.length cs).map (invertEstimation · u.length)) u.length)
      (fun _ _ => rfl) (fun o x => checkMustNot (chk x) o) mustNot ⟨rfl, fun _ => rfl⟩
      (fun _ => ⟨rfl, fun _ => rfl⟩) (fun c cs ho => by
        subst ho
        exact estimateMustNot_list_sound (hmustNot _ rfl))
    have h := combineMustEstimations_sound (lm ++ ls ++ lmn) (by
      intro ep hep
      simp only [List.mem_append] at hep
      rcases hep with (hep | hep) | hep
      · exact hlm' ep hep
      · exact hls' ep hep
      · exact hlmn' ep hep)
    rw [List.map_append, List.map_append, hlm, hls, hlmn] at h
    refine h.congr fun x => ?_
    simp only [List.all_append, hlm'', hls'', hlmn'', checkFilter_mk]
    cases checkShould (chk x) should <;> cases checkMust (chk x) must <;> rfl
termination_by structural f => f
/-- The members of a present clause list are sound. -/
theorem clausesNoEmptyShould_sound
    (hleaf : ∀ c, (∀ f, c ≠ .filter f) → EstimationSound u (est c) (conditionTest chk c)) :
    ∀ o : Option (List Condition), clausesNoEmptyShould o = true → ∀ cs, o = some cs →
      ∀ c ∈ cs, EstimationSound u (estimateCondition est u.length c) (conditionTest chk c)
  | none, _, _, ho => by cases ho
  | some cs, h, _, ho => by
    cases ho
    exact allNoEmptyShould_sound hleaf cs h
termination_by structural o => o
/-- The members of a list are sound. -/
theorem allNoEmptyShould_sound
    (hleaf : ∀ c, (∀ f, c ≠ .filter f) → EstimationSound u (est c) (conditionTest chk c)) :
    ∀ cs : List Condition, allNoEmptyShould cs = true →
      ∀ c ∈ cs, EstimationSound u (estimateCondition est u.length c) (conditionTest chk c)
  | [], _ => by simp
  | c :: cs, h => by
    simp only [allNoEmptyShould, Bool.and_eq_true] at h
    have hc := estimateCondition_sound hleaf c h.1
    have hcs := allNoEmptyShould_sound hleaf cs h.2
    intro c' hc'
    rcases List.mem_cons.mp hc' with rfl | hc'
    · exact hc
    · exact hcs c' hc'
termination_by structural cs => cs
end

theorem estimateFilter_sound_exact_must :
    EstimationSound [fun _ => true, fun _ => false]
      (estimateFilter (exactEstimator [fun _ => true, fun _ => false] id) 2
        { must := some [.isEmpty "a", .filter { should := some [.isNull "b"] }] })
      (fun x => checkFilter x { must := some [.isEmpty "a", .filter { should := some [.isNull "b"] }] }) :=
  estimateFilter_sound id (exactEstimator [fun _ => true, fun _ => false] id)
    (fun c _ => exactEstimator_sound _ id c) _ rfl

/-- **An empty `should` list breaks soundness**: over a single point, with the exact leaf
estimator, the filter `should = Some([])` is estimated to match at least one point, and it
matches none. -/
theorem estimateFilter_should_nil_unsound (chk : Condition → Bool) :
    (∀ c, EstimationSound [chk] (exactEstimator [chk] id c) (conditionTest id c)) ∧
      ¬ EstimationSound [chk] (estimateFilter (exactEstimator [chk] id) [chk].length
          { should := some [] }) (fun x => checkFilter x { should := some [] }) := by
  refine ⟨exactEstimator_sound [chk] id, ?_⟩
  rintro ⟨hmin, -⟩
  have hcount : [chk].countP (fun x => checkFilter x { should := some [] }) = 0 := by
    simp [checkShould]
  -- `estimate_filter` skips the empty list and combines nothing: its lower bound is `total`
  have hest : (estimateFilter (exactEstimator [chk] id) [chk].length { should := some [] }).min
      = 1 := rfl
  omega

end Soundness

end Qdrant
