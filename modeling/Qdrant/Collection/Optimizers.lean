/-
# The optimisers' choice of segments

Each optimiser of `collection_manager/optimizers/` decides in `check_condition`, from what it
reads of every segment of the holder, which segments the next optimisation takes.  None of
them takes a segment whose id is excluded (one that an optimisation already holds) or a
`Special` segment; beyond that:

* the MERGE optimiser, when the holder has more original segments than `max_segments`, takes
  the smallest ones, smallest first, as many as fit under `max_segment_size` together and at
  most as many as leave `max_segments - 1` segments, and nothing when fewer than three fit
  (`merge_takes_smallest_fitting_segments`);
* the VACUUM optimiser takes the segment with the largest share of deleted points among those
  big enough and over the threshold; a segment whose points are all deleted has the share
  `+∞`, and one with no points at all (`0 / 0`) is never taken
  (`vacuum_takes_most_littered_segment`);
* the INDEXING optimiser takes the largest segment that has grown past the indexing or the
  memmap threshold without the index or the storage it needs, and with it, when the two fit
  under `max_segment_size`, the smallest such segment or else the smallest segment already
  indexed or memmapped (`indexing_takes_largest_unindexed_segment`).

What an optimiser reads of a segment through `segment.get().read()` (its type, its counts, its
vector sizes and its config) is a function `stats` of the locked segment: the segment model
carries no index or storage configuration.  Sizes are in `usize`; their products and sums are
taken not to overflow.
-/
import Qdrant.Collection.Deduplication
import Qdrant.Lib.Select

namespace Qdrant

open Select

/-! ## 1. What the optimisers read -/

/-- `SegmentType`. -/
inductive SegmentType where
  | plain
  | indexed
  | special
deriving DecidableEq, Repr

/-- `Indexes`: the vector index of a segment's config (its parameters are not read here). -/
inductive Indexes where
  | plain
  | hnsw
deriving DecidableEq, Repr

/-- `StorageType`. -/
inductive StorageType where
  | inMemory
  | mmap
deriving DecidableEq, Repr

/-- What `check_condition` reads of a segment through its read lock: `segment_type()`,
`points_count()`, `deleted_count()`, the values of `vector_dims()`, and `config().index` and
`config().storage_type`. -/
structure SegmentStats where
  segmentType : SegmentType
  pointsCount : ℕ
  deletedCount : ℕ
  vectorDims : List ℕ
  index : Indexes
  storageType : StorageType
deriving DecidableEq, Repr

/-- `OptimizerThresholds`, in kilobytes. -/
structure OptimizerThresholds where
  maxSegmentSize : ℕ
  memmapThreshold : ℕ
  indexingThreshold : ℕ
deriving DecidableEq, Repr

/-- `VECTOR_ELEMENT_SIZE`: the bytes of an `f32`. -/
def vectorElementSize : ℕ := 4

/-- `BYTES_IN_KB`. -/
def bytesInKb : ℕ := 1024

/-- `usize::saturating_mul`. -/
def saturatingMul (a b : ℕ) : ℕ := min (a * b) usizeMax

/-- The size of a segment's vectors, `points_count * max(vector_dims) * VECTOR_ELEMENT_SIZE`,
with `unwrap_or(0)` for a segment without vectors. -/
def SegmentStats.vectorSize (s : SegmentStats) : ℕ :=
  s.pointsCount * s.vectorDims.max?.getD 0 * vectorElementSize

/-- `matches!(segment, LockedSegment::Original(_))`. -/
def LockedSegment.isOriginal : LockedSegment → Bool
  | .original _ => true
  | .proxy _ => false

/-! ## 2. `min_by_key`

`Iterator::min_by_key` is `minByKey` of the query estimator: the FIRST element with the least
key. -/

section MinByKey

variable {α : Type} {key : α → ℕ}

@[simp] theorem minByKey_eq_none {l : List α} : minByKey key l = none ↔ l = [] := by
  cases l with
  | nil => simp [minByKey]
  | cons x xs =>
    simp only [minByKey, reduceCtorEq, iff_false]
    split
    · simp
    · split <;> simp

theorem minByKey_mem : ∀ {l : List α} {m : α}, minByKey key l = some m → m ∈ l
  | [], _, h => absurd h (by simp [minByKey])
  | x :: xs, m, h => by
    unfold minByKey at h
    split at h
    · rw [Option.some.injEq] at h
      exact h ▸ List.mem_cons_self
    · rename_i y hy
      split at h
      · rw [Option.some.injEq] at h
        exact h ▸ List.mem_cons_of_mem _ (minByKey_mem hy)
      · rw [Option.some.injEq] at h
        exact h ▸ List.mem_cons_self

theorem minByKey_le : ∀ {l : List α} {m : α}, minByKey key l = some m → ∀ y ∈ l, key m ≤ key y
  | [], _, h => absurd h (by simp [minByKey])
  | x :: xs, m, h => by
    unfold minByKey at h
    split at h
    · -- the rest is empty: `x` is the only element
      rename_i hnone
      rw [Option.some.injEq] at h
      subst h
      intro y hy
      rw [minByKey_eq_none.mp hnone, List.mem_singleton] at hy
      rw [hy]
    · rename_i y hy
      have hrest := minByKey_le hy
      intro z hz
      split at h
      · rw [Option.some.injEq] at h
        subst h
        rcases List.mem_cons.mp hz with rfl | hz
        · exact le_of_lt ‹_›
        · exact hrest z hz
      · rw [Option.some.injEq] at h
        subst h
        rcases List.mem_cons.mp hz with rfl | hz
        · exact le_rfl
        · exact (not_lt.mp ‹_›).trans (hrest z hz)

end MinByKey

/-! ## 3. The merge optimiser -/

/-- What `MergeOptimizer::check_condition` reads of its configuration. -/
structure MergeOptimizer where
  maxSegments : ℕ
  thresholdsConfig : OptimizerThresholds

namespace MergeOptimizer

variable (stats : LockedSegment → SegmentStats)

/-- The `raw_segments`: the original segments that no optimisation holds. -/
def rawSegments (holder : SegmentHolder) (excludedIds : List SegmentId) :
    List (SegmentId × LockedSegment) :=
  holder.segments.filter fun (sid, segment) => segment.isOriginal && !excludedIds.contains sid

/-- The raw segments that are not `Special`, with their sizes. -/
def candidates (raw : List (SegmentId × LockedSegment)) : List (SegmentId × ℕ) :=
  raw.filterMap fun (idx, segment) =>
    if (stats segment).segmentType != .special then some (idx, (stats segment).vectorSize)
    else none

/-- `sorted_by_key(|(_, size)| *size)`: a stable sort, smallest first. -/
def sortedSizes (raw : List (SegmentId × LockedSegment)) : List (SegmentId × ℕ) :=
  (candidates stats raw).mergeSort fun a b => decide (a.2 ≤ b.2)

/-- `MergeOptimizer::check_condition`: the smallest segments whose running total of sizes
stays under `max_segment_size`, at most `max_candidates` of them, and none if fewer than
three. -/
def checkCondition (o : MergeOptimizer) (holder : SegmentHolder) (excludedIds : List SegmentId) :
    List SegmentId :=
  let rawSegments := rawSegments holder excludedIds
  if rawSegments.length ≤ o.maxSegments then []
  else
    let maxCandidates := rawSegments.length - o.maxSegments + 2
    let candidates := ((((runningTotals 0 (sortedSizes stats rawSegments)).takeWhile fun x =>
        decide (x.2 < saturatingMul o.thresholdsConfig.maxSegmentSize bytesInKb)).take
          maxCandidates).map Prod.fst)
    if candidates.length < 3 then [] else candidates

theorem mem_candidates {raw : List (SegmentId × LockedSegment)} {e : SegmentId × ℕ} :
    e ∈ candidates stats raw ↔ ∃ segment, (e.1, segment) ∈ raw ∧
      (stats segment).segmentType ≠ .special ∧ e.2 = (stats segment).vectorSize := by
  obtain ⟨id, size⟩ := e
  simp only [candidates, List.mem_filterMap, bne_iff_ne, ne_eq]
  constructor
  · rintro ⟨⟨idx, segment⟩, hmem, hsome⟩
    split at hsome
    · rw [Option.some.injEq, Prod.mk.injEq] at hsome
      obtain ⟨rfl, rfl⟩ := hsome
      exact ⟨segment, hmem, ‹_›, rfl⟩
    · exact absurd hsome (by simp)
  · rintro ⟨segment, hmem, htype, rfl⟩
    exact ⟨(id, segment), hmem, by simp [htype]⟩

/-- The sorted sizes are the candidates, smallest first. -/
theorem sortedSizes_perm (raw : List (SegmentId × LockedSegment)) :
    (sortedSizes stats raw).Perm (candidates stats raw) :=
  List.mergeSort_perm _ _

theorem sortedSizes_pairwise (raw : List (SegmentId × LockedSegment)) :
    (sortedSizes stats raw).Pairwise fun a b => a.2 ≤ b.2 := by
  have h := @List.pairwise_mergeSort _ (fun a b : SegmentId × ℕ => decide (a.2 ≤ b.2))
    (fun _ _ _ hab hbc => by simp only [decide_eq_true_eq] at *; omega)
    (fun a b => by simp only [Bool.or_eq_true, decide_eq_true_eq]; omega) (candidates stats raw)
  exact h.imp fun hab => by simpa using hab

theorem map_fst_candidates_sublist (raw : List (SegmentId × LockedSegment)) :
    ((candidates stats raw).map Prod.fst).Sublist (raw.map Prod.fst) := by
  induction raw with
  | nil => simp [candidates]
  | cons e rest ih =>
    obtain ⟨idx, segment⟩ := e
    by_cases htype : (stats segment).segmentType = .special
    · simp only [candidates, List.filterMap_cons, htype, bne_self_eq_false, Bool.false_eq_true,
        if_false, List.map_cons] at ih ⊢
      exact ih.cons idx
    · simp only [candidates, List.filterMap_cons, bne_iff_ne, ne_eq, htype, not_false_eq_true,
        if_true, List.map_cons] at ih ⊢
      exact ih.cons_cons idx

/-- The ids of the raw segments are distinct, and so are those of the sorted sizes. -/
theorem nodup_sortedSizes (holder : SegmentHolder) (excludedIds : List SegmentId) :
    ((sortedSizes stats (rawSegments holder excludedIds)).map Prod.fst).Nodup := by
  have hraw : ((rawSegments holder excludedIds).map Prod.fst).Nodup :=
    (List.filter_sublist.map Prod.fst).nodup holder.nodup
  have hcand := (map_fst_candidates_sublist stats _).nodup hraw
  exact ((sortedSizes_perm stats _).map Prod.fst).nodup_iff.mpr hcand

/-- The sorted sizes are those of the original, non-`Special` segments no optimisation holds. -/
theorem mem_sortedSizes {holder : SegmentHolder} {excludedIds : List SegmentId}
    {e : SegmentId × ℕ} :
    e ∈ sortedSizes stats (rawSegments holder excludedIds) ↔ ∃ segment,
      (e.1, segment) ∈ holder.segments ∧ segment.isOriginal = true ∧ e.1 ∉ excludedIds ∧
      (stats segment).segmentType ≠ .special ∧ e.2 = (stats segment).vectorSize := by
  rw [(sortedSizes_perm stats _).mem_iff, mem_candidates]
  simp only [rawSegments, List.mem_filter, List.contains_eq_mem, Bool.and_eq_true,
    Bool.not_eq_eq_eq_not, Bool.not_true, decide_eq_false_iff_not]
  constructor
  · rintro ⟨segment, ⟨hmem, horig, hexcl⟩, htype, hsize⟩
    exact ⟨segment, hmem, horig, hexcl, htype, hsize⟩
  · rintro ⟨segment, hmem, horig, hexcl, htype, hsize⟩
    exact ⟨segment, ⟨hmem, horig, hexcl⟩, htype, hsize⟩

/-- **`check_condition` takes a prefix of the sorted sizes**: nothing, or the first `k ≥ 3`,
where `k` is as large as `max_candidates` and the bound on their total allow. -/
theorem checkCondition_cases (o : MergeOptimizer) (holder : SegmentHolder)
    (excludedIds : List SegmentId) :
    let raw := rawSegments holder excludedIds
    let sorted := sortedSizes stats raw
    let bound := saturatingMul o.thresholdsConfig.maxSegmentSize bytesInKb
    o.checkCondition stats holder excludedIds = [] ∨
      ∃ k, 3 ≤ k ∧ o.maxSegments < raw.length ∧ k ≤ raw.length - o.maxSegments + 2 ∧
        o.checkCondition stats holder excludedIds = (sorted.take k).map Prod.fst ∧
        ((sorted.take k).map Prod.snd).sum < bound ∧
        (k < raw.length - o.maxSegments + 2 → k < sorted.length →
          bound ≤ ((sorted.take (k + 1)).map Prod.snd).sum) := by
  intro raw sorted bound
  obtain ⟨j, hj, hunder, hover, hcut⟩ :=
    map_fst_take_takeWhile_runningTotals sorted bound (raw.length - o.maxSegments + 2)
  unfold checkCondition
  dsimp only
  rw [hcut]
  split_ifs with hfew hshort
  · exact Or.inl rfl
  · exact Or.inl rfl
  · -- `k = min max_candidates j`, at least three and at most the sorted sizes
    have hk : (sorted.take (min (raw.length - o.maxSegments + 2) j)).length =
        min (raw.length - o.maxSegments + 2) j := by
      rw [List.length_take]
      omega
    rw [List.length_map, hk] at hshort
    refine Or.inr ⟨_, by omega, by omega, min_le_left _ _, rfl, ?_, fun hlt hlen => ?_⟩
    · exact lt_of_le_of_lt (sum_take_le_sum_take sorted (min_le_right _ _)) (hunder (by omega))
    · rw [show min (raw.length - o.maxSegments + 2) j = j by omega]
      exact hover (by omega)

/-- **`check_condition` merges whenever it can**: with more raw segments than `max_segments`,
when the three smallest fit under `max_segment_size` together it takes at least them. -/
theorem checkCondition_ne_nil (o : MergeOptimizer) (holder : SegmentHolder)
    (excludedIds : List SegmentId)
    (hmany : o.maxSegments < (rawSegments holder excludedIds).length)
    (hthree : 3 ≤ (sortedSizes stats (rawSegments holder excludedIds)).length)
    (hfit : (((sortedSizes stats (rawSegments holder excludedIds)).take 3).map Prod.snd).sum <
      saturatingMul o.thresholdsConfig.maxSegmentSize bytesInKb) :
    o.checkCondition stats holder excludedIds ≠ [] := by
  obtain ⟨j, hj, -, hover, hcut⟩ := map_fst_take_takeWhile_runningTotals
    (sortedSizes stats (rawSegments holder excludedIds))
    (saturatingMul o.thresholdsConfig.maxSegmentSize bytesInKb)
    ((rawSegments holder excludedIds).length - o.maxSegments + 2)
  -- the longest fitting prefix holds the three smallest
  have hj3 : 3 ≤ j := by
    by_contra hlt
    have hreach := hover (by omega)
    have hmono := sum_take_le_sum_take (sortedSizes stats (rawSegments holder excludedIds))
      (show j + 1 ≤ 3 by omega)
    omega
  unfold checkCondition
  dsimp only
  rw [hcut, if_neg (by omega), List.length_map, List.length_take, if_neg (by omega)]
  intro hnil
  have := congrArg List.length hnil
  rw [List.length_map, List.length_take, List.length_nil] at this
  omega

end MergeOptimizer

/-! ## 4. The vacuum optimiser -/

/-- What `VacuumOptimizer::worst_segment` reads of its configuration. -/
structure VacuumOptimizer where
  deletedThreshold : ℚ
  minVectorsNumber : ℕ

/-- `deleted_count as f64 / points_count as f64`, each step rounded: `none` is `NaN` (`0 / 0`)
and `⊤` is `+∞` (deleted points over none left). -/
def SegmentStats.litteredRatio (s : SegmentStats) : Option (WithTop ℚ) :=
  if s.pointsCount = 0 then
    if s.deletedCount = 0 then none else some ⊤
  else some ((F64.div (F64.round s.deletedCount) (F64.round s.pointsCount) : ℚ) : WithTop ℚ)

/-- `littered_ratio > deleted_threshold`: `NaN` lies above nothing. -/
def isLittered (litteredRatio : Option (WithTop ℚ)) (deletedThreshold : ℚ) : Bool :=
  match litteredRatio with
  | none => false
  | some r => decide ((deletedThreshold : WithTop ℚ) < r)

/-- `OrderedFloat`'s order: `NaN` above every number. -/
def orderedFloat : Option (WithTop ℚ) → WithTop (WithTop ℚ)
  | none => ⊤
  | some r => (r : WithTop (WithTop ℚ))

/-- A segment whose points are all deleted is littered over every threshold. -/
theorem isLittered_of_emptied {s : SegmentStats} (hpoints : s.pointsCount = 0)
    (hdeleted : s.deletedCount ≠ 0) (deletedThreshold : ℚ) :
    isLittered s.litteredRatio deletedThreshold = true := by
  simp [SegmentStats.litteredRatio, hpoints, hdeleted, isLittered]

/-- A segment of no points and no deletions (`0 / 0`) is littered over no threshold. -/
theorem not_isLittered_of_empty {s : SegmentStats} (hpoints : s.pointsCount = 0)
    (hdeleted : s.deletedCount = 0) (deletedThreshold : ℚ) :
    isLittered s.litteredRatio deletedThreshold = false := by
  simp [SegmentStats.litteredRatio, hpoints, hdeleted, isLittered]

/-- Three deleted of ten points: the rounded quotient is the threshold 0.3 as f64, not above it. -/
example : isLittered (SegmentStats.litteredRatio ⟨.plain, 10, 3, [], .plain, .inMemory⟩)
    (F64.round (3 / 10)) = false := by
  decide +kernel

namespace VacuumOptimizer

variable (stats : LockedSegment → SegmentStats)

/-- A segment `worst_segment` may take: big enough, not `Special`, and over the threshold. -/
def Eligible (o : VacuumOptimizer) (s : SegmentStats) : Prop :=
  o.minVectorsNumber ≤ s.pointsCount ∧ s.segmentType ≠ .special ∧
    isLittered s.litteredRatio o.deletedThreshold = true

/-- The segments of `worst_segment`'s `filter_map`, each with its littered ratio. -/
def candidates (o : VacuumOptimizer) (holder : SegmentHolder) (excludedIds : List SegmentId) :
    List (SegmentId × Option (WithTop ℚ)) :=
  holder.segments.filterMap fun (idx, segment) =>
    if excludedIds.contains idx then none
    else
      let readSegment := stats segment
      let litteredRatio := readSegment.litteredRatio
      let isBig := decide (readSegment.pointsCount ≥ o.minVectorsNumber)
      let isNotSpecial := readSegment.segmentType != .special
      let isLittered := isLittered litteredRatio o.deletedThreshold
      if isBig && isNotSpecial && isLittered then some (idx, litteredRatio) else none

/-- `VacuumOptimizer::worst_segment`: the candidate of greatest ratio (the last of equal ones),
looked up again in the holder. -/
def worstSegment (o : VacuumOptimizer) (holder : SegmentHolder) (excludedIds : List SegmentId) :
    Option (SegmentId × LockedSegment) :=
  (maxByKey (fun c => orderedFloat c.2) (o.candidates stats holder excludedIds)).bind
    fun (idx, _) => (holder.get idx).map fun segment => (idx, segment)

/-- `VacuumOptimizer::check_condition`. -/
def checkCondition (o : VacuumOptimizer) (holder : SegmentHolder) (excludedIds : List SegmentId) :
    List SegmentId :=
  match o.worstSegment stats holder excludedIds with
  | none => []
  | some (segmentId, _) => [segmentId]

theorem mem_candidates {o : VacuumOptimizer} {holder : SegmentHolder}
    {excludedIds : List SegmentId} {c : SegmentId × Option (WithTop ℚ)} :
    c ∈ o.candidates stats holder excludedIds ↔ ∃ segment, (c.1, segment) ∈ holder.segments ∧
      c.1 ∉ excludedIds ∧ o.Eligible (stats segment) ∧ c.2 = (stats segment).litteredRatio := by
  obtain ⟨id, ratio⟩ := c
  simp only [candidates, List.mem_filterMap]
  constructor
  · rintro ⟨⟨idx, segment⟩, hmem, hsome⟩
    by_cases hexcl : excludedIds.contains idx = true
    · rw [if_pos hexcl] at hsome
      exact absurd hsome (by simp)
    rw [if_neg hexcl] at hsome
    split at hsome
    · rename_i htake
      rw [Option.some.injEq, Prod.mk.injEq] at hsome
      obtain ⟨rfl, rfl⟩ := hsome
      simp only [Bool.and_eq_true, decide_eq_true_eq, bne_iff_ne, ne_eq] at htake
      refine ⟨segment, hmem, fun h => hexcl (List.contains_iff_mem.mpr h), ?_, rfl⟩
      exact ⟨htake.1.1, htake.1.2, htake.2⟩
    · exact absurd hsome (by simp)
  · rintro ⟨segment, hmem, hexcl, ⟨hbig, htype, hlit⟩, rfl⟩
    refine ⟨(id, segment), hmem, ?_⟩
    simp [hexcl, hbig, htype, hlit]

/-- The vacuum optimiser takes nothing exactly when no segment that no optimisation holds is
eligible; otherwise one eligible segment, whose littered ratio is the greatest among them in the
order of `OrderedFloat`. -/
theorem checkCondition_spec (o : VacuumOptimizer) (holder : SegmentHolder)
    (excludedIds : List SegmentId) :
    (o.checkCondition stats holder excludedIds = [] ↔
      ∀ p ∈ holder.segments, p.1 ∉ excludedIds → ¬ o.Eligible (stats p.2)) ∧
    (o.checkCondition stats holder excludedIds ≠ [] →
      ∃ id segment, o.checkCondition stats holder excludedIds = [id] ∧
        (id, segment) ∈ holder.segments ∧ id ∉ excludedIds ∧ o.Eligible (stats segment) ∧
        ∀ p ∈ holder.segments, p.1 ∉ excludedIds → o.Eligible (stats p.2) →
          orderedFloat (stats p.2).litteredRatio ≤ orderedFloat (stats segment).litteredRatio) := by
  -- every member of the candidates is eligible, and every eligible segment is one
  have hcand : ∀ p ∈ holder.segments, p.1 ∉ excludedIds → o.Eligible (stats p.2) →
      (p.1, (stats p.2).litteredRatio) ∈ o.candidates stats holder excludedIds :=
    fun p hp hexcl helig => (mem_candidates stats).mpr ⟨p.2, hp, hexcl, helig, rfl⟩
  unfold checkCondition worstSegment
  cases hmax : maxByKey (fun c => orderedFloat c.2) (o.candidates stats holder excludedIds) with
  | none =>
    rw [maxByKey_eq_none] at hmax
    refine ⟨⟨fun _ p hp hexcl helig => ?_, fun _ => rfl⟩, fun h => absurd rfl h⟩
    have := hcand p hp hexcl helig
    rw [hmax] at this
    exact List.not_mem_nil this
  | some c =>
    obtain ⟨id, ratio⟩ := c
    obtain ⟨segment, hmem, hexcl, helig, hratio⟩ := (mem_candidates stats).mp (maxByKey_mem hmax)
    dsimp only at hmem hexcl hratio
    simp only [Option.bind_some]
    rw [SegmentHolder.get_of_mem hmem, Option.map_some]
    refine ⟨⟨fun h => absurd h (List.cons_ne_nil _ _), fun hnone => absurd helig
      (hnone _ hmem hexcl)⟩, fun _ => ⟨id, segment, rfl, hmem, hexcl, helig, ?_⟩⟩
    intro p hp hpexcl hpelig
    rw [← hratio]
    exact le_maxByKey hmax _ (hcand p hp hpexcl hpelig)

/-- **The vacuum optimiser's choice.**  It takes nothing exactly when no segment that no
optimisation holds is eligible (big enough, not `Special`, and over the threshold); otherwise
one eligible segment, whose littered ratio is the greatest among them in the order of
`OrderedFloat`.  The ratio is `f64` division: a segment whose points are all deleted has the
ratio `+∞` and is over every threshold, so it goes before any other; one with neither live nor
deleted points (`0 / 0`, `NaN`) is over none. -/
theorem checkCondition_takes_most_littered (o : VacuumOptimizer) (holder : SegmentHolder)
    (excludedIds : List SegmentId) :
    (o.checkCondition stats holder excludedIds = [] ↔
      ∀ p ∈ holder.segments, p.1 ∉ excludedIds → ¬ o.Eligible (stats p.2)) ∧
    (o.checkCondition stats holder excludedIds ≠ [] →
      ∃ id segment, o.checkCondition stats holder excludedIds = [id] ∧
        (id, segment) ∈ holder.segments ∧ id ∉ excludedIds ∧ o.Eligible (stats segment) ∧
        ∀ p ∈ holder.segments, p.1 ∉ excludedIds → o.Eligible (stats p.2) →
          orderedFloat (stats p.2).litteredRatio ≤ orderedFloat (stats segment).litteredRatio) ∧
    (∀ s : SegmentStats, s.pointsCount = 0 → s.deletedCount ≠ 0 →
      s.litteredRatio = some ⊤ ∧ isLittered s.litteredRatio o.deletedThreshold = true) ∧
    (∀ s : SegmentStats, s.pointsCount = 0 → s.deletedCount = 0 →
      isLittered s.litteredRatio o.deletedThreshold = false) := by
  refine ⟨(o.checkCondition_spec stats holder excludedIds).1,
    (o.checkCondition_spec stats holder excludedIds).2, fun s hpoints hdeleted => ⟨?_,
      isLittered_of_emptied hpoints hdeleted _⟩,
    fun s hpoints hdeleted => not_isLittered_of_empty hpoints hdeleted _⟩
  simp [SegmentStats.litteredRatio, hpoints, hdeleted]

end VacuumOptimizer

/-! ## 5. The indexing optimiser -/

/-- What `IndexingOptimizer::worst_segment` reads of its configuration. -/
structure IndexingOptimizer where
  thresholdsConfig : OptimizerThresholds

/-- `is_vector_indexed`: the config's index is HNSW. -/
def SegmentStats.isVectorIndexed (s : SegmentStats) : Bool :=
  match s.index with
  | .plain => false
  | .hnsw => true

/-- `is_memmaped`: the config's storage is `Mmap`. -/
def SegmentStats.isMemmaped (s : SegmentStats) : Bool :=
  match s.storageType with
  | .inMemory => false
  | .mmap => true

namespace IndexingOptimizer

variable (stats : LockedSegment → SegmentStats)

/-- `IndexingOptimizer::smallest_indexed_segment`: of the segments no optimisation holds that
are not `Special` and are indexed or memmapped, the smallest (the first of equal ones). -/
def smallestIndexedSegment (holder : SegmentHolder) (excludedIds : List SegmentId) :
    Option (SegmentId × ℕ) :=
  minByKey (·.2) (holder.segments.filterMap fun (idx, segment) =>
    if excludedIds.contains idx then none
    else
      let readSegment := stats segment
      let vectorSize := readSegment.vectorSize
      if readSegment.segmentType = .special then none
      else if !(readSegment.isVectorIndexed || readSegment.isMemmaped) then none
      else some (idx, vectorSize))

/-- The `candidates` of `worst_segment`: the segments grown past the memmap threshold without
memmapped storage, or past the indexing threshold without an index. -/
def candidates (o : IndexingOptimizer) (holder : SegmentHolder) (excludedIds : List SegmentId) :
    List (SegmentId × ℕ) :=
  holder.segments.filterMap fun (idx, segment) =>
    if excludedIds.contains idx then none
    else
      let readSegment := stats segment
      let vectorSize := readSegment.vectorSize
      if readSegment.segmentType = .special then none
      else
        let isVectorIndexed := readSegment.isVectorIndexed
        let isMemmaped := readSegment.isMemmaped
        let bigForMmap :=
          decide (vectorSize ≥ saturatingMul o.thresholdsConfig.memmapThreshold bytesInKb)
        let bigForIndex :=
          decide (vectorSize ≥ saturatingMul o.thresholdsConfig.indexingThreshold bytesInKb)
        let requireIndexing := (bigForMmap && !isMemmaped) || (bigForIndex && !isVectorIndexed)
        if requireIndexing then some (idx, vectorSize) else none

/-- `IndexingOptimizer::worst_segment`: the largest candidate (the last of equal ones), with
the smallest candidate, or else the smallest indexed segment, when it is another segment and
the two fit under `max_segment_size`. -/
def worstSegment (o : IndexingOptimizer) (holder : SegmentHolder) (excludedIds : List SegmentId) :
    List SegmentId :=
  let candidates := o.candidates stats holder excludedIds
  match maxByKey (·.2) candidates with
  | none => []
  | some (selectedSegmentId, selectedSegmentSize) =>
    let maxSegmentSize := saturatingMul o.thresholdsConfig.maxSegmentSize bytesInKb
    let withSmallestIndexed : List SegmentId :=
      match smallestIndexedSegment stats holder excludedIds with
      | some (idx, size) =>
        if idx ≠ selectedSegmentId ∧ selectedSegmentSize + size < maxSegmentSize then
          [selectedSegmentId, idx]
        else [selectedSegmentId]
      | none => [selectedSegmentId]
    match minByKey (·.2) candidates with
    | some (idx, size) =>
      if idx ≠ selectedSegmentId ∧ selectedSegmentSize + size < maxSegmentSize then
        [selectedSegmentId, idx]
      else withSmallestIndexed
    | none => withSmallestIndexed

/-- `IndexingOptimizer::check_condition`. -/
def checkCondition (o : IndexingOptimizer) (holder : SegmentHolder)
    (excludedIds : List SegmentId) : List SegmentId :=
  o.worstSegment stats holder excludedIds

/-- A segment past the memmap threshold without memmapped storage, or past the indexing
threshold without an index. -/
def RequiresIndexing (o : IndexingOptimizer) (s : SegmentStats) : Prop :=
  (saturatingMul o.thresholdsConfig.memmapThreshold bytesInKb ≤ s.vectorSize ∧
      s.isMemmaped = false) ∨
    (saturatingMul o.thresholdsConfig.indexingThreshold bytesInKb ≤ s.vectorSize ∧
      s.isVectorIndexed = false)

theorem mem_candidates {o : IndexingOptimizer} {holder : SegmentHolder}
    {excludedIds : List SegmentId} {c : SegmentId × ℕ} :
    c ∈ o.candidates stats holder excludedIds ↔ ∃ segment, (c.1, segment) ∈ holder.segments ∧
      c.1 ∉ excludedIds ∧ (stats segment).segmentType ≠ .special ∧
      c.2 = (stats segment).vectorSize ∧ o.RequiresIndexing (stats segment) := by
  obtain ⟨id, size⟩ := c
  simp only [candidates, List.mem_filterMap]
  constructor
  · rintro ⟨⟨idx, segment⟩, hmem, hsome⟩
    by_cases hexcl : excludedIds.contains idx = true
    · rw [if_pos hexcl] at hsome
      exact absurd hsome (by simp)
    rw [if_neg hexcl] at hsome
    dsimp only at hsome
    by_cases htype : (stats segment).segmentType = .special
    · rw [if_pos htype] at hsome
      exact absurd hsome (by simp)
    rw [if_neg htype] at hsome
    split at hsome
    · rename_i hreq
      rw [Option.some.injEq, Prod.mk.injEq] at hsome
      obtain ⟨rfl, rfl⟩ := hsome
      refine ⟨segment, hmem, fun h => hexcl (List.contains_iff_mem.mpr h), htype, rfl, ?_⟩
      simpa [RequiresIndexing] using hreq
    · exact absurd hsome (by simp)
  · rintro ⟨segment, hmem, hexcl, htype, rfl, hreq⟩
    refine ⟨(id, segment), hmem, ?_⟩
    rw [if_neg (by simpa using hexcl)]
    dsimp only
    rw [if_neg htype, if_pos]
    rcases hreq with ⟨hbig, hstorage⟩ | ⟨hbig, hindex⟩
    · simp [hbig, hstorage]
    · simp [hbig, hindex]

/-- The smallest indexed segment is one that no optimisation holds, not `Special`, indexed or
memmapped, and of the least size among those. -/
theorem smallestIndexedSegment_spec {holder : SegmentHolder} {excludedIds : List SegmentId}
    {id : SegmentId} {size : ℕ} (h : smallestIndexedSegment stats holder excludedIds = some (id, size)) :
    ∃ segment, (id, segment) ∈ holder.segments ∧ id ∉ excludedIds ∧
      (stats segment).segmentType ≠ .special ∧
      ((stats segment).isVectorIndexed || (stats segment).isMemmaped) = true ∧
      size = (stats segment).vectorSize ∧
      ∀ p ∈ holder.segments, p.1 ∉ excludedIds → (stats p.2).segmentType ≠ .special →
        ((stats p.2).isVectorIndexed || (stats p.2).isMemmaped) = true →
          size ≤ (stats p.2).vectorSize := by
  -- membership in the list that `min_by_key` reads
  have hmem_iff : ∀ c : SegmentId × ℕ, c ∈ holder.segments.filterMap (fun (idx, segment) =>
      if excludedIds.contains idx then none
      else if (stats segment).segmentType = .special then none
      else if !((stats segment).isVectorIndexed || (stats segment).isMemmaped) then none
      else some (idx, (stats segment).vectorSize)) ↔
      ∃ segment, (c.1, segment) ∈ holder.segments ∧ c.1 ∉ excludedIds ∧
        (stats segment).segmentType ≠ .special ∧
        ((stats segment).isVectorIndexed || (stats segment).isMemmaped) = true ∧
        c.2 = (stats segment).vectorSize := by
    intro c
    obtain ⟨cid, csize⟩ := c
    simp only [List.mem_filterMap]
    constructor
    · rintro ⟨⟨idx, segment⟩, hmem, hsome⟩
      split_ifs at hsome with hexcl htype hidx
      rw [Option.some.injEq, Prod.mk.injEq] at hsome
      obtain ⟨rfl, rfl⟩ := hsome
      refine ⟨segment, hmem, fun h => hexcl (List.contains_iff_mem.mpr h), htype, ?_, rfl⟩
      revert hidx
      cases (stats segment).isVectorIndexed <;> cases (stats segment).isMemmaped <;> simp
    · rintro ⟨segment, hmem, hexcl, htype, hidx, rfl⟩
      refine ⟨(cid, segment), hmem, ?_⟩
      simp [hexcl, htype, hidx]
  have hsome : minByKey (·.2) _ = some (id, size) := h
  obtain ⟨segment, hmem, hexcl, htype, hidx, hsize⟩ := (hmem_iff _).mp (minByKey_mem hsome)
  refine ⟨segment, hmem, hexcl, htype, hidx, hsize, fun p hp hpexcl hptype hpidx => ?_⟩
  exact minByKey_le hsome (p.1, (stats p.2).vectorSize)
    ((hmem_iff _).mpr ⟨p.2, hp, hpexcl, hptype, hpidx, rfl⟩)

/-- The second segment `worst_segment` may take with `selected` of size `size`: another segment
that fits with it under `max_segment_size`, either the smallest candidate or the smallest
indexed segment. -/
def Partner (o : IndexingOptimizer) (holder : SegmentHolder) (excludedIds : List SegmentId)
    (selected : SegmentId) (size : ℕ) (other : SegmentId) (otherSize : ℕ) : Prop :=
  other ≠ selected ∧ size + otherSize < saturatingMul o.thresholdsConfig.maxSegmentSize bytesInKb ∧
    (((other, otherSize) ∈ o.candidates stats holder excludedIds ∧
        ∀ c ∈ o.candidates stats holder excludedIds, otherSize ≤ c.2) ∨
      smallestIndexedSegment stats holder excludedIds = some (other, otherSize))

/-- **What `worst_segment` can answer**: nothing when there is no candidate; otherwise the
largest candidate, alone or with a partner. -/
theorem worstSegment_cases (o : IndexingOptimizer) (holder : SegmentHolder)
    (excludedIds : List SegmentId) :
    (o.candidates stats holder excludedIds = [] ∧ o.worstSegment stats holder excludedIds = []) ∨
    ∃ selected size,
      maxByKey (·.2) (o.candidates stats holder excludedIds) = some (selected, size) ∧
      (o.worstSegment stats holder excludedIds = [selected] ∨
        ∃ other otherSize, o.worstSegment stats holder excludedIds = [selected, other] ∧
          o.Partner stats holder excludedIds selected size other otherSize) := by
  unfold worstSegment
  dsimp only
  cases hmax : maxByKey (·.2) (o.candidates stats holder excludedIds) with
  | none => exact Or.inl ⟨maxByKey_eq_none.mp hmax, rfl⟩
  | some sel =>
    obtain ⟨selId, selSize⟩ := sel
    refine Or.inr ⟨selId, selSize, rfl, ?_⟩
    -- the fallback: paired with the smallest indexed segment, or alone
    have hfallback : ∀ w : List SegmentId,
        w = (match smallestIndexedSegment stats holder excludedIds with
          | some (idx, size) =>
            if idx ≠ selId ∧
                selSize + size < saturatingMul o.thresholdsConfig.maxSegmentSize bytesInKb then
              [selId, idx]
            else [selId]
          | none => [selId]) →
        w = [selId] ∨ ∃ other otherSize, w = [selId, other] ∧
          o.Partner stats holder excludedIds selId selSize other otherSize := by
      intro w hw
      cases hidx : smallestIndexedSegment stats holder excludedIds with
      | none =>
        rw [hidx] at hw
        exact Or.inl hw
      | some p =>
        obtain ⟨idx, size⟩ := p
        rw [hidx] at hw
        dsimp only at hw
        split_ifs at hw with hfit
        · exact Or.inr ⟨idx, size, hw, hfit.1, hfit.2, Or.inr hidx⟩
        · exact Or.inl hw
    cases hmin : minByKey (·.2) (o.candidates stats holder excludedIds) with
    | none => exact hfallback _ rfl
    | some p =>
      obtain ⟨idx, size⟩ := p
      dsimp only
      split_ifs with hfit
      · exact Or.inr ⟨idx, size, rfl, hfit.1, hfit.2,
          Or.inl ⟨minByKey_mem hmin, minByKey_le hmin⟩⟩
      · exact hfallback _ rfl

/-- **The indexing optimiser's choice.**  Nothing exactly when no segment needs indexing;
otherwise the largest such segment first, and at most one partner. -/
theorem checkCondition_spec (o : IndexingOptimizer) (holder : SegmentHolder)
    (excludedIds : List SegmentId) :
    (o.checkCondition stats holder excludedIds = [] ↔ o.candidates stats holder excludedIds = []) ∧
    ∀ selected rest, o.checkCondition stats holder excludedIds = selected :: rest →
      ∃ size, (selected, size) ∈ o.candidates stats holder excludedIds ∧
        (∀ c ∈ o.candidates stats holder excludedIds, c.2 ≤ size) ∧
        (rest = [] ∨ ∃ other otherSize, rest = [other] ∧
          o.Partner stats holder excludedIds selected size other otherSize) := by
  unfold checkCondition
  rcases o.worstSegment_cases stats holder excludedIds with ⟨hnil, heq⟩ | ⟨sel, size, hmax, hw⟩
  · rw [heq]
    exact ⟨⟨fun _ => hnil, fun _ => rfl⟩, fun _ _ h => absurd h (List.cons_ne_nil _ _).symm⟩
  · have hsel := maxByKey_mem hmax
    have hne : o.candidates stats holder excludedIds ≠ [] := List.ne_nil_of_mem hsel
    rcases hw with heq | ⟨other, otherSize, heq, hpartner⟩ <;> rw [heq] <;>
      refine ⟨⟨fun h => absurd h (List.cons_ne_nil _ _), fun h => absurd h hne⟩,
        fun selected rest h => ?_⟩ <;>
      rw [List.cons.injEq] at h <;> obtain ⟨rfl, rfl⟩ := h
    · exact ⟨size, hsel, le_maxByKey hmax, Or.inl rfl⟩
    · exact ⟨size, hsel, le_maxByKey hmax, Or.inr ⟨other, otherSize, rfl, hpartner⟩⟩

end IndexingOptimizer

/-! ## 6. The merge and the indexing optimisers' choices, over the holder -/

/-- **The merge optimiser's choice.**  The sorted sizes are exactly those of the original,
non-`Special` segments no optimisation holds, smallest first, each once.  `check_condition`
takes nothing, or the first `k ≥ 3` of them when there are more original segments than
`max_segments`: at most `max_candidates` (so the merge leaves at least `max_segments - 1`
segments), together under `max_segment_size`, and as many as both bounds allow.  It takes
something whenever the three smallest fit. -/
theorem merge_takes_smallest_fitting_segments (stats : LockedSegment → SegmentStats)
    (o : MergeOptimizer) (holder : SegmentHolder) (excludedIds : List SegmentId) :
    let raw := MergeOptimizer.rawSegments holder excludedIds
    let sorted := MergeOptimizer.sortedSizes stats raw
    let bound := saturatingMul o.thresholdsConfig.maxSegmentSize bytesInKb
    (∀ e, e ∈ sorted ↔ ∃ segment, (e.1, segment) ∈ holder.segments ∧
      segment.isOriginal = true ∧ e.1 ∉ excludedIds ∧ (stats segment).segmentType ≠ .special ∧
      e.2 = (stats segment).vectorSize) ∧
    sorted.Pairwise (fun a b => a.2 ≤ b.2) ∧ (sorted.map Prod.fst).Nodup ∧
    (o.checkCondition stats holder excludedIds = [] ∨
      ∃ k, 3 ≤ k ∧ o.maxSegments < raw.length ∧ k ≤ raw.length - o.maxSegments + 2 ∧
        o.checkCondition stats holder excludedIds = (sorted.take k).map Prod.fst ∧
        ((sorted.take k).map Prod.snd).sum < bound ∧
        (k < raw.length - o.maxSegments + 2 → k < sorted.length →
          bound ≤ ((sorted.take (k + 1)).map Prod.snd).sum)) ∧
    (o.maxSegments < raw.length → 3 ≤ sorted.length →
      ((sorted.take 3).map Prod.snd).sum < bound → o.checkCondition stats holder excludedIds ≠ []) :=
  ⟨fun _ => MergeOptimizer.mem_sortedSizes stats, MergeOptimizer.sortedSizes_pairwise stats _,
    MergeOptimizer.nodup_sortedSizes stats holder excludedIds,
    o.checkCondition_cases stats holder excludedIds, o.checkCondition_ne_nil stats holder excludedIds⟩

/-- **The indexing optimiser's choice.**  The candidates are exactly the non-`Special` segments
no optimisation holds that have grown past the memmap threshold without memmapped storage, or
past the indexing threshold without an index.  `check_condition` takes nothing exactly when
there is none; otherwise the largest first, and at most one more segment, another one that fits
with it under `max_segment_size`: the smallest candidate, or else the smallest segment no
optimisation holds that is not `Special` and already indexed or memmapped. -/
theorem indexing_takes_largest_unindexed_segment (stats : LockedSegment → SegmentStats)
    (o : IndexingOptimizer) (holder : SegmentHolder) (excludedIds : List SegmentId) :
    (∀ c, c ∈ o.candidates stats holder excludedIds ↔ ∃ segment,
      (c.1, segment) ∈ holder.segments ∧ c.1 ∉ excludedIds ∧
      (stats segment).segmentType ≠ .special ∧ c.2 = (stats segment).vectorSize ∧
      o.RequiresIndexing (stats segment)) ∧
    (∀ id size, IndexingOptimizer.smallestIndexedSegment stats holder excludedIds = some (id, size) →
      ∃ segment, (id, segment) ∈ holder.segments ∧ id ∉ excludedIds ∧
        (stats segment).segmentType ≠ .special ∧
        ((stats segment).isVectorIndexed || (stats segment).isMemmaped) = true ∧
        size = (stats segment).vectorSize ∧
        ∀ p ∈ holder.segments, p.1 ∉ excludedIds → (stats p.2).segmentType ≠ .special →
          ((stats p.2).isVectorIndexed || (stats p.2).isMemmaped) = true →
            size ≤ (stats p.2).vectorSize) ∧
    (o.checkCondition stats holder excludedIds = [] ↔ o.candidates stats holder excludedIds = []) ∧
    ∀ selected rest, o.checkCondition stats holder excludedIds = selected :: rest →
      ∃ size, (selected, size) ∈ o.candidates stats holder excludedIds ∧
        (∀ c ∈ o.candidates stats holder excludedIds, c.2 ≤ size) ∧
        (rest = [] ∨ ∃ other otherSize, rest = [other] ∧
          o.Partner stats holder excludedIds selected size other otherSize) :=
  ⟨fun _ => IndexingOptimizer.mem_candidates stats,
    fun _ _ h => IndexingOptimizer.smallestIndexedSegment_spec stats h,
    (o.checkCondition_spec stats holder excludedIds).1,
    (o.checkCondition_spec stats holder excludedIds).2⟩

end Qdrant
