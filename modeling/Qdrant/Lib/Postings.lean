/-
# Posting lists

A map from keys to the sets of ids that hold them (a `HashMap<K, BTreeSet<I>>` or a
`BTreeMap<K, BTreeSet<I>>`), as an ordered map of ordered sets (`Lib/OrdMap.lean`, a set being
a map to `Unit`).  An id is linked to a key by inserting it into the key's set, created empty
when missing (`link`), and unlinked by erasing it from the set, which either stays when it
becomes empty (`unlink`) or goes with its key (`unlinkPrune`).

Each operation changes the ids of one key by one id (`mem_idsOf_link`, `mem_idsOf_unlink`,
`mem_idsOf_unlinkPrune`), and a fold over a list of keys changes the ids of exactly those keys
(`mem_idsOf_foldl_link` and the two others).  The map and its sets stay sorted
(`WellSorted`), so the ids of a key are ascending and distinct, and pruning leaves no empty
set (`NoEmpty`).  Looking up a list of keys yields their sets or fails on the first key
without one (`mapM_get?_eq_some_iff`, `mapM_get?_eq_none_iff`).

Nothing here is specific to one program.
-/
import Qdrant.Lib.OrdMap

namespace Postings

open OrdMap

variable {κ ι : Type} [LinearOrder κ] [LinearOrder ι]

/-! ## 1. The operations -/

/-- The ids of key `k`, in the order of its set; none when the key has no set. -/
def idsOf (m : List (κ × List (ι × Unit))) (k : κ) : List ι := ((get? k m).getD []).map Prod.fst

/-- `map.entry(k).or_default().insert(i)`. -/
def link (m : List (κ × List (ι × Unit))) (i : ι) (k : κ) : List (κ × List (ι × Unit)) :=
  insert k (insert i () ((get? k m).getD [])) m

/-- `if let Some(set) = map.get_mut(k) { set.remove(&i); }`: the set stays, even empty. -/
def unlink (m : List (κ × List (ι × Unit))) (i : ι) (k : κ) : List (κ × List (ι × Unit)) :=
  match get? k m with
  | none => m
  | some s => insert k (erase i s) m

/-- The same, and a set left empty goes with its key. -/
def unlinkPrune (m : List (κ × List (ι × Unit))) (i : ι) (k : κ) : List (κ × List (ι × Unit)) :=
  match get? k m with
  | none => m
  | some s => if (erase i s).isEmpty then erase k m else insert k (erase i s) m

theorem mem_keys_erase {i j : ι} {s : List (ι × Unit)} :
    j ∈ (erase i s).map Prod.fst ↔ j ∈ s.map Prod.fst ∧ j ≠ i := by
  simp only [erase, List.mem_map, List.mem_filter, decide_eq_true_eq]
  constructor
  · rintro ⟨e, ⟨he, hne⟩, rfl⟩
    exact ⟨⟨e, he, rfl⟩, hne⟩
  · rintro ⟨⟨e, he, rfl⟩, hne⟩
    exact ⟨e, ⟨he, hne⟩, rfl⟩

omit [LinearOrder ι] in
/-- A key without a set has no ids. -/
theorem idsOf_of_get?_none {m : List (κ × List (ι × Unit))} {k : κ} (h : get? k m = none) :
    idsOf m k = [] := by
  simp [idsOf, h]

/-! ## 2. What each operation does to the ids of a key -/

section Membership

variable {m : List (κ × List (ι × Unit))} {i j : ι} {k k' : κ}

theorem mem_idsOf_link : j ∈ idsOf (link m i k) k' ↔ (k' = k ∧ j = i) ∨ j ∈ idsOf m k' := by
  unfold idsOf link
  rw [get?_insert]
  by_cases hk : k' = k
  · subst hk
    rw [if_pos rfl, Option.getD_some, mem_keys_insert]
    simp
  · simp [hk]

theorem mem_idsOf_unlink : j ∈ idsOf (unlink m i k) k' ↔ j ∈ idsOf m k' ∧ ¬ (k' = k ∧ j = i) := by
  unfold unlink
  cases hget : get? k m with
  | none =>
    -- `k` has no ids, so nothing was linked to it
    constructor
    · intro hj
      refine ⟨hj, fun ⟨hk, _⟩ => ?_⟩
      subst hk
      simp [idsOf_of_get?_none hget] at hj
    · exact fun h => h.1
  | some s =>
    unfold idsOf
    rw [get?_insert]
    by_cases hk : k' = k
    · subst hk
      rw [if_pos rfl, hget, Option.getD_some, Option.getD_some, mem_keys_erase]
      simp
    · simp [hk]

theorem mem_idsOf_unlinkPrune :
    j ∈ idsOf (unlinkPrune m i k) k' ↔ j ∈ idsOf m k' ∧ ¬ (k' = k ∧ j = i) := by
  rw [← mem_idsOf_unlink]
  unfold unlinkPrune unlink
  cases hget : get? k m with
  | none => rfl
  | some s =>
    simp only
    split_ifs with hempty
    · -- the set left is empty: dropping it leaves the key without ids, as it would be
      unfold idsOf
      rw [get?_erase, get?_insert]
      by_cases hk : k' = k
      · rw [if_pos hk, if_pos hk, List.isEmpty_iff.mp hempty]
        simp
      · rw [if_neg hk, if_neg hk]
    · rfl

/-- Linking an id to each key of a list. -/
theorem mem_idsOf_foldl_link (i : ι) (ks : List κ) (m : List (κ × List (ι × Unit))) :
    j ∈ idsOf (ks.foldl (fun m k => link m i k) m) k' ↔ (k' ∈ ks ∧ j = i) ∨ j ∈ idsOf m k' := by
  induction ks generalizing m with
  | nil => simp
  | cons k ks ih =>
    rw [List.foldl_cons, ih, mem_idsOf_link, List.mem_cons]
    tauto

/-- Unlinking an id from each key of a list. -/
theorem mem_idsOf_foldl_unlink (i : ι) (ks : List κ) (m : List (κ × List (ι × Unit))) :
    j ∈ idsOf (ks.foldl (fun m k => unlink m i k) m) k' ↔ j ∈ idsOf m k' ∧ ¬ (k' ∈ ks ∧ j = i) := by
  induction ks generalizing m with
  | nil => simp
  | cons k ks ih =>
    rw [List.foldl_cons, ih, mem_idsOf_unlink, List.mem_cons]
    tauto

theorem mem_idsOf_foldl_unlinkPrune (i : ι) (ks : List κ) (m : List (κ × List (ι × Unit))) :
    j ∈ idsOf (ks.foldl (fun m k => unlinkPrune m i k) m) k' ↔
      j ∈ idsOf m k' ∧ ¬ (k' ∈ ks ∧ j = i) := by
  induction ks generalizing m with
  | nil => simp
  | cons k ks ih =>
    rw [List.foldl_cons, ih, mem_idsOf_unlinkPrune, List.mem_cons]
    tauto

end Membership

/-! ## 3. Sorted sets, and no empty set -/

/-- The map and each of its sets are sorted, as a `BTreeMap` of `BTreeSet`s is. -/
structure WellSorted (m : List (κ × List (ι × Unit))) : Prop where
  keys : Sorted m
  sets : ∀ k s, get? k m = some s → Sorted s

theorem wellSorted_nil : WellSorted ([] : List (κ × List (ι × Unit))) :=
  ⟨sorted_nil, fun k s h => by simp [get?] at h⟩

section Sorting

variable {m : List (κ × List (ι × Unit))}

theorem WellSorted.getD (h : WellSorted m) (k : κ) : Sorted ((get? k m).getD []) := by
  cases hk : get? k m with
  | none => exact sorted_nil
  | some s => exact h.sets k s hk

theorem WellSorted.link (h : WellSorted m) (i : ι) (k : κ) : WellSorted (link m i k) := by
  refine ⟨sorted_insert h.keys, fun k' s hs => ?_⟩
  rw [Postings.link, get?_insert] at hs
  split_ifs at hs with hk
  · rw [← Option.some.inj hs]
    exact sorted_insert (h.getD k)
  · exact h.sets k' s hs

/-- Erasing an id from the set of a key keeps the sets sorted. -/
theorem WellSorted.insert_erase (h : WellSorted m) {i : ι} {k : κ} {s : List (ι × Unit)}
    (hget : get? k m = some s) : WellSorted (insert k (erase i s) m) := by
  refine ⟨sorted_insert h.keys, fun k' s' hs => ?_⟩
  rw [get?_insert] at hs
  split_ifs at hs with hk
  · rw [← Option.some.inj hs]
    exact sorted_erase (h.sets k s hget)
  · exact h.sets k' s' hs

theorem WellSorted.unlink (h : WellSorted m) (i : ι) (k : κ) : WellSorted (unlink m i k) := by
  unfold Postings.unlink
  cases hget : get? k m with
  | none => exact h
  | some s => exact h.insert_erase hget

theorem WellSorted.unlinkPrune (h : WellSorted m) (i : ι) (k : κ) :
    WellSorted (unlinkPrune m i k) := by
  unfold Postings.unlinkPrune
  cases hget : get? k m with
  | none => exact h
  | some s =>
    simp only
    split_ifs with hempty
    · refine ⟨sorted_erase h.keys, fun k' s' hs => ?_⟩
      rw [get?_erase] at hs
      split_ifs at hs
      exact h.sets k' s' hs
    · exact h.insert_erase hget

/-- The ids of a key are ascending, hence distinct. -/
theorem WellSorted.pairwise_idsOf (h : WellSorted m) (k : κ) :
    (idsOf m k).Pairwise (· < ·) :=
  h.getD k

theorem WellSorted.foldl_link (i : ι) (ks : List κ) (h : WellSorted m) :
    WellSorted (ks.foldl (fun m k => Postings.link m i k) m) := by
  induction ks generalizing m with
  | nil => exact h
  | cons k ks ih => exact ih (h.link i k)

theorem WellSorted.foldl_unlink (i : ι) (ks : List κ) (h : WellSorted m) :
    WellSorted (ks.foldl (fun m k => Postings.unlink m i k) m) := by
  induction ks generalizing m with
  | nil => exact h
  | cons k ks ih => exact ih (h.unlink i k)

theorem WellSorted.foldl_unlinkPrune (i : ι) (ks : List κ) (h : WellSorted m) :
    WellSorted (ks.foldl (fun m k => Postings.unlinkPrune m i k) m) := by
  induction ks generalizing m with
  | nil => exact h
  | cons k ks ih => exact ih (h.unlinkPrune i k)

/-- Every set of the map holds an id. -/
def NoEmpty (m : List (κ × List (ι × Unit))) : Prop := ∀ k s, get? k m = some s → s ≠ []

omit [LinearOrder ι] in
theorem noEmpty_nil : NoEmpty ([] : List (κ × List (ι × Unit))) := fun k s h => by
  simp [get?] at h

theorem NoEmpty.link (h : NoEmpty m) (i : ι) (k : κ) : NoEmpty (link m i k) := by
  intro k' s hs
  rw [Postings.link, get?_insert] at hs
  split_ifs at hs with hk
  · rw [← Option.some.inj hs]
    intro hnil
    have := (mem_keys_insert i i () ((get? k m).getD [])).mpr (.inl rfl)
    rw [hnil] at this
    simp at this
  · exact h k' s hs

theorem NoEmpty.unlinkPrune (h : NoEmpty m) (i : ι) (k : κ) : NoEmpty (unlinkPrune m i k) := by
  unfold Postings.unlinkPrune
  cases hget : get? k m with
  | none => exact h
  | some s =>
    simp only
    split_ifs with hempty
    · intro k' s' hs
      rw [get?_erase] at hs
      split_ifs at hs
      exact h k' s' hs
    · intro k' s' hs
      rw [get?_insert] at hs
      split_ifs at hs with hk
      · rw [← Option.some.inj hs]
        exact fun hnil => hempty (by rw [hnil]; rfl)
      · exact h k' s' hs

theorem NoEmpty.foldl_link (i : ι) (ks : List κ) (h : NoEmpty m) :
    NoEmpty (ks.foldl (fun m k => Postings.link m i k) m) := by
  induction ks generalizing m with
  | nil => exact h
  | cons k ks ih => exact ih (h.link i k)

theorem NoEmpty.foldl_unlinkPrune (i : ι) (ks : List κ) (h : NoEmpty m) :
    NoEmpty (ks.foldl (fun m k => Postings.unlinkPrune m i k) m) := by
  induction ks generalizing m with
  | nil => exact h
  | cons k ks ih => exact ih (h.unlinkPrune i k)

end Sorting

/-! ## 4. The sets of several keys -/

omit [LinearOrder ι] in
/-- Looking up every key of a list succeeds with the sets of the keys, in their order. -/
theorem mapM_get?_eq_some_iff (m : List (κ × List (ι × Unit))) :
    ∀ (ks : List κ) (ss : List (List (ι × Unit))),
      ks.mapM (get? · m) = some ss ↔ List.Forall₂ (fun k s => get? k m = some s) ks ss
  | [], ss => by
    cases ss <;> simp
  | k :: ks, ss => by
    rw [List.mapM_cons]
    cases ss with
    | nil =>
      cases get? k m <;> cases ks.mapM (get? · m) <;> simp
    | cons s ss =>
      rw [List.forall₂_cons, ← mapM_get?_eq_some_iff m ks ss]
      cases get? k m <;> cases ks.mapM (get? · m) <;> simp [eq_comm]

omit [LinearOrder ι] in
/-- ... and fails exactly when one key has no set. -/
theorem mapM_get?_eq_none_iff (m : List (κ × List (ι × Unit))) :
    ∀ ks : List κ, ks.mapM (get? · m) = none ↔ ∃ k ∈ ks, get? k m = none
  | [] => by simp
  | k :: ks => by
    have ih := mapM_get?_eq_none_iff m ks
    rw [List.mapM_cons]
    cases hk : get? k m with
    | none => simp [hk]
    | some s =>
      cases hks : ks.mapM (get? · m) <;> simp_all

section Lookups

variable {m : List (κ × List (ι × Unit))}

omit [LinearOrder ι] in
/-- Every set a lookup returns is the set of one of the keys. -/
theorem exists_get?_of_mem {ks : List κ} {ss : List (List (ι × Unit))}
    (h : List.Forall₂ (fun k s => get? k m = some s) ks ss) {s : List (ι × Unit)} (hs : s ∈ ss) :
    ∃ k ∈ ks, get? k m = some s := by
  induction h with
  | nil => cases hs
  | cons hks _ ih =>
    rcases List.mem_cons.mp hs with rfl | hs
    · exact ⟨_, List.mem_cons_self, hks⟩
    · obtain ⟨k, hk, hget⟩ := ih hs
      exact ⟨k, List.mem_cons_of_mem _ hk, hget⟩

omit [LinearOrder ι] in
/-- An id is in every set a lookup returns exactly when every key holds it. -/
theorem forall_mem_ids_iff {ks : List κ} {ss : List (List (ι × Unit))}
    (h : List.Forall₂ (fun k s => get? k m = some s) ks ss) (i : ι) :
    (∀ s ∈ ss, i ∈ s.map Prod.fst) ↔ ∀ k ∈ ks, i ∈ idsOf m k := by
  induction h with
  | nil => simp
  | cons hks _ ih =>
    rw [List.forall_mem_cons, List.forall_mem_cons, ih, idsOf, hks, Option.getD_some]

end Lookups

end Postings
