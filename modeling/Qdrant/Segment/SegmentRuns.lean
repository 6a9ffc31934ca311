/-
# A segment over runs of writes: the tracker, the stored payloads and the versions

The id tracker of a segment keeps two maps: external id to offset (`internal_id`) and offset to
external id (`external_id`, for a slot that is not deleted).  Every write of `segment.rs`
changes them through `set_link`, `drop` and `set_internal_version` only, and they stay inverse
to each other (`IdTracker.Inverse`):

* `set_link` of a new point takes the first free slot (`internal_size`), where no point lives;
* `drop` frees the point's own slot and no other;
* `set_internal_version` writes versions only;
* the payload index, which every payload write and `delete_point` go through, writes its
  storage and its field indexes but never the tracker it shares with the segment.

Each write is therefore a run of steps of four kinds (`Segment.WriteStep`), and what every run
keeps is proved once per kind of step:

* the tracker stays linked (`IdTracker.Wf` and `IdTracker.Inverse`), and `points_count` is the
  number of offsets `iter_ids` yields (`tracker_linked_run`);
* a payload is stored only for a live point, so a point new to the segment, even under an id
  deleted before, starts with the empty payload (`upsert_new_point_payload_empty`);
* no point's version exceeds the segment's, so an operation numbered at least the segment's
  version is never skipped (`upsert_not_older_applied`).

A failed write is taken to leave the segment as it was.  Every error of these writes is raised
before they write, except a panic of a field index inside the payload index, which stops the
process; the service errors of storage (`handle_version_and_failure`) are not modelled.
-/
import Qdrant.Segment.SegmentBuilderMerge

namespace Qdrant

open OrdMap Relation

namespace IdTracker

/-! ## 1. The two maps of the tracker -/

/-- The two maps agree: an external id is linked to a slot exactly when the slot is live and
names it. -/
def Inverse (t : IdTracker) : Prop :=
  ∀ a i, t.internalId a = some i ↔ t.externalId i = some a

/-- A tracker whose maps agree and that keeps its own invariant. -/
structure Linked (t : IdTracker) : Prop where
  wf : t.Wf
  inverse : t.Inverse

theorem linked_empty : IdTracker.empty.Linked where
  wf := wf_empty
  inverse a i := by simp [IdTracker.empty, internalId, externalId, get?]

variable (t : IdTracker)

@[simp] theorem externalId_setInternalVersion (i j : PointOffsetType) (v : ℕ) :
    (t.setInternalVersion i v).externalId j = t.externalId j := by
  obtain ⟨versions, h, -⟩ := setInternalVersion_eq t i v
  rw [h]
  rfl

/-- `drop` leaves every other slot's external id. -/
theorem externalId_drop_of_ne {p : ExtendedPointId} {i j : PointOffsetType}
    (hp : t.internalId p = some i) (hj : j ≠ i) : (t.drop p).externalId j = t.externalId j := by
  simp only [drop, hp, externalId, List.getElem?_set_ne (Ne.symm hj)]

theorem externalId_drop_of_none {p : ExtendedPointId} (hp : t.internalId p = none)
    (j : PointOffsetType) : (t.drop p).externalId j = t.externalId j := by
  simp only [drop, hp, externalId]

/-- The first free slot names no point. -/
theorem externalId_internalSize : t.externalId t.internalSize = none := by
  unfold externalId
  split
  · exact List.getElem?_eq_none (le_refl _)
  · rfl

/-- `set_link` at the first free slot leaves every other slot's external id: it appends the
slot, and the deleted flags it pads are for slots past the end, which name no point. -/
theorem externalId_setLink_internalSize_of_ne (a : ExtendedPointId) {j : PointOffsetType}
    (hj : j ≠ t.internalSize) : (t.setLink a t.internalSize).externalId j = t.externalId j := by
  have hext : (t.setLink a t.internalSize).internalToExternal[j]? = t.internalToExternal[j]? := by
    have hj' : t.internalToExternal.length ≠ j := Ne.symm hj
    simp only [setLink, internalSize, le_refl, if_true, List.getElem?_set_ne hj']
    rw [List.getElem?_append]
    split
    · rfl
    · rename_i hlt
      rw [List.getElem?_eq_none (Nat.le_of_not_lt hlt), List.getElem?_replicate]
      -- the slot lies past the appended one
      have hpast : j - t.internalToExternal.length ≠ 0 :=
        Nat.sub_ne_zero_of_lt (Nat.lt_of_le_of_ne (Nat.le_of_not_lt hlt) hj')
      simp [hpast]
  have hdel : (t.setLink a t.internalSize).deleted[j]? = t.deleted[j]? ∨
      ((t.setLink a t.internalSize).deleted[j]? = some true ∧ t.deleted[j]? = none) := by
    simp only [setLink, List.getElem?_set_ne (Ne.symm hj)]
    split
    · rw [List.getElem?_append]
      split
      · exact Or.inl rfl
      · rename_i hlt
        rw [List.getElem?_eq_none (Nat.le_of_not_lt hlt), List.getElem?_replicate]
        split
        · exact Or.inr ⟨rfl, rfl⟩
        · exact Or.inl rfl
    · exact Or.inl rfl
  unfold externalId
  rcases hdel with hdel | ⟨hdel, hnone⟩
  · rw [hdel, hext]
  · rw [hdel, hnone]

/-! ## 2. Each write keeps the maps inverse -/

theorem Inverse.setInternalVersion {t : IdTracker} (h : t.Inverse) (i : PointOffsetType)
    (v : ℕ) : (t.setInternalVersion i v).Inverse := by
  intro a j
  rw [internalId_setInternalVersion, externalId_setInternalVersion]
  exact h a j

theorem Inverse.drop {t : IdTracker} (h : t.Inverse) (p : ExtendedPointId) :
    (t.drop p).Inverse := by
  intro a j
  rw [internalId_drop]
  cases hp : t.internalId p with
  | none =>
    rw [externalId_drop_of_none t hp]
    split
    · -- `p` had no slot, so no slot names it
      rename_i hap
      subst hap
      refine ⟨fun hn => absurd hn (by simp), fun hj => ?_⟩
      rw [← h] at hj
      rw [hj] at hp
      exact absurd hp (by simp)
    · exact h a j
  | some i =>
    by_cases hj : j = i
    · -- the freed slot names nobody
      subst hj
      rw [externalId_drop_self t p hp]
      split
      · simp
      · rename_i hap
        refine ⟨fun ha => ?_, fun hn => absurd hn (by simp)⟩
        have hjp := (h p j).mp hp
        have hja := (h a j).mp ha
        exact absurd (Option.some.inj (hja.symm.trans hjp)) hap
    · rw [externalId_drop_of_ne t hp hj]
      split
      · rename_i hap
        subst hap
        refine ⟨fun hn => absurd hn (by simp), fun hja => ?_⟩
        exact absurd (Option.some.inj (hp.symm.trans ((h a j).mpr hja))) (Ne.symm hj)
      · exact h a j

/-- `set_link` of an unlinked id to the first free slot. -/
theorem Inverse.setLink {t : IdTracker} (h : t.Inverse) {a : ExtendedPointId}
    (ha : t.internalId a = none) : (t.setLink a t.internalSize).Inverse := by
  intro b j
  rw [internalId_setLink]
  by_cases hj : j = t.internalSize
  · subst hj
    rw [externalId_setLink_self]
    split
    · rename_i hba
      simp [hba]
    · rename_i hba
      refine ⟨fun hb => ?_, fun hn => absurd (Option.some.inj hn).symm hba⟩
      have hi := externalId_internalSize t
      rw [(h b _).mp hb] at hi
      exact absurd hi (by simp)
  · rw [externalId_setLink_internalSize_of_ne t a hj]
    split
    · rename_i hba
      subst hba
      refine ⟨fun hn => absurd (Option.some.inj hn).symm hj, fun hjb => ?_⟩
      rw [(h b j).mpr hjb] at ha
      exact absurd ha (by simp)
    · exact h b j

/-- A linked tracker stays linked through each write a segment makes of it: `set_link` for a
new id at the first free slot once the slot's version is stamped, as `handle_version` does. -/
theorem Linked.setInternalVersion {t : IdTracker} (h : t.Linked) (i : PointOffsetType) (v : ℕ) :
    (t.setInternalVersion i v).Linked :=
  ⟨h.wf.setInternalVersion i v, h.inverse.setInternalVersion i v⟩

theorem Linked.drop {t : IdTracker} (h : t.Linked) (p : ExtendedPointId) : (t.drop p).Linked :=
  ⟨h.wf.drop p, h.inverse.drop p⟩

theorem Linked.setLink {t : IdTracker} (h : t.Linked) {a : ExtendedPointId}
    (ha : t.internalId a = none) (v : ℕ) :
    ((t.setLink a t.internalSize).setInternalVersion t.internalSize v).Linked := by
  -- no id is linked to the first free slot
  have hfresh : ∀ b, b ≠ a → t.internalId b ≠ some t.internalSize := by
    intro b _ hb
    exact lt_irrefl _ (h.wf.lt_internalSize hb)
  exact ⟨h.wf.setLink_setInternalVersion hfresh v,
    (h.inverse.setLink ha).setInternalVersion _ v⟩

/-! ## 3. Counting the points -/

/-- `iter_ids` yields exactly the slots that name a point. -/
theorem mem_iterIds_iff {i : PointOffsetType} :
    i ∈ t.iterIds ↔ ∃ a, t.externalId i = some a := by
  unfold iterIds externalId
  rw [List.mem_filter, List.mem_range, List.getD_eq_getElem?_getD]
  cases hd : t.deleted[i]? with
  | none => simp
  | some d => cases d <;> simp [List.getElem?_eq_some_iff]

/-- The offsets of a well-formed tracker's ids are distinct. -/
theorem Wf.nodup_offsets {t : IdTracker} (hw : t.Wf) :
    (t.externalToInternal.map Prod.snd).Nodup := by
  have hnodup : t.externalToInternal.Nodup :=
    List.Nodup.of_map Prod.fst (List.Pairwise.imp ne_of_lt t.sorted)
  refine hnodup.map_on fun x hx y hy hxy => ?_
  have hxl : t.internalId x.1 = some x.2 := get?_of_mem t.sorted hx
  have hyl : t.internalId y.1 = some x.2 := hxy ▸ get?_of_mem t.sorted hy
  exact Prod.ext (hw.injective hxl hyl) hxy

/-- **`points_count` is the number of offsets `iter_ids` yields**: on a linked tracker the
offsets of the ids are the live slots, each once. -/
theorem Linked.pointsCount_eq {t : IdTracker} (h : t.Linked) :
    t.pointsCount = t.iterIds.length := by
  have hperm : (t.externalToInternal.map Prod.snd).Perm t.iterIds := by
    have hlive := StructPayloadIndex.nodup_iterIds t
    refine (List.perm_ext_iff_of_nodup h.wf.nodup_offsets hlive).mpr fun i => ?_
    rw [mem_iterIds_iff, List.mem_map]
    constructor
    · rintro ⟨⟨a, j⟩, hmem, rfl⟩
      exact ⟨a, (h.inverse a j).mp (get?_of_mem t.sorted hmem)⟩
    · rintro ⟨a, ha⟩
      exact ⟨(a, i), mem_of_get? ((h.inverse a i).mpr ha), rfl⟩
  rw [pointsCount, ← hperm.length_eq, List.length_map]

/-! ## 4. The versions -/

/-- Every version the tracker holds is at most `c`. -/
def VersionsAtMost (t : IdTracker) (c : ℕ) : Prop :=
  ∀ j w, t.internalVersion j = some w → w ≤ c

theorem versionsAtMost_empty (c : ℕ) : IdTracker.empty.VersionsAtMost c := by
  intro j w hj
  simp [IdTracker.empty, internalVersion] at hj

theorem VersionsAtMost.mono {t : IdTracker} {c c' : ℕ} (h : t.VersionsAtMost c) (hc : c ≤ c') :
    t.VersionsAtMost c' :=
  fun j w hj => (h j w hj).trans hc

/-- `set_internal_version` writes `v` at a live slot, and pads the versions with zeros. -/
theorem VersionsAtMost.setInternalVersion {t : IdTracker} {c : ℕ} (h : t.VersionsAtMost c)
    (i : PointOffsetType) {v : ℕ} (hv : v ≤ c) : (t.setInternalVersion i v).VersionsAtMost c := by
  intro j w hj
  unfold IdTracker.setInternalVersion at hj
  split at hj
  · exact h j w hj
  · simp only [internalVersion, List.getElem?_set] at hj
    by_cases hij : i = j
    · -- the written slot
      rw [if_pos hij, Option.ite_none_right_eq_some] at hj
      obtain ⟨-, hvw⟩ := hj
      exact Option.some.inj hvw ▸ hv
    · -- another slot: its old version, or a padded zero
      rw [if_neg hij] at hj
      split at hj
      · rw [List.getElem?_append] at hj
        split at hj
        · exact h j w hj
        · rw [List.getElem?_replicate] at hj
          split at hj
          · cases hj
            exact Nat.zero_le c
          · cases hj
      · exact h j w hj

theorem VersionsAtMost.setLink {t : IdTracker} {c : ℕ} (h : t.VersionsAtMost c)
    (a : ExtendedPointId) (i : PointOffsetType) : (t.setLink a i).VersionsAtMost c :=
  fun j w hj => h j w (by rwa [internalVersion_setLink] at hj)

theorem VersionsAtMost.drop {t : IdTracker} {c : ℕ} (h : t.VersionsAtMost c)
    (a : ExtendedPointId) : (t.drop a).VersionsAtMost c :=
  fun j w hj => h j w (by rwa [internalVersion_drop] at hj)

end IdTracker

/-! ## 5. The payload index writes everything but the tracker -/

namespace PayloadStorage

/-- `s'` stores a payload only where `s` does, or at `id`. -/
def StoresWithin (s s' : PayloadStorage) (id : PointOffsetType) : Prop :=
  ∀ j, (get? j s'.payloadMap).isSome → (get? j s.payloadMap).isSome ∨ j = id

theorem StoresWithin.trans {s₁ s₂ s₃ : PayloadStorage} {id : PointOffsetType}
    (h₁ : s₁.StoresWithin s₂ id) (h₂ : s₂.StoresWithin s₃ id) :
    s₁.StoresWithin s₃ id := by
  intro j hj
  rcases h₂ j hj with hj | rfl
  · exact h₁ j hj
  · exact Or.inr rfl

theorem storesWithin_assign (s : PayloadStorage) (id : PointOffsetType) (payload : Payload) :
    s.StoresWithin (s.assign id payload) id := by
  intro j hj
  rcases (get?_assign s id payload j).mp hj with hjid | hj
  · exact Or.inr hjid
  · exact Or.inl hj

theorem storesWithin_delete (s : PayloadStorage) (id : PointOffsetType) (key : String) :
    s.StoresWithin (s.delete id key).2 id := by
  intro j hj
  by_cases hjid : j = id
  · exact Or.inr hjid
  · left
    unfold delete at hj
    split at hj <;> simpa [get?_insert, hjid] using hj

theorem storesWithin_drop (s : PayloadStorage) (id : PointOffsetType) :
    s.StoresWithin (s.drop id).2 id := by
  intro j hj
  rw [get?_drop] at hj
  split at hj
  · simp at hj
  · exact Or.inl hj

end PayloadStorage

namespace StructPayloadIndex

/-- An update of the payload index at one point, as each payload write makes: it keeps the
tracker, and stores payloads only where there were some, or at the point. -/
structure UpdatesAt
    (update : StructPayloadIndex → PointOffsetType → Option StructPayloadIndex) : Prop where
  idTracker : ∀ {index id index'}, update index id = some index' →
    index'.idTracker = index.idTracker
  storesWithin : ∀ {index id index'}, update index id = some index' →
    index.payload.StoresWithin index'.payload id

variable (env : Env) {s s' : StructPayloadIndex} {id : PointOffsetType}

theorem assign_eq {payload : Payload} (h : s.assign env id payload = some s') :
    s'.idTracker = s.idTracker ∧ s'.payload = s.payload.assign id payload := by
  obtain ⟨_, -, rfl⟩ := Option.map_eq_some_iff.mp h
  exact ⟨rfl, rfl⟩

theorem delete_eq {key : String} {r : List Value × StructPayloadIndex}
    (h : s.delete env id key = some r) :
    r.2.idTracker = s.idTracker ∧ r.2.payload = (s.payload.delete id key).2 := by
  obtain ⟨_, -, rfl⟩ := Option.map_eq_some_iff.mp h
  exact ⟨rfl, rfl⟩

theorem drop_eq {r : Option Payload × StructPayloadIndex} (h : s.drop env id = some r) :
    r.2.idTracker = s.idTracker ∧ r.2.payload = (s.payload.drop id).2 := by
  obtain ⟨_, -, rfl⟩ := Option.map_eq_some_iff.mp h
  exact ⟨rfl, rfl⟩

theorem setIndexed_eq {field : String} {schema : PayloadSchemaType}
    (h : s.setIndexed env field schema = some s') :
    s'.idTracker = s.idTracker ∧ s'.payload = s.payload := by
  unfold setIndexed at h
  split at h
  · rw [← Option.some.inj h]
    exact ⟨rfl, rfl⟩
  · obtain ⟨_, -, rfl⟩ := Option.map_eq_some_iff.mp h
    exact ⟨rfl, rfl⟩

theorem updatesAt_assign (payload : Payload) :
    UpdatesAt fun index id => index.assign env id payload where
  idTracker h := (assign_eq env h).1
  storesWithin h := (assign_eq env h).2 ▸ PayloadStorage.storesWithin_assign _ _ _

theorem updatesAt_delete (key : String) :
    UpdatesAt fun index id => (index.delete env id key).map (·.2) where
  idTracker h := by
    obtain ⟨r, hdelete, rfl⟩ := Option.map_eq_some_iff.mp h
    exact (delete_eq env hdelete).1
  storesWithin h := by
    obtain ⟨r, hdelete, rfl⟩ := Option.map_eq_some_iff.mp h
    exact (delete_eq env hdelete).2 ▸ PayloadStorage.storesWithin_delete _ _ _

theorem updatesAt_drop : UpdatesAt fun index id => (index.drop env id).map (·.2) where
  idTracker h := by
    obtain ⟨r, hdrop, rfl⟩ := Option.map_eq_some_iff.mp h
    exact (drop_eq env hdrop).1
  storesWithin h := by
    obtain ⟨r, hdrop, rfl⟩ := Option.map_eq_some_iff.mp h
    exact (drop_eq env hdrop).2 ▸ PayloadStorage.storesWithin_drop _ _

/-- `assign_all` is a `drop`, then an `assign`, at the same point. -/
theorem updatesAt_assignAll (payload : Payload) :
    UpdatesAt fun index id => index.assignAll env id payload where
  idTracker h := by
    obtain ⟨r, hdrop, hassign⟩ := Option.bind_eq_some_iff.mp h
    rw [(assign_eq env hassign).1, (drop_eq env hdrop).1]
  storesWithin h := by
    obtain ⟨r, hdrop, hassign⟩ := Option.bind_eq_some_iff.mp h
    have hd := (drop_eq env hdrop).2 ▸ PayloadStorage.storesWithin_drop _ _
    exact hd.trans ((assign_eq env hassign).2 ▸ PayloadStorage.storesWithin_assign _ _ _)

end StructPayloadIndex

/-! ## 6. What each write does to the tracker, the stored payloads and the version -/

namespace Segment

variable (env : Env)

/-- What one write does to a segment's tracker, stored payloads and version: nothing to the
first two; stamp a known point and write its payload; link a new point at the first free slot
and stamp it; or drop a known point with its payload and stamp its slot.  A stamp with `v`
raises the segment's version to `v`.  `delete_filtered` is a run of such steps. -/
inductive WriteStep (s s' : Segment) : Prop
  | frame (htracker : s'.idTracker = s.idTracker)
      (hpayload : s'.payloadIndex.payload = s.payloadIndex.payload)
      (hversion : s.currentVersion ≤ s'.currentVersion)
  | update {p : ExtendedPointId} {i : PointOffsetType} {v : ℕ}
      (hp : s.idTracker.internalId p = some i)
      (htracker : s'.idTracker = s.idTracker.setInternalVersion i v)
      (hpayload : s.payloadIndex.payload.StoresWithin s'.payloadIndex.payload i)
      (hversion : s'.currentVersion = max v s.currentVersion)
  | insert {p : ExtendedPointId} {v : ℕ} (hp : s.idTracker.internalId p = none)
      (htracker : s'.idTracker = (s.idTracker.setLink p s.idTracker.internalSize).setInternalVersion
        s.idTracker.internalSize v)
      (hpayload : s'.payloadIndex.payload = s.payloadIndex.payload)
      (hversion : s'.currentVersion = max v s.currentVersion)
  | delete {p : ExtendedPointId} {i : PointOffsetType} {v : ℕ}
      (hp : s.idTracker.internalId p = some i)
      (htracker : s'.idTracker = (s.idTracker.drop p).setInternalVersion i v)
      (hpayload : s'.payloadIndex.payload = (s.payloadIndex.payload.drop i).2)
      (hversion : s'.currentVersion = max v s.currentVersion)

/-- `handle_version`: the segment as it was when the operation is skipped, which a version
above the operation's (the segment's, or the point's) causes; otherwise the operation's, with
the offset it reports stamped and the segment's version raised to the operation's. -/
theorem handleVersion_cases {s s' : Segment} {opNum : ℕ} {offset : Option PointOffsetType}
    {operation : Segment → OperationResult (Bool × Option PointOffsetType × Segment)} {b : Bool}
    (h : s.handleVersion opNum offset operation = .ok (b, s')) :
    (s' = s ∧ (opNum < s.currentVersion ∨
      ∃ o w, s.idTracker.internalVersion o = some w ∧ opNum < w)) ∨
    ∃ r, operation s = .ok r ∧
      s'.currentVersion = max opNum r.2.2.currentVersion ∧
      s'.payloadIndex.payload = r.2.2.payloadIndex.payload ∧
      s'.idTracker = match r.2.1 with
        | some i => r.2.2.idTracker.setInternalVersion i opNum
        | none => r.2.2.idTracker := by
  simp only [handleVersion] at h
  split_ifs at h with hskip
  · left
    cases h
    refine ⟨rfl, ?_⟩
    -- the skip test reads the segment's version, or the point's
    cases offset with
    | none => exact Or.inl (by simpa [currentVersion] using hskip)
    | some o =>
      cases hv : s.idTracker.internalVersion o with
      | none => simp [hv] at hskip
      | some w =>
        simp only [hv, Option.any_some, decide_eq_true_eq] at hskip
        exact Or.inr ⟨o, w, hv, hskip⟩
  · right
    cases hop : operation s with
    | error e => simp [hop, Except.map] at h
    | ok r =>
      obtain ⟨b₀, o, s₀⟩ := r
      simp only [hop, Except.map] at h
      cases h
      cases o with
      | some i => exact ⟨_, rfl, rfl, rfl, rfl⟩
      | none => exact ⟨_, rfl, rfl, rfl, rfl⟩

/-- `upsert_vector`: skipped for a version above the operation's; a known point stamped in
place; or a new point linked at the first free slot and stamped.  The stored payloads stay as
they are. -/
theorem upsertVector_cases {s s' : Segment} {opNum : ℕ} {pointId : ExtendedPointId}
    {vectors : NamedVectors} {b : Bool} (h : s.upsertVector opNum pointId vectors = .ok (b, s')) :
    (s' = s ∧ (opNum < s.currentVersion ∨
      ∃ o w, s.idTracker.internalVersion o = some w ∧ opNum < w)) ∨
      (∃ i, s.idTracker.internalId pointId = some i ∧
        s'.currentVersion = max opNum s.currentVersion ∧
        s'.idTracker = s.idTracker.setInternalVersion i opNum ∧
        s'.payloadIndex.payload = s.payloadIndex.payload) ∨
      (s.idTracker.internalId pointId = none ∧
        s'.currentVersion = max opNum s.currentVersion ∧
        s'.idTracker = (s.idTracker.setLink pointId s.idTracker.internalSize).setInternalVersion
          s.idTracker.internalSize opNum ∧
        s'.payloadIndex.payload = s.payloadIndex.payload) := by
  cases hcheck : s.checkVectorsSet vectors with
  | error e => simp [upsertVector, hcheck, Except.bind] at h
  | ok u =>
    simp only [upsertVector, hcheck, Except.bind] at h
    rcases handleVersion_cases h with hskip | ⟨r, hr, hversion, hpayload, htracker⟩
    · exact Or.inl hskip
    · right
      cases hp : s.processVectors vectors with
      | error e => simp [hp, Except.map] at hr
      | ok processed =>
        simp only [hp, Except.map] at hr
        -- the point's slot was read before the operation
        cases hid : s.idTracker.internalId pointId with
        | some existing =>
          simp only [hid] at hr
          cases hr
          exact Or.inl ⟨existing, rfl, hversion, htracker, hpayload⟩
        | none =>
          simp only [hid] at hr
          cases hr
          exact Or.inr ⟨rfl, hversion, htracker, hpayload⟩

/-- `delete_point`: nothing for an unknown or skipped point; otherwise the payload index drops
the point, then the tracker, and the freed slot is stamped. -/
theorem deletePoint_cases {s s' : Segment} {opNum : ℕ} {pointId : ExtendedPointId} {b : Bool}
    (h : s.deletePoint env opNum pointId = .ok (b, s')) :
    s' = s ∨ ∃ i, s.idTracker.internalId pointId = some i ∧
      s'.currentVersion = max opNum s.currentVersion ∧
      s'.idTracker = (s.idTracker.drop pointId).setInternalVersion i opNum ∧
      s'.payloadIndex.payload = (s.payloadIndex.payload.drop i).2 := by
  cases hid : s.idTracker.internalId pointId with
  | none =>
    simp only [deletePoint, hid] at h
    cases h
    exact Or.inl rfl
  | some i =>
    simp only [deletePoint, hid] at h
    rcases handleVersion_cases h with ⟨rfl, -⟩ | ⟨r, hr, hversion, hpayload, htracker⟩
    · exact Or.inl rfl
    · right
      cases hdrop : s.payloadIndex.drop env i with
      | none => simp [hdrop, ofPanic, Except.map] at hr
      | some d =>
        simp only [hdrop, ofPanic, Except.map] at hr
        cases hr
        obtain ⟨hdt, hdp⟩ := StructPayloadIndex.drop_eq env hdrop
        refine ⟨i, rfl, hversion, ?_, hpayload.trans hdp⟩
        rw [htracker]
        change ((d.2.idTracker.drop pointId).setInternalVersion i opNum) = _
        rw [hdt]
        rfl

/-- The payload writes: skipped, or the point's payload rewritten and its slot stamped. -/
theorem updatePayload_cases {s s' : Segment} {opNum : ℕ} {pointId : ExtendedPointId}
    {update : StructPayloadIndex → PointOffsetType → Option StructPayloadIndex} {b : Bool}
    (hupdate : StructPayloadIndex.UpdatesAt update)
    (h : s.updatePayload opNum pointId update = .ok (b, s')) :
    s' = s ∨ ∃ i, s.idTracker.internalId pointId = some i ∧
      s'.currentVersion = max opNum s.currentVersion ∧
      s'.idTracker = s.idTracker.setInternalVersion i opNum ∧
      s.payloadIndex.payload.StoresWithin s'.payloadIndex.payload i := by
  simp only [updatePayload] at h
  rcases handleVersion_cases h with ⟨rfl, -⟩ | ⟨r, hr, hversion, hpayload, htracker⟩
  · exact Or.inl rfl
  · right
    cases hid : s.idTracker.internalId pointId with
    | none => simp [hid] at hr
    | some i =>
      cases hu : update s.payloadIndex i with
      | none => simp [hid, hu, ofPanic, Except.map] at hr
      | some index =>
        simp only [hid, hu, ofPanic, Except.map] at hr
        cases hr
        refine ⟨i, rfl, hversion, ?_, hpayload ▸ hupdate.storesWithin hu⟩
        rw [htracker]
        change index.idTracker.setInternalVersion i opNum = _
        rw [hupdate.idTracker hu]
        rfl

/-- The field-index writes touch neither the tracker nor the stored payloads. -/
theorem createFieldIndex_eq {s s' : Segment} {opNum : ℕ} {key : String}
    {fieldType : Option PayloadSchemaType} {b : Bool}
    (h : s.createFieldIndex env opNum key fieldType = .ok (b, s')) :
    s'.idTracker = s.idTracker ∧ s'.payloadIndex.payload = s.payloadIndex.payload ∧
      s.currentVersion ≤ s'.currentVersion := by
  rcases handleVersion_cases h with ⟨rfl, -⟩ | ⟨r, hr, hversion, hpayload, htracker⟩
  · exact ⟨rfl, rfl, le_rfl⟩
  · simp only at hr
    split at hr
    · simp at hr
    · rename_i schema _
      cases hset : s.payloadIndex.setIndexed env key schema with
      | none => simp [hset, ofPanic, Except.map] at hr
      | some index =>
        simp only [hset, ofPanic, Except.map] at hr
        cases hr
        exact ⟨htracker.trans (StructPayloadIndex.setIndexed_eq env hset).1,
          hpayload.trans (StructPayloadIndex.setIndexed_eq env hset).2,
          hversion ▸ le_max_right _ _⟩

theorem deleteFieldIndex_eq {s s' : Segment} {opNum : ℕ} {key : String} {b : Bool}
    (h : s.deleteFieldIndex opNum key = .ok (b, s')) :
    s'.idTracker = s.idTracker ∧ s'.payloadIndex.payload = s.payloadIndex.payload ∧
      s.currentVersion ≤ s'.currentVersion := by
  rcases handleVersion_cases h with ⟨rfl, -⟩ | ⟨r, hr, hversion, hpayload, htracker⟩
  · exact ⟨rfl, rfl, le_rfl⟩
  · cases hr
    exact ⟨htracker, hpayload, hversion ▸ le_max_right _ _⟩

theorem writeStep_upsertVector {s s' : Segment} {opNum : ℕ} {pointId : ExtendedPointId}
    {vectors : NamedVectors} {b : Bool} (h : s.upsertVector opNum pointId vectors = .ok (b, s')) :
    WriteStep s s' := by
  rcases upsertVector_cases h with
    ⟨rfl, -⟩ | ⟨i, hi, hversion, htracker, hpayload⟩ | ⟨hid, hversion, htracker, hpayload⟩
  · exact .frame rfl rfl le_rfl
  · exact .update hi htracker (hpayload ▸ fun _ hj => Or.inl hj) hversion
  · exact .insert hid htracker hpayload hversion

theorem writeStep_deletePoint {s s' : Segment} {opNum : ℕ} {pointId : ExtendedPointId} {b : Bool}
    (h : s.deletePoint env opNum pointId = .ok (b, s')) : WriteStep s s' := by
  rcases deletePoint_cases env h with rfl | ⟨i, hi, hversion, htracker, hpayload⟩
  · exact .frame rfl rfl le_rfl
  · exact .delete hi htracker hpayload hversion

theorem writeStep_updatePayload {s s' : Segment} {opNum : ℕ} {pointId : ExtendedPointId}
    {update : StructPayloadIndex → PointOffsetType → Option StructPayloadIndex} {b : Bool}
    (hupdate : StructPayloadIndex.UpdatesAt update)
    (h : s.updatePayload opNum pointId update = .ok (b, s')) : WriteStep s s' := by
  rcases updatePayload_cases hupdate h with rfl | ⟨i, hi, hversion, htracker, hpayload⟩
  · exact .frame rfl rfl le_rfl
  · exact .update hi htracker hpayload hversion

/-- `delete_filtered`: a `delete_point` for each point found, one step each. -/
theorem steps_deleteFiltered {s s' : Segment} {opNum : ℕ} {filter : Filter} {n : ℕ}
    (h : s.deleteFiltered env opNum filter = .ok (n, s')) : ReflTransGen WriteStep s s' := by
  -- the loop's accumulated segment is reached from `s` by steps, point by point
  have hloop : ∀ (points : List ExtendedPointId) (acc r : ℕ × Segment),
      ReflTransGen WriteStep s acc.2 → points.foldlM (fun (acc : ℕ × Segment) pointId =>
        (acc.2.deletePoint env opNum pointId).map fun r =>
          (acc.1 + if r.1 then 1 else 0, r.2)) acc = .ok r → ReflTransGen WriteStep s r.2 := by
    intro points
    induction points with
    | nil =>
      intro acc r hacc hr
      cases hr
      exact hacc
    | cons pointId rest ih =>
      intro acc r hacc hr
      rw [List.foldlM_cons] at hr
      cases hd : acc.2.deletePoint env opNum pointId with
      | error e => simp [hd, Except.map, bind, Except.bind] at hr
      | ok d =>
        simp only [hd, Except.map, bind, Except.bind] at hr
        exact ih _ r (hacc.tail (writeStep_deletePoint env hd)) hr
  cases hread : ofPanic (s.readFiltered env none none (some filter)) with
  | error e => simp [deleteFiltered, hread, Except.bind] at h
  | ok points =>
    simp only [deleteFiltered, hread, Except.bind] at h
    exact hloop points (0, s) (n, s') ReflTransGen.refl h

/-- A result that is a value is that value. -/
theorem eq_ok_getD {α : Type} {x : OperationResult α} (d : α) (h : x.toOption.isSome = true) :
    x = .ok (x.toOption.getD d) := by
  cases x with
  | error e => cases h
  | ok a => rfl

/-- The result of a write that succeeds. -/
theorem map_eq_ok {α β : Type} {f : α → β} {x : OperationResult α} {b : β}
    (h : x.map f = .ok b) : ∃ a, x = .ok a ∧ f a = b := by
  cases x with
  | error e => cases h
  | ok a =>
    cases h
    exact ⟨a, rfl, rfl⟩

end Segment

/-! ## 7. Runs of writes -/

/-- A call of one of the segment's writes. -/
inductive SegmentWrite where
  | upsertVector (opNum : ℕ) (pointId : ExtendedPointId) (vectors : NamedVectors)
  | deletePoint (opNum : ℕ) (pointId : ExtendedPointId)
  | setFullPayload (opNum : ℕ) (pointId : ExtendedPointId) (fullPayload : Payload)
  | setPayload (opNum : ℕ) (pointId : ExtendedPointId) (payload : Payload)
  | deletePayload (opNum : ℕ) (pointId : ExtendedPointId) (key : String)
  | clearPayload (opNum : ℕ) (pointId : ExtendedPointId)
  | deleteFiltered (opNum : ℕ) (filter : Filter)
  | createFieldIndex (opNum : ℕ) (key : String) (fieldType : Option PayloadSchemaType)
  | deleteFieldIndex (opNum : ℕ) (key : String)

/-- One write; the segment it leaves, or its error. -/
def SegmentWrite.apply (env : Env) (s : Segment) : SegmentWrite → OperationResult Segment
  | .upsertVector opNum pointId vectors => (s.upsertVector opNum pointId vectors).map (·.2)
  | .deletePoint opNum pointId => (s.deletePoint env opNum pointId).map (·.2)
  | .setFullPayload opNum pointId fullPayload =>
    (s.setFullPayload env opNum pointId fullPayload).map (·.2)
  | .setPayload opNum pointId payload => (s.setPayload env opNum pointId payload).map (·.2)
  | .deletePayload opNum pointId key => (s.deletePayload env opNum pointId key).map (·.2)
  | .clearPayload opNum pointId => (s.clearPayload env opNum pointId).map (·.2)
  | .deleteFiltered opNum filter => (s.deleteFiltered env opNum filter).map (·.2)
  | .createFieldIndex opNum key fieldType =>
    (s.createFieldIndex env opNum key fieldType).map (·.2)
  | .deleteFieldIndex opNum key => (s.deleteFieldIndex opNum key).map (·.2)

namespace Segment

variable (env : Env)

/-- A run of writes, each on the segment the previous one left; a failed write leaves the
segment as it was. -/
def run (s : Segment) (writes : List SegmentWrite) : Segment :=
  writes.foldl (fun s w => match w.apply env s with
    | .ok s' => s'
    | .error _ => s) s

/-- Every write that succeeds is a run of steps. -/
theorem steps_apply {s s' : Segment} :
    ∀ {w : SegmentWrite}, w.apply env s = .ok s' → ReflTransGen WriteStep s s'
  | .upsertVector .., h => by
    obtain ⟨r, hr, rfl⟩ := map_eq_ok h
    exact .single (writeStep_upsertVector hr)
  | .deletePoint .., h => by
    obtain ⟨r, hr, rfl⟩ := map_eq_ok h
    exact .single (writeStep_deletePoint env hr)
  | .setFullPayload .., h => by
    obtain ⟨r, hr, rfl⟩ := map_eq_ok h
    exact .single (writeStep_updatePayload (StructPayloadIndex.updatesAt_assignAll env _) hr)
  | .setPayload .., h => by
    obtain ⟨r, hr, rfl⟩ := map_eq_ok h
    exact .single (writeStep_updatePayload (StructPayloadIndex.updatesAt_assign env _) hr)
  | .deletePayload .., h => by
    obtain ⟨r, hr, rfl⟩ := map_eq_ok h
    exact .single (writeStep_updatePayload (StructPayloadIndex.updatesAt_delete env _) hr)
  | .clearPayload .., h => by
    obtain ⟨r, hr, rfl⟩ := map_eq_ok h
    exact .single (writeStep_updatePayload (StructPayloadIndex.updatesAt_drop env) hr)
  | .deleteFiltered .., h => by
    obtain ⟨r, hr, rfl⟩ := map_eq_ok h
    exact steps_deleteFiltered env hr
  | .createFieldIndex .., h => by
    obtain ⟨r, hr, rfl⟩ := map_eq_ok h
    obtain ⟨htracker, hpayload, hversion⟩ := createFieldIndex_eq env hr
    exact .single (.frame htracker hpayload hversion)
  | .deleteFieldIndex .., h => by
    obtain ⟨r, hr, rfl⟩ := map_eq_ok h
    obtain ⟨htracker, hpayload, hversion⟩ := deleteFieldIndex_eq hr
    exact .single (.frame htracker hpayload hversion)

/-- The run lemma: a run of writes is a run of steps, failed writes taking none. -/
theorem steps_run (s : Segment) (writes : List SegmentWrite) :
    ReflTransGen WriteStep s (s.run env writes) := by
  induction writes generalizing s with
  | nil => exact .refl
  | cons w rest ih =>
    refine ReflTransGen.trans ?_ (ih _)
    dsimp only
    -- a failed write leaves the segment as it was
    split
    · rename_i s' hw
      exact steps_apply env hw
    · exact .refl

/-- A property of segments that every step keeps holds after every run of steps. -/
theorem steps_induction {P : Segment → Prop} (hP : ∀ {s s'}, WriteStep s s' → P s → P s')
    {s s' : Segment} (h : ReflTransGen WriteStep s s') (hs : P s) : P s' := by
  induction h with
  | refl => exact hs
  | tail _ hstep ih => exact hP hstep ih

/-! ## 8. What every run keeps -/

/-- Every step keeps the tracker linked. -/
theorem linked_writeStep {s s' : Segment} (hstep : WriteStep s s') (hs : s.idTracker.Linked) :
    s'.idTracker.Linked := by
  cases hstep with
  | frame htracker _ _ =>
    rw [htracker]
    exact hs
  | update _ htracker _ _ =>
    rw [htracker]
    exact hs.setInternalVersion _ _
  | insert hp htracker _ _ =>
    rw [htracker]
    exact hs.setLink hp _
  | delete _ htracker _ _ =>
    rw [htracker]
    exact (hs.drop _).setInternalVersion _ _

/-- **Over every run of writes, failed ones included, the tracker stays linked and
`points_count` is the number of offsets `iter_ids` yields.** -/
theorem tracker_linked_run {s : Segment} (hs : s.idTracker.Linked) (writes : List SegmentWrite) :
    (s.run env writes).idTracker.Linked ∧
      (s.run env writes).pointsCount = (s.run env writes).idTracker.iterIds.length := by
  have h := steps_induction linked_writeStep (steps_run env s writes) hs
  exact ⟨h, h.pointsCount_eq⟩

/-- From an empty segment, a point upserted, deleted and upserted again. -/
theorem tracker_linked_run_reinsert :
    let env : Env := ⟨fun _ _ => 0, id, id, id, fun _ => true, fun _ => false, id, fun _ => 0,
      fun _ => "", fun _ _ => [], fun _ _ => []⟩
    let empty : Segment :=
      ⟨none, ⟨⟨[]⟩, IdTracker.empty, [], []⟩, [("", [])], [("", ⟨1, fun _ => none⟩)],
        true⟩
    let writes : List SegmentWrite := [.upsertVector 1 (.numId 0) [("", [1])],
      .deletePoint 2 (.numId 0), .upsertVector 3 (.numId 0) [("", [2])]]
    empty.idTracker.Linked ∧ (empty.run env writes).idTracker.Linked ∧
      (empty.run env writes).pointsCount = (empty.run env writes).idTracker.iterIds.length := by
  intro env empty writes
  have h : empty.idTracker.Linked := IdTracker.linked_empty
  exact ⟨h, tracker_linked_run env h writes⟩

/-- A segment whose tracker is linked and whose stored payloads all belong to points it holds. -/
structure Coherent (s : Segment) : Prop where
  linked : s.idTracker.Linked
  payloadsLive : ∀ j, (get? j s.payloadIndex.payload.payloadMap).isSome →
    ∃ a, s.idTracker.externalId j = some a

/-- Every step keeps the segment coherent: a payload is written only at a live point, and a
dropped point's payload goes with it. -/
theorem coherent_writeStep {s s' : Segment} (hstep : WriteStep s s') (hs : s.Coherent) :
    s'.Coherent := by
  refine ⟨linked_writeStep hstep hs.linked, fun j hj => ?_⟩
  cases hstep with
  | frame htracker hpayload _ =>
    rw [hpayload] at hj
    rw [htracker]
    exact hs.payloadsLive j hj
  | update hp htracker hpayload _ =>
    rw [htracker, IdTracker.externalId_setInternalVersion]
    rcases hpayload j hj with hj | rfl
    · exact hs.payloadsLive j hj
    · exact ⟨_, (hs.linked.inverse _ _).mp hp⟩
  | insert hp htracker hpayload _ =>
    rw [hpayload] at hj
    obtain ⟨a, ha⟩ := hs.payloadsLive j hj
    -- a stored payload lies at a live slot, so not at the first free one
    have hne : j ≠ s.idTracker.internalSize := by
      rintro rfl
      rw [IdTracker.externalId_internalSize] at ha
      cases ha
    rw [htracker, IdTracker.externalId_setInternalVersion,
      IdTracker.externalId_setLink_internalSize_of_ne _ _ hne]
    exact ⟨a, ha⟩
  | delete hp htracker hpayload _ =>
    rw [hpayload, PayloadStorage.get?_drop] at hj
    split at hj
    · simp at hj
    · rename_i hji
      rw [htracker, IdTracker.externalId_setInternalVersion,
        IdTracker.externalId_drop_of_ne _ hp hji]
      exact hs.payloadsLive j hj

/-- **A point new to the segment starts with no payload**: after every run of writes from a
coherent segment, an `upsert_vector` that adds a point the segment does not hold gives it the
empty payload, whatever payload an earlier point of the same id had. -/
theorem upsert_new_point_payload_empty {s : Segment} (hs : s.Coherent)
    (writes : List SegmentWrite) {opNum : ℕ} {pointId : ExtendedPointId} {vectors : NamedVectors}
    {r : Bool × Segment} (hnew : (s.run env writes).hasPoint pointId = false)
    (h : (s.run env writes).upsertVector opNum pointId vectors = .ok r)
    (hadded : r.2.hasPoint pointId = true) : r.2.payload pointId = .ok Payload.empty := by
  have hc : (s.run env writes).Coherent :=
    steps_induction coherent_writeStep (steps_run env s writes) hs
  obtain ⟨b, s'⟩ := r
  rcases upsertVector_cases h with ⟨rfl, -⟩ | ⟨i, hi, -⟩ | ⟨-, -, htracker, hpayload⟩
  · -- skipped: the point is still missing
    rw [hnew] at hadded
    cases hadded
  · simp [hasPoint, hi] at hnew
  · -- the new point's slot is the first free one, where no payload is stored
    have hfree : get? (s.run env writes).idTracker.internalSize
        (s.run env writes).payloadIndex.payload.payloadMap = none := by
      cases hget : get? (s.run env writes).idTracker.internalSize
        (s.run env writes).payloadIndex.payload.payloadMap with
      | none => rfl
      | some p =>
        obtain ⟨a, ha⟩ := hc.payloadsLive (s.run env writes).idTracker.internalSize
          (by rw [hget]; rfl)
        rw [IdTracker.externalId_internalSize] at ha
        cases ha
    simp [payload, htracker, hpayload, PayloadStorage.payload, hfree]

/-- From an empty segment: a point upserted with a payload and deleted, then upserted again,
has no payload. -/
theorem upsert_new_point_payload_empty_reinsert :
    let env : Env := ⟨fun _ _ => 0, id, id, id, fun _ => true, fun _ => false, id, fun _ => 0,
      fun _ => "", fun _ _ => [], fun _ _ => []⟩
    let empty : Segment :=
      ⟨none, ⟨⟨[]⟩, IdTracker.empty, [], []⟩, [("", [])], [("", ⟨1, fun _ => none⟩)],
        true⟩
    let writes : List SegmentWrite := [.upsertVector 1 (.numId 0) [("", [1])],
      .setPayload 2 (.numId 0) ⟨[("a", .number (.posInt 1))], by decide⟩,
      .deletePoint 3 (.numId 0)]
    let r : Bool × Segment :=
      (((empty.run env writes).upsertVector 4 (.numId 0) [("", [2])]).toOption.getD (false, empty))
    empty.Coherent ∧ (empty.run env writes).hasPoint (.numId 0) = false ∧
      (empty.run env writes).upsertVector 4 (.numId 0) [("", [2])] = .ok r ∧
      r.2.hasPoint (.numId 0) = true ∧ r.2.payload (.numId 0) = .ok Payload.empty := by
  intro env empty writes r
  have hs : empty.Coherent := ⟨IdTracker.linked_empty, fun j hj => by simp [empty, get?] at hj⟩
  have hnew : (empty.run env writes).hasPoint (.numId 0) = false := by decide +kernel
  have hr : (empty.run env writes).upsertVector 4 (.numId 0) [("", [2])] = .ok r :=
    eq_ok_getD _ (by decide +kernel)
  have hadded : r.2.hasPoint (.numId 0) = true := by decide +kernel
  exact ⟨hs, hnew, hr, hadded, upsert_new_point_payload_empty env hs writes hnew hr hadded⟩

/-- No point's version is above the segment's. -/
def VersionsBelow (s : Segment) : Prop := s.idTracker.VersionsAtMost s.currentVersion

/-- Every step keeps the versions below the segment's: a stamp with `v` raises the segment's
version to `v` as well. -/
theorem versionsBelow_writeStep {s s' : Segment} (hstep : WriteStep s s') (hs : s.VersionsBelow) :
    s'.VersionsBelow := by
  unfold VersionsBelow at hs ⊢
  cases hstep with
  | frame htracker _ hversion =>
    rw [htracker]
    exact hs.mono hversion
  | update _ htracker _ hversion =>
    rw [htracker, hversion]
    exact (hs.mono (le_max_right _ _)).setInternalVersion _ (le_max_left _ _)
  | insert _ htracker _ hversion =>
    rw [htracker, hversion]
    exact ((hs.mono (le_max_right _ _)).setLink _ _).setInternalVersion _ (le_max_left _ _)
  | delete _ htracker _ hversion =>
    rw [htracker, hversion]
    exact ((hs.mono (le_max_right _ _)).drop _).setInternalVersion _ (le_max_left _ _)

/-- **An operation not older than the segment is never skipped**: after every run of writes
from a segment whose tracker is linked and whose point versions are at most its own, an
`upsert_vector` numbered at least the segment's version that succeeds leaves the point in the
segment, with the operation's number as its version. -/
theorem upsert_not_older_applied {s : Segment} (hs : s.idTracker.Linked) (hv : s.VersionsBelow)
    (writes : List SegmentWrite) {opNum : ℕ} {pointId : ExtendedPointId} {vectors : NamedVectors}
    {r : Bool × Segment} (hop : (s.run env writes).currentVersion ≤ opNum)
    (h : (s.run env writes).upsertVector opNum pointId vectors = .ok r) :
    r.2.hasPoint pointId = true ∧ r.2.pointVersion pointId = some opNum := by
  have hsteps := steps_run env s writes
  have hlinked := steps_induction linked_writeStep hsteps hs
  have hbelow := steps_induction versionsBelow_writeStep hsteps hv
  obtain ⟨b, s'⟩ := r
  rcases upsertVector_cases h with ⟨-, hskip⟩ | ⟨i, hi, -, htracker, -⟩ | ⟨hid, -, htracker, -⟩
  · -- no version of the segment is above the operation's, so nothing skips it
    exfalso
    rcases hskip with hlt | ⟨o, w, hw, hlt⟩
    · omega
    · have hw' := hbelow o w hw
      omega
  · -- a known point: its live slot is stamped
    have hlive := (hlinked.inverse pointId i).mp hi
    simp [hasPoint, pointVersion, htracker, hi,
      IdTracker.internalVersion_setInternalVersion_self _ hlive]
  · -- a new point: linked at the first free slot, which is then stamped
    have hlive := IdTracker.externalId_setLink_self (s.run env writes).idTracker pointId
      (s.run env writes).idTracker.internalSize
    simp [hasPoint, pointVersion, htracker,
      IdTracker.internalVersion_setInternalVersion_self _ hlive]

/-- From an empty segment: a point upserted with a payload and deleted, then upserted again at
the next number, is in the segment at that version. -/
theorem upsert_not_older_applied_reinsert :
    let env : Env := ⟨fun _ _ => 0, id, id, id, fun _ => true, fun _ => false, id, fun _ => 0,
      fun _ => "", fun _ _ => [], fun _ _ => []⟩
    let empty : Segment :=
      ⟨none, ⟨⟨[]⟩, IdTracker.empty, [], []⟩, [("", [])], [("", ⟨1, fun _ => none⟩)],
        true⟩
    let writes : List SegmentWrite := [.upsertVector 1 (.numId 0) [("", [1])],
      .setPayload 2 (.numId 0) ⟨[("a", .number (.posInt 1))], by decide⟩,
      .deletePoint 3 (.numId 0)]
    let r : Bool × Segment :=
      (((empty.run env writes).upsertVector 4 (.numId 0) [("", [2])]).toOption.getD (false, empty))
    empty.idTracker.Linked ∧ empty.VersionsBelow ∧ (empty.run env writes).currentVersion ≤ 4 ∧
      (empty.run env writes).upsertVector 4 (.numId 0) [("", [2])] = .ok r ∧
      r.2.hasPoint (.numId 0) = true ∧ r.2.pointVersion (.numId 0) = some 4 := by
  intro env empty writes r
  have hs : empty.idTracker.Linked := IdTracker.linked_empty
  have hv : empty.VersionsBelow := IdTracker.versionsAtMost_empty _
  have hop : (empty.run env writes).currentVersion ≤ 4 := by decide +kernel
  have hr : (empty.run env writes).upsertVector 4 (.numId 0) [("", [2])] = .ok r :=
    eq_ok_getD _ (by decide +kernel)
  exact ⟨hs, hv, hop, hr, upsert_not_older_applied env hs hv writes hop hr⟩

end Segment

end Qdrant
