/-
# The id tracker of a segment

`id_tracker/simple_id_tracker.rs` maps the external ids of a segment's points to internal
offsets and back, marks freed offsets as deleted, and stores each point's version.  Two
`BTreeMap`s (numeric ids, then UUIDs) form the forward map; iterating them yields every
numeric id before every UUID, which is the order `ExtendedPointId` is given here.

`set_link` grows the reverse vectors (a fresh slot is deleted until linked), and `drop`
frees the point's slot.  The RocksDB columns the tracker mirrors itself into are not
modelled.
-/
import Qdrant.Filter
import Qdrant.Lib.OrdMap

namespace Qdrant

open OrdMap

/-- The order of external ids: numeric ids first, each kind by value. -/
def ExtendedPointId.key : ExtendedPointId → ℕ ×ₗ ℕ
  | .numId n => toLex (0, n)
  | .uuid u => toLex (1, u)

theorem ExtendedPointId.key_injective : Function.Injective ExtendedPointId.key := by
  intro a b h
  cases a <;> cases b <;> simp_all [ExtendedPointId.key]

instance : LinearOrder ExtendedPointId :=
  LinearOrder.lift' ExtendedPointId.key ExtendedPointId.key_injective

/-- `u64::MAX`, the external id a freed slot is reset to. -/
def u64Max : ℕ := 2 ^ 64 - 1

/-- `SimpleIdTracker`. -/
structure IdTracker where
  deleted : List Bool
  internalToExternal : List ExtendedPointId
  internalToVersion : List ℕ
  externalToInternal : List (ExtendedPointId × PointOffsetType)
  sorted : Sorted externalToInternal

namespace IdTracker

/-- An empty tracker. -/
def empty : IdTracker := ⟨[], [], [], [], List.Pairwise.nil⟩

/-- `internal_id`. -/
def internalId (t : IdTracker) (external : ExtendedPointId) : Option PointOffsetType :=
  get? external t.externalToInternal

/-- `external_id`: only for a slot that is not deleted. -/
def externalId (t : IdTracker) (internal : PointOffsetType) : Option ExtendedPointId :=
  match t.deleted[internal]? with
  | some false => t.internalToExternal[internal]?
  | _ => none

/-- `internal_version`. -/
def internalVersion (t : IdTracker) (internal : PointOffsetType) : Option ℕ :=
  t.internalToVersion[internal]?

/-- `set_internal_version`: only for a live slot. -/
def setInternalVersion (t : IdTracker) (internal : PointOffsetType) (version : ℕ) : IdTracker :=
  match t.externalId internal with
  | none => t
  | some _ =>
    let versions := if t.internalToVersion.length ≤ internal then
        t.internalToVersion ++ List.replicate (internal + 1 - t.internalToVersion.length) 0
      else t.internalToVersion
    { t with internalToVersion := versions.set internal version }

/-- `set_link`. -/
def setLink (t : IdTracker) (external : ExtendedPointId) (internal : PointOffsetType) :
    IdTracker :=
  let i2e := if t.internalToExternal.length ≤ internal then
      t.internalToExternal ++
        List.replicate (internal + 1 - t.internalToExternal.length) (.numId u64Max)
    else t.internalToExternal
  let del := if t.deleted.length ≤ internal then
      t.deleted ++ List.replicate (internal + 1 - t.deleted.length) true
    else t.deleted
  { t with
    externalToInternal := OrdMap.insert external internal t.externalToInternal
    sorted := sorted_insert t.sorted
    internalToExternal := i2e.set internal external
    deleted := del.set internal false }

/-- `drop`. -/
def drop (t : IdTracker) (external : ExtendedPointId) : IdTracker :=
  let t' := { t with externalToInternal := OrdMap.erase external t.externalToInternal
                     sorted := sorted_erase t.sorted }
  match t.internalId external with
  | none => t'
  | some internal => { t' with deleted := t.deleted.set internal true
                               internalToExternal := t.internalToExternal.set internal (.numId u64Max) }

/-- `iter_ids`: the live slots, ascending. -/
def iterIds (t : IdTracker) : List PointOffsetType :=
  (List.range t.internalToExternal.length).filter fun i => !t.deleted.getD i true

/-- `iter_external`: the external ids, in order. -/
def iterExternal (t : IdTracker) : List ExtendedPointId := t.externalToInternal.map Prod.fst

/-- `points_count`. -/
def pointsCount (t : IdTracker) : ℕ := t.externalToInternal.length

/-- `internal_size`. -/
def internalSize (t : IdTracker) : ℕ := t.internalToExternal.length

/-- `is_deleted`: a slot past the end counts as deleted. -/
def isDeleted (t : IdTracker) (internal : PointOffsetType) : Bool := t.deleted.getD internal true

/-- `iter_from(offset)`: the pairs from `offset` on, in external-id order. -/
def iterFrom (t : IdTracker) (offset : Option ExtendedPointId) :
    List (ExtendedPointId × PointOffsetType) :=
  match offset with
  | none => t.externalToInternal
  | some o => range (.included o) .unbounded t.externalToInternal

/-! ## The tracker's invariant

A linked offset is a slot of the tracker and has a version, and no two external ids share
it.  `drop` keeps this; `set_link` keeps it when the offset is not linked to another id and
the offset's version is set afterwards, as `handle_version` does after an insertion. -/

/-- The id tracker's invariant. -/
structure Wf (t : IdTracker) : Prop where
  lt_internalSize : ∀ {a i}, t.internalId a = some i → i < t.internalSize
  lt_versions : ∀ {a i}, t.internalId a = some i → i < t.internalToVersion.length
  injective : ∀ {a b i}, t.internalId a = some i → t.internalId b = some i → a = b

theorem wf_empty : IdTracker.empty.Wf where
  lt_internalSize h := by simp [IdTracker.empty, internalId, get?] at h
  lt_versions h := by simp [IdTracker.empty, internalId, get?] at h
  injective h := by simp [IdTracker.empty, internalId, get?] at h

/-- Two ids linked by a well-formed tracker to different offsets, seen from the offsets. -/
theorem Wf.ne_of_ne {t : IdTracker} (hw : t.Wf) {a b : ExtendedPointId} {i j : PointOffsetType}
    (ha : t.internalId a = some i) (hb : t.internalId b = some j) (hne : b ≠ a) : j ≠ i := by
  rintro rfl
  exact hne (hw.injective hb ha)

section Drop

variable (t : IdTracker) (p : ExtendedPointId)

@[simp] theorem internalId_drop (q : ExtendedPointId) :
    (t.drop p).internalId q = if q = p then none else t.internalId q := by
  unfold drop
  split <;> simp [internalId, get?_erase]

@[simp] theorem internalSize_drop : (t.drop p).internalSize = t.internalSize := by
  unfold drop
  split <;> simp [internalSize]

@[simp] theorem internalToVersion_drop : (t.drop p).internalToVersion = t.internalToVersion := by
  unfold drop
  split <;> rfl

/-- The freed slot has no external id, so a version stamped on it afterwards is lost. -/
theorem externalId_drop_self {i : PointOffsetType} (hp : t.internalId p = some i) :
    (t.drop p).externalId i = none := by
  simp only [drop, hp, externalId]
  split
  · rename_i h
    rw [List.getElem?_set] at h
    split at h
    · simp at h
    · simp_all
  · rfl

theorem Wf.drop {t : IdTracker} (hw : t.Wf) (p : ExtendedPointId) : (t.drop p).Wf where
  lt_internalSize {a i} h := by
    rw [internalId_drop] at h
    split at h
    · simp at h
    · rw [internalSize_drop]
      exact hw.lt_internalSize h
  lt_versions {a i} h := by
    rw [internalId_drop] at h
    split at h
    · simp at h
    · rw [internalToVersion_drop]
      exact hw.lt_versions h
  injective {a b i} ha hb := by
    rw [internalId_drop] at ha hb
    split at ha
    · simp at ha
    · split at hb
      · simp at hb
      · exact hw.injective ha hb

end Drop

section SetInternalVersion

variable (t : IdTracker) (i : PointOffsetType) (v : ℕ)

/-- `set_internal_version` touches only the versions. -/
theorem setInternalVersion_eq :
    ∃ versions, t.setInternalVersion i v = { t with internalToVersion := versions } ∧
      t.internalToVersion.length ≤ versions.length ∧
      ∀ j, j ≠ i → j < t.internalToVersion.length → versions[j]? = t.internalToVersion[j]? := by
  unfold setInternalVersion
  split
  · exact ⟨t.internalToVersion, rfl, le_rfl, fun _ _ _ => rfl⟩
  · refine ⟨_, rfl, ?_, ?_⟩
    · split <;> simp
    · intro j hj hlt
      rw [List.getElem?_set_ne (Ne.symm hj)]
      split
      · rw [List.getElem?_append_left hlt]
      · rfl

@[simp] theorem internalId_setInternalVersion (q : ExtendedPointId) :
    (t.setInternalVersion i v).internalId q = t.internalId q := by
  obtain ⟨versions, h, -⟩ := setInternalVersion_eq t i v
  rw [h]
  rfl

@[simp] theorem internalSize_setInternalVersion :
    (t.setInternalVersion i v).internalSize = t.internalSize := by
  obtain ⟨versions, h, -⟩ := setInternalVersion_eq t i v
  rw [h]
  rfl

/-- A live slot's version is written, so the versions reach it. -/
theorem lt_versions_setInternalVersion {a : ExtendedPointId} (hlive : t.externalId i = some a) :
    i < (t.setInternalVersion i v).internalToVersion.length := by
  simp only [setInternalVersion, hlive, List.length_set]
  split
  · simp only [List.length_append, List.length_replicate]
    dsimp only [PointOffsetType] at *
    omega
  · dsimp only [PointOffsetType] at *
    omega

@[simp] theorem isDeleted_setInternalVersion (j : PointOffsetType) :
    (t.setInternalVersion i v).isDeleted j = t.isDeleted j := by
  obtain ⟨versions, h, -⟩ := setInternalVersion_eq t i v
  rw [h]
  rfl

/-- The version of a live slot other than `i`, with a version, is kept. -/
theorem internalVersion_setInternalVersion_ne {j : PointOffsetType} (hj : j ≠ i)
    (hlt : j < t.internalToVersion.length) :
    (t.setInternalVersion i v).internalVersion j = t.internalVersion j := by
  obtain ⟨versions, h, -, hkeep⟩ := setInternalVersion_eq t i v
  rw [h]
  exact hkeep j hj hlt

theorem Wf.setInternalVersion {t : IdTracker} (hw : t.Wf) (i : PointOffsetType) (v : ℕ) :
    (t.setInternalVersion i v).Wf := by
  obtain ⟨versions, h, hlen, -⟩ := setInternalVersion_eq t i v
  rw [h]
  exact ⟨hw.lt_internalSize, fun ha => lt_of_lt_of_le (hw.lt_versions ha) hlen, hw.injective⟩

end SetInternalVersion

section SetLink

variable (t : IdTracker) (a : ExtendedPointId) (i : PointOffsetType)

@[simp] theorem internalId_setLink (q : ExtendedPointId) :
    (t.setLink a i).internalId q = if q = a then some i else t.internalId q := by
  simp [setLink, internalId, get?_insert]

theorem internalSize_setLink : (t.setLink a i).internalSize = max t.internalSize (i + 1) := by
  simp only [setLink, internalSize, List.length_set]
  split
  · simp only [List.length_append, List.length_replicate]
    dsimp only [PointOffsetType] at *
    omega
  · dsimp only [PointOffsetType] at *
    omega

@[simp] theorem internalToVersion_setLink : (t.setLink a i).internalToVersion = t.internalToVersion :=
  rfl

/-- A linked slot is live and names the id linked to it. -/
theorem externalId_setLink_self : (t.setLink a i).externalId i = some a := by
  simp only [setLink, externalId]
  have hdel : i < (if t.deleted.length ≤ i then
      t.deleted ++ List.replicate (i + 1 - t.deleted.length) true else t.deleted).length := by
    split
    · simp only [List.length_append, List.length_replicate]
      dsimp only [PointOffsetType] at *
      omega
    · dsimp only [PointOffsetType] at *
      omega
  have hext : i < (if t.internalToExternal.length ≤ i then
      t.internalToExternal ++ List.replicate (i + 1 - t.internalToExternal.length) (.numId u64Max)
      else t.internalToExternal).length := by
    split
    · simp only [List.length_append, List.length_replicate]
      dsimp only [PointOffsetType] at *
      omega
    · dsimp only [PointOffsetType] at *
      omega
  rw [List.getElem?_set_self hdel, List.getElem?_set_self hext]

/-- **Linking a fresh offset, then stamping its version, keeps the invariant.** -/
theorem Wf.setLink_setInternalVersion {t : IdTracker} (hw : t.Wf) {a : ExtendedPointId}
    {i : PointOffsetType} (hfresh : ∀ b, b ≠ a → t.internalId b ≠ some i) (v : ℕ) :
    ((t.setLink a i).setInternalVersion i v).Wf := by
  refine ⟨?_, ?_, ?_⟩
  · intro b j hb
    rw [internalId_setInternalVersion, internalId_setLink] at hb
    rw [internalSize_setInternalVersion, internalSize_setLink]
    split at hb
    · cases hb
      exact lt_of_lt_of_le (Nat.lt_succ_self i) (le_max_right _ _)
    · exact lt_of_lt_of_le (hw.lt_internalSize hb) (le_max_left _ _)
  · intro b j hb
    rw [internalId_setInternalVersion, internalId_setLink] at hb
    split at hb
    · -- the linked slot is live, so its version is written
      cases hb
      exact lt_versions_setInternalVersion _ _ v (externalId_setLink_self t a i)
    · obtain ⟨versions, h, hlen, -⟩ := setInternalVersion_eq (t.setLink a i) i v
      rw [h]
      exact lt_of_lt_of_le (hw.lt_versions hb) hlen
  · intro b c j hb hc
    rw [internalId_setInternalVersion, internalId_setLink] at hb hc
    split at hb <;> split at hc
    · simp_all
    · cases hb
      exact absurd hc (hfresh c ‹_›)
    · cases hc
      exact absurd hb (hfresh b ‹_›)
    · exact hw.injective hb hc

end SetLink

end IdTracker

end Qdrant
