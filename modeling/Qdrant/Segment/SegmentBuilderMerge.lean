/-
# Merging segments in the builder

`SegmentBuilder::update_from` (`segment_constructor/segment_builder.rs`) appends the vectors of
every live slot of the other segment at fresh offsets (`updateVectorsFrom`), then walks the
same slots again, zipped with the offsets they took (`mergePoint`): a point the new segment
lacks is linked there; a point it holds is relinked there only when this copy is strictly
newer, its payload moving with it.

* `MergeInv`: after the slots `done`, each linked id holds its newest copy
  (`newestCopy`: the first of the highest version), its version, vectors and payload; one
  slot keeps this (`MergeInv.mergePoint`), and so does a whole source
  (`MergeInv.foldlM_mergePoint`, `Merged.updateFrom`);
* `SegmentBuilder.updateFrom_merges_by_version`: sources merged into a new builder give
  exactly the sources' live points, each with its newest copy, and the highest version.
* `updateFrom_without_vector_names_drops_points`: a builder without a vector name never gets
  a range of new offsets, and merges no point at all.
-/
import Qdrant.Segment.SegmentBuilder

namespace Qdrant

open OrdMap

/-! ## 1. Support: the id tracker and the payload storage -/

/-- A live slot's version, once written, is read back. -/
theorem IdTracker.internalVersion_setInternalVersion_self (t : IdTracker) {i : PointOffsetType}
    {a : ExtendedPointId} (hlive : t.externalId i = some a) (v : ℕ) :
    (t.setInternalVersion i v).internalVersion i = some v := by
  have hlt := IdTracker.lt_versions_setInternalVersion t i v hlive
  simp only [IdTracker.setInternalVersion, hlive, List.length_set] at hlt ⊢
  exact List.getElem?_set_self hlt

@[simp] theorem IdTracker.internalVersion_setLink (t : IdTracker) (a : ExtendedPointId)
    (i j : PointOffsetType) : (t.setLink a i).internalVersion j = t.internalVersion j := rfl

@[simp] theorem IdTracker.internalVersion_drop (t : IdTracker) (a : ExtendedPointId)
    (j : PointOffsetType) : (t.drop a).internalVersion j = t.internalVersion j := by
  simp [IdTracker.internalVersion]

/-- A linked offset of a well-formed tracker has a version. -/
theorem IdTracker.Wf.exists_internalVersion {t : IdTracker} (hw : t.Wf) {a : ExtendedPointId}
    {i : PointOffsetType} (h : t.internalId a = some i) : ∃ v, t.internalVersion i = some v :=
  ⟨_, List.getElem?_eq_getElem (hw.lt_versions h)⟩

namespace PayloadStorage

variable (s : PayloadStorage) (id : PointOffsetType) (p : Payload)

theorem get?_assign (j : PointOffsetType) :
    (get? j (s.assign id p).payloadMap).isSome ↔ j = id ∨ (get? j s.payloadMap).isSome := by
  unfold assign
  split <;> by_cases hj : j = id <;> simp [get?_insert, hj]

/-- A payload assigned to a point that had none is the point's payload. -/
theorem payload_assign_of_fresh (h : get? id s.payloadMap = none) : (s.assign id p).payload id = p := by
  simp [assign, payload, h, get?_insert]

theorem payload_assign_ne {j : PointOffsetType} (hj : j ≠ id) :
    (s.assign id p).payload j = s.payload j := by
  unfold assign
  split <;> simp [payload, get?_insert, hj]

theorem get?_drop (j : PointOffsetType) :
    get? j (s.drop id).2.payloadMap = if j = id then none else get? j s.payloadMap := by
  simp [drop, get?_erase]

theorem payload_drop_ne {j : PointOffsetType} (hj : j ≠ id) : (s.drop id).2.payload j = s.payload j := by
  simp [payload, get?_drop, hj]

end PayloadStorage

namespace StructPayloadIndex

variable (env : Env) {index : StructPayloadIndex} {id : PointOffsetType}

/-- `assign` stores the payload and keeps the tracker. -/
theorem assign_eq_some {p : Payload} {r : StructPayloadIndex} (h : index.assign env id p = some r) :
    r.idTracker = index.idTracker ∧ r.payload = index.payload.assign id p := by
  obtain ⟨_, -, rfl⟩ := Option.map_eq_some_iff.mp h
  exact ⟨rfl, rfl⟩

/-- `drop` removes the payload and keeps the tracker. -/
theorem drop_eq_some {r : Option Payload × StructPayloadIndex} (h : index.drop env id = some r) :
    r.2.idTracker = index.idTracker ∧ r.2.payload = (index.payload.drop id).2 := by
  obtain ⟨_, -, rfl⟩ := Option.map_eq_some_iff.mp h
  exact ⟨rfl, rfl⟩

end StructPayloadIndex

/-! ## 2. One point of the merge -/

namespace SegmentBuilder

variable (env : Env) {other seg seg' : Segment} {new old : PointOffsetType} {e : ExtendedPointId}
  {v : ℕ}

theorem mergePoint_of_externalId_none (hx : other.idTracker.externalId old = none) :
    mergePoint env other seg (new, old) = .ok seg := by
  simp [mergePoint, hx]

/-- A merged point has a version in its source. -/
theorem version_of_mergePoint_eq_ok (hx : other.idTracker.externalId old = some e)
    (h : mergePoint env other seg (new, old) = .ok seg') :
    ∃ v, other.idTracker.internalVersion old = some v := by
  cases hv : other.idTracker.internalVersion old with
  | none => simp [mergePoint, hx, hv, Segment.ofPanic, bind, Except.bind] at h
  | some v => exact ⟨v, rfl⟩

/-- A point the new segment lacks is linked at its new offset, with its version and its
payload. -/
theorem mergePoint_eq_ok_of_new (hx : other.idTracker.externalId old = some e)
    (hv : other.idTracker.internalVersion old = some v) (hl : seg.idTracker.internalId e = none)
    (h : mergePoint env other seg (new, old) = .ok seg') :
    seg'.vectorData = seg.vectorData ∧ seg'.version = seg.version ∧
      seg'.idTracker = (seg.idTracker.setLink e new).setInternalVersion new v ∧
      seg'.payloadIndex.payload =
        seg.payloadIndex.payload.assign new (other.payloadIndex.payload.payload old) := by
  simp only [mergePoint, hx, hv, hl, Segment.ofPanic, bind, Except.bind] at h
  cases hpi : (seg.withIdTracker ((seg.idTracker.setLink e new).setInternalVersion new v)).payloadIndex.assign env new (other.payloadIndex.payload.payload old) with
  | none => simp [hpi] at h
  | some pi =>
    simp only [hpi, pure, Except.pure, Except.ok.injEq] at h
    subst h
    obtain ⟨htracker, hpayload⟩ := StructPayloadIndex.assign_eq_some env hpi
    exact ⟨rfl, rfl, htracker, hpayload⟩

variable {i : PointOffsetType} {ev : ℕ}

/-- A copy newer than the one linked replaces it: the point is relinked at its new offset,
with its version and its payload, and the old offset's payload goes. -/
theorem mergePoint_eq_ok_of_newer (hx : other.idTracker.externalId old = some e)
    (hv : other.idTracker.internalVersion old = some v) (hl : seg.idTracker.internalId e = some i)
    (hev : seg.idTracker.internalVersion i = some ev) (hlt : ev < v)
    (h : mergePoint env other seg (new, old) = .ok seg') :
    seg'.vectorData = seg.vectorData ∧ seg'.version = seg.version ∧
      seg'.idTracker = ((seg.idTracker.drop e).setLink e new).setInternalVersion new v ∧
      seg'.payloadIndex.payload =
        (seg.payloadIndex.payload.drop i).2.assign new (other.payloadIndex.payload.payload old) := by
  simp only [mergePoint, hx, hv, hl, hev, hlt, Segment.ofPanic, bind, Except.bind, if_true] at h
  cases hdrop : (seg.withIdTracker (((seg.idTracker.drop e).setLink e new).setInternalVersion new
      v)).payloadIndex.drop env i with
  | none => simp [hdrop] at h
  | some dropped =>
    cases hpi : dropped.2.assign env new (other.payloadIndex.payload.payload old) with
    | none => simp [hdrop, hpi] at h
    | some pi =>
      simp only [hdrop, hpi, pure, Except.pure, Except.ok.injEq] at h
      subst h
      obtain ⟨htracker, hpayload⟩ := StructPayloadIndex.assign_eq_some env hpi
      obtain ⟨htracker', hpayload'⟩ := StructPayloadIndex.drop_eq_some env hdrop
      refine ⟨rfl, rfl, htracker.trans htracker', ?_⟩
      rw [hpayload, hpayload']
      rfl

/-- A copy no newer than the one linked changes nothing. -/
theorem mergePoint_eq_ok_of_not_newer (hx : other.idTracker.externalId old = some e)
    (hv : other.idTracker.internalVersion old = some v) (hl : seg.idTracker.internalId e = some i)
    (hev : seg.idTracker.internalVersion i = some ev) (hle : ¬ ev < v)
    (h : mergePoint env other seg (new, old) = .ok seg') : seg' = seg := by
  simp only [mergePoint, hx, hv, hl, hev, hle, Segment.ofPanic, bind, Except.bind, if_false, pure,
    Except.pure, Except.ok.injEq] at h
  exact h.symm

end SegmentBuilder

/-! ## 3. The points of the sources -/

/-- A live point of a source segment, as `update_from` meets it: the source, the point's offset
there, its external id and its version. -/
structure SourcePoint where
  source : Segment
  offset : PointOffsetType
  externalId : ExtendedPointId
  version : ℕ

namespace SourcePoint

/-- The point's vector of one name in its source. -/
def vector (c : SourcePoint) (name : String) : List ℚ :=
  ((c.source.vectorData.lookup name).getD []).getD c.offset []

/-- The point's payload in its source. -/
def payload (c : SourcePoint) : Payload := c.source.payloadIndex.payload.payload c.offset

end SourcePoint

namespace Segment

/-- The point at offset `old` of a source: a live slot, with its version. -/
def sourcePoint (s : Segment) (old : PointOffsetType) : Option SourcePoint :=
  (s.idTracker.externalId old).bind fun e =>
    (s.idTracker.internalVersion old).map fun v => ⟨s, old, e, v⟩

/-- The live points of a source, in `iter_ids` order. -/
def sourcePoints (s : Segment) : List SourcePoint := s.idTracker.iterIds.filterMap s.sourcePoint

/-- Offset `i` of the segment holds the point `c`: its version, its vector of every name and its
payload. -/
def HoldsAt (seg : Segment) (i : PointOffsetType) (c : SourcePoint) : Prop :=
  seg.idTracker.internalVersion i = some c.version ∧
    (∀ n ∈ seg.vectorData, n.2.getD i [] = c.vector n.1) ∧
    seg.payloadIndex.payload.payload i = c.payload

theorem HoldsAt.congr {seg seg' : Segment} {i : PointOffsetType} {c : SourcePoint}
    (h : seg.HoldsAt i c)
    (hver : seg'.idTracker.internalVersion i = seg.idTracker.internalVersion i)
    (hvd : seg'.vectorData = seg.vectorData)
    (hpay : seg'.payloadIndex.payload.payload i = seg.payloadIndex.payload.payload i) :
    seg'.HoldsAt i c :=
  ⟨hver.trans h.1, hvd ▸ h.2.1, hpay.trans h.2.2⟩

/-- The version a slot holds is the version of the copy it holds. -/
theorem HoldsAt.version_eq {seg : Segment} {i : PointOffsetType} {c : SourcePoint} {v : ℕ}
    (h : seg.HoldsAt i c) (hv : seg.idTracker.internalVersion i = some v) : c.version = v := by
  rw [h.1, Option.some.injEq] at hv
  exact hv

end Segment

/-- The copy of `e` that a merge of the points `copies`, in this order, keeps: the first one of
the highest version. -/
def newestCopy (copies : List SourcePoint) (e : ExtendedPointId) : Option SourcePoint :=
  (copies.filter (·.externalId = e)).argmax SourcePoint.version

section NewestCopy

variable {copies : List SourcePoint} {e : ExtendedPointId}

theorem newestCopy_append_of_ne {c : SourcePoint} (he : c.externalId ≠ e) :
    newestCopy (copies ++ [c]) e = newestCopy copies e := by
  simp [newestCopy, List.filter_append, he]

/-- **A later copy wins only when strictly newer.** -/
theorem newestCopy_append_self (copies : List SourcePoint) (c : SourcePoint) :
    newestCopy (copies ++ [c]) c.externalId =
      (newestCopy copies c.externalId).elim (some c) fun w =>
        if w.version < c.version then some c else some w := by
  simp only [newestCopy, List.filter_append, decide_true, List.filter_cons_of_pos,
    List.filter_nil, List.argmax_concat]
  cases (copies.filter (·.externalId = c.externalId)).argmax SourcePoint.version <;> rfl

theorem newestCopy_eq_none_iff : newestCopy copies e = none ↔ ∀ c ∈ copies, c.externalId ≠ e := by
  simp [newestCopy, List.argmax_eq_none, List.filter_eq_nil_iff]

end NewestCopy

/-! ## 4. The merge invariant -/

/-- What merging the points `done` has built in `seg`, with every offset from `fresh` on
unused: the tracker is well formed, links and payloads stay below `fresh`, the linked ids are
those of `done`, and each holds its newest copy. -/
structure MergeInv (fresh : ℕ) (done : List SourcePoint) (seg : Segment) : Prop where
  wf : seg.idTracker.Wf
  linked_lt : ∀ {e i}, seg.idTracker.internalId e = some i → i < fresh
  payload_lt : ∀ {i}, (get? i seg.payloadIndex.payload.payloadMap).isSome → i < fresh
  linked_iff : ∀ e, (seg.idTracker.internalId e).isSome ↔ ∃ c ∈ done, c.externalId = e
  newest : ∀ {e w}, newestCopy done e = some w →
    ∃ i, seg.idTracker.internalId e = some i ∧ seg.HoldsAt i w

namespace MergeInv

variable {fresh : ℕ} {done : List SourcePoint} {seg seg' : Segment}

theorem mono (hinv : MergeInv fresh done seg) {fresh' : ℕ} (hle : fresh ≤ fresh') :
    MergeInv fresh' done seg :=
  ⟨hinv.wf, fun h => lt_of_lt_of_le (hinv.linked_lt h) hle,
    fun h => lt_of_lt_of_le (hinv.payload_lt h) hle, hinv.linked_iff, hinv.newest⟩

theorem not_linked_fresh (hinv : MergeInv fresh done seg) (b : ExtendedPointId) :
    seg.idTracker.internalId b ≠ some fresh := fun h => (hinv.linked_lt h).false

theorem payload_fresh (hinv : MergeInv fresh done seg) :
    get? fresh seg.payloadIndex.payload.payloadMap = none := by
  by_contra h
  exact (hinv.payload_lt (Option.isSome_iff_ne_none.mpr h)).false

/-- An id linked by the segment has a newest copy, held at its offset. -/
theorem holds_of_linked (hinv : MergeInv fresh done seg) {e : ExtendedPointId}
    {i : PointOffsetType} (hi : seg.idTracker.internalId e = some i) :
    ∃ w, newestCopy done e = some w ∧ seg.HoldsAt i w := by
  obtain ⟨c, hc, hce⟩ := (hinv.linked_iff e).mp (by simp [hi])
  cases hw : newestCopy done e with
  | none => exact absurd hce (newestCopy_eq_none_iff.mp hw c hc)
  | some w =>
    obtain ⟨i', hi', hhold⟩ := hinv.newest hw
    rw [hi, Option.some.injEq] at hi'
    exact ⟨w, rfl, hi' ▸ hhold⟩

/-- A copy of an id the segment lacks is linked at the fresh offset. -/
theorem linkNew (hinv : MergeInv fresh done seg) {c : SourcePoint}
    (hl : seg.idTracker.internalId c.externalId = none)
    (hvd : seg'.vectorData = seg.vectorData)
    (ht : seg'.idTracker = (seg.idTracker.setLink c.externalId fresh).setInternalVersion fresh
      c.version)
    (hp : seg'.payloadIndex.payload = seg.payloadIndex.payload.assign fresh c.payload)
    (hvec : ∀ n ∈ seg.vectorData, n.2.getD fresh [] = c.vector n.1) :
    MergeInv (fresh + 1) (done ++ [c]) seg' where
  wf := ht ▸ hinv.wf.setLink_setInternalVersion (fun b _ => hinv.not_linked_fresh b) c.version
  linked_lt {e i} h := by
    rw [ht, IdTracker.internalId_setInternalVersion, IdTracker.internalId_setLink] at h
    split at h
    · cases h
      exact Nat.lt_succ_self _
    · exact Nat.lt_succ_of_lt (hinv.linked_lt h)
  payload_lt {i} h := by
    rw [hp, PayloadStorage.get?_assign] at h
    rcases h with rfl | h
    · exact Nat.lt_succ_self _
    · exact Nat.lt_succ_of_lt (hinv.payload_lt h)
  linked_iff e := by
    rw [ht, IdTracker.internalId_setInternalVersion, IdTracker.internalId_setLink]
    by_cases he : e = c.externalId
    · subst he
      simp
    · rw [if_neg he, hinv.linked_iff e]
      simp [Ne.symm he]
  newest {e w} hw := by
    by_cases he : c.externalId = e
    · -- the new copy is the first of its id
      subst he
      have hnone : newestCopy done c.externalId = none :=
        newestCopy_eq_none_iff.mpr fun c' hc' hce => by
          simpa [hl] using (hinv.linked_iff c.externalId).mpr ⟨c', hc', hce⟩
      rw [newestCopy_append_self, hnone, Option.elim_none, Option.some.injEq] at hw
      subst hw
      refine ⟨fresh, by simp [ht], ?_, hvd ▸ hvec, ?_⟩
      · rw [ht]
        exact IdTracker.internalVersion_setInternalVersion_self _
          (IdTracker.externalId_setLink_self _ _ _) _
      · rw [hp]
        exact PayloadStorage.payload_assign_of_fresh _ _ _ hinv.payload_fresh
    · rw [newestCopy_append_of_ne he] at hw
      obtain ⟨i, hi, hhold⟩ := hinv.newest hw
      have hne : i ≠ fresh := (hinv.linked_lt hi).ne
      refine ⟨i, by simp [ht, Ne.symm he, hi], hhold.congr ?_ hvd ?_⟩
      · rw [ht, IdTracker.internalVersion_setInternalVersion_ne _ _ _ hne
          (by simpa using hinv.wf.lt_versions hi), IdTracker.internalVersion_setLink]
      · rw [hp]
        exact PayloadStorage.payload_assign_ne _ _ _ hne

/-- A copy newer than the one linked replaces it at the fresh offset. -/
theorem replace (hinv : MergeInv fresh done seg) {c : SourcePoint} {i : PointOffsetType} {ev : ℕ}
    (hl : seg.idTracker.internalId c.externalId = some i)
    (hev : seg.idTracker.internalVersion i = some ev) (hlt : ev < c.version)
    (hvd : seg'.vectorData = seg.vectorData)
    (ht : seg'.idTracker = ((seg.idTracker.drop c.externalId).setLink c.externalId
      fresh).setInternalVersion fresh c.version)
    (hp : seg'.payloadIndex.payload = (seg.payloadIndex.payload.drop i).2.assign fresh c.payload)
    (hvec : ∀ n ∈ seg.vectorData, n.2.getD fresh [] = c.vector n.1) :
    MergeInv (fresh + 1) (done ++ [c]) seg' where
  wf := ht ▸ (hinv.wf.drop c.externalId).setLink_setInternalVersion (fun b hb => by
      rw [IdTracker.internalId_drop, if_neg hb]
      exact hinv.not_linked_fresh b) c.version
  linked_lt {e j} h := by
    rw [ht, IdTracker.internalId_setInternalVersion, IdTracker.internalId_setLink,
      IdTracker.internalId_drop] at h
    split at h
    · cases h
      exact Nat.lt_succ_self _
    · exact Nat.lt_succ_of_lt (hinv.linked_lt h)
  payload_lt {j} h := by
    rw [hp, PayloadStorage.get?_assign, PayloadStorage.get?_drop] at h
    rcases h with rfl | h
    · exact Nat.lt_succ_self _
    · split at h
      · simp at h
      · exact Nat.lt_succ_of_lt (hinv.payload_lt h)
  linked_iff e := by
    rw [ht, IdTracker.internalId_setInternalVersion, IdTracker.internalId_setLink,
      IdTracker.internalId_drop]
    by_cases he : e = c.externalId
    · subst he
      simp
    · rw [if_neg he, if_neg he, hinv.linked_iff e]
      simp [Ne.symm he]
  newest {e w'} hw' := by
    obtain ⟨w, hw, hhold⟩ := hinv.holds_of_linked hl
    by_cases he : c.externalId = e
    · -- the new copy is strictly newer than the one kept so far
      subst he
      rw [newestCopy_append_self, hw, Option.elim_some, if_pos (hhold.version_eq hev ▸ hlt),
        Option.some.injEq] at hw'
      subst hw'
      refine ⟨fresh, by simp [ht], ?_, hvd ▸ hvec, ?_⟩
      · rw [ht]
        exact IdTracker.internalVersion_setInternalVersion_self _
          (IdTracker.externalId_setLink_self _ _ _) _
      · rw [hp]
        apply PayloadStorage.payload_assign_of_fresh
        rw [PayloadStorage.get?_drop]
        split
        · rfl
        · exact hinv.payload_fresh
    · rw [newestCopy_append_of_ne he] at hw'
      obtain ⟨j, hj, hhold'⟩ := hinv.newest hw'
      have hne : j ≠ fresh := (hinv.linked_lt hj).ne
      have hji : j ≠ i := hinv.wf.ne_of_ne hl hj (Ne.symm he)
      refine ⟨j, by simp [ht, Ne.symm he, hj], hhold'.congr ?_ hvd ?_⟩
      · rw [ht, IdTracker.internalVersion_setInternalVersion_ne _ _ _ hne
          (by simpa using hinv.wf.lt_versions hj), IdTracker.internalVersion_setLink,
          IdTracker.internalVersion_drop]
      · rw [hp, PayloadStorage.payload_assign_ne _ _ _ hne, PayloadStorage.payload_drop_ne _ _ hji]

/-- A copy no newer than the one linked leaves the segment as it is. -/
theorem keep (hinv : MergeInv fresh done seg) {c : SourcePoint} {i : PointOffsetType} {ev : ℕ}
    (hl : seg.idTracker.internalId c.externalId = some i)
    (hev : seg.idTracker.internalVersion i = some ev) (hle : ¬ ev < c.version) :
    MergeInv (fresh + 1) (done ++ [c]) seg where
  wf := hinv.wf
  linked_lt h := Nat.lt_succ_of_lt (hinv.linked_lt h)
  payload_lt h := Nat.lt_succ_of_lt (hinv.payload_lt h)
  linked_iff e := by
    rw [hinv.linked_iff e]
    constructor
    · rintro ⟨c', hc', hce⟩
      exact ⟨c', List.mem_append_left _ hc', hce⟩
    · rintro ⟨c', hc', hce⟩
      rcases List.mem_append.mp hc' with hc' | hc'
      · exact ⟨c', hc', hce⟩
      · -- the id was linked already
        rw [List.mem_singleton] at hc'
        subst hc'
        exact (hinv.linked_iff e).mp (by simp [← hce, hl])
  newest {e w'} hw' := by
    by_cases he : c.externalId = e
    · subst he
      obtain ⟨w, hw, hhold⟩ := hinv.holds_of_linked hl
      rw [newestCopy_append_self, hw, Option.elim_some, if_neg (hhold.version_eq hev ▸ hle),
        Option.some.injEq] at hw'
      subst hw'
      exact ⟨i, hl, hhold⟩
    · rw [newestCopy_append_of_ne he] at hw'
      exact hinv.newest hw'

variable (env : Env)

/-- **One point of the merge keeps the invariant**; a live slot of the source has a version. -/
theorem mergePoint (hinv : MergeInv fresh done seg) {other : Segment} {old : PointOffsetType}
    (hvec : ∀ n ∈ seg.vectorData,
      n.2.getD fresh [] = ((other.vectorData.lookup n.1).getD []).getD old [])
    (h : SegmentBuilder.mergePoint env other seg (fresh, old) = .ok seg') :
    MergeInv (fresh + 1) (done ++ (other.sourcePoint old).toList) seg' ∧
      seg'.vectorData = seg.vectorData ∧ seg'.version = seg.version ∧
      ((other.idTracker.externalId old).isSome → (other.sourcePoint old).isSome) := by
  cases hx : other.idTracker.externalId old with
  | none =>
    -- a slot without an external id is skipped
    rw [SegmentBuilder.mergePoint_of_externalId_none env hx, Except.ok.injEq] at h
    subst h
    have hsp : other.sourcePoint old = none := by simp [Segment.sourcePoint, hx]
    exact ⟨by simpa [hsp] using hinv.mono (Nat.le_succ fresh), rfl, rfl, by simp⟩
  | some e =>
    obtain ⟨v, hv⟩ := SegmentBuilder.version_of_mergePoint_eq_ok env hx h
    have hsp : other.sourcePoint old = some ⟨other, old, e, v⟩ := by
      simp [Segment.sourcePoint, hx, hv]
    rw [hsp, Option.toList_some]
    cases hl : seg.idTracker.internalId e with
    | none =>
      obtain ⟨hvd, hver, ht, hp⟩ := SegmentBuilder.mergePoint_eq_ok_of_new env hx hv hl h
      exact ⟨hinv.linkNew (c := ⟨other, old, e, v⟩) hl hvd ht hp hvec, hvd, hver, by simp⟩
    | some i =>
      obtain ⟨ev, hev⟩ := hinv.wf.exists_internalVersion hl
      by_cases hlt : ev < v
      · obtain ⟨hvd, hver, ht, hp⟩ :=
          SegmentBuilder.mergePoint_eq_ok_of_newer env hx hv hl hev hlt h
        exact ⟨hinv.replace (c := ⟨other, old, e, v⟩) hl hev hlt hvd ht hp hvec, hvd, hver,
          by simp⟩
      · obtain rfl := SegmentBuilder.mergePoint_eq_ok_of_not_newer env hx hv hl hev hlt h
        exact ⟨hinv.keep (c := ⟨other, old, e, v⟩) hl hev hlt, rfl, rfl, by simp⟩

/-- **The merge of a source's slots keeps the invariant**: slot `t` of `ids` goes to offset
`fresh + t`, where the vectors of the slot already are. -/
theorem foldlM_mergePoint (other : Segment) :
    ∀ (ids : List PointOffsetType) {fresh : ℕ} {done : List SourcePoint} {seg seg' : Segment},
      MergeInv fresh done seg →
      (∀ n ∈ seg.vectorData, ∃ pre, pre.length = fresh ∧
        n.2 = pre ++ ids.map (((other.vectorData.lookup n.1).getD []).getD · [])) →
      ((List.range' fresh ids.length).zip ids).foldlM (SegmentBuilder.mergePoint env other) seg =
        .ok seg' →
      MergeInv (fresh + ids.length) (done ++ ids.filterMap other.sourcePoint) seg' ∧
        seg'.vectorData = seg.vectorData ∧ seg'.version = seg.version ∧
        ∀ old ∈ ids, (other.idTracker.externalId old).isSome → (other.sourcePoint old).isSome
  | [], fresh, done, seg, seg', hinv, _, h => by
    simp only [List.length_nil, List.range'_zero, List.zip_nil_left, List.foldlM_nil, pure,
      Except.pure, Except.ok.injEq] at h
    subst h
    simpa using hinv
  | old :: ids, fresh, done, seg, seg', hinv, hvec, h => by
    rw [List.length_cons, List.range'_succ, List.zip_cons_cons, List.foldlM_cons] at h
    cases hstep : SegmentBuilder.mergePoint env other seg (fresh, old) with
    | error err => simp [hstep, bind, Except.bind] at h
    | ok seg₁ =>
      simp only [hstep, bind, Except.bind] at h
      have hvec₁ : ∀ n ∈ seg.vectorData,
          n.2.getD fresh [] = ((other.vectorData.lookup n.1).getD []).getD old [] := by
        intro n hn
        obtain ⟨pre, hlen, hpre⟩ := hvec n hn
        simp [hpre, hlen, List.getD_eq_getElem?_getD]
      obtain ⟨hinv₁, hvd₁, hver₁, hlive₁⟩ := hinv.mergePoint env hvec₁ hstep
      have hvec₂ : ∀ n ∈ seg₁.vectorData, ∃ pre, pre.length = fresh + 1 ∧
          n.2 = pre ++ ids.map (((other.vectorData.lookup n.1).getD []).getD · []) := by
        intro n hn
        obtain ⟨pre, hlen, hpre⟩ := hvec n (hvd₁ ▸ hn)
        exact ⟨pre ++ [((other.vectorData.lookup n.1).getD []).getD old []], by simp [hlen],
          by simp [hpre]⟩
      obtain ⟨hinv₂, hvd₂, hver₂, hlive₂⟩ := foldlM_mergePoint other ids hinv₁ hvec₂ h
      refine ⟨?_, hvd₂.trans hvd₁, hver₂.trans hver₁, ?_⟩
      · rw [Nat.add_right_comm] at hinv₂
        rw [List.length_cons, ← Nat.add_assoc]
        cases hsp : other.sourcePoint old <;> simpa [hsp] using hinv₂
      · intro old' hold'
        rcases List.mem_cons.mp hold' with rfl | hold'
        · exact hlive₁
        · exact hlive₂ old' hold'

end MergeInv
/-! ## 5. `update_from`, source after source -/

namespace SegmentBuilder

/-- One vector name of `updateVectorsFrom`. -/
def updateVectorStep (stopped : Bool) (other : Segment)
    (acc : List (String × List (List ℚ)) × Option (ℕ × ℕ)) (e : String × List (List ℚ)) :
    OperationResult (List (String × List (List ℚ)) × Option (ℕ × ℕ)) := do
  Segment.checkProcessStopped stopped
  (other.vectorData.lookup e.1).elim
    (.error (.serviceError
      ("Cannot update from other segment because if missing vector name " ++ e.1)))
    fun otherVectors =>
      let updated := e.2 ++ other.idTracker.iterIds.map (otherVectors.getD · [])
      let internalRange := (e.2.length, updated.length)
      acc.2.elim (.ok (acc.1 ++ [(e.1, updated)], some internalRange)) fun range =>
        if range ≠ internalRange then
          .error (.serviceError
            "Internal ids range mismatch between self segment vectors and other segment vectors")
        else .ok (acc.1 ++ [(e.1, updated)], acc.2)

variable {stopped : Bool} {self other : Segment}

/-- A successful `updateVectorsFrom` is its loop of `updateVectorStep`s. -/
theorem foldlM_updateVectorStep_of_eq_ok {r : List (String × List (List ℚ)) × Option (ℕ × ℕ)}
    (h : updateVectorsFrom stopped self other = .ok r) :
    self.vectorData.foldlM (updateVectorStep stopped other) ([], none) = .ok r := by
  unfold updateVectorsFrom at h
  split at h
  · cases h
  rw [← h]
  refine congrArg (fun f => List.foldlM f ([], none) self.vectorData)
    (funext fun acc => funext fun e => ?_)
  unfold updateVectorStep
  refine congrArg (Segment.checkProcessStopped stopped >>= ·) (funext fun _ => ?_)
  rcases other.vectorData.lookup e.1 with _ | otherVectors
  · rfl
  · rcases acc.2 with _ | range <;> rfl

/-- One name: the other's vectors of its live slots appended, at the offsets that follow. -/
theorem updateVectorStep_eq_ok {acc acc' : List (String × List (List ℚ)) × Option (ℕ × ℕ)}
    {e : String × List (List ℚ)} (h : updateVectorStep stopped other acc e = .ok acc') :
    acc'.1 = acc.1 ++
        [(e.1, e.2 ++ other.idTracker.iterIds.map (((other.vectorData.lookup e.1).getD []).getD · []))] ∧
      acc'.2 = some (e.2.length, e.2.length + other.idTracker.iterIds.length) ∧
      (acc.2 = none ∨ acc.2 = acc'.2) := by
  cases stopped
  · simp only [updateVectorStep, Segment.checkProcessStopped, Bool.false_eq_true, if_false, bind,
      Except.bind] at h
    cases hl : other.vectorData.lookup e.1 with
    | none => simp [hl] at h
    | some otherVectors =>
      cases hr : acc.2 with
      | none =>
        simp only [hl, hr, Option.elim_some, Option.elim_none, Except.ok.injEq] at h
        subst h
        simp
      | some range =>
        simp only [hl, hr, Option.elim_some] at h
        split_ifs at h with hne
        simp only [Except.ok.injEq] at h
        subst h
        simp only [ne_eq, not_not] at hne
        simp [hne]
  · simp [updateVectorStep, Segment.checkProcessStopped, bind, Except.bind] at h

/-- **The vector loop**: every name, all of the same length `L`, gets the other's vectors
appended, and the offsets they took are `L` to `L + n`. -/
theorem foldlM_updateVectorStep (L : ℕ) :
    ∀ (l : List (String × List (List ℚ))) {acc r : List (String × List (List ℚ)) × Option (ℕ × ℕ)},
      (∀ n ∈ l, n.2.length = L) →
      (acc.2 = none ∨ acc.2 = some (L, L + other.idTracker.iterIds.length)) →
      l.foldlM (updateVectorStep stopped other) acc = .ok r →
      r.1 = acc.1 ++ l.map (fun n => (n.1,
        n.2 ++ other.idTracker.iterIds.map (((other.vectorData.lookup n.1).getD []).getD · []))) ∧
      r.2 = if l = [] then acc.2 else some (L, L + other.idTracker.iterIds.length)
  | [], acc, r, _, _, h => by
    simp only [List.foldlM_nil, pure, Except.pure, Except.ok.injEq] at h
    subst h
    simp
  | n :: l, acc, r, hlen, hacc, h => by
    rw [List.foldlM_cons] at h
    cases hstep : updateVectorStep stopped other acc n with
    | error err => simp [hstep, bind, Except.bind] at h
    | ok acc₁ =>
      simp only [hstep, bind, Except.bind] at h
      obtain ⟨h₁, h₂, -⟩ := updateVectorStep_eq_ok hstep
      rw [hlen n List.mem_cons_self] at h₂
      obtain ⟨hr₁, hr₂⟩ := foldlM_updateVectorStep L l
        (fun n' hn' => hlen n' (List.mem_cons_of_mem _ hn')) (.inr h₂) h
      refine ⟨by rw [hr₁, h₁, List.map_cons, List.append_assoc, List.singleton_append], ?_⟩
      rw [hr₂, h₂]
      split <;> simp

/-- **`updateVectorsFrom` appends to every name** the other's vectors of its live slots, at
offsets `L` to `L + n` when every name holds `L` vectors. -/
theorem updateVectorsFrom_eq_ok {L : ℕ} {r : List (String × List (List ℚ)) × Option (ℕ × ℕ)}
    (h : updateVectorsFrom stopped self other = .ok r) (hne : self.vectorData ≠ [])
    (hlen : ∀ n ∈ self.vectorData, n.2.length = L) :
    r.1 = self.vectorData.map (fun n => (n.1,
        n.2 ++ other.idTracker.iterIds.map (((other.vectorData.lookup n.1).getD []).getD · []))) ∧
      r.2 = some (L, L + other.idTracker.iterIds.length) := by
  obtain ⟨h₁, h₂⟩ := foldlM_updateVectorStep L self.vectorData hlen (.inl rfl)
    (foldlM_updateVectorStep_of_eq_ok h)
  exact ⟨by simpa using h₁, by simpa [hne] using h₂⟩

end SegmentBuilder

/-- The builder's invariant between two sources: every name holds as many vectors as the first
unused offset, and the merge invariant holds up to it. -/
def Merged (done : List SourcePoint) (seg : Segment) : Prop :=
  ∃ L, (∀ n ∈ seg.vectorData, n.2.length = L) ∧ MergeInv L done seg

/-- Vectors appended after the first `L` offsets leave what those offsets hold. -/
theorem MergeInv.appendVectors {L : ℕ} {done : List SourcePoint} {seg seg' : Segment}
    (hinv : MergeInv L done seg) (hlen : ∀ n ∈ seg.vectorData, n.2.length = L)
    (hpi : seg'.payloadIndex = seg.payloadIndex) (g : String → List (List ℚ))
    (hvd : seg'.vectorData = seg.vectorData.map fun n => (n.1, n.2 ++ g n.1)) :
    MergeInv L done seg' := by
  have ht : seg'.idTracker = seg.idTracker := congrArg StructPayloadIndex.idTracker hpi
  refine ⟨ht ▸ hinv.wf, fun h => hinv.linked_lt (ht ▸ h), fun h => hinv.payload_lt (hpi ▸ h),
    fun e => ht ▸ hinv.linked_iff e, fun hw => ?_⟩
  obtain ⟨i, hi, hhold⟩ := hinv.newest hw
  have hlt : i < L := hinv.linked_lt hi
  refine ⟨i, ht ▸ hi, by rw [ht]; exact hhold.1, fun n' hn' => ?_, by rw [hpi]; exact hhold.2.2⟩
  rw [hvd] at hn'
  obtain ⟨n, hn, rfl⟩ := List.mem_map.mp hn'
  have hi' : i < n.2.length := hlen n hn ▸ hlt
  rw [List.getD_eq_getElem?_getD, List.getElem?_append_left hi', ← List.getD_eq_getElem?_getD]
  exact hhold.2.1 n hn

section Builder

variable (env : Env) {stopped : Bool} {done : List SourcePoint} {b b' : SegmentBuilder}
  {other : Segment}

/-- **One source merged into the builder keeps its invariant**; the names stay, the version
is raised to the source's, and every live slot of the source has a version. -/
theorem Merged.updateFrom (hne : b.segment.vectorData ≠ []) (hm : Merged done b.segment)
    (h : SegmentBuilder.updateFrom env stopped b other = .ok b') :
    Merged (done ++ other.sourcePoints) b'.segment ∧
      b'.segment.vectorData.map Prod.fst = b.segment.vectorData.map Prod.fst ∧
      b'.segment.currentVersion = max b.segment.currentVersion other.currentVersion ∧
      ∀ old ∈ other.idTracker.iterIds, (other.idTracker.externalId old).isSome →
        (other.sourcePoint old).isSome := by
  obtain ⟨L, hlen, hinv⟩ := hm
  simp only [SegmentBuilder.updateFrom, bind, Except.bind] at h
  split at h
  · cases h
  rename_i r hvf
  obtain ⟨hr₁, hr₂⟩ := SegmentBuilder.updateVectorsFrom_eq_ok hvf hne hlen
  rw [hr₂] at h
  simp only [Nat.add_sub_cancel_left] at h
  split at h
  · cases h
  rename_i seg'' hfold
  simp only [pure, Except.pure, Except.ok.injEq] at h
  subst h
  -- the vectors appended, then the slots merged at the offsets they took
  have hinv' : MergeInv L done { b.segment with
      version := some (max b.segment.currentVersion other.currentVersion), vectorData := r.1 } :=
    hinv.appendVectors hlen rfl
      (fun name => other.idTracker.iterIds.map (((other.vectorData.lookup name).getD []).getD · []))
      hr₁
  have hvec : ∀ n ∈ r.1, ∃ pre, pre.length = L ∧
      n.2 = pre ++ other.idTracker.iterIds.map (((other.vectorData.lookup n.1).getD []).getD · []) := by
    intro n hn
    rw [hr₁] at hn
    obtain ⟨m, hm, rfl⟩ := List.mem_map.mp hn
    exact ⟨m.2, hlen m hm, rfl⟩
  obtain ⟨hinv'', hvd, hver, hlive⟩ :=
    MergeInv.foldlM_mergePoint env other other.idTracker.iterIds hinv' hvec hfold
  refine ⟨⟨L + other.idTracker.iterIds.length, fun n hn => ?_, hinv''⟩, ?_, ?_, hlive⟩
  · rw [hvd, hr₁] at hn
    obtain ⟨m, hm, rfl⟩ := List.mem_map.mp hn
    simp [hlen m hm]
  · rw [hvd, hr₁, List.map_map]
    rfl
  · simp [Segment.currentVersion, hver]

/-- **Sources merged one after the other keep the builder's invariant**; the version is the
highest of the builder's and the sources', and every live slot of a source has a version. -/
theorem Merged.foldlM_updateFrom :
    ∀ (sources : List Segment) {done : List SourcePoint} {b b' : SegmentBuilder},
      b.segment.vectorData ≠ [] → Merged done b.segment →
      sources.foldlM (SegmentBuilder.updateFrom env stopped) b = .ok b' →
      Merged (done ++ sources.flatMap Segment.sourcePoints) b'.segment ∧
        b'.segment.currentVersion =
          (sources.map Segment.currentVersion).foldl max b.segment.currentVersion ∧
        ∀ s ∈ sources, ∀ old ∈ s.idTracker.iterIds, (s.idTracker.externalId old).isSome →
          (s.sourcePoint old).isSome
  | [], done, b, b', _, hm, h => by
    simp only [List.foldlM_nil, pure, Except.pure, Except.ok.injEq] at h
    subst h
    simpa using hm
  | s :: sources, done, b, b', hne, hm, h => by
    rw [List.foldlM_cons] at h
    cases hstep : SegmentBuilder.updateFrom env stopped b s with
    | error err => simp [hstep, bind, Except.bind] at h
    | ok b₁ =>
      simp only [hstep, bind, Except.bind] at h
      obtain ⟨hm₁, hnames₁, hver₁, hlive₁⟩ := hm.updateFrom env hne hstep
      have hne₁ : b₁.segment.vectorData ≠ [] := by
        intro hnil
        rw [hnil, List.map_nil, eq_comm, List.map_eq_nil_iff] at hnames₁
        exact hne hnames₁
      obtain ⟨hm₂, hver₂, hlive₂⟩ := foldlM_updateFrom sources hne₁ hm₁ h
      refine ⟨by simpa using hm₂, by rw [hver₂, hver₁]; rfl, ?_⟩
      intro s' hs' old hold hx
      rcases List.mem_cons.mp hs' with rfl | hs'
      · exact hlive₁ old hold hx
      · exact hlive₂ s' hs' old hold hx

end Builder

/-! ## 6. Merging into a new builder -/

/-- A segment as a new builder holds it: no version, no point, no payload, and no vector under
any of its names. -/
structure Segment.Empty (s : Segment) : Prop where
  version : s.version = none
  idTracker : s.idTracker = IdTracker.empty
  payload : s.payloadIndex.payload.payloadMap = []
  vectors : ∀ n ∈ s.vectorData, n.2 = []

theorem Segment.Empty.merged {s : Segment} (h : s.Empty) : Merged [] s := by
  have hnone : ∀ e, s.idTracker.internalId e = none := by
    simp [h.idTracker, IdTracker.empty, IdTracker.internalId, get?]
  refine ⟨0, fun n hn => by simp [h.vectors n hn], h.idTracker ▸ IdTracker.wf_empty,
    fun hi => by simp [hnone] at hi, fun hi => by simp [h.payload, get?] at hi,
    fun e => by simp [hnone], fun hw => by simp [newestCopy] at hw⟩

theorem Segment.externalId_of_sourcePoint {s : Segment} {old : PointOffsetType} {c : SourcePoint}
    (h : s.sourcePoint old = some c) : s.idTracker.externalId old = some c.externalId := by
  obtain ⟨e, he, hc⟩ := Option.bind_eq_some_iff.mp h
  obtain ⟨v, -, rfl⟩ := Option.map_eq_some_iff.mp hc
  exact he

variable (env : Env)

/-- **The builder merges by version.**  Sources merged one after the other into a new builder
with at least one vector name give a segment whose points are exactly the sources' live
points; each point holds its first copy of the highest version (`newestCopy`): that version,
its vector of every name and its payload; and the segment's version is the highest of the
sources'. -/
theorem SegmentBuilder.updateFrom_merges_by_version (stopped : Bool) {b₀ b : SegmentBuilder}
    (hempty : b₀.segment.Empty) (hnames : b₀.segment.vectorData ≠ []) (sources : List Segment)
    (h : sources.foldlM (SegmentBuilder.updateFrom env stopped) b₀ = .ok b) :
    (∀ e, e ∈ b.segment.idTracker.iterExternal ↔
      ∃ s ∈ sources, ∃ old ∈ s.idTracker.iterIds, s.idTracker.externalId old = some e) ∧
    (∀ e ∈ b.segment.idTracker.iterExternal, ∃ w,
      newestCopy (sources.flatMap Segment.sourcePoints) e = some w ∧
      ∃ i, b.segment.idTracker.internalId e = some i ∧ b.segment.HoldsAt i w) ∧
    b.segment.currentVersion = (sources.map Segment.currentVersion).foldl max 0 := by
  obtain ⟨⟨L, -, hinv⟩, hver, hlive⟩ := Merged.foldlM_updateFrom env sources hnames hempty.merged h
  rw [List.nil_append] at hinv
  have hlinked : ∀ e, e ∈ b.segment.idTracker.iterExternal ↔
      (b.segment.idTracker.internalId e).isSome := fun e => OrdMap.mem_keys_iff_isSome
  refine ⟨fun e => ?_, fun e he => ?_, ?_⟩
  · rw [hlinked, hinv.linked_iff]
    constructor
    · rintro ⟨c, hc, rfl⟩
      obtain ⟨s, hs, hcs⟩ := List.mem_flatMap.mp hc
      obtain ⟨old, hold, hsp⟩ := List.mem_filterMap.mp hcs
      exact ⟨s, hs, old, hold, Segment.externalId_of_sourcePoint hsp⟩
    · rintro ⟨s, hs, old, hold, hx⟩
      obtain ⟨c, hsp⟩ := Option.isSome_iff_exists.mp (hlive s hs old hold (by simp [hx]))
      refine ⟨c, List.mem_flatMap.mpr ⟨s, hs, List.mem_filterMap.mpr ⟨old, hold, hsp⟩⟩, ?_⟩
      rw [Segment.externalId_of_sourcePoint hsp, Option.some.injEq] at hx
      exact hx
  · obtain ⟨i, hi⟩ := Option.isSome_iff_exists.mp ((hlinked e).mp he)
    obtain ⟨w, hw, hhold⟩ := hinv.holds_of_linked hi
    exact ⟨w, hw, i, hi, hhold⟩
  · rw [hver, Segment.currentVersion, hempty.version]
    rfl

theorem updateFrom_merges_by_version_of_two_sources :
    let env : Env := ⟨fun _ _ => 0, id, id, id, fun _ => true, fun _ => false, id, fun _ => 0,
      fun _ => "", fun _ _ => [], fun _ _ => []⟩
    let source (version : ℕ) : Segment := ⟨some version,
      ⟨⟨[]⟩, (IdTracker.empty.setLink (.numId 1) 0).setInternalVersion 0 version, [], []⟩,
      [("v", [[(version : ℚ)]])], [], false⟩
    let b₀ : SegmentBuilder := ⟨⟨none, ⟨⟨[]⟩, IdTracker.empty, [], []⟩, [("v", [])], [], true⟩, []⟩
    ∃ b, [source 1, source 2].foldlM (SegmentBuilder.updateFrom env false) b₀ = .ok b ∧
      b₀.segment.Empty ∧ b₀.segment.vectorData ≠ [] ∧
      (∀ e, e ∈ b.segment.idTracker.iterExternal ↔
        ∃ s ∈ [source 1, source 2], ∃ old ∈ s.idTracker.iterIds, s.idTracker.externalId old = some e) ∧
      (∀ e ∈ b.segment.idTracker.iterExternal, ∃ w,
        newestCopy ([source 1, source 2].flatMap Segment.sourcePoints) e = some w ∧
        ∃ i, b.segment.idTracker.internalId e = some i ∧ b.segment.HoldsAt i w) ∧
      b.segment.currentVersion = ([source 1, source 2].map Segment.currentVersion).foldl max 0 := by
  intro env source b₀
  have hempty : b₀.segment.Empty := ⟨rfl, rfl, rfl, by simp [b₀]⟩
  have hnames : b₀.segment.vectorData ≠ [] := by simp [b₀]
  obtain ⟨b, hb⟩ : ∃ b, [source 1, source 2].foldlM (SegmentBuilder.updateFrom env false) b₀ =
      .ok b := ⟨_, rfl⟩
  exact ⟨b, hb, hempty, hnames,
    SegmentBuilder.updateFrom_merges_by_version env false hempty hnames _ hb⟩

/-- The newer copy wins: point 1 ends up at the offset of source 2, with its version and
vector. -/
example :
    let env : Env := ⟨fun _ _ => 0, id, id, id, fun _ => true, fun _ => false, id, fun _ => 0,
      fun _ => "", fun _ _ => [], fun _ _ => []⟩
    let source (version : ℕ) : Segment := ⟨some version,
      ⟨⟨[]⟩, (IdTracker.empty.setLink (.numId 1) 0).setInternalVersion 0 version, [], []⟩,
      [("v", [[(version : ℚ)]])], [], false⟩
    let b₀ : SegmentBuilder := ⟨⟨none, ⟨⟨[]⟩, IdTracker.empty, [], []⟩, [("v", [])], [], true⟩, []⟩
    ([source 1, source 2].foldlM (SegmentBuilder.updateFrom env false) b₀).map (fun b =>
      (b.segment.idTracker.internalId (.numId 1), b.segment.idTracker.internalVersion 1,
        b.segment.vectorData, b.segment.currentVersion)) =
      .ok (some 1, some 2, [("v", [[1], [2]])], 2) := by
  rfl

/-- **Without a vector name nothing is merged**: `update_from` finds no range of new offsets,
so a new builder with no vector name takes no point of a source that holds one. -/
theorem updateFrom_without_vector_names_drops_points :
    let env : Env := ⟨fun _ _ => 0, id, id, id, fun _ => true, fun _ => false, id, fun _ => 0,
      fun _ => "", fun _ _ => [], fun _ _ => []⟩
    let source : Segment := ⟨some 1,
      ⟨⟨[]⟩, (IdTracker.empty.setLink (.numId 1) 0).setInternalVersion 0 1, [], []⟩, [], [], false⟩
    let b₀ : SegmentBuilder := ⟨⟨none, ⟨⟨[]⟩, IdTracker.empty, [], []⟩, [], [], true⟩, []⟩
    b₀.segment.Empty ∧ 0 ∈ source.idTracker.iterIds ∧
      source.idTracker.externalId 0 = some (.numId 1) ∧
      ([source].foldlM (SegmentBuilder.updateFrom env false) b₀).map
        (·.segment.idTracker.iterExternal) = .ok [] := by
  intro env source b₀
  exact ⟨⟨rfl, rfl, rfl, by simp [b₀]⟩, by decide, rfl, rfl⟩

end Qdrant
