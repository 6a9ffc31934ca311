/-
# Deduplication of the segment holder

`SegmentHolder::deduplicate_points` (`collection_manager/holders/segment_holder.rs`), modelled
with the recovery it is part of (`SegmentHolder.deduplicatePoints`).  An interrupted
optimization can leave a point in two segments.  The scan visits the segments and their points
and keeps, for every id, the segment and version of its newest copy so far (`seen_points`);
every other versioned copy is scheduled for removal (`points_to_remove`): a copy older than the
one seen, or the one seen when a copy at least as new turns up.  Points without a version are
skipped.  Each scheduled copy is then deleted at its own version and counted.

`deduplicatePoints_eq` cuts the model into its steps (`scanPoint`, `scanSegment`,
`removeCopy`); the holder's segments are plain (`LockedSegment.original`), each in its own cell.

* `ScanInv`: per id, the copies the scan scheduled and the one it keeps are exactly the
  versioned copies, and the one it keeps has the highest version (`ScanInv.scanPoint`);
* `RemInv`: the removal deletes exactly the scheduled copies (`run_removeCopies`);
* `deduplicatePoints_keeps_newest`: a versioned id is left with one copy, at its highest
  version; points without a version are untouched; the count is the number of copies deleted.
  The one other outcome is the panic of a segment's payload index on a delete, which a holder
  whose numeric indexes agree with their histograms (`RemovesSafely`) never meets.
-/
import Qdrant.Collection.Recovery
import Qdrant.Index.NumericIndexRuns
import Qdrant.Segment.SegmentBuilderMerge

namespace Qdrant

open StateExcept
open scoped List

/-! ## 1. The steps of `deduplicate_points` -/

/-- What the scan carries: the newest copy seen of each id (`seen_points`, the first entry of a
lookup) and the copies to delete (`points_to_remove`). -/
abbrev ScanAcc := List (ExtendedPointId × SegmentId × ℕ) × List (SegmentId × ExtendedPointId)

namespace SegmentHolder

variable (env : Env) (holder : SegmentHolder)

/-- One point of the scan.  A point without a version is skipped; a copy older than the one
seen is scheduled for removal; otherwise it becomes the one seen, and the one seen before is
scheduled. -/
def scanPoint (h : SegmentHeap) (e : SegmentId × LockedSegment) (acc : ScanAcc)
    (pointId : ExtendedPointId) : ScanAcc :=
  (e.2.pointVersion h pointId).elim acc fun pointVersion =>
    (acc.1.lookup pointId).elim ((pointId, e.1, pointVersion) :: acc.1, acc.2) fun seen =>
      if pointVersion < seen.2 then (acc.1, acc.2 ++ [(e.1, pointId)])
      else ((pointId, e.1, pointVersion) :: acc.1, acc.2 ++ [(seen.1, pointId)])

/-- One segment of the scan: a proxy cannot list its points. -/
def scanSegment (h : SegmentHeap) (acc : ScanAcc) (e : SegmentId × LockedSegment) :
    HeapM ScanAcc :=
  (e.2.iterPoints h).elim (throw .panic) fun points => pure (points.foldl (scanPoint h e) acc)

/-- One scheduled copy: deleted at the version its segment reports now, and counted. -/
def removeCopy (removedPoints : ℕ) (r : SegmentId × ExtendedPointId) : HeapM ℕ :=
  (holder.get r.1).elim (throw .panic) fun segment => do
    let h ← getThe SegmentHeap
    (segment.pointVersion h r.2).elim (pure removedPoints) fun pointVersion => do
      let _ ← segment.deletePoint env pointVersion r.2
      pure (removedPoints + 1)

/-- `deduplicate_points` is the scan of every segment, then the removal of every scheduled
copy. -/
theorem deduplicatePoints_eq : holder.deduplicatePoints env = (do
    let h ← getThe SegmentHeap
    let seen ← holder.segments.foldlM (scanSegment h) ([], [])
    seen.2.foldlM (holder.removeCopy env) 0) := by
  refine congrArg (getThe SegmentHeap >>= ·) (funext fun h => ?_)
  congr 1
  · -- the scan
    refine congrArg (fun f => List.foldlM f ([], []) holder.segments)
      (funext fun acc => funext fun e => ?_)
    unfold scanSegment
    rcases e.2.iterPoints h with _ | points
    · rfl
    refine congrArg (fun f => pure (List.foldl f acc points))
      (funext fun acc => funext fun p => ?_)
    -- the seen copy is taken apart by a pattern in the source, by projections here
    unfold scanPoint
    rcases e.2.pointVersion h p with _ | v
    · rfl
    · rcases acc.1.lookup p with _ | ⟨_, _⟩ <;> rfl
  · -- the removal
    funext seen
    refine congrArg (fun f => List.foldlM f 0 seen.2) (funext fun n => funext fun r => ?_)
    unfold removeCopy
    rcases holder.get r.1 with _ | segment
    · rfl
    refine congrArg (getThe SegmentHeap >>= ·) (funext fun h => ?_)
    rcases segment.pointVersion h r.2 with _ | v <;> rfl

end SegmentHolder

/-! ## 2. A delete at the point's own version -/

section DeleteAtVersion

variable (env : Env)

/-- A version stamped on a slot that has no external id is lost. -/
theorem IdTracker.setInternalVersion_of_externalId_none {t : IdTracker} {i : PointOffsetType}
    (h : t.externalId i = none) (v : ℕ) : t.setInternalVersion i v = t := by
  simp [IdTracker.setInternalVersion, h]

/-- A segment whose id tracker lost the point `p` reports it no more, and the others as before. -/
theorem Segment.pointVersion_of_idTracker_drop {s s' : Segment} {p : ExtendedPointId}
    (h : s'.idTracker = s.idTracker.drop p) (q : ExtendedPointId) :
    s'.pointVersion q = if q = p then none else s.pointVersion q := by
  by_cases hq : q = p <;> simp [Segment.pointVersion, h, hq]

theorem Segment.hasPoint_of_idTracker_drop {s s' : Segment} {p : ExtendedPointId}
    (h : s'.idTracker = s.idTracker.drop p) (q : ExtendedPointId) :
    s'.hasPoint q = if q = p then false else s.hasPoint q := by
  by_cases hq : q = p <;> simp [Segment.hasPoint, h, hq]

/-- **A delete at the point's own version is not skipped**: it drops the point from the id
tracker, unless the payload index panics, which a payload index that removes safely does not;
and it still removes safely afterwards. -/
theorem Segment.deletePoint_at_version {s : Segment} {p : ExtendedPointId} {v : ℕ}
    (hv : s.pointVersion p = some v) :
    s.deletePoint env v p = .error .panic ∧ ¬ s.payloadIndex.RemovesSafely ∨
      ∃ s', s.deletePoint env v p = .ok (true, s') ∧ s'.idTracker = s.idTracker.drop p ∧
        (s.payloadIndex.RemovesSafely → s'.payloadIndex.RemovesSafely) := by
  obtain ⟨i, hi, hiv⟩ := Option.bind_eq_some_iff.mp hv
  -- `handle_version` does not skip: the point is at the operation's version, not past it
  have hnoskip : ((s.idTracker.internalVersion i).any (v < ·)) = false := by simp [hiv]
  cases hdrop : s.payloadIndex.drop env i with
  | none =>
    left
    refine ⟨by simp [Segment.deletePoint, Segment.handleVersion, hi, hnoskip, hdrop,
      Segment.ofPanic, Except.map], fun hsafe => ?_⟩
    obtain ⟨r, hr, -⟩ := StructPayloadIndex.drop_of_removesSafely env hsafe i
    simp [hdrop] at hr
  | some r =>
    right
    refine ⟨_, by simp [Segment.deletePoint, Segment.handleVersion, hi, hnoskip, hdrop,
      Segment.ofPanic, Except.map]; rfl, ?_, fun hsafe => ?_⟩
    · -- the payload index keeps the tracker, and the stamp on the freed slot is lost
      have htracker : r.2.idTracker = s.idTracker := (StructPayloadIndex.drop_eq_some env hdrop).1
      simp only [Segment.idTracker, Segment.withIdTracker, htracker]
      exact IdTracker.setInternalVersion_of_externalId_none (IdTracker.externalId_drop_self _ _ hi) v
    · -- the new trackers leave the field indexes as the drop left them
      obtain ⟨r', hr', hsafe'⟩ := StructPayloadIndex.drop_of_removesSafely env hsafe i
      rw [hdrop, Option.some.injEq] at hr'
      subst hr'
      exact hsafe'

end DeleteAtVersion

/-! ## 3. The scan -/

/-- A point met by the scan: its segment, its id, and the version the segment reports. -/
abbrev ScannedPoint := SegmentId × ExtendedPointId × Option ℕ

/-- The versioned copies of `p` among scanned points, as (segment, id) pairs. -/
def versionedCopies (scanned : List ScannedPoint) (p : ExtendedPointId) :
    List (SegmentId × ExtendedPointId) :=
  (scanned.filter fun c => c.2.1 = p && c.2.2.isSome).map fun c => (c.1, p)

/-- What the scan has established of the id `p`: the copies it scheduled and the one it
keeps are the versioned copies; the one it keeps is a scanned copy of the highest version;
nothing is kept of an id without a versioned copy. -/
structure ScanInvAt (scanned : List ScannedPoint) (acc : ScanAcc) (p : ExtendedPointId) :
    Prop where
  perm : acc.2.filter (·.2 = p) ++ (acc.1.lookup p).toList.map (·.1, p) ~
    versionedCopies scanned p
  seen : ∀ b, acc.1.lookup p = some b →
    (b.1, p, some b.2) ∈ scanned ∧ ∀ c ∈ scanned, c.2.1 = p → ∀ w ∈ c.2.2, w ≤ b.2
  unseen : acc.1.lookup p = none → ∀ c ∈ scanned, c.2.1 = p → c.2.2 = none

/-- **The scan's invariant**: `ScanInvAt` holds of every id. -/
def ScanInv (scanned : List ScannedPoint) (acc : ScanAcc) : Prop :=
  ∀ p, ScanInvAt scanned acc p

section Scan

open SegmentHolder

variable {scanned : List ScannedPoint} {acc : ScanAcc}

theorem versionedCopies_append (scanned : List ScannedPoint) (c : ScannedPoint)
    (p : ExtendedPointId) :
    versionedCopies (scanned ++ [c]) p = versionedCopies scanned p ++
      if c.2.1 = p ∧ c.2.2.isSome then [(c.1, p)] else [] := by
  unfold versionedCopies
  by_cases hc : c.2.1 = p ∧ c.2.2.isSome
  · simp [hc]
  · rw [not_and] at hc
    by_cases hp : c.2.1 = p
    · simp [hp, hc hp]
    · simp [hp]

theorem versionedCopies_append_self (scanned : List ScannedPoint) (s : SegmentId)
    (q : ExtendedPointId) (v : ℕ) :
    versionedCopies (scanned ++ [(s, q, some v)]) q = versionedCopies scanned q ++ [(s, q)] := by
  simp [versionedCopies_append]

/-- A copy scheduled for removal counts for its own id only. -/
theorem filter_append_removal (l : List (SegmentId × ExtendedPointId)) (s : SegmentId)
    (q p : ExtendedPointId) :
    (l ++ [(s, q)]).filter (·.2 = p) = l.filter (·.2 = p) ++ if q = p then [(s, q)] else [] := by
  by_cases hq : q = p <;> simp [hq]

/-- The newest copy of `q` seen, after a new one is recorded. -/
theorem lookup_seen_cons (seen : List (ExtendedPointId × SegmentId × ℕ)) (q p : ExtendedPointId)
    (b : SegmentId × ℕ) : ((q, b) :: seen).lookup p = if p = q then some b else seen.lookup p := by
  by_cases hp : p = q
  · simp [hp]
  · simp [List.lookup, beq_eq_false_iff_ne.mpr hp, hp]

theorem scanInv_nil : ScanInv [] ([], []) :=
  fun _ => ⟨by simp [versionedCopies], by simp, by simp⟩

/-- A scanned point of another id, or of `p` without a version, leaves what the invariant says
of `p` as it was, when the step keeps what it had of `p`. -/
theorem ScanInvAt.frame {acc' : ScanAcc} {c : ScannedPoint} {p : ExtendedPointId}
    (hinv : ScanInvAt scanned acc p) (hc : c.2.1 ≠ p ∨ c.2.2 = none)
    (hseen : acc'.1.lookup p = acc.1.lookup p)
    (hpairs : acc'.2.filter (·.2 = p) = acc.2.filter (·.2 = p)) :
    ScanInvAt (scanned ++ [c]) acc' p := by
  have hnew : ¬ (c.2.1 = p ∧ c.2.2.isSome) := by
    rcases hc with hc | hc <;> simp [hc]
  -- the new point has no version of `p` to compare
  have hnone : ∀ w ∈ c.2.2, c.2.1 = p → False := by
    intro w hw hp
    rcases hc with hc | hc
    · exact hc hp
    · simp [hc] at hw
  refine ⟨?_, fun b hb => ?_, fun hb c' hc' hp => ?_⟩
  · rw [versionedCopies_append, if_neg hnew, List.append_nil, hseen, hpairs]
    exact hinv.perm
  · obtain ⟨hmem, hmax⟩ := hinv.seen b (hseen ▸ hb)
    refine ⟨List.mem_append_left _ hmem, fun c' hc' hp w hw => ?_⟩
    rcases List.mem_append.mp hc' with hc' | hc'
    · exact hmax c' hc' hp w hw
    · rw [List.mem_singleton] at hc'
      subst hc'
      exact (hnone w hw hp).elim
  · rcases List.mem_append.mp hc' with hc' | hc'
    · exact hinv.unseen (hseen ▸ hb) c' hc' hp
    · rw [List.mem_singleton] at hc'
      subst hc'
      rcases hc with hc | hc
      · exact (hc hp).elim
      · exact hc

variable {s : SegmentId} {q : ExtendedPointId} {v : ℕ}

/-- The first versioned copy of `q` is the one seen. -/
theorem ScanInvAt.first (hinv : ScanInvAt scanned acc q) (hq : acc.1.lookup q = none) :
    ScanInvAt (scanned ++ [(s, q, some v)]) ((q, s, v) :: acc.1, acc.2) q := by
  have hperm := hinv.perm
  rw [hq] at hperm
  refine ⟨?_, fun b hb => ?_, fun hb => ?_⟩
  · rw [lookup_seen_cons, if_pos rfl, versionedCopies_append_self]
    simpa using hperm.append_right [(s, q)]
  · rw [lookup_seen_cons, if_pos rfl, Option.some.injEq] at hb
    subst hb
    refine ⟨by simp, fun c hc hcq w hw => ?_⟩
    rcases List.mem_append.mp hc with hc | hc
    · -- no earlier copy of `q` has a version
      rw [hinv.unseen hq c hc hcq] at hw
      simp at hw
    · simp only [List.mem_singleton] at hc
      subst hc
      simp only [Option.mem_def, Option.some.injEq] at hw
      exact hw.ge
  · simp at hb

/-- A copy older than the one seen is scheduled for removal. -/
theorem ScanInvAt.older {b : SegmentId × ℕ} (hinv : ScanInvAt scanned acc q)
    (hq : acc.1.lookup q = some b) (hlt : v < b.2) :
    ScanInvAt (scanned ++ [(s, q, some v)]) (acc.1, acc.2 ++ [(s, q)]) q := by
  have hperm := hinv.perm
  rw [hq] at hperm
  obtain ⟨hmem, hmax⟩ := hinv.seen b hq
  refine ⟨?_, fun b' hb' => ?_, fun hb' => ?_⟩
  · dsimp only
    rw [hq, versionedCopies_append_self, filter_append_removal, if_pos rfl]
    calc _ ~ (acc.2.filter (·.2 = q) ++ [(b.1, q)]) ++ [(s, q)] := by
          simpa using (List.Perm.swap (b.1, q) (s, q) []).append_left (acc.2.filter (·.2 = q))
      _ ~ versionedCopies scanned q ++ [(s, q)] := by
          simpa using hperm.append_right [(s, q)]
  · dsimp only at hb'
    rw [hq, Option.some.injEq] at hb'
    subst hb'
    refine ⟨List.mem_append_left _ hmem, fun c hc hcq w hw => ?_⟩
    rcases List.mem_append.mp hc with hc | hc
    · exact hmax c hc hcq w hw
    · simp only [List.mem_singleton] at hc
      subst hc
      simp only [Option.mem_def, Option.some.injEq] at hw
      omega
  · dsimp only at hb'
    rw [hq] at hb'
    simp at hb'

/-- A copy at least as new as the one seen is seen instead, and the one seen before is
scheduled for removal. -/
theorem ScanInvAt.newer {b : SegmentId × ℕ} (hinv : ScanInvAt scanned acc q)
    (hq : acc.1.lookup q = some b) (hle : ¬ v < b.2) :
    ScanInvAt (scanned ++ [(s, q, some v)]) ((q, s, v) :: acc.1, acc.2 ++ [(b.1, q)]) q := by
  have hperm := hinv.perm
  rw [hq] at hperm
  obtain ⟨-, hmax⟩ := hinv.seen b hq
  refine ⟨?_, fun b' hb' => ?_, fun hb' => ?_⟩
  · rw [lookup_seen_cons, if_pos rfl, versionedCopies_append_self, filter_append_removal,
      if_pos rfl]
    simpa using hperm.append_right [(s, q)]
  · rw [lookup_seen_cons, if_pos rfl, Option.some.injEq] at hb'
    subst hb'
    refine ⟨by simp, fun c hc hcq w hw => ?_⟩
    rcases List.mem_append.mp hc with hc | hc
    · have := hmax c hc hcq w hw
      dsimp only
      omega
    · simp only [List.mem_singleton] at hc
      subst hc
      simp only [Option.mem_def, Option.some.injEq] at hw
      exact hw.ge
  · simp at hb'

/-- **One point of the scan keeps the invariant.** -/
theorem ScanInv.scanPoint (hinv : ScanInv scanned acc) (h : SegmentHeap)
    (e : SegmentId × LockedSegment) (q : ExtendedPointId) :
    ScanInv (scanned ++ [(e.1, q, e.2.pointVersion h q)]) (scanPoint h e acc q) := by
  cases hv : e.2.pointVersion h q with
  | none =>
    -- a point without a version is skipped
    have hacc : SegmentHolder.scanPoint h e acc q = acc := by simp [SegmentHolder.scanPoint, hv]
    rw [hacc]
    exact fun p => (hinv p).frame (.inr rfl) rfl rfl
  | some v =>
    cases hq : acc.1.lookup q with
    | none =>
      have hacc : SegmentHolder.scanPoint h e acc q = ((q, e.1, v) :: acc.1, acc.2) := by
        simp [SegmentHolder.scanPoint, hv, hq]
      rw [hacc]
      intro p
      by_cases hp : q = p
      · subst hp
        exact (hinv q).first hq
      · exact (hinv p).frame (.inl hp) (by rw [lookup_seen_cons, if_neg (Ne.symm hp)]) rfl
    | some b =>
      by_cases hlt : v < b.2
      · have hacc : SegmentHolder.scanPoint h e acc q = (acc.1, acc.2 ++ [(e.1, q)]) := by
          simp [SegmentHolder.scanPoint, hv, hq, hlt]
        rw [hacc]
        intro p
        by_cases hp : q = p
        · subst hp
          exact (hinv q).older hq hlt
        · exact (hinv p).frame (.inl hp) rfl (by rw [filter_append_removal, if_neg hp,
            List.append_nil])
      · have hacc : SegmentHolder.scanPoint h e acc q =
            ((q, e.1, v) :: acc.1, acc.2 ++ [(b.1, q)]) := by
          simp [SegmentHolder.scanPoint, hv, hq, hlt]
        rw [hacc]
        intro p
        by_cases hp : q = p
        · subst hp
          exact (hinv q).newer hq hlt
        · exact (hinv p).frame (.inl hp) (by rw [lookup_seen_cons, if_neg (Ne.symm hp)])
            (by rw [filter_append_removal, if_neg hp, List.append_nil])

/-- **The points of one segment keep the invariant.** -/
theorem ScanInv.foldl (hinv : ScanInv scanned acc) (h : SegmentHeap)
    (e : SegmentId × LockedSegment) (points : List ExtendedPointId) :
    ScanInv (scanned ++ points.map fun q => (e.1, q, e.2.pointVersion h q))
      (points.foldl (SegmentHolder.scanPoint h e) acc) := by
  induction points generalizing scanned acc with
  | nil => simpa using hinv
  | cons q points ih =>
    rw [List.foldl_cons, List.map_cons, ← List.singleton_append, ← List.append_assoc]
    exact ih (hinv.scanPoint h e q)

end Scan

/-! ## 4. Plain holders -/

namespace LockedSegment

variable (h : SegmentHeap) (cell : ℕ) (p : ExtendedPointId)

@[simp] theorem pointVersion_original :
    (original cell).pointVersion h p = (h.cells cell).pointVersion p := rfl

@[simp] theorem hasPoint_original : (original cell).hasPoint h p = (h.cells cell).hasPoint p := rfl

@[simp] theorem iterPoints_original :
    (original cell).iterPoints h = some (h.cells cell).idTracker.iterExternal := rfl

end LockedSegment

/-- A segment lists a point it has a version of, once. -/
theorem Segment.mem_iterExternal_of_pointVersion {s : Segment} {p : ExtendedPointId} {v : ℕ}
    (hv : s.pointVersion p = some v) : p ∈ s.idTracker.iterExternal := by
  obtain ⟨i, hi, -⟩ := Option.bind_eq_some_iff.mp hv
  exact OrdMap.mem_keys_iff_isSome.mpr (by simp [IdTracker.internalId] at hi; simp [hi])

theorem IdTracker.nodup_iterExternal (t : IdTracker) : t.iterExternal.Nodup :=
  t.sorted.imp ne_of_lt

namespace SegmentHolder

variable (env : Env) (holder : SegmentHolder)

/-- The holder's segments are plain, each in a cell of its own: `deduplicate_points` works with
plain segments only. -/
structure Plain : Prop where
  original : ∀ e ∈ holder.segments, ∃ cell, e.2 = .original cell
  nodup : (holder.segments.map Prod.snd).Nodup

/-- Every point of every segment with its version, in the order of the scan. -/
def scannedPoints (h : SegmentHeap) : List ScannedPoint :=
  holder.segments.flatMap fun e =>
    ((e.2.iterPoints h).getD []).map fun p => (e.1, p, e.2.pointVersion h p)

variable {holder}

/-- Two segments of a plain holder under one id, or in one cell, are one. -/
theorem Plain.eq_of_mem (hplain : holder.Plain) {e₁ e₂ : SegmentId × LockedSegment}
    (h₁ : e₁ ∈ holder.segments) (h₂ : e₂ ∈ holder.segments) (h : e₁.1 = e₂.1 ∨ e₁.2 = e₂.2) :
    e₁ = e₂ := by
  rcases h with h | h
  · exact List.inj_on_of_nodup_map holder.nodup h₁ h₂ h
  · exact List.inj_on_of_nodup_map hplain.nodup h₁ h₂ h

theorem get_of_mem {e : SegmentId × LockedSegment} (he : e ∈ holder.segments) :
    holder.get e.1 = some e.2 := by
  obtain ⟨l₁, l₂, hl⟩ := List.mem_iff_append.mp he
  have hnd := holder.nodup
  rw [hl, List.map_append, List.map_cons, List.nodup_append] at hnd
  refine List.lookup_eq_some_iff.mpr ⟨l₁, l₂, hl, fun x hx => ?_⟩
  have hne : x.1 ≠ e.1 := fun hx' => hnd.2.2 x.1 (List.mem_map.mpr ⟨x, hx, rfl⟩) e.1
    List.mem_cons_self hx'
  simp [Ne.symm hne]

/-- The scan over segments from `scanned` on, for plain segments: it reads the heap and
writes nothing. -/
theorem run_foldlM_scanSegment (h h' : SegmentHeap) :
    ∀ (l : List (SegmentId × LockedSegment)), (∀ e ∈ l, ∃ cell, e.2 = .original cell) →
      ∀ {scanned : List ScannedPoint} {acc : ScanAcc}, ScanInv scanned acc →
      ∃ acc', (l.foldlM (scanSegment h) acc).run h' = (.ok acc', h') ∧
        ScanInv (scanned ++ l.flatMap fun e =>
          ((e.2.iterPoints h).getD []).map fun p => (e.1, p, e.2.pointVersion h p)) acc'
  | [], _, _, acc, hinv => ⟨acc, rfl, by simpa using hinv⟩
  | e :: l, hl, _, acc, hinv => by
    obtain ⟨cell, hcell⟩ := hl e List.mem_cons_self
    have hsegment : (scanSegment h acc e).run h' =
        (.ok (((e.2.iterPoints h).getD []).foldl (scanPoint h e) acc), h') := by
      simp [scanSegment, hcell]
    obtain ⟨acc', hrun, hinv'⟩ := run_foldlM_scanSegment h h' l
      (fun e' he' => hl e' (List.mem_cons_of_mem _ he')) (hinv.foldl h e ((e.2.iterPoints h).getD []))
    refine ⟨acc', ?_, ?_⟩
    · rw [List.foldlM_cons, run_bind_ok hsegment, hrun]
    · simpa [List.append_assoc] using hinv'

/-- **The scan of a plain holder succeeds**, with the invariant over every point. -/
theorem run_scan (hplain : holder.Plain) (h : SegmentHeap) :
    ∃ acc, (holder.segments.foldlM (scanSegment h) ([], [])).run h = (.ok acc, h) ∧
      ScanInv (holder.scannedPoints h) acc := by
  simpa [scannedPoints] using run_foldlM_scanSegment h h holder.segments hplain.original scanInv_nil

/-- A segment of a plain holder lists every point it has a version of. -/
theorem mem_iterPoints_of_pointVersion (hplain : holder.Plain) {h : SegmentHeap}
    {e : SegmentId × LockedSegment} (he : e ∈ holder.segments) {p : ExtendedPointId}
    (hver : (e.2.pointVersion h p).isSome) : p ∈ (e.2.iterPoints h).getD [] := by
  obtain ⟨cell, hcell⟩ := hplain.original e he
  obtain ⟨v, hv⟩ := Option.isSome_iff_exists.mp hver
  rw [hcell] at hv ⊢
  simpa using Segment.mem_iterExternal_of_pointVersion hv

theorem mem_scannedPoints {h : SegmentHeap} {c : ScannedPoint} :
    c ∈ holder.scannedPoints h ↔ ∃ e ∈ holder.segments,
      c.1 = e.1 ∧ c.2.1 ∈ (e.2.iterPoints h).getD [] ∧ c.2.2 = e.2.pointVersion h c.2.1 := by
  obtain ⟨sid, p, ov⟩ := c
  simp only [scannedPoints, List.mem_flatMap, List.mem_map, Prod.mk.injEq]
  constructor
  · rintro ⟨e, he, p', hp', rfl, rfl, rfl⟩
    exact ⟨e, he, rfl, hp', rfl⟩
  · rintro ⟨e, he, rfl, hp, rfl⟩
    exact ⟨e, he, p, hp, rfl, rfl, rfl⟩

/-- The versioned copies of `p` in a plain holder: the segments that have a version of it. -/
theorem mem_versionedCopies (hplain : holder.Plain) {h : SegmentHeap} {p : ExtendedPointId}
    {x : SegmentId × ExtendedPointId} :
    x ∈ versionedCopies (holder.scannedPoints h) p ↔
      x.2 = p ∧ ∃ e ∈ holder.segments, e.1 = x.1 ∧ (e.2.pointVersion h p).isSome := by
  obtain ⟨sid, q⟩ := x
  simp only [versionedCopies, scannedPoints, List.mem_map, List.mem_filter, List.mem_flatMap,
    Bool.and_eq_true, decide_eq_true_eq, Prod.mk.injEq]
  constructor
  · rintro ⟨c, ⟨⟨e, he, hc⟩, hcp, hver⟩, rfl, rfl⟩
    obtain ⟨r, -, rfl⟩ := hc
    simp only at hcp
    subst hcp
    exact ⟨rfl, e, he, rfl, hver⟩
  · rintro ⟨rfl, e, he, rfl, hver⟩
    exact ⟨(e.1, q, e.2.pointVersion h q),
      ⟨⟨e, he, q, mem_iterPoints_of_pointVersion hplain he hver, rfl⟩, rfl, hver⟩, rfl, rfl⟩

/-- No segment and point are scanned twice. -/
theorem nodup_scannedPairs (hplain : holder.Plain) (h : SegmentHeap) :
    ((holder.scannedPoints h).map fun c => (c.1, c.2.1)).Nodup := by
  rw [scannedPoints, List.map_flatMap, List.nodup_flatMap]
  refine ⟨fun e he => ?_, ?_⟩
  · obtain ⟨cell, hcell⟩ := hplain.original e he
    rw [List.map_map, hcell]
    exact (IdTracker.nodup_iterExternal _).map fun a b hab => by simpa using hab
  · refine (List.pairwise_map.mp holder.nodup).imp fun hne x hx₁ hx₂ => hne ?_
    simp only [List.map_map, List.mem_map, Function.comp_apply] at hx₁ hx₂
    obtain ⟨_, -, rfl⟩ := hx₁
    obtain ⟨_, -, hx⟩ := hx₂
    exact (Prod.mk.inj hx).1.symm

theorem nodup_versionedCopies (hplain : holder.Plain) (h : SegmentHeap) (p : ExtendedPointId) :
    (versionedCopies (holder.scannedPoints h) p).Nodup := by
  have hcongr : versionedCopies (holder.scannedPoints h) p =
      ((holder.scannedPoints h).filter fun c => c.2.1 = p && c.2.2.isSome).map
        fun c => (c.1, c.2.1) := by
    refine List.map_congr_left fun c hc => ?_
    simp only [List.mem_filter, Bool.and_eq_true, decide_eq_true_eq] at hc
    rw [hc.2.1]
  rw [hcongr]
  exact (nodup_scannedPairs hplain h).sublist (List.filter_sublist.map _)

end SegmentHolder

/-! ## 5. The scheduled copies -/

section Scheduled

variable {scanned : List ScannedPoint} {acc : ScanAcc}

/-- **No copy is scheduled twice.** -/
theorem ScanInv.nodup_removals (hinv : ScanInv scanned acc)
    (hvc : ∀ p, (versionedCopies scanned p).Nodup) : acc.2.Nodup := by
  refine List.nodup_iff_count_le_one.mpr fun x => ?_
  obtain ⟨sid, p⟩ := x
  have hperm := (hinv p).perm
  calc acc.2.count (sid, p)
      = (acc.2.filter (·.2 = p)).count (sid, p) := by simp [List.count_filter]
    _ ≤ (acc.2.filter (·.2 = p) ++ (acc.1.lookup p).toList.map (·.1, p)).count (sid, p) := by
        rw [List.count_append]
        exact Nat.le_add_right _ _
    _ = (versionedCopies scanned p).count (sid, p) := hperm.count_eq _
    _ ≤ 1 := List.nodup_iff_count_le_one.mp (hvc p) _

/-- **The scheduled copies**: the versioned copies, but for the one seen. -/
theorem ScanInv.mem_removals (hinv : ScanInv scanned acc)
    (hvc : ∀ p, (versionedCopies scanned p).Nodup) {sid : SegmentId} {p : ExtendedPointId} :
    (sid, p) ∈ acc.2 ↔
      (sid, p) ∈ versionedCopies scanned p ∧ ∀ b, acc.1.lookup p = some b → b.1 ≠ sid := by
  have hperm := (hinv p).perm
  have hnd : (acc.2.filter (·.2 = p) ++ (acc.1.lookup p).toList.map (·.1, p)).Nodup :=
    hperm.nodup_iff.mpr (hvc p)
  have hfilter : (sid, p) ∈ acc.2 ↔ (sid, p) ∈ acc.2.filter (·.2 = p) := by simp
  constructor
  · intro hx
    refine ⟨hperm.subset (List.mem_append_left _ (hfilter.mp hx)), fun b hb hsid => ?_⟩
    -- the copy seen would be both scheduled and kept
    have hkeep : (sid, p) ∈ (acc.1.lookup p).toList.map (·.1, p) := by simp [hb, hsid]
    exact List.disjoint_of_nodup_append hnd (hfilter.mp hx) hkeep
  · rintro ⟨hx, hseen⟩
    rcases List.mem_append.mp (hperm.symm.subset hx) with hx | hx
    · exact hfilter.mpr hx
    · obtain ⟨b, hb, hbx⟩ := List.mem_map.mp hx
      simp only [Prod.mk.injEq] at hbx
      exact (hseen b (Option.mem_toList.mp hb) hbx.1).elim

end Scheduled

/-! ## 6. The removal -/

namespace SegmentHolder

variable {env : Env} {holder : SegmentHolder} {h : SegmentHeap}

/-- **The removal's invariant**: of the heap `h` the scan read, the copies `done` are deleted,
and every other point of every segment is as it was. -/
def RemInv (holder : SegmentHolder) (h : SegmentHeap) (done : List (SegmentId × ExtendedPointId))
    (h' : SegmentHeap) : Prop :=
  ∀ e ∈ holder.segments, ∀ q,
    e.2.pointVersion h' q = (if (e.1, q) ∈ done then none else e.2.pointVersion h q) ∧
      e.2.hasPoint h' q = (if (e.1, q) ∈ done then false else e.2.hasPoint h q)

theorem remInv_nil : RemInv holder h [] h := fun _ _ _ => by simp

/-- Every plain segment of the holder drops a point without a panic of its payload index. -/
def RemovesSafely (holder : SegmentHolder) (h : SegmentHeap) : Prop :=
  ∀ e ∈ holder.segments, ∀ cell, e.2 = .original cell → (h.cells cell).payloadIndex.RemovesSafely

/-- A new segment in a cell of the holder that removes safely keeps the holder so. -/
theorem RemovesSafely.setCell {h' : SegmentHeap}
    (hsafe : holder.RemovesSafely h') {sid : SegmentId} {cell : ℕ}
    (he : (sid, .original cell) ∈ holder.segments) {s' : Segment}
    (hs' : (h'.cells cell).payloadIndex.RemovesSafely → s'.payloadIndex.RemovesSafely) :
    holder.RemovesSafely (h'.setCell cell s') := by
  intro e' he' cell' hcell'
  by_cases hc : cell' = cell
  · subst hc
    rw [SegmentHeap.setCell_cells_self]
    exact hs' (hsafe _ he _ rfl)
  · rw [SegmentHeap.setCell_cells_ne _ _ hc]
    exact hsafe e' he' cell' hcell'

/-- `remove_copy` on a segment of the holder reads the version the segment reports now. -/
theorem run_removeCopy_eq {segment : LockedSegment} {r : SegmentId × ExtendedPointId}
    (hget : holder.get r.1 = some segment) (n : ℕ) (h' : SegmentHeap) :
    (holder.removeCopy env n r).run h' = ((segment.pointVersion h' r.2).elim (pure n) fun v => do
      let _ ← segment.deletePoint env v r.2
      pure (n + 1)).run h' := by
  simp only [removeCopy, hget, Option.elim_some]
  rfl

theorem run_deletePoint_original_of_error {cell : ℕ} {v : ℕ} {q : ExtendedPointId}
    {h' : SegmentHeap} {e : OperationError} (hdel : (h'.cells cell).deletePoint env v q = .error e) :
    ((LockedSegment.original cell).deletePoint env v q).run h' = (.error e, h') := by
  simp only [LockedSegment.deletePoint, LockedSegment.update, run, onCell, hdel]

theorem run_deletePoint_original_of_ok {cell : ℕ} {v : ℕ} {q : ExtendedPointId}
    {h' : SegmentHeap} {b : Bool} {s' : Segment}
    (hdel : (h'.cells cell).deletePoint env v q = .ok (b, s')) :
    ((LockedSegment.original cell).deletePoint env v q).run h' = (.ok b, h'.setCell cell s') := by
  simp only [LockedSegment.deletePoint, LockedSegment.update, run, onCell, hdel]

/-- **One scheduled copy is deleted**, or its segment's payload index panics, which it does not
if the holder removes safely; and the holder still does afterwards. -/
theorem run_removeCopy (hplain : holder.Plain) {sid : SegmentId} {cell : ℕ}
    (he : (sid, .original cell) ∈ holder.segments) {done : List (SegmentId × ExtendedPointId)}
    {h' : SegmentHeap} (hinv : RemInv holder h done h') {q : ExtendedPointId}
    (hq : (sid, q) ∉ done) (hver : ((h.cells cell).pointVersion q).isSome) (n : ℕ) :
    ((holder.removeCopy env n (sid, q)).run h').1 = .error .panic ∧ ¬ holder.RemovesSafely h' ∨
      ∃ h'', (holder.removeCopy env n (sid, q)).run h' = (.ok (n + 1), h'') ∧
        RemInv holder h (done ++ [(sid, q)]) h'' ∧
        (holder.RemovesSafely h' → holder.RemovesSafely h'') := by
  obtain ⟨v, hv⟩ := Option.isSome_iff_exists.mp hver
  have hget : holder.get sid = some (.original cell) := get_of_mem he
  -- the copy is still at its version
  have hcur : (h'.cells cell).pointVersion q = some v := by
    simpa [hq, hv] using (hinv _ he q).1
  rcases Segment.deletePoint_at_version env hcur with ⟨hdel, hunsafe⟩ | ⟨s', hdel, htracker, hs'⟩
  · left
    refine ⟨?_, fun hsafe => hunsafe (hsafe _ he cell rfl)⟩
    rw [run_removeCopy_eq hget, LockedSegment.pointVersion_original, hcur, Option.elim_some,
      run_bind_error (run_deletePoint_original_of_error hdel)]
  · right
    refine ⟨h'.setCell cell s', ?_, fun e' he' q' => ?_,
      fun hsafe => hsafe.setCell he hs'⟩
    · rw [run_removeCopy_eq hget, LockedSegment.pointVersion_original, hcur, Option.elim_some,
        run_bind_ok (run_deletePoint_original_of_ok hdel)]
      rfl
    obtain ⟨cell', hcell'⟩ := hplain.original e' he'
    by_cases hc : cell' = cell
    · -- the segment of the delete
      have he'eq : e' = (sid, .original cell) :=
        hplain.eq_of_mem he' he (.inr (by rw [hcell', hc]))
      subst he'eq
      have hold := hinv _ he q'
      simp only [LockedSegment.pointVersion_original, LockedSegment.hasPoint_original,
        SegmentHeap.setCell_cells_self] at hold ⊢
      rw [Segment.pointVersion_of_idTracker_drop htracker, Segment.hasPoint_of_idTracker_drop htracker,
        hold.1, hold.2]
      by_cases hq' : q' = q
      · subst hq'
        simp
      · simp [hq']
    · -- another segment
      have hsid : e'.1 ≠ sid := fun hs => hc (by
        have := hplain.eq_of_mem he' he (.inl hs)
        rw [this] at hcell'
        exact (LockedSegment.original.inj hcell').symm)
      have hold := hinv _ he' q'
      rw [hcell'] at hold ⊢
      simp only [LockedSegment.pointVersion_original, LockedSegment.hasPoint_original,
        SegmentHeap.setCell_cells_ne _ _ hc] at hold ⊢
      simpa [hsid] using hold

/-- A failed first step fails the sequence. -/
theorem run_bind_fst_of_error {α β : Type} {x : HeapM α} {f : α → HeapM β} {h' : SegmentHeap}
    {e : OperationError} (hx : (x.run h').1 = .error e) : ((x >>= f).run h').1 = .error e := by
  rw [run_bind_error (show x.run h' = (.error e, (x.run h').2) by rw [← hx])]

/-- **Every scheduled copy is deleted** in turn, unless a payload index panics, which none does
if the holder removes safely. -/
theorem run_removeCopies (hplain : holder.Plain) :
    ∀ (toRemove : List (SegmentId × ExtendedPointId)) {done : List (SegmentId × ExtendedPointId)}
      {h' : SegmentHeap} {n : ℕ}, RemInv holder h done h' → (done ++ toRemove).Nodup →
      (∀ x ∈ toRemove, ∃ e ∈ holder.segments, e.1 = x.1 ∧ (e.2.pointVersion h x.2).isSome) →
      ((toRemove.foldlM (holder.removeCopy env) n).run h').1 = .error .panic ∧
          ¬ holder.RemovesSafely h' ∨
        ∃ h'', (toRemove.foldlM (holder.removeCopy env) n).run h' =
          (.ok (n + toRemove.length), h'') ∧ RemInv holder h (done ++ toRemove) h''
  | [], _, h', _, hinv, _, _ => .inr ⟨h', rfl, by simpa using hinv⟩
  | ⟨sid, q⟩ :: toRemove, done, h', n, hinv, hnd, hver => by
    -- the copy's segment is a plain segment of the holder
    obtain ⟨e, he, hsid, hv⟩ := hver (sid, q) List.mem_cons_self
    obtain ⟨cell, hcell⟩ := hplain.original e he
    obtain ⟨esid, eseg⟩ := e
    simp only at hsid hcell hv
    subst hsid hcell
    have hq : (esid, q) ∉ done := fun hq =>
      List.disjoint_of_nodup_append hnd hq List.mem_cons_self
    rw [List.foldlM_cons]
    rcases run_removeCopy hplain he hinv hq hv n with ⟨herr, hunsafe⟩ | ⟨h₁, hrun, hinv₁, hsafe₁⟩
    · exact .inl ⟨run_bind_fst_of_error herr, hunsafe⟩
    have hnd' : ((done ++ [(esid, q)]) ++ toRemove).Nodup := by simpa using hnd
    rcases run_removeCopies hplain toRemove hinv₁ hnd'
        (fun x hx => hver x (List.mem_cons_of_mem _ hx)) with ⟨herr, hunsafe⟩ | ⟨h₂, hrun₂, hinv₂⟩
    · rw [run_bind_ok hrun]
      -- a later panic: the heap before it did not remove safely, so neither did this one
      exact .inl ⟨herr, fun hsafe => hunsafe (hsafe₁ hsafe)⟩
    · refine .inr ⟨h₂, ?_, by simpa using hinv₂⟩
      rw [run_bind_ok hrun, hrun₂, List.length_cons, Nat.add_assoc, Nat.add_comm 1]

/-- Every scheduled copy is a versioned copy of a segment of the holder. -/
theorem versioned_of_mem_removals (hplain : holder.Plain) {acc : ScanAcc}
    (hinv : ScanInv (holder.scannedPoints h) acc) {x : SegmentId × ExtendedPointId}
    (hx : x ∈ acc.2) :
    ∃ e ∈ holder.segments, e.1 = x.1 ∧ (e.2.pointVersion h x.2).isSome := by
  obtain ⟨sid, p⟩ := x
  obtain ⟨-, e, he, hsid, hv⟩ := (mem_versionedCopies hplain).mp
    ((hinv.mem_removals (nodup_versionedCopies hplain h)).mp hx).1
  exact ⟨e, he, hsid, hv⟩

/-- **`deduplicate_points` on a plain holder**: the scan succeeds; then a payload index panics,
which none does if the holder removes safely, or every scheduled copy is deleted and counted. -/
theorem run_deduplicatePoints (hplain : holder.Plain) (h : SegmentHeap) :
    ∃ acc, ScanInv (holder.scannedPoints h) acc ∧
      (((holder.deduplicatePoints env).run h).1 = .error .panic ∧ ¬ holder.RemovesSafely h ∨
        ((holder.deduplicatePoints env).run h).1 = .ok acc.2.length ∧
          RemInv holder h acc.2 ((holder.deduplicatePoints env).run h).2) := by
  obtain ⟨acc, hscan, hinv⟩ := run_scan hplain h
  have hrun : (holder.deduplicatePoints env).run h =
      (acc.2.foldlM (holder.removeCopy env) 0).run h := by
    rw [deduplicatePoints_eq]
    exact run_bind_ok hscan _
  refine ⟨acc, hinv, ?_⟩
  rw [hrun]
  rcases run_removeCopies hplain acc.2 remInv_nil
      (by simpa using hinv.nodup_removals (nodup_versionedCopies hplain h))
      (fun x hx => versioned_of_mem_removals hplain hinv hx) with herr | ⟨h'', hrun', hinv'⟩
  · exact .inl herr
  · rw [hrun']
    exact .inr ⟨by simp, by simpa using hinv'⟩

end SegmentHolder

/-! ## 7. One newest copy -/

section Newest

open SegmentHolder

variable (env : Env) {holder : SegmentHolder} {h : SegmentHeap}

/-- An id with a versioned copy has a copy seen by the scan. -/
theorem ScanInv.exists_seen {acc : ScanAcc} (hplain : holder.Plain)
    (hinv : ScanInv (holder.scannedPoints h) acc) {p : ExtendedPointId}
    (hp : ∃ e ∈ holder.segments, (e.2.pointVersion h p).isSome) :
    ∃ b, acc.1.lookup p = some b := by
  obtain ⟨e, he, hv⟩ := hp
  cases hseen : acc.1.lookup p with
  | some b => exact ⟨b, rfl⟩
  | none =>
    have hmem : (e.1, p, e.2.pointVersion h p) ∈ holder.scannedPoints h :=
      mem_scannedPoints.mpr ⟨e, he, rfl, mem_iterPoints_of_pointVersion hplain he hv, rfl⟩
    have hnone := (hinv p).unseen hseen _ hmem rfl
    simp only at hnone
    simp [hnone] at hv

/-- The copy seen by the scan is the highest version of the id over the segments. -/
theorem ScanInv.max?_eq {acc : ScanAcc} (hplain : holder.Plain)
    (hinv : ScanInv (holder.scannedPoints h) acc) {p : ExtendedPointId} {b : SegmentId × ℕ}
    (hb : acc.1.lookup p = some b) :
    (holder.segments.filterMap fun e => e.2.pointVersion h p).max? = some b.2 := by
  obtain ⟨hbmem, hbmax⟩ := (hinv p).seen b hb
  obtain ⟨eb, heb, -, -, hebv⟩ := mem_scannedPoints.mp hbmem
  refine List.max?_eq_some_iff.mpr ⟨List.mem_filterMap.mpr ⟨eb, heb, hebv.symm⟩, fun w hw => ?_⟩
  obtain ⟨e, he, hw⟩ := List.mem_filterMap.mp hw
  have hmem : (e.1, p, e.2.pointVersion h p) ∈ holder.scannedPoints h :=
    mem_scannedPoints.mpr ⟨e, he, rfl, mem_iterPoints_of_pointVersion hplain he (by simp [hw]), rfl⟩
  exact hbmax _ hmem rfl w (by simp [hw])

/-- **`deduplicate_points` leaves one newest copy.**  On a holder of plain segments, unless a
segment's payload index panics on a delete (a numeric index out of step with its histogram),
every id that has a version in some segment has a
version in exactly one segment afterwards, the highest it had; a point without a version is
left as it was; and the count returned is the number of copies that lost their version. -/
theorem SegmentHolder.deduplicatePoints_keeps_newest (holder : SegmentHolder) (hplain : holder.Plain)
    (h : SegmentHeap) :
    let r := (holder.deduplicatePoints env).run h
    r.1 = .error .panic ∧ ¬ holder.RemovesSafely h ∨ ∃ n, r.1 = .ok n ∧
      (∀ p, (∃ e ∈ holder.segments, (e.2.pointVersion h p).isSome) →
        ∃ e ∈ holder.segments,
          e.2.pointVersion r.2 p = (holder.segments.filterMap fun e => e.2.pointVersion h p).max? ∧
          ∀ e' ∈ holder.segments, (e'.2.pointVersion r.2 p).isSome → e' = e) ∧
      (∀ e ∈ holder.segments, ∀ p, e.2.pointVersion h p = none →
        e.2.pointVersion r.2 p = none ∧ e.2.hasPoint r.2 p = e.2.hasPoint h p) ∧
      n = (holder.segments.map fun e => ((e.2.iterPoints h).getD []).countP fun p =>
        (e.2.pointVersion h p).isSome && (e.2.pointVersion r.2 p).isNone).sum := by
  intro r
  obtain ⟨acc, hinv, hres⟩ := @run_deduplicatePoints env _ hplain h
  rcases hres with herr | ⟨hok, hrem⟩
  · exact .inl herr
  have hvc := nodup_versionedCopies hplain h
  -- a copy is deleted exactly when it was scheduled
  have hsched : ∀ e ∈ holder.segments, ∀ p,
      (e.1, p) ∈ acc.2 ↔ (e.2.pointVersion h p).isSome ∧ ∀ b, acc.1.lookup p = some b → b.1 ≠ e.1 := by
    intro e he p
    rw [hinv.mem_removals hvc, mem_versionedCopies hplain]
    constructor
    · rintro ⟨⟨-, e', he', hsid, hv⟩, hseen⟩
      rw [hplain.eq_of_mem he' he (.inl hsid)] at hv
      exact ⟨hv, hseen⟩
    · rintro ⟨hv, hseen⟩
      exact ⟨⟨rfl, e, he, rfl, hv⟩, hseen⟩
  refine .inr ⟨_, hok, fun p hp => ?_, fun e he p hnone => ?_, ?_⟩
  · -- the copy seen is kept, and no other
    obtain ⟨b, hb⟩ := hinv.exists_seen hplain hp
    obtain ⟨hbmem, -⟩ := (hinv p).seen b hb
    obtain ⟨eb, heb, hebsid, -, hebv⟩ := mem_scannedPoints.mp hbmem
    have hkept : (eb.1, p) ∉ acc.2 := fun hx =>
      ((hsched eb heb p).mp hx).2 b hb hebsid
    refine ⟨eb, heb, ?_, fun e' he' hsome => ?_⟩
    · rw [(hrem eb heb p).1, if_neg hkept, ← hebv, hinv.max?_eq hplain hb]
    · rw [(hrem e' he' p).1] at hsome
      split_ifs at hsome with hx
      · simp at hsome
      · -- versioned and not scheduled: the segment of the copy seen
        have hsid : b.1 = e'.1 := by
          by_contra hne
          exact hx ((hsched e' he' p).mpr ⟨hsome, fun b' hb' => by
            rw [hb, Option.some.injEq] at hb'
            exact hb' ▸ hne⟩)
        exact hplain.eq_of_mem he' heb (.inl (hsid.symm.trans hebsid))
  · -- a point without a version was never scheduled
    have hx : (e.1, p) ∉ acc.2 := fun hx => by
      simpa [hnone] using ((hsched e he p).mp hx).1
    exact ⟨by rw [(hrem e he p).1, if_neg hx, hnone], by rw [(hrem e he p).2, if_neg hx]⟩
  · -- the count: the scheduled copies, segment by segment
    have hLnd := hinv.nodup_removals hvc
    set S := holder.segments.flatMap fun e => ((e.2.iterPoints h).getD []).map (e.1, ·) with hS
    have hSnd : S.Nodup := by
      simpa [scannedPoints, List.map_flatMap, List.map_map, Function.comp_def] using
        nodup_scannedPairs hplain h
    have hsub : ∀ x ∈ acc.2, x ∈ S := by
      intro x hx
      obtain ⟨e, he, hsid, hv⟩ := versioned_of_mem_removals hplain hinv hx
      exact List.mem_flatMap.mpr ⟨e, he, List.mem_map.mpr
        ⟨x.2, mem_iterPoints_of_pointVersion hplain he hv, by rw [hsid]⟩⟩
    have hperm : acc.2 ~ S.filter (· ∈ acc.2) :=
      (List.perm_ext_iff_of_nodup hLnd (hSnd.filter _)).mpr fun x => by
        simp only [List.mem_filter, decide_eq_true_eq]
        exact ⟨fun hx => ⟨hsub x hx, hx⟩, fun hx => hx.2⟩
    rw [hperm.length_eq, ← List.countP_eq_length_filter, hS, List.countP_flatMap]
    congr 1
    refine List.map_congr_left fun e he => ?_
    rw [Function.comp_apply, List.countP_map]
    refine List.countP_congr fun p _ => ?_
    rw [(hrem e he p).1]
    by_cases hx : (e.1, p) ∈ acc.2
    · simp [hx, ((hsched e he p).mp hx).1]
    · simp [hx, Option.isSome_iff_ne_none]

theorem deduplicatePoints_keeps_newest_of_two_segments :
    let env : Env := ⟨fun _ _ => 0, id, id, id, fun _ => true, fun _ => false, id, fun _ => 0,
      fun _ => "", fun _ _ => [], fun _ _ => []⟩
    let segment (version : ℕ) : Segment := ⟨some version,
      ⟨⟨[]⟩, (IdTracker.empty.setLink (.numId 1) 0).setInternalVersion 0 version, [], []⟩,
      [], [], true⟩
    let h : SegmentHeap := ⟨fun c => segment (c + 1), fun _ => [], fun _ => [], fun _ => []⟩
    let holder : SegmentHolder := ⟨[(0, .original 0), (1, .original 1)], by decide, []⟩
    holder.Plain ∧
      let r := (holder.deduplicatePoints env).run h
      r.1 = .error .panic ∧ ¬ holder.RemovesSafely h ∨ ∃ n, r.1 = .ok n ∧
        (∀ p, (∃ e ∈ holder.segments, (e.2.pointVersion h p).isSome) →
          ∃ e ∈ holder.segments,
            e.2.pointVersion r.2 p =
              (holder.segments.filterMap fun e => e.2.pointVersion h p).max? ∧
            ∀ e' ∈ holder.segments, (e'.2.pointVersion r.2 p).isSome → e' = e) ∧
        (∀ e ∈ holder.segments, ∀ p, e.2.pointVersion h p = none →
          e.2.pointVersion r.2 p = none ∧ e.2.hasPoint r.2 p = e.2.hasPoint h p) ∧
        n = (holder.segments.map fun e => ((e.2.iterPoints h).getD []).countP fun p =>
          (e.2.pointVersion h p).isSome && (e.2.pointVersion r.2 p).isNone).sum := by
  intro env segment h holder
  have hplain : holder.Plain := ⟨fun e he => by
    simp only [holder, List.mem_cons, List.not_mem_nil, or_false] at he
    rcases he with rfl | rfl <;> exact ⟨_, rfl⟩, by decide⟩
  exact ⟨hplain, SegmentHolder.deduplicatePoints_keeps_newest env holder hplain h⟩

/-- The source's own case: one id in two segments; the older copy goes, and is counted. -/
example :
    let env : Env := ⟨fun _ _ => 0, id, id, id, fun _ => true, fun _ => false, id, fun _ => 0,
      fun _ => "", fun _ _ => [], fun _ _ => []⟩
    let segment (version : ℕ) : Segment := ⟨some version,
      ⟨⟨[]⟩, (IdTracker.empty.setLink (.numId 1) 0).setInternalVersion 0 version, [], []⟩,
      [], [], true⟩
    let h : SegmentHeap := ⟨fun c => segment (c + 1), fun _ => [], fun _ => [], fun _ => []⟩
    let holder : SegmentHolder := ⟨[(0, .original 0), (1, .original 1)], by decide, []⟩
    let r := (holder.deduplicatePoints env).run h
    r.1 = .ok 1 ∧ (r.2.cells 0).pointVersion (.numId 1) = none ∧
      (r.2.cells 1).pointVersion (.numId 1) = some 2 := by
  decide

end Newest

end Qdrant
