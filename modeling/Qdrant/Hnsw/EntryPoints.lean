/-
# The entry points of an HNSW graph

`index/hnsw_index/entry_points.rs`.  A search starts from an entry point the filter accepts.
`EntryPoints` keeps a list of main entry points and a bounded queue of extra ones, ordered by
level (`Spaces/Tools.lean`).  `new_point` looks for the first main entry point the checker
accepts: if it stands at least as high as the new point, the new point becomes an extra
candidate and the old one is answered; otherwise the new point takes its place, and the old
one is answered and becomes an extra candidate.  With no accepted entry point, the new point
becomes one and the answer is `None`.

With a checker that accepts every point (the one the graph builder uses without a filter):

* `Tracks.step`: one call keeps a single main entry point at the top level seen;
* `entryPoints_track_top_level`: over any run of calls from `new`, the main entry point is one
  of the points added, at the highest level, and every call but the first answers a point
  added before it, at its own level.
-/
import Qdrant.Spaces.Tools
import Qdrant.Filter

namespace Qdrant

/-! ## 1. The model -/

/-- `EntryPoint`; the queue orders entry points by level only. -/
structure EntryPoint where
  pointId : PointOffsetType
  level : ℕ
deriving DecidableEq, Repr

/-- `EntryPoints`. -/
structure EntryPoints where
  entryPoints : List EntryPoint
  extraEntryPoints : FixedLengthPriorityQueue EntryPoint.level

namespace EntryPoints

/-- `EntryPoints::new`; `none` where the queue's assertion fails. -/
def new (extraEntryPoints : ℕ) : Option EntryPoints :=
  (FixedLengthPriorityQueue.new EntryPoint.level extraEntryPoints).map fun q => ⟨[], q⟩

/-- `merge_from_other`: the main entry points of both; the extra ones are not merged. -/
def mergeFromOther (e other : EntryPoints) : EntryPoints :=
  { e with entryPoints := e.entryPoints ++ other.entryPoints }

/-- `new_point`: the first main entry point the checker accepts decides; the new state and the
answer. -/
def newPoint (e : EntryPoints) (newPoint : PointOffsetType) (level : ℕ)
    (checker : PointOffsetType → Bool) : EntryPoints × Option EntryPoint :=
  match e.entryPoints.zipIdx.find? fun c => checker c.1.pointId with
  | some (candidate, i) =>
    if candidate.level ≥ level then
      ({ e with extraEntryPoints := (e.extraEntryPoints.push ⟨newPoint, level⟩).1 }, some candidate)
    else
      ({ entryPoints := e.entryPoints.set i ⟨newPoint, level⟩,
         extraEntryPoints := (e.extraEntryPoints.push candidate).1 }, some candidate)
  | none => ({ e with entryPoints := e.entryPoints ++ [⟨newPoint, level⟩] }, none)

/-- `get_entry_point`: the first main entry point the checker accepts, else the highest
accepted extra one (among equal levels the heap's order picks one; the model, the first of the
queue). -/
def getEntryPoint (e : EntryPoints) (checker : PointOffsetType → Bool) : Option EntryPoint :=
  (e.entryPoints.find? fun entry => checker entry.pointId).or
    ((e.extraEntryPoints.heap.filter fun entry => checker entry.pointId).argmax EntryPoint.level)

/-- `new_point` for each point in turn with one checker: the entry points and the answers. -/
def newPoints (e : EntryPoints) (checker : PointOffsetType → Bool) :
    List (PointOffsetType × ℕ) → EntryPoints × List (Option EntryPoint)
  | [] => (e, [])
  | (p, l) :: ps =>
    let r := e.newPoint p l checker
    let rest := r.1.newPoints checker ps
    (rest.1, r.2 :: rest.2)

/-- The entry point `new_point` answers is one of the main entry points before the call. -/
theorem newPoint_snd_mem {e : EntryPoints} {newPoint : PointOffsetType} {level : ℕ}
    {checker : PointOffsetType → Bool} {entryPoint : EntryPoint}
    (h : (e.newPoint newPoint level checker).2 = some entryPoint) : entryPoint ∈ e.entryPoints := by
  unfold EntryPoints.newPoint at h
  split at h
  · rename_i candidate i hfind
    have hmem : (candidate, i) ∈ e.entryPoints.zipIdx := List.mem_of_find?_eq_some hfind
    split_ifs at h <;>
    · cases h
      exact List.fst_mem_of_mem_zipIdx hmem
  · cases h

/-- After `new_point`, a main entry point was one before, or is the new point. -/
theorem mem_newPoint_fst {e : EntryPoints} {newPoint : PointOffsetType} {level : ℕ}
    {checker : PointOffsetType → Bool} {entryPoint : EntryPoint}
    (h : entryPoint ∈ (e.newPoint newPoint level checker).1.entryPoints) :
    entryPoint ∈ e.entryPoints ∨ entryPoint.pointId = newPoint := by
  unfold EntryPoints.newPoint at h
  split at h
  · split_ifs at h
    · exact .inl h
    · rcases List.mem_or_eq_of_mem_set h with hold | rfl
      · exact .inl hold
      · exact .inr rfl
  · rcases List.mem_append.mp h with hold | hnew
    · exact .inl hold
    · rw [List.mem_singleton] at hnew
      exact .inr (hnew ▸ rfl)

/-! ## 2. With a checker that accepts everything -/

/-- The main entry points after the points `added`: none before the first, then exactly one,
which is one of them at the highest level. -/
def Tracks (added : List (PointOffsetType × ℕ)) (e : EntryPoints) : Prop :=
  if added = [] then e.entryPoints = []
  else ∃ ep, e.entryPoints = [ep] ∧ (ep.pointId, ep.level) ∈ added ∧ ∀ x ∈ added, x.2 ≤ ep.level

theorem tracks_nil {e : EntryPoints} (h : e.entryPoints = []) : Tracks [] e := by
  simp [Tracks, h]

theorem Tracks.of_ne_nil {added : List (PointOffsetType × ℕ)} {e : EntryPoints}
    (h : Tracks added e) (hne : added ≠ []) :
    ∃ ep, e.entryPoints = [ep] ∧ (ep.pointId, ep.level) ∈ added ∧
      ∀ x ∈ added, x.2 ≤ ep.level := by
  simpa [Tracks, hne] using h

/-- **One call keeps the top entry point**: the new point replaces it only when it is higher;
the first call answers nothing, every other one answers a point added before. -/
theorem Tracks.step {added : List (PointOffsetType × ℕ)} {e : EntryPoints}
    (h : Tracks added e) (p : PointOffsetType) (l : ℕ) :
    Tracks (added ++ [(p, l)]) (e.newPoint p l fun _ => true).1 ∧
      ((e.newPoint p l fun _ => true).2 = none ↔ added = []) ∧
      ∀ ep ∈ (e.newPoint p l fun _ => true).2, (ep.pointId, ep.level) ∈ added := by
  by_cases hadded : added = []
  · -- no entry point yet: the new point becomes the first
    subst hadded
    have hnil : e.entryPoints = [] := by simpa [Tracks] using h
    simp [EntryPoints.newPoint, Tracks, hnil]
  · obtain ⟨ep, hep, hmem, hmax⟩ := h.of_ne_nil hadded
    have hne : added ++ [(p, l)] ≠ [] := by simp
    simp only [EntryPoints.newPoint, hep, List.zipIdx_cons, List.zipIdx_nil, List.find?_cons_of_pos,
      Tracks, hne, if_false, List.mem_append, List.mem_singleton]
    split_ifs with hlevel
    · -- the entry point stands at least as high: it stays
      refine ⟨⟨ep, rfl, .inl hmem, ?_⟩, by simp [hadded], by simpa using hmem⟩
      rintro x (hx | rfl)
      · exact hmax x hx
      · exact hlevel
    · -- the new point is higher: it takes the entry point's place
      refine ⟨⟨⟨p, l⟩, by simp, .inr rfl, ?_⟩, by simp [hadded], by simpa using hmem⟩
      rintro x (hx | rfl)
      · exact ((hmax x hx).trans (not_le.mp hlevel).le)
      · exact le_rfl

/-- A run of calls keeps the top entry point, and answers as `Tracks.step` says, call by
call; the induction is on the run, with the state and the points added so far generalised. -/
theorem Tracks.run (points : List (PointOffsetType × ℕ)) :
    ∀ {added : List (PointOffsetType × ℕ)} {e : EntryPoints}, Tracks added e →
      Tracks (added ++ points) (e.newPoints (fun _ => true) points).1 ∧
      (e.newPoints (fun _ => true) points).2.length = points.length ∧
      ∀ i (hi : i < (e.newPoints (fun _ => true) points).2.length),
        ((e.newPoints (fun _ => true) points).2[i] = none ↔ added = [] ∧ i = 0) ∧
        ∀ ep ∈ (e.newPoints (fun _ => true) points).2[i],
          (ep.pointId, ep.level) ∈ added ++ points.take i := by
  induction points with
  | nil => exact fun h => ⟨by simpa [newPoints] using h, rfl, fun i hi => absurd hi (by simp [newPoints])⟩
  | cons x ps ih =>
    intro added e h
    obtain ⟨p, l⟩ := x
    obtain ⟨hstep, hnone, hold⟩ := h.step p l
    obtain ⟨hrun, hlen, hans⟩ := ih hstep
    refine ⟨by simpa [newPoints] using hrun, by simp [newPoints, hlen], ?_⟩
    intro i hi
    cases i with
    | zero =>
      refine ⟨by simpa [newPoints] using hnone, fun ep hep => ?_⟩
      simpa using hold ep (by simpa [newPoints] using hep)
    | succ i =>
      have hi' : i < ((e.newPoint p l fun _ => true).1.newPoints (fun _ => true) ps).2.length := by
        simpa [newPoints] using hi
      obtain ⟨hn, hm⟩ := hans i hi'
      refine ⟨by simpa [newPoints] using hn, fun ep hep => ?_⟩
      have := hm ep (by simpa [newPoints] using hep)
      simpa [List.take_succ_cons] using this

/-- With some point added, the entry point found is the main one. -/
theorem Tracks.getEntryPoint_eq {added : List (PointOffsetType × ℕ)} {e : EntryPoints}
    (h : Tracks added e) (hne : added ≠ []) :
    ∃ ep, e.getEntryPoint (fun _ => true) = some ep ∧ (ep.pointId, ep.level) ∈ added ∧
      ∀ x ∈ added, x.2 ≤ ep.level := by
  obtain ⟨ep, hep, hmem, hmax⟩ := h.of_ne_nil hne
  exact ⟨ep, by simp [EntryPoints.getEntryPoint, hep], hmem, hmax⟩

end EntryPoints

/-! ## 3. The entry points track the top level -/

/-- **The entry points track the top level**: from `EntryPoints::new`, over any run of
`new_point` calls with a checker that accepts every point, there is at most one main entry
point; once a point was added, `get_entry_point` answers one of the added points at the
highest level added; and the first call answers `None`, every later one a point added before
it, with the level it was added with. -/
theorem entryPoints_track_top_level {k : ℕ} {e₀ : EntryPoints} (h₀ : EntryPoints.new k = some e₀)
    (points : List (PointOffsetType × ℕ)) :
    (e₀.newPoints (fun _ => true) points).1.entryPoints.length ≤ 1 ∧
    (points ≠ [] → ∃ ep, (e₀.newPoints (fun _ => true) points).1.getEntryPoint (fun _ => true) =
        some ep ∧ (ep.pointId, ep.level) ∈ points ∧ ∀ x ∈ points, x.2 ≤ ep.level) ∧
    (e₀.newPoints (fun _ => true) points).2.length = points.length ∧
    ∀ i (hi : i < (e₀.newPoints (fun _ => true) points).2.length),
      ((e₀.newPoints (fun _ => true) points).2[i] = none ↔ i = 0) ∧
      ∀ ep ∈ (e₀.newPoints (fun _ => true) points).2[i], (ep.pointId, ep.level) ∈ points.take i := by
  have hstart : EntryPoints.Tracks [] e₀ := by
    obtain ⟨q, -, rfl⟩ := Option.map_eq_some_iff.mp h₀
    exact EntryPoints.tracks_nil rfl
  obtain ⟨hrun, hlen, hans⟩ := EntryPoints.Tracks.run points hstart
  rw [List.nil_append] at hrun
  refine ⟨?_, fun hne => hrun.getEntryPoint_eq hne, hlen, fun i hi => ?_⟩
  · by_cases hne : points = []
    · subst hne
      have hnil : (e₀.newPoints (fun _ => true) []).1.entryPoints = [] := by
        simpa [EntryPoints.Tracks] using hrun
      simp [hnil]
    · obtain ⟨ep, hep, -⟩ := hrun.of_ne_nil hne
      simp [hep]
  · obtain ⟨hn, hm⟩ := hans i hi
    exact ⟨by simpa using hn, by simpa using hm⟩

theorem entryPoints_track_top_level_of_three :
    EntryPoints.new 2 = some ⟨[], ⟨[], 2, .nil, Nat.zero_le _, two_pos⟩⟩ ∧
    ((EntryPoints.newPoints ⟨[], ⟨[], 2, .nil, Nat.zero_le _, two_pos⟩⟩ (fun _ => true)
        [(0, 1), (1, 3), (2, 2)]).1.entryPoints.length ≤ 1 ∧
    ([(0, 1), (1, 3), (2, 2)] ≠ [] → ∃ ep, (EntryPoints.newPoints ⟨[], ⟨[], 2, .nil, Nat.zero_le _,
        two_pos⟩⟩ (fun _ => true) [(0, 1), (1, 3), (2, 2)]).1.getEntryPoint (fun _ => true) =
        some ep ∧ (ep.pointId, ep.level) ∈ [(0, 1), (1, 3), (2, 2)] ∧
        ∀ x ∈ [(0, 1), (1, 3), (2, 2)], x.2 ≤ ep.level) ∧
    (EntryPoints.newPoints ⟨[], ⟨[], 2, .nil, Nat.zero_le _, two_pos⟩⟩ (fun _ => true)
        [(0, 1), (1, 3), (2, 2)]).2.length = [(0, 1), (1, 3), (2, 2)].length ∧
    ∀ i (hi : i < (EntryPoints.newPoints ⟨[], ⟨[], 2, .nil, Nat.zero_le _, two_pos⟩⟩
        (fun _ => true) [(0, 1), (1, 3), (2, 2)]).2.length),
      ((EntryPoints.newPoints ⟨[], ⟨[], 2, .nil, Nat.zero_le _, two_pos⟩⟩ (fun _ => true)
        [(0, 1), (1, 3), (2, 2)]).2[i] = none ↔ i = 0) ∧
      ∀ ep ∈ (EntryPoints.newPoints ⟨[], ⟨[], 2, .nil, Nat.zero_le _, two_pos⟩⟩ (fun _ => true)
        [(0, 1), (1, 3), (2, 2)]).2[i], (ep.pointId, ep.level) ∈ [(0, 1), (1, 3), (2, 2)].take i) :=
  ⟨rfl, entryPoints_track_top_level (k := 2) rfl [(0, 1), (1, 3), (2, 2)]⟩

end Qdrant
