/-
# The visited list and its pool

`index/visited_pool.rs`.  A `VisitedList` stamps a point with the current iteration when it is
visited.  `next_iteration` starts a new iteration without clearing the stamps: a stamp of an
earlier iteration is below the current one and reads as not visited.  The list grows with
zero stamps when a point past its end is visited.  What it is for is a set of points that
`next_iteration` empties (`VisitedSet`).

* `VisitedList.simulates_visitedSet`: a list and the set of the points it reads as visited
  answer every call alike, and stay so after it;
* `VisitedSet.run_empty_fst`: from the empty set, a run of calls leaves the points passed to
  `check_and_update_visited` since the last `next_iteration`;
* `VisitedList.run_answers_since_last_iteration`: a list from `new` answers each call of any
  run by whether its point was passed to `check_and_update_visited` since the last
  `next_iteration`, and its stamps never pass the current iteration;
* `VisitedPool.get_answers_since_last_iteration`: so does every list the pool hands out, new or
  taken back.

The counters are `usize` in the source and `ℕ` here: the current iteration of one list would
wrap only after `2^64 - 1` calls of `next_iteration`.
-/
import Qdrant.Lib.Mealy
import Qdrant.Filter

namespace Qdrant

/-! ## 1. The model -/

/-- `VisitedList`: the current iteration, and the iteration each point was last visited in;
no point is stamped past the current iteration. -/
structure VisitedList where
  currentIter : ℕ
  visitCounters : List ℕ
  counters_le : ∀ c ∈ visitCounters, c ≤ currentIter

namespace VisitedList

/-- `VisitedList::new`. -/
def new (numPoints : ℕ) : VisitedList :=
  ⟨1, List.replicate numPoints 0, fun c hc => by rw [List.eq_of_mem_replicate hc]; omega⟩

/-- `check`: visited in the current iteration; a point past the counters is not. -/
def check (v : VisitedList) (pointId : PointOffsetType) : Bool :=
  v.visitCounters[pointId]?.any (· ≥ v.currentIter)

/-- The counters grown with zeros up to the index `idx`. -/
def resized (v : VisitedList) (idx : ℕ) : List ℕ :=
  if idx ≥ v.visitCounters.length then
    v.visitCounters ++ List.replicate (idx + 1 - v.visitCounters.length) 0
  else v.visitCounters

theorem resized_le (v : VisitedList) (idx : ℕ) :
    ∀ c ∈ v.resized idx, c ≤ v.currentIter := by
  intro c hc
  unfold resized at hc
  split_ifs at hc
  · rcases List.mem_append.mp hc with hc | hc
    · exact v.counters_le c hc
    · rw [List.eq_of_mem_replicate hc]
      exact Nat.zero_le _
  · exact v.counters_le c hc

/-- `check_and_update_visited`: the list with `pointId` stamped, and whether it was visited. -/
def checkAndUpdateVisited (v : VisitedList) (pointId : PointOffsetType) : VisitedList × Bool :=
  let idx : ℕ := pointId
  let visitCounters := v.resized idx
  let prevValue := visitCounters.getD idx 0
  (⟨v.currentIter, visitCounters.set idx v.currentIter, fun c hc =>
      (List.mem_or_eq_of_mem_set hc).elim (v.resized_le idx c) (fun h => h.le)⟩,
    prevValue ≥ v.currentIter)

/-- `next_iteration`. -/
def nextIteration (v : VisitedList) : VisitedList :=
  ⟨v.currentIter + 1, v.visitCounters, fun c hc => (v.counters_le c hc).trans (Nat.le_succ _)⟩

/-- A point is visited when its stamp is the current iteration. -/
def IsVisited (v : VisitedList) (x : ℕ) : Prop :=
  v.currentIter ≤ v.visitCounters.getD x 0

theorem getD_resized (v : VisitedList) (idx y : ℕ) :
    (v.resized idx).getD y 0 = v.visitCounters.getD y 0 := by
  unfold resized
  split_ifs
  · simp only [List.getD_eq_getElem?_getD, List.getElem?_append, List.getElem?_replicate]
    split_ifs <;> simp_all
  · rfl

theorem not_isVisited_nextIteration (v : VisitedList) (x : ℕ) :
    ¬ v.nextIteration.IsVisited x := by
  unfold IsVisited nextIteration
  dsimp only
  have hle : v.visitCounters.getD x 0 ≤ v.currentIter := by
    rw [List.getD_eq_getElem?_getD]
    cases h : v.visitCounters[x]? with
    | none => exact Nat.zero_le _
    | some c => exact v.counters_le c (List.mem_of_getElem? h)
  omega

theorem checkAndUpdateVisited_snd (v : VisitedList) (x : ℕ) :
    (v.checkAndUpdateVisited x).2 = true ↔ v.IsVisited x := by
  simp only [checkAndUpdateVisited, IsVisited, getD_resized, decide_eq_true_eq, ge_iff_le]

theorem isVisited_checkAndUpdateVisited (v : VisitedList) (x y : ℕ) :
    (v.checkAndUpdateVisited x).1.IsVisited y ↔ y = x ∨ v.IsVisited y := by
  have hlen : x < (v.resized x).length := by
    unfold resized
    split_ifs with h
    · rw [List.length_append, List.length_replicate]
      omega
    · omega
  unfold IsVisited checkAndUpdateVisited
  dsimp only
  rw [List.getD_eq_getElem?_getD, List.getElem?_set]
  by_cases hxy : x = y
  · subst hxy
    simp [hlen]
  · rw [if_neg hxy, ← List.getD_eq_getElem?_getD, getD_resized]
    exact ⟨Or.inr, fun h => h.resolve_left (Ne.symm hxy)⟩

/-- `check` reads a stamp as `IsVisited` does, once the first iteration has started; a point
past the counters is then not visited. -/
theorem check_eq_true_iff (v : VisitedList) (hiter : 1 ≤ v.currentIter) (x : ℕ) :
    v.check x = true ↔ v.IsVisited x := by
  unfold check IsVisited
  rw [List.getD_eq_getElem?_getD]
  cases hx : v.visitCounters[x]? with
  | none =>
    simp only [Option.any_none, Option.getD_none, Bool.false_eq_true, false_iff]
    omega
  | some c => simp

end VisitedList

/-- `VisitedPool`: lists kept for reuse. -/
structure VisitedPool where
  pool : List VisitedList

/-- `POOL_KEEP_LIMIT`. -/
def poolKeepLimit : ℕ := 16

/-- `VisitedPool::get`: the last list kept, in a new iteration, or a new one. -/
def VisitedPool.get (p : VisitedPool) (numPoints : ℕ) : VisitedList × VisitedPool :=
  match p.pool.getLast? with
  | none => (VisitedList.new numPoints, p)
  | some vl => (vl.nextIteration, ⟨p.pool.dropLast⟩)

/-- `return_back`. -/
def VisitedPool.returnBack (p : VisitedPool) (visitedList : VisitedList) : VisitedPool :=
  if p.pool.length < poolKeepLimit then ⟨p.pool ++ [visitedList]⟩ else p


/-! ## 2. Calls, and the set a list stands for -/

/-- A call on a visited list. -/
inductive VisitedCall where
  | checkAndUpdateVisited (pointId : PointOffsetType)
  | check (pointId : PointOffsetType)
  | nextIteration
deriving DecidableEq, Repr

/-- One call: the list after it and what it returns; `next_iteration` returns nothing. -/
def VisitedList.call (v : VisitedList) : VisitedCall → VisitedList × Option Bool
  | .checkAndUpdateVisited pointId =>
    ((v.checkAndUpdateVisited pointId).1, some (v.checkAndUpdateVisited pointId).2)
  | .check pointId => (v, some (v.check pointId))
  | .nextIteration => (v.nextIteration, none)

/-- The set of points a visited list is for: `check_and_update_visited` adds its point and
says whether it was there, `check` says whether it is there, `next_iteration` empties it. -/
def VisitedSet.call (S : Finset PointOffsetType) : VisitedCall → Finset PointOffsetType × Option Bool
  | .checkAndUpdateVisited pointId => (insert pointId S, some (decide (pointId ∈ S)))
  | .check pointId => (S, some (decide (pointId ∈ S)))
  | .nextIteration => (∅, none)

namespace VisitedList

/-- A list stands for a set when it is past its first iteration's start and reads exactly
the set's points as visited. -/
def StandsFor (v : VisitedList) (S : Finset PointOffsetType) : Prop :=
  1 ≤ v.currentIter ∧ ∀ x, v.IsVisited x ↔ x ∈ S

/-- A call keeps a list and its set together and answers as the set does. -/
theorem simulates_visitedSet : Mealy.IsSimulation StandsFor call VisitedSet.call := by
  rintro v S c ⟨hiter, hS⟩
  cases c with
  | checkAndUpdateVisited x =>
    refine ⟨⟨hiter, fun y => ?_⟩, ?_⟩
    · rw [call, VisitedSet.call, isVisited_checkAndUpdateVisited, hS, Finset.mem_insert]
    · rw [call, VisitedSet.call, Option.some.injEq, Bool.eq_iff_iff, checkAndUpdateVisited_snd,
        hS, decide_eq_true_iff]
  | check x =>
    refine ⟨⟨hiter, hS⟩, ?_⟩
    rw [call, VisitedSet.call, Option.some.injEq, Bool.eq_iff_iff, check_eq_true_iff v hiter,
      hS, decide_eq_true_iff]
  | nextIteration =>
    refine ⟨⟨Nat.le_succ_of_le hiter, fun y => ?_⟩, rfl⟩
    rw [call, VisitedSet.call]
    exact iff_of_false (not_isVisited_nextIteration v y) (Finset.notMem_empty y)

/-- `check_and_update_visited` on a list that stands for a set: the list then stands for the
set with the point, and the answer is whether the point was in the set. -/
theorem StandsFor.checkAndUpdateVisited {v : VisitedList} {S : Finset PointOffsetType}
    (h : v.StandsFor S) (x : PointOffsetType) :
    (v.checkAndUpdateVisited x).1.StandsFor (insert x S) ∧
      (v.checkAndUpdateVisited x).2 = decide (x ∈ S) := by
  obtain ⟨hstands, hanswer⟩ := simulates_visitedSet v S (.checkAndUpdateVisited x) h
  exact ⟨hstands, Option.some.inj hanswer⟩

theorem StandsFor.check {v : VisitedList} {S : Finset PointOffsetType} (h : v.StandsFor S)
    (x : PointOffsetType) : v.check x = decide (x ∈ S) :=
  Option.some.inj (simulates_visitedSet v S (.check x) h).2

/-- A new list stands for the empty set. -/
theorem new_standsFor_empty (numPoints : ℕ) : (new numPoints).StandsFor ∅ := by
  refine ⟨le_refl 1, fun x => iff_of_false ?_ (Finset.notMem_empty x)⟩
  have hzero : (List.replicate numPoints 0).getD x 0 = 0 := by
    rw [List.getD_eq_getElem?_getD, List.getElem?_replicate]
    split <;> rfl
  show ¬ 1 ≤ (List.replicate numPoints 0).getD x 0
  omega

end VisitedList

/-- So does every list the pool hands out: a list taken back starts a new iteration. -/
theorem VisitedPool.get_standsFor_empty (p : VisitedPool) (numPoints : ℕ) :
    (p.get numPoints).1.StandsFor ∅ := by
  unfold VisitedPool.get
  cases p.pool.getLast? with
  | none => exact VisitedList.new_standsFor_empty numPoints
  | some vl =>
    exact ⟨Nat.le_add_left 1 _, fun x =>
      iff_of_false (VisitedList.not_isVisited_nextIteration vl x) (Finset.notMem_empty x)⟩

/-! ## 3. The specification by the history of calls -/

/-- The point a call stamps: `check_and_update_visited` stamps its own, the others none. -/
def VisitedCall.visitedPoint : VisitedCall → Option PointOffsetType
  | .checkAndUpdateVisited pointId => some pointId
  | .check _ => none
  | .nextIteration => none

/-- The points passed to `check_and_update_visited` since the last `next_iteration` of a
history of calls, the newest first. -/
def sinceLastIteration (history : List VisitedCall) : List PointOffsetType :=
  (history.reverse.takeWhile (· != .nextIteration)).filterMap VisitedCall.visitedPoint

/-- What a call answers after a history: whether its point was passed to
`check_and_update_visited` since the last `next_iteration`; `next_iteration` answers nothing. -/
def VisitedCall.expected (history : List VisitedCall) : VisitedCall → Option Bool
  | .checkAndUpdateVisited pointId => some (decide (pointId ∈ sinceLastIteration history))
  | .check pointId => some (decide (pointId ∈ sinceLastIteration history))
  | .nextIteration => none

@[simp] theorem sinceLastIteration_nil : sinceLastIteration [] = [] := rfl

@[simp] theorem sinceLastIteration_concat_checkAndUpdateVisited (history : List VisitedCall)
    (pointId : PointOffsetType) :
    sinceLastIteration (history ++ [.checkAndUpdateVisited pointId]) =
      pointId :: sinceLastIteration history := by
  simp [sinceLastIteration, VisitedCall.visitedPoint]

@[simp] theorem sinceLastIteration_concat_check (history : List VisitedCall)
    (pointId : PointOffsetType) :
    sinceLastIteration (history ++ [.check pointId]) = sinceLastIteration history := by
  simp [sinceLastIteration, VisitedCall.visitedPoint, List.filterMap_cons]

@[simp] theorem sinceLastIteration_concat_nextIteration (history : List VisitedCall) :
    sinceLastIteration (history ++ [.nextIteration]) = [] := by
  simp [sinceLastIteration]

/-- From the empty set, a run of calls leaves the points passed to `check_and_update_visited`
since the last `next_iteration`. -/
theorem VisitedSet.run_empty_fst (history : List VisitedCall) :
    (Mealy.run VisitedSet.call ∅ history).1 = (sinceLastIteration history).toFinset := by
  induction history using List.reverseRecOn with
  | nil => rfl
  | append_singleton history c ih =>
    rw [Mealy.run_concat_fst, ih]
    cases c with
    | checkAndUpdateVisited x => simp [VisitedSet.call]
    | check x => simp [VisitedSet.call]
    | nextIteration => simp [VisitedSet.call]

/-- The set, from empty, answers each call as the history before it says. -/
theorem VisitedSet.run_empty_snd (calls : List VisitedCall) :
    (Mealy.run VisitedSet.call ∅ calls).2 = calls.mapIdx fun k c => c.expected (calls.take k) := by
  rw [Mealy.run_snd_eq_mapIdx]
  congr 1
  funext k c
  rw [VisitedSet.run_empty_fst]
  cases c with
  | checkAndUpdateVisited x => simp [VisitedSet.call, VisitedCall.expected]
  | check x => simp [VisitedSet.call, VisitedCall.expected]
  | nextIteration => rfl

/-! ## 4. Every list answers as its history says -/

/-- A list that stands for the empty set answers each call of any run as the history before
the call says. -/
theorem VisitedList.run_answers_of_standsFor_empty {v : VisitedList} (hv : v.StandsFor ∅)
    (calls : List VisitedCall) :
    (Mealy.run VisitedList.call v calls).2 = calls.mapIdx fun k c => c.expected (calls.take k) := by
  rw [(VisitedList.simulates_visitedSet.run hv calls).2, VisitedSet.run_empty_snd]

theorem VisitedList.run_answers_since_last_iteration (numPoints : ℕ) (calls : List VisitedCall) :
    (Mealy.run VisitedList.call (VisitedList.new numPoints) calls).2 =
        calls.mapIdx (fun k c => c.expected (calls.take k)) ∧
      ∀ c ∈ (Mealy.run VisitedList.call (VisitedList.new numPoints) calls).1.visitCounters,
        c ≤ (Mealy.run VisitedList.call (VisitedList.new numPoints) calls).1.currentIter :=
  ⟨VisitedList.run_answers_of_standsFor_empty (VisitedList.new_standsFor_empty numPoints) calls,
    (Mealy.run VisitedList.call (VisitedList.new numPoints) calls).1.counters_le⟩

example : (Mealy.run VisitedList.call (VisitedList.new 2)
    [.checkAndUpdateVisited 5, .check 5, .nextIteration, .check 5, .checkAndUpdateVisited 5]).2 =
      [some false, some true, none, some false, some false] := by decide

theorem VisitedPool.get_answers_since_last_iteration (p : VisitedPool) (numPoints : ℕ)
    (calls : List VisitedCall) :
    (Mealy.run VisitedList.call (p.get numPoints).1 calls).2 =
      calls.mapIdx fun k c => c.expected (calls.take k) :=
  VisitedList.run_answers_of_standsFor_empty (VisitedPool.get_standsFor_empty p numPoints) calls

end Qdrant
