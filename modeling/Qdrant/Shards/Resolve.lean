/-
# Resolving the responses of replicas by agreement

`Resolve::resolve` (`shards/resolve.rs`) merges what the replicas of a shard answered to one
read.  `Resolver` gathers the items of all responses by id (`add_all`, `add`): the items of one
id are kept as records, one per group of equal items (`record_eq`, `scored_point_eq`), each
with the place `(row, index)` of an item of the group and the number of its items.  An id is
accepted when one of its records reaches the resolution count (`n` responses for
`ResolveCondition::All`, `n / 2 + 1` for `Majority`), and the items at the accepted places
are returned: the first response itself when the accepted places are all of it
(`is_consistent`), else the items at those places, response by response.  Records are then
sorted by id; batches of points are first transposed to the responses of each request, and
the result of each request is sorted by score.

The argument has two halves.

* **The tally** (`Tallies`): after any prefix of the places, the records of an id are its
  groups of equal items, each counted exactly, each at the place of one of its items.  This
  needs `compare` to be an equivalence on the items (`EquivOn`).
* **The threshold**: a response holds at most one item of an id, so the groups of one id
  share at most `n` responses, and two of them cannot both reach a count `k` with
  `n < 2 * k` (`compare_of_le_agreement`).

Hence `resolve_resolves`: the result holds one item of each id on which `k` responses agree,
one of the agreeing items, and nothing else (`Resolves`); this does not depend on the order of
the responses.  The shortcut returns what the general path returns, on every input
(`resolve_eq_filterResolved`).  For batches of points the order of the responses still shows
in the order of points of equal score (`resolveBatches_order_of_equal_scores`).

The `HashMap` and the `HashSet` are an association list (`Grouping.modifyEntry`) and a list
without repeats; nothing depends on their order.  The vectors of a record are kept by name,
as in `Record`.
-/
import Qdrant.Collection.SegmentSearch
import Qdrant.Shards.ReadConsistency
import Qdrant.Lib.Grouping
import Qdrant.Lib.Count

namespace Qdrant

/-! ## 1. Equal items -/

/-- `payload_eq`: a missing payload equals an empty one. -/
def payloadEq : Option Payload → Option Payload → Bool
  | some payload, none | none, some payload => payload.map.isEmpty
  | some this, some other => this.jsonEq other
  | none, none => true

/-- `record_eq`. -/
def recordEq (this other : Record) : Bool :=
  this.id == other.id && this.vector == other.vector && payloadEq this.payload other.payload

/-- `scored_point_eq`. -/
def scoredPointEq (this other : ScoredPoint) : Bool :=
  this.id == other.id && this.score == other.score && this.vector == other.vector &&
    payloadEq this.payload other.payload

/-- `resolution_count`: how many of `n` responses must agree. -/
def ResolveCondition.resolutionCount (condition : ResolveCondition) (n : ℕ) : ℕ :=
  match condition with
  | .all => n
  | .majority => n / 2 + 1

/-! ## 2. `Resolver` -/

/-- `ResolverRecord`: an item of a group of equal items, its place, and the size of the group.
The source keeps the item in an `Option` for `Default` only; every record it builds holds
one. -/
structure ResolverRecord (Item : Type) where
  item : Item
  row : ℕ
  index : ℕ
  count : ℕ

namespace Resolver

variable {Item Id : Type} [DecidableEq Id]

/-- The loop of `add` over the records of the item's id: the first record equal to `item`
counts it, and without one a record of `item` is pushed. -/
def addRecord (compare : Item → Item → Bool) (item : Item) (row index : ℕ) :
    List (ResolverRecord Item) → List (ResolverRecord Item)
  | [] => [⟨item, row, index, 1⟩]
  | point :: points =>
    if compare item point.item then { point with count := point.count + 1 } :: points
    else point :: addRecord compare item row index points

/-- `add`: the entry of `id`, created empty (`or_default`), then the loop. -/
def add (compare : Item → Item → Bool) (items : List (Id × List (ResolverRecord Item)))
    (id : Id) (item : Item) (row index : ℕ) : List (Id × List (ResolverRecord Item)) :=
  Grouping.modifyEntry id [] (addRecord compare item row index) items

/-- The items of the responses with their places `(row, index)`, response by response: the
two `enumerate`s of `add_all` and of the filtering path. -/
def places (items : List (List Item)) : List (ℕ × ℕ × Item) :=
  items.zipIdx.flatMap fun e => e.1.zipIdx.map fun f => (e.2, f.2, f.1)

/-- `add_all`. -/
def addAll (identify : Item → Id) (compare : Item → Item → Bool) (items : List (List Item)) :
    List (Id × List (ResolverRecord Item)) :=
  (places items).foldl (fun resolver p => add compare resolver (identify p.2.2) p.2.2 p.1 p.2.1) []

/-- The places of the accepted items (`resolved_items`): of each id, the first record that
reaches the count. -/
def selectCoordinates (resolver : List (Id × List (ResolverRecord Item)))
    (resolutionCount : ℕ) : List (ℕ × ℕ) :=
  (resolver.filterMap fun e =>
    (e.2.find? fun point => resolutionCount ≤ point.count).map fun point =>
      (point.row, point.index)).dedup

/-- `is_consistent`: as many accepted places as the first response has items, all in it. -/
def isConsistent (items : List (List Item)) (resolvedItems : List (ℕ × ℕ)) : Bool :=
  resolvedItems.length == (items.head?.map List.length).getD 0 &&
    resolvedItems.all fun c => c.1 == 0

/-- The general path: the items at the accepted places, response by response. -/
def filterResolved (items : List (List Item)) (resolvedItems : List (ℕ × ℕ)) : List Item :=
  (places items).filterMap fun p => if (p.1, p.2.1) ∈ resolvedItems then some p.2.2 else none

/-- `Resolver::resolve`. -/
def resolve (identify : Item → Id) (compare : Item → Item → Bool) (items : List (List Item))
    (condition : ResolveCondition) : List Item :=
  let resolvedItems :=
    selectCoordinates (addAll identify compare items) (condition.resolutionCount items.length)
  if isConsistent items resolvedItems then items.head?.getD []
  else filterResolved items resolvedItems

end Resolver

/-! ## 3. The two `Resolve` impls -/

/-- `transpose`: the `j`-th list holds the `j`-th item of each list that has one, for `j`
below the length of the first list. -/
def transpose {T : Type} : List (List T) → List (List T)
  | [] => []
  | first :: rest =>
    (List.range first.length).map fun j => (first :: rest).filterMap fun row => row[j]?

/-- What `sort_unstable` and `sort_unstable_by_key` promise: a permutation of the input,
ordered by `le`.  Which of several items with equal keys comes first is not promised. -/
structure SortsBy {α : Type} (sort : List α → List α) (le : α → α → Prop) : Prop where
  perm : ∀ xs, (sort xs).Perm xs
  sorted : ∀ xs, (sort xs).Pairwise le

/-- `Resolve for Vec<Record>`. -/
def resolveRecords (sortUnstableByKey : (Record → ExtendedPointId) → List Record → List Record)
    (records : List (List Record)) (condition : ResolveCondition) : List Record :=
  sortUnstableByKey Record.id (Resolver.resolve Record.id recordEq records condition)

/-- `Resolve for Vec<Vec<ScoredPoint>>`: the batches of each response, one per request, are
transposed to the responses of each request. -/
def resolveBatches (sortUnstable : List ScoredPoint → List ScoredPoint)
    (batches : List (List (List ScoredPoint))) (condition : ResolveCondition) :
    List (List ScoredPoint) :=
  (transpose batches).map fun points =>
    sortUnstable (Resolver.resolve ScoredPoint.id scoredPointEq points condition)

/-! ## 4. The abstract resolution -/

section Spec

variable {Item Id : Type} [DecidableEq Id]

/-- `compare` is an equivalence relation on the items `univ`. -/
structure EquivOn (compare : Item → Item → Bool) (univ : List Item) : Prop where
  refl : ∀ a ∈ univ, compare a a
  symm : ∀ a ∈ univ, ∀ b ∈ univ, compare a b → compare b a
  trans : ∀ a ∈ univ, ∀ b ∈ univ, ∀ c ∈ univ, compare a b → compare b c → compare a c

/-- How many responses hold an item of `a`'s id that is equal to `a`. -/
def agreement (identify : Item → Id) (compare : Item → Item → Bool) (items : List (List Item))
    (a : Item) : ℕ :=
  items.countP fun row => row.any fun b => identify b = identify a && compare b a

/-- `result` resolves `items` by the agreement of `k` responses: it holds one item of each id
on which `k` responses agree, an item they agree on, and no item of any other id. -/
structure Resolves (identify : Item → Id) (compare : Item → Item → Bool)
    (items : List (List Item)) (k : ℕ) (result : List Item) : Prop where
  nodup : (result.map identify).Nodup
  sound : ∀ a ∈ result, a ∈ items.flatten ∧ k ≤ agreement identify compare items a
  complete : ∀ a ∈ items.flatten, k ≤ agreement identify compare items a →
    ∃ b ∈ result, identify b = identify a ∧ compare b a

end Spec

/-! ## 5. Places -/

namespace Resolver

variable {Item Id : Type} [DecidableEq Id]

theorem mem_places {items : List (List Item)} {p : ℕ × ℕ × Item} :
    p ∈ places items ↔ ∃ rowItems, items[p.1]? = some rowItems ∧ rowItems[p.2.1]? = some p.2.2 := by
  obtain ⟨row, index, item⟩ := p
  simp only [places, List.mem_flatMap, List.mem_map, List.mem_zipIdx_iff_getElem?]
  constructor
  · rintro ⟨⟨rowItems, r⟩, hrow, ⟨a, i⟩, hi, heq⟩
    simp only [Prod.mk.injEq] at heq
    obtain ⟨rfl, rfl, rfl⟩ := heq
    exact ⟨rowItems, hrow, hi⟩
  · rintro ⟨rowItems, hrow, hi⟩
    exact ⟨(rowItems, row), hrow, (item, index), hi, rfl⟩

/-- A place holds one item. -/
theorem eq_of_mem_places {items : List (List Item)} {row index : ℕ} {a b : Item}
    (ha : (row, index, a) ∈ places items) (hb : (row, index, b) ∈ places items) : a = b := by
  obtain ⟨rowA, hrowA, hia⟩ := mem_places.mp ha
  obtain ⟨rowB, hrowB, hib⟩ := mem_places.mp hb
  rw [hrowA, Option.some.injEq] at hrowB
  subst hrowB
  exact Option.some.inj (hia.symm.trans hib)

theorem eq_of_coordinates_eq {items : List (List Item)} {p q : ℕ × ℕ × Item}
    (hp : p ∈ places items) (hq : q ∈ places items) (hpq : (p.1, p.2.1) = (q.1, q.2.1)) :
    p = q := by
  obtain ⟨row, index, a⟩ := p
  obtain ⟨row', index', b⟩ := q
  simp only [Prod.mk.injEq] at hpq
  obtain ⟨rfl, rfl⟩ := hpq
  rw [eq_of_mem_places hp hq]

@[simp] theorem map_item_places (items : List (List Item)) :
    (places items).map (fun p => p.2.2) = items.flatten := by
  rw [places, List.map_flatMap]
  have hrow : ∀ e : List Item × ℕ,
      ((e.1.zipIdx.map fun f => (e.2, f.2, f.1)).map fun p => p.2.2) = e.1 := by
    intro e
    rw [List.map_map]
    exact List.zipIdx_map_fst 0 e.1
  simp only [hrow]
  rw [List.flatMap_def, show (fun e : List Item × ℕ => e.1) = Prod.fst from rfl,
    List.zipIdx_map_fst]

theorem mem_flatten_of_mem_places {items : List (List Item)} {p : ℕ × ℕ × Item}
    (hp : p ∈ places items) : p.2.2 ∈ items.flatten := by
  rw [← map_item_places]
  exact List.mem_map_of_mem hp

theorem exists_mem_places {items : List (List Item)} {a : Item} (ha : a ∈ items.flatten) :
    ∃ p ∈ places items, p.2.2 = a := by
  rwa [← map_item_places, List.mem_map] at ha

/-- A test of the items counts the same over the places as over the items. -/
theorem countP_places (items : List (List Item)) (q : Item → Bool) :
    (places items).countP (fun p => q p.2.2) = items.flatten.countP q := by
  rw [← map_item_places, List.countP_map]
  rfl

/-- Places differ in their coordinates. -/
theorem nodup_coordinates_places (items : List (List Item)) :
    ((places items).map fun p => (p.1, p.2.1)).Nodup := by
  rw [places, List.map_flatMap, List.nodup_flatMap]
  constructor
  · -- within a response, the indices of `zipIdx`
    intro e _
    have hidx : (e.1.zipIdx.map Prod.snd).Nodup := by
      rw [List.zipIdx_map_snd]
      exact List.nodup_range'
    have hrow : ((e.1.zipIdx.map fun f => (e.2, f.2, f.1)).map fun p => (p.1, p.2.1)) =
        (e.1.zipIdx.map Prod.snd).map fun i => (e.2, i) := by
      rw [List.map_map, List.map_map]
      rfl
    rw [hrow]
    exact hidx.map fun i j hij => (Prod.mk.inj hij).2
  · -- across responses, the rows of `zipIdx`
    have hrows : (items.zipIdx.map Prod.snd).Nodup := by
      rw [List.zipIdx_map_snd]
      exact List.nodup_range'
    rw [List.Nodup, List.pairwise_map] at hrows
    refine hrows.imp fun {e e'} hne => List.disjoint_left.mpr ?_
    simp only [List.map_map, List.mem_map, Function.comp_apply, not_exists, not_and]
    rintro _ ⟨f, _, rfl⟩ f' _ hf'
    exact hne (Prod.mk.inj hf').1.symm

theorem nodup_places (items : List (List Item)) : (places items).Nodup :=
  (nodup_coordinates_places items).of_map _

/-! ## 6. The tally of one id -/

section Tally

variable {compare : Item → Item → Bool} {item : Item} {row index : ℕ}
  {points : List (ResolverRecord Item)}

/-- A property of the records that counting keeps, and that the new record has. -/
theorem forall_mem_addRecord {P : ResolverRecord Item → Prop} (hP : ∀ point ∈ points, P point)
    (hbump : ∀ point ∈ points, P { point with count := point.count + 1 })
    (hnew : P ⟨item, row, index, 1⟩) :
    ∀ point ∈ addRecord compare item row index points, P point := by
  induction points with
  | nil => simpa [addRecord] using hnew
  | cons q qs ih =>
    intro point hpoint
    unfold addRecord at hpoint
    split_ifs at hpoint with hq
    · rcases List.mem_cons.mp hpoint with rfl | hrest
      · exact hbump q List.mem_cons_self
      · exact hP point (List.mem_cons_of_mem q hrest)
    · rcases List.mem_cons.mp hpoint with rfl | hrest
      · exact hP _ List.mem_cons_self
      · exact ih (fun p hp => hP p (List.mem_cons_of_mem q hp))
          (fun p hp => hbump p (List.mem_cons_of_mem q hp)) point hrest

/-- No record is equal to the item: it gets a record of its own, at the end. -/
theorem addRecord_of_forall_not (h : ∀ point ∈ points, compare item point.item = false) :
    addRecord compare item row index points = points ++ [⟨item, row, index, 1⟩] := by
  induction points with
  | nil => rfl
  | cons q qs ih =>
    rw [addRecord, if_neg (by simp [h q List.mem_cons_self]),
      ih fun p hp => h p (List.mem_cons_of_mem q hp), List.cons_append]

/-- One record is equal to the item: it counts it. -/
theorem addRecord_of_unique
    (hone : points.Pairwise fun a b => ¬ (compare item a.item ∧ compare item b.item))
    (hex : ∃ point ∈ points, compare item point.item) :
    addRecord compare item row index points = points.map fun point =>
      if compare item point.item then { point with count := point.count + 1 } else point := by
  induction points with
  | nil => simp at hex
  | cons q qs ih =>
    rw [List.pairwise_cons] at hone
    by_cases hq : compare item q.item
    · -- the records after it are not equal to the item
      have hrest : ∀ p ∈ qs, compare item p.item = false := fun p hp => by
        simpa [hq] using hone.1 p hp
      rw [addRecord, if_pos hq, List.map_cons, if_pos hq, List.cons.injEq]
      refine ⟨rfl, ?_⟩
      conv_lhs => rw [← List.map_id' qs]
      exact List.map_congr_left fun p hp => by rw [if_neg (by simp [hrest p hp])]
    · obtain ⟨p, hp, hpi⟩ := hex
      have hp' : p ∈ qs := by
        rcases List.mem_cons.mp hp with rfl | hp'
        · exact absurd hpi hq
        · exact hp'
      rw [addRecord, if_neg hq, List.map_cons, if_neg hq, ih hone.2 ⟨p, hp', hpi⟩]

/-- The records of one id tally its places `ps`: one record for each group of equal items,
at the place of one of them, counting the group. -/
structure Tallies (compare : Item → Item → Bool) (ps : List (ℕ × ℕ × Item))
    (points : List (ResolverRecord Item)) : Prop where
  mem : ∀ point ∈ points, (point.row, point.index, point.item) ∈ ps
  count : ∀ point ∈ points, point.count = ps.countP fun p => compare p.2.2 point.item
  cover : ∀ p ∈ ps, ∃ point ∈ points, compare p.2.2 point.item
  distinct : points.Pairwise fun a b => compare a.item b.item = false

theorem Tallies.nil : Tallies compare [] ([] : List (ResolverRecord Item)) :=
  ⟨by simp, by simp, by simp, List.Pairwise.nil⟩

variable {univ : List Item}

/-- **Tally step**: `add` keeps the tally, for an equivalence. -/
theorem Tallies.step {ps : List (ℕ × ℕ × Item)} (hequiv : EquivOn compare univ)
    (hps : ∀ p ∈ ps, p.2.2 ∈ univ) (hitem : item ∈ univ) (h : Tallies compare ps points) :
    Tallies compare (ps ++ [(row, index, item)]) (addRecord compare item row index points) := by
  have hmem : ∀ point ∈ points, point.item ∈ univ := fun point hp => hps _ (h.mem point hp)
  by_cases hex : ∃ point ∈ points, compare item point.item
  · -- the item joins the group of the one record equal to it
    obtain ⟨r, hr, hir⟩ := hex
    have hone : points.Pairwise fun a b => ¬ (compare item a.item ∧ compare item b.item) := by
      refine h.distinct.imp_of_mem fun {a b} ha hb hab ⟨hia, hib⟩ => ?_
      have hai := hequiv.symm _ hitem _ (hmem a ha) hia
      have := hequiv.trans _ (hmem a ha) _ hitem _ (hmem b hb) hai hib
      simp [this] at hab
    rw [addRecord_of_unique hone ⟨r, hr, hir⟩]
    refine ⟨?_, ?_, ?_, ?_⟩
    · simp only [List.mem_map]
      rintro _ ⟨q, hq, rfl⟩
      split_ifs <;> exact List.mem_append_left _ (h.mem q hq)
    · simp only [List.mem_map]
      rintro _ ⟨q, hq, rfl⟩
      split_ifs with hiq
      · simp [List.countP_append, hiq, h.count q hq]
      · simp [List.countP_append, hiq, h.count q hq]
    · intro p hp
      rcases List.mem_append.mp hp with hp | hp
      · obtain ⟨q, hq, hpq⟩ := h.cover p hp
        exact ⟨_, List.mem_map_of_mem hq, by split_ifs <;> exact hpq⟩
      · rw [List.mem_singleton] at hp
        subst hp
        exact ⟨_, List.mem_map_of_mem hr, by rw [if_pos hir]; exact hir⟩
    · exact List.pairwise_map.mpr (h.distinct.imp fun hab => by split_ifs <;> exact hab)
  · -- the item starts a group of its own
    have hnot : ∀ point ∈ points, compare item point.item = false := fun p hp => by
      simpa using fun h' => hex ⟨p, hp, h'⟩
    -- no earlier place is equal to it
    have hzero : ps.countP (fun p => compare p.2.2 item) = 0 := by
      refine List.countP_eq_zero.mpr fun p hp hpi => ?_
      obtain ⟨q, hq, hpq⟩ := h.cover p hp
      have hip := hequiv.symm _ (hps p hp) _ hitem hpi
      have := hequiv.trans _ hitem _ (hps p hp) _ (hmem q hq) hip hpq
      simp [hnot q hq] at this
    rw [addRecord_of_forall_not hnot]
    refine ⟨?_, ?_, ?_, ?_⟩
    · intro point hpoint
      rcases List.mem_append.mp hpoint with hq | hq
      · exact List.mem_append_left _ (h.mem point hq)
      · rw [List.mem_singleton] at hq
        subst hq
        exact List.mem_append_right _ (List.mem_singleton_self _)
    · intro point hpoint
      rcases List.mem_append.mp hpoint with hq | hq
      · simp [List.countP_append, hnot point hq, h.count point hq]
      · rw [List.mem_singleton] at hq
        subst hq
        simp [List.countP_append, hzero, hequiv.refl _ hitem]
    · intro p hp
      rcases List.mem_append.mp hp with hp | hp
      · obtain ⟨q, hq, hpq⟩ := h.cover p hp
        exact ⟨q, List.mem_append_left _ hq, hpq⟩
      · rw [List.mem_singleton] at hp
        subst hp
        exact ⟨_, List.mem_append_right _ (List.mem_singleton_self _), hequiv.refl _ hitem⟩
    · refine List.pairwise_append.mpr ⟨h.distinct, List.pairwise_singleton _ _, fun a ha b hb => ?_⟩
      rw [List.mem_singleton] at hb
      subst hb
      cases hai : compare a.item item
      · rfl
      · have := hequiv.symm _ (hmem a ha) _ hitem hai
        simp [hnot a ha] at this

/-- **Tally run**: the records after the places `qs`, from records that tally `ps`. -/
theorem Tallies.run (hequiv : EquivOn compare univ) :
    ∀ {ps : List (ℕ × ℕ × Item)} {points : List (ResolverRecord Item)}
      (qs : List (ℕ × ℕ × Item)), (∀ p ∈ ps ++ qs, p.2.2 ∈ univ) → Tallies compare ps points →
      Tallies compare (ps ++ qs)
        (qs.foldl (fun points p => addRecord compare p.2.2 p.1 p.2.1 points) points)
  | ps, points, [], _, h => by simpa using h
  | ps, points, q :: qs, huniv, h => by
    have hq : q.2.2 ∈ univ := huniv q (by simp)
    have hstep : Tallies compare (ps ++ [(q.1, q.2.1, q.2.2)])
        (addRecord compare q.2.2 q.1 q.2.1 points) :=
      h.step hequiv (fun p hp => huniv p (List.mem_append_left _ hp)) hq
    rw [List.foldl_cons, show ps ++ q :: qs = (ps ++ [q]) ++ qs by simp]
    exact Tallies.run hequiv qs (by simpa using huniv) hstep

/-- The places of the records stay places of the run, whatever `compare` is. -/
theorem placed_foldl {S : List (ℕ × ℕ × Item)} :
    ∀ (qs : List (ℕ × ℕ × Item)) {points : List (ResolverRecord Item)},
      (∀ point ∈ points, (point.row, point.index, point.item) ∈ S) → (∀ q ∈ qs, q ∈ S) →
      ∀ point ∈ qs.foldl (fun points p => addRecord compare p.2.2 p.1 p.2.1 points) points,
        (point.row, point.index, point.item) ∈ S
  | [], _, h, _ => h
  | q :: qs, _, h, hqs =>
    placed_foldl qs (forall_mem_addRecord h h (hqs q List.mem_cons_self))
      fun q' hq' => hqs q' (List.mem_cons_of_mem q hq')

end Tally

/-! ## 7. The threshold -/

section Threshold

variable {identify : Item → Id} {compare : Item → Item → Bool} {items : List (List Item)}

/-- A response with distinct ids holds at most one item of an id. -/
theorem countP_row {rowItems : List Item} (hrow : (rowItems.map identify).Nodup) (x : Id)
    (q : Item → Bool) :
    rowItems.countP (fun b => identify b = x && q b) =
      if rowItems.any (fun b => identify b = x && q b) then 1 else 0 := by
  have hle : rowItems.countP (fun b => identify b = x && q b) ≤ 1 :=
    calc rowItems.countP (fun b => identify b = x && q b)
        ≤ rowItems.countP (fun b => identify b == x) :=
          List.countP_mono_left fun b _ hb => by simp_all
      _ = (rowItems.map identify).count x := by rw [List.count_eq_countP, List.countP_map]; rfl
      _ ≤ 1 := List.nodup_iff_count_le_one.mp hrow x
  split_ifs with hany
  · have := List.countP_pos_iff.mpr (List.any_eq_true.mp hany)
    omega
  · exact List.countP_eq_zero.mpr fun b hb hqb => hany (List.any_eq_true.mpr ⟨b, hb, hqb⟩)

/-- The places of `a`'s id whose items are equal to `a` are the responses that agree with
`a`. -/
theorem countP_places_eq_agreement (hrows : ∀ rowItems ∈ items, (rowItems.map identify).Nodup)
    (a : Item) :
    ((places items).filter fun p => identify p.2.2 = identify a).countP
        (fun p => compare p.2.2 a) = agreement identify compare items a := by
  have hcomm : (fun p : ℕ × ℕ × Item => compare p.2.2 a && decide (identify p.2.2 = identify a)) =
      fun p => (fun b => decide (identify b = identify a) && compare b a) p.2.2 := by
    funext p
    exact Bool.and_comm _ _
  rw [List.countP_filter, hcomm,
    countP_places items fun b => decide (identify b = identify a) && compare b a,
    List.countP_flatten, agreement,
    Count.countP_eq_sum_map_ite]
  congr 1
  exact List.map_congr_left fun rowItems hrow => countP_row (hrows rowItems hrow) _ _

/-- Equal items of one id have the same agreement. -/
theorem agreement_congr (hequiv : EquivOn compare items.flatten) {a b : Item}
    (ha : a ∈ items.flatten) (hb : b ∈ items.flatten) (hid : identify a = identify b)
    (hab : compare a b) :
    agreement identify compare items a = agreement identify compare items b := by
  unfold agreement
  refine List.countP_congr fun rowItems hrow => ?_
  simp only [List.any_eq_true, Bool.and_eq_true, decide_eq_true_eq, hid]
  have hflat : ∀ c ∈ rowItems, c ∈ items.flatten := fun c hc =>
    List.mem_flatten.mpr ⟨rowItems, hrow, hc⟩
  constructor
  · rintro ⟨c, hc, hcid, hca⟩
    exact ⟨c, hc, hcid, hequiv.trans _ (hflat c hc) _ ha _ hb hca hab⟩
  · rintro ⟨c, hc, hcid, hcb⟩
    exact ⟨c, hc, hcid, hequiv.trans _ (hflat c hc) _ hb _ ha hcb (hequiv.symm _ ha _ hb hab)⟩

/-- **At most one group of an id reaches the count.**  A response holds at most one item of
the id, so no response agrees with both of two items that are not equal, and the responses
that agree with either are then more than there are. -/
theorem compare_of_le_agreement (hrows : ∀ rowItems ∈ items, (rowItems.map identify).Nodup)
    (hequiv : EquivOn compare items.flatten) {k : ℕ} (hk : items.length < 2 * k) {a b : Item}
    (ha : a ∈ items.flatten) (hb : b ∈ items.flatten) (hid : identify a = identify b)
    (hka : k ≤ agreement identify compare items a)
    (hkb : k ≤ agreement identify compare items b) : compare a b := by
  by_contra hab
  have hboth : items.countP (fun rowItems =>
      (rowItems.any fun c => identify c = identify a && compare c a) &&
        rowItems.any fun c => identify c = identify b && compare c b) = 0 := by
    refine List.countP_eq_zero.mpr fun rowItems hrow h => ?_
    simp only [Bool.and_eq_true, List.any_eq_true, decide_eq_true_eq] at h
    obtain ⟨⟨c, hc, hcid, hca⟩, ⟨d, hd, hdid, hdb⟩⟩ := h
    -- the response's one item of the id is equal to both
    have hcd : c = d :=
      List.inj_on_of_nodup_map (hrows rowItems hrow) hc hd (hcid.trans (hid.trans hdid.symm))
    subst hcd
    have hcf : c ∈ items.flatten := List.mem_flatten.mpr ⟨rowItems, hrow, hc⟩
    exact hab (hequiv.trans _ ha _ hcf _ hb (hequiv.symm _ hcf _ ha hca) hdb)
  have hsum := Count.countP_add_countP_le_and items
    (fun rowItems => rowItems.any fun c => identify c = identify a && compare c a)
    (fun rowItems => rowItems.any fun c => identify c = identify b && compare c b)
  unfold agreement at hka hkb
  omega

theorem lt_two_mul_resolutionCount (condition : ResolveCondition) {n : ℕ} (hn : 0 < n) :
    n < 2 * condition.resolutionCount n := by
  cases condition with
  | all => simp only [ResolveCondition.resolutionCount]; omega
  | majority => simp only [ResolveCondition.resolutionCount]; omega

end Threshold

/-! ## 8. What the resolver selects -/

section Select

variable (identify : Item → Id) (compare : Item → Item → Bool) (items : List (List Item))

theorem addAll_eq_groupBy : addAll identify compare items =
    Grouping.groupBy (fun p => identify p.2.2) []
      (fun points p => addRecord compare p.2.2 p.1 p.2.1 points) (places items) := rfl

theorem isGrouping_addAll : Grouping.IsGrouping (fun p => identify p.2.2) []
    (fun points p => addRecord compare p.2.2 p.1 p.2.1 points) (places items)
    (addAll identify compare items) := by
  rw [addAll_eq_groupBy]
  exact Grouping.isGrouping_groupBy _ _ _ _

theorem filterResolved_eq (resolvedItems : List (ℕ × ℕ)) :
    filterResolved items resolvedItems =
      ((places items).filter fun p => (p.1, p.2.1) ∈ resolvedItems).map fun p => p.2.2 := by
  unfold filterResolved
  induction places items with
  | nil => rfl
  | cons p ps ih =>
    by_cases h : (p.1, p.2.1) ∈ resolvedItems
    · simp [h, ih]
    · simp [h, ih]

variable {identify compare items}

/-- Every record of an id is at a place of an item of that id, whatever `compare` is. -/
theorem placed_addAll {e : Id × List (ResolverRecord Item)} (he : e ∈ addAll identify compare items)
    {point : ResolverRecord Item} (hpoint : point ∈ e.2) :
    (point.row, point.index, point.item) ∈ (places items).filter fun p => identify p.2.2 = e.1 := by
  rw [(isGrouping_addAll identify compare items).groups e he, Grouping.groupOf] at hpoint
  exact placed_foldl _ (by simp) (fun q hq => hq) point hpoint

/-- The records of an id tally its places. -/
theorem tallies_addAll (hequiv : EquivOn compare items.flatten)
    {e : Id × List (ResolverRecord Item)} (he : e ∈ addAll identify compare items) :
    Tallies compare ((places items).filter fun p => identify p.2.2 = e.1) e.2 := by
  rw [(isGrouping_addAll identify compare items).groups e he, Grouping.groupOf]
  have hrun := Tallies.run hequiv ((places items).filter fun p => identify p.2.2 = e.1)
    (fun p hp => by
      rw [List.nil_append] at hp
      exact mem_flatten_of_mem_places (List.mem_of_mem_filter hp)) Tallies.nil
  simpa using hrun

/-- A record counts the responses that agree with its item. -/
theorem count_eq_agreement (hrows : ∀ rowItems ∈ items, (rowItems.map identify).Nodup)
    (hequiv : EquivOn compare items.flatten) {e : Id × List (ResolverRecord Item)}
    (he : e ∈ addAll identify compare items) {point : ResolverRecord Item} (hpoint : point ∈ e.2) :
    point.count = agreement identify compare items point.item := by
  have hid : identify point.item = e.1 := by
    simpa using (List.mem_filter.mp (placed_addAll he hpoint)).2
  rw [(tallies_addAll hequiv he).count point hpoint, ← hid]
  exact countP_places_eq_agreement hrows point.item

omit [DecidableEq Id] in
theorem mem_selectCoordinates {resolver : List (Id × List (ResolverRecord Item))} {k : ℕ}
    {c : ℕ × ℕ} :
    c ∈ selectCoordinates resolver k ↔ ∃ e ∈ resolver, ∃ point,
      e.2.find? (fun point => k ≤ point.count) = some point ∧ (point.row, point.index) = c := by
  simp only [selectCoordinates, List.mem_dedup, List.mem_filterMap, Option.map_eq_some_iff]

/-- An accepted place holds the item of the first record of its id that reaches the count. -/
theorem exists_of_mem_selectCoordinates {k : ℕ} {p : ℕ × ℕ × Item} (hp : p ∈ places items)
    (hc : (p.1, p.2.1) ∈ selectCoordinates (addAll identify compare items) k) :
    ∃ e ∈ addAll identify compare items, ∃ point ∈ e.2,
      e.2.find? (fun point => k ≤ point.count) = some point ∧
        p = (point.row, point.index, point.item) ∧ identify point.item = e.1 := by
  obtain ⟨e, he, point, hfind, hpc⟩ := mem_selectCoordinates.mp hc
  have hpoint := List.mem_of_find?_eq_some hfind
  obtain ⟨hplace, hid⟩ := List.mem_filter.mp (placed_addAll he hpoint)
  exact ⟨e, he, point, hpoint, hfind, eq_of_coordinates_eq hp hplace hpc.symm, by simpa using hid⟩

/-- An accepted place is a place. -/
theorem exists_mem_places_of_mem_selectCoordinates {k : ℕ} {c : ℕ × ℕ}
    (hc : c ∈ selectCoordinates (addAll identify compare items) k) :
    ∃ a, (c.1, c.2, a) ∈ places items := by
  obtain ⟨e, he, point, hfind, rfl⟩ := mem_selectCoordinates.mp hc
  exact ⟨point.item,
    (List.mem_filter.mp (placed_addAll he (List.mem_of_find?_eq_some hfind))).1⟩

end Select

/-! ## 9. The shortcut, and what `resolve` returns -/

/-- **The shortcut agrees with the general path.**  Distinct accepted places, as many as the
first response has items and all in it, are all of its places; the general path then keeps
the first response and nothing else. -/
theorem filterResolved_of_isConsistent {items : List (List Item)} {resolvedItems : List (ℕ × ℕ)}
    (hnodup : resolvedItems.Nodup) (hplaced : ∀ c ∈ resolvedItems, ∃ a, (c.1, c.2, a) ∈ places items)
    (hcons : isConsistent items resolvedItems) :
    filterResolved items resolvedItems = items.head?.getD [] := by
  cases items with
  | nil => rfl
  | cons first rest =>
    simp only [isConsistent, List.head?_cons, Option.map_some, Option.getD_some, Bool.and_eq_true,
      beq_iff_eq, List.all_eq_true] at hcons
    obtain ⟨hlen, hrow⟩ := hcons
    -- the accepted places are the places of the first response
    have hsub : resolvedItems ⊆ (List.range first.length).map fun i => (0, i) := by
      intro c hc
      obtain ⟨a, ha⟩ := hplaced c hc
      obtain ⟨rowItems, hrowItems, hi⟩ := mem_places.mp ha
      have hc1 : c.1 = 0 := by simpa using hrow c hc
      rw [hc1, List.getElem?_cons_zero, Option.some.injEq] at hrowItems
      subst hrowItems
      exact List.mem_map.mpr ⟨c.2, List.mem_range.mpr (List.getElem?_eq_some_iff.mp hi).1,
        by rw [← hc1]⟩
    have hperm := (hnodup.subperm hsub).perm_of_length_le (by simp [hlen])
    have hall : ∀ i < first.length, (0, i) ∈ resolvedItems := fun i hi =>
      hperm.mem_iff.mpr (List.mem_map.mpr ⟨i, List.mem_range.mpr hi, rfl⟩)
    rw [filterResolved, places, List.zipIdx_cons, List.flatMap_cons, List.filterMap_append,
      List.filterMap_map]
    have hfirst : (first.zipIdx.filterMap ((fun p : ℕ × ℕ × Item =>
        if (p.1, p.2.1) ∈ resolvedItems then some p.2.2 else none) ∘ fun f => (0, f.2, f.1))) =
        first := by
      rw [List.filterMap_congr (g := some ∘ Prod.fst), List.filterMap_eq_map, List.zipIdx_map_fst]
      intro f hf
      have hi := (List.mem_zipIdx hf).2.1
      simp only [Function.comp_apply, if_pos (hall f.2 (by omega))]
    -- the places of the other responses are in later rows
    have hrest : ((rest.zipIdx 1).flatMap fun e => e.1.zipIdx.map fun f => (e.2, f.2, f.1)).filterMap
        (fun p : ℕ × ℕ × Item => if (p.1, p.2.1) ∈ resolvedItems then some p.2.2 else none) = [] := by
      refine List.filterMap_eq_nil_iff.mpr fun p hp => ?_
      obtain ⟨e, he, hpe⟩ := List.mem_flatMap.mp hp
      obtain ⟨f, -, rfl⟩ := List.mem_map.mp hpe
      have he1 := (List.mem_zipIdx he).1
      rw [if_neg]
      intro hmem
      have := hrow _ hmem
      simp only at this
      omega
    rw [hfirst, hrest, List.append_nil]
    rfl

theorem resolve_eq_filterResolved (identify : Item → Id) (compare : Item → Item → Bool)
    (items : List (List Item)) (condition : ResolveCondition) :
    resolve identify compare items condition = filterResolved items
      (selectCoordinates (addAll identify compare items) (condition.resolutionCount items.length)) := by
  unfold resolve
  dsimp only
  split_ifs with hcons
  · exact (filterResolved_of_isConsistent (List.nodup_dedup _)
      (fun c hc => exists_mem_places_of_mem_selectCoordinates hc) hcons).symm
  · rfl

section Resolution

variable {identify : Item → Id} {compare : Item → Item → Bool} {items : List (List Item)}
  (hrows : ∀ rowItems ∈ items, (rowItems.map identify).Nodup)
  (hequiv : EquivOn compare items.flatten)
include hrows hequiv

/-- The general path returns an item of each id that `k` responses agree on, and nothing
else. -/
theorem filterResolved_resolves {k : ℕ} (hk : items.length < 2 * k) :
    Resolves identify compare items k
      (filterResolved items (selectCoordinates (addAll identify compare items) k)) := by
  rw [filterResolved_eq]
  refine ⟨?_, ?_, ?_⟩
  · -- an id has one entry, whose first record reaching the count has one place
    rw [List.map_map]
    refine List.Nodup.map_on ?_ ((nodup_places items).filter _)
    intro p hp q hq hpq
    obtain ⟨hp, hpc⟩ := List.mem_filter.mp hp
    obtain ⟨hq, hqc⟩ := List.mem_filter.mp hq
    obtain ⟨e, he, r, -, hfind, rfl, hid⟩ := exists_of_mem_selectCoordinates hp (by simpa using hpc)
    obtain ⟨e', he', r', -, hfind', rfl, hid'⟩ :=
      exists_of_mem_selectCoordinates hq (by simpa using hqc)
    have hkey : e.1 = e'.1 := hid.symm.trans (hpq.trans hid')
    have hee' : e = e' := List.inj_on_of_nodup_map
      (isGrouping_addAll identify compare items).nodup he he' hkey
    subst hee'
    rw [hfind, Option.some.injEq] at hfind'
    rw [hfind']
  · intro a ha
    obtain ⟨p, hp, rfl⟩ := List.mem_map.mp ha
    obtain ⟨hp, hpc⟩ := List.mem_filter.mp hp
    obtain ⟨e, he, r, hr, hfind, rfl, -⟩ := exists_of_mem_selectCoordinates hp (by simpa using hpc)
    refine ⟨mem_flatten_of_mem_places hp, ?_⟩
    rw [← count_eq_agreement hrows hequiv he hr]
    simpa using List.find?_some hfind
  · intro a ha hka
    -- the entry of `a`'s id has a record of `a`'s group, which reaches the count
    obtain ⟨p, hp, rfl⟩ := exists_mem_places ha
    obtain ⟨e, he, hkey⟩ : ∃ e ∈ addAll identify compare items, e.1 = identify p.2.2 := by
      have := ((isGrouping_addAll identify compare items).keys (identify p.2.2)).mpr ⟨p, hp, rfl⟩
      simpa using this
    have htally := tallies_addAll hequiv he
    obtain ⟨q, hq, hpq⟩ := htally.cover p (List.mem_filter.mpr ⟨hp, by simp [hkey]⟩)
    have hqplace := List.mem_filter.mp (htally.mem q hq)
    have hqf := mem_flatten_of_mem_places hqplace.1
    have hqid : identify q.item = identify p.2.2 := by simpa [hkey] using hqplace.2
    have hkq : k ≤ q.count := by
      rw [count_eq_agreement hrows hequiv he hq,
        ← agreement_congr hequiv ha hqf hqid.symm hpq]
      exact hka
    -- so the entry selects a record, and it is of `a`'s group
    obtain ⟨r, hfind⟩ : ∃ r, e.2.find? (fun point => k ≤ point.count) = some r :=
      Option.isSome_iff_exists.mp (List.find?_isSome.mpr ⟨q, hq, by simpa using hkq⟩)
    have hr := List.mem_of_find?_eq_some hfind
    have hrplace := List.mem_filter.mp (htally.mem r hr)
    have hrf := mem_flatten_of_mem_places hrplace.1
    have hrid : identify r.item = identify p.2.2 := by simpa [hkey] using hrplace.2
    have hkr : k ≤ agreement identify compare items r.item := by
      rw [← count_eq_agreement hrows hequiv he hr]
      simpa using List.find?_some hfind
    refine ⟨r.item, List.mem_map.mpr ⟨(r.row, r.index, r.item),
      List.mem_filter.mpr ⟨hrplace.1, ?_⟩, rfl⟩, hrid, ?_⟩
    · simpa using mem_selectCoordinates.mpr ⟨e, he, r, hfind, rfl⟩
    · exact compare_of_le_agreement hrows hequiv hk hrf ha hrid hkr hka

/-- **`Resolver::resolve` resolves by agreement** of `resolution_count` responses. -/
theorem resolve_resolves (hn : items ≠ []) (condition : ResolveCondition) :
    Resolves identify compare items (condition.resolutionCount items.length)
      (resolve identify compare items condition) := by
  rw [resolve_eq_filterResolved]
  exact filterResolved_resolves hrows hequiv
    (lt_two_mul_resolutionCount condition (List.length_pos_of_ne_nil hn))

end Resolution

end Resolver

/-! ## 10. The order of the responses -/

section Order

variable {Item Id : Type} [DecidableEq Id] {identify : Item → Id} {compare : Item → Item → Bool}
  {items : List (List Item)} {k : ℕ}

theorem EquivOn.mono {univ univ' : List Item} (h : EquivOn compare univ) (hsub : univ' ⊆ univ) :
    EquivOn compare univ' :=
  ⟨fun a ha => h.refl a (hsub ha), fun a ha b hb => h.symm a (hsub ha) b (hsub hb),
    fun a ha b hb c hc => h.trans a (hsub ha) b (hsub hb) c (hsub hc)⟩

theorem Resolves.perm {result result' : List Item} (h : Resolves identify compare items k result)
    (hp : result'.Perm result) : Resolves identify compare items k result' := by
  refine ⟨(hp.map identify).nodup_iff.mpr h.nodup, fun a ha => h.sound a (hp.mem_iff.mp ha),
    fun a ha hka => ?_⟩
  obtain ⟨b, hb, hid, hba⟩ := h.complete a ha hka
  exact ⟨b, hp.mem_iff.mpr hb, hid, hba⟩

/-- Agreement counts responses, whatever their order. -/
theorem agreement_perm {items' : List (List Item)} (hp : items.Perm items') (a : Item) :
    agreement identify compare items a = agreement identify compare items' a :=
  hp.countP_eq _

theorem Resolves.of_perm {items' : List (List Item)} {result : List Item}
    (h : Resolves identify compare items k result) (hp : items.Perm items') :
    Resolves identify compare items' k result := by
  have hflat : ∀ a, a ∈ items.flatten ↔ a ∈ items'.flatten := fun a => hp.flatten.mem_iff
  refine ⟨h.nodup, fun a ha => ?_, fun a ha hka => ?_⟩
  · obtain ⟨haf, hka⟩ := h.sound a ha
    exact ⟨(hflat a).mp haf, by rwa [← agreement_perm hp]⟩
  · exact h.complete a ((hflat a).mpr ha) (by rwa [agreement_perm hp])

/-- **Two resolutions of the same responses agree**: they hold the same ids, with equal items. -/
theorem Resolves.agree (hrows : ∀ rowItems ∈ items, (rowItems.map identify).Nodup)
    (hequiv : EquivOn compare items.flatten) (hk : items.length < 2 * k) {r₁ r₂ : List Item}
    (h₁ : Resolves identify compare items k r₁) (h₂ : Resolves identify compare items k r₂) :
    (r₁.map identify).Perm (r₂.map identify) ∧
      ∀ a ∈ r₁, ∀ b ∈ r₂, identify a = identify b → compare a b := by
  -- an id is in a resolution exactly when `k` responses agree on an item of it
  have hids : ∀ r, Resolves identify compare items k r → ∀ x, x ∈ r.map identify ↔
      ∃ a ∈ items.flatten, identify a = x ∧ k ≤ agreement identify compare items a := by
    intro r h x
    simp only [List.mem_map]
    constructor
    · rintro ⟨a, ha, rfl⟩
      exact ⟨a, (h.sound a ha).1, rfl, (h.sound a ha).2⟩
    · rintro ⟨a, ha, rfl, hka⟩
      obtain ⟨b, hb, hid, -⟩ := h.complete a ha hka
      exact ⟨b, hb, hid⟩
  refine ⟨(List.perm_ext_iff_of_nodup h₁.nodup h₂.nodup).mpr fun x => ?_,
    fun a ha b hb hid => ?_⟩
  · rw [hids r₁ h₁, hids r₂ h₂]
  · obtain ⟨haf, hka⟩ := h₁.sound a ha
    obtain ⟨hbf, hkb⟩ := h₂.sound b hb
    exact Resolver.compare_of_le_agreement hrows hequiv hk haf hbf hid hka hkb

end Order

/-! ## 11. Records -/

section Records

variable {sortUnstableByKey : (Record → ExtendedPointId) → List Record → List Record}
  (hsort : SortsBy (sortUnstableByKey Record.id) fun a b => a.id ≤ b.id)
  {records : List (List Record)} (hn : records ≠ [])
  (hrows : ∀ response ∈ records, (response.map Record.id).Nodup)
  (hequiv : EquivOn recordEq records.flatten)
include hsort hn hrows hequiv

/-- Records are resolved by agreement, and sorted by id, each id once. -/
theorem resolveRecords_resolves (condition : ResolveCondition) :
    Resolves Record.id recordEq records (condition.resolutionCount records.length)
        (resolveRecords sortUnstableByKey records condition) ∧
      (resolveRecords sortUnstableByKey records condition).Pairwise fun a b => a.id < b.id := by
  have h := (Resolver.resolve_resolves hrows hequiv hn condition).perm (hsort.perm _)
  refine ⟨h, ?_⟩
  have hne : (resolveRecords sortUnstableByKey records condition).Pairwise
      fun a b => a.id ≠ b.id := List.pairwise_map.mp h.nodup
  exact ((hsort.sorted _).and hne).imp fun hab => lt_of_le_of_ne hab.1 hab.2

/-- **The order of the responses does not matter for records**: position by position, the
records resolved from two orders are equal. -/
theorem resolveRecords_perm {records' : List (List Record)} (hp : records.Perm records')
    (condition : ResolveCondition) :
    List.Forall₂ (fun a b => recordEq a b) (resolveRecords sortUnstableByKey records condition)
      (resolveRecords sortUnstableByKey records' condition) := by
  have hk := Resolver.lt_two_mul_resolutionCount condition (List.length_pos_of_ne_nil hn)
  have h₁ := (resolveRecords_resolves hsort hn hrows hequiv condition).1
  -- the other order satisfies the same hypotheses, and its result resolves these responses
  have h₂ := (resolveRecords_resolves hsort (fun h => hn (List.Perm.eq_nil (h ▸ hp)))
    (fun r hr => hrows r (hp.mem_iff.mpr hr))
    (hequiv.mono fun a ha => hp.flatten.mem_iff.mpr ha) condition).1
  rw [← hp.length_eq] at h₂
  obtain ⟨hids, hitems⟩ := Resolves.agree hrows hequiv hk h₁ (h₂.of_perm hp.symm)
  -- both are sorted by id, so they list the same ids in the same order
  have hmap : (resolveRecords sortUnstableByKey records condition).map Record.id =
      (resolveRecords sortUnstableByKey records' condition).map Record.id :=
    hids.eq_of_pairwise (fun a b _ _ hab hba => le_antisymm hab hba)
    (List.pairwise_map.mpr (hsort.sorted _)) (List.pairwise_map.mpr (hsort.sorted _))
  rw [List.forall₂_iff_get]
  refine ⟨by simpa using congrArg List.length hmap, fun i hi₁ hi₂ => ?_⟩
  refine hitems _ (List.get_mem _ _) _ (List.get_mem _ _) ?_
  have hi := congrArg (fun l => l[i]?) hmap
  simp only [List.getElem?_map, List.getElem?_eq_getElem hi₁, List.getElem?_eq_getElem hi₂,
    Option.map_some, Option.some.injEq] at hi
  simpa using hi

end Records

/-! ## 12. Batches of points -/

section Transpose

variable {T : Type} {vec : List (List T)} {B : ℕ}

/-- The `j`-th items of lists that all have one are as many as the lists. -/
theorem length_filterMap_getElem? (hlen : ∀ r ∈ vec, r.length = B) {j : ℕ} (hj : j < B) :
    (vec.filterMap fun r => r[j]?).length = vec.length := by
  induction vec with
  | nil => rfl
  | cons r rs ih =>
    have hr : j < r.length := by rw [hlen r List.mem_cons_self]; exact hj
    rw [List.filterMap_cons, List.getElem?_eq_getElem hr, List.length_cons, List.length_cons,
      ih fun r' hr' => hlen r' (List.mem_cons_of_mem r hr')]

theorem length_transpose (hn : vec ≠ []) (hlen : ∀ r ∈ vec, r.length = B) :
    (transpose vec).length = B := by
  cases vec with
  | nil => exact absurd rfl hn
  | cons first rest => simp [transpose, hlen first List.mem_cons_self]

theorem getElem?_transpose (hn : vec ≠ []) (hlen : ∀ r ∈ vec, r.length = B) {j : ℕ}
    (hj : j < B) : (transpose vec)[j]? = some (vec.filterMap fun r => r[j]?) := by
  cases vec with
  | nil => exact absurd rfl hn
  | cons first rest =>
    have hj' : j < first.length := by rw [hlen first List.mem_cons_self]; exact hj
    simp [transpose, hj']

end Transpose

section Batches

variable {sortUnstable : List ScoredPoint → List ScoredPoint}
  (hsort : SortsBy sortUnstable fun a b => a.score ≤ b.score)
  {batches : List (List (List ScoredPoint))} {B : ℕ} (hn : batches ≠ [])
  (hlen : ∀ response ∈ batches, response.length = B)
  (hrows : ∀ response ∈ batches, ∀ batch ∈ response, (batch.map ScoredPoint.id).Nodup)
  (hequiv : EquivOn scoredPointEq batches.flatten.flatten)

include hn hlen in
theorem getD_resolveBatches (condition : ResolveCondition) {j : ℕ} (hj : j < B) :
    (resolveBatches sortUnstable batches condition).getD j [] =
      sortUnstable (Resolver.resolve ScoredPoint.id scoredPointEq
        (batches.filterMap fun response => response[j]?) condition) := by
  rw [resolveBatches, List.getD_eq_getElem?_getD, List.getElem?_map,
    getElem?_transpose hn hlen hj, Option.map_some, Option.getD_some]

include hsort hn hlen hrows hequiv

/-- The result of each request is resolved by agreement from the responses' batches for it,
and sorted by score. -/
theorem resolveBatches_resolves (condition : ResolveCondition) :
    (resolveBatches sortUnstable batches condition).length = B ∧
      ∀ j < B, Resolves ScoredPoint.id scoredPointEq (batches.filterMap fun response => response[j]?)
          (condition.resolutionCount batches.length)
          ((resolveBatches sortUnstable batches condition).getD j []) ∧
        ((resolveBatches sortUnstable batches condition).getD j []).Pairwise
          fun a b => a.score ≤ b.score := by
  refine ⟨by rw [resolveBatches, List.length_map, length_transpose hn hlen], fun j hj => ?_⟩
  have hjlen := length_filterMap_getElem? hlen hj
  -- the batches of request `j` are batches of the responses
  have hbatch : ∀ batch ∈ batches.filterMap (fun response => response[j]?),
      ∃ response ∈ batches, batch ∈ response := by
    intro batch hbatch
    obtain ⟨response, hresponse, hj⟩ := List.mem_filterMap.mp hbatch
    exact ⟨response, hresponse, List.mem_of_getElem? hj⟩
  have hres : Resolves ScoredPoint.id scoredPointEq (batches.filterMap fun response => response[j]?)
      (condition.resolutionCount (batches.filterMap fun response => response[j]?).length)
      (Resolver.resolve ScoredPoint.id scoredPointEq
        (batches.filterMap fun response => response[j]?) condition) :=
    Resolver.resolve_resolves
      (fun batch hb => by
        obtain ⟨response, hresponse, hmem⟩ := hbatch batch hb
        exact hrows response hresponse batch hmem)
      (hequiv.mono fun a ha => by
        obtain ⟨batch, hb, ha⟩ := List.mem_flatten.mp ha
        obtain ⟨response, hresponse, hmem⟩ := hbatch batch hb
        exact List.mem_flatten.mpr ⟨batch, List.mem_flatten.mpr ⟨response, hresponse, hmem⟩, ha⟩)
      (by rw [← List.length_pos_iff, hjlen]; exact List.length_pos_of_ne_nil hn) condition
  rw [hjlen] at hres
  rw [getD_resolveBatches hn hlen condition hj]
  exact ⟨hres.perm (hsort.perm _), hsort.sorted _⟩

/-- **For each request, the order of the responses does not matter** up to equal items and
the order of points of equal score: the results hold the same ids, with equal points. -/
theorem resolveBatches_perm {batches' : List (List (List ScoredPoint))} (hp : batches.Perm batches')
    (condition : ResolveCondition) {j : ℕ} (hj : j < B) :
    (((resolveBatches sortUnstable batches condition).getD j []).map ScoredPoint.id).Perm
        (((resolveBatches sortUnstable batches' condition).getD j []).map ScoredPoint.id) ∧
      ∀ a ∈ (resolveBatches sortUnstable batches condition).getD j [],
        ∀ b ∈ (resolveBatches sortUnstable batches' condition).getD j [],
          a.id = b.id → scoredPointEq a b := by
  have hn' : batches' ≠ [] := fun h => hn (List.Perm.eq_nil (h ▸ hp))
  have hlen' : ∀ response ∈ batches', response.length = B := fun r hr => hlen r (hp.mem_iff.mpr hr)
  have h₁ := ((resolveBatches_resolves hsort hn hlen hrows hequiv condition).2 j hj).1
  have h₂ := ((resolveBatches_resolves hsort hn' hlen'
    (fun r hr => hrows r (hp.mem_iff.mpr hr))
    (hequiv.mono fun a ha => hp.flatten.flatten.mem_iff.mpr ha) condition).2 j hj).1
  -- the batches of request `j` in the two orders are a permutation of each other
  have hpj := hp.filterMap fun response => response[j]?
  rw [← hp.length_eq] at h₂
  have hjlen := length_filterMap_getElem? hlen hj
  have hk := Resolver.lt_two_mul_resolutionCount condition (List.length_pos_of_ne_nil hn)
  rw [← hjlen] at h₁ h₂ hk
  refine Resolves.agree (fun batch hb => ?_) (hequiv.mono fun a ha => ?_) hk h₁ (h₂.of_perm hpj.symm)
  · obtain ⟨response, hresponse, hjb⟩ := List.mem_filterMap.mp hb
    exact hrows response hresponse batch (List.mem_of_getElem? hjb)
  · obtain ⟨batch, hb, ha⟩ := List.mem_flatten.mp ha
    obtain ⟨response, hresponse, hjb⟩ := List.mem_filterMap.mp hb
    exact List.mem_flatten.mpr ⟨batch,
      List.mem_flatten.mpr ⟨response, hresponse, List.mem_of_getElem? hjb⟩, ha⟩

end Batches

/-- **The order of the responses shows through points of equal score.**  Two responses hold
the same two points of equal score, in the two orders.  The first response is returned as it
is, and a sort that leaves sorted points as they are (as the insertion sort that
`sort_unstable` runs on short slices does) keeps their order. -/
theorem resolveBatches_order_of_equal_scores :
    ∃ first second : List (List ScoredPoint),
      ∀ sortUnstable : List ScoredPoint → List ScoredPoint,
        (∀ points, points.Pairwise (fun a b => a.score ≤ b.score) → sortUnstable points = points) →
        ∀ condition, resolveBatches sortUnstable [first, second] condition ≠
          resolveBatches sortUnstable [second, first] condition := by
  let p₁ : ScoredPoint := ⟨.numId 1, 0, 0, none, none⟩
  let p₂ : ScoredPoint := ⟨.numId 2, 0, 0, none, none⟩
  refine ⟨[[p₁, p₂]], [[p₂, p₁]], fun sortUnstable hkeep condition => ?_⟩
  -- of two responses, a majority is both
  have hall : ∀ items : List (List ScoredPoint), items.length = 2 →
      Resolver.resolve ScoredPoint.id scoredPointEq items condition =
        Resolver.resolve ScoredPoint.id scoredPointEq items .all := by
    intro items h
    have hk : condition.resolutionCount items.length = ResolveCondition.all.resolutionCount items.length := by
      cases condition <;> simp [ResolveCondition.resolutionCount, h]
    unfold Resolver.resolve
    rw [hk]
  -- both points are accepted at their places in the first response, which is returned
  have h₁₂ : Resolver.resolve ScoredPoint.id scoredPointEq [[p₁, p₂], [p₂, p₁]] condition =
      [p₁, p₂] := by
    rw [hall _ rfl]
    rfl
  have h₂₁ : Resolver.resolve ScoredPoint.id scoredPointEq [[p₂, p₁], [p₁, p₂]] condition =
      [p₂, p₁] := by
    rw [hall _ rfl]
    rfl
  have hs₁₂ : sortUnstable [p₁, p₂] = [p₁, p₂] := hkeep _ (List.pairwise_pair.mpr le_rfl)
  have hs₂₁ : sortUnstable [p₂, p₁] = [p₂, p₁] := hkeep _ (List.pairwise_pair.mpr le_rfl)
  show [sortUnstable (Resolver.resolve ScoredPoint.id scoredPointEq [[p₁, p₂], [p₂, p₁]] condition)] ≠
    [sortUnstable (Resolver.resolve ScoredPoint.id scoredPointEq [[p₂, p₁], [p₁, p₂]] condition)]
  rw [h₁₂, h₂₁, hs₁₂, hs₂₁]
  intro h
  have hid := congrArg (fun l => (l.head?.bind List.head?).map ScoredPoint.id) h
  simp [p₁, p₂] at hid

/-! ## 13. Resolution by agreement -/

theorem resolve_by_agreement
    {sortUnstableByKey : (Record → ExtendedPointId) → List Record → List Record}
    (hsortRecords : SortsBy (sortUnstableByKey Record.id) fun a b => a.id ≤ b.id)
    {sortUnstable : List ScoredPoint → List ScoredPoint}
    (hsortPoints : SortsBy sortUnstable fun a b => a.score ≤ b.score)
    (condition : ResolveCondition) :
    (∀ {Item Id : Type} [DecidableEq Id] (identify : Item → Id) (compare : Item → Item → Bool)
        (items : List (List Item)),
        Resolver.resolve identify compare items condition = Resolver.filterResolved items
          (Resolver.selectCoordinates (Resolver.addAll identify compare items)
            (condition.resolutionCount items.length))) ∧
      (∀ records : List (List Record), records ≠ [] →
        (∀ response ∈ records, (response.map Record.id).Nodup) →
        EquivOn recordEq records.flatten →
          Resolves Record.id recordEq records (condition.resolutionCount records.length)
              (resolveRecords sortUnstableByKey records condition) ∧
            (resolveRecords sortUnstableByKey records condition).Pairwise
              (fun a b => a.id < b.id) ∧
            ∀ records', records.Perm records' →
              List.Forall₂ (fun a b => recordEq a b)
                (resolveRecords sortUnstableByKey records condition)
                (resolveRecords sortUnstableByKey records' condition)) ∧
      (∀ (batches : List (List (List ScoredPoint))) (B : ℕ), batches ≠ [] →
        (∀ response ∈ batches, response.length = B) →
        (∀ response ∈ batches, ∀ batch ∈ response, (batch.map ScoredPoint.id).Nodup) →
        EquivOn scoredPointEq batches.flatten.flatten →
          (resolveBatches sortUnstable batches condition).length = B ∧
            ∀ j < B,
              Resolves ScoredPoint.id scoredPointEq (batches.filterMap fun response => response[j]?)
                  (condition.resolutionCount batches.length)
                  ((resolveBatches sortUnstable batches condition).getD j []) ∧
                ((resolveBatches sortUnstable batches condition).getD j []).Pairwise
                  (fun a b => a.score ≤ b.score) ∧
                ∀ batches', batches.Perm batches' →
                  (((resolveBatches sortUnstable batches condition).getD j []).map
                      ScoredPoint.id).Perm
                    (((resolveBatches sortUnstable batches' condition).getD j []).map
                      ScoredPoint.id) ∧
                  ∀ a ∈ (resolveBatches sortUnstable batches condition).getD j [],
                    ∀ b ∈ (resolveBatches sortUnstable batches' condition).getD j [],
                      a.id = b.id → scoredPointEq a b) := by
  refine ⟨fun identify compare items => Resolver.resolve_eq_filterResolved identify compare items
    condition, fun records hn hrows hequiv => ?_, fun batches B hn hlen hrows hequiv => ?_⟩
  · obtain ⟨hres, hsorted⟩ := resolveRecords_resolves hsortRecords hn hrows hequiv condition
    exact ⟨hres, hsorted, fun records' hp =>
      resolveRecords_perm hsortRecords hn hrows hequiv hp condition⟩
  · obtain ⟨hlength, hbatch⟩ := resolveBatches_resolves hsortPoints hn hlen hrows hequiv condition
    refine ⟨hlength, fun j hj => ⟨(hbatch j hj).1, (hbatch j hj).2, fun batches' hp => ?_⟩⟩
    exact resolveBatches_perm hsortPoints hn hlen hrows hequiv hp condition hj

/-- An insertion sort by a total preorder keeps the promise of `sort_unstable`. -/
theorem sortsBy_insertionSort {α : Type} (le : α → α → Prop) [DecidableRel le]
    (htotal : ∀ a b, le a b ∨ le b a) (htrans : ∀ a b c, le a b → le b c → le a c) :
    SortsBy (List.insertionSort le) le := by
  have : Std.Total le := ⟨htotal⟩
  have : IsTrans α le := ⟨htrans⟩
  exact ⟨List.perm_insertionSort le, List.pairwise_insertionSort le⟩

/-- Two replicas, one of which misses a record: with `All`, only the record both hold is
returned. -/
theorem resolve_by_agreement_two_replicas :
    let sortUnstableByKey := fun (key : Record → ExtendedPointId) (xs : List Record) =>
      xs.insertionSort fun a b => key a ≤ key b
    let sortUnstable := fun xs : List ScoredPoint => xs.insertionSort fun a b => a.score ≤ b.score
    let records : List (List Record) :=
      [[⟨.numId 2, none, none⟩, ⟨.numId 1, none, none⟩], [⟨.numId 1, none, none⟩]]
    SortsBy (sortUnstableByKey Record.id) (fun a b => a.id ≤ b.id) ∧
      SortsBy sortUnstable (fun a b => a.score ≤ b.score) ∧
      Resolves Record.id recordEq records 2 (resolveRecords sortUnstableByKey records .all) ∧
      (resolveRecords sortUnstableByKey records .all).Pairwise fun a b => a.id < b.id := by
  intro sortUnstableByKey sortUnstable records
  have hsortRecords : SortsBy (sortUnstableByKey Record.id) (fun a b => a.id ≤ b.id) :=
    sortsBy_insertionSort _ (fun a b => le_total a.id b.id) fun a b c => le_trans
  have hsortPoints : SortsBy sortUnstable (fun a b => a.score ≤ b.score) :=
    sortsBy_insertionSort _ (fun a b => le_total a.score b.score) fun a b c => le_trans
  have hequiv : EquivOn recordEq records.flatten := ⟨by decide, by decide, by decide⟩
  obtain ⟨hres, hsorted, -⟩ := (resolve_by_agreement hsortRecords hsortPoints .all).2.1 records
    (by decide) (by decide) hequiv
  exact ⟨hsortRecords, hsortPoints, hres, hsorted⟩

end Qdrant
