/-
# The payload updates: removing at a path, and merging

`delete_payload` removes the values a field path addresses with `remove_value_from_json_map`
(`Payload::remove`), and every filter and field index reads the same path with
`get_value_from_json_map` (`Payload::get_value`).  The two functions walk a path alike, and
for a path whose last segment names a key (`leafIsKey`: not empty, no array notation):

* `removeValueSegs_fst`: the values removed are exactly the values a read returns;
* `getValueSegs_removeValueSegs`: when every object of the payload has distinct keys, as every
  `serde_json::Map` has (`Value.keysDistinct`), the path reads nothing afterwards;
* `keysDistinct_removeValueSegs`: a removal at any path keeps the keys distinct at every level;
* `lookup_removeValueSegs_ne`: a removal changes no top-level entry but the one its path starts
  at (`headKey`).

The last segment matters.  At the end of a path, `a[]` removes the whole array and `a[2]` the
element at that place, whatever it is, where a read collects only the objects among the
elements; and a path ending in `.` removes the key before the dot, where a read goes one level
deeper.

`set_payload` goes through `assign` of the payload storage, which MERGES into a stored payload
(`Payload::merge`: a `null` deletes its key, `lookup_merge`) but stores the payload AS GIVEN for
a point without one, `null`s included (`payloadStorage_assign_lookup`).  The same update can
therefore leave a key holding `null` or leave no key, depending on whether the point had a
payload before.
-/
import Qdrant.Index.StructPayloadIndex

namespace Qdrant

/-! ## 1. Distinct keys at every level -/

mutual
/-- Every object inside the value has distinct keys, as every `serde_json::Map` has. -/
def Value.keysDistinct : Value → Bool
  | .array vs => arrayKeysDistinct vs
  | .object m => decide (m.map Prod.fst).Nodup && mapKeysDistinct m
  | _ => true
/-- Every element has distinct keys at every level. -/
def arrayKeysDistinct : List Value → Bool
  | [] => true
  | v :: vs => v.keysDistinct && arrayKeysDistinct vs
/-- Every value of the map has distinct keys at every level. -/
def mapKeysDistinct : List (String × Value) → Bool
  | [] => true
  | (_, v) :: rest => v.keysDistinct && mapKeysDistinct rest
end

theorem arrayKeysDistinct_iff {vs : List Value} :
    arrayKeysDistinct vs = true ↔ ∀ v ∈ vs, v.keysDistinct = true := by
  induction vs with
  | nil => simp [arrayKeysDistinct]
  | cons v vs ih => simp [arrayKeysDistinct, ih]

theorem mapKeysDistinct_iff {m : JsonMap} :
    mapKeysDistinct m = true ↔ ∀ e ∈ m, e.2.keysDistinct = true := by
  induction m with
  | nil => simp [mapKeysDistinct]
  | cons e rest ih =>
    obtain ⟨k, v⟩ := e
    simp [mapKeysDistinct, ih]

@[simp] theorem keysDistinct_array {vs : List Value} :
    (Value.array vs).keysDistinct = true ↔ ∀ v ∈ vs, v.keysDistinct = true := by
  simp only [Value.keysDistinct, arrayKeysDistinct_iff]

@[simp] theorem keysDistinct_object {m : JsonMap} :
    (Value.object m).keysDistinct = true ↔
      (m.map Prod.fst).Nodup ∧ ∀ e ∈ m, e.2.keysDistinct = true := by
  simp only [Value.keysDistinct, Bool.and_eq_true, decide_eq_true_eq, mapKeysDistinct_iff]

/-! ## 2. Entries of an object map -/

theorem mem_of_lookup_eq_some {k : String} {v : Value} :
    ∀ {m : JsonMap}, m.lookup k = some v → (k, v) ∈ m
  | [], h => by simp at h
  | (k', v') :: rest, h => by
    by_cases hk : k = k'
    · subst hk
      simp only [List.lookup_cons_self, Option.some.injEq] at h
      subst h
      exact List.mem_cons_self
    · rw [lookup_cons_ne hk] at h
      exact List.mem_cons_of_mem _ (mem_of_lookup_eq_some h)

theorem mem_mapInsert {k : String} {v : Value} {e : String × Value} :
    ∀ {m : JsonMap}, e ∈ mapInsert k v m → e = (k, v) ∨ e ∈ m
  | [], h => Or.inl (List.mem_singleton.mp h)
  | (k', v') :: rest, h => by
    simp only [mapInsert] at h
    split at h
    · rcases List.mem_cons.mp h with rfl | h
      · exact Or.inl rfl
      · exact Or.inr (List.mem_cons_of_mem _ h)
    · rcases List.mem_cons.mp h with rfl | h
      · exact Or.inr List.mem_cons_self
      · exact (mem_mapInsert h).imp_right (List.mem_cons_of_mem _)

theorem mapRemove_sublist (k : String) : ∀ m : JsonMap, (mapRemove k m).2.Sublist m
  | [] => List.Sublist.slnil
  | (k', v') :: rest => by
    simp only [mapRemove]
    split
    · exact List.sublist_cons_self _ _
    · exact (mapRemove_sublist k rest).cons_cons _

/-- `Map::remove` returns the value a lookup finds. -/
theorem mapRemove_fst (k : String) : ∀ m : JsonMap, (mapRemove k m).1 = m.lookup k
  | [] => rfl
  | (k', v') :: rest => by
    simp only [mapRemove]
    split
    · rename_i h
      subst h
      simp
    · rename_i h
      rw [lookup_cons_ne (Ne.symm h), mapRemove_fst k rest]

section Distinct

variable {m : JsonMap} (hm : (Value.object m).keysDistinct = true)
include hm

theorem keysDistinct_of_lookup {k : String} {v : Value} (h : m.lookup k = some v) :
    v.keysDistinct = true :=
  (keysDistinct_object.mp hm).2 _ (mem_of_lookup_eq_some h)

theorem keysDistinct_mapInsert (k : String) {v : Value} (hv : v.keysDistinct = true) :
    (Value.object (mapInsert k v m)).keysDistinct = true := by
  obtain ⟨hnd, hvals⟩ := keysDistinct_object.mp hm
  refine keysDistinct_object.mpr ⟨nodup_mapInsert k v hnd, fun e he => ?_⟩
  rcases mem_mapInsert he with rfl | he
  · exact hv
  · exact hvals e he

theorem keysDistinct_mapRemove (k : String) :
    (Value.object (mapRemove k m).2).keysDistinct = true := by
  obtain ⟨hnd, hvals⟩ := keysDistinct_object.mp hm
  exact keysDistinct_object.mpr
    ⟨nodup_mapRemove k hnd, fun e he => hvals e ((mapRemove_sublist k m).subset he)⟩

end Distinct

/-! ## 3. The two loops over an array -/

/-- One element of `focus_array_path`'s loop. -/
def focusStep (arrayIndex : Option ℕ) (rest : Option (JsonMap → MultiValue Value))
    (acc : MultiValue Value) (vi : Value × ℕ) : MultiValue Value :=
  match vi.1 with
  | .object map =>
    if arrayIndex.all (· = vi.2) then
      match rest with
      | some f => acc.extend (f map)
      | none => acc.push vi.1
    else acc
  | _ => acc

/-- One element of `delete_array_path`'s loop below the array: the values removed so far, and
the elements kept. -/
def deleteStep (arrayIndex : Option ℕ) (f : JsonMap → MultiValue Value × JsonMap)
    (acc : MultiValue Value × List Value) (vi : Value × ℕ) : MultiValue Value × List Value :=
  match vi.1 with
  | .object map =>
    if arrayIndex.all (· = vi.2) then (acc.1.extend (f map).1, acc.2 ++ [.object (f map).2])
    else (acc.1, acc.2 ++ [vi.1])
  | v => (acc.1, acc.2 ++ [v])

/-- The element `delete_array_path` leaves in place of `vi`. -/
def deletedElem (arrayIndex : Option ℕ) (f : JsonMap → MultiValue Value × JsonMap)
    (vi : Value × ℕ) : Value :=
  match vi.1 with
  | .object map => if arrayIndex.all (· = vi.2) then .object (f map).2 else vi.1
  | v => v

section Loops

variable {a : List Char} {i : Option ℕ} {m : JsonMap} {arr : List Value}

theorem focusArrayPath_of_lookup (rest : Option (JsonMap → MultiValue Value))
    (hl : m.lookup (String.ofList a) = some (.array arr)) :
    focusArrayPath a i rest m = arr.zipIdx.foldl (focusStep i rest) (.single none) := by
  simp only [focusArrayPath, hl]
  rfl

theorem focusArrayPath_of_not_array (rest : Option (JsonMap → MultiValue Value))
    (hl : ¬∃ arr, m.lookup (String.ofList a) = some (.array arr)) :
    focusArrayPath a i rest m = .single none := by
  cases hlk : m.lookup (String.ofList a) with
  | none => simp only [focusArrayPath, hlk]
  | some v =>
    cases v
    case array arr => exact absurd ⟨arr, hlk⟩ hl
    all_goals simp only [focusArrayPath, hlk]

theorem deleteArrayPath_of_lookup (f : JsonMap → MultiValue Value × JsonMap)
    (hl : m.lookup (String.ofList a) = some (.array arr)) :
    deleteArrayPath a i (some f) m =
      ((arr.zipIdx.foldl (deleteStep i f) (.single none, [])).1,
        mapInsert (String.ofList a)
          (.array (arr.zipIdx.foldl (deleteStep i f) (.single none, [])).2) m) := by
  simp only [deleteArrayPath, hl]
  rfl

theorem deleteArrayPath_of_not_array (rest : Option (JsonMap → MultiValue Value × JsonMap))
    (hl : ¬∃ arr, m.lookup (String.ofList a) = some (.array arr)) :
    deleteArrayPath a i rest m = (.single none, m) := by
  cases hlk : m.lookup (String.ofList a) with
  | none => simp only [deleteArrayPath, hlk]
  | some v =>
    cases v
    case array arr => exact absurd ⟨arr, hlk⟩ hl
    all_goals simp only [deleteArrayPath, hlk]

end Loops

variable {i : Option ℕ}

/-- Below an array, the deleting loop removes what the reading loop collects, when each
object's removal returns what its read finds. -/
theorem foldl_deleteStep_fst {f : JsonMap → MultiValue Value × JsonMap}
    {g : JsonMap → MultiValue Value} (hfg : ∀ map, (f map).1 = g map) :
    ∀ (l : List (Value × ℕ)) (acc : MultiValue Value × List Value),
      (l.foldl (deleteStep i f) acc).1 = l.foldl (focusStep i (some g)) acc.1
  | [], _ => rfl
  | ⟨v, j⟩ :: l, acc => by
    rw [List.foldl_cons, List.foldl_cons, foldl_deleteStep_fst hfg l]
    congr 1
    cases v <;> simp only [deleteStep, focusStep]
    split <;> simp [hfg]

/-- The deleting loop keeps every element, each replaced by `deletedElem`. -/
theorem foldl_deleteStep_snd (f : JsonMap → MultiValue Value × JsonMap) :
    ∀ (l : List (Value × ℕ)) (acc : MultiValue Value × List Value),
      (l.foldl (deleteStep i f) acc).2 = acc.2 ++ l.map (deletedElem i f)
  | [], acc => by simp
  | ⟨v, j⟩ :: l, acc => by
    rw [List.foldl_cons, foldl_deleteStep_snd f l]
    have hstep : (deleteStep i f acc (v, j)).2 = acc.2 ++ [deletedElem i f (v, j)] := by
      cases v <;> simp only [deleteStep, deletedElem]
      split <;> rfl
    simp [hstep]

theorem MultiValue.iter_eq_nil_of_values {α : Type} {mv : MultiValue α} (h : mv.values = []) :
    mv.iter = [] := by
  cases mv <;> simp_all [MultiValue.iter, MultiValue.values]

/-- Numbering the elements of a numbered list again gives each its old number. -/
theorem zipIdx_map_zipIdx {α β : Type} (l : List α) (g : α × ℕ → β) :
    (l.zipIdx.map g).zipIdx = l.zipIdx.map fun vi => (g vi, vi.2) := by
  apply List.ext_getElem (by simp)
  intro n h₁ h₂
  simp [List.getElem_zipIdx]

/-- Reading the array the deleting loop left behind collects nothing, when the removal below
each addressed object leaves nothing there to read. -/
theorem foldl_focusStep_deletedElem {f : JsonMap → MultiValue Value × JsonMap}
    {g : JsonMap → MultiValue Value} :
    ∀ (l : List (Value × ℕ)), (∀ vi ∈ l, ∀ map, vi.1 = .object map → (g (f map).2).values = []) →
      ∀ acc : MultiValue Value,
        ((l.map fun vi => (deletedElem i f vi, vi.2)).foldl (focusStep i (some g)) acc).values =
          acc.values
  | [], _, _ => rfl
  | ⟨v, j⟩ :: l, h, acc => by
    rw [List.map_cons, List.foldl_cons,
      foldl_focusStep_deletedElem l (fun vi hvi => h vi (List.mem_cons_of_mem _ hvi))]
    cases v <;> simp only [deletedElem, focusStep]
    case object map =>
      have hnil := MultiValue.iter_eq_nil_of_values (h _ List.mem_cons_self map rfl)
      by_cases hi : i.all (· = j) = true
      · simp [hi, hnil]
      · simp [hi]

/-- The deleting loop keeps distinct keys in every element, when the removal below each
object does. -/
theorem keysDistinct_deletedElem {f : JsonMap → MultiValue Value × JsonMap}
    (hf : ∀ map, (Value.object map).keysDistinct = true →
      (Value.object (f map).2).keysDistinct = true)
    {l : List (Value × ℕ)} (hl : ∀ vi ∈ l, vi.1.keysDistinct = true) :
    ∀ v ∈ l.map (deletedElem i f), v.keysDistinct = true := by
  intro v hv
  obtain ⟨⟨w, j⟩, hmem, rfl⟩ := List.mem_map.mp hv
  have hw : w.keysDistinct = true := hl _ hmem
  cases w <;> simp only [deletedElem]
  case object map =>
    split
    · exact hf map hw
    · exact hw
  all_goals exact hw

section Arrays

variable {a : List Char} {m : JsonMap}

/-- Below an array, `delete_array_path` returns what `focus_array_path` reads. -/
theorem deleteArrayPath_fst {f : JsonMap → MultiValue Value × JsonMap}
    {g : JsonMap → MultiValue Value} (hfg : ∀ map, (f map).1 = g map) :
    (deleteArrayPath a i (some f) m).1 = focusArrayPath a i (some g) m := by
  by_cases harr : ∃ arr, m.lookup (String.ofList a) = some (.array arr)
  · obtain ⟨arr, hl⟩ := harr
    rw [deleteArrayPath_of_lookup f hl, focusArrayPath_of_lookup _ hl]
    exact foldl_deleteStep_fst hfg _ _
  · rw [deleteArrayPath_of_not_array _ harr, focusArrayPath_of_not_array _ harr]

variable (hm : (Value.object m).keysDistinct = true)
include hm

/-- After `delete_array_path` below an array, `focus_array_path` reads nothing there. -/
theorem values_focus_deleteArrayPath {f : JsonMap → MultiValue Value × JsonMap}
    {g : JsonMap → MultiValue Value}
    (hfg : ∀ map, (Value.object map).keysDistinct = true → (g (f map).2).values = []) :
    (focusArrayPath a i (some g) (deleteArrayPath a i (some f) m).2).values = [] := by
  by_cases harr : ∃ arr, m.lookup (String.ofList a) = some (.array arr)
  · obtain ⟨arr, hl⟩ := harr
    have helems := keysDistinct_array.mp (keysDistinct_of_lookup hm hl)
    rw [deleteArrayPath_of_lookup f hl, focusArrayPath_of_lookup _ (lookup_mapInsert_self _ _ _),
      foldl_deleteStep_snd, List.nil_append, zipIdx_map_zipIdx]
    refine foldl_focusStep_deletedElem _ (fun vi hvi map hv => hfg map ?_) _
    rw [← hv]
    exact helems _ (List.fst_mem_of_mem_zipIdx hvi)
  · rw [deleteArrayPath_of_not_array _ harr, focusArrayPath_of_not_array _ harr]
    rfl

/-- `delete_array_path` at the end of a path keeps the keys distinct. -/
theorem keysDistinct_deleteArrayPath_none :
    (Value.object (deleteArrayPath a i none m).2).keysDistinct = true := by
  by_cases harr : ∃ arr, m.lookup (String.ofList a) = some (.array arr)
  · obtain ⟨arr, hl⟩ := harr
    have helems := keysDistinct_array.mp (keysDistinct_of_lookup hm hl)
    simp only [deleteArrayPath, hl]
    split
    · split
      · exact keysDistinct_mapInsert hm _
          (keysDistinct_array.mpr fun v hv => helems v (List.mem_of_mem_eraseIdx hv))
      · exact hm
    · exact keysDistinct_mapInsert hm _ (by simp)
  · rw [deleteArrayPath_of_not_array _ harr]
    exact hm

/-- `delete_array_path` below an array keeps the keys distinct, when the removal below each
object does. -/
theorem keysDistinct_deleteArrayPath_some {f : JsonMap → MultiValue Value × JsonMap}
    (hf : ∀ map, (Value.object map).keysDistinct = true →
      (Value.object (f map).2).keysDistinct = true) :
    (Value.object (deleteArrayPath a i (some f) m).2).keysDistinct = true := by
  by_cases harr : ∃ arr, m.lookup (String.ofList a) = some (.array arr)
  · obtain ⟨arr, hl⟩ := harr
    have helems := keysDistinct_array.mp (keysDistinct_of_lookup hm hl)
    rw [deleteArrayPath_of_lookup f hl, foldl_deleteStep_snd, List.nil_append]
    exact keysDistinct_mapInsert hm _ (keysDistinct_array.mpr
      (keysDistinct_deletedElem hf fun vi hvi => helems _ (List.fst_mem_of_mem_zipIdx hvi)))
  · rw [deleteArrayPath_of_not_array _ harr]
    exact hm

end Arrays

/-- `delete_array_path` rewrites no top-level entry but the array's own. -/
theorem lookup_deleteArrayPath_ne {a : List Char} {m : JsonMap}
    (rest : Option (JsonMap → MultiValue Value × JsonMap)) {k : String}
    (hk : k ≠ String.ofList a) : (deleteArrayPath a i rest m).2.lookup k = m.lookup k := by
  by_cases harr : ∃ arr, m.lookup (String.ofList a) = some (.array arr)
  · obtain ⟨arr, hl⟩ := harr
    simp only [deleteArrayPath, hl]
    repeat' split
    all_goals first | rfl | exact lookup_mapInsert_ne _ _ hk
  · rw [deleteArrayPath_of_not_array _ harr]

/-! ## 4. Paths whose last segment names a key -/

/-- The last segment of a path names a key: it is not empty and has no array notation. -/
def leafIsKey (segs : List (List Char)) : Bool :=
  match segs.getLast? with
  | some p => !p.isEmpty && (parseArrayPath p).isNone
  | none => false

/-- The top-level key a path starts at: its first segment, less any array notation. -/
def headKey : List (List Char) → List Char
  | e :: _ =>
    match parseArrayPath e with
    | some (a, _) => a
    | none => e
  | [] => []

theorem leafIsKey_nil : leafIsKey [] = false := rfl

theorem leafIsKey_cons_cons {e r : List Char} {rs : List (List Char)} :
    leafIsKey (e :: r :: rs) = leafIsKey (r :: rs) := by
  simp only [leafIsKey, List.getLast?_cons_cons]

theorem parseArrayPath_of_leafIsKey {p : List Char} (h : leafIsKey [p] = true) :
    parseArrayPath p = none := by
  simp only [leafIsKey, List.getLast?_singleton, Bool.and_eq_true, Option.isNone_iff_eq_none] at h
  exact h.2

/-- A path whose last segment names a key does not end in a dot. -/
theorem ne_of_leafIsKey {segs : List (List Char)} (h : leafIsKey segs = true) : segs ≠ [[]] := by
  rintro rfl
  simp [leafIsKey] at h

/-- **What a removal returns**: for a path whose last segment names a key,
`remove_value_from_json_map` removes the values `get_value_from_json_map` reads. -/
theorem removeValueSegs_fst : ∀ (segs : List (List Char)) (m : JsonMap), leafIsKey segs = true →
    (removeValueSegs segs m).1 = getValueSegs segs m
  | [], _, h => absurd h (by simp [leafIsKey_nil])
  | [p], m, h => by
    simp only [removeValueSegs, getValueSegs, parseArrayPath_of_leafIsKey h, mapRemove_fst]
  | e :: r :: rs, m, h => by
    rw [leafIsKey_cons_cons] at h
    have ih : ∀ map, (removeValueSegs (r :: rs) map).1 = getValueSegs (r :: rs) map :=
      fun map => removeValueSegs_fst (r :: rs) map h
    cases he : parseArrayPath e with
    | some ai =>
      simp only [removeValueSegs, getValueSegs, he]
      exact deleteArrayPath_fst ih
    | none =>
      -- the key is not the last segment: the object below it, or nothing
      simp only [removeValueSegs, getValueSegs, he, if_neg (ne_of_leafIsKey h)]
      cases hl : m.lookup (String.ofList e) with
      | none => rfl
      | some v => cases v <;> simp [ih]

/-- **Nothing is left to read**: on a map whose objects all have distinct keys, after
`remove_value_from_json_map` at a path whose last segment names a key, a read of the path
finds no value. -/
theorem getValueSegs_removeValueSegs : ∀ (segs : List (List Char)) (m : JsonMap),
    leafIsKey segs = true → (Value.object m).keysDistinct = true →
      (getValueSegs segs (removeValueSegs segs m).2).values = []
  | [], _, h, _ => absurd h (by simp [leafIsKey_nil])
  | [p], m, h, hm => by
    simp only [removeValueSegs, getValueSegs, parseArrayPath_of_leafIsKey h,
      lookup_mapRemove_self (keysDistinct_object.mp hm).1]
    rfl
  | e :: r :: rs, m, h, hm => by
    rw [leafIsKey_cons_cons] at h
    have ih : ∀ map, (Value.object map).keysDistinct = true →
        (getValueSegs (r :: rs) (removeValueSegs (r :: rs) map).2).values = [] :=
      fun map hmap => getValueSegs_removeValueSegs (r :: rs) map h hmap
    have hne := ne_of_leafIsKey h
    cases he : parseArrayPath e with
    | some ai =>
      simp only [removeValueSegs, getValueSegs, he]
      exact values_focus_deleteArrayPath hm ih
    | none =>
      cases hl : m.lookup (String.ofList e) with
      | none =>
        simp only [removeValueSegs, getValueSegs, he, if_neg hne, hl]
        rfl
      | some v =>
        cases v
        case object map =>
          -- the object below the key is rewritten in place, and read again
          simp only [removeValueSegs, getValueSegs, he, if_neg hne, hl, lookup_mapInsert_self]
          exact ih map (keysDistinct_of_lookup hm hl)
        all_goals simp only [removeValueSegs, getValueSegs, he, if_neg hne, hl]; rfl

/-- **Distinct keys are kept**: a removal at any path keeps every object's keys distinct. -/
theorem keysDistinct_removeValueSegs : ∀ (segs : List (List Char)) (m : JsonMap),
    (Value.object m).keysDistinct = true →
      (Value.object (removeValueSegs segs m).2).keysDistinct = true
  | [], _, hm => hm
  | [p], m, hm => by
    simp only [removeValueSegs]
    split
    · exact keysDistinct_deleteArrayPath_none hm
    · exact keysDistinct_mapRemove hm _
  | e :: r :: rs, m, hm => by
    have ih : ∀ map, (Value.object map).keysDistinct = true →
        (Value.object (removeValueSegs (r :: rs) map).2).keysDistinct = true :=
      fun map hmap => keysDistinct_removeValueSegs (r :: rs) map hmap
    simp only [removeValueSegs]
    split
    · exact keysDistinct_deleteArrayPath_some hm ih
    · split
      · exact keysDistinct_mapRemove hm _
      · split
        · exact keysDistinct_mapInsert hm _ (ih _ (keysDistinct_of_lookup hm ‹_›))
        · exact hm

/-- **A removal is local**: it changes no top-level entry but the one its path starts at. -/
theorem lookup_removeValueSegs_ne : ∀ (segs : List (List Char)) (m : JsonMap) {k : String},
    k ≠ String.ofList (headKey segs) → (removeValueSegs segs m).2.lookup k = m.lookup k
  | [], _, _, _ => rfl
  | [p], m, k, hk => by
    cases hp : parseArrayPath p with
    | some ai =>
      simp only [headKey, hp] at hk
      simp only [removeValueSegs, hp]
      exact lookup_deleteArrayPath_ne _ hk
    | none =>
      simp only [headKey, hp] at hk
      simp only [removeValueSegs, hp]
      exact lookup_mapRemove_ne _ hk
  | e :: r :: rs, m, k, hk => by
    cases he : parseArrayPath e with
    | some ai =>
      simp only [headKey, he] at hk
      simp only [removeValueSegs, he]
      exact lookup_deleteArrayPath_ne _ hk
    | none =>
      simp only [headKey, he] at hk
      simp only [removeValueSegs, he]
      split
      · exact lookup_mapRemove_ne _ hk
      · split
        · exact lookup_mapInsert_ne _ _ hk
        · rfl

/-! ## 5. `delete_payload` -/

/-- **`Payload::remove` takes exactly what `Payload::get_value` reads.**  For a payload whose
objects all have distinct keys and a path whose last segment names a key: the values removed
are the values a read of the path returns; afterwards the path reads nothing; the keys stay
distinct at every level; and no top-level entry but the one the path starts at changes. -/
theorem payload_remove_returns_what_get_reads (p : Payload) (path : String)
    (hkey : leafIsKey (splitOnChar '.' path.toList) = true)
    (hdistinct : (Value.object p.map).keysDistinct = true) :
    (p.remove path).1 = (p.getValue path).values ∧
      ((p.remove path).2.getValue path).values = [] ∧
      (Value.object (p.remove path).2.map).keysDistinct = true ∧
      ∀ k, k ≠ String.ofList (headKey (splitOnChar '.' path.toList)) →
        (p.remove path).2.map.lookup k = p.map.lookup k := by
  refine ⟨?_, ?_, ?_, fun k hk => ?_⟩
  · simp only [Payload.remove, Payload.getValue, removeValueFromJsonMap, getValueFromJsonMap,
      removeValueSegs_fst _ _ hkey]
  · exact getValueSegs_removeValueSegs _ _ hkey hdistinct
  · exact keysDistinct_removeValueSegs _ _ hdistinct
  · exact lookup_removeValueSegs_ne _ _ hk

theorem payload_remove_returns_what_get_reads_nested :
    let p : Payload := ⟨[("a", .object [("b", .number (.posInt 1)), ("c", .null)]),
      ("d", .array [.object [("b", .bool true)]])], by decide⟩
    leafIsKey (splitOnChar '.' "a.b".toList) = true ∧
      (Value.object p.map).keysDistinct = true ∧
      (p.remove "a.b").1 = (p.getValue "a.b").values ∧
      ((p.remove "a.b").2.getValue "a.b").values = [] ∧
      (Value.object (p.remove "a.b").2.map).keysDistinct = true ∧
      ∀ k, k ≠ String.ofList (headKey (splitOnChar '.' "a.b".toList)) →
        (p.remove "a.b").2.map.lookup k = p.map.lookup k := by
  intro p
  have hkey : leafIsKey (splitOnChar '.' "a.b".toList) = true := by decide
  have hdistinct : (Value.object p.map).keysDistinct = true := by decide
  exact ⟨hkey, hdistinct, payload_remove_returns_what_get_reads p "a.b" hkey hdistinct⟩

/-! ## 6. `Payload::merge` -/

/-- What a merge of the entries `q` leaves at the key `k` of the map `m`: `q`'s value, unless
it is `null`, which deletes the key; the old value where `q` has none. -/
def mergeAt (q m : JsonMap) (k : String) : Option Value :=
  match q.lookup k with
  | some .null => none
  | some v => some v
  | none => m.lookup k

/-- One entry of the merge, read at a key. -/
theorem lookup_mergeEntry {m : JsonMap} (hm : (m.map Prod.fst).Nodup) (k' : String) (v : Value)
    (k : String) : (mergeEntry m (k', v)).lookup k = mergeAt [(k', v)] m k := by
  by_cases hk : k = k'
  · subst hk
    cases v <;> simp [mergeEntry, mergeAt, lookup_mapRemove_self hm, lookup_mapInsert_self]
  · have hne : k' ≠ k := Ne.symm hk
    cases v <;> simp [mergeEntry, mergeAt, lookup_mapRemove_ne _ hk, lookup_mapInsert_ne _ _ hk,
      lookup_cons_ne hk]

/-- **The merge loop**: on maps with distinct keys, the entries written one by one leave at
every key what `mergeAt` says. -/
theorem lookup_foldl_mergeEntry (k : String) :
    ∀ (l m : JsonMap), (l.map Prod.fst).Nodup → (m.map Prod.fst).Nodup →
      (l.foldl mergeEntry m).lookup k = mergeAt l m k
  | [], _, _, _ => rfl
  | (k', v) :: rest, m, hl, hm => by
    rw [List.map_cons, List.nodup_cons] at hl
    rw [List.foldl_cons, lookup_foldl_mergeEntry k rest _ hl.2 (nodup_mergeEntry hm _)]
    -- the later entries have other keys, so the first one decides at its own key
    by_cases hk : k = k'
    · subst hk
      have hrest : rest.lookup k = none :=
        List.lookup_eq_none_iff.mpr fun e he =>
          bne_iff_ne.mpr fun hek => hl.1 (List.mem_map.mpr ⟨e, he, hek.symm⟩)
      simp only [mergeAt, hrest, lookup_mergeEntry hm, List.lookup_cons_self]
    · simp only [mergeAt, lookup_cons_ne hk, lookup_mergeEntry hm]
      cases rest.lookup k <;> simp

/-- `Payload::merge`, read at a key. -/
theorem lookup_merge (p q : Payload) (k : String) :
    (p.merge q).map.lookup k = mergeAt q.map p.map k :=
  lookup_foldl_mergeEntry k q.map p.map q.nodup p.nodup

/-! ## 7. `assign` of the payload storage -/

/-- **`set_payload` on the storage**: at the point assigned, a stored payload is merged with the
new one (a `null` deletes its key) while a point without a payload gets the new one as given,
`null`s included; every other point keeps its payload. -/
theorem payloadStorage_assign_lookup (s : PayloadStorage) (id j : PointOffsetType) (q : Payload)
    (k : String) :
    ((s.assign id q).payload j).map.lookup k =
      if j = id then
        match OrdMap.get? id s.payloadMap with
        | some stored => mergeAt q.map stored.map k
        | none => q.map.lookup k
      else (s.payload j).map.lookup k := by
  unfold PayloadStorage.assign
  by_cases hj : j = id
  · -- the point assigned: its payload merged, or the new one stored
    subst hj
    cases OrdMap.get? j s.payloadMap <;>
      simp [PayloadStorage.payload, OrdMap.get?_insert, lookup_merge]
  · -- another point: the insertion is at another key
    cases OrdMap.get? id s.payloadMap <;> simp [PayloadStorage.payload, OrdMap.get?_insert, hj]

/-- The same `null` update, twice on a point without a payload: the first stores the `null`,
the second deletes the key. -/
example :
    let s : PayloadStorage := ⟨[]⟩
    let q : Payload := ⟨[("a", .null)], by decide⟩
    (((s.assign 0 q).payload 0).map.lookup "a").map Value.isNull = some true ∧
      ((((s.assign 0 q).assign 0 q).payload 0).map.lookup "a").isNone = true := by
  decide

end Qdrant
