/-
# JSON payloads: values, field paths, and the payload map

A point's payload is a JSON object (`types.rs`, `struct Payload(Map<String, Value>)`), and
every filter condition and every field index reads it through ONE function: the path lookup
`get_value_from_json_map` of `common/utils.rs`.  This module embeds that function, its
deleting twin `remove_value_from_json_map`, the `MultiValue` container both return, and
the two payload updates the segment performs, `Payload::merge` (for `set_payload`) and
`Payload::remove` (for `delete_payload`).

Three modelling decisions are made here once for the whole development.

* **Numbers.**  `serde_json::Number` keeps an unsigned integer, a negative integer or an
  `f64`.  Integers are `ℕ`/`ℤ`; a finite `f64` is a `ℚ`, and every `f64` operation the model
  performs is the exact one followed by `F64.round`, the rounding to the nearest binary64
  number (`Lib/F64.lean`): each integer read `as f64` (`Number::as_f64` here, `i64::to_f64` in
  the histogram and the range checker, the counts of the estimators and of the vacuum
  optimizer's ratio) and each `+`, `-`, `*`, `/`.  So an `i64` above `2 ^ 53` in magnitude is
  compared as the `f64` it rounds to, as in the code.  The rationals leave out NaN and the
  infinities.  Every float the payload filters compare is a finite JSON number.  Where the code
  can divide by a zero count, the quotient is multiplied by that same count before
  `as usize`, which turns the code's NaN or infinity into `0`, as the model's `x / 0 = 0`
  does; the vacuum optimizer's ratio, compared rather than cast, models `0 / 0` and `d / 0` as
  the code has them.  Overflow to an infinity is not modelled: it needs a difference of two
  `f64` histogram borders beyond `f64::MAX`.
* **Objects** are association lists.  `Map::insert` replaces in place, `Map::remove` drops
  the key; a payload carries the fact that its top-level keys are distinct (`Payload.nodup`).
* **Paths** are parsed as lists of characters.  `split_once('.')` applied repeatedly cuts a
  path at every dot, so the recursion of `get_value_from_json_map` runs over the list of
  dot-separated segments (`splitOnChar`); this makes it structural.
-/
import Mathlib
import Qdrant.Lib.F64

namespace Qdrant

/-! ## 1. Values -/

/-- `serde_json::Number`.  serde keeps `posInt` below `2^64` and `negInt` in `[-2^63, 0)`;
`float` is the `f64` case, modelled by a rational. -/
inductive Number where
  | posInt (n : ℕ)
  | negInt (i : ℤ)
  | float (f : ℚ)
deriving DecidableEq, Repr

/-- `i64::MAX`. -/
def i64Max : ℤ := 2 ^ 63 - 1

/-- `Number::as_i64`: integers that fit an `i64`; floats never. -/
def Number.asI64 : Number → Option ℤ
  | .posInt n => if (n : ℤ) ≤ i64Max then some n else none
  | .negInt i => some i
  | .float _ => none

/-- `Number::as_f64`: every number converts, an integer `as f64`. -/
def Number.asF64 : Number → Option ℚ
  | .posInt n => some (F64.round n)
  | .negInt i => some (F64.round i)
  | .float f => some f

/-- `serde_json::Value`. -/
inductive Value where
  | null
  | bool (b : Bool)
  | number (n : Number)
  | string (s : String)
  | array (vs : List Value)
  | object (m : List (String × Value))
deriving Repr

/-- A JSON object's entries, in map order. -/
abbrev JsonMap := List (String × Value)

/-- `Value::is_null`. -/
def Value.isNull : Value → Bool
  | .null => true
  | _ => false

/-! ## 2. Object maps -/

/-- `Map::insert`: replace the value of an existing key in place, or append a new entry. -/
def mapInsert (k : String) (v : Value) : JsonMap → JsonMap
  | [] => [(k, v)]
  | (k', v') :: rest => if k' = k then (k, v) :: rest else (k', v') :: mapInsert k v rest

/-- `Map::remove`: the removed value, and the map without the key. -/
def mapRemove (k : String) : JsonMap → Option Value × JsonMap
  | [] => (none, [])
  | (k', v') :: rest =>
    if k' = k then (some v', rest) else ((mapRemove k rest).1, (k', v') :: (mapRemove k rest).2)

/-- `Map::get_mut` followed by an update of the found value in place. -/
def mapUpdate (k : String) (f : Value → Value) : JsonMap → JsonMap
  | [] => []
  | (k', v') :: rest => if k' = k then (k', f v') :: rest else (k', v') :: mapUpdate k f rest

/-- Looking past an entry with another key. -/
theorem lookup_cons_ne {j k : String} {v : Value} {m : JsonMap} (h : j ≠ k) :
    ((k, v) :: m).lookup j = m.lookup j := by
  simp [List.lookup_cons, beq_false_of_ne h]

@[simp] theorem keys_mapInsert (k : String) (v : Value) (m : JsonMap) :
    (mapInsert k v m).map Prod.fst = if k ∈ m.map Prod.fst then m.map Prod.fst
      else m.map Prod.fst ++ [k] := by
  induction m with
  | nil => simp [mapInsert]
  | cons e rest ih =>
    obtain ⟨k', v'⟩ := e
    by_cases h : k' = k
    · subst h; simp [mapInsert]
    · simp only [mapInsert, if_neg h, List.map_cons, ih, List.mem_cons]
      by_cases hk : k ∈ rest.map Prod.fst
      · simp [hk]
      · simp [hk, Ne.symm h]

theorem lookup_mapInsert_self (k : String) (v : Value) (m : JsonMap) :
    (mapInsert k v m).lookup k = some v := by
  induction m with
  | nil => simp [mapInsert]
  | cons e rest ih =>
    obtain ⟨k', v'⟩ := e
    by_cases h : k' = k
    · subst h; simp [mapInsert]
    · simp only [mapInsert, if_neg h]
      rw [lookup_cons_ne (Ne.symm h), ih]

theorem lookup_mapInsert_ne {k j : String} (v : Value) (m : JsonMap) (h : j ≠ k) :
    (mapInsert k v m).lookup j = m.lookup j := by
  induction m with
  | nil => simp only [mapInsert, lookup_cons_ne h, List.lookup_nil]
  | cons e rest ih =>
    obtain ⟨k', v'⟩ := e
    by_cases hk : k' = k
    · subst hk
      simp [mapInsert, lookup_cons_ne h]
    · simp only [mapInsert, if_neg hk]
      by_cases hj : j = k'
      · subst hj; simp
      · rw [lookup_cons_ne hj, lookup_cons_ne hj, ih]

theorem keys_mapRemove_sublist (k : String) (m : JsonMap) :
    ((mapRemove k m).2.map Prod.fst).Sublist (m.map Prod.fst) := by
  induction m with
  | nil => simp [mapRemove]
  | cons e rest ih =>
    obtain ⟨k', v'⟩ := e
    by_cases h : k' = k
    · simp [mapRemove, h]
    · simpa [mapRemove, h] using ih.cons_cons k'

/-- On a map with distinct keys, removing a key makes it absent. -/
theorem lookup_mapRemove_self {k : String} {m : JsonMap} (hm : (m.map Prod.fst).Nodup) :
    (mapRemove k m).2.lookup k = none := by
  induction m with
  | nil => simp [mapRemove]
  | cons e rest ih =>
    obtain ⟨k', v'⟩ := e
    simp only [List.map_cons, List.nodup_cons] at hm
    by_cases h : k' = k
    · subst h
      simp only [mapRemove, ite_true, List.lookup_eq_none_iff, bne_iff_ne]
      intro p hp hk
      exact hm.1 (List.mem_map.mpr ⟨p, hp, hk.symm⟩)
    · simp only [mapRemove, if_neg h]
      rw [lookup_cons_ne (Ne.symm h), ih hm.2]

theorem lookup_mapRemove_ne {k j : String} (m : JsonMap) (h : j ≠ k) :
    (mapRemove k m).2.lookup j = m.lookup j := by
  induction m with
  | nil => simp [mapRemove]
  | cons e rest ih =>
    obtain ⟨k', v'⟩ := e
    by_cases hk : k' = k
    · subst hk
      simp [mapRemove, lookup_cons_ne h]
    · simp only [mapRemove, if_neg hk]
      by_cases hj : j = k'
      · subst hj; simp
      · rw [lookup_cons_ne hj, lookup_cons_ne hj, ih]

/-! ## 3. `MultiValue` -/

/-- `MultiValue<T>`: no value, one value, or several (`common/utils.rs`). -/
inductive MultiValue (α : Type) where
  | single (v : Option α)
  | multiple (vs : List α)
deriving Repr

namespace MultiValue

variable {α : Type}

/-- `MultiValue::push`: a second value turns a `Single` into a `Multiple`. -/
def push : MultiValue α → α → MultiValue α
  | .single none, v => .single (some v)
  | .single (some u), v => .multiple [u, v]
  | .multiple vs, v => .multiple (vs ++ [v])

/-- The `Iterator` impl: `Single` yields its value, `Multiple` POPS from the back, so its
values come out in reverse order. -/
def iter : MultiValue α → List α
  | .single v => v.toList
  | .multiple vs => vs.reverse

/-- `MultiValue::extend`: push everything the iterator yields. -/
def extend (mv : MultiValue α) (other : MultiValue α) : MultiValue α :=
  other.iter.foldl push mv

/-- `MultiValue::values`. -/
def values : MultiValue α → List α
  | .single v => v.toList
  | .multiple vs => vs

@[simp] theorem values_push (mv : MultiValue α) (v : α) : (mv.push v).values = mv.values ++ [v] := by
  cases mv with
  | single o => cases o <;> rfl
  | multiple vs => rfl

theorem values_foldl_push (l : List α) (mv : MultiValue α) :
    (l.foldl push mv).values = mv.values ++ l := by
  induction l generalizing mv with
  | nil => simp
  | cons x xs ih => simp [ih]

@[simp] theorem values_extend (mv other : MultiValue α) :
    (mv.extend other).values = mv.values ++ other.iter := values_foldl_push _ _

end MultiValue

/-- `MultiValue<&Value>::check_is_empty`: no value, or only empty arrays and nulls. -/
def MultiValue.checkIsEmpty : MultiValue Value → Bool
  | .multiple vs => vs.all fun
      | .array xs => xs.isEmpty
      | .null => true
      | _ => false
  | .single none => true
  | .single (some (.array xs)) => xs.isEmpty
  | .single (some .null) => true
  | .single (some _) => false

/-- `MultiValue<&Value>::check_is_null`: a null among the values. -/
def MultiValue.checkIsNull : MultiValue Value → Bool
  | .single (some v) => v.isNull
  | .single none => false
  | .multiple vs => vs.any Value.isNull

/-! ## 4. Parsing a field path -/

/-- `str::split(c)`: the pieces between the separators, empty pieces included. -/
def splitOnChar (c : Char) : List Char → List (List Char)
  | [] => [[]]
  | x :: xs =>
    if x = c then [] :: splitOnChar c xs
    else match splitOnChar c xs with
      | [] => [[x]]
      | p :: ps => (x :: p) :: ps

/-- `str::trim_matches(c)`. -/
def trimMatches (c : Char) (s : List Char) : List Char :=
  ((s.dropWhile (· = c)).reverse.dropWhile (· = c)).reverse

/-- The value of a string of decimal digits. -/
def digitsValue (s : List Char) : ℕ :=
  s.foldl (fun acc d => 10 * acc + (d.toNat - '0'.toNat)) 0

/-- `u32::from_str`: an optional `+`, at least one digit, nothing else, and no overflow. -/
def parseU32 (s : List Char) : Option ℕ :=
  let digits := match s with
    | '+' :: rest => rest
    | _ => s
  if digits ≠ [] ∧ digits.all Char.isDigit ∧ digitsValue digits < 2 ^ 32 then
    some (digitsValue digits)
  else none

/-- `parse_array_path`: `a[]` targets every element of the array `a`, `a[3]` only the
fourth; anything after a second `[` is ignored, as `split('[')` only reads two pieces. -/
def parseArrayPath (path : List Char) : Option (List Char × Option ℕ) :=
  if path.contains '[' = false ∨ path.getLast? ≠ some ']' then none
  else match splitOnChar '[' path with
    | element :: index :: _ =>
      if index = [']'] then some (element, none)
      else (parseU32 (trimMatches ']' index)).map fun n => (element, some n)
    | [element] => some (element, none)
    | [] => none

/-! ## 5. `get_value_from_json_map` -/

/-- `focus_array_path`: the objects of the array stored under `arrayPath` (all of them, or
only the one at `arrayIndex`), each either continued with the rest of the path `rest` or,
at the end of the path, taken whole.  Elements that are not objects are skipped. -/
def focusArrayPath (arrayPath : List Char) (arrayIndex : Option ℕ)
    (rest : Option (JsonMap → MultiValue Value)) (m : JsonMap) : MultiValue Value :=
  match m.lookup (String.ofList arrayPath) with
  | some (.array arr) =>
    arr.zipIdx.foldl (fun acc vi =>
      match vi.1 with
      | .object map =>
        if arrayIndex.all (· = vi.2) then
          match rest with
          | some f => acc.extend (f map)
          | none => acc.push vi.1
        else acc
      | _ => acc) (.single none)
  | _ => .single none

/-- `get_value_from_json_map`, over the dot-separated segments of the path.  A segment
list `e :: r :: rs` is the `split_once('.') = Some((e, rest))` case with `rest` the
segments `r :: rs`; `rest.is_empty()` holds exactly when they are `[[]]`. -/
def getValueSegs : List (List Char) → JsonMap → MultiValue Value
  | [], _ => .single none
  | [p], m =>
    match parseArrayPath p with
    | some (a, i) => focusArrayPath a i none m
    | none => .single (m.lookup (String.ofList p))
  | e :: r :: rs, m =>
    match parseArrayPath e with
    | some (a, i) => focusArrayPath a i (some (getValueSegs (r :: rs))) m
    | none =>
      match m.lookup (String.ofList e) with
      | some (.object map) => getValueSegs (r :: rs) map
      | some v => if r :: rs = [[]] then .single (some v) else .single none
      | none => .single none

/-- `get_value_from_json_map(path, value)`. -/
def getValueFromJsonMap (path : String) (m : JsonMap) : MultiValue Value :=
  getValueSegs (splitOnChar '.' path.toList) m

/-! ## 6. `remove_value_from_json_map` -/

/-- `delete_array_path`: removes from the array under `arrayPath` either the addressed
element(s) (end of the path) or, below each addressed object, the rest of the path.  The
whole-array case drains the array but keeps the key. -/
def deleteArrayPath (arrayPath : List Char) (arrayIndex : Option ℕ)
    (rest : Option (JsonMap → MultiValue Value × JsonMap)) (m : JsonMap) :
    MultiValue Value × JsonMap :=
  let key := String.ofList arrayPath
  match m.lookup key with
  | some (.array arr) =>
    match rest with
    | none =>
      match arrayIndex with
      | some i =>
        if i < arr.length then (.single arr[i]?, mapInsert key (.array (arr.eraseIdx i)) m)
        else (.single none, m)
      | none => (.single (some (.array arr)), mapInsert key (.array []) m)
    | some f =>
      let step := fun (acc : MultiValue Value × List Value) (vi : Value × ℕ) =>
        match vi.1 with
        | .object map =>
          if arrayIndex.all (· = vi.2) then
            (acc.1.extend (f map).1, acc.2 ++ [.object (f map).2])
          else (acc.1, acc.2 ++ [vi.1])
        | v => (acc.1, acc.2 ++ [v])
      let res := arr.zipIdx.foldl step (.single none, [])
      (res.1, mapInsert key (.array res.2) m)
  | _ => (.single none, m)

/-- `remove_value_from_json_map`, over path segments as `getValueSegs`. -/
def removeValueSegs : List (List Char) → JsonMap → MultiValue Value × JsonMap
  | [], m => (.single none, m)
  | [p], m =>
    match parseArrayPath p with
    | some (a, i) => deleteArrayPath a i none m
    | none => ((.single (mapRemove (String.ofList p) m).1), (mapRemove (String.ofList p) m).2)
  | e :: r :: rs, m =>
    match parseArrayPath e with
    | some (a, i) => deleteArrayPath a i (some (removeValueSegs (r :: rs))) m
    | none =>
      if r :: rs = [[]] then
        ((.single (mapRemove (String.ofList e) m).1), (mapRemove (String.ofList e) m).2)
      else
        match m.lookup (String.ofList e) with
        | some (.object map) =>
          ((removeValueSegs (r :: rs) map).1,
            mapInsert (String.ofList e) (.object (removeValueSegs (r :: rs) map).2) m)
        | _ => (.single none, m)

/-- `remove_value_from_json_map(path, value)`. -/
def removeValueFromJsonMap (path : String) (m : JsonMap) : MultiValue Value × JsonMap :=
  removeValueSegs (splitOnChar '.' path.toList) m

/-! ## 7. The payload -/

/-- `Payload(Map<String, Value>)`: a JSON object, whose keys are distinct. -/
structure Payload where
  map : JsonMap
  nodup : (map.map Prod.fst).Nodup

/-- `Payload::default()`. -/
def Payload.empty : Payload := ⟨[], List.nodup_nil⟩

theorem nodup_mapInsert (k : String) (v : Value) {m : JsonMap}
    (h : (m.map Prod.fst).Nodup) : ((mapInsert k v m).map Prod.fst).Nodup := by
  rw [keys_mapInsert]
  split_ifs with hk
  · exact h
  · exact List.nodup_append.mpr ⟨h, List.nodup_singleton k, by simp; grind⟩

theorem nodup_mapRemove (k : String) {m : JsonMap} (h : (m.map Prod.fst).Nodup) :
    ((mapRemove k m).2.map Prod.fst).Nodup :=
  (keys_mapRemove_sublist k m).nodup h

/-- One entry of `Payload::merge`: a `null` deletes the key, any other value is written. -/
def mergeEntry (m : JsonMap) (kv : String × Value) : JsonMap :=
  match kv.2 with
  | .null => (mapRemove kv.1 m).2
  | v => mapInsert kv.1 v m

theorem nodup_mergeEntry {m : JsonMap} (h : (m.map Prod.fst).Nodup) (kv : String × Value) :
    ((mergeEntry m kv).map Prod.fst).Nodup := by
  unfold mergeEntry
  split
  · exact nodup_mapRemove _ h
  · exact nodup_mapInsert _ _ h

/-- `Payload::merge`: the other payload's top-level keys are written one by one. -/
def Payload.merge (p q : Payload) : Payload where
  map := q.map.foldl mergeEntry p.map
  nodup := by
    have key : ∀ (l : List (String × Value)) (m : JsonMap), (m.map Prod.fst).Nodup →
        ((l.foldl mergeEntry m).map Prod.fst).Nodup := by
      intro l
      induction l with
      | nil => intro m h; exact h
      | cons kv rest ih => intro m h; exact ih _ (nodup_mergeEntry h kv)
    exact key q.map p.map p.nodup

/-- `Payload::get_value`. -/
def Payload.getValue (p : Payload) (path : String) : MultiValue Value :=
  getValueFromJsonMap path p.map

theorem nodup_deleteArrayPath (a : List Char) (i : Option ℕ)
    (rest : Option (JsonMap → MultiValue Value × JsonMap)) {m : JsonMap}
    (h : (m.map Prod.fst).Nodup) : ((deleteArrayPath a i rest m).2.map Prod.fst).Nodup := by
  -- every branch either leaves `m` alone or rewrites the array's own key
  simp only [deleteArrayPath]
  split
  · repeat' split
    all_goals first | exact h | exact nodup_mapInsert _ _ h
  · exact h

/-- A removal rewrites only the top-level entry its path starts at. -/
theorem nodup_removeValueSegs (segs : List (List Char)) {m : JsonMap}
    (h : (m.map Prod.fst).Nodup) : ((removeValueSegs segs m).2.map Prod.fst).Nodup := by
  match segs with
  | [] => exact h
  | [p] =>
    simp only [removeValueSegs]
    split
    · exact nodup_deleteArrayPath _ _ _ h
    · exact nodup_mapRemove _ h
  | e :: r :: rs =>
    simp only [removeValueSegs]
    split
    · exact nodup_deleteArrayPath _ _ _ h
    · split
      · exact nodup_mapRemove _ h
      · split
        · exact nodup_mapInsert _ _ h
        · exact h

/-- `Payload::remove`: the removed values, and the payload without them. -/
def Payload.remove (p : Payload) (path : String) : List Value × Payload :=
  ((removeValueFromJsonMap path p.map).1.values,
    ⟨(removeValueFromJsonMap path p.map).2, nodup_removeValueSegs _ p.nodup⟩)

/-! ## 8. Equality of JSON values -/

mutual
/-- `PartialEq for Value`: objects are equal as maps, whatever their key order. -/
def Value.jsonEq : Value → Value → Bool
  | .null, .null => true
  | .bool a, .bool b => a == b
  | .number a, .number b => a == b
  | .string a, .string b => a == b
  | .array a, .array b => arrayJsonEq a b
  | .object a, .object b => a.length == b.length && entriesJsonIn a b
  | _, _ => false
/-- Arrays: element by element. -/
def arrayJsonEq : List Value → List Value → Bool
  | [], [] => true
  | a :: as, b :: bs => a.jsonEq b && arrayJsonEq as bs
  | _, _ => false
/-- Every entry of the first object is in the second, with an equal value. -/
def entriesJsonIn : List (String × Value) → List (String × Value) → Bool
  | [], _ => true
  | (k, v) :: rest, b => (match b.lookup k with
      | some w => v.jsonEq w
      | none => false) && entriesJsonIn rest b
end

/-- `PartialEq for Payload`. -/
def Payload.jsonEq (p q : Payload) : Bool := (Value.object p.map).jsonEq (.object q.map)

end Qdrant
