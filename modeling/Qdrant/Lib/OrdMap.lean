/-
# Ordered maps as sorted association lists

A `BTreeMap<K, V>` (and a `BTreeSet<K>`, a map to `Unit`) is modelled by the list of its
entries in ascending key order.  The operations are the ones an ordered map offers: `insert`
(replacing an existing key), `erase`, `get?`, and `range` between two `Bound`s, which yields the
entries in key order.  Sortedness is a separate predicate (`Sorted`), kept by `insert` and
`erase` (`sorted_insert`, `sorted_erase`), so that every lemma that needs it says so.

Nothing here is specific to one program: keys are any linear order.
-/
import Mathlib

namespace OrdMap

/-- `std::ops::Bound`: one end of a key range. -/
inductive Bound (κ : Type) where
  | included (k : κ)
  | excluded (k : κ)
  | unbounded
deriving DecidableEq, Repr

variable {κ β : Type} [LinearOrder κ]

/-- `k` lies above the lower end `lo`. -/
def Bound.above : Bound κ → κ → Bool
  | .included b, k => b ≤ k
  | .excluded b, k => b < k
  | .unbounded, _ => true

/-- `k` lies below the upper end `hi`. -/
def Bound.below : Bound κ → κ → Bool
  | .included b, k => k ≤ b
  | .excluded b, k => k < b
  | .unbounded, _ => true

/-- Keys strictly ascending: the shape of a `BTreeMap`'s entry list. -/
def Sorted (m : List (κ × β)) : Prop := (m.map Prod.fst).Pairwise (· < ·)

instance (m : List (κ × β)) : Decidable (Sorted m) :=
  inferInstanceAs (Decidable ((m.map Prod.fst).Pairwise (· < ·)))

/-- The empty map is sorted. -/
theorem sorted_nil : Sorted ([] : List (κ × β)) := List.Pairwise.nil

/-- `insert k v`: the entry for `k` is replaced, or added at its place. -/
def insert (k : κ) (v : β) : List (κ × β) → List (κ × β)
  | [] => [(k, v)]
  | (k', v') :: rest =>
    if k < k' then (k, v) :: (k', v') :: rest
    else if k = k' then (k, v) :: rest
    else (k', v') :: insert k v rest

/-- `remove k`. -/
def erase (k : κ) (m : List (κ × β)) : List (κ × β) := m.filter (fun e => e.1 ≠ k)

/-- `get k`. -/
def get? (k : κ) (m : List (κ × β)) : Option β := (m.find? (fun e => e.1 = k)).map Prod.snd

/-- `range((lo, hi))`: the entries between the two ends, in key order. -/
def range (lo hi : Bound κ) (m : List (κ × β)) : List (κ × β) :=
  m.filter (fun e => lo.above e.1 && hi.below e.1)

/-- `range((lo, hi))` panics when the start lies above the end, or when both ends exclude the
same key: the bounds it accepts. -/
def rangeValid : Bound κ → Bound κ → Bool
  | .excluded s, .excluded e => s < e
  | .included s, .included e | .included s, .excluded e | .excluded s, .included e => s ≤ e
  | _, _ => true

/-! ## Lemmas -/

/-- Every entry of `insert k v m` is the new one or an old one. -/
theorem mem_of_mem_insert {k : κ} {v : β} {m : List (κ × β)} {e : κ × β}
    (h : e ∈ insert k v m) : e = (k, v) ∨ e ∈ m := by
  induction m with
  | nil => simpa [insert] using h
  | cons x rest ih =>
    obtain ⟨k', v'⟩ := x
    unfold insert at h
    split_ifs at h with h1 h2
    · simpa using h
    · rcases List.mem_cons.mp h with h | h
      · exact Or.inl h
      · exact Or.inr (List.mem_cons_of_mem _ h)
    · rcases List.mem_cons.mp h with h | h
      · exact Or.inr (h ▸ List.mem_cons_self)
      · rcases ih h with h | h
        · exact Or.inl h
        · exact Or.inr (List.mem_cons_of_mem _ h)

theorem sorted_insert {k : κ} {v : β} {m : List (κ × β)} (h : Sorted m) :
    Sorted (insert k v m) := by
  induction m with
  | nil => simp [Sorted, insert]
  | cons x rest ih =>
    obtain ⟨k', v'⟩ := x
    simp only [Sorted, List.map_cons, List.pairwise_cons] at h
    unfold insert
    split_ifs with h1 h2
    · simp only [Sorted, List.map_cons, List.pairwise_cons, List.mem_cons]
      refine ⟨?_, h.1, h.2⟩
      rintro a (rfl | ha)
      · exact h1
      · exact lt_trans h1 (h.1 a ha)
    · subst h2
      simpa [Sorted] using h
    · simp only [Sorted, List.map_cons, List.pairwise_cons]
      refine ⟨?_, ih h.2⟩
      intro a ha
      obtain ⟨e, he, rfl⟩ := List.mem_map.mp ha
      rcases mem_of_mem_insert he with rfl | he'
      · exact lt_of_le_of_ne (not_lt.mp h1) (Ne.symm h2)
      · exact h.1 _ (List.mem_map.mpr ⟨e, he', rfl⟩)

theorem sorted_erase {k : κ} {m : List (κ × β)} (h : Sorted m) : Sorted (erase k m) :=
  h.sublist ((List.filter_sublist).map Prod.fst)

/-- A key is in the map exactly when `get?` finds it. -/
theorem mem_keys_iff_isSome {k : κ} {m : List (κ × β)} :
    k ∈ m.map Prod.fst ↔ (get? k m).isSome := by
  simp [get?]

/-- Inserting at a key twice keeps the last value. -/
@[simp] theorem insert_insert_self (k : κ) (v v' : β) (m : List (κ × β)) :
    insert k v (insert k v' m) = insert k v m := by
  induction m with
  | nil => simp [insert]
  | cons e rest ih =>
    obtain ⟨k', w⟩ := e
    by_cases h1 : k < k'
    · simp [insert, h1]
    · by_cases h2 : k = k'
      · subst h2
        simp [insert]
      · simp [insert, h1, h2, ih]

theorem get?_cons (j : κ) (e : κ × β) (m : List (κ × β)) :
    get? j (e :: m) = if e.1 = j then some e.2 else get? j m := by
  by_cases h : e.1 = j <;> simp [get?, h]

theorem get?_insert (j k : κ) (v : β) (m : List (κ × β)) :
    get? j (insert k v m) = if j = k then some v else get? j m := by
  induction m with
  | nil => by_cases h : j = k <;> simp [get?, insert, h, eq_comm]
  | cons x rest ih =>
    obtain ⟨k', v'⟩ := x
    unfold insert
    by_cases h1 : k < k'
    · rw [if_pos h1, get?_cons, get?_cons (e := (k', v'))]
      by_cases hj : j = k <;> simp [hj, eq_comm]
    · rw [if_neg h1]
      by_cases h2 : k = k'
      · subst h2
        rw [if_pos rfl, get?_cons, get?_cons (e := (k, v'))]
        by_cases hj : j = k <;> simp [hj, eq_comm]
      · rw [if_neg h2, get?_cons, get?_cons (e := (k', v')), ih]
        by_cases hj : j = k
        · subst hj; simp [Ne.symm h2]
        · simp [hj]

theorem get?_erase (j k : κ) (m : List (κ × β)) :
    get? j (erase k m) = if j = k then none else get? j m := by
  induction m with
  | nil => simp [get?, erase]
  | cons x rest ih =>
    have ih' : get? j (erase k rest) = if j = k then none else get? j rest := ih
    by_cases hk : x.1 = k
    · have he : erase k (x :: rest) = erase k rest := by
        simp [erase, hk]
      rw [he, ih', get?_cons]
      by_cases hj : j = k
      · simp [hj]
      · simp [hj, hk, Ne.symm hj]
    · have he : erase k (x :: rest) = x :: erase k rest := by
        simp [erase, hk]
      rw [he, get?_cons, get?_cons, ih']
      by_cases hj : j = k
      · subst hj; simp [hk]
      · simp [hj]

theorem get?_eq_none_of_not_mem {k : κ} {m : List (κ × β)} (h : k ∉ m.map Prod.fst) :
    get? k m = none := by
  simp only [get?, Option.map_eq_none_iff, List.find?_eq_none]
  intro e he hk
  exact h (List.mem_map.mpr ⟨e, he, by simpa using hk⟩)

/-- Keeping the entries whose value passes a test keeps the lookups that pass it. -/
theorem get?_filter_snd (q : β → Bool) (k : κ) {m : List (κ × β)} (h : Sorted m) :
    get? k (m.filter fun e => q e.2) = (get? k m).filter q := by
  induction m with
  | nil => rfl
  | cons e rest ih =>
    simp only [Sorted, List.map_cons, List.pairwise_cons] at h
    have hrest : get? k (rest.filter fun e => q e.2) = (get? k rest).filter q := ih h.2
    by_cases hk : e.1 = k
    · -- the head holds the key, so the rest does not
      have hnot : k ∉ rest.map Prod.fst := fun hm => lt_irrefl _ (hk ▸ h.1 k hm)
      have hnone : get? k rest = none := get?_eq_none_of_not_mem hnot
      rw [List.filter_cons, get?_cons, if_pos hk]
      by_cases hq : q e.2 = true
      · rw [if_pos hq, get?_cons, if_pos hk, Option.filter_some, if_pos hq]
      · rw [if_neg hq, hrest, hnone, Option.filter_none, Option.filter_some, if_neg hq]
    · rw [List.filter_cons, get?_cons, if_neg hk]
      split
      · rw [get?_cons, if_neg hk, hrest]
      · exact hrest

/-- A value the map looks up is one of its entries. -/
theorem mem_of_get? {k : κ} {v : β} {m : List (κ × β)} (h : get? k m = some v) : (k, v) ∈ m := by
  simp only [get?, Option.map_eq_some_iff] at h
  obtain ⟨e, he, rfl⟩ := h
  have hk : e.1 = k := by simpa using List.find?_some he
  have hm : e ∈ m := List.mem_of_find?_eq_some he
  rw [← hk]
  exact hm

/-- In a sorted map, every entry is what its key looks up. -/
theorem get?_of_mem {k : κ} {v : β} {m : List (κ × β)} (h : Sorted m) (he : (k, v) ∈ m) :
    get? k m = some v := by
  induction m with
  | nil => simp at he
  | cons e rest ih =>
    simp only [Sorted, List.map_cons, List.pairwise_cons] at h
    rw [get?_cons]
    rcases List.mem_cons.mp he with rfl | hr
    · simp
    · -- the head's key is below every later key, so it is not `k`
      have hne : e.1 ≠ k := by
        intro hk
        have hlt := h.1 k (List.mem_map.mpr ⟨(k, v), hr, rfl⟩)
        rw [hk] at hlt
        exact lt_irrefl _ hlt
      rw [if_neg hne]
      exact ih h.2 hr

theorem mem_range {lo hi : Bound κ} {m : List (κ × β)} {e : κ × β} :
    e ∈ range lo hi m ↔ e ∈ m ∧ lo.above e.1 = true ∧ hi.below e.1 = true := by
  simp [range]

/-- A key between two bounds makes them bounds that `range` accepts. -/
theorem rangeValid_of_above_of_below {lo hi : Bound κ} {k : κ} (hlo : lo.above k = true)
    (hhi : hi.below k = true) : rangeValid lo hi = true := by
  cases lo <;> cases hi <;> simp only [Bound.above, Bound.below, decide_eq_true_eq] at hlo hhi <;>
    simp only [rangeValid, decide_eq_true_eq] <;> order

/-- Bounds on which `range` would panic admit no key: returning nothing for them returns what
`range` holds. -/
theorem range_eq_nil_of_rangeValid_eq_false {lo hi : Bound κ} (h : rangeValid lo hi = false)
    (m : List (κ × β)) : range lo hi m = [] := by
  rw [range, List.filter_eq_nil_iff]
  intro e _ hin
  rw [Bool.and_eq_true] at hin
  rw [rangeValid_of_above_of_below hin.1 hin.2] at h
  exact Bool.noConfusion h

/-! ## A sorted map cut into pieces

A sorted map is the entries at or below a key followed by those above it; writing at a key
that lies between two pieces changes only the place between them.  These are the rules by
which an update near one key is computed on a map `A ++ W ++ B`. -/

theorem sorted_append {A B : List (κ × β)} :
    Sorted (A ++ B) ↔ Sorted A ∧ Sorted B ∧ ∀ a ∈ A, ∀ b ∈ B, a.1 < b.1 := by
  simp [Sorted, List.pairwise_append]

theorem sorted_cons {e : κ × β} {B : List (κ × β)} :
    Sorted (e :: B) ↔ (∀ b ∈ B, e.1 < b.1) ∧ Sorted B := by
  simp [Sorted, List.pairwise_cons]

/-- The entries at or below `v`, then those above it: the whole sorted map. -/
theorem range_included_append_range_excluded {m : List (κ × β)} (h : Sorted m) (v : κ) :
    range .unbounded (.included v) m ++ range (.excluded v) .unbounded m = m := by
  induction m with
  | nil => rfl
  | cons e rest ih =>
    obtain ⟨hhead, hrest⟩ := sorted_cons.mp h
    by_cases he : e.1 ≤ v
    · have hnot : ¬v < e.1 := not_lt.mpr he
      simp only [range, List.filter_cons, Bound.above, Bound.below, he, hnot, decide_true,
        decide_false, Bool.and_true, if_true, Bool.false_eq_true, if_false,
        List.cons_append] at ih ⊢
      rw [ih hrest]
    · -- every key from here on lies above `v`
      have hv : v < e.1 := lt_of_not_ge he
      have hall : ∀ b ∈ rest, v < b.1 := fun b hb => hv.trans (hhead b hb)
      have hleft : range .unbounded (.included v) (e :: rest) = [] := by
        simp only [range, List.filter_eq_nil_iff, List.mem_cons]
        rintro b (rfl | hb)
        · simpa [Bound.above, Bound.below] using hv
        · simpa [Bound.above, Bound.below] using hall b hb
      have hright : range (.excluded v) .unbounded (e :: rest) = e :: rest := by
        simp only [range, List.filter_eq_self, List.mem_cons]
        rintro b (rfl | hb)
        · simpa [Bound.above, Bound.below] using hv
        · simpa [Bound.above, Bound.below] using hall b hb
      rw [hleft, hright, List.nil_append]

/-- Writing at a key above every entry of `A` leaves `A` in front. -/
theorem insert_append_of_lt {A B : List (κ × β)} {k : κ} (v : β) (hA : ∀ a ∈ A, a.1 < k) :
    insert k v (A ++ B) = A ++ insert k v B := by
  induction A with
  | nil => rfl
  | cons a rest ih =>
    have hak := hA a List.mem_cons_self
    have hnlt : ¬k < a.1 := not_lt.mpr hak.le
    have hne : k ≠ a.1 := ne_of_gt hak
    simp only [List.cons_append, insert, hnlt, hne, if_false]
    rw [ih fun b hb => hA b (List.mem_cons_of_mem a hb)]

/-- Writing at the key of the first entry replaces it. -/
theorem insert_cons_self (k : κ) (v v' : β) (B : List (κ × β)) :
    insert k v ((k, v') :: B) = (k, v) :: B := by
  simp [insert]

/-- Writing at a key below every entry of `B` puts it in front. -/
theorem insert_of_forall_lt {B : List (κ × β)} {k : κ} (v : β) (hB : ∀ b ∈ B, k < b.1) :
    insert k v B = (k, v) :: B := by
  cases B with
  | nil => rfl
  | cons b rest => simp [insert, hB b List.mem_cons_self]

/-- Writing at a key below every entry of `B` leaves `B` behind. -/
theorem insert_append_of_gt {W B : List (κ × β)} {k : κ} (v : β) (hB : ∀ b ∈ B, k < b.1) :
    insert k v (W ++ B) = insert k v W ++ B := by
  induction W with
  | nil => exact insert_of_forall_lt v hB
  | cons w rest ih =>
    by_cases h1 : k < w.1
    · simp [insert, h1]
    · by_cases h2 : k = w.1
      · simp [insert, h2]
      · simp [insert, h1, h2, ih]

/-- Removing a key that no entry of `A` and `B` has acts between them. -/
theorem erase_append_append {A W B : List (κ × β)} {k : κ} (hA : ∀ a ∈ A, a.1 ≠ k)
    (hB : ∀ b ∈ B, b.1 ≠ k) : erase k (A ++ W ++ B) = A ++ erase k W ++ B := by
  simp only [erase, List.filter_append]
  have hA' : A.filter (fun e => decide (e.1 ≠ k)) = A := List.filter_eq_self.mpr (by simpa using hA)
  have hB' : B.filter (fun e => decide (e.1 ≠ k)) = B := List.filter_eq_self.mpr (by simpa using hB)
  rw [hA', hB']

/-! The steps of `insert` and `erase` on an explicit list. -/

@[simp] theorem insert_nil (k : κ) (v : β) : insert k v [] = [(k, v)] := rfl

theorem insert_cons_of_lt {k k' : κ} (v v' : β) (m : List (κ × β)) (h : k < k') :
    insert k v ((k', v') :: m) = (k, v) :: (k', v') :: m := by
  simp [insert, h]

theorem insert_cons_of_gt {k k' : κ} (v v' : β) (m : List (κ × β)) (h : k' < k) :
    insert k v ((k', v') :: m) = (k', v') :: insert k v m := by
  simp [insert, not_lt.mpr h.le, h.ne']

@[simp] theorem erase_nil (k : κ) : erase k ([] : List (κ × β)) = [] := rfl

@[simp] theorem erase_cons_self (k : κ) (v : β) (m : List (κ × β)) :
    erase k ((k, v) :: m) = erase k m := by
  simp [erase]

theorem erase_cons_of_ne {k k' : κ} (v : β) (m : List (κ × β)) (h : k' ≠ k) :
    erase k ((k', v) :: m) = (k', v) :: erase k m := by
  simp [erase, h]

/-- The first entry of a sorted map has the least key. -/
theorem head?_le {m : List (κ × β)} (h : Sorted m) {b e : κ × β} (hb : b ∈ m.head?) (he : e ∈ m) :
    b.1 ≤ e.1 := by
  cases m with
  | nil => simp at hb
  | cons x rest =>
    obtain rfl : x = b := by simpa using hb
    rcases List.mem_cons.mp he with rfl | he
    · exact le_rfl
    · exact ((sorted_cons.mp h).1 e he).le

/-- The last entry of a sorted map has the greatest key. -/
theorem le_getLast? {m : List (κ × β)} (h : Sorted m) {b e : κ × β} (hb : b ∈ m.getLast?)
    (he : e ∈ m) : e.1 ≤ b.1 := by
  have hm : m.dropLast ++ [b] = m := List.dropLast_append_getLast? b hb
  rw [← hm] at h he
  obtain ⟨-, -, hlt⟩ := sorted_append.mp h
  rcases List.mem_append.mp he with he | he
  · exact (hlt e he b List.mem_cons_self).le
  · obtain rfl : e = b := by simpa using he
    exact le_rfl

theorem erase_cons_of_lt {k k' : κ} (v : β) (m : List (κ × β)) (h : k < k') :
    erase k ((k', v) :: m) = (k', v) :: erase k m :=
  erase_cons_of_ne v m h.ne'

theorem erase_cons_of_gt {k k' : κ} (v : β) (m : List (κ × β)) (h : k' < k) :
    erase k ((k', v) :: m) = (k', v) :: erase k m :=
  erase_cons_of_ne v m h.ne

/-! ## Maps built by insertion, and maps equal by their lookups -/

section Build

variable {γ : Type}

theorem mem_keys_insert (j k : κ) (v : β) (m : List (κ × β)) :
    j ∈ (insert k v m).map Prod.fst ↔ j = k ∨ j ∈ m.map Prod.fst := by
  rw [mem_keys_iff_isSome, mem_keys_iff_isSome, get?_insert]
  by_cases h : j = k <;> simp [h]

theorem sorted_foldl_insert (f : γ → β) (m : List (κ × γ)) {acc : List (κ × β)} (h : Sorted acc) :
    Sorted (m.foldl (fun a e => insert e.1 (f e.2) a) acc) := by
  induction m generalizing acc with
  | nil => exact h
  | cons e rest ih => exact ih (sorted_insert h)

theorem mem_keys_foldl_insert (f : γ → β) (m : List (κ × γ)) (acc : List (κ × β)) (k : κ) :
    k ∈ (m.foldl (fun a e => insert e.1 (f e.2) a) acc).map Prod.fst ↔
      k ∈ m.map Prod.fst ∨ k ∈ acc.map Prod.fst := by
  induction m generalizing acc with
  | nil => simp
  | cons e rest ih =>
    rw [List.foldl_cons, ih, mem_keys_insert, List.map_cons, List.mem_cons]
    tauto

/-- Inserting the entries of a list with distinct keys: each of its keys looks up its own
entry, every other key what the map started with. -/
theorem get?_foldl_insert (f : γ → β) {m : List (κ × γ)} (hm : (m.map Prod.fst).Nodup)
    (acc : List (κ × β)) (k : κ) :
    get? k (m.foldl (fun a e => insert e.1 (f e.2) a) acc) =
      ((get? k m).map f).or (get? k acc) := by
  induction m generalizing acc with
  | nil => simp [get?]
  | cons e rest ih =>
    rw [List.map_cons, List.nodup_cons] at hm
    rw [List.foldl_cons, ih hm.2, get?_insert, get?_cons]
    by_cases hk : k = e.1
    · subst hk
      simp [get?_eq_none_of_not_mem hm.1]
    · rw [if_neg hk, if_neg (Ne.symm hk)]

end Build

/-- A key below the least key of a sorted map is not in it. -/
theorem get?_of_lt_head {k : κ} {e : κ × β} {rest : List (κ × β)} (h : Sorted (e :: rest))
    (hk : k < e.1) : get? k (e :: rest) = none := by
  obtain ⟨hhead, _⟩ := sorted_cons.mp h
  apply get?_eq_none_of_not_mem
  rw [List.map_cons, List.mem_cons]
  rintro (rfl | hmem)
  · exact lt_irrefl _ hk
  · obtain ⟨b, hb, rfl⟩ := List.mem_map.mp hmem
    exact lt_asymm hk (hhead b hb)

/-- The least key of a sorted map is not in the rest of it. -/
theorem get?_head_tail {e : κ × β} {rest : List (κ × β)} (h : Sorted (e :: rest)) :
    get? e.1 rest = none := by
  obtain ⟨hhead, _⟩ := sorted_cons.mp h
  apply get?_eq_none_of_not_mem
  intro hmem
  obtain ⟨b, hb, hbk⟩ := List.mem_map.mp hmem
  exact lt_irrefl e.1 (hbk ▸ hhead b hb)

/-- Two sorted maps that look every key up alike are the same map. -/
theorem eq_of_get?_eq {m m' : List (κ × β)} (h : Sorted m) (h' : Sorted m')
    (hget : ∀ k, get? k m = get? k m') : m = m' := by
  induction m generalizing m' with
  | nil =>
    cases m' with
    | nil => rfl
    | cons b rest' =>
      have hb := hget b.1
      rw [get?_cons, if_pos rfl] at hb
      cases hb
  | cons a rest ih =>
    cases m' with
    | nil =>
      have ha := hget a.1
      rw [get?_cons, if_pos rfl] at ha
      cases ha
    | cons b rest' =>
      -- the heads hold the least keys of the two maps, so they hold the same key
      have hkey : a.1 = b.1 := by
        rcases lt_trichotomy a.1 b.1 with hlt | heq | hgt
        · have ha := hget a.1
          rw [get?_of_lt_head h' hlt, get?_cons, if_pos rfl] at ha
          cases ha
        · exact heq
        · have hb := hget b.1
          rw [get?_of_lt_head h hgt, get?_cons, if_pos rfl] at hb
          cases hb
      have hval : a.2 = b.2 := by
        have ha := hget a.1
        rw [get?_cons, if_pos rfl, get?_cons, if_pos hkey.symm] at ha
        exact Option.some.inj ha
      have hrest : rest = rest' := by
        refine ih (sorted_cons.mp h).2 (sorted_cons.mp h').2 fun k => ?_
        by_cases hk : k = a.1
        · subst hk
          rw [get?_head_tail h, hkey, get?_head_tail h']
        · have hk' := hget k
          rw [get?_cons, if_neg (Ne.symm hk), get?_cons, if_neg (hkey ▸ Ne.symm hk)] at hk'
          exact hk'
      rw [Prod.ext hkey hval, hrest]

/-- The values a sorted map holds under one key: its lookup. -/
theorem map_snd_filter_key {m : List (κ × β)} (h : Sorted m) (k : κ) :
    ((m.filter fun e => e.1 = k).map Prod.snd) = (get? k m).toList := by
  induction m with
  | nil => rfl
  | cons e rest ih =>
    rw [List.filter_cons, get?_cons]
    by_cases hk : e.1 = k
    · subst hk
      rw [if_pos (decide_eq_true rfl), if_pos rfl, List.map_cons, ih (sorted_cons.mp h).2,
        get?_head_tail h]
      rfl
    · rw [if_neg (by simpa using hk), if_neg hk]
      exact ih (sorted_cons.mp h).2

end OrdMap
