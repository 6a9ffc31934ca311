/-
# Grouping a list by a key

`map.entry(key).or_insert_with(|| init)` followed by an update of the entry, for each element
of a list in turn, groups the list by key.  The map is an association list in the order the
keys first appear (`modifyEntry`, `groupBy`); a `HashMap`'s own iteration order is not used.

**Grouping rule** (`isGrouping_groupBy`): each key has one entry, a key has an entry exactly
when some element has it, and its entry is the fold of the elements with that key, in their
order, from `init`.  `perm_flatMap_filter`: the elements of each key, over distinct keys that
cover the list, are the list again, each element once.  Nothing here is specific to one
program.
-/
import Mathlib

namespace Grouping

variable {α κ β : Type} [DecidableEq κ]

/-- `map.entry(k).or_insert_with(|| init)`, then `f` on the entry. -/
def modifyEntry (k : κ) (init : β) (f : β → β) : List (κ × β) → List (κ × β)
  | [] => [(k, f init)]
  | e :: rest => if e.1 = k then (e.1, f e.2) :: rest else e :: modifyEntry k init f rest

/-- Each element pushed into the entry of its key. -/
def groupBy (key : α → κ) (init : β) (push : β → α → β) (xs : List α) : List (κ × β) :=
  xs.foldl (fun m x => modifyEntry (key x) init (fun b => push b x) m) []

/-- The entry a key should have: the fold of the elements with that key. -/
def groupOf (key : α → κ) (init : β) (push : β → α → β) (xs : List α) (k : κ) : β :=
  (xs.filter fun x => key x = k).foldl push init

/-- `m` is the grouping of `xs` by `key`. -/
structure IsGrouping (key : α → κ) (init : β) (push : β → α → β) (xs : List α)
    (m : List (κ × β)) : Prop where
  nodup : (m.map Prod.fst).Nodup
  keys : ∀ k, k ∈ m.map Prod.fst ↔ ∃ x ∈ xs, key x = k
  groups : ∀ e ∈ m, e.2 = groupOf key init push xs e.1

theorem keys_modifyEntry (k : κ) (init : β) (f : β → β) (m : List (κ × β)) :
    ∀ j, j ∈ (modifyEntry k init f m).map Prod.fst ↔ j = k ∨ j ∈ m.map Prod.fst := by
  induction m with
  | nil => simp [modifyEntry]
  | cons e rest ih =>
    intro j
    unfold modifyEntry
    split_ifs with he
    · simp only [List.map_cons, List.mem_cons]
      constructor
      · rintro (hj | hj)
        · exact .inr (.inl hj)
        · exact .inr (.inr hj)
      · rintro (hj | hj | hj)
        · exact .inl (hj.trans he.symm)
        · exact .inl hj
        · exact .inr hj
    · simp only [List.map_cons, List.mem_cons, ih]
      tauto

theorem nodup_modifyEntry (k : κ) (init : β) (f : β → β) {m : List (κ × β)}
    (hm : (m.map Prod.fst).Nodup) : ((modifyEntry k init f m).map Prod.fst).Nodup := by
  induction m with
  | nil => simp [modifyEntry]
  | cons e rest ih =>
    rw [List.map_cons, List.nodup_cons] at hm
    unfold modifyEntry
    split_ifs with he
    · rw [List.map_cons, List.nodup_cons]
      exact hm
    · rw [List.map_cons, List.nodup_cons, keys_modifyEntry]
      refine ⟨?_, ih hm.2⟩
      rintro (hk | hk)
      · exact he hk
      · exact hm.1 hk

/-- An entry after `modifyEntry`: another key's entry kept, or the entry of `k`, updated or
added from `init`. -/
theorem mem_modifyEntry {k : κ} {init : β} {f : β → β} {m : List (κ × β)}
    (hm : (m.map Prod.fst).Nodup) {e : κ × β} (he : e ∈ modifyEntry k init f m) :
    (e ∈ m ∧ e.1 ≠ k) ∨
      (e.1 = k ∧ ((∃ b, (k, b) ∈ m ∧ e.2 = f b) ∨ (k ∉ m.map Prod.fst ∧ e.2 = f init))) := by
  induction m with
  | nil =>
    rw [modifyEntry, List.mem_singleton] at he
    subst he
    exact .inr ⟨rfl, .inr ⟨List.not_mem_nil, rfl⟩⟩
  | cons x rest ih =>
    rw [List.map_cons, List.nodup_cons] at hm
    unfold modifyEntry at he
    split_ifs at he with hx
    · -- the head is the entry of `k`, which the rest does not hold
      rcases List.mem_cons.mp he with rfl | hrest
      · exact .inr ⟨hx, .inl ⟨x.2, by rw [← hx]; exact List.mem_cons_self, rfl⟩⟩
      · refine .inl ⟨List.mem_cons_of_mem x hrest, fun hk => hm.1 ?_⟩
        rw [hx, ← hk]
        exact List.mem_map_of_mem hrest
    · rcases List.mem_cons.mp he with rfl | hrest
      · exact .inl ⟨List.mem_cons_self, hx⟩
      · rcases ih hm.2 hrest with ⟨hr, hne⟩ | ⟨hk, ⟨b, hb, hv⟩ | ⟨hnot, hv⟩⟩
        · exact .inl ⟨List.mem_cons_of_mem x hr, hne⟩
        · exact .inr ⟨hk, .inl ⟨b, List.mem_cons_of_mem x hb, hv⟩⟩
        · refine .inr ⟨hk, .inr ⟨?_, hv⟩⟩
          rw [List.map_cons, List.mem_cons]
          exact fun h => h.elim (fun h' => hx h'.symm) hnot

theorem groupBy_append_singleton (key : α → κ) (init : β) (push : β → α → β) (xs : List α)
    (x : α) :
    groupBy key init push (xs ++ [x]) =
      modifyEntry (key x) init (fun b => push b x) (groupBy key init push xs) := by
  simp [groupBy]

theorem groupOf_append_singleton (key : α → κ) (init : β) (push : β → α → β) (xs : List α)
    (x : α) (k : κ) :
    groupOf key init push (xs ++ [x]) k =
      if key x = k then push (groupOf key init push xs k) x else groupOf key init push xs k := by
  unfold groupOf
  rw [List.filter_append]
  split_ifs with hk <;> simp [hk]

/-- A key that no element has gets the initial value. -/
theorem groupOf_of_not_mem {key : α → κ} {init : β} {push : β → α → β} {xs : List α} {k : κ}
    (hk : ¬ ∃ x ∈ xs, key x = k) : groupOf key init push xs k = init := by
  unfold groupOf
  rw [List.filter_eq_nil_iff.mpr fun x hx hkx => hk ⟨x, hx, by simpa using hkx⟩]
  rfl

/-- One more element keeps the grouping. -/
theorem IsGrouping.append_singleton {key : α → κ} {init : β} {push : β → α → β} {xs : List α}
    {m : List (κ × β)} (h : IsGrouping key init push xs m) (x : α) :
    IsGrouping key init push (xs ++ [x])
      (modifyEntry (key x) init (fun b => push b x) m) := by
  refine ⟨nodup_modifyEntry _ _ _ h.nodup, fun k => ?_, fun e he => ?_⟩
  · rw [keys_modifyEntry, h.keys]
    simp only [List.mem_append, List.mem_singleton]
    constructor
    · rintro (rfl | ⟨y, hy, rfl⟩)
      · exact ⟨x, .inr rfl, rfl⟩
      · exact ⟨y, .inl hy, rfl⟩
    · rintro ⟨y, hy | rfl, rfl⟩
      · exact .inr ⟨y, hy, rfl⟩
      · exact .inl rfl
  · rw [groupOf_append_singleton]
    rcases mem_modifyEntry h.nodup he with ⟨hm, hne⟩ | ⟨hk, hb⟩
    · rw [if_neg (Ne.symm hne)]
      exact h.groups e hm
    · rw [if_pos hk.symm]
      rcases hb with ⟨b, hb, hpush⟩ | ⟨hnot, hpush⟩
      · rw [hpush, hk, show b = _ from h.groups _ hb]
      · rw [hpush, hk, groupOf_of_not_mem ((h.keys _).not.mp hnot)]

/-- **Grouping rule.** -/
theorem isGrouping_groupBy (key : α → κ) (init : β) (push : β → α → β) (xs : List α) :
    IsGrouping key init push xs (groupBy key init push xs) := by
  induction xs using List.reverseRecOn with
  | nil => exact ⟨List.nodup_nil, fun k => by simp [groupBy], fun e he => by simp [groupBy] at he⟩
  | append_singleton xs x ih =>
    rw [groupBy_append_singleton]
    exact ih.append_singleton x

/-- Cutting a list into the elements of each of a list of distinct keys that covers it loses
and repeats nothing. -/
theorem perm_flatMap_filter {f : α → κ} {ks : List κ} (hks : ks.Nodup) :
    ∀ {xs : List α}, (∀ x ∈ xs, f x ∈ ks) → (ks.flatMap fun k => xs.filter fun x => f x = k).Perm xs
  | [], _ => by simp
  | y :: ys, hcover => by
    obtain ⟨A, B, hsplit⟩ := List.append_of_mem (hcover y List.mem_cons_self)
    subst hsplit
    have hrest := perm_flatMap_filter hks fun x hx => hcover x (List.mem_cons_of_mem y hx)
    rw [List.nodup_append, List.nodup_cons] at hks
    -- `y` goes to its own key only: the keys before and after it see the rest alone
    have hother : ∀ k, k ∈ A ∨ k ∈ B →
        (y :: ys).filter (fun x => f x = k) = ys.filter fun x => f x = k := by
      intro k hk
      rw [List.filter_cons_of_neg]
      rw [decide_eq_true_eq]
      intro hyk
      subst hyk
      rcases hk with hk | hk
      · exact hks.2.2 (f y) hk (f y) List.mem_cons_self rfl
      · exact hks.2.1.1 hk
    have hA : (A.flatMap fun k => (y :: ys).filter fun x => f x = k) =
        A.flatMap fun k => ys.filter fun x => f x = k :=
      List.flatMap_congr fun k hk => hother k (.inl hk)
    have hB : (B.flatMap fun k => (y :: ys).filter fun x => f x = k) =
        B.flatMap fun k => ys.filter fun x => f x = k :=
      List.flatMap_congr fun k hk => hother k (.inr hk)
    rw [List.flatMap_append, List.flatMap_cons, hA, hB, List.filter_cons_of_pos (by simp)]
    rw [List.flatMap_append, List.flatMap_cons] at hrest
    -- move `y` to the front, past the elements of the keys before it
    have hmiddle : ((A.flatMap fun k => ys.filter fun x => f x = k) ++
          (y :: ((ys.filter fun x => f x = f y) ++ B.flatMap fun k => ys.filter fun x => f x = k))).Perm
        (y :: ((A.flatMap fun k => ys.filter fun x => f x = k) ++
          ((ys.filter fun x => f x = f y) ++ B.flatMap fun k => ys.filter fun x => f x = k))) :=
      List.perm_middle
    rw [List.cons_append]
    exact hmiddle.trans (List.Perm.cons y hrest)

end Grouping
