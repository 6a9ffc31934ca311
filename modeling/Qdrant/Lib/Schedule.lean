/-
# Asking for work until there is none

A scheduler asks a planner for the next batch of items, given the items it has scheduled so
far, schedules the batch, and stops at the first empty answer (`untilEmpty`, with a bound on
the number of questions).  When the planner only suggests items of a finite universe `u` that
are not scheduled yet, each once (`Fresh`):

* the loop ends within one question per item of `u` and one more (`untilEmpty_completes`);
* it returns the batches it was given, each the answer to the items scheduled before it, and
  the last question was answered by nothing (`untilEmpty_spec`);
* no item is scheduled twice (`nodup_of_untilEmpty`).

Nothing here is specific to one program.
-/
import Mathlib

namespace Schedule

variable {ι : Type}

/-- Ask `check` for the next batch until it answers nothing: the items scheduled and the
batches, or `none` when `fuel` questions did not suffice. -/
def untilEmpty (check : List ι → List ι) :
    ℕ → List ι → List (List ι) → Option (List ι × List (List ι))
  | 0, _, _ => none
  | fuel + 1, scheduled, batches =>
    let next := check scheduled
    if next.isEmpty then some (scheduled, batches)
    else untilEmpty check fuel (scheduled ++ next) (batches ++ [next])

/-- A planner that suggests items of `u` not scheduled yet, each once. -/
def Fresh (u : List ι) (check : List ι → List ι) : Prop :=
  ∀ scheduled, (check scheduled).Nodup ∧ ∀ i ∈ check scheduled, i ∈ u ∧ i ∉ scheduled

variable {u : List ι} {check : List ι → List ι}

/-- A fresh answer keeps the scheduled items distinct. -/
theorem Fresh.nodup_append (h : Fresh u check) {scheduled : List ι} (hnd : scheduled.Nodup) :
    (scheduled ++ check scheduled).Nodup := by
  refine List.nodup_append.mpr ⟨hnd, (h scheduled).1, ?_⟩
  intro a ha b hb hab
  exact ((h scheduled).2 b hb).2 (hab ▸ ha)

/-- **The loop ends**: with the scheduled items distinct and in `u`, enough questions to
schedule the rest of `u` and one more always reach an empty answer. -/
theorem untilEmpty_completes (h : Fresh u check) :
    ∀ (fuel : ℕ) (scheduled : List ι) (batches : List (List ι)), scheduled.Nodup →
      (∀ i ∈ scheduled, i ∈ u) → u.length < scheduled.length + fuel →
      ∃ r, untilEmpty check fuel scheduled batches = some r
  | 0, scheduled, _, hnd, hsub, henough => by
    have hbound := hnd.length_le_of_subset hsub
    omega
  | fuel + 1, scheduled, batches, hnd, hsub, henough => by
    by_cases hempty : (check scheduled).isEmpty
    · exact ⟨(scheduled, batches), by simp only [untilEmpty, hempty, if_true]⟩
    · -- a non-empty answer schedules at least one new item
      have hgrow : 1 ≤ (check scheduled).length := by
        cases hc : check scheduled with
        | nil => rw [hc] at hempty; exact absurd rfl hempty
        | cons _ _ => simp
      have hsub' : ∀ i ∈ scheduled ++ check scheduled, i ∈ u := by
        intro i hi
        rcases List.mem_append.mp hi with hi | hi
        · exact hsub i hi
        · exact ((h scheduled).2 i hi).1
      obtain ⟨r, hr⟩ := untilEmpty_completes h fuel (scheduled ++ check scheduled)
        (batches ++ [check scheduled]) (h.nodup_append hnd) hsub'
        (by rw [List.length_append]; omega)
      exact ⟨r, by simp only [untilEmpty, hempty, Bool.false_eq_true, if_false]; exact hr⟩

/-- **What the loop returns**: the batches it was given, each the non-empty answer to the
items scheduled before it, and the items scheduled with them, on which the last question was
answered by nothing. -/
theorem untilEmpty_spec :
    ∀ (fuel : ℕ) (scheduled : List ι) (batches : List (List ι)) (r : List ι × List (List ι)),
      untilEmpty check fuel scheduled batches = some r →
      ∃ new : List (List ι), r.2 = batches ++ new ∧ r.1 = scheduled ++ new.flatten ∧
        check r.1 = [] ∧ ∀ pre b post, new = pre ++ b :: post →
          b = check (scheduled ++ pre.flatten) ∧ b ≠ []
  | 0, _, _, _, hr => absurd hr (by simp [untilEmpty])
  | fuel + 1, scheduled, batches, r, hr => by
    simp only [untilEmpty] at hr
    split at hr
    · rename_i hempty
      rw [Option.some.injEq] at hr
      subst hr
      refine ⟨[], by simp, by simp, List.isEmpty_iff.mp hempty, fun pre b post h => ?_⟩
      exact absurd h.symm (by simp)
    · rename_i hnonempty
      obtain ⟨new, hbatches, hscheduled, hlast, hnew⟩ :=
        untilEmpty_spec fuel (scheduled ++ check scheduled) (batches ++ [check scheduled]) r hr
      refine ⟨check scheduled :: new, by simp [hbatches], by simp [hscheduled], hlast, ?_⟩
      intro pre b post hsplit
      cases pre with
      | nil =>
        -- the first batch is this answer
        obtain ⟨rfl, -⟩ := List.cons.inj hsplit
        refine ⟨by simp, fun hnil => hnonempty ?_⟩
        rw [hnil, List.isEmpty_nil]
      | cons p pre =>
        obtain ⟨rfl, hrest⟩ := List.cons.inj hsplit
        have := hnew pre b post hrest
        simpa [List.append_assoc] using this

/-- **No item is scheduled twice**: the loop keeps the scheduled items distinct, adding only
items of `u`. -/
theorem nodup_of_untilEmpty (h : Fresh u check) :
    ∀ {fuel : ℕ} {scheduled : List ι} {batches : List (List ι)} {r : List ι × List (List ι)},
      scheduled.Nodup → untilEmpty check fuel scheduled batches = some r →
      r.1.Nodup ∧ ∀ i ∈ r.1, i ∈ scheduled ∨ i ∈ u
  | 0, _, _, _, _, hr => absurd hr (by simp [untilEmpty])
  | fuel + 1, scheduled, batches, r, hnd, hr => by
    simp only [untilEmpty] at hr
    split at hr
    · rw [Option.some.injEq] at hr
      subst hr
      exact ⟨hnd, fun i hi => Or.inl hi⟩
    · obtain ⟨hnd', hmem⟩ := nodup_of_untilEmpty h (h.nodup_append hnd) hr
      refine ⟨hnd', fun i hi => ?_⟩
      rcases hmem i hi with hi | hi
      · rcases List.mem_append.mp hi with hi | hi
        · exact Or.inl hi
        · exact Or.inr ((h scheduled).2 i hi).1
      · exact Or.inr hi

end Schedule
