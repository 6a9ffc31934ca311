/-
# Launching the optimisations

`UpdateHandler::launch_optimization` (`update_handler.rs`) walks the collection's optimisers in
order and asks each for the segments of its next optimisation, with the ids this launch has
already scheduled excluded, until it suggests nothing; every suggestion is scheduled and handed
to a new task.  The loop has no bound of its own: it ends because every optimiser suggests
only segments of the holder that are not excluded (`MergeOptimizer.fresh`,
`VacuumOptimizer.fresh`, `IndexingOptimizer.fresh`), so each suggestion schedules a new one.

The model reads the holder as the same at every question: the launch as it runs before the
tasks it spawns take the holder's lock.  Each optimiser's loop is given one question per
segment and one more, and `launch_schedules_each_segment_once` shows that this never runs out,
that no segment goes to two tasks, and that every optimiser was asked until it had nothing to
suggest.
-/
import Qdrant.Collection.Optimizers
import Qdrant.Lib.Schedule

namespace Qdrant

open Select Schedule

variable (stats : LockedSegment → SegmentStats)

/-! ## 1. Every optimiser suggests segments not yet scheduled -/

theorem fresh_nil (u : List SegmentId) (excludedIds : List SegmentId) :
    ([] : List SegmentId).Nodup ∧ ∀ i ∈ ([] : List SegmentId), i ∈ u ∧ i ∉ excludedIds :=
  ⟨List.nodup_nil, fun _ hi => absurd hi List.not_mem_nil⟩

theorem MergeOptimizer.fresh (o : MergeOptimizer) (holder : SegmentHolder) :
    Fresh (holder.segments.map Prod.fst) (o.checkCondition stats holder) := by
  intro excludedIds
  have hcases := o.checkCondition_cases stats holder excludedIds
  dsimp only at hcases
  rcases hcases with hnil | ⟨k, -, -, -, heq, -⟩
  · rw [hnil]
    exact fresh_nil _ excludedIds
  · rw [heq]
    refine ⟨((List.take_sublist _ _).map Prod.fst).nodup
      (MergeOptimizer.nodup_sortedSizes stats holder excludedIds), fun i hi => ?_⟩
    obtain ⟨e, he, rfl⟩ := List.mem_map.mp hi
    obtain ⟨segment, hmem, -, hexcl, -⟩ :=
      (MergeOptimizer.mem_sortedSizes stats).mp (List.mem_of_mem_take he)
    exact ⟨List.mem_map.mpr ⟨_, hmem, rfl⟩, hexcl⟩

theorem VacuumOptimizer.fresh (o : VacuumOptimizer) (holder : SegmentHolder) :
    Fresh (holder.segments.map Prod.fst) (o.checkCondition stats holder) := by
  intro excludedIds
  by_cases hnil : o.checkCondition stats holder excludedIds = []
  · rw [hnil]
    exact fresh_nil _ excludedIds
  · obtain ⟨id, segment, heq, hmem, hexcl, -⟩ :=
      (o.checkCondition_spec stats holder excludedIds).2 hnil
    rw [heq]
    refine ⟨List.nodup_singleton id, fun i hi => ?_⟩
    rw [List.mem_singleton.mp hi]
    exact ⟨List.mem_map.mpr ⟨_, hmem, rfl⟩, hexcl⟩

theorem IndexingOptimizer.fresh (o : IndexingOptimizer) (holder : SegmentHolder) :
    Fresh (holder.segments.map Prod.fst) (o.checkCondition stats holder) := by
  intro excludedIds
  unfold IndexingOptimizer.checkCondition
  rcases o.worstSegment_cases stats holder excludedIds with ⟨-, heq⟩ | ⟨sel, size, hmax, hw⟩
  · rw [heq]
    exact fresh_nil _ excludedIds
  · -- the largest candidate, and a partner when there is one, are segments not excluded
    obtain ⟨segment, hmem, hexcl, -⟩ :=
      (IndexingOptimizer.mem_candidates stats).mp (maxByKey_mem hmax)
    have hsel : sel ∈ holder.segments.map Prod.fst ∧ sel ∉ excludedIds :=
      ⟨List.mem_map.mpr ⟨_, hmem, rfl⟩, hexcl⟩
    rcases hw with heq | ⟨other, otherSize, heq, hne, -, hother⟩
    · rw [heq]
      refine ⟨List.nodup_singleton sel, fun i hi => ?_⟩
      rw [List.mem_singleton.mp hi]
      exact hsel
    · have hpartner : other ∈ holder.segments.map Prod.fst ∧ other ∉ excludedIds := by
        rcases hother with ⟨hcand, -⟩ | hidx
        · obtain ⟨segment', hmem', hexcl', -⟩ := (IndexingOptimizer.mem_candidates stats).mp hcand
          exact ⟨List.mem_map.mpr ⟨_, hmem', rfl⟩, hexcl'⟩
        · obtain ⟨segment', hmem', hexcl', -⟩ :=
            IndexingOptimizer.smallestIndexedSegment_spec stats hidx
          exact ⟨List.mem_map.mpr ⟨_, hmem', rfl⟩, hexcl'⟩
      rw [heq]
      refine ⟨List.nodup_cons.mpr ⟨by simpa using Ne.symm hne, List.nodup_singleton _⟩,
        fun i hi => ?_⟩
      rcases List.mem_pair.mp hi with rfl | rfl
      · exact hsel
      · exact hpartner

/-! ## 2. `launch_optimization` -/

/-- The optimisers of a collection, as `launch_optimization` asks them. -/
inductive Optimizer where
  | merge (o : MergeOptimizer)
  | vacuum (o : VacuumOptimizer)
  | indexing (o : IndexingOptimizer)

/-- `Optimizer::check_condition`. -/
def Optimizer.checkCondition : Optimizer → SegmentHolder → List SegmentId → List SegmentId
  | .merge o, holder, excludedIds => o.checkCondition stats holder excludedIds
  | .vacuum o, holder, excludedIds => o.checkCondition stats holder excludedIds
  | .indexing o, holder, excludedIds => o.checkCondition stats holder excludedIds

theorem Optimizer.fresh (optimizer : Optimizer) (holder : SegmentHolder) :
    Fresh (holder.segments.map Prod.fst) (optimizer.checkCondition stats holder) := by
  cases optimizer with
  | merge o => exact o.fresh stats holder
  | vacuum o => exact o.fresh stats holder
  | indexing o => exact o.fresh stats holder

/-- One optimiser's `loop` of `launch_optimization`: its suggestions, with the ids scheduled so
far excluded, until it suggests nothing, each a task. -/
def launchOptimizationStep (holder : SegmentHolder)
    (acc : List SegmentId × List (Optimizer × List SegmentId)) (optimizer : Optimizer) :
    Option (List SegmentId × List (Optimizer × List SegmentId)) :=
  (untilEmpty (optimizer.checkCondition stats holder) (holder.segments.length + 1) acc.1 []).map
    fun (scheduledSegmentIds, nonoptimal) =>
      (scheduledSegmentIds, acc.2 ++ nonoptimal.map fun nsi => (optimizer, nsi))

/-- `launch_optimization`: the tasks, each an optimiser and the segments it optimises. -/
def launchOptimization (optimizers : List Optimizer) (holder : SegmentHolder) :
    Option (List (Optimizer × List SegmentId)) :=
  (optimizers.foldlM (launchOptimizationStep stats holder) ([], [])).map Prod.snd

/-! ## 3. Every launch schedules each segment once -/

/-- What a launch has done after the optimisers `done`: the scheduled ids are the tasks' ids,
each once and of the holder; every task is the non-empty suggestion of its optimiser with the
ids of the earlier tasks excluded; and every optimiser of `done` at some point suggested
nothing. -/
structure LaunchInv (holder : SegmentHolder) (done : List Optimizer)
    (acc : List SegmentId × List (Optimizer × List SegmentId)) : Prop where
  scheduled : acc.1 = acc.2.flatMap Prod.snd
  nodup : acc.1.Nodup
  inHolder : ∀ id ∈ acc.1, id ∈ holder.segments.map Prod.fst
  tasks : ∀ pre t post, acc.2 = pre ++ t :: post →
    t.2 ≠ [] ∧ t.2 = t.1.checkCondition stats holder (pre.flatMap Prod.snd)
  ended : ∀ o ∈ done, ∃ pre post, acc.2 = pre ++ post ∧
    o.checkCondition stats holder (pre.flatMap Prod.snd) = []

theorem launchInv_nil (holder : SegmentHolder) : LaunchInv stats holder [] ([], []) where
  scheduled := rfl
  nodup := List.nodup_nil
  inHolder _ hi := absurd hi List.not_mem_nil
  tasks pre t post h := absurd h.symm (by simp)
  ended _ ho := absurd ho List.not_mem_nil

/-- A task of the old list followed by one optimiser's new tasks is an old task, or one of the
new ones with the old tasks and the new ones before it in front. -/
theorem split_append_map {α β : Type} {acc pre post : List (α × β)} {t : α × β} {o : α}
    {new : List β} (hsplit : acc ++ new.map (fun b => (o, b)) = pre ++ t :: post) :
    (∃ post', acc = pre ++ t :: post') ∨
      ∃ pre' b post', new = pre' ++ b :: post' ∧ t = (o, b) ∧
        pre = acc ++ pre'.map fun b => (o, b) := by
  rcases List.append_eq_append_iff.mp hsplit with ⟨a', hpre, ht⟩ | ⟨c', hacc, ht⟩
  · -- the task lies in the new part
    obtain ⟨pre', rest, hnew, hpre', hrest⟩ := List.map_eq_append_iff.mp ht
    obtain ⟨b, post', rfl, hb, -⟩ := List.map_eq_cons_iff.mp hrest
    exact Or.inr ⟨pre', b, post', hnew, hb.symm, by rw [hpre, ← hpre']⟩
  · cases c' with
    | nil =>
      -- the task is the first new one
      rw [List.nil_append] at ht
      obtain ⟨b, post', hnew, hb, -⟩ := List.map_eq_cons_iff.mp ht.symm
      exact Or.inr ⟨[], b, post', hnew, hb.symm, by simpa using hacc.symm⟩
    | cons c rest =>
      rw [List.cons_append] at ht
      obtain ⟨rfl, -⟩ := List.cons.inj ht
      exact Or.inl ⟨rest, hacc⟩

/-- **One optimiser's loop keeps the invariant**, and never runs out of questions. -/
theorem LaunchInv.step {holder : SegmentHolder} {done : List Optimizer}
    {acc : List SegmentId × List (Optimizer × List SegmentId)}
    (h : LaunchInv stats holder done acc) (optimizer : Optimizer) :
    ∃ acc', launchOptimizationStep stats holder acc optimizer = some acc' ∧
      LaunchInv stats holder (done ++ [optimizer]) acc' := by
  have hfresh := optimizer.fresh stats holder
  obtain ⟨⟨scheduled', batches'⟩, hr⟩ := untilEmpty_completes hfresh
    (holder.segments.length + 1) acc.1 [] h.nodup h.inHolder (by simp; omega)
  obtain ⟨new, hbatches, hscheduled, hlast, hnew⟩ := untilEmpty_spec _ _ _ _ hr
  obtain ⟨hnd, hmem⟩ := nodup_of_untilEmpty hfresh h.nodup hr
  dsimp only at hbatches hscheduled hlast hnd hmem
  rw [List.nil_append] at hbatches
  subst hbatches
  -- the tasks of a loop schedule the ids of its batches
  have hids : ∀ l : List (List SegmentId),
      (l.map fun nsi => (optimizer, nsi)).flatMap Prod.snd = l.flatten := by
    intro l
    simp [List.flatMap_map]
  have hsched : scheduled' = (acc.2 ++ batches'.map fun nsi => (optimizer, nsi)).flatMap Prod.snd := by
    rw [hscheduled, List.flatMap_append, hids, h.scheduled]
  refine ⟨(scheduled', acc.2 ++ batches'.map fun nsi => (optimizer, nsi)),
    by rw [launchOptimizationStep, hr]; rfl, ⟨hsched, hnd, ?_, ?_, ?_⟩⟩
  · intro id hid
    rcases hmem id hid with hold | hnewid
    · exact h.inHolder id hold
    · exact hnewid
  · -- a task is one of this loop's batches, or an old one
    intro pre t post hsplit
    rcases split_append_map hsplit with ⟨post', hacc⟩ | ⟨pre', b, post', hnew', rfl, rfl⟩
    · exact h.tasks pre t post' hacc
    · obtain ⟨hcheck, hne⟩ := hnew pre' b post' hnew'
      refine ⟨hne, ?_⟩
      rw [List.flatMap_append, ← h.scheduled, hids]
      exact hcheck
  · -- the earlier optimisers ended before these tasks; this one ends after them
    intro o ho
    rcases List.mem_append.mp ho with ho | ho
    · obtain ⟨pre, post, hacc, hended⟩ := h.ended o ho
      exact ⟨pre, post ++ batches'.map fun nsi => (optimizer, nsi),
        by rw [hacc, List.append_assoc], hended⟩
    · rw [List.mem_singleton.mp ho]
      exact ⟨acc.2 ++ batches'.map fun nsi => (optimizer, nsi), [], (List.append_nil _).symm,
        by rw [← hsched]; exact hlast⟩

/-- The whole walk over the optimisers keeps the invariant. -/
theorem LaunchInv.foldlM {holder : SegmentHolder} :
    ∀ (optimizers done : List Optimizer) (acc : List SegmentId × List (Optimizer × List SegmentId)),
      LaunchInv stats holder done acc →
      ∃ acc', optimizers.foldlM (launchOptimizationStep stats holder) acc = some acc' ∧
        LaunchInv stats holder (done ++ optimizers) acc'
  | [], done, acc, h => ⟨acc, rfl, by rw [List.append_nil]; exact h⟩
  | optimizer :: rest, done, acc, h => by
    obtain ⟨acc₁, hstep, h₁⟩ := h.step stats optimizer
    obtain ⟨acc₂, hrest, h₂⟩ := LaunchInv.foldlM rest (done ++ [optimizer]) acc₁ h₁
    refine ⟨acc₂, ?_, by rw [List.append_assoc, List.singleton_append] at h₂; exact h₂⟩
    rw [List.foldlM_cons, hstep, Option.bind_eq_bind, Option.bind_some, hrest]

/-- **Every launch schedules each segment once.**  For every holder and every list of
optimisers, `launch_optimization` ends (no optimiser's loop runs out of questions); no segment
goes to two tasks, and every task's segments are segments of the holder; every task holds the
non-empty suggestion of its optimiser with the segments of the earlier tasks excluded; and
every optimiser was asked until it suggested nothing. -/
theorem launch_schedules_each_segment_once (optimizers : List Optimizer) (holder : SegmentHolder) :
    ∃ tasks, launchOptimization stats optimizers holder = some tasks ∧
      (tasks.flatMap Prod.snd).Nodup ∧
      (∀ id ∈ tasks.flatMap Prod.snd, id ∈ holder.segments.map Prod.fst) ∧
      (∀ pre t post, tasks = pre ++ t :: post →
        t.2 ≠ [] ∧ t.2 = t.1.checkCondition stats holder (pre.flatMap Prod.snd)) ∧
      ∀ o ∈ optimizers, ∃ pre post, tasks = pre ++ post ∧
        o.checkCondition stats holder (pre.flatMap Prod.snd) = [] := by
  obtain ⟨acc, hrun, h⟩ := LaunchInv.foldlM stats optimizers [] ([], []) (launchInv_nil stats holder)
  rw [List.nil_append] at h
  refine ⟨acc.2, by rw [launchOptimization, hrun, Option.map_some], ?_, ?_, h.tasks, h.ended⟩
  · rw [← h.scheduled]
    exact h.nodup
  · rw [← h.scheduled]
    exact h.inHolder

end Qdrant
