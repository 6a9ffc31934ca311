/-
# Machines that answer, and their simulations

A machine reads one input at a time: from a state and an input it moves to a new state and
gives an answer.  A run feeds it a list of inputs and collects the answers.

* `run_snd_eq_mapIdx`: the answer to the `k`-th input of a run is the answer of one step from
  the state the first `k` inputs reach, so that a specification may speak of prefixes only;
* **simulation rule** (`IsSimulation.run`): a relation between the states of two machines that
  related states keep over one input, answering alike, is kept over every run, and the two
  runs give the same answers.

Nothing here is specific to one program.
-/
import Mathlib.Data.List.Basic

namespace Mealy

variable {σ τ ι ο : Type}

/-- The run of a machine from a state over a list of inputs: the state it ends in and its
answers, in the order of the inputs. -/
def run (step : σ → ι → σ × ο) (s : σ) : List ι → σ × List ο
  | [] => (s, [])
  | i :: is =>
    let r := run step (step s i).1 is
    (r.1, (step s i).2 :: r.2)

section Run

variable (step : σ → ι → σ × ο)

@[simp] theorem run_nil (s : σ) : run step s [] = (s, []) := rfl

@[simp] theorem run_cons (s : σ) (i : ι) (is : List ι) :
    run step s (i :: is) =
      ((run step (step s i).1 is).1, (step s i).2 :: (run step (step s i).1 is).2) := rfl

theorem run_append (s : σ) (is js : List ι) :
    run step s (is ++ js) =
      ((run step (run step s is).1 js).1, (run step s is).2 ++ (run step (run step s is).1 js).2) := by
  induction is generalizing s with
  | nil => rfl
  | cons i is ih => simp [ih]

/-- The state after one more input. -/
theorem run_concat_fst (s : σ) (is : List ι) (i : ι) :
    (run step s (is ++ [i])).1 = (step (run step s is).1 i).1 := by
  rw [run_append]
  rfl

/-- The answers of a run, input by input: each is the answer of one step from the state the
inputs before it reach. -/
theorem run_snd_eq_mapIdx (s : σ) (is : List ι) :
    (run step s is).2 = is.mapIdx fun k i => (step (run step s (is.take k)).1 i).2 := by
  induction is generalizing s with
  | nil => rfl
  | cons i is ih =>
    rw [run_cons, List.mapIdx_cons, ih]
    simp

end Run

/-- A simulation of one machine by another: related states answer every input alike and move
to related states. -/
def IsSimulation (R : σ → τ → Prop) (f : σ → ι → σ × ο) (g : τ → ι → τ × ο) : Prop :=
  ∀ s t i, R s t → R (f s i).1 (g t i).1 ∧ (f s i).2 = (g t i).2

/-- The simulation rule: related states stay related over a whole run, answer for answer. -/
theorem IsSimulation.run {R : σ → τ → Prop} {f : σ → ι → σ × ο} {g : τ → ι → τ × ο}
    (h : IsSimulation R f g) {s : σ} {t : τ} (hst : R s t) (is : List ι) :
    R (Mealy.run f s is).1 (Mealy.run g t is).1 ∧ (Mealy.run f s is).2 = (Mealy.run g t is).2 := by
  induction is generalizing s t with
  | nil => exact ⟨hst, rfl⟩
  | cons i is ih =>
    obtain ⟨hR, hanswer⟩ := h s t i hst
    obtain ⟨hR', hanswers⟩ := ih hR
    exact ⟨hR', by rw [run_cons, run_cons, hanswer, hanswers]⟩

end Mealy
