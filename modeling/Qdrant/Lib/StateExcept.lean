/-
# State-passing computations that fail and keep their writes

Imperative code that returns early on an error (`?` in Rust) keeps every write it made before
the error.  `StateExcept σ ε α` models it: a computation takes the state and returns its
result, a value or an error, together with the state it reached either way.  It is
`ExceptT ε (StateM σ)` unfolded to a function, so that a run is read off by `simp` with the
lemmas of this module and no monad-transformer plumbing.

**Invariant rule** (`Preserves.foldlM`): a state property that every step keeps is kept by a
whole loop of steps, whether the loop fails or not.  Nothing here is specific to one program.
-/
import Mathlib.Control.Lawful

/-- A computation on a state `σ` that returns an `α` or fails with an `ε`, keeping its state. -/
def StateExcept (σ ε α : Type) : Type := σ → Except ε α × σ

namespace StateExcept

variable {σ ε ε' α β : Type}

/-- The computation run from a state. -/
def run (x : StateExcept σ ε α) (s : σ) : Except ε α × σ := x s

instance : Monad (StateExcept σ ε) where
  pure a := fun s => (.ok a, s)
  bind x f := fun s => match x s with
    | (.ok a, s') => f a s'
    | (.error e, s') => (.error e, s')

instance : MonadStateOf σ (StateExcept σ ε) where
  get := fun s => (.ok s, s)
  set s := fun _ => (.ok (), s)
  modifyGet f := fun s => ((Except.ok (f s).1), (f s).2)

instance : MonadExceptOf ε (StateExcept σ ε) where
  throw e := fun s => (.error e, s)
  tryCatch x handle := fun s => match x s with
    | (.error e, s') => handle e s'
    | r => r

/-- The errors translated, as `?` does through a `From` conversion. -/
def mapError (f : ε → ε') (x : StateExcept σ ε α) : StateExcept σ ε' α := fun s =>
  ((x s).1.mapError f, (x s).2)

/-! ## 1. Running a computation -/

@[simp] theorem run_pure (a : α) (s : σ) : (pure a : StateExcept σ ε α).run s = (.ok a, s) := rfl

theorem run_bind (x : StateExcept σ ε α) (f : α → StateExcept σ ε β) (s : σ) :
    (x >>= f).run s = match x.run s with
      | (.ok a, s') => (f a).run s'
      | (.error e, s') => (.error e, s') := rfl

@[simp] theorem run_bind_ok {x : StateExcept σ ε α} {s s' : σ} {a : α} (h : x.run s = (.ok a, s'))
    (f : α → StateExcept σ ε β) : (x >>= f).run s = (f a).run s' := by
  rw [run_bind, h]

@[simp] theorem run_bind_error {x : StateExcept σ ε α} {s s' : σ} {e : ε}
    (h : x.run s = (.error e, s')) (f : α → StateExcept σ ε β) :
    (x >>= f).run s = (.error e, s') := by
  rw [run_bind, h]

@[simp] theorem run_get (s : σ) : (get : StateExcept σ ε σ).run s = (.ok s, s) := rfl

@[simp] theorem run_set (s s' : σ) : (set s' : StateExcept σ ε PUnit).run s = (.ok (), s') := rfl

@[simp] theorem run_modify (f : σ → σ) (s : σ) :
    (modify f : StateExcept σ ε PUnit).run s = (.ok (), f s) := rfl

@[simp] theorem run_modifyGet (f : σ → α × σ) (s : σ) :
    (modifyGet f : StateExcept σ ε α).run s = (.ok (f s).1, (f s).2) := rfl

@[simp] theorem run_throw (e : ε) (s : σ) :
    (throw e : StateExcept σ ε α).run s = (.error e, s) := rfl

/-- A pure result lifted fails, or not, without touching the state. -/
@[simp] theorem run_liftExcept (x : Except ε α) (s : σ) :
    (liftExcept x : StateExcept σ ε α).run s = (x, s) := by
  cases x <;> rfl

@[simp] theorem run_mapError (f : ε → ε') (x : StateExcept σ ε α) (s : σ) :
    (mapError f x).run s = ((x.run s).1.mapError f, (x.run s).2) := rfl

/-- A read of the state, then a computation on what was read. -/
@[simp] theorem run_get_bind (f : σ → StateExcept σ ε α) (s : σ) :
    ((get : StateExcept σ ε σ) >>= f).run s = (f s).run s := rfl

/-- A write, then a computation from the written state. -/
@[simp] theorem run_set_bind (s' : σ) (f : PUnit → StateExcept σ ε α) (s : σ) :
    ((set s' : StateExcept σ ε PUnit) >>= f).run s = (f ()).run s' := rfl

/-- A pure result under `?`: its error stops the computation, its value goes on. -/
@[simp] theorem run_liftExcept_bind (x : Except ε α) (f : α → StateExcept σ ε β) (s : σ) :
    (liftExcept x >>= f).run s = match x with
      | .ok a => (f a).run s
      | .error e => (.error e, s) := by
  cases x <;> rfl

theorem ext {x y : StateExcept σ ε α} (h : ∀ s, x.run s = y.run s) : x = y := funext h

instance : LawfulMonad (StateExcept σ ε) := LawfulMonad.mk' (StateExcept σ ε)
  (fun x => ext fun s => by
    change (x >>= (Pure.pure ∘ id)).run s = x.run s
    rw [run_bind]
    rcases x.run s with ⟨_ | _, _⟩ <;> rfl)
  (fun a f => ext fun s => rfl)
  (fun x f g => ext fun s => by
    simp only [run_bind]
    rcases x.run s with ⟨_ | a, s'⟩
    · rfl
    · rfl)

@[simp] theorem run_map (f : α → β) (x : StateExcept σ ε α) (s : σ) :
    (f <$> x).run s = ((x.run s).1.map f, (x.run s).2) := by
  rw [map_eq_pure_bind, run_bind]
  rcases x.run s with ⟨_ | _, _⟩ <;> rfl

@[simp] theorem except_map_ok (f : α → β) (a : α) :
    (Except.ok a : Except ε α).map f = .ok (f a) := rfl

/-! ## 2. Invariants of the state -/

/-- `x` keeps the state property `I`, whatever its result. -/
def Preserves (I : σ → Prop) (x : StateExcept σ ε α) : Prop := ∀ s, I s → I (x.run s).2

namespace Preserves

variable {I : σ → Prop}

theorem pure (a : α) : Preserves I (Pure.pure a : StateExcept σ ε α) := fun _ h => h

theorem get : Preserves I (MonadStateOf.get : StateExcept σ ε σ) := fun _ h => h

theorem lift (x : Except ε α) : Preserves I (liftExcept x : StateExcept σ ε α) := by
  intro s h
  rw [run_liftExcept]
  exact h

theorem throw (e : ε) : Preserves I (MonadExceptOf.throw e : StateExcept σ ε α) := fun _ h => h

theorem modify {f : σ → σ} (hf : ∀ s, I s → I (f s)) :
    Preserves I (MonadState.modifyGet (fun s => (PUnit.unit, f s)) : StateExcept σ ε PUnit) :=
  fun s h => hf s h

theorem mapError {x : StateExcept σ ε α} (hx : Preserves I x) (f : ε → ε') :
    Preserves I (StateExcept.mapError f x) := fun s h => hx s h

/-- **Sequencing keeps an invariant** both parts keep. -/
theorem bind {x : StateExcept σ ε α} {f : α → StateExcept σ ε β} (hx : Preserves I x)
    (hf : ∀ a, Preserves I (f a)) : Preserves I (x >>= f) := by
  intro s hs
  rw [run_bind]
  rcases hxs : x.run s with ⟨_ | a, s'⟩
  · have := hx s hs
    rw [hxs] at this
    exact this
  · have := hx s hs
    rw [hxs] at this
    exact hf a s' this

/-- **A loop keeps an invariant** every step keeps. -/
theorem foldlM {γ : Type} {f : β → γ → StateExcept σ ε β} (hf : ∀ b c, Preserves I (f b c)) :
    ∀ (l : List γ) (b : β), Preserves I (l.foldlM f b)
  | [], b => pure b
  | c :: l, b => by
    rw [List.foldlM_cons]
    exact bind (hf b c) fun b' => foldlM hf l b'

/-- **A `forM` loop keeps an invariant** every step keeps. -/
theorem forM {γ : Type} {f : γ → StateExcept σ ε PUnit} (hf : ∀ c, Preserves I (f c)) :
    ∀ l : List γ, Preserves I (l.forM f)
  | [] => pure _
  | c :: l => by
    change Preserves I (f c >>= fun _ => l.forM f)
    exact bind (hf c) fun _ => forM hf l

end Preserves

/-! ## 3. Where a loop stops -/

/-- **A failed loop stopped at one step**: the steps before it succeeded one after the other,
and the loop's error and final state are that step's. -/
theorem run_forM_error {γ : Type} {f : γ → StateExcept σ ε PUnit} :
    ∀ {l : List γ} {s s' : σ} {e : ε}, (l.forM f).run s = (.error e, s') →
      ∃ done x rest s₁, l = done ++ x :: rest ∧ (done.forM f).run s = (.ok (), s₁) ∧
        (f x).run s₁ = (.error e, s')
  | [], s, s', e, h => by
    change (Pure.pure PUnit.unit : StateExcept σ ε PUnit).run s = _ at h
    rw [run_pure] at h
    cases h
  | x :: l, s, s', e, h => by
    change (f x >>= fun _ => l.forM f).run s = _ at h
    rw [run_bind] at h
    rcases hx : (f x).run s with ⟨_ | _, s₁⟩
    · -- the first step failed
      rw [hx] at h
      cases h
      exact ⟨[], x, l, s, rfl, rfl, hx⟩
    · rw [hx] at h
      obtain ⟨done, y, rest, s₂, rfl, hdone, hy⟩ := run_forM_error h
      refine ⟨x :: done, y, rest, s₂, rfl, ?_, hy⟩
      change (f x >>= fun _ => done.forM f).run s = _
      rw [run_bind, hx]
      exact hdone

/-! ## 4. A loop that does not stop -/

/-- The precondition of a fold: every element satisfies `P` at the accumulator the fold has
reached before it. -/
def FoldPre {α γ : Type} (P : α → γ → Prop) (g : α → γ → α) : α → List γ → Prop
  | _, [] => True
  | a, c :: l => P a c ∧ FoldPre P g (g a c) l

instance decFoldPre {α γ : Type} {P : α → γ → Prop} [∀ a c, Decidable (P a c)] {g : α → γ → α} :
    ∀ (a : α) (l : List γ), Decidable (FoldPre P g a l)
  | _, [] => instDecidableTrue
  | a, c :: l =>
    haveI := decFoldPre (P := P) (g := g) (g a c) l
    instDecidableAnd

/-- **A loop simulates a fold**: when every step, from a state `R`-related to `a` and on an
element allowed at `a`, succeeds in a state related to `g a c`, the whole loop succeeds in a
state related to the fold. -/
theorem run_forM_simulates {α γ : Type} {f : γ → StateExcept σ ε PUnit} {R : σ → α → Prop}
    {g : α → γ → α} {P : α → γ → Prop}
    (hstep : ∀ s a c, R s a → P a c → ∃ s', (f c).run s = (.ok (), s') ∧ R s' (g a c)) :
    ∀ (l : List γ) {s : σ} {a : α}, R s a → FoldPre P g a l →
      ∃ s', (l.forM f).run s = (.ok (), s') ∧ R s' (l.foldl g a)
  | [], s, _, h, _ => ⟨s, rfl, h⟩
  | c :: l, s, a, h, ⟨hc, hl⟩ => by
    obtain ⟨s₁, h₁, hR₁⟩ := hstep s a c h hc
    obtain ⟨s₂, h₂, hR₂⟩ := run_forM_simulates hstep l hR₁ hl
    refine ⟨s₂, ?_, hR₂⟩
    change (f c >>= fun _ => l.forM f).run s = _
    rw [run_bind_ok h₁]
    exact h₂

end StateExcept
