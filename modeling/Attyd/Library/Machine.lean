import Mathlib.Data.List.Basic

/-!
# Fallible steps and runs

A fallible step returns a value or an error. The lemmas here read the parts of
a sequence of such steps off its result, and carry an invariant from one step
to a whole run, both for runs that stop at the first error and for machines
that go on after one.
-/

namespace Attyd

universe u

section Fallible

variable {ε : Type*} {α β : Type u}

/-- A sequence of two steps succeeds when both do. -/
theorem bind_eq_ok {x : Except ε α} {f : α → Except ε β} {b : β} :
    (x >>= f) = .ok b ↔ ∃ a, x = .ok a ∧ f a = .ok b := by
  cases x with
  | error e =>
      constructor
      · intro h
        cases h
      · rintro ⟨a, ha, -⟩
        cases ha
  | ok a =>
      constructor
      · intro h
        exact ⟨a, rfl, h⟩
      · rintro ⟨a', ha, h⟩
        cases ha
        exact h

@[simp] theorem ok_bind (a : α) (f : α → Except ε β) : ((Except.ok a : Except ε α) >>= f) = f a :=
  rfl

@[simp] theorem error_bind (e : ε) (f : α → Except ε β) :
    ((Except.error e : Except ε α) >>= f) = .error e := rfl

/-- A check that is passed. -/
theorem ite_error_eq_ok {c : Prop} [Decidable c] {e : ε} {x : Except ε α} {a : α} :
    (if c then .error e else x) = .ok a ↔ ¬c ∧ x = .ok a := by
  by_cases h : c
  · simp [h]
  · simp [h]

/-- A fold stops at its first failing step. -/
theorem foldlM_cons_eq_ok {f : β → α → Except ε β} {s t : β} {a : α} {as : List α} :
    (a :: as).foldlM f s = .ok t ↔ ∃ u, f s a = .ok u ∧ as.foldlM f u = .ok t := by
  rw [List.foldlM_cons, bind_eq_ok]

theorem foldlM_append_eq_ok {f : β → α → Except ε β} {s t : β} {as bs : List α} :
    (as ++ bs).foldlM f s = .ok t ↔
      ∃ u, as.foldlM f s = .ok u ∧ bs.foldlM f u = .ok t := by
  rw [List.foldlM_append, bind_eq_ok]

theorem foldlM_snoc_eq_ok {f : β → α → Except ε β} {s t : β} {a : α} {as : List α} :
    (as ++ [a]).foldlM f s = .ok t ↔ ∃ u, as.foldlM f s = .ok u ∧ f u a = .ok t := by
  simp only [foldlM_append_eq_ok, foldlM_cons_eq_ok]
  constructor
  · rintro ⟨u, hu, v, hv, ht⟩
    exact ⟨u, hu, by cases ht; exact hv⟩
  · rintro ⟨u, hu, ht⟩
    exact ⟨u, hu, t, ht, rfl⟩

/-- What one accepted step preserves, an accepted fold preserves. -/
theorem foldlM_invariant {f : β → α → Except ε β} {P : β → Prop}
    (hstep : ∀ s a s', P s → f s a = .ok s' → P s') {as : List α} {s t : β}
    (hs : P s) (h : as.foldlM f s = .ok t) : P t := by
  induction as generalizing s with
  | nil => cases h; exact hs
  | cons a as ih =>
      obtain ⟨u, hu, ht⟩ := foldlM_cons_eq_ok.mp h
      exact ih (hstep s a u hs hu) ht

end Fallible

section Machine

variable {σ ι : Type*}

/-- The states of a machine that takes one total step for each input. -/
def run (step : σ → ι → σ) (s : σ) (inputs : List ι) : σ := inputs.foldl step s

@[simp] theorem run_nil (step : σ → ι → σ) (s : σ) : run step s [] = s := rfl

@[simp] theorem run_cons (step : σ → ι → σ) (s : σ) (i : ι) (inputs : List ι) :
    run step s (i :: inputs) = run step (step s i) inputs := rfl

theorem run_append (step : σ → ι → σ) (s : σ) (xs ys : List ι) :
    run step s (xs ++ ys) = run step (run step s xs) ys :=
  List.foldl_append

theorem run_snoc (step : σ → ι → σ) (s : σ) (xs : List ι) (i : ι) :
    run step s (xs ++ [i]) = step (run step s xs) i := by
  simp [run]

/-- What every step preserves holds after every run. -/
theorem run_invariant {step : σ → ι → σ} {P : σ → Prop}
    (hstep : ∀ s i, P s → P (step s i)) {s : σ} (hs : P s) (inputs : List ι) :
    P (run step s inputs) := by
  induction inputs generalizing s with
  | nil => exact hs
  | cons i inputs ih => exact ih (hstep s i hs)

/-- Every step of a run meets a condition on its input and the state it starts in. -/
def Along (step : σ → ι → σ) (good : σ → ι → Prop) : σ → List ι → Prop
  | _, [] => True
  | s, i :: inputs => good s i ∧ Along step good (step s i) inputs

instance Along.decidable (step : σ → ι → σ) (good : σ → ι → Prop)
    [∀ s i, Decidable (good s i)] : ∀ s inputs, Decidable (Along step good s inputs)
  | _, [] => isTrue trivial
  | s, i :: inputs =>
      have := Along.decidable step good (step s i) inputs
      inferInstanceAs (Decidable (good s i ∧ Along step good (step s i) inputs))

/-- What every good step preserves holds after every run of good steps. -/
theorem run_invariant_along {step : σ → ι → σ} {good : σ → ι → Prop} {P : σ → Prop}
    (hstep : ∀ s i, P s → good s i → P (step s i)) {s : σ} (hs : P s) {inputs : List ι}
    (h : Along step good s inputs) : P (run step s inputs) := by
  induction inputs generalizing s with
  | nil => exact hs
  | cons i inputs ih => exact ih (hstep s i hs h.1) h.2

end Machine

end Attyd
