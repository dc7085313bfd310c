import Attyd.Library.Machine

/-!
# Machines that come to rest

Some steps of a machine are inner: nobody outside has to act for them. If each enabled
inner step lowers a measure, then the machine takes only finitely many of them in a row,
and can always be run by inner steps to a state in which none is enabled.
-/

namespace Attyd

variable {σ ι : Type*}

/-- Take a step where it is enabled. -/
def attempt (step : σ → ι → Option σ) (s : σ) (i : ι) : σ := (step s i).getD s

/-- What every enabled step preserves holds after every run. -/
theorem attempt_invariant {step : σ → ι → Option σ} {P : σ → Prop}
    (hstep : ∀ s i s', P s → step s i = some s' → P s') {s : σ} (hs : P s) (inputs : List ι) :
    P (run (attempt step) s inputs) := by
  refine run_invariant (fun s i hs => ?_) hs inputs
  unfold attempt
  cases h : step s i with
  | none => exact hs
  | some s' => exact hstep s i s' hs h

/-- No inner step is enabled. -/
def Resting (step : σ → ι → Option σ) (inner : ι → Prop) (s : σ) : Prop :=
  ∀ i, inner i → step s i = none

/-- A run each of whose steps is inner and enabled. -/
def InnerRun (step : σ → ι → Option σ) (inner : ι → Prop) : σ → List ι → Prop
  | _, [] => True
  | s, i :: inputs => inner i ∧ ∃ s', step s i = some s' ∧ InnerRun step inner s' inputs

/-- Every enabled inner step lowers the measure, where the invariant holds. -/
structure Settles (step : σ → ι → Option σ) (inner : ι → Prop) (invariant : σ → Prop)
    (measure : σ → Nat) : Prop where
  preserved : ∀ s i s', invariant s → step s i = some s' → invariant s'
  lowers : ∀ s i s', invariant s → inner i → step s i = some s' → measure s' < measure s

namespace Settles

variable {step : σ → ι → Option σ} {inner : ι → Prop} {invariant : σ → Prop} {measure : σ → Nat}

/-- A run of inner steps is no longer than the measure of its first state. -/
theorem length_le (h : Settles step inner invariant measure) {s : σ} (hs : invariant s)
    {inputs : List ι} (hrun : InnerRun step inner s inputs) : inputs.length ≤ measure s := by
  induction inputs generalizing s with
  | nil => exact Nat.zero_le _
  | cons i inputs ih =>
      obtain ⟨hinner, s', hstep, hrest⟩ := hrun
      have hlen := ih (h.preserved s i s' hs hstep) hrest
      have hlower := h.lowers s i s' hs hinner hstep
      rw [List.length_cons]
      omega

/-- Inner steps bring the machine to rest. -/
theorem rests (h : Settles step inner invariant measure) (s : σ) (hs : invariant s) :
    ∃ inputs, InnerRun step inner s inputs ∧
      Resting step inner (run (attempt step) s inputs) := by
  induction hn : measure s using Nat.strongRecOn generalizing s with
  | ind n ih =>
      by_cases hrest : Resting step inner s
      · exact ⟨[], trivial, hrest⟩
      · simp only [Resting, not_forall] at hrest
        obtain ⟨i, hinner, henabled⟩ := hrest
        obtain ⟨s', hstep⟩ := Option.ne_none_iff_exists'.mp henabled
        have hlower := h.lowers s i s' hs hinner hstep
        obtain ⟨inputs, hrun, hresting⟩ :=
          ih (measure s') (by omega) s' (h.preserved s i s' hs hstep) rfl
        refine ⟨i :: inputs, ⟨hinner, s', hstep, hrun⟩, ?_⟩
        rw [run_cons, attempt, hstep]
        exact hresting

end Settles

end Attyd
