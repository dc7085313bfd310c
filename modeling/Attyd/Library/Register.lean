import Attyd.Library.Machine

/-!
# Registers of a machine

A machine that goes on after a refused input takes some of its inputs and leaves the others. A
register holds what the last input that wrote it wrote: it is changed by inputs that are taken and
that carry a value, and by no others.
-/

namespace Attyd

variable {σ ι β : Type*} {step : σ → ι → σ} {takes : σ → ι → Bool} {good : σ → ι → Prop}

/-- The inputs of a run that are taken, each in the state it meets. -/
def taken (step : σ → ι → σ) (takes : σ → ι → Bool) : σ → List ι → List ι
  | _, [] => []
  | s, i :: inputs =>
      if takes s i then i :: taken step takes (step s i) inputs
      else taken step takes (step s i) inputs

/-- The last value of a list, or else the one before it. -/
def lastOr (values : List β) (initial : Option β) : Option β := values.getLast?.or initial

theorem lastOr_cons (b : β) (values : List β) (initial : Option β) :
    lastOr (b :: values) initial = lastOr values (some b) := by
  rw [lastOr, lastOr, List.getLast?_cons]
  cases values.getLast? <;> rfl

/-- A register holds the last value written by an input that was taken. -/
theorem register_run_along (register : σ → Option β) (writes : ι → Option β)
    (hstep : ∀ s i, good s i →
      register (step s i) = if takes s i then (writes i).or (register s) else register s)
    {s : σ} {inputs : List ι} (h : Along step good s inputs) :
    register (run step s inputs) =
      lastOr ((taken step takes s inputs).filterMap writes) (register s) := by
  induction inputs generalizing s with
  | nil => rfl
  | cons i inputs ih =>
      rw [run_cons, ih h.2, taken, hstep s i h.1]
      cases takes s i with
      | false => rfl
      | true =>
          simp only [if_true, List.filterMap_cons]
          cases writes i with
          | none => rfl
          | some b => rw [lastOr_cons, Option.some_or]

theorem along_trivial (s : σ) (inputs : List ι) : Along step (fun _ _ => True) s inputs := by
  induction inputs generalizing s with
  | nil => trivial
  | cons i inputs ih => exact ⟨trivial, ih (step s i)⟩

theorem register_run (register : σ → Option β) (writes : ι → Option β)
    (hstep : ∀ s i,
      register (step s i) = if takes s i then (writes i).or (register s) else register s)
    (s : σ) (inputs : List ι) :
    register (run step s inputs) =
      lastOr ((taken step takes s inputs).filterMap writes) (register s) :=
  register_run_along register writes (fun s i _ => hstep s i) (along_trivial s inputs)

end Attyd
