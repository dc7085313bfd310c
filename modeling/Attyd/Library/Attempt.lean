import Mathlib.Data.List.Basic

/-!
# Computations that may fail after a change

A computation of `EStateM` that fails leaves the state as the failing step found it, with every
change made before. A transaction runs on a copy that takes the state's place on success, so it
fails only in the state it was given. What a computation keeps of the state it keeps on failure
too.
-/

namespace Attyd.Attempt

variable {ε σ α β γ : Type}

/-- The state a computation leaves, whether it fails or not. -/
def after (x : EStateM ε σ α) (s : σ) : σ :=
  match x s with
  | .ok _ t => t
  | .error _ t => t

/-- Whether a computation succeeds. -/
def accepts (x : EStateM ε σ α) (s : σ) : Bool :=
  match x s with
  | .ok _ _ => true
  | .error _ _ => false

/-- A result that is known beforehand, as a computation. -/
def check (result : Except ε α) : EStateM ε σ α := fun s =>
  match result with
  | .ok a => .ok a s
  | .error e => .error e s

/-- Run a computation on a copy of the state, which takes the state's place on success. -/
def transaction (x : EStateM ε σ α) : EStateM ε σ α := fun s =>
  match x s with
  | .ok a t => .ok a t
  | .error e _ => .error e s

theorem after_congr {x y : EStateM ε σ α} {s : σ} (h : x s = y s) : after x s = after y s := by
  rw [after, h, after]

theorem accepts_congr {x y : EStateM ε σ α} {s : σ} (h : x s = y s) :
    accepts x s = accepts y s := by
  rw [accepts, h, accepts]

theorem bind_apply (x : EStateM ε σ α) (f : α → EStateM ε σ β) (s : σ) :
    (x >>= f) s =
      match x s with
      | .ok a t => f a t
      | .error e t => .error e t := rfl

theorem get_apply (s : σ) : (get : EStateM ε σ σ) s = .ok s s := rfl

/-- A check that fails leaves the state, and one that succeeds goes on in it. -/
theorem check_bind_apply (result : Except ε α) (f : α → EStateM ε σ β) (s : σ) :
    (check result >>= f) s =
      match result with
      | .ok a => f a s
      | .error e => .error e s := by
  cases result <;> rfl

/-- A transaction that fails has changed nothing. -/
theorem after_transaction_of_rejects {x : EStateM ε σ α} {s : σ}
    (h : accepts (transaction x) s = false) : after (transaction x) s = s := by
  unfold accepts transaction at h
  unfold after transaction
  cases hx : x s with
  | ok a t =>
      rw [hx] at h
      cases h
  | error e t => rfl

/-- A transaction that succeeds leaves what the computation on the copy left. -/
theorem transaction_of_accepts {x : EStateM ε σ α} {s : σ} (h : accepts (transaction x) s = true) :
    accepts x s = true ∧ after (transaction x) s = after x s := by
  unfold accepts transaction at h
  unfold accepts after transaction
  cases hx : x s with
  | ok a t => exact ⟨rfl, rfl⟩
  | error e t =>
      rw [hx] at h
      cases h

/-- A change at the end is made when all that stands before it succeeded. -/
theorem accepts_bind_modify {x : EStateM ε σ α} {f : σ → σ} {s : σ}
    (h : accepts (x >>= fun _ => modify f) s = true) :
    accepts x s = true ∧ after (x >>= fun _ => modify f) s = f (after x s) := by
  unfold accepts at h ⊢
  unfold after
  rw [bind_apply] at h ⊢
  cases hx : x s with
  | ok a t => exact ⟨rfl, rfl⟩
  | error e t =>
      rw [hx] at h
      cases h

section Keeps

variable {view : σ → γ}

/-- A computation after which a view of the state is as before. -/
def Keeps (view : σ → γ) (x : EStateM ε σ α) : Prop := ∀ s, view (after x s) = view s

theorem keeps_check (result : Except ε α) : Keeps view (check result) := by
  intro s
  cases result <;> rfl

theorem keeps_pure (a : α) : Keeps view (pure a : EStateM ε σ α) := fun _ => rfl

/-- A change the view does not show. -/
theorem keeps_modify {f : σ → σ} (h : ∀ s, view (f s) = view s) :
    Keeps view (modify f : EStateM ε σ PUnit) := h

theorem Keeps.bind {x : EStateM ε σ α} {f : α → EStateM ε σ β} (hx : Keeps view x)
    (hf : ∀ a, Keeps view (f a)) : Keeps view (x >>= f) := by
  intro s
  have hs := hx s
  unfold after at hs ⊢
  rw [bind_apply]
  cases h : x s with
  | ok a t =>
      rw [h] at hs
      exact (hf a t).trans hs
  | error e t =>
      rw [h] at hs
      exact hs

end Keeps

end Attyd.Attempt
