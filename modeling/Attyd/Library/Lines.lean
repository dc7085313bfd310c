import Mathlib.Algebra.GroupWithZero.Nat
import Mathlib.Data.List.Basic

/-!
# The lines of a sequence

A line goes up to the first separator and includes it; what stands after the last separator is a
line too, unless it is empty.
-/

namespace Attyd

variable {α : Type*} [DecidableEq α] (separator : α)

/-- The lines of a sequence, each with the separator that ends it. -/
def lines : List α → List (List α)
  | [] => []
  | a :: rest =>
      if a = separator then [a] :: lines rest
      else
        match lines rest with
        | [] => [[a]]
        | line :: later => (a :: line) :: later

variable {separator}

@[simp] theorem lines_nil : lines separator [] = [] := rfl

/-- A line is read up to its separator. -/
theorem lines_append_separator {line : List α} (h : separator ∉ line) (rest : List α) :
    lines separator (line ++ separator :: rest) =
      (line ++ [separator]) :: lines separator rest := by
  induction line with
  | nil => simp [lines]
  | cons a line ih =>
      obtain ⟨ha, hline⟩ := not_or.1 (fun hmem => h (List.mem_cons.2 hmem))
      rw [List.cons_append, lines, if_neg (Ne.symm ha), ih hline, List.cons_append]

/-- What has no separator in it is the front of the first line. -/
theorem lines_append {front : List α} (h : separator ∉ front) (hne : front ≠ [])
    (rest : List α) :
    lines separator (front ++ rest) =
      (front ++ (lines separator rest).headD []) :: (lines separator rest).tail := by
  induction front with
  | nil => exact absurd rfl hne
  | cons a front ih =>
      obtain ⟨ha, hfront⟩ := not_or.1 (fun hmem => h (List.mem_cons.2 hmem))
      rw [List.cons_append, lines, if_neg (Ne.symm ha)]
      by_cases hempty : front = []
      · subst hempty
        rw [List.nil_append]
        cases lines separator rest <;> rfl
      · rw [ih hfront hempty, List.cons_append]

end Attyd
