import Mathlib.Algebra.GroupWithZero.Nat
import Mathlib.Data.List.DropRight

/-!
# Texts cut at a separator

A text is cut at every occurrence of a separator, or only at the first or the last one. The pieces
hold no separator, and with the separators between them they give the text back.

## Implementation notes

The pieces are those of `List.splitOn`. The first and the last piece are what `takeWhile` and
`rtakeWhile` keep, so a proof about them needs no recursion of its own.
-/

namespace Attyd

variable {α : Type*} [DecidableEq α] {separator : α} {text : List α}

theorem splitOn_eq_singleton_iff {piece : List α} :
    text.splitOn separator = [piece] ↔ text = piece ∧ separator ∉ piece := by
  constructor
  · intro h
    have hmem : separator ∉ text := by
      intro hmem
      obtain ⟨before, after, rfl⟩ := List.append_of_mem hmem
      have hlength := congrArg List.length h
      rw [List.splitOn_append_cons_self, List.length_append] at hlength
      have hbefore := List.length_pos_iff.mpr (List.splitOn_ne_nil separator before)
      have hafter := List.length_pos_iff.mpr (List.splitOn_ne_nil separator after)
      simp only [List.length_singleton] at hlength
      omega
    rw [List.splitOn_eq_singleton hmem, List.cons.injEq] at h
    exact ⟨h.1, h.1 ▸ hmem⟩
  · rintro ⟨rfl, hmem⟩
    exact List.splitOn_eq_singleton hmem

/-- The first of several pieces ends at the first separator. -/
theorem splitOn_eq_cons_iff {piece : List α} {pieces : List (List α)} (hpieces : pieces ≠ []) :
    text.splitOn separator = piece :: pieces ↔
      separator ∉ piece ∧
        ∃ rest, text = piece ++ separator :: rest ∧ rest.splitOn separator = pieces := by
  constructor
  · intro h
    by_cases hmem : separator ∈ text
    · obtain ⟨before, after, rfl, hbefore⟩ := List.eq_append_cons_of_mem hmem
      rw [List.splitOn_append_cons_self_of_not_mem hbefore, List.cons.injEq] at h
      exact ⟨h.1 ▸ hbefore, after, by rw [h.1], h.2⟩
    · rw [List.splitOn_eq_singleton hmem, List.cons.injEq] at h
      exact absurd h.2.symm hpieces
  · rintro ⟨hmem, rest, rfl, rfl⟩
    exact List.splitOn_append_cons_self_of_not_mem hmem rest

/-- Every text is cut before its first separator, or at its end. -/
theorem exists_first_cut (separator : α) (text : List α) :
    ∃ before rest, text = before ++ rest ∧ separator ∉ before ∧
      (rest = [] ∨ ∃ after, rest = separator :: after) := by
  by_cases hmem : separator ∈ text
  · obtain ⟨before, after, rfl, hbefore⟩ := List.eq_append_cons_of_mem hmem
    exact ⟨before, _, rfl, hbefore, .inr ⟨after, rfl⟩⟩
  · exact ⟨text, [], (List.append_nil text).symm, hmem, .inl rfl⟩

/-- What stands before the first separator. -/
theorem takeWhile_append_separator {before : List α} (h : separator ∉ before) (after : List α) :
    (before ++ separator :: after).takeWhile (· ≠ separator) = before := by
  have hbefore : ∀ c ∈ before, decide (c ≠ separator) = true :=
    fun c hc => decide_eq_true fun heq => h (heq ▸ hc)
  rw [List.takeWhile_append_of_pos hbefore]
  simp

/-- The first piece is what stands before the first separator. -/
theorem headD_splitOn (fallback : List α) :
    (text.splitOn separator).headD fallback = text.takeWhile (· ≠ separator) := by
  by_cases hmem : separator ∈ text
  · obtain ⟨before, after, rfl, hbefore⟩ := List.eq_append_cons_of_mem hmem
    rw [List.splitOn_append_cons_self_of_not_mem hbefore, List.headD_cons,
      takeWhile_append_separator hbefore]
  · rw [List.splitOn_eq_singleton hmem, List.headD_cons, List.takeWhile_eq_self_iff.mpr]
    intro c hc
    exact decide_eq_true (fun h => hmem (h ▸ hc))

/-- What stands after the last separator stands there whatever is written before it. -/
theorem rtakeWhile_append_separator (before after : List α) :
    (before ++ separator :: after).rtakeWhile (· ≠ separator) =
      after.rtakeWhile (· ≠ separator) := by
  rw [List.rtakeWhile, List.rtakeWhile, List.reverse_append, List.reverse_cons, List.append_assoc,
    List.singleton_append, List.takeWhile_append]
  split
  · next hall =>
      rw [List.takeWhile_cons_of_neg (by simp), List.append_nil]
      exact congrArg List.reverse (List.takeWhile_prefix _ |>.eq_of_length hall).symm
  · rfl

end Attyd
