import Mathlib.Algebra.GroupWithZero.Nat
import Mathlib.Data.List.Basic

/-!
# Counters of 64 bits

A generation counter wraps and skips zero; a byte counter saturates.
-/

namespace Attyd

/-- `n.wrapping_add(1).max(1)`. -/
def nextCounter (n : Nat) : Nat := max ((n + 1) % 2 ^ 64) 1

/-- `a.saturating_add(b)`. -/
def saturatingAdd (a b : Nat) : Nat := min (a + b) (2 ^ 64 - 1)

/-- Decimal numerals tell numbers apart. -/
theorem toString_injective {m n : Nat} (h : toString m = toString n) : m = n := by
  have hdigits : Nat.toDigits 10 m = Nat.toDigits 10 n := by
    have hlist := congrArg String.toList h
    simpa [toString, Nat.repr] using hlist
  have hm : Nat.ofDigitChars 10 (Nat.toDigits 10 m) 0 = m :=
    Nat.ofDigitChars_toDigits (by decide) (by decide)
  rw [hdigits] at hm
  exact hm.symm.trans (Nat.ofDigitChars_toDigits (by decide) (by decide))

theorem dash_notMem_toString (n : Nat) : '-' ∉ (toString n).toList := by
  intro h
  have hdigits : '-' ∈ Nat.toDigits 10 n := by simpa [toString, Nat.repr] using h
  exact absurd (Nat.isDigit_of_mem_toDigits (by decide) (by decide) hdigits) (by decide)

/-- Two numerals with a dash between them tell both numbers. -/
theorem dashed_injective {a b c d : Nat}
    (h : toString a ++ "-" ++ toString b = toString c ++ "-" ++ toString d) : a = c ∧ b = d := by
  have hlist := congrArg String.toList h
  simp only [String.toList_append, List.append_assoc] at hlist
  obtain ⟨hfirst, -, hsecond⟩ := (List.append_cons_inj_of_notMem (dash_notMem_toString a)
    (dash_notMem_toString b)).mp hlist
  exact ⟨toString_injective (String.toList_inj.mp hfirst),
    toString_injective (String.toList_inj.mp hsecond)⟩

/-- Below its last value a generation counter counts by one. -/
theorem nextCounter_of_lt {n : Nat} (h : n + 1 < 2 ^ 64) : nextCounter n = n + 1 := by
  rw [nextCounter, Nat.mod_eq_of_lt h]
  omega

end Attyd
