import Mathlib.Algebra.GroupWithZero.Nat
import Mathlib.Data.List.Basic

/-!
# Slices of a text at byte offsets

A text stands in memory in UTF-8, and a slice is named by a byte offset. The offset has to fall
between two characters: a slice inside a character, or outside the text, has no result.

## Implementation notes

A text is the list of its characters, each as long as its UTF-8 encoding. `splitAtByte` answers
exactly at the offsets where a prefix ends.
-/

namespace Attyd

/-- The length of a text in bytes. -/
def byteLength (text : List Char) : Nat := (text.map Char.utf8Size).sum

@[simp] theorem byteLength_nil : byteLength [] = 0 := rfl

@[simp] theorem byteLength_cons (c : Char) (text : List Char) :
    byteLength (c :: text) = c.utf8Size + byteLength text := by
  simp [byteLength]

@[simp] theorem byteLength_append (a b : List Char) :
    byteLength (a ++ b) = byteLength a + byteLength b := by
  simp [byteLength]

/-- The text before a byte offset and the text from it on. -/
def splitAtByte : Nat → List Char → Option (List Char × List Char)
  | 0, text => some ([], text)
  | _ + 1, [] => none
  | offset + 1, c :: text =>
      if c.utf8Size ≤ offset + 1 then
        (splitAtByte (offset + 1 - c.utf8Size) text).map fun parts => (c :: parts.1, parts.2)
      else none

/-- A split answers where a prefix ends. -/
theorem splitAtByte_byteLength (a b : List Char) :
    splitAtByte (byteLength a) (a ++ b) = some (a, b) := by
  induction a with
  | nil => simp [splitAtByte]
  | cons c a ih =>
      have hpos : 0 < c.utf8Size := Char.utf8Size_pos c
      obtain ⟨offset, hoffset⟩ := Nat.exists_eq_succ_of_ne_zero
        (show byteLength (c :: a) ≠ 0 by rw [byteLength_cons]; omega)
      rw [hoffset, List.cons_append, splitAtByte, if_pos (by rw [byteLength_cons] at hoffset; omega)]
      have hrest : offset.succ - c.utf8Size = byteLength a := by
        rw [← hoffset, byteLength_cons]
        omega
      rw [hrest, ih]
      rfl

theorem splitAtByte_eq_some {offset : Nat} {text a b : List Char} :
    splitAtByte offset text = some (a, b) ↔ text = a ++ b ∧ byteLength a = offset := by
  constructor
  · intro h
    induction text generalizing offset a with
    | nil =>
        cases offset with
        | zero => cases h; exact ⟨rfl, rfl⟩
        | succ offset => cases h
    | cons c text ih =>
        cases offset with
        | zero => cases h; exact ⟨rfl, rfl⟩
        | succ offset =>
            rw [splitAtByte] at h
            split at h
            · next hsize =>
                obtain ⟨⟨a, b⟩, hparts, hcons⟩ := Option.map_eq_some_iff.mp h
                cases hcons
                obtain ⟨rfl, hlength⟩ := ih hparts
                refine ⟨rfl, ?_⟩
                simp only [byteLength_cons] at hlength ⊢
                omega
            · cases h
  · rintro ⟨rfl, rfl⟩
    exact splitAtByte_byteLength a b

/-- A split has no result where no prefix ends. -/
theorem splitAtByte_eq_none {offset : Nat} {text : List Char} :
    splitAtByte offset text = none ↔ ∀ a b, text = a ++ b → byteLength a ≠ offset := by
  constructor
  · rintro h a b rfl rfl
    rw [splitAtByte_byteLength] at h
    cases h
  · intro h
    refine Option.eq_none_iff_forall_ne_some.mpr ?_
    rintro ⟨a, b⟩ hsplit
    obtain ⟨htext, hlength⟩ := splitAtByte_eq_some.mp hsplit
    exact h a b htext hlength

section Ends

theorem byteLength_pos {text : List Char} (h : text ≠ []) : 0 < byteLength text := by
  obtain ⟨c, rest, rfl⟩ := List.exists_cons_of_ne_nil h
  have hpos := Char.utf8Size_pos c
  rw [byteLength_cons]
  omega

/-- Of two ends of a text the one that begins no earlier is an end of the other. -/
theorem suffix_of_byteLength_le {a b c d : List Char} (h : a ++ b = c ++ d)
    (hle : byteLength a ≤ byteLength c) : d <:+ b := by
  rcases List.append_eq_append_iff.mp h with ⟨between, rfl, rfl⟩ | ⟨between, rfl, rfl⟩
  · exact List.suffix_append between d
  · -- Nothing can lie between, since a character takes a byte.
    have hbetween : between = [] := by
      by_contra hne
      have hpos := byteLength_pos hne
      rw [byteLength_append] at hle
      omega
    rw [hbetween]
    exact List.suffix_refl b

/-- The longest end of a text that takes no more bytes than the limit. -/
structure IsTail (limit : Option Nat) (text kept : List Char) : Prop where
  suffix : kept <:+ text
  within : ∀ count, limit = some count → byteLength kept ≤ count
  longest : ∀ other, other <:+ text →
    (∀ count, limit = some count → byteLength other ≤ count) → other <:+ kept

/-- Without a limit the text is its end. -/
theorem IsTail.eq_of_none {text kept : List Char} (h : IsTail none text kept) : kept = text :=
  h.suffix.eq_of_length_le
    (h.longest text (List.suffix_refl text) fun _ hcount => nomatch hcount).length_le

/-- The end of a text that has grown, or of an end of it, is the end of the text before and what
is new, but for what is dropped in front. -/
theorem IsTail.grow {limit : Option Nat} {before after more kept kept' : List Char}
    (hbefore : IsTail limit before kept) (hafter : IsTail limit after kept')
    (hsuffix : after <:+ before ++ more) : kept' <:+ kept ++ more := by
  have hkept : kept ++ more <:+ before ++ more := by
    obtain ⟨front, rfl⟩ := hbefore.suffix
    exact ⟨front, (List.append_assoc ..).symm⟩
  rcases List.suffix_or_suffix_of_suffix (hafter.suffix.trans hsuffix) hkept with h | h
  · exact h
  · -- An end that reaches further back would have been kept before.
    obtain ⟨front, rfl⟩ := h
    have hlonger : front ++ kept <:+ kept := by
      refine hbefore.longest _ ?_ fun count hcount => ?_
      · obtain ⟨rest, hrest⟩ := hafter.suffix.trans hsuffix
        refine ⟨rest, ?_⟩
        simpa only [← List.append_assoc, List.append_cancel_right_eq] using hrest
      · have hwithin := hafter.within count hcount
        simp only [byteLength_append] at hwithin ⊢
        omega
    have hlength := hlonger.length_le
    rw [List.length_append] at hlength
    have hfront : front = [] := List.eq_nil_of_length_eq_zero (by omega)
    rw [hfront]
    exact List.suffix_refl _

end Ends

end Attyd
