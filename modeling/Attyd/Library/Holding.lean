import Mathlib.Algebra.Order.Group.Multiset

/-!
# Ids that are held

Several parts of a state hold ids. A step lets go of some of them, and at most one id that
no part holds yet joins. Such steps keep every id with one holder.
-/

namespace Attyd

variable {α : Type*} {used : α → Prop} {s s' t t' : Multiset α}

/-- At most one id joins those that are held, and it was not used. -/
def Gains (used : α → Prop) (s s' : Multiset α) : Prop :=
  s' ≤ s ∨ ∃ id, ¬used id ∧ s' ≤ id ::ₘ s

namespace Gains

theorem refl (s : Multiset α) : Gains used s s := .inl le_rfl

theorem of_eq (h : s' = s) : Gains used s s' := .inl h.le

theorem cons {id : α} (h : ¬used id) (hs : s' = id ::ₘ s) : Gains used s s' :=
  .inr ⟨id, h, hs.le⟩

/-- What the other parts hold stays held. -/
theorem add_left (t : Multiset α) (h : Gains used s s') : Gains used (t + s) (t + s') := by
  rcases h with h | ⟨id, hid, h⟩
  · exact .inl (by gcongr)
  · refine .inr ⟨id, hid, ?_⟩
    rw [← Multiset.add_cons]
    gcongr

theorem add_right (t : Multiset α) (h : Gains used s s') : Gains used (s + t) (s' + t) := by
  rw [add_comm s, add_comm s']
  exact h.add_left t

/-- Every id keeps its one holder. -/
theorem nodup (h : Gains (· ∈ s) s s') (hs : s.Nodup) : s'.Nodup := by
  rcases h with h | ⟨id, hid, h⟩
  · exact Multiset.nodup_of_le h hs
  · exact Multiset.nodup_of_le h (Multiset.nodup_cons.mpr ⟨hid, hs⟩)

end Gains

end Attyd
