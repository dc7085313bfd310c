import Mathlib.Data.List.Basic
import Mathlib.Data.List.Nodup

/-!
# Lists with one item for each key

A list is kept so that no two of its items have the same key: a new item is merged into the one
of its key in place, and is put behind all where there is none. What the list holds under a key
is then the merge of the items written under it, in their order.
-/

namespace Attyd.Keyed

variable {α κ : Type*} [DecidableEq κ] (key : α → κ) (merge : Option α → α → α)

/-- The first item under a key. -/
def find (k : κ) (items : List α) : Option α := items.find? fun a => key a = k

/-- Merge an item into the one of its key, or put it behind all. -/
def upsert (items : List α) (a : α) : List α :=
  match items.findIdx? fun b => key b = key a with
  | some i => items.set i (merge items[i]? a)
  | none => items ++ [merge none a]

@[simp] theorem upsert_nil (a : α) : upsert key merge [] a = [merge none a] := rfl

theorem upsert_cons (b : α) (items : List α) (a : α) :
    upsert key merge (b :: items) a =
      if key b = key a then merge (some b) a :: items else b :: upsert key merge items a := by
  by_cases hb : key b = key a
  · simp [upsert, List.findIdx?_cons, hb]
  · cases hi : items.findIdx? fun b => key b = key a with
    | none => simp [upsert, List.findIdx?_cons, hb, hi]
    | some i => simp [upsert, List.findIdx?_cons, hb, hi]

variable {key merge}

/-- After a write the list holds what it held and the merged item. -/
theorem mem_upsert {items : List α} {a b : α} (h : b ∈ upsert key merge items a) :
    b ∈ items ∨ b = merge (find key (key a) items) a := by
  induction items with
  | nil => exact .inr (by simpa [find] using h)
  | cons c items ih =>
      rw [upsert_cons] at h
      by_cases hc : key c = key a
      · rw [if_pos hc] at h
        rcases List.mem_cons.1 h with rfl | h
        · exact .inr (by simp [find, hc])
        · exact .inl (List.mem_cons_of_mem c h)
      · rw [if_neg hc] at h
        rcases List.mem_cons.1 h with rfl | h
        · exact .inl List.mem_cons_self
        · rcases ih h with h | h
          · exact .inl (List.mem_cons_of_mem c h)
          · exact .inr (by simpa [find, hc] using h)

variable (hmerge : ∀ previous a, key (merge previous a) = key a)

include hmerge in
/-- What is held under the key of the item is merged with it; nothing else changes. -/
theorem find_upsert (items : List α) (a : α) (k : κ) :
    find key k (upsert key merge items a) =
      if key a = k then some (merge (find key k items) a) else find key k items := by
  induction items with
  | nil =>
      by_cases hk : key a = k
      · simp [find, hmerge, hk]
      · simp [find, hmerge, hk]
  | cons b items ih =>
      rw [upsert_cons]
      by_cases hb : key b = key a
      · rw [if_pos hb]
        by_cases hk : key a = k
        · simp [find, hmerge, hk, hb]
        · simp [find, hmerge, hk, hb]
      · rw [if_neg hb]
        simp only [find, List.find?_cons] at ih ⊢
        by_cases hbk : key b = k
        · have hk : key a ≠ k := fun h => hb (hbk.trans h.symm)
          simp [hbk, hk]
        · simp only [hbk, decide_false]
          exact ih

include hmerge in
/-- The keys of a list after a write: those before, and that of the item. -/
theorem mem_keys_upsert {items : List α} {a : α} {k : κ} :
    k ∈ (upsert key merge items a).map key ↔ k ∈ items.map key ∨ k = key a := by
  induction items with
  | nil => simp [hmerge]
  | cons b items ih =>
      rw [upsert_cons]
      by_cases hb : key b = key a
      · rw [if_pos hb, List.map_cons, List.map_cons, hmerge, hb, List.mem_cons]
        tauto
      · rw [if_neg hb, List.map_cons, List.map_cons, List.mem_cons, List.mem_cons, ih]
        tauto

include hmerge in
/-- A write keeps one item for each key. -/
theorem nodup_upsert {items : List α} (h : (items.map key).Nodup) (a : α) :
    ((upsert key merge items a).map key).Nodup := by
  induction items with
  | nil => simp
  | cons b items ih =>
      obtain ⟨hb, hitems⟩ := List.nodup_cons.1 h
      rw [upsert_cons]
      by_cases hkey : key b = key a
      · rw [if_pos hkey, List.map_cons, hmerge, ← hkey]
        exact h
      · rw [if_neg hkey, List.map_cons]
        refine List.nodup_cons.2 ⟨fun hmem => ?_, ih hitems⟩
        exact ((mem_keys_upsert hmerge).1 hmem).elim hb hkey

/-- With one item for each key, the items under a key are the one that is held. -/
theorem filter_key {items : List α} (h : (items.map key).Nodup) (k : κ) :
    items.filter (fun a => key a = k) = (find key k items).toList := by
  induction items with
  | nil => rfl
  | cons b items ih =>
      obtain ⟨hb, hitems⟩ := List.nodup_cons.1 h
      by_cases hk : key b = k
      · have hnone : items.filter (fun a => key a = k) = [] :=
          List.filter_eq_nil_iff.2 fun a ha hak => hb (by
            have hak : key a = k := by simpa using hak
            exact hk.trans hak.symm ▸ List.mem_map_of_mem ha)
        simp [find, hk, hnone]
      · simp only [find, hk, decide_false, List.filter_cons, List.find?_cons] at ih ⊢
        exact ih hitems

end Attyd.Keyed
