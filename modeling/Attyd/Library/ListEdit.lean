import Mathlib.Data.List.Basic
import Mathlib.Data.List.TakeDrop

/-!
# Single edits of a list, and the last position that passes a test

An `Edit` keeps a list, adds one entry at its end, replaces one entry or drops
one entry. Programs that copy a list, change one place of the copy and publish
it are described by the edit alone.

`lastIdx?` is the search from the right. Its values after each kind of edit are
what an index kept beside the list has to follow.
-/

namespace Attyd

/-- One change of a list. -/
inductive Edit (α : Type*) where
  | keep
  | push (entry : α)
  | put (position : Nat) (entry : α)
  | erase (position : Nat)

namespace Edit

variable {α : Type*}

/-- The list after the change. -/
def apply : Edit α → List α → List α
  | keep, xs => xs
  | push v, xs => xs ++ [v]
  | put i v, xs => xs.set i v
  | erase i, xs => xs.eraseIdx i

/-- The same change further to the right. -/
def shift (n : Nat) : Edit α → Edit α
  | keep => keep
  | push v => push v
  | put i v => put (n + i) v
  | erase i => erase (n + i)

@[simp] theorem apply_keep (xs : List α) : keep.apply xs = xs := rfl

@[simp] theorem apply_push (v : α) (xs : List α) : (push v).apply xs = xs ++ [v] := rfl

@[simp] theorem apply_put (i : Nat) (v : α) (xs : List α) : (put i v).apply xs = xs.set i v := rfl

@[simp] theorem apply_erase (i : Nat) (xs : List α) : (erase i).apply xs = xs.eraseIdx i := rfl

theorem apply_put_middle (pre : List α) (old new : α) (post : List α) :
    (put pre.length new).apply (pre ++ old :: post) = pre ++ new :: post := by
  rw [apply_put, List.set_append_right _ _ (Nat.le_refl _), Nat.sub_self, List.set_cons_zero]

theorem apply_erase_middle (pre : List α) (old : α) (post : List α) :
    (erase pre.length : Edit α).apply (pre ++ old :: post) = pre ++ post := by
  rw [apply_erase, List.eraseIdx_append_of_length_le (Nat.le_refl _), Nat.sub_self,
    List.eraseIdx_cons_zero]

/-- Editing the tail of a list is the shifted edit of the whole list. -/
theorem apply_shift (e : Edit α) (pre xs : List α) :
    (e.shift pre.length).apply (pre ++ xs) = pre ++ e.apply xs := by
  cases e with
  | keep => rfl
  | push v => simp [shift]
  | put i v => simp [shift]
  | erase i =>
      change (pre ++ xs).eraseIdx (pre.length + i) = pre ++ xs.eraseIdx i
      rw [List.eraseIdx_append_of_length_le (Nat.le_add_right _ _), Nat.add_sub_cancel_left]

theorem apply_shift_drop (e : Edit α) (xs : List α) {n : Nat} (h : n ≤ xs.length) :
    xs.take n ++ e.apply (xs.drop n) = (e.shift n).apply xs := by
  have := e.apply_shift (xs.take n) (xs.drop n)
  rw [List.take_append_drop, List.length_take_of_le h] at this
  exact this.symm

end Edit

section LastIdx

variable {α : Type*}

/-- The last position whose entry passes the test. -/
def lastIdx? (p : α → Bool) : List α → Option Nat
  | [] => none
  | x :: xs =>
      match lastIdx? p xs with
      | some i => some (i + 1)
      | none => if p x then some 0 else none

@[simp] theorem lastIdx?_nil (p : α → Bool) : lastIdx? p [] = none := rfl

theorem lastIdx?_cons (p : α → Bool) (x : α) (xs : List α) :
    lastIdx? p (x :: xs) =
      ((lastIdx? p xs).map (· + 1) <|> if p x then some 0 else none) := by
  rw [lastIdx?]
  cases lastIdx? p xs <;> rfl

theorem lastIdx?_eq_none {p : α → Bool} {xs : List α} :
    lastIdx? p xs = none ↔ ∀ x ∈ xs, p x = false := by
  induction xs with
  | nil => simp
  | cons x xs ih =>
      rw [lastIdx?_cons, List.forall_mem_cons, ← ih]
      cases lastIdx? p xs <;> simp

/-- A right-to-left search looks at the second list first. -/
theorem lastIdx?_append (p : α → Bool) (xs ys : List α) :
    lastIdx? p (xs ++ ys) =
      ((lastIdx? p ys).map (xs.length + ·) <|> lastIdx? p xs) := by
  induction xs with
  | nil => simp
  | cons x xs ih =>
      rw [List.cons_append, lastIdx?_cons, ih, lastIdx?_cons]
      cases lastIdx? p ys with
      | none => rfl
      | some i =>
          change some (xs.length + i + 1) = some ((x :: xs).length + i)
          rw [List.length_cons]
          congr 1
          omega

theorem lastIdx?_snoc (p : α → Bool) (xs : List α) (x : α) :
    lastIdx? p (xs ++ [x]) = if p x then some xs.length else lastIdx? p xs := by
  rw [lastIdx?_append, lastIdx?_cons]
  by_cases hx : p x <;> simp [hx]

/-- The found entry splits the list; no later entry passes the test. -/
theorem exists_split_of_lastIdx? {p : α → Bool} {xs : List α} {i : Nat}
    (h : lastIdx? p xs = some i) :
    ∃ pre x post, xs = pre ++ x :: post ∧ pre.length = i ∧ p x = true ∧
      ∀ y ∈ post, p y = false := by
  induction xs generalizing i with
  | nil => simp at h
  | cons x xs ih =>
      rw [lastIdx?_cons] at h
      cases hxs : lastIdx? p xs with
      | none =>
          have hx : p x = true ∧ 0 = i := by simpa [hxs] using h
          exact ⟨[], x, xs, rfl, hx.2, hx.1, lastIdx?_eq_none.mp hxs⟩
      | some j =>
          obtain ⟨pre, y, post, rfl, rfl, hy, hpost⟩ := ih hxs
          have hi : pre.length + 1 = i := by simpa [hxs] using h
          exact ⟨x :: pre, y, post, rfl, hi, hy, hpost⟩

theorem lastIdx?_lt {p : α → Bool} {xs : List α} {i : Nat} (h : lastIdx? p xs = some i) :
    i < xs.length := by
  obtain ⟨pre, x, post, rfl, rfl, -, -⟩ := exists_split_of_lastIdx? h
  simp

/-- Replacing an entry by one that answers the test alike moves nothing. -/
theorem lastIdx?_replace {p : α → Bool} {x y : α} (h : p y = p x) (xs ys : List α) :
    lastIdx? p (xs ++ y :: ys) = lastIdx? p (xs ++ x :: ys) := by
  simp only [lastIdx?_append, lastIdx?_cons, h]

/-- Dropping an entry that fails the test moves the later positions down. -/
theorem lastIdx?_remove {p : α → Bool} {x : α} (h : p x = false) (xs ys : List α) :
    lastIdx? p (xs ++ ys) =
      (lastIdx? p (xs ++ x :: ys)).map fun j => if xs.length < j then j - 1 else j := by
  simp only [lastIdx?_append, lastIdx?_cons, h]
  cases hys : lastIdx? p ys with
  | some j =>
      have hj : xs.length < xs.length + (j + 1) := by omega
      simp [hj]
  | none =>
      cases hxs : lastIdx? p xs with
      | none => simp
      | some j =>
          have hj : ¬ xs.length < j := Nat.not_lt.mpr (Nat.le_of_lt (lastIdx?_lt hxs))
          simp [hj]

/-- A search from the left splits the list at the first entry that passes. -/
theorem exists_split_of_findIdx? {p : α → Bool} {xs : List α} {i : Nat}
    (h : xs.findIdx? p = some i) :
    ∃ pre x post, xs = pre ++ x :: post ∧ pre.length = i ∧ p x = true ∧
      ∀ y ∈ pre, p y = false := by
  obtain ⟨hi, hp, hlt⟩ := List.findIdx?_eq_some_iff_getElem.mp h
  refine ⟨xs.take i, xs[i], xs.drop (i + 1), ?_, List.length_take_of_le (Nat.le_of_lt hi), hp, ?_⟩
  · rw [List.cons_getElem_drop_succ, List.take_append_drop]
  · intro y hy
    obtain ⟨j, hj, rfl⟩ := List.mem_take_iff_getElem.mp hy
    simpa using hlt j (by omega)

theorem findIdx?_middle {p : α → Bool} {xs : List α} (hxs : ∀ y ∈ xs, p y = false) {x : α}
    (hx : p x = true) (ys : List α) : (xs ++ x :: ys).findIdx? p = some xs.length := by
  rw [List.findIdx?_append, List.findIdx?_eq_none_iff.mpr hxs, List.findIdx?_cons]
  simp [hx]

/-- Dropping past an entry drops from what follows it. -/
theorem drop_middle_of_lt {pre post : List α} {x : α} {n : Nat} (h : pre.length < n) :
    (pre ++ x :: post).drop n = post.drop (n - (pre.length + 1)) := by
  obtain ⟨k, rfl⟩ := Nat.exists_eq_add_of_lt h
  rw [List.append_cons, List.drop_append, List.drop_eq_nil_of_le (by simp)]
  simp

end LastIdx

end Attyd
