import Attyd.Library.Counter
import Attyd.Library.Table

/-!
# A counter kept beside a table

A counter that is the total weight of a table may be kept by differences: take off what a write or
a removal drops, and add what a write brings. A difference then never clips, and a saturating
addition is exact while the total fits the counter.
-/

namespace Attyd.Table

variable {κ α : Type*} {count : Nat} {weight : α → Nat} {t : Table κ α}

/-- A counter is the total weight of a table. -/
def Counts (count : Nat) (weight : α → Nat) (t : Table κ α) : Prop := count = t.sum weight

theorem counts_empty : Counts 0 weight (∅ : Table κ α) := rfl

variable [DecidableEq κ] {key : κ} {a : α}

namespace Counts

/-- What a key weighs can be taken off. -/
theorem elim_le (h : Counts count weight t) (key : κ) :
    (t.lookup key).elim 0 weight ≤ count := by
  rw [h, sum_split weight t key]
  exact Nat.le_add_right _ _

theorem le (h : Counts count weight t) (ha : t.lookup key = some a) : weight a ≤ count := by
  have hle := h.elim_le key
  rwa [ha] at hle

/-- What is dropped is taken off. -/
theorem erase (h : Counts count weight t) (key : κ) :
    Counts (count - (t.lookup key).elim 0 weight) weight (t.erase key) := by
  rw [Counts, h, sum_split weight t key, Nat.add_sub_cancel_left]

/-- What is replaced is taken off, and what is written is added while the total fits. -/
theorem insert (h : Counts count weight t) (key : κ) (a : α)
    (hfits : sum weight (t.insert key a) < 2 ^ 64) :
    Counts (saturatingAdd (count - (t.lookup key).elim 0 weight) (weight a)) weight
      (t.insert key a) := by
  have hrest : count - (t.lookup key).elim 0 weight = sum weight (t.erase key) := h.erase key
  rw [sum_insert] at hfits
  rw [Counts, sum_insert, hrest, saturatingAdd]
  omega

/-- What is replaced by less is taken off. -/
theorem insert_sub (h : Counts count weight t) {b : α} {n : Nat} (hb : t.lookup key = some b)
    (ha : weight a + n = weight b) : Counts (count - n) weight (t.insert key a) := by
  rw [Counts, sum_insert, h, sum_erase weight hb]
  omega

/-- What is replaced by more is made up for, while the total fits. -/
theorem insert_add (h : Counts count weight t) {n : Nat}
    (ha : (t.lookup key).elim 0 weight + n = weight a)
    (hfits : sum weight (t.insert key a) < 2 ^ 64) :
    Counts (saturatingAdd count n) weight (t.insert key a) := by
  rw [sum_insert] at hfits
  rw [Counts, sum_insert, h, sum_split weight t key, saturatingAdd]
  omega

/-- A value may be replaced by one of the same weight. -/
theorem insert_same (h : Counts count weight t) {b : α} (hb : t.lookup key = some b)
    (ha : weight a = weight b) : Counts count weight (t.insert key a) :=
  h.insert_sub (n := 0) hb ha

/-- What weighs nothing may be added. -/
theorem insert_zero (h : Counts count weight t) (hzero : (t.lookup key).elim 0 weight = 0)
    (ha : weight a = 0) : Counts count weight (t.insert key a) := by
  rw [Counts, sum_insert, h, sum_split weight t key, hzero, ha]

end Counts

end Attyd.Table
