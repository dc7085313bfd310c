import Mathlib.Data.List.Basic
import Mathlib.Data.List.TakeDrop

/-!
# Pieces laid out in a row

A row is made of pieces, some of them marked. The ranges of the marked pieces find them again in
the row, wherever the row begins, and a row of the marked pieces alone has ranges of its own.
-/

namespace Attyd.Layout

variable {α : Type*}

/-- The positions from `start` on and before `stop`. -/
structure Range where
  start : Nat
  stop : Nat
  deriving DecidableEq

/-- The same stretch of a row that begins elsewhere. -/
def Range.move (former base : Nat) (range : Range) : Range where
  start := range.start - former + base
  stop := range.stop - former + base

/-- The items of a row within a range. -/
def slice (row : List α) (range : Range) : List α := (row.take range.stop).drop range.start

/-- Several items of a row, marked or not. -/
structure Piece (α : Type*) where
  marked : Bool
  items : List α

/-- The row of the pieces. -/
def row (pieces : List (Piece α)) : List α := pieces.flatMap (·.items)

/-- The ranges of the marked pieces in a row that begins at `base`. -/
def ranges (base : Nat) : List (Piece α) → List Range
  | [] => []
  | piece :: pieces =>
      let stop := base + piece.items.length
      if piece.marked then ⟨base, stop⟩ :: ranges stop pieces else ranges stop pieces

/-- Ranges one behind the other, none before `low` and none beyond `high`. -/
inductive Ordered (high : Nat) : Nat → List Range → Prop
  | nil {low : Nat} (h : low ≤ high) : Ordered high low []
  | cons {low : Nat} {range : Range} {later : List Range} (hlow : low ≤ range.start)
      (hrange : range.start ≤ range.stop) (hlater : Ordered high range.stop later) :
      Ordered high low (range :: later)

@[simp] theorem row_cons (piece : Piece α) (pieces : List (Piece α)) :
    row (piece :: pieces) = piece.items ++ row pieces := rfl

theorem Ordered.weaken {high low low' : Nat} {rs : List Range} (h : Ordered high low rs)
    (hlow : low' ≤ low) : Ordered high low' rs := by
  cases h with
  | nil h => exact .nil (Nat.le_trans hlow h)
  | cons hfirst hrange hlater => exact .cons (Nat.le_trans hlow hfirst) hrange hlater

/-- The ranges stand in order within their row. -/
theorem ordered_ranges (base : Nat) (pieces : List (Piece α)) :
    Ordered (base + (row pieces).length) base (ranges base pieces) := by
  induction pieces generalizing base with
  | nil => exact .nil (Nat.le_refl _)
  | cons piece pieces ih =>
      have hlater := ih (base + piece.items.length)
      rw [Nat.add_assoc, ← List.length_append, ← row_cons] at hlater
      have hle : base ≤ base + piece.items.length := Nat.le_add_right _ _
      rw [ranges]
      cases piece.marked with
      | false => exact hlater.weaken hle
      | true => exact .cons (Nat.le_refl _) hle hlater

/-- Ranges move with their row. -/
theorem ranges_move (former base : Nat) (pieces : List (Piece α)) :
    (ranges former pieces).map (Range.move former base) = ranges base pieces := by
  suffices h : ∀ offset, (ranges (former + offset) pieces).map (Range.move former base) =
      ranges (base + offset) pieces from h 0
  induction pieces with
  | nil => exact fun _ => rfl
  | cons piece pieces ih =>
      intro offset
      have hlater := ih (offset + piece.items.length)
      simp only [← Nat.add_assoc] at hlater
      have hfirst : Range.move former base ⟨former + offset, former + offset + piece.items.length⟩ =
          ⟨base + offset, base + offset + piece.items.length⟩ := by
        simp only [Range.move, Range.mk.injEq]
        omega
      rw [ranges, ranges]
      cases piece.marked with
      | false => exact hlater
      | true =>
          simp only [if_true, List.map_cons]
          rw [hfirst, hlater]

/-- A piece is found in its row by its range. -/
theorem slice_middle (pre items post : List α) :
    slice (pre ++ items ++ post) ⟨pre.length, pre.length + items.length⟩ = items := by
  have hlength : pre.length + items.length = (pre ++ items).length := List.length_append.symm
  rw [slice, hlength, List.take_left, List.drop_left]

/-- The ranges find the marked pieces. -/
theorem slices_ranges (pre post : List α) (pieces : List (Piece α)) :
    (ranges pre.length pieces).map (slice (pre ++ row pieces ++ post)) =
      (pieces.filter (·.marked)).map (·.items) := by
  induction pieces generalizing pre with
  | nil => rfl
  | cons piece pieces ih =>
      have hlater := ih (pre ++ piece.items)
      rw [List.length_append] at hlater
      have hrow : pre ++ row (piece :: pieces) ++ post =
          pre ++ piece.items ++ row pieces ++ post := by
        rw [row_cons, ← List.append_assoc]
      rw [ranges, hrow, List.filter_cons]
      cases piece.marked with
      | false => exact hlater
      | true =>
          have hfirst := slice_middle pre piece.items (row pieces ++ post)
          rw [← List.append_assoc] at hfirst
          simp only [if_true, List.map_cons]
          rw [hlater, hfirst]

section Pages

/-- The items of one page. -/
def page (width : Nat) (items : List α) (offset : Nat) : List α :=
  (items.take (min (offset + width) items.length)).drop offset

/-- A page holds the next items, as many as it is wide. -/
theorem take_append_page (width : Nat) (items : List α) (offset : Nat) :
    items.take offset ++ page width items offset = items.take (offset + width) := by
  have hsplit := List.take_append_drop offset (items.take (offset + width))
  rw [List.take_take, Nat.min_eq_left (Nat.le_add_right _ _)] at hsplit
  rw [page, ← List.take_eq_take_min]
  exact hsplit

/-- The pages read one after the other are the items. -/
theorem flatMap_page (width : Nat) (items : List α) (count : Nat) :
    ((List.range count).flatMap fun k => page width items (width * k)) =
      items.take (width * count) := by
  induction count with
  | zero => simp
  | succ count ih =>
      rw [List.range_succ, List.flatMap_append, List.flatMap_singleton, ih, take_append_page,
        Nat.mul_succ]

theorem flatMap_page_all {width : Nat} (hwidth : 0 < width) (items : List α) :
    ((List.range (items.length / width + 1)).flatMap fun k => page width items (width * k)) =
      items := by
  rw [flatMap_page, List.take_of_length_le]
  have hdiv := Nat.lt_mul_div_succ items.length hwidth
  exact Nat.le_of_lt hdiv

end Pages

end Attyd.Layout
