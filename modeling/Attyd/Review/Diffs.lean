import Attyd.Library.Subsequence
import Attyd.Review.Lines

/-!
# The lines of a diff are those of both texts

The kept and removed lines of a diff are the old text, the kept and added lines are the new text,
each line with its number. The exact diff keeps a longest common subsequence of lines.

## Implementation notes

The table is read cell by cell. `Filled` says which cells hold their length when a cell is next to
be filled; the last column is never written.
-/

namespace Attyd.Review

variable {α : Type}

namespace ReviewLine

/-- The line of the old text that a review line shows, with its number. -/
def old? : ReviewLine α → Option (α × Nat)
  | context text oldLine _ => some (text, oldLine)
  | removed text oldLine => some (text, oldLine)
  | _ => none

/-- The line of the new text that a review line shows, with its number. -/
def new? : ReviewLine α → Option (α × Nat)
  | context text _ newLine => some (text, newLine)
  | added text newLine => some (text, newLine)
  | _ => none

def context? : ReviewLine α → Option α
  | context text _ _ => some text
  | _ => none

def isHunk : ReviewLine α → Bool
  | hunk _ => true
  | _ => false

end ReviewLine

/-- The review lines show both texts in full, in order and numbered from one. -/
structure ShowsBoth (oldLines newLines : List α) (lines : List (ReviewLine α)) : Prop where
  old : lines.filterMap (·.old?) = oldLines.zipIdx 1
  new : lines.filterMap (·.new?) = newLines.zipIdx 1
  shown : ∀ line ∈ lines, line.isHunk = false

/-! ## Numbered pieces of a text -/

/-- Numbers from any line on. -/
private theorem zipIdx_numbers (l : List α) (k : Nat) :
    l.zipIdx.map (fun line => (line.1, k + line.2 + 1)) = l.zipIdx (k + 1) := by
  rw [@List.zipIdx_eq_map_add _ l (k + 1)]
  refine List.map_congr_left fun line _ => ?_
  rw [Nat.add_right_comm]

theorem zipIdx_numbers_one (l : List α) :
    l.zipIdx.map (fun line => (line.1, line.2 + 1)) = l.zipIdx 1 := by
  simpa using zipIdx_numbers l 0

/-- A text numbered in three pieces. -/
private theorem zipIdx_pieces (l : List α) (p e : Nat) (hp : p ≤ e) (he : e ≤ l.length) :
    (l.take p).zipIdx 1 ++ ((l.take e).zipIdx 1).drop p ++ (l.drop e).zipIdx (e + 1) =
      l.zipIdx 1 := by
  have hfirst : (l.take p).zipIdx 1 = ((l.take e).zipIdx 1).take p := by
    refine List.ext_getElem? fun i => ?_
    simp only [List.getElem?_zipIdx, List.getElem?_take]
    by_cases hi : i < p
    · rw [if_pos hi, if_pos hi, if_pos (Nat.lt_of_lt_of_le hi hp)]
    · rw [if_neg hi, if_neg hi]
      rfl
  calc
    _ = (l.take e).zipIdx 1 ++ (l.drop e).zipIdx (e + 1) := by
      rw [hfirst, List.take_append_drop]
    _ = (l.take e ++ l.drop e).zipIdx 1 := by
      rw [List.zipIdx_append, List.length_take, Nat.min_eq_left he, Nat.add_comm]
    _ = l.zipIdx 1 := by rw [List.take_append_drop]

section Exact

variable [DecidableEq α] {oldLines newLines : List α}

/-- Two cells at one offset are one cell. -/
private theorem cell_injective {width i j i' j' : Nat} (hj : j < width) (hj' : j' < width)
    (h : i * width + j = i' * width + j') : i = i' ∧ j = j' := by
  have hcol : j = j' := by
    have hmod := congrArg (· % width) h
    simpa [Nat.mod_eq_of_lt, hj, hj'] using hmod
  have hrow : i * width = i' * width := by omega
  exact ⟨Nat.eq_of_mul_eq_mul_right (by omega) hrow, hcol⟩

/-- The cells from one pair of lines on hold their lengths. -/
structure Filled (oldLines newLines : List α) (i j : Nat) (lcs : Nat → Nat) : Prop where
  cells : ∀ i' j', (i < i' ∨ i' = i ∧ j ≤ j') → j' ≤ newLines.length →
    lcs (i' * (newLines.length + 1) + j') = lcsLength (oldLines.drop i') (newLines.drop j')
  last : ∀ i', lcs (i' * (newLines.length + 1) + newLines.length) = 0

/-- The recurrence of the table. -/
theorem lcsLength_drop {i j : Nat} (hi : i < oldLines.length) (hj : j < newLines.length) :
    lcsLength (oldLines.drop i) (newLines.drop j) =
      if oldLines[i]? = newLines[j]? then
        lcsLength (oldLines.drop (i + 1)) (newLines.drop (j + 1)) + 1
      else max (lcsLength (oldLines.drop (i + 1)) (newLines.drop j))
        (lcsLength (oldLines.drop i) (newLines.drop (j + 1))) := by
  have ho := List.drop_eq_getElem_cons hi
  have hn := List.drop_eq_getElem_cons hj
  simp only [List.getElem?_eq_getElem hi, List.getElem?_eq_getElem hj, Option.some.injEq]
  rw [ho, hn, lcsLength]

theorem drop_of_getElem? {β : Type} {l : List β} {i : Nat} {x : β} (h : l[i]? = some x) :
    l.drop i = x :: l.drop (i + 1) := by
  obtain ⟨hi, rfl⟩ := List.getElem?_eq_some_iff.mp h
  exact List.drop_eq_getElem_cons hi

theorem Filled.fillCell {i j : Nat} {lcs : Nat → Nat} (hi : i < oldLines.length)
    (hj : j < newLines.length) (h : Filled oldLines newLines i (j + 1) lcs) :
    Filled oldLines newLines i j (fillCell oldLines newLines i lcs j) := by
  have hother : ∀ i' j', j' ≤ newLines.length → ¬(i' = i ∧ j' = j) →
      Review.fillCell oldLines newLines i lcs j (i' * (newLines.length + 1) + j') =
        lcs (i' * (newLines.length + 1) + j') := by
    intro i' j' hj' hne
    refine Function.update_of_ne ?_ _ _
    intro h
    exact hne (cell_injective (by omega) (by omega) h)
  refine ⟨fun i' j' hfrom hj' => ?_, fun i' => ?_⟩
  · by_cases hcell : i' = i ∧ j' = j
    · obtain ⟨rfl, rfl⟩ := hcell
      have hdown := h.cells (i' + 1) j' (.inl (Nat.lt_succ_self i')) hj'
      have hdiagonal := h.cells (i' + 1) (j' + 1) (.inl (Nat.lt_succ_self i')) hj
      have hright := h.cells i' (j' + 1) (.inr ⟨rfl, Nat.le_refl _⟩) hj
      simp only [← Nat.add_assoc] at hdiagonal hright
      rw [lcsLength_drop hi hj, ← hdown, ← hdiagonal, ← hright]
      exact Function.update_self ..
    · rw [hother i' j' hj' hcell]
      exact h.cells i' j' (by omega) hj'
  · rw [hother i' newLines.length (Nat.le_refl _) (by omega)]
    exact h.last i'

theorem Filled.row {i : Nat} (hi : i < oldLines.length) {k : Nat} (hk : k ≤ newLines.length)
    {lcs : Nat → Nat} (h : Filled oldLines newLines i k lcs) :
    Filled oldLines newLines i 0
      ((List.range k).reverse.foldl (Review.fillCell oldLines newLines i) lcs) := by
  induction k generalizing lcs with
  | zero => exact h
  | succ k ih =>
      rw [List.range_succ, List.reverse_append]
      exact ih (Nat.le_of_succ_le hk) (h.fillCell hi hk)

/-- Before a row is filled its last cell is right. -/
theorem Filled.next {i : Nat} {lcs : Nat → Nat} (h : Filled oldLines newLines (i + 1) 0 lcs) :
    Filled oldLines newLines i newLines.length lcs := by
  refine ⟨fun i' j' hfrom hj' => ?_, h.last⟩
  rcases hfrom with hlater | ⟨rfl, hlast⟩
  · exact h.cells i' j' (by omega) hj'
  · have hj : j' = newLines.length := by omega
    rw [hj, h.last i', List.drop_length, lcsLength_nil_right]

theorem Filled.rows {k : Nat} (hk : k ≤ oldLines.length) {lcs : Nat → Nat}
    (h : Filled oldLines newLines k 0 lcs) :
    Filled oldLines newLines 0 0
      ((List.range k).reverse.foldl
        (fun lcs oldIndex =>
          (List.range newLines.length).reverse.foldl
            (Review.fillCell oldLines newLines oldIndex) lcs) lcs) := by
  induction k generalizing lcs with
  | zero => exact h
  | succ k ih =>
      rw [List.range_succ, List.reverse_append]
      exact ih (Nat.le_of_succ_le hk) (h.next.row hk (Nat.le_refl _))

/-- Every cell of the table holds the length for its pair of tails. -/
theorem lcsTable_cell {i j : Nat} (hj : j ≤ newLines.length) :
    lcsTable oldLines newLines (i * (newLines.length + 1) + j) =
      lcsLength (oldLines.drop i) (newLines.drop j) := by
  have hempty : Filled oldLines newLines oldLines.length 0 (fun _ => 0) := by
    refine ⟨fun i' j' hfrom _ => ?_, fun _ => rfl⟩
    rw [List.drop_eq_nil_of_le (by omega), lcsLength_nil_left]
  exact (hempty.rows (Nat.le_refl _)).cells i j (by omega) hj

theorem walk_old (lcs : Nat → Nat) (i j : Nat) :
    (walk oldLines newLines lcs i j).filterMap (·.old?) = (oldLines.drop i).zipIdx (i + 1) := by
  fun_induction walk oldLines newLines lcs i j with
  | case1 i j new hn ho ih =>
      rw [drop_of_getElem? ho, List.zipIdx_cons, ← ih]
      rfl
  | case2 i j width old new ho hn hne hlt ih => exact ih
  | case3 i j width old new ho hn hne hge ih =>
      rw [drop_of_getElem? ho, List.zipIdx_cons, ← ih]
      rfl
  | case4 i j new ho hn ih => exact ih
  | case5 i j old ho hn ih =>
      rw [drop_of_getElem? ho, List.zipIdx_cons, ← ih]
      rfl
  | case6 i j ho hn => rw [List.drop_eq_nil_of_le (List.getElem?_eq_none_iff.mp ho)]; rfl

theorem walk_new (lcs : Nat → Nat) (i j : Nat) :
    (walk oldLines newLines lcs i j).filterMap (·.new?) = (newLines.drop j).zipIdx (j + 1) := by
  fun_induction walk oldLines newLines lcs i j with
  | case1 i j new hn ho ih =>
      rw [drop_of_getElem? hn, List.zipIdx_cons, ← ih]
      rfl
  | case2 i j width old new ho hn hne hlt ih =>
      rw [drop_of_getElem? hn, List.zipIdx_cons, ← ih]
      rfl
  | case3 i j width old new ho hn hne hge ih => exact ih
  | case4 i j new ho hn ih =>
      rw [drop_of_getElem? hn, List.zipIdx_cons, ← ih]
      rfl
  | case5 i j old ho hn ih => exact ih
  | case6 i j ho hn => rw [List.drop_eq_nil_of_le (List.getElem?_eq_none_iff.mp hn)]; rfl

/-- The walk keeps as many lines as a longest common subsequence has. -/
theorem walk_kept {lcs : Nat → Nat}
    (hlcs : ∀ i j, j ≤ newLines.length → lcs (i * (newLines.length + 1) + j) =
      lcsLength (oldLines.drop i) (newLines.drop j)) (i j : Nat) :
    ((walk oldLines newLines lcs i j).filterMap (·.context?)).length =
      lcsLength (oldLines.drop i) (newLines.drop j) := by
  fun_induction walk oldLines newLines lcs i j with
  | case1 i j new hn ho ih =>
      rw [drop_of_getElem? ho, drop_of_getElem? hn, lcsLength, if_pos rfl, ← ih]
      rfl
  | case2 i j width old new ho hn hne hlt ih =>
      have hj := (List.getElem?_eq_some_iff.mp hn).1
      rw [Nat.add_assoc, hlcs (i + 1) j (Nat.le_of_lt hj), hlcs i (j + 1) hj] at hlt
      rw [lcsLength_drop (List.getElem?_eq_some_iff.mp ho).1 hj, ho, hn,
        if_neg (by simpa using hne), Nat.max_eq_right (Nat.le_of_lt hlt), ← ih]
      rfl
  | case3 i j width old new ho hn hne hge ih =>
      have hj := (List.getElem?_eq_some_iff.mp hn).1
      rw [Nat.add_assoc, hlcs (i + 1) j (Nat.le_of_lt hj), hlcs i (j + 1) hj] at hge
      rw [lcsLength_drop (List.getElem?_eq_some_iff.mp ho).1 hj, ho, hn,
        if_neg (by simpa using hne), Nat.max_eq_left (Nat.le_of_not_lt hge), ← ih]
      rfl
  | case4 i j new ho hn ih =>
      rw [List.drop_eq_nil_of_le (List.getElem?_eq_none_iff.mp ho), lcsLength_nil_left] at ih ⊢
      exact ih
  | case5 i j old ho hn ih =>
      rw [List.drop_eq_nil_of_le (List.getElem?_eq_none_iff.mp hn), lcsLength_nil_right] at ih ⊢
      exact ih
  | case6 i j ho hn =>
      rw [List.drop_eq_nil_of_le (List.getElem?_eq_none_iff.mp ho), lcsLength_nil_left]
      rfl

theorem walk_shown (lcs : Nat → Nat) (i j : Nat) :
    ∀ line ∈ walk oldLines newLines lcs i j, line.isHunk = false := by
  fun_induction walk oldLines newLines lcs i j with
  | case6 => simp
  | _ => simp_all [ReviewLine.isHunk]

theorem exactLineDiff_showsBoth (oldLines newLines : List α) :
    ShowsBoth oldLines newLines (exactLineDiff oldLines newLines) where
  old := walk_old ..
  new := walk_new ..
  shown := walk_shown _ 0 0

theorem exactLineDiff_kept (oldLines newLines : List α) :
    ((exactLineDiff oldLines newLines).filterMap (·.context?)).length =
      lcsLength oldLines newLines :=
  walk_kept (fun _ _ hj => lcsTable_cell hj) 0 0

/-- The kept lines of a diff are a common subsequence of both texts, and none is longer. -/
structure KeepsLongest (oldLines newLines : List α) (lines : List (ReviewLine α)) : Prop where
  old : (lines.filterMap (·.context?)).Sublist oldLines
  new : (lines.filterMap (·.context?)).Sublist newLines
  longest : ∀ common : List α, common.Sublist oldLines → common.Sublist newLines →
    common.length ≤ (lines.filterMap (·.context?)).length

omit [DecidableEq α] in
private theorem filterMap_sublist {β : Type} {f g : β → Option α}
    (h : ∀ x y, f x = some y → g x = some y) (l : List β) :
    (l.filterMap f).Sublist (l.filterMap g) := by
  induction l with
  | nil => exact .slnil
  | cons x l ih =>
      rw [List.filterMap_cons, List.filterMap_cons]
      cases hf : f x with
      | some y =>
          rw [h x y hf]
          exact ih.cons_cons y
      | none =>
          cases g x with
          | none => exact ih
          | some y => exact ih.cons y

omit [DecidableEq α] in
theorem ShowsBoth.context_old {lines : List (ReviewLine α)}
    (h : ShowsBoth oldLines newLines lines) :
    (lines.filterMap (·.context?)).Sublist oldLines := by
  have htexts : lines.filterMap (fun line => line.old?.map Prod.fst) = oldLines := by
    rw [← List.map_filterMap, h.old, List.zipIdx_map_fst]
  rw [← htexts]
  refine filterMap_sublist (fun line text hline => ?_) lines
  cases line <;> simp_all [ReviewLine.context?, ReviewLine.old?]

omit [DecidableEq α] in
theorem ShowsBoth.context_new {lines : List (ReviewLine α)}
    (h : ShowsBoth oldLines newLines lines) :
    (lines.filterMap (·.context?)).Sublist newLines := by
  have htexts : lines.filterMap (fun line => line.new?.map Prod.fst) = newLines := by
    rw [← List.map_filterMap, h.new, List.zipIdx_map_fst]
  rw [← htexts]
  refine filterMap_sublist (fun line text hline => ?_) lines
  cases line <;> simp_all [ReviewLine.context?, ReviewLine.new?]

theorem exactLineDiff_keepsLongest (oldLines newLines : List α) :
    KeepsLongest oldLines newLines (exactLineDiff oldLines newLines) where
  old := (exactLineDiff_showsBoth oldLines newLines).context_old
  new := (exactLineDiff_showsBoth oldLines newLines).context_new
  longest common hold hnew := by
    rw [exactLineDiff_kept]
    exact length_le_lcsLength hold hnew

/-! ## The agreeing ends -/

theorem agreeing_le_left (oldLines newLines : List α) :
    agreeing oldLines newLines ≤ oldLines.length := by
  fun_induction agreeing oldLines newLines with
  | case1 old oldLines newLines ih => simpa using ih
  | _ => simp

theorem agreeing_le_right (oldLines newLines : List α) :
    agreeing oldLines newLines ≤ newLines.length := by
  fun_induction agreeing oldLines newLines with
  | case1 old oldLines newLines ih => simpa using ih
  | _ => simp

theorem take_agreeing (oldLines newLines : List α) :
    oldLines.take (agreeing oldLines newLines) = newLines.take (agreeing oldLines newLines) := by
  fun_induction agreeing oldLines newLines with
  | case1 old oldLines newLines ih => simp [ih]
  | _ => simp

/-- The ends on which two texts agree read backwards are the same lines. -/
theorem drop_agreeing (oldLines newLines : List α) :
    let suffix := agreeing oldLines.reverse newLines.reverse
    oldLines.drop (oldLines.length - suffix) = newLines.drop (newLines.length - suffix) := by
  have h := take_agreeing oldLines.reverse newLines.reverse
  rw [List.take_reverse, List.take_reverse] at h
  exact List.reverse_injective h

theorem approximateLineDiff_showsBoth (oldLines newLines : List α) :
    ShowsBoth oldLines newLines (approximateLineDiff oldLines newLines) := by
  unfold approximateLineDiff
  extract_lets pre suffix oldEnd newEnd
  have hpre : pre ≤ oldLines.length := agreeing_le_left ..
  have hpre' : pre ≤ newLines.length := agreeing_le_right ..
  have hsuffix : suffix ≤ oldLines.length - pre := by
    simpa using agreeing_le_left (oldLines.drop pre).reverse (newLines.drop pre).reverse
  have hsuffix' : suffix ≤ newLines.length - pre := by
    simpa using agreeing_le_right (oldLines.drop pre).reverse (newLines.drop pre).reverse
  have hfirst : oldLines.take pre = newLines.take pre := take_agreeing ..
  have hlast : oldLines.drop oldEnd = newLines.drop newEnd := by
    have h := drop_agreeing (oldLines.drop pre) (newLines.drop pre)
    simp only [List.length_drop, List.drop_drop] at h
    have ho : oldEnd = pre + (oldLines.length - pre - suffix) := by omega
    have hn : newEnd = pre + (newLines.length - pre - suffix) := by omega
    rw [ho, hn]
    exact h
  refine ⟨?_, ?_, ?_⟩
  · rw [← zipIdx_pieces oldLines pre oldEnd (by omega) (by omega),
      ← zipIdx_numbers_one, ← zipIdx_numbers_one, ← zipIdx_numbers (oldLines.drop oldEnd)]
    simp [List.filterMap_map, ReviewLine.old?, ← List.map_drop]
  · rw [← zipIdx_pieces newLines pre newEnd (by omega) (by omega),
      ← hfirst, ← hlast, ← zipIdx_numbers_one, ← zipIdx_numbers_one,
      ← zipIdx_numbers (oldLines.drop oldEnd)]
    simp [List.filterMap_map, ReviewLine.new?, ← List.map_drop]
  · simp only [List.mem_append, List.mem_map]
    rintro line (((⟨_, -, rfl⟩ | ⟨_, -, rfl⟩) | ⟨_, -, rfl⟩) | ⟨_, -, rfl⟩) <;> rfl

end Exact

end Attyd.Review
