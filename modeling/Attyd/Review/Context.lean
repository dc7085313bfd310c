import Attyd.Review.Diffs
import Mathlib.Data.List.Chain

/-!
# The compacted review lines

The lines of a diff are kept or folded: each maximal run of lines far from every change becomes one
marker that counts them. The review lines of a change are its diff, compacted.

## Implementation notes

A compacted diff is read as a list of pieces. `Folds` states it for any choice of lines to fold and
from any index on, `Compacts` for the lines that a review folds.
-/

namespace Attyd.Review

variable {α : Type}

/-- A line that is kept, or a run of lines that one marker stands for. -/
inductive Piece (α : Type) where
  | kept (line : ReviewLine α)
  | folded (run : List (ReviewLine α))

namespace Piece

def lines : Piece α → List (ReviewLine α)
  | kept line => [line]
  | folded run => run

def shown : Piece α → ReviewLine α
  | kept line => line
  | folded run => .unchanged run.length

def isFolded : Piece α → Bool
  | kept _ => false
  | folded _ => true

/-- For each line of the piece, whether it is folded. -/
def marked (piece : Piece α) : List (ReviewLine α × Bool) :=
  piece.lines.map fun line => (line, piece.isFolded)

@[simp] theorem marked_fst (piece : Piece α) : piece.marked.map Prod.fst = piece.lines := by
  simp [marked, Function.comp_def]

@[simp] theorem marked_kept (line : ReviewLine α) : (kept line).marked = [(line, false)] := rfl

@[simp] theorem marked_folded (run : List (ReviewLine α)) :
    (folded run).marked = run.map fun line => (line, true) := rfl

end Piece

/-- The pieces fold the chosen lines, run by run. -/
structure Folds (fold : Nat → Bool) (start : Nat) (lines output : List (ReviewLine α))
    (pieces : List (Piece α)) : Prop where
  marked : pieces.flatMap (·.marked) = (lines.zipIdx start).map fun line => (line.1, fold line.2)
  shown : pieces.map (·.shown) = output
  nonempty : ∀ piece ∈ pieces, piece.lines ≠ []
  maximal : pieces.IsChain fun piece next => ¬(piece.isFolded = true ∧ next.isFolded = true)

namespace Folds

variable {fold : Nat → Bool} {start : Nat} {lines output : List (ReviewLine α)}
  {pieces : List (Piece α)}

theorem lines_eq (h : Folds fold start lines output pieces) :
    pieces.flatMap (·.lines) = lines := by
  have hfst := congrArg (List.map Prod.fst) h.marked
  simpa [List.map_flatMap, Function.comp_def] using hfst

/-- The first piece is folded if the first line is. -/
theorem head_isFolded (h : Folds fold start lines output pieces) {piece : Piece α}
    (hpiece : piece ∈ pieces.head?) : piece.isFolded = fold start := by
  obtain ⟨later, rfl⟩ := List.head?_eq_some_iff.mp hpiece
  have hmarked := h.marked
  obtain ⟨line, rest, hlines⟩ :=
    List.exists_cons_of_ne_nil (h.nonempty piece List.mem_cons_self)
  rw [List.flatMap_cons, Piece.marked, hlines] at hmarked
  cases lines with
  | nil => simp at hmarked
  | cons first lines =>
      simp only [List.map_cons, List.cons_append, List.zipIdx_cons, List.cons.injEq,
        Prod.mk.injEq] at hmarked
      exact hmarked.1.2

theorem cons_kept {line : ReviewLine α} (hkeep : fold start = false)
    (h : Folds fold (start + 1) lines output pieces) :
    Folds fold start (line :: lines) (line :: output) (.kept line :: pieces) where
  marked := by rw [List.flatMap_cons, h.marked, Piece.marked_kept, List.zipIdx_cons, List.map_cons,
    hkeep, List.singleton_append]
  shown := by rw [List.map_cons, h.shown]; rfl
  nonempty := by
    rintro piece (_ | ⟨_, hpiece⟩)
    · exact List.cons_ne_nil _ _
    · exact h.nonempty piece hpiece
  maximal := by
    refine List.isChain_cons.mpr ⟨fun next _ hfolded => ?_, h.maximal⟩
    exact Bool.false_ne_true hfolded.1

theorem append_kept (kept : List (ReviewLine α))
    (hkeep : ∀ i < kept.length, fold (start + i) = false)
    (h : Folds fold (start + kept.length) lines output pieces) :
    Folds fold start (kept ++ lines) (kept ++ output) (kept.map .kept ++ pieces) := by
  induction kept generalizing start with
  | nil => exact h
  | cons line kept ih =>
      refine (@ih (start + 1) (fun i hi => ?_) ?_).cons_kept (hkeep 0 (Nat.succ_pos _))
      · have hfold := hkeep (i + 1) (Nat.succ_lt_succ hi)
        rwa [Nat.add_comm i, ← Nat.add_assoc] at hfold
      · rwa [List.length_cons, Nat.add_comm kept.length, ← Nat.add_assoc] at h

theorem cons_folded {run : List (ReviewLine α)} {count : Nat} (hcount : run.length = count)
    (hpos : 0 < count) (hfold : ∀ i < count, fold (start + i) = true)
    (hnext : lines ≠ [] → fold (start + count) = false)
    (h : Folds fold (start + count) lines output pieces) :
    Folds fold start (run ++ lines) (.unchanged count :: output) (.folded run :: pieces) where
  marked := by
    rw [List.flatMap_cons, h.marked, Piece.marked_folded, List.zipIdx_append, List.map_append,
      hcount]
    congr 1
    refine List.ext_getElem (by simp) fun i hi _ => ?_
    have hi : i < count := by simpa [hcount] using hi
    simp [hfold i hi]
  shown := by rw [List.map_cons, h.shown, Piece.shown, hcount]
  nonempty := by
    rintro piece (_ | ⟨_, hpiece⟩)
    · exact List.ne_nil_of_length_pos (hcount ▸ hpos)
    · exact h.nonempty piece hpiece
  maximal := by
    refine List.isChain_cons.mpr ⟨fun next hhead hfolded => ?_, h.maximal⟩
    have hlines : lines ≠ [] := by
      rintro rfl
      have hempty := h.lines_eq
      obtain ⟨later, rfl⟩ := List.head?_eq_some_iff.mp hhead
      rw [List.flatMap_cons, List.append_eq_nil_iff] at hempty
      exact h.nonempty next List.mem_cons_self hempty.1
    rw [h.head_isFolded hhead, hnext hlines] at hfolded
    exact Bool.false_ne_true hfolded.2

end Folds

/-- A run of lines that are not kept ends at the end or before a line that is. -/
private theorem run_spec (keep : Nat → Bool) (index : Nat) (later : List (ReviewLine α)) :
    let run := ((later.zipIdx index).takeWhile (!keep ·.2)).length
    run ≤ later.length ∧ (∀ i < run, keep (index + i) = false) ∧
      (later.drop run ≠ [] → keep (index + run) = true) := by
  induction later generalizing index with
  | nil => simp
  | cons line later ih =>
      rw [List.zipIdx_cons, List.takeWhile_cons]
      cases hkeep : keep index with
      | true => simp [hkeep]
      | false =>
          obtain ⟨hle, hrun, hnext⟩ := ih (index + 1)
          simp only [Nat.add_right_comm index 1, Nat.add_assoc index] at hrun hnext
          refine ⟨Nat.succ_le_succ hle, fun i hi => ?_, hnext⟩
          cases i with
          | zero => exact hkeep
          | succ i => exact hrun i (Nat.lt_of_succ_lt_succ hi)

theorem foldRuns_folds (keep : Nat → Bool) (index : Nat) (lines : List (ReviewLine α)) :
    ∃ pieces, Folds (!keep ·) index lines (foldRuns keep index lines) pieces := by
  fun_induction foldRuns keep index lines with
  | case1 index => exact ⟨[], rfl, rfl, by simp, .nil⟩
  | case2 index line later hkeep ih =>
      obtain ⟨pieces, hpieces⟩ := ih
      exact ⟨_, hpieces.cons_kept (by simp [hkeep])⟩
  | case3 index line later hkeep run ih =>
      obtain ⟨pieces, hpieces⟩ := ih
      obtain ⟨hle, hrun, hnext⟩ := run_spec keep (index + 1) later
      have hlength : ((line :: later).take run).length = run :=
        List.length_take_of_le (by simp only [List.length_cons]; omega)
      have hfold : ∀ i < run, (!keep (index + i)) = true := by
        intro i hi
        cases i with
        | zero => simpa using hkeep
        | succ i =>
            have hkeep := hrun i (by omega)
            rwa [Nat.add_right_comm, Nat.add_assoc, ← Bool.not_eq_true'] at hkeep
      have hend : (line :: later).drop run ≠ [] → (!keep (index + run)) = false := by
        intro hlater
        have hkeep := hnext (by simpa [run, Nat.add_comm 1] using hlater)
        rw [Nat.add_assoc] at hkeep
        exact congrArg (!·) hkeep
      have hfolds := hpieces.cons_folded hlength (by omega) hfold hend
      rw [List.take_append_drop] at hfolds
      exact ⟨_, hfolds⟩

/-! ## The lines that a review folds -/

/-- Lines far from every change, and the middle lines of a text without one. -/
def Far (lines : List (ReviewLine α)) (index : Nat) : Prop :=
  if ∃ line ∈ lines, line.isChange = true then
    ∀ changed line, lines[changed]? = some line → line.isChange = true →
      index + contextLines < changed ∨ changed + contextLines < index
  else contextLines ≤ index ∧ index + contextLines < lines.length

/-- The output is the lines with each maximal run of far lines folded into a marker that counts
them. -/
def Compacts (lines output : List (ReviewLine α)) : Prop :=
  ∃ pieces : List (Piece α),
    pieces.flatMap (·.lines) = lines ∧ pieces.map (·.shown) = output ∧
    (∀ index marked, (pieces.flatMap (·.marked))[index]? = some marked →
      (marked.2 = true ↔ Far lines index)) ∧
    (∀ run, .folded run ∈ pieces → run ≠ [] ∧ ∀ line ∈ run, line.isChange = false) ∧
    pieces.IsChain fun piece next => ¬(piece.isFolded = true ∧ next.isFolded = true)

theorem near_iff (lines : List (ReviewLine α)) (index : Nat) :
    near lines index = true ↔ ∃ changed line, lines[changed]? = some line ∧
      line.isChange = true ∧ changed ≤ index + contextLines ∧ index ≤ changed + contextLines := by
  simp only [near, List.any_eq_true, List.mem_range, Bool.and_eq_true, decide_eq_true_eq,
    Option.any_eq_true, Nat.sub_le_iff_le_add]
  constructor
  · rintro ⟨changed, -, ⟨line, hline, hchange⟩, hnear⟩
    exact ⟨changed, line, hline, hchange, hnear⟩
  · rintro ⟨changed, line, hline, hchange, hnear⟩
    exact ⟨changed, (List.getElem?_eq_some_iff.mp hline).1, ⟨line, hline, hchange⟩, hnear⟩

theorem Far.unchanged {lines : List (ReviewLine α)} {index : Nat} {line : ReviewLine α}
    (h : Far lines index) (hline : lines[index]? = some line) : line.isChange = false := by
  cases hchange : line.isChange with
  | false => rfl
  | true =>
      rw [Far, if_pos ⟨line, List.mem_of_getElem? hline, hchange⟩] at h
      have hfar := h index line hline hchange
      omega

/-- Pieces that fold the far lines compact the diff. -/
theorem Folds.compacts {fold : Nat → Bool} {lines output : List (ReviewLine α)}
    {pieces : List (Piece α)} (h : Folds fold 0 lines output pieces)
    (hfar : ∀ index < lines.length, fold index = true ↔ Far lines index) :
    Compacts lines output := by
  refine ⟨pieces, h.lines_eq, h.shown, ?_, ?_, h.maximal⟩
  · intro index marked hmarked
    rw [h.marked, List.getElem?_map, List.getElem?_zipIdx] at hmarked
    simp only [Option.map_map, Option.map_eq_some_iff] at hmarked
    obtain ⟨line, hline, rfl⟩ := hmarked
    change fold (0 + index) = true ↔ Far lines index
    rw [Nat.zero_add]
    exact hfar index (List.getElem?_eq_some_iff.mp hline).1
  · intro run hrun
    refine ⟨h.nonempty _ hrun, fun line hline => ?_⟩
    have hmem : (line, true) ∈ pieces.flatMap (·.marked) :=
      List.mem_flatMap.mpr ⟨_, hrun, List.mem_map.mpr ⟨line, hline, rfl⟩⟩
    rw [h.marked] at hmem
    obtain ⟨⟨shown, index⟩, hindex, heq⟩ := List.mem_map.mp hmem
    obtain ⟨rfl, hfold⟩ := Prod.mk.inj heq
    have hat : lines[index]? = some shown := List.mk_mem_zipIdx_iff_getElem?.mp hindex
    exact ((hfar index (List.getElem?_eq_some_iff.mp hat).1).mp hfold).unchanged hat

theorem compactContext_compacts (lines : List (ReviewLine α)) :
    Compacts lines (compactContext lines) := by
  unfold compactContext
  by_cases hchange : ∃ line ∈ lines, line.isChange = true
  · rw [if_pos (List.any_eq_true.mpr hchange)]
    obtain ⟨pieces, hpieces⟩ := foldRuns_folds (near lines) 0 lines
    refine hpieces.compacts fun index _ => ?_
    rw [Bool.not_eq_true', ← Bool.not_eq_true, near_iff, Far, if_pos hchange]
    constructor
    · intro hnear changed line hline hchanged
      by_contra hfar
      exact hnear ⟨changed, line, hline, hchanged, by omega, by omega⟩
    · rintro hfar ⟨changed, line, hline, hchanged, hbefore, hafter⟩
      rcases hfar changed line hline hchanged with h | h <;> omega
  · rw [if_neg (mt List.any_eq_true.mp hchange)]
    have hfar : ∀ index, Far lines index ↔
        contextLines ≤ index ∧ index + contextLines < lines.length := by
      intro index
      rw [Far, if_neg hchange]
    let fold : Nat → Bool :=
      fun index => decide (contextLines ≤ index ∧ index + contextLines < lines.length)
    have hfold : ∀ index < lines.length, fold index = true ↔ Far lines index := by
      intro index _
      rw [hfar, decide_eq_true_eq]
    have hnone : ∀ index, Folds fold index [] ([] : List (ReviewLine α)) [] :=
      fun index => ⟨rfl, rfl, by simp, .nil⟩
    split
    · next hshort =>
        have hkeep : ∀ i < lines.length, fold (0 + i) = false := by
          intro i hi
          exact decide_eq_false (by omega)
        have hkept := (hnone (0 + lines.length)).append_kept lines hkeep
        rw [List.append_nil] at hkept
        exact hkept.compacts hfold
    · next hlong =>
        have hdrop : (lines.drop contextLines).drop (lines.length - contextLines * 2) =
            lines.drop (lines.length - contextLines) := by
          rw [List.drop_drop]
          congr 1
          omega
        have hkeepLast : ∀ i < (lines.drop (lines.length - contextLines)).length,
            fold (contextLines + (lines.length - contextLines * 2) + i) = false := by
          intro i _
          exact decide_eq_false (by omega)
        have hlast := (hnone _).append_kept _ hkeepLast
        have hcount : ((lines.drop contextLines).take (lines.length - contextLines * 2)).length =
            lines.length - contextLines * 2 :=
          List.length_take_of_le (by rw [List.length_drop]; omega)
        have hmiddle := hlast.cons_folded hcount (by omega)
          (fun i hi => decide_eq_true (by omega)) (fun _ => decide_eq_false (by omega))
        have hstart : 0 + (lines.take contextLines).length = contextLines := by
          rw [Nat.zero_add, List.length_take_of_le (by omega)]
        have hkeepFirst : ∀ i < (lines.take contextLines).length, fold (0 + i) = false := by
          intro i hi
          exact decide_eq_false (by omega)
        have hall := Folds.append_kept _ hkeepFirst (by rw [hstart]; exact hmiddle)
        rw [List.append_nil, ← hdrop, List.take_append_drop, List.take_append_drop, hdrop] at hall
        exact hall.compacts hfold

/-! ## The review lines of a change -/

/-- The lines of the old side of a change; a new file has none. -/
def oldSide (oldText : Option Text) : List Text := oldText.elim [] splitLines

theorem reviewLines_showsBoth (oldText : Option Text) (newText : Text) :
    ShowsBoth (oldSide oldText) (splitLines newText) (reviewLines oldText newText).1 := by
  cases oldText with
  | none =>
      refine ⟨?_, ?_, ?_⟩
      · simp [reviewLines, oldSide, List.filterMap_map, ReviewLine.old?]
      · rw [← zipIdx_numbers_one]
        simp [reviewLines, List.filterMap_map, ReviewLine.new?]
      · simp only [reviewLines, List.mem_map]
        rintro line ⟨_, -, rfl⟩
        rfl
  | some oldText =>
      simp only [reviewLines]
      split
      · exact exactLineDiff_showsBoth ..
      · exact approximateLineDiff_showsBoth ..

theorem reviewLines_keepsLongest {oldText : Option Text} {newText : Text}
    (h : (reviewLines oldText newText).2 = false) :
    KeepsLongest (oldSide oldText) (splitLines newText) (reviewLines oldText newText).1 := by
  have hshows := reviewLines_showsBoth oldText newText
  cases oldText with
  | none =>
      refine ⟨hshows.context_old, hshows.context_new, fun common hold _ => ?_⟩
      rw [oldSide, Option.elim_none, List.sublist_nil] at hold
      exact hold ▸ Nat.zero_le _
  | some oldText =>
      simp only [reviewLines] at h ⊢
      split at h
      · next hcells =>
          rw [if_pos hcells]
          exact exactLineDiff_keepsLongest ..
      · exact absurd h (by simp)

/-- A review shows both texts line by line, keeps a longest common subsequence unless it is
approximate, and folds only the lines far from every change. -/
theorem buildReviewLines_faithful (oldText : Option Text) (newText : Text) :
    ShowsBoth (oldSide oldText) (splitLines newText) (reviewLines oldText newText).1 ∧
      ((buildReviewLines oldText newText).approximate = false →
        KeepsLongest (oldSide oldText) (splitLines newText) (reviewLines oldText newText).1) ∧
      Compacts (reviewLines oldText newText).1 (buildReviewLines oldText newText).lines :=
  ⟨reviewLines_showsBoth oldText newText, reviewLines_keepsLongest, compactContext_compacts _⟩

end Attyd.Review
