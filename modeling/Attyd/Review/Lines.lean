import Mathlib.Data.List.Basic
import Mathlib.Logic.Function.Basic

/-!
# The review lines of a file change

A change is reviewed line by line: exactly, along a table of longest common subsequences, or, for
large texts, by the lines that agree at both ends. Unchanged lines far from any change are then
folded into hunk markers.

## Implementation notes

A text is the list of its UTF-16 code units. The table is one row of cells, and a cell counts no
more lines than either text has. `truncated`, which is always false, is left out.
-/

namespace Attyd.Review

abbrev Text := List UInt16

def maxExactDiffCells : Nat := 500000

def contextLines : Nat := 3

inductive ReviewLine (α : Type) where
  | context (text : α) (oldLine newLine : Nat)
  | added (text : α) (newLine : Nat)
  | removed (text : α) (oldLine : Nat)
  | hunk (text : String)
  deriving DecidableEq

namespace ReviewLine

variable {α : Type}

def isAdded : ReviewLine α → Bool
  | added .. => true
  | _ => false

def isRemoved : ReviewLine α → Bool
  | removed .. => true
  | _ => false

/-- A line that was added or removed. -/
def isChange (self : ReviewLine α) : Bool := self.isAdded || self.isRemoved

/-- The marker of so many unchanged lines. -/
def unchanged (count : Nat) : ReviewLine α := hunk s!"… {count} unchanged lines …"

end ReviewLine

structure ReviewDiffResult (α : Type) where
  lines : List (ReviewLine α)
  addedLines : Nat
  removedLines : Nat
  approximate : Bool

/-- The lines of a text; a final line break ends the last one. -/
def splitLines (text : Text) : List Text :=
  if text = [] then []
  else
    let lines := text.splitOn 10
    if lines.getLast? = some [] then lines.dropLast else lines

section Exact

variable {α : Type} [DecidableEq α]

/-- The table with the cell of one pair of lines filled in. -/
def fillCell (oldLines newLines : List α) (oldIndex : Nat) (lcs : Nat → Nat) (newIndex : Nat) :
    Nat → Nat :=
  let width := newLines.length + 1
  let offset := oldIndex * width + newIndex
  Function.update lcs offset
    (if oldLines[oldIndex]? = newLines[newIndex]? then
      lcs ((oldIndex + 1) * width + newIndex + 1) + 1
    else max (lcs ((oldIndex + 1) * width + newIndex)) (lcs (offset + 1)))

def lcsTable (oldLines newLines : List α) : Nat → Nat :=
  (List.range oldLines.length).reverse.foldl
    (fun lcs oldIndex =>
      (List.range newLines.length).reverse.foldl (fillCell oldLines newLines oldIndex) lcs)
    fun _ => 0

/-- The walk along the table from a pair of positions on. -/
def walk (oldLines newLines : List α) (lcs : Nat → Nat) (oldIndex newIndex : Nat) :
    List (ReviewLine α) :=
  let width := newLines.length + 1
  match ho : oldLines[oldIndex]?, hn : newLines[newIndex]? with
  | some old, some new =>
      if old = new then
        .context old (oldIndex + 1) (newIndex + 1) ::
          walk oldLines newLines lcs (oldIndex + 1) (newIndex + 1)
      else if lcs ((oldIndex + 1) * width + newIndex) < lcs (oldIndex * width + newIndex + 1) then
        .added new (newIndex + 1) :: walk oldLines newLines lcs oldIndex (newIndex + 1)
      else .removed old (oldIndex + 1) :: walk oldLines newLines lcs (oldIndex + 1) newIndex
  | none, some new =>
      .added new (newIndex + 1) :: walk oldLines newLines lcs oldIndex (newIndex + 1)
  | some old, none =>
      .removed old (oldIndex + 1) :: walk oldLines newLines lcs (oldIndex + 1) newIndex
  | none, none => []
termination_by (oldLines.length - oldIndex) + (newLines.length - newIndex)
decreasing_by
  all_goals
    first
    | have h := (List.getElem?_eq_some_iff.mp ho).1; omega
    | have h := (List.getElem?_eq_some_iff.mp hn).1; omega

def exactLineDiff (oldLines newLines : List α) : List (ReviewLine α) :=
  walk oldLines newLines (lcsTable oldLines newLines) 0 0

/-- The number of lines on which two texts agree from their beginnings on. -/
def agreeing : List α → List α → Nat
  | old :: oldLines, new :: newLines => if old = new then agreeing oldLines newLines + 1 else 0
  | _, _ => 0

def approximateLineDiff (oldLines newLines : List α) : List (ReviewLine α) :=
  let pre := agreeing oldLines newLines
  let suffix := agreeing (oldLines.drop pre).reverse (newLines.drop pre).reverse
  let oldEnd := oldLines.length - suffix
  let newEnd := newLines.length - suffix
  (oldLines.take pre).zipIdx.map (fun line => .context line.1 (line.2 + 1) (line.2 + 1)) ++
    ((oldLines.take oldEnd).zipIdx.drop pre).map (fun line => .removed line.1 (line.2 + 1)) ++
    ((newLines.take newEnd).zipIdx.drop pre).map (fun line => .added line.1 (line.2 + 1)) ++
    (oldLines.drop oldEnd).zipIdx.map
      (fun line => .context line.1 (oldEnd + line.2 + 1) (newEnd + line.2 + 1))

end Exact

section Context

variable {α : Type}

/-- Whether a changed line stands at most three lines away. -/
def near (lines : List (ReviewLine α)) (index : Nat) : Bool :=
  (List.range lines.length).any fun changed =>
    (lines[changed]?.any (·.isChange)) &&
      (changed - contextLines ≤ index && index ≤ changed + contextLines)

/-- The lines from an index on, with each run of lines that are not kept folded. -/
def foldRuns (keep : Nat → Bool) (index : Nat) : List (ReviewLine α) → List (ReviewLine α)
  | [] => []
  | line :: later =>
      if keep index then line :: foldRuns keep (index + 1) later
      else
        let run := 1 + ((later.zipIdx (index + 1)).takeWhile (!keep ·.2)).length
        .unchanged run :: foldRuns keep (index + run) ((line :: later).drop run)
termination_by lines => lines.length

def compactContext (lines : List (ReviewLine α)) : List (ReviewLine α) :=
  if lines.any (·.isChange) then foldRuns (near lines) 0 lines
  else if lines.length ≤ contextLines * 2 then lines
  else
    lines.take contextLines ++ .unchanged (lines.length - contextLines * 2) ::
      lines.drop (lines.length - contextLines)

end Context

/-- The lines of a change before they are compacted, and whether they are approximate. -/
def reviewLines (oldText : Option Text) (newText : Text) : List (ReviewLine Text) × Bool :=
  match oldText with
  | none => ((splitLines newText).zipIdx.map fun line => .added line.1 (line.2 + 1), false)
  | some oldText =>
      let oldLines := splitLines oldText
      let newLines := splitLines newText
      if oldLines.length * newLines.length ≤ maxExactDiffCells then
        (exactLineDiff oldLines newLines, false)
      else (approximateLineDiff oldLines newLines, true)

def buildReviewLines (oldText : Option Text) (newText : Text) : ReviewDiffResult Text :=
  let lines := reviewLines oldText newText
  { lines := compactContext lines.1
    addedLines := (lines.1.filter (·.isAdded)).length
    removedLines := (lines.1.filter (·.isRemoved)).length
    approximate := lines.2 }

end Attyd.Review
