import Attyd.Presentation.Rendering

/-!
# What a compact view and its pages show

In the compact view the turns tile the timeline. Within its turn each entry is visible, or it is
part of the process and stands on one of the pages.
-/

namespace Attyd.Presentation

open Json (Value)
open Layout (Piece row ranges slice)

/-- The entries of a turn that are always visible. -/
def Turn.visible (self : Turn) : List Entry :=
  (self.entries.zipIdx.filter fun item => !self.isProcess item.2 item.1).map (·.1)

/-- An entry is visible or part of the process. -/
theorem Turn.visible_process (turn : Turn) : (turn.visible ++ turn.process).Perm turn.entries := by
  rw [Turn.visible, Turn.process, ← List.map_append]
  have hsplit := List.filter_append_perm
    (fun item : Entry × Nat => !turn.isProcess item.2 item.1) turn.entries.zipIdx
  simp only [Bool.not_not] at hsplit
  have hmap := hsplit.map (·.1)
  rw [List.zipIdx_map_fst] at hmap
  exact hmap

theorem Turn.marked_pieces (turn : Turn) (processIncluded : Bool) :
    ((turn.pieces processIncluded).filter (·.marked)).map (·.items) =
      turn.visible.map Entry.shown := by
  rw [← turn.pieces_false processIncluded, Turn.pieces, Turn.visible]
  simp only [Bool.or_false, List.map_map, List.filter_map]
  rfl

/-- A turn with its process shows all its entries. -/
theorem Turn.row_pieces (turn : Turn) (processIncluded : Bool) :
    row (turn.pieces processIncluded) =
      if processIncluded then turn.entries.flatMap Entry.shown
      else turn.visible.flatMap Entry.shown := by
  cases processIncluded with
  | false =>
      have hmarked := turn.marked_pieces false
      have hfilter := turn.pieces_false false
      rw [← hfilter] at hmarked
      rw [if_neg Bool.false_ne_true, List.flatMap_def, ← hmarked, row, List.flatMap_def]
  | true =>
      have hall : turn.pieces true = turn.entries.zipIdx.map turn.piece := by simp [Turn.pieces]
      rw [if_pos rfl, hall, row, List.flatMap_map]
      conv => rhs; rw [← List.zipIdx_map_fst 0 turn.entries, List.flatMap_map]
      rfl

/-- A turn stands in the timeline where its descriptor says. -/
def Placed (historyRevision : Value) (timeline : List Value) (shown : ShownTurn)
    (descriptor : CollapsedTurn) : Prop :=
  ∃ pre post, timeline = pre ++ row (shown.1.pieces shown.2) ++ post ∧
    descriptor = shown.1.descriptor historyRevision shown.2 pre.length

theorem placed_shown (historyRevision : Value) (shown : List ShownTurn) (pre post : List Value) :
    List.Forall₂ (Placed historyRevision (pre ++ shownTimeline shown ++ post)) shown
      (shownDescriptors historyRevision pre.length shown) := by
  induction shown generalizing pre with
  | nil => exact .nil
  | cons turn shown ih =>
      have hlater := ih (pre ++ row (turn.1.pieces turn.2))
      have htimeline : pre ++ shownTimeline (turn :: shown) ++ post =
          pre ++ row (turn.1.pieces turn.2) ++ shownTimeline shown ++ post := by
        simp [shownTimeline]
      rw [List.length_append, ← htimeline] at hlater
      refine .cons ⟨pre, shownTimeline shown ++ post, ?_, rfl⟩ hlater
      rw [htimeline, List.append_assoc _ _ post]

/-- The descriptors tile the timeline from `low` to `high`. -/
inductive Tiled (high : Nat) : Nat → List CollapsedTurn → Prop
  | nil : Tiled high high []
  | cons {descriptor : CollapsedTurn} {later : List CollapsedTurn}
      (hle : descriptor.beforeUpdate ≤ descriptor.afterUpdate)
      (hlater : Tiled high descriptor.afterUpdate later) :
      Tiled high descriptor.beforeUpdate (descriptor :: later)

theorem tiled_shown (historyRevision : Value) (before : Nat) (shown : List ShownTurn) :
    Tiled (before + (shownTimeline shown).length) before
      (shownDescriptors historyRevision before shown) := by
  induction shown generalizing before with
  | nil => exact .nil
  | cons turn shown ih =>
      have hlater := ih (before + (row (turn.1.pieces turn.2)).length)
      have hlength : before + (shownTimeline (turn :: shown)).length =
          before + (row (turn.1.pieces turn.2)).length + (shownTimeline shown).length := by
        simp [shownTimeline, Nat.add_assoc]
      rw [hlength]
      let descriptor := turn.1.descriptor historyRevision turn.2 before
      have hafter : Tiled _ descriptor.afterUpdate _ := hlater
      exact .cons (Nat.le_add_right _ _) hafter

section Pages

variable {turn : Turn} {view : Value}

theorem mapM_materialize {entries : List Entry}
    (h : ∀ entry ∈ entries, entry.materialize.isSome = true) :
    entries.mapM (·.materialize) = some (entries.map Entry.shown) := by
  induction entries with
  | nil => rfl
  | cons entry entries ih =>
      obtain ⟨hentry, hentries⟩ := List.forall_mem_cons.mp h
      obtain ⟨updates, hupdates⟩ := Option.isSome_iff_exists.mp hentry
      rw [List.mapM_cons, hupdates, ih hentries, List.map_cons, Entry.shown, hupdates]
      rfl

theorem Turn.mem_of_mem_process {entry : Entry} (h : entry ∈ turn.process) :
    entry ∈ turn.entries :=
  turn.visible_process.mem_iff.mp (List.mem_append_right _ h)

/-- A page shows its entries of the process. -/
theorem Turn.Renders.page (h : turn.Renders) (view : Value) (revision : String) (offset : Nat) :
    ∃ page, turn.page view revision offset = some page ∧ page.turnId = turn.id ∧
      page.offset = offset ∧ page.total = turn.process.length ∧
      page.items = (Layout.page processPageSize turn.process offset).map Entry.shown := by
  have hitems : ∀ entry ∈ Layout.page processPageSize turn.process offset,
      entry.materialize.isSome = true := fun entry hentry =>
    h entry (turn.mem_of_mem_process (List.mem_of_mem_take (List.mem_of_mem_drop hentry)))
  rw [Turn.page, mapM_materialize hitems]
  exact ⟨_, rfl, rfl, rfl, rfl, rfl⟩

/-- A turn is found under its own id. -/
theorem Numbered.find {turns : List Turn} (h : Numbered turns) (hmem : turn ∈ turns) :
    turns.find? (fun other => other.id = turn.id) = some turn := by
  obtain ⟨i, hi⟩ := List.mem_iff_getElem?.mp hmem
  cases hfind : turns.find? fun other => other.id = turn.id with
  | none =>
      have hnone := List.find?_eq_none.mp hfind turn hmem
      simp at hnone
  | some other =>
      obtain ⟨j, hj⟩ := List.mem_iff_getElem?.mp (List.mem_of_find?_eq_some hfind)
      have hid : other.id = turn.id := by simpa using List.find?_some hfind
      have hij := h.eq hj hi hid
      rw [hij, hi] at hj
      exact hj.symm

/-- The pages at the offsets 0, 10, 20 and so on. -/
def readPages (view : Value) (turnId revision : String) (total : Nat) :
    List (Except PageError (Option ProcessPage)) :=
  (List.range (total / processPageSize + 1)).map fun k =>
    processPage view turnId revision (processPageSize * k)

/-- The pages of a turn show its process in order, each entry on one page. -/
theorem readPages_process {revision : String}
    (hrevision : view.getStr "historyRevision" = some revision)
    (hmem : turn ∈ turns view) (hrenders : turn.Renders) :
    ∃ pages : List ProcessPage,
      readPages view turn.id revision turn.process.length = pages.map (fun p => .ok (some p)) ∧
      pages.flatMap (·.items) = turn.process.map Entry.shown ∧
      ∀ page ∈ pages, page.turnId = turn.id ∧ page.total = turn.process.length := by
  choose page hpage hid hoffset htotal hitems using hrenders.page view revision
  have hfind : (turns view).find? (fun other => other.id = turn.id) = some turn :=
    (sound_turnsOf _ _).2.1.find hmem
  refine ⟨(List.range (turn.process.length / processPageSize + 1)).map
    fun k => page (processPageSize * k), ?_, ?_, ?_⟩
  · rw [readPages, List.map_map]
    refine List.map_congr_left fun k hk => ?_
    have hle : processPageSize * k ≤ turn.process.length := by
      have hk := Nat.le_of_lt_succ (List.mem_range.mp hk)
      exact (Nat.mul_le_mul_left _ hk).trans (Nat.mul_div_le _ _)
    have hok : ¬(turn.process.length < processPageSize * k ∨
        processPageSize * k % processPageSize ≠ 0) := by
      rw [Nat.mul_mod_right]
      omega
    rw [processPage, if_neg (by simp [hrevision]), hfind]
    simp only [if_neg hok, hpage, Function.comp_apply]
  · rw [List.flatMap_map]
    simp only [hitems]
    have hall := Layout.flatMap_page_all (by decide : 0 < processPageSize) turn.process
    conv => rhs; rw [← hall]
    rw [List.map_flatMap]
  · intro p hp
    obtain ⟨k, -, rfl⟩ := List.mem_map.mp hp
    exact ⟨hid _, htotal _⟩

end Pages

/-- One turn of a compact view and its pages. -/
structure Shows (view : Value) (timeline : List Value) (shown : ShownTurn)
    (descriptor : CollapsedTurn) : Prop where
  turnId : descriptor.turnId = shown.1.id
  processCount : descriptor.processCount = shown.1.process.length
  processIncluded : descriptor.processIncluded = if shown.2 then some true else none
  /-- Every entry is visible or on a page, and on one page only. -/
  entries : (shown.1.visible ++ shown.1.process).Perm shown.1.entries
  visible : ∃ rs, descriptor.visibleRanges = some rs ∧
    Layout.Ordered descriptor.afterUpdate descriptor.beforeUpdate rs ∧
    rs.map (slice timeline) = shown.1.visible.map Entry.shown
  body : slice timeline ⟨descriptor.beforeUpdate, descriptor.afterUpdate⟩ =
    if shown.2 then shown.1.entries.flatMap Entry.shown else shown.1.visible.flatMap Entry.shown
  pages : ∀ revision, view.getStr "historyRevision" = some revision →
    ∃ pages : List ProcessPage,
      readPages view descriptor.turnId revision descriptor.processCount =
        pages.map (fun p => .ok (some p)) ∧
      pages.flatMap (·.items) = shown.1.process.map Entry.shown ∧
      ∀ page ∈ pages, page.total = descriptor.processCount
  outcomes : descriptor.outcomes = shown.1.outcomes.map (moveOutcome descriptor.afterUpdate)

theorem Placed.shows {view historyRevision : Value} {timeline : List Value}
    {shown : ShownTurn} {descriptor : CollapsedTurn}
    (h : Placed historyRevision timeline shown descriptor) (hmem : shown.1 ∈ turns view)
    (hrenders : shown.1.Renders) : Shows view timeline shown descriptor := by
  obtain ⟨pre, post, rfl, rfl⟩ := h
  refine ⟨rfl, rfl, rfl, shown.1.visible_process, ⟨_, rfl, Layout.ordered_ranges _ _, ?_⟩, ?_, ?_,
    rfl⟩
  · exact (Layout.slices_ranges pre post _).trans (shown.1.marked_pieces shown.2)
  · rw [← shown.1.row_pieces]
    exact Layout.slice_middle pre _ post
  · intro revision hrevision
    obtain ⟨pages, hread, hitems, hpages⟩ := readPages_process hrevision hmem hrenders
    exact ⟨pages, hread, hitems, fun page hpage => (hpages page hpage).2⟩

end Attyd.Presentation
