import Attyd.Presentation.CompactViews
import Attyd.Terminals.Browser

/-!
# Processes the browser releases

The browser drops the processes of some turns from a compact view it holds. What is left is the
compact view that shows the same turns with these processes excluded.

## Implementation notes

`BridgeSessionView` has the fields that are read or written. A range of the server lies inside its
timeline, so no slice runs out of it. The members of an object are listed in their order.
-/

namespace Attyd.Presentation

open Json (Value)
open Layout (Piece Range row ranges slice)
open Terminals (Browser.TerminalSnapshot)

/-- A compact view as the browser holds it. -/
structure BridgeSessionView where
  timeline : List Value
  collapsedTurns : Option (List CollapsedTurn)
  turnOutcomes : Option (List Value)
  activeTurn : Value
  interactions : Value
  terminals : List (String × Terminals.Browser.TerminalSnapshot)

/-- `Object.fromEntries`: a later entry replaces an earlier one of the same key. -/
def fromEntries {α : Type} (entries : List (String × α)) : List (String × α) :=
  entries.foldl (fun object entry =>
    if object.any (·.1 = entry.1) then object.map fun e => if e.1 = entry.1 then entry else e
    else object ++ [entry]) []

/-- Only retired outputs that nothing refers to any more are dropped. -/
def releaseUnreferencedTerminals (terminals : List Terminals.Browser.TerminalSnapshot)
    (before after : List Value) : List Terminals.Browser.TerminalSnapshot :=
  terminals.filter fun terminal =>
    terminal.terminalId ∉ listTerminalReferences before ||
      terminal.terminalId ∈ listTerminalReferences after ||
      (!terminal.released && terminal.exitStatus.all (·.isNull))

/-- Whether the process of a turn is there and to be dropped. -/
def releases (shouldRelease : CollapsedTurn → Bool) (turn : CollapsedTurn) : Bool :=
  turn.processIncluded = some true && turn.visibleRanges.isSome && shouldRelease turn

/-- The ranges of a turn are copied one behind the other. -/
def copyRanges (source : List Value) : List Value → List Range → List Value × List Range
  | timeline, [] => (timeline, [])
  | timeline, range :: later =>
      let copied := timeline ++ slice source range
      let rest := copyRanges source copied later
      (rest.1, ⟨timeline.length, copied.length⟩ :: rest.2)

/-- What is kept of a turn: all of it or its visible ranges. -/
def keepTurn (source : List Value) (shouldRelease : CollapsedTurn → Bool) (timeline : List Value)
    (turn : CollapsedTurn) : List Value × Option (List Range) :=
  if releases shouldRelease turn then
    let copied := copyRanges source timeline (turn.visibleRanges.getD [])
    (copied.1, some copied.2)
  else
    (timeline ++ slice source ⟨turn.beforeUpdate, turn.afterUpdate⟩,
      turn.visibleRanges.map (·.map (Range.move turn.beforeUpdate timeline.length)))

/-- One turn is copied behind what has been copied. -/
def copyTurn (source : List Value) (shouldRelease : CollapsedTurn → Bool)
    (copied : List Value × List CollapsedTurn) (turn : CollapsedTurn) :
    List Value × List CollapsedTurn :=
  let kept := keepTurn source shouldRelease copied.1 turn
  (kept.1, copied.2 ++ [{ turn with
    beforeUpdate := copied.1.length
    afterUpdate := kept.1.length
    visibleRanges := kept.2
    processIncluded :=
      if releases shouldRelease turn then some false else turn.processIncluded
    outcomes := turn.outcomes.map (moveOutcome kept.1.length) }])

def releaseSessionViewProcess (view : BridgeSessionView)
    (shouldRelease : CollapsedTurn → Bool) : BridgeSessionView :=
  match view.collapsedTurns with
  | none => view
  | some turns =>
      if turns.any (releases shouldRelease) then
        let copied := turns.foldl (copyTurn view.timeline shouldRelease) ([], [])
        let terminals := releaseUnreferencedTerminals (view.terminals.map (·.2)) view.timeline
          [.array copied.1, view.activeTurn, view.interactions]
        { view with
          timeline := copied.1
          collapsedTurns := some copied.2
          turnOutcomes := some (copied.2.flatMap (·.outcomes))
          terminals := fromEntries (terminals.map fun terminal => (terminal.terminalId, terminal)) }
      else view

/-- The turns with the decisions on their processes, those of the selected ones excluded. -/
def withhold (selected : CollapsedTurn → Bool) (shown : List ShownTurn)
    (descriptors : List CollapsedTurn) : List ShownTurn :=
  List.zipWith (fun turn descriptor => (turn.1, turn.2 && !selected descriptor)) shown descriptors

/-- A flag that is missing says no. -/
def CollapsedTurn.flagged (self : CollapsedTurn) : CollapsedTurn :=
  { self with processIncluded := self.processIncluded.filter id }

/-- The browser holds what the server has shown. -/
structure BridgeSessionView.Holds (view : BridgeSessionView) (compaction : Compaction) : Prop where
  timeline : view.timeline = compaction.timeline
  collapsedTurns : view.collapsedTurns.map (·.map CollapsedTurn.flagged) =
    some (compaction.descriptors.map CollapsedTurn.flagged)
  turnOutcomes : view.turnOutcomes = some compaction.outcomes

section Copy

variable {source : List Value}

/-- The ranges of marked pieces are copied as a row of these pieces. -/
theorem copyRanges_eq {pieces : List (Piece Value)} (hmarked : ∀ piece ∈ pieces, piece.marked = true)
    {rs : List Range} (h : rs.map (slice source) = pieces.map (·.items)) (timeline : List Value) :
    copyRanges source timeline rs = (timeline ++ row pieces, ranges timeline.length pieces) := by
  induction pieces generalizing rs timeline with
  | nil =>
      rw [List.map_nil, List.map_eq_nil_iff] at h
      subst h
      simp [copyRanges, row, ranges]
  | cons piece pieces ih =>
      obtain ⟨hpiece, hpieces⟩ := List.forall_mem_cons.mp hmarked
      cases rs with
      | nil => simp at h
      | cons range rs =>
          rw [List.map_cons, List.map_cons, List.cons.injEq] at h
          rw [copyRanges, h.1, ih hpieces h.2, ranges, if_pos hpiece]
          simp

variable {historyRevision : Value} {turn : Turn} {d : CollapsedTurn}

/-- A turn is released when its process is shown and it is selected. -/
theorem releases_descriptor (shouldRelease : CollapsedTurn → Bool) (included : Bool)
    (before : Nat) :
    releases shouldRelease (turn.descriptor historyRevision included before) =
      (included && shouldRelease (turn.descriptor historyRevision included before)) := by
  rw [releases]
  generalize shouldRelease (turn.descriptor historyRevision included before) = selected
  cases included <;> simp [Turn.descriptor]

/-- A turn is kept as it is shown with the decision that is left. -/
theorem keepTurn_eq {included : Bool} (h : Placed historyRevision source (turn, included) d)
    (shouldRelease : CollapsedTurn → Bool) (timeline : List Value) :
    keepTurn source shouldRelease timeline d =
      (timeline ++ row (turn.pieces (included && !shouldRelease d)),
        some (ranges timeline.length (turn.pieces (included && !shouldRelease d)))) := by
  obtain ⟨pre, post, rfl, rfl⟩ := h
  have hslice := Layout.slice_middle pre (row (turn.pieces included)) post
  have hmove := Layout.ranges_move pre.length timeline.length (turn.pieces included)
  have hslices := Layout.slices_ranges pre post (turn.pieces included)
  rw [← turn.pieces_false included] at hslices
  have hcopy := copyRanges_eq (fun piece hpiece => by
    rw [turn.pieces_false included] at hpiece
    exact (List.mem_filter.mp hpiece).2) hslices timeline
  rw [keepTurn, releases_descriptor]
  generalize shouldRelease (turn.descriptor historyRevision included pre.length) = selected
  simp only [Turn.descriptor, Option.getD_some, Option.map_some]
  rw [hcopy, hslice, hmove]
  cases included <;> cases selected <;> rfl

/-- The flag of a turn that is copied says whether its process is still there. -/
theorem copied_flag {included : Bool} (h : Placed historyRevision source (turn, included) d)
    (shouldRelease : CollapsedTurn → Bool) :
    (if releases shouldRelease d then some false else d.processIncluded).filter id =
      (if included && !shouldRelease d then some true else none).filter id := by
  obtain ⟨pre, post, -, rfl⟩ := h
  rw [releases_descriptor]
  generalize shouldRelease (turn.descriptor historyRevision included pre.length) = selected
  cases included <;> cases selected <;> rfl

/-- A turn is copied as it is shown with the decision that is left. -/
theorem copyTurn_eq {included : Bool} (h : Placed historyRevision source (turn, included) d)
    (shouldRelease : CollapsedTurn → Bool) (copied : List Value × List CollapsedTurn) :
    let left := included && !shouldRelease d
    ∃ d', copyTurn source shouldRelease copied d =
        (copied.1 ++ row (turn.pieces left), copied.2 ++ [d']) ∧
      d'.flagged = (turn.descriptor historyRevision left copied.1.length).flagged ∧
      d'.outcomes = (turn.descriptor historyRevision left copied.1.length).outcomes := by
  intro left
  have hflag := copied_flag h shouldRelease
  rw [copyTurn, keepTurn_eq h]
  refine ⟨_, rfl, ?_, ?_⟩
  · rw [CollapsedTurn.flagged, hflag]
    obtain ⟨pre, post, -, rfl⟩ := h
    simp [CollapsedTurn.flagged, Turn.descriptor, Function.comp_def, moveOutcome_moveOutcome, left]
  · obtain ⟨pre, post, -, rfl⟩ := h
    simp [Turn.descriptor, Function.comp_def, moveOutcome_moveOutcome, left]

/-- The turns are copied as they are shown with the decisions that are left. -/
theorem foldl_copyTurn {shown : List ShownTurn} {ds : List CollapsedTurn}
    (h : List.Forall₂ (Placed historyRevision source) shown ds)
    (shouldRelease : CollapsedTurn → Bool) (copied : List Value × List CollapsedTurn) :
    let left := withhold shouldRelease shown ds
    ∃ ds', ds.foldl (copyTurn source shouldRelease) copied =
        (copied.1 ++ shownTimeline left, copied.2 ++ ds') ∧
      ds'.map CollapsedTurn.flagged =
        (shownDescriptors historyRevision copied.1.length left).map CollapsedTurn.flagged ∧
      ds'.flatMap CollapsedTurn.outcomes =
        (shownDescriptors historyRevision copied.1.length left).flatMap
          CollapsedTurn.outcomes := by
  induction h generalizing copied with
  | nil => exact ⟨[], by simp [withhold, shownTimeline, shownDescriptors]⟩
  | @cons turn d shown ds hplaced hlater ih =>
      obtain ⟨d', hcopy, hflagged, houtcomes⟩ := copyTurn_eq hplaced shouldRelease copied
      obtain ⟨ds', hcopies, hflags, hall⟩ := ih (copyTurn source shouldRelease copied d)
      refine ⟨d' :: ds', ?_, ?_, ?_⟩
      · rw [List.foldl_cons, hcopies, hcopy]
        simp [withhold, shownTimeline]
      · rw [hcopy, List.length_append] at hflags
        rw [List.map_cons, hflagged, hflags]
        rfl
      · rw [hcopy, List.length_append] at hall
        rw [List.flatMap_cons, houtcomes, hall]
        rfl

/-- Where nothing is released the decisions stay as they were. -/
theorem withhold_of_none {shown : List ShownTurn} {ds : List CollapsedTurn}
    (h : List.Forall₂ (Placed historyRevision source) shown ds)
    {shouldRelease : CollapsedTurn → Bool} (hnone : ds.any (releases shouldRelease) = false) :
    withhold shouldRelease shown ds = shown := by
  induction h with
  | nil => rfl
  | @cons turn d shown ds hplaced hlater ih =>
      rw [List.any_cons, Bool.or_eq_false_iff] at hnone
      rw [withhold, List.zipWith_cons_cons]
      refine congrArg₂ List.cons ?_ (ih hnone.2)
      obtain ⟨pre, post, -, rfl⟩ := hplaced
      cases turn with
      | mk turn included =>
          cases included with
          | false => rfl
          | true => simpa [releases, Turn.descriptor] using hnone.1

end Copy

section Release

variable {view : Value}

theorem map_withhold (selected : CollapsedTurn → Bool) {shown : List ShownTurn}
    {ds : List CollapsedTurn} (h : shown.length = ds.length) :
    (withhold selected shown ds).map (·.1) = shown.map (·.1) := by
  induction shown generalizing ds with
  | nil => rfl
  | cons turn shown ih =>
      cases ds with
      | nil => cases h
      | cons d ds =>
          have hlater : (withhold selected shown ds).map (·.1) = shown.map (·.1) :=
            ih (by simpa using h)
          rw [withhold] at hlater ⊢
          rw [List.zipWith_cons_cons, List.map_cons, List.map_cons, hlater]

/-- The loop over the turns ends as the turns are shown with their decisions. -/
theorem compactTurns_of_shown (h : Typed view) {includeProcessFrom : Option String}
    {excludeProcessFor : List String} {shown : List ShownTurn}
    (hshown : shownTurns includeProcessFrom excludeProcessFor false (turns view) = shown)
    {compaction : Compaction}
    (hcompact : compactTurns (view.index "historyRevision") includeProcessFrom excludeProcessFor
      (turns view) = some compaction) :
    let descriptors := shownDescriptors (view.index "historyRevision") 0 shown
    compaction.timeline = shownTimeline shown ∧ compaction.descriptors = descriptors ∧
      compaction.outcomes = descriptors.flatMap CollapsedTurn.outcomes := by
  obtain ⟨observedSuffix, hturns⟩ := compactTurns_eq (view.index "historyRevision")
    includeProcessFrom excludeProcessFor (renders_turnsOf (viewItems view "turnOutcomes")
      h.summaries)
  rw [turns, hturns, Option.some.injEq] at hcompact
  rw [← hcompact, ← hshown]
  exact ⟨rfl, rfl, rfl⟩

/-- The view the browser is left with when it releases the processes of the selected turns is the
compact projection in which exactly these are excluded: as the loop over the turns shows them, and
as the server shows them whenever its arguments make these decisions. -/
theorem releaseSessionViewProcess_holds (view : Value) (h : Typed view)
    (includeProcessFrom : Option String) (excludeProcessFor : List String)
    (compaction : Compaction)
    (hcompact : compactTurns (view.index "historyRevision") includeProcessFrom excludeProcessFor
      (turns view) = some compaction)
    (held : BridgeSessionView) (htimeline : held.timeline = compaction.timeline)
    (hdescriptors : held.collapsedTurns = some compaction.descriptors)
    (houtcomes : held.turnOutcomes = some compaction.outcomes)
    (shouldRelease : CollapsedTurn → Bool) :
    let left := withhold shouldRelease
      (shownTurns includeProcessFrom excludeProcessFor false (turns view)) compaction.descriptors
    left.map (·.1) = turns view ∧
      (∃ projection, Compaction.emitAll (view.index "historyRevision") left = some projection ∧
        (releaseSessionViewProcess held shouldRelease).Holds projection) ∧
      ∀ (includeProcessFrom' : Option String) (excludeProcessFor' : List String) projection,
        shownTurns includeProcessFrom' excludeProcessFor' false (turns view) = left →
        compactTurns (view.index "historyRevision") includeProcessFrom' excludeProcessFor'
          (turns view) = some projection →
        (releaseSessionViewProcess held shouldRelease).Holds projection := by
  intro left
  set shown := shownTurns includeProcessFrom excludeProcessFor false (turns view) with hshown
  obtain ⟨hrow, hds, hall⟩ := compactTurns_of_shown h hshown.symm hcompact
  obtain ⟨hplaced, -⟩ := h.placed includeProcessFrom excludeProcessFor
  rw [← hshown, ← hds, ← hrow, ← htimeline] at hplaced
  have hturns : left.map (·.1) = turns view := by
    rw [map_withhold shouldRelease hplaced.length_eq, hshown, map_shownTurns]
  have hrenders : ∀ turn ∈ left, turn.1.Renders := by
    intro turn hturn
    have hmem := List.mem_map_of_mem (f := (·.1)) hturn
    rw [hturns] at hmem
    exact renders_turnsOf _ h.summaries _ hmem
  have hheld : (releaseSessionViewProcess held shouldRelease).Holds
      { timeline := shownTimeline left
        descriptors := shownDescriptors (view.index "historyRevision") 0 left
        outcomes := (shownDescriptors (view.index "historyRevision") 0 left).flatMap
          CollapsedTurn.outcomes
        observedSuffix := false } := by
    rw [releaseSessionViewProcess, hdescriptors]
    simp only
    split
    · obtain ⟨ds', hcopied, hflags, hmoved⟩ := foldl_copyTurn hplaced shouldRelease ([], [])
      rw [hcopied]
      exact ⟨rfl, congrArg some hflags, congrArg some hmoved⟩
    · next hnone =>
        have hleft : left = shown := withhold_of_none hplaced (by simpa using hnone)
        rw [hleft]
        refine ⟨htimeline.trans hrow, ?_, houtcomes.trans (congrArg some hall)⟩
        rw [hdescriptors, hds]
        rfl
  refine ⟨hturns, ⟨_, Compaction.emitAll_eq hrenders, hheld⟩, ?_⟩
  intro includeProcessFrom' excludeProcessFor' projection hsame hprojection
  obtain ⟨hrow', hds', hall'⟩ := compactTurns_of_shown h hsame hprojection
  refine ⟨hheld.timeline.trans hrow'.symm, ?_, hheld.turnOutcomes.trans (congrArg some hall'.symm)⟩
  rw [hds']
  exact hheld.collapsedTurns

/-- Two turns of a prompt, a thought and an answer. -/
def thoughtView : Value :=
  let turn : List Value :=
    [.ofFields [("sessionUpdate", .string "user_message_chunk")],
      .ofFields [("sessionUpdate", .string "agent_thought_chunk")],
      .ofFields [("sessionUpdate", .string "agent_message_chunk")]]
  .ofFields
    [("historyRevision", .string "history"),
      ("timeline", .array (turn ++ turn)),
      ("turnOutcomes", .array
        [.ofFields [("operationId", .string "first"), ("afterUpdate", .ofNat 3)],
          .ofFields [("operationId", .string "second"), ("afterUpdate", .ofNat 6)]])]

theorem typed_thoughtView : Typed thoughtView := by
  refine ⟨by decide +kernel, fun update hupdate hkind => ?_⟩
  have hkinds : ∀ update ∈ viewItems thoughtView "timeline",
      kind update ≠ "compaction_update" := by decide +kernel
  exact absurd hkind (hkinds update hupdate)

/-- The thoughts of both turns are shown, and that of the first turn is released. -/
theorem releaseSessionViewProcess_holds_thought :
    let first : CollapsedTurn → Bool := fun turn => turn.turnId = "history-0-0"
    ∃ compaction, compactTurns (thoughtView.index "historyRevision") (some "first") []
        (turns thoughtView) = some compaction ∧ compaction.timeline.length = 6 ∧
      (releaseSessionViewProcess
        ⟨compaction.timeline, some compaction.descriptors, some compaction.outcomes, .null, .null,
          []⟩ first).timeline.length = 5 ∧
      ((withhold first (shownTurns (some "first") [] false (turns thoughtView))
        compaction.descriptors).map (·.1)).length = 2 := by
  intro first
  have hsome : (compactTurns (thoughtView.index "historyRevision") (some "first") []
      (turns thoughtView)).isSome = true := by decide +kernel
  obtain ⟨compaction, hcompact⟩ := Option.isSome_iff_exists.mp hsome
  have hlengths : (compactTurns (thoughtView.index "historyRevision") (some "first") []
      (turns thoughtView)).all (fun compaction => compaction.timeline.length = 6 ∧
        (releaseSessionViewProcess ⟨compaction.timeline, some compaction.descriptors,
          some compaction.outcomes, .null, .null, []⟩ first).timeline.length = 5) =
      true := by decide +kernel
  rw [hcompact, Option.all_some, decide_eq_true_eq] at hlengths
  obtain ⟨hturns, -, -⟩ := releaseSessionViewProcess_holds thoughtView typed_thoughtView
    (some "first") [] compaction hcompact ⟨compaction.timeline, some compaction.descriptors,
      some compaction.outcomes, .null, .null, []⟩ rfl rfl rfl first
  refine ⟨compaction, hcompact, hlengths.1, hlengths.2, ?_⟩
  rw [hturns]
  decide +kernel

end Release

end Attyd.Presentation
