import Attyd.Presentation.Visibility

/-!
# Compact views

For every view the turns of the compact timeline, its descriptors, its outcomes and the pages of
its processes are those of one list of turns. The include and exclude arguments decide for each
turn whether its process is shown, and nothing else.
-/

namespace Attyd.Presentation

open Json (Value)
open Layout (slice)

section Outcomes

theorem outcomesBefore_succ (outcomes : List Value) (stop : Nat) :
    outcomesBefore outcomes (stop + 1) =
      outcomesBefore outcomes stop ++ outcomesAt outcomes stop := by
  rw [outcomesBefore, List.range_succ, List.flatMap_append, List.flatMap_singleton]
  rfl

theorem mem_outcomesBefore {outcomes : List Value} {stop : Nat} {outcome : Value}
    (h : outcome ∈ outcomesBefore outcomes stop) :
    ∃ offset < stop, afterUpdate outcome = some offset := by
  obtain ⟨offset, hoffset, hmem⟩ := List.mem_flatMap.mp h
  exact ⟨offset, List.mem_range.mp hoffset, by simpa using (List.mem_filter.mp hmem).2⟩

/-- The outcomes of one offset keep their order. -/
theorem filter_outcomesBefore (outcomes : List Value) {stop offset : Nat} (h : offset < stop) :
    (outcomesBefore outcomes stop).filter (afterUpdate · = some offset) =
      outcomesAt outcomes offset := by
  induction stop with
  | zero => cases h
  | succ stop ih =>
      rw [outcomesBefore_succ, List.filter_append, outcomesAt, List.filter_filter]
      rcases Nat.lt_or_eq_of_le (Nat.le_of_lt_succ h) with hlt | rfl
      · have hnone : (outcomes.filter fun outcome =>
            decide (afterUpdate outcome = some offset) &&
              decide (afterUpdate outcome = some stop)) = [] := by
          refine List.filter_eq_nil_iff.mpr fun outcome _ hboth => ?_
          simp only [Bool.and_eq_true, decide_eq_true_eq] at hboth
          have hsame : some offset = some stop := hboth.1.symm.trans hboth.2
          exact absurd (Option.some.inj hsame) (Nat.ne_of_lt hlt)
        rw [ih hlt, hnone, List.append_nil]
      · have hnone : (outcomesBefore outcomes offset).filter
            (fun outcome => decide (afterUpdate outcome = some offset)) = [] := by
          refine List.filter_eq_nil_iff.mpr fun outcome hmem hat => ?_
          obtain ⟨earlier, hlt, hearlier⟩ := mem_outcomesBefore hmem
          rw [hearlier] at hat
          exact absurd (Option.some.inj (by simpa using hat)) (Nat.ne_of_lt hlt)
        rw [hnone, List.nil_append]
        simp only [Bool.and_self]
        rfl

/-- The outcomes stand in the order of their offsets. -/
theorem pairwise_outcomesBefore (outcomes : List Value) (stop : Nat) :
    (outcomesBefore outcomes stop).Pairwise fun earlier later =>
      ∀ x y, afterUpdate earlier = some x → afterUpdate later = some y → x ≤ y := by
  induction stop with
  | zero => exact .nil
  | succ stop ih =>
      rw [outcomesBefore_succ]
      refine List.pairwise_append.mpr ⟨ih, ?_, ?_⟩
      · refine List.pairwise_of_forall_mem_list fun earlier hearlier later hlater x y hx hy => ?_
        have hat : afterUpdate earlier = some stop := by
          simpa using (List.mem_filter.mp hearlier).2
        have hat' : afterUpdate later = some stop := by simpa using (List.mem_filter.mp hlater).2
        rw [hat, Option.some.injEq] at hx
        rw [hat', Option.some.injEq] at hy
        omega
      · intro earlier hearlier later hlater x y hx hy
        obtain ⟨offset, hlt, hoffset⟩ := mem_outcomesBefore hearlier
        have hat' : afterUpdate later = some stop := by simpa using (List.mem_filter.mp hlater).2
        rw [hoffset, Option.some.injEq] at hx
        rw [hat', Option.some.injEq] at hy
        omega

/-- No outcome with an offset inside the timeline is lost. -/
theorem perm_outcomesBefore {outcomes : List Value} {stop : Nat}
    (h : ∀ outcome ∈ outcomes, ∃ offset < stop, afterUpdate outcome = some offset) :
    (outcomesBefore outcomes stop).Perm outcomes := by
  refine List.perm_iff_count.mpr fun outcome => ?_
  cases hat : afterUpdate outcome with
  | none =>
      rw [List.count_eq_zero_of_not_mem, List.count_eq_zero_of_not_mem]
      · intro hmem
        obtain ⟨offset, -, hoffset⟩ := h outcome hmem
        rw [hat] at hoffset
        cases hoffset
      · intro hmem
        obtain ⟨offset, -, hoffset⟩ := mem_outcomesBefore hmem
        rw [hat] at hoffset
        cases hoffset
  | some offset =>
      by_cases hlt : offset < stop
      · calc (outcomesBefore outcomes stop).count outcome
          _ = ((outcomesBefore outcomes stop).filter (afterUpdate · = some offset)).count outcome :=
              (List.count_filter (by simp [hat])).symm
          _ = (outcomesAt outcomes offset).count outcome := by rw [filter_outcomesBefore _ hlt]
          _ = outcomes.count outcome := List.count_filter (by simp [hat])
      · rw [List.count_eq_zero_of_not_mem, List.count_eq_zero_of_not_mem]
        · intro hmem
          obtain ⟨offset', hlt', hoffset⟩ := h outcome hmem
          rw [hat, Option.some.injEq] at hoffset
          exact hlt (hoffset ▸ hlt')
        · intro hmem
          obtain ⟨offset', hlt', hoffset⟩ := mem_outcomesBefore hmem
          rw [hat, Option.some.injEq] at hoffset
          exact hlt (hoffset ▸ hlt')

end Outcomes

/-- Two descriptors of one turn, in timelines that may show its process or not. -/
structure SameTurn (timeline timeline' : List Value) (d d' : CollapsedTurn) : Prop where
  turnId : d.turnId = d'.turnId
  operationId : d.operationId = d'.operationId
  processCount : d.processCount = d'.processCount
  historyRevision : d.historyRevision = d'.historyRevision
  outcomes : d.outcomes.map (moveOutcome 0) = d'.outcomes.map (moveOutcome 0)
  visible : ∃ rs rs', d.visibleRanges = some rs ∧ d'.visibleRanges = some rs' ∧
    rs.map (slice timeline) = rs'.map (slice timeline')
  body : d.processIncluded = d'.processIncluded →
    slice timeline ⟨d.beforeUpdate, d.afterUpdate⟩ =
      slice timeline' ⟨d'.beforeUpdate, d'.afterUpdate⟩

theorem moveOutcome_moveOutcome (m n : Nat) (outcome : Value) :
    moveOutcome m (moveOutcome n outcome) = moveOutcome m outcome := by
  rw [moveOutcome, moveOutcome, Value.set_set]
  rfl

theorem Placed.sameTurn {historyRevision : Value} {timeline timeline' : List Value}
    {turn : Turn} {included included' : Bool} {d d' : CollapsedTurn}
    (h : Placed historyRevision timeline (turn, included) d)
    (h' : Placed historyRevision timeline' (turn, included') d') :
    SameTurn timeline timeline' d d' := by
  obtain ⟨pre, post, rfl, rfl⟩ := h
  obtain ⟨pre', post', rfl, rfl⟩ := h'
  refine ⟨rfl, rfl, rfl, rfl, ?_, ⟨_, _, rfl, rfl, ?_⟩, ?_⟩
  · simp [Turn.descriptor, Function.comp_def, moveOutcome_moveOutcome]
  · exact ((Layout.slices_ranges pre post _).trans (turn.marked_pieces included)).trans
      ((Layout.slices_ranges pre' post' _).trans (turn.marked_pieces included')).symm
  · intro hflags
    have hsame : included = included' := by
      cases included <;> cases included' <;> simp_all [Turn.descriptor]
    subst hsame
    exact (Layout.slice_middle pre _ post).trans (Layout.slice_middle pre' _ post').symm

/-- Turns that are shown twice, each time with decisions of their own. -/
theorem forall₂_sameTurn {historyRevision : Value} {timeline timeline' : List Value}
    {shown shown' : List ShownTurn} {ds ds' : List CollapsedTurn}
    (h : List.Forall₂ (Placed historyRevision timeline) shown ds)
    (h' : List.Forall₂ (Placed historyRevision timeline') shown' ds')
    (hturns : shown.map (·.1) = shown'.map (·.1)) :
    List.Forall₂ (SameTurn timeline timeline') ds ds' := by
  induction h generalizing shown' ds' with
  | nil =>
      cases h' with
      | nil => exact .nil
      | cons hplaced hlater => simp at hturns
  | @cons turn d shown ds hplaced hlater ih =>
      cases h' with
      | nil => simp at hturns
      | @cons turn' d' shown' ds' hplaced' hlater' =>
          rw [List.map_cons, List.map_cons, List.cons.injEq] at hturns
          obtain ⟨hturn, hturns⟩ := hturns
          refine .cons ?_ (ih hlater' hturns)
          cases turn with
          | mk turn included =>
              cases turn' with
              | mk turn' included' =>
                  cases hturn
                  exact hplaced.sameTurn hplaced'

/-- A view whose timeline can be shown. -/
structure Typed (view : Value) : Prop where
  isObject : view.isObject = true
  summaries : ∀ update ∈ viewItems view "timeline", SummaryTyped update

section Views

variable {view : Value}

/-- The fields that the compact view shows in its own way. -/
def compactFields : List String := ["timeline", "collapsedTurns", "turnOutcomes", "terminals"]

/-- What the compact view of a typed view holds. -/
theorem Typed.compactViewFrom (h : Typed view) (liveTerminals : Option Value)
    (includeProcessFrom : Option String) (excludeProcessFor : List String) :
    ∃ compact, compactViewFrom view liveTerminals includeProcessFrom excludeProcessFor =
        some compact ∧
      let shown := shownTurns includeProcessFrom excludeProcessFor false (turns view)
      let descriptors := shownDescriptors (view.index "historyRevision") 0 shown
      compact.get "timeline" = some (.array (shownTimeline shown)) ∧
      compact.get "collapsedTurns" = some (.array (descriptors.map (·.toValue))) ∧
      compact.get "turnOutcomes" = some (.array (descriptors.flatMap (·.outcomes))) ∧
      ∀ key ∉ compactFields, compact.get key = view.get key := by
  obtain ⟨observedSuffix, hturns⟩ := compactTurns_eq (view.index "historyRevision")
    includeProcessFrom excludeProcessFor (renders_turnsOf (viewItems view "turnOutcomes")
      h.summaries)
  rw [Presentation.compactViewFrom, turns, hturns]
  refine ⟨_, rfl, ?_, ?_, ?_, fun key hkey => ?_⟩
  · simp [Compaction.install, Value.get_set, h.isObject]
  · simp [Compaction.install, Value.get_set, h.isObject]
  · simp [Compaction.install, Value.get_set, h.isObject]
  · simp only [compactFields, List.mem_cons, not_or] at hkey
    obtain ⟨htimeline, hturns, houtcomes, hterminals, -⟩ := hkey
    simp only [Compaction.install]
    rw [Value.get_set_of_ne hterminals, Value.get_set_of_ne houtcomes, Value.get_set_of_ne hturns,
      Value.get_set_of_ne htimeline]

theorem Typed.placed (h : Typed view) (includeProcessFrom : Option String)
    (excludeProcessFor : List String) :
    let shown := shownTurns includeProcessFrom excludeProcessFor false (turns view)
    let descriptors := shownDescriptors (view.index "historyRevision") 0 shown
    List.Forall₂ (Placed (view.index "historyRevision") (shownTimeline shown)) shown descriptors ∧
      List.Forall₂ (Shows view (shownTimeline shown)) shown descriptors := by
  intro shown descriptors
  have hplaced := placed_shown (view.index "historyRevision") shown [] []
  rw [List.append_nil, List.nil_append] at hplaced
  refine ⟨hplaced, ?_⟩
  have hmem : ∀ turn ∈ shown, turn.1 ∈ turns view := by
    intro turn hturn
    have hmap := List.mem_map_of_mem (f := (·.1)) hturn
    rwa [map_shownTurns] at hmap
  refine (List.forall₂_iff_get.mpr ⟨hplaced.length_eq, fun i hi hi' => ?_⟩)
  have hturn := hmem _ (List.get_mem shown ⟨i, hi⟩)
  exact ((List.forall₂_iff_get.mp hplaced).2 i hi hi').shows hturn
    (renders_turnsOf _ h.summaries _ hturn)

/-- The compact view of a typed view, with any include-from operation and any exclusions: its turns
hold every update that changes no control, apart from cleared plans; each entry of a turn is visible
or on one of its pages; the descriptors tile the timeline; the outcomes stay in the order of their
offsets; every other field is the view's own, whatever the arguments are; and other arguments show
the same turns with other decisions on their processes. -/
theorem compactViewFrom_shows (view : Value) (h : Typed view)
    (hinside : ∀ outcome ∈ viewItems view "turnOutcomes",
      ∃ offset ≤ (viewItems view "timeline").length, afterUpdate outcome = some offset)
    (liveTerminals : Option Value) (includeProcessFrom : Option String)
    (excludeProcessFor : List String) :
    let shown := shownTurns includeProcessFrom excludeProcessFor false (turns view)
    (shown.map (·.1) = turns view ∧ Covers (turns view) (viewItems view "timeline") ∧
      ∃ cleared : List Entry, (∀ entry ∈ cleared, entry.cleared = true ∧ entry.Uniform) ∧
        (Grouping.updates ((turns view).flatMap (·.entries)) ++
          Grouping.updates cleared).Perm
          ((viewItems view "timeline").filter fun update => !control (kind update))) ∧
    (((turns view).flatMap (·.outcomes)).Perm (viewItems view "turnOutcomes") ∧
      ((turns view).flatMap (·.outcomes)).Pairwise (fun earlier later =>
        ∀ x y, afterUpdate earlier = some x → afterUpdate later = some y → x ≤ y) ∧
      ∀ offset ≤ (viewItems view "timeline").length,
        ((turns view).flatMap (·.outcomes)).filter (afterUpdate · = some offset) =
          (viewItems view "turnOutcomes").filter (afterUpdate · = some offset)) ∧
    ∃ compact timeline descriptors,
      compactViewFrom view liveTerminals includeProcessFrom excludeProcessFor = some compact ∧
      compact.get "timeline" = some (.array timeline) ∧
      compact.get "collapsedTurns" = some (.array (descriptors.map CollapsedTurn.toValue)) ∧
      compact.get "turnOutcomes" =
        some (.array (descriptors.flatMap CollapsedTurn.outcomes)) ∧
      (∀ key ∉ compactFields, compact.get key = view.get key) ∧
      List.Forall₂ (Shows view timeline) shown descriptors ∧
      Tiled timeline.length 0 descriptors ∧
      ∀ (liveTerminals' : Option Value) (includeProcessFrom' : Option String)
        (excludeProcessFor' : List String), ∃ compact' timeline' descriptors',
        compactViewFrom view liveTerminals' includeProcessFrom' excludeProcessFor' =
          some compact' ∧
        compact'.get "timeline" = some (.array timeline') ∧
        compact'.get "collapsedTurns" = some (.array (descriptors'.map CollapsedTurn.toValue)) ∧
        List.Forall₂ (SameTurn timeline timeline') descriptors descriptors' := by
  intro shown
  obtain ⟨hcovers, -, hended⟩ :=
    sound_turnsOf (viewItems view "timeline") (viewItems view "turnOutcomes")
  have hoffsets : ∀ outcome ∈ viewItems view "turnOutcomes",
      ∃ offset < (viewItems view "timeline").length + 1, afterUpdate outcome = some offset :=
    fun outcome hmem => by
      obtain ⟨offset, hle, hat⟩ := hinside outcome hmem
      exact ⟨offset, Nat.lt_succ_of_le hle, hat⟩
  obtain ⟨hplaced, hshows⟩ := h.placed includeProcessFrom excludeProcessFor
  refine ⟨⟨map_shownTurns _ _ _ _, hcovers, hcovers.exists_cleared⟩, ?_, ?_⟩
  · rw [turns, hended]
    exact ⟨perm_outcomesBefore hoffsets, pairwise_outcomesBefore _ _,
      fun offset hle => filter_outcomesBefore _ (Nat.lt_succ_of_le hle)⟩
  · obtain ⟨compact, hcompact, htimeline, hdescriptors, houtcomes, hfields⟩ :=
      h.compactViewFrom liveTerminals includeProcessFrom excludeProcessFor
    have htiled := tiled_shown (view.index "historyRevision") 0 shown
    rw [Nat.zero_add] at htiled
    refine ⟨compact, _, _, hcompact, htimeline, hdescriptors, houtcomes, hfields,
      hshows, htiled, ?_⟩
    intro liveTerminals' includeProcessFrom' excludeProcessFor'
    obtain ⟨compact', hcompact', htimeline', hdescriptors', -⟩ :=
      h.compactViewFrom liveTerminals' includeProcessFrom' excludeProcessFor'
    obtain ⟨hplaced', -⟩ := h.placed includeProcessFrom' excludeProcessFor'
    refine ⟨compact', _, _, hcompact', htimeline', hdescriptors', ?_⟩
    exact forall₂_sameTurn hplaced hplaced' (by rw [map_shownTurns, map_shownTurns])

/-- A prompt and its answer, with the later of two outcomes listed first. -/
def reorderedView : Value :=
  .ofFields
    [("historyRevision", .string "history"),
      ("timeline", .array
        [.ofFields [("sessionUpdate", .string "user_message_chunk")],
          .ofFields [("sessionUpdate", .string "agent_message_chunk")]]),
      ("turnOutcomes", .array
        [.ofFields [("operationId", .string "late"), ("afterUpdate", .ofNat 2)],
          .ofFields [("operationId", .string "early"), ("afterUpdate", .ofNat 1)]])]

/-- The outcomes do not keep the order they are listed in. -/
theorem compactViewFrom_reorders :
    (viewItems reorderedView "turnOutcomes").map (·.getStr "operationId") =
        [some "late", some "early"] ∧
      (viewItems reorderedView "turnOutcomes").map afterUpdate = [some 2, some 1] ∧
      (compactViewFrom reorderedView none none []).map
          (fun compact => (viewItems compact "turnOutcomes").map (·.getStr "operationId")) =
        some [some "early", some "late"] := by
  decide +kernel

theorem compactViewFrom_shows_reordered :
    ∃ compact timeline descriptors,
      compactViewFrom reorderedView none (some "late") [] = some compact ∧
      compact.get "timeline" = some (.array timeline) ∧
      compact.get "collapsedTurns" = some (.array (descriptors.map CollapsedTurn.toValue)) ∧
      Tiled timeline.length 0 descriptors := by
  have htyped : Typed reorderedView := by
    refine ⟨by decide +kernel, fun update hupdate hkind => ?_⟩
    have hkinds : ∀ update ∈ viewItems reorderedView "timeline",
        kind update ≠ "compaction_update" := by decide +kernel
    exact absurd hkind (hkinds update hupdate)
  have hinside : ∀ outcome ∈ viewItems reorderedView "turnOutcomes",
      ∃ offset ≤ (viewItems reorderedView "timeline").length,
        afterUpdate outcome = some offset := by decide +kernel
  obtain ⟨-, -, compact, timeline, descriptors, hcompact, htimeline, hdescriptors, -, -, -, htiled,
    -⟩ := compactViewFrom_shows reorderedView htyped hinside none (some "late") []
  exact ⟨compact, timeline, descriptors, hcompact, htimeline, hdescriptors, htiled⟩

end Views

end Attyd.Presentation
