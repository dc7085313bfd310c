import Attyd.Presentation.Compact

/-!
# How turns are shown

An entry is materialized whenever the compaction updates carry well-typed summaries. A turn is then
shown by its pieces: the entries that are always visible, which are marked, and those of its
process. What the loop over the turns builds is read off the pieces of the turns.
-/

namespace Attyd.Presentation

open Json (Value)
open Layout (Piece row ranges)

/-- A compaction update has no summary, an array of blocks, or `null`. -/
def SummaryTyped (update : Value) : Prop :=
  kind update = "compaction_update" →
    ∀ summary, update.get "summary" = some summary → summary.isNull = true ∨ summary.isArray = true

section Materialize

/-- The state of a compaction while its updates are merged. -/
structure Merging (result : Value) : Prop where
  isObject : result.isObject = true
  summary : (result.index "summary").isArray = true

theorem Merging.set {result : Value} (h : Merging result) {field : String} {value : Value}
    (hfield : field = "summary" → value.isArray = true) : Merging (result.set field value) := by
  refine ⟨by rw [Value.isObject_set, h.isObject], ?_⟩
  rw [Value.index]
  by_cases hf : field = "summary"
  · rw [hf, Value.get_set_self h.isObject]
    exact hfield hf
  · rw [Value.get_set_of_ne (Ne.symm hf)]
    exact h.summary

theorem Merging.write {result update : Value} (h : Merging result)
    (htyped : ∀ summary, update.get "summary" = some summary →
      summary.isNull = true ∨ summary.isArray = true) (field : String) :
    Merging (Entry.writeCompaction update result field) := by
  rw [Entry.writeCompaction]
  cases hget : update.get field with
  | none => exact h
  | some value =>
      refine h.set fun hfield => ?_
      subst hfield
      cases hnull : value.isNull with
      | true => rfl
      | false => simpa [hnull] using htyped value hget

/-- A typed update is merged. -/
theorem Merging.compact {result update : Value} (h : Merging result)
    (hkind : isCompaction (kind update) = true) (htyped : SummaryTyped update) :
    ∃ merged, Entry.compact result update = some merged ∧ Merging merged := by
  rw [Entry.compact]
  split
  · have harray := h.summary
    cases hs : result.index "summary" with
    | array summary => exact ⟨_, rfl, h.set fun _ => rfl⟩
    | _ => rw [hs] at harray; cases harray
  · next hchunk =>
      have hupdate : kind update = "compaction_update" := by
        simpa [isCompaction, hchunk] using hkind
      exact ⟨_, rfl, ((h.write (htyped hupdate) _).write (htyped hupdate) _).write
        (htyped hupdate) _⟩

theorem merging_foldlM {updates : List Value} {result : Value} (h : Merging result)
    (hkind : ∀ update ∈ updates, isCompaction (kind update) = true)
    (htyped : ∀ update ∈ updates, SummaryTyped update) :
    (updates.foldlM Entry.compact result).isSome = true := by
  induction updates generalizing result with
  | nil => rfl
  | cons update updates ih =>
      obtain ⟨hkind₁, hkind⟩ := List.forall_mem_cons.mp hkind
      obtain ⟨htyped₁, htyped⟩ := List.forall_mem_cons.mp htyped
      obtain ⟨merged, hmerged, hnext⟩ := h.compact hkind₁ htyped₁
      rw [List.foldlM_cons, hmerged]
      exact ih hnext hkind htyped

/-- A kind of the family of compactions is one of theirs. -/
theorem isCompaction_of_family {kind : String} (h : family kind = .compaction) :
    isCompaction kind = true := by
  by_contra hn
  rw [family] at h
  split at h
  · cases h
  · split at h <;> cases h

/-- An entry of typed updates is materialized. -/
theorem Entry.Uniform.materialize_isSome {entry : Entry} (h : entry.Uniform)
    (htyped : ∀ update ∈ entry.updates, SummaryTyped update) :
    entry.materialize.isSome = true := by
  rw [Entry.materialize]
  split
  · rfl
  · split
    · rfl
    · split
      · next hcompaction =>
          rw [Option.isSome_map]
          refine merging_foldlM ⟨rfl, ?_⟩ (fun update hupdate => ?_) htyped
          · simp [Value.ofFields, Value.index, Value.get_set, Value.isArray]
          · have hfamily := h update hupdate
            rw [family_compaction hcompaction] at hfamily
            exact isCompaction_of_family hfamily
      · rfl

end Materialize

/-- The updates an entry is shown by. -/
def Entry.shown (self : Entry) : List Value := self.materialize.getD []

namespace Turn

/-- Every entry can be shown. -/
def Renders (turn : Turn) : Prop := ∀ entry ∈ turn.entries, entry.materialize.isSome = true

def piece (self : Turn) (item : Entry × Nat) : Piece Value :=
  ⟨!self.isProcess item.2 item.1, item.1.shown⟩

/-- The entries that are shown, those outside the process being marked. -/
def pieces (self : Turn) (processIncluded : Bool) : List (Piece Value) :=
  (self.entries.zipIdx.map self.piece).filter fun piece => piece.marked || processIncluded

/-- Without its process a turn shows its marked pieces. -/
theorem pieces_false (turn : Turn) (processIncluded : Bool) :
    turn.pieces false = (turn.pieces processIncluded).filter (·.marked) := by
  rw [pieces, pieces, List.filter_filter]
  refine List.filter_congr fun piece _ => ?_
  cases piece.marked <;> cases processIncluded <;> rfl

end Turn

section Emission

variable {turn : Turn} {processIncluded : Bool}

/-- The loop over the entries lays out their pieces. -/
theorem emission_foldlM (items : List (Entry × Nat))
    (h : ∀ item ∈ items, item.1.materialize.isSome = true) (emission : Emission) :
    items.foldlM (Emission.admitEntry turn processIncluded) emission =
      some (let pieces := (items.map turn.piece).filter fun p => p.marked || processIncluded
        { timeline := emission.timeline ++ row pieces
          processCount := emission.processCount +
            (items.filter fun item => turn.isProcess item.2 item.1).length
          visibleRanges := emission.visibleRanges ++ ranges emission.timeline.length pieces }) := by
  induction items generalizing emission with
  | nil => simp [row, ranges]
  | cons item items ih =>
      obtain ⟨hitem, hitems⟩ := List.forall_mem_cons.mp h
      obtain ⟨updates, hupdates⟩ := Option.isSome_iff_exists.mp hitem
      have hshown : item.1.shown = updates := by rw [Entry.shown, hupdates, Option.getD_some]
      rw [List.foldlM_cons]
      cases hprocess : turn.isProcess item.2 item.1 <;> cases processIncluded <;>
        simp [Emission.admitEntry, hprocess, hupdates, ih hitems, Turn.piece, hshown, ranges,
          Nat.add_assoc, Nat.add_comm 1]

end Emission

/-- What the compact view says about a turn that is shown from `before` on. -/
def Turn.descriptor (self : Turn) (historyRevision : Value) (processIncluded : Bool)
    (before : Nat) : CollapsedTurn :=
  let pieces := self.pieces processIncluded
  let after := before + (row pieces).length
  { turnId := self.id
    operationId := self.operation
    visibleRanges := some (ranges before pieces)
    beforeUpdate := before
    afterUpdate := after
    processCount := self.process.length
    processIncluded := if processIncluded then some true else none
    historyRevision
    outcomes := self.outcomes.map (moveOutcome after) }

/-- A turn with the decision on its process. -/
abbrev ShownTurn := Turn × Bool

/-- The timeline of the turns that are shown. -/
def shownTimeline (shown : List ShownTurn) : List Value :=
  shown.flatMap fun turn => row (turn.1.pieces turn.2)

/-- The descriptors of the turns that are shown from `before` on. -/
def shownDescriptors (historyRevision : Value) : Nat → List ShownTurn → List CollapsedTurn
  | _, [] => []
  | before, turn :: shown =>
      let descriptor := turn.1.descriptor historyRevision turn.2 before
      descriptor :: shownDescriptors historyRevision descriptor.afterUpdate shown

namespace Compaction

variable {historyRevision : Value} {s : Compaction}

/-- A turn is shown behind what has been shown. -/
theorem emit_eq {turn : Turn} (h : turn.Renders) (processIncluded : Bool) (s : Compaction) :
    s.emit historyRevision turn processIncluded =
      some (let descriptor := turn.descriptor historyRevision processIncluded s.timeline.length
        { s with
          timeline := s.timeline ++ row (turn.pieces processIncluded)
          descriptors := s.descriptors ++ [descriptor]
          outcomes := s.outcomes ++ descriptor.outcomes }) := by
  have hitems : ∀ item ∈ turn.entries.zipIdx, item.1.materialize.isSome = true := by
    rintro ⟨entry, index⟩ hitem
    exact h entry (List.fst_mem_of_mem_zipIdx hitem)
  rw [emit, emission_foldlM _ hitems]
  simp [Turn.descriptor, Turn.pieces, Turn.process]

/-- The turns are shown with the decisions that are given. -/
def emitAll (historyRevision : Value) (shown : List ShownTurn) : Option Compaction :=
  shown.foldlM (fun s turn => s.emit historyRevision turn.1 turn.2) .new

theorem emitAll_aux (shown : List ShownTurn) (h : ∀ turn ∈ shown, turn.1.Renders)
    (s : Compaction) :
    shown.foldlM (fun s turn => s.emit historyRevision turn.1 turn.2) s =
      some (let descriptors := shownDescriptors historyRevision s.timeline.length shown
        { s with
          timeline := s.timeline ++ shownTimeline shown
          descriptors := s.descriptors ++ descriptors
          outcomes := s.outcomes ++ descriptors.flatMap (·.outcomes) }) := by
  induction shown generalizing s with
  | nil => simp [shownTimeline, shownDescriptors]
  | cons turn shown ih =>
      obtain ⟨hturn, hshown⟩ := List.forall_mem_cons.mp h
      rw [List.foldlM_cons, emit_eq hturn, Option.bind_eq_bind, Option.bind_some, ih hshown]
      simp [shownTimeline, shownDescriptors, Turn.descriptor]

theorem emitAll_eq {shown : List ShownTurn} (h : ∀ turn ∈ shown, turn.1.Renders) :
    emitAll historyRevision shown =
      some (let descriptors := shownDescriptors historyRevision 0 shown
        ⟨shownTimeline shown, descriptors, descriptors.flatMap (·.outcomes), false⟩) := by
  rw [emitAll, emitAll_aux shown h]
  rfl

end Compaction

/-- The turns with the decisions that the include-from operation and the exclusions make. -/
def shownTurns (includeProcessFrom : Option String) (excludedOperations : List String) :
    Bool → List Turn → List ShownTurn
  | _, [] => []
  | observed, turn :: turns =>
      let observed := observed ||
        includeProcessFrom.any fun operationId => turn.matchesOperation (· = operationId)
      (turn, observed && !turn.matchesOperation (excludedOperations.contains ·)) ::
        shownTurns includeProcessFrom excludedOperations observed turns

theorem map_shownTurns (includeProcessFrom : Option String) (excludedOperations : List String)
    (observed : Bool) (turns : List Turn) :
    (shownTurns includeProcessFrom excludedOperations observed turns).map (·.1) = turns := by
  induction turns generalizing observed with
  | nil => rfl
  | cons turn turns ih => rw [shownTurns, List.map_cons, ih]

/-- The loop over the turns shows them with these decisions. -/
theorem compactTurns_aux (historyRevision : Value) (includeProcessFrom : Option String)
    (excludedOperations : List String) {turns : List Turn} (h : ∀ turn ∈ turns, turn.Renders)
    (s : Compaction) :
    ∃ observedSuffix, turns.foldlM
        (Compaction.turn historyRevision includeProcessFrom excludedOperations) s =
      some (let shown := shownTurns includeProcessFrom excludedOperations s.observedSuffix turns
        let descriptors := shownDescriptors historyRevision s.timeline.length shown
        { timeline := s.timeline ++ shownTimeline shown
          descriptors := s.descriptors ++ descriptors
          outcomes := s.outcomes ++ descriptors.flatMap (·.outcomes)
          observedSuffix }) := by
  induction turns generalizing s with
  | nil => exact ⟨s.observedSuffix, by simp [shownTurns, shownTimeline, shownDescriptors]⟩
  | cons turn turns ih =>
      obtain ⟨hturn, hturns⟩ := List.forall_mem_cons.mp h
      obtain ⟨observedSuffix, hrest⟩ := ih hturns _
      refine ⟨observedSuffix, ?_⟩
      rw [List.foldlM_cons, Compaction.turn, Compaction.emit_eq hturn, Option.bind_eq_bind,
        Option.bind_some, hrest]
      simp [shownTurns, shownTimeline, shownDescriptors, Turn.descriptor]

theorem compactTurns_eq (historyRevision : Value) (includeProcessFrom : Option String)
    (excludedOperations : List String) {turns : List Turn} (h : ∀ turn ∈ turns, turn.Renders) :
    ∃ observedSuffix, compactTurns historyRevision includeProcessFrom excludedOperations turns =
      some (let shown := shownTurns includeProcessFrom excludedOperations false turns
        let descriptors := shownDescriptors historyRevision 0 shown
        ⟨shownTimeline shown, descriptors, descriptors.flatMap (·.outcomes), observedSuffix⟩) :=
  compactTurns_aux historyRevision includeProcessFrom excludedOperations h .new

/-- The entries of the turns hold updates of the timeline, those of one family each. -/
theorem Covers.forall_entries {turns : List Turn} {timeline : List Value}
    (h : Covers turns timeline) : ∀ turn ∈ turns, ∀ entry ∈ turn.entries,
      entry.Uniform ∧ ∀ update ∈ entry.updates, update ∈ timeline := by
  induction h with
  | nil => simp
  | @turn turns before stretch turn h hentries hends ih =>
      intro turn' hturn' entry hentry
      rcases List.mem_append.mp hturn' with hturn' | hturn'
      · obtain ⟨huniform, hmem⟩ := ih turn' hturn' entry hentry
        exact ⟨huniform, fun update hupdate => List.mem_append_left _ (hmem update hupdate)⟩
      · rw [List.mem_singleton.mp hturn', hentries] at hentry
        exact ⟨uniform_entries hentry,
          fun update hupdate => List.mem_append_right _ (mem_of_mem_entries hentry hupdate)⟩
  | skip h hentries ih =>
      intro turn' hturn' entry hentry
      obtain ⟨huniform, hmem⟩ := ih turn' hturn' entry hentry
      exact ⟨huniform, fun update hupdate => List.mem_append_left _ (hmem update hupdate)⟩

/-- The turns of a well-typed timeline can be shown. -/
theorem renders_turnsOf {updates : List Value} (outcomes : List Value)
    (htyped : ∀ update ∈ updates, SummaryTyped update) :
    ∀ turn ∈ turnsOf updates outcomes, turn.Renders := by
  intro turn hturn entry hentry
  obtain ⟨huniform, hmem⟩ :=
    (sound_turnsOf updates outcomes).1.forall_entries turn hturn entry hentry
  exact huniform.materialize_isSome fun update hupdate => htyped update (hmem update hupdate)

end Attyd.Presentation
