import Attyd.Session.MirrorFaces

/-!
# The operations as steps of the board

Every operation of the runtime takes the board of the registry through one step. This
module has the board of a registry, the operations that register, remove and reserve a
session, and those on the history.
-/

namespace Attyd.Session

open Json (Value)
open History

variable {σ δ : Type} [Inhabited σ] [DecidableEq δ]

omit [Inhabited σ] [DecidableEq δ] in
def SessionRegistry.board (r : SessionRegistry σ δ) : Board where
  faces := Table.map (·.state.face) r.sessions
  connection := r.connectionInteractions
  effects := answers r.effects

/-- A step of the board with the given report. -/
def Board.StepFor (called : Caller) (report : Report) (b b' : Board) : Prop :=
  ∃ action : BoardAction, action.report = report ∧ Board.Step called action b b'

section Written

omit [Inhabited σ] [DecidableEq δ]

variable {r r' : SessionRegistry σ δ} {sessionId : String}

theorem face_eq (r : SessionRegistry σ δ) (sessionId : String) :
    r.board.faces.lookup sessionId = (r.state sessionId).map (·.face) := by
  rw [SessionRegistry.board, Table.lookup_map, SessionRegistry.state, Option.map_map]
  rfl

theorem lookup_faces {a : SessionState δ} (h : r.state sessionId = some a) :
    r.board.faces.lookup sessionId = some a.face := by
  rw [face_eq, h]
  rfl

theorem Board.Keyed.state {a : SessionState δ} (hkeyed : r.board.Keyed)
    (ha : r.state sessionId = some a) : a.sessionId = sessionId :=
  hkeyed sessionId a.face (lookup_faces ha)

theorem board_setFace {b : SessionState δ} (hside : r'.side = r.side)
    (hown : r'.state sessionId = some b)
    (hother : ∀ other ≠ sessionId, r'.state other = r.state other) :
    r'.board = r.board.setFace sessionId b.face := by
  have hfaces : r'.board.faces = r.board.faces.insert sessionId b.face := by
    refine Finmap.ext_lookup fun other => ?_
    by_cases ho : other = sessionId
    · rw [ho, Finmap.lookup_insert, lookup_faces hown]
    · rw [Finmap.lookup_insert_of_ne _ ho, face_eq, face_eq, hother other ho]
  have hconnection : r'.connectionInteractions = r.connectionInteractions := congrArg Prod.fst hside
  have heffects : r'.effects = r.effects := congrArg Prod.snd hside
  rw [SessionRegistry.board, SessionRegistry.board, Board.setFace, hconnection, heffects]
  exact congrArg (Board.mk · _ _) hfaces

theorem board_same (hside : r'.side = r.side)
    (hfaces : ∀ id, (r'.state id).map (·.face) = (r.state id).map (·.face)) :
    r'.board = r.board := by
  have hall : r'.board.faces = r.board.faces :=
    Finmap.ext_lookup fun id => by rw [face_eq, face_eq, hfaces id]
  have hconnection : r'.connectionInteractions = r.connectionInteractions := congrArg Prod.fst hside
  have heffects : r'.effects = r.effects := congrArg Prod.snd hside
  rw [SessionRegistry.board, SessionRegistry.board, hconnection, heffects]
  exact congrArg (Board.mk · _ _) hall

theorem board_erase (hside : r'.side = r.side) (hown : r'.state sessionId = none)
    (hother : ∀ other ≠ sessionId, r'.state other = r.state other) :
    r'.board = { r.board with faces := r.board.faces.erase sessionId } := by
  have hfaces : r'.board.faces = r.board.faces.erase sessionId := by
    refine Finmap.ext_lookup fun other => ?_
    by_cases ho : other = sessionId
    · rw [ho, Finmap.lookup_erase, face_eq, hown]
      rfl
    · rw [Finmap.lookup_erase_ne ho, face_eq, face_eq, hother other ho]
  have hconnection : r'.connectionInteractions = r.connectionInteractions := congrArg Prod.fst hside
  have heffects : r'.effects = r.effects := congrArg Prod.snd hside
  rw [SessionRegistry.board, SessionRegistry.board, hconnection, heffects]
  exact congrArg (Board.mk · _ _) hfaces

variable {called : Caller}

/-- A step that changes nothing. -/
theorem Board.StepFor.rests (b : Board) : Board.StepFor called .silent b b := ⟨.rests, rfl, .rests⟩

/-- The step of a session whose state was written. -/
theorem stepFor_setFace {a b : SessionState δ} (action : FaceAction) (hside : r'.side = r.side)
    (ha : r.state sessionId = some a) (hown : r'.state sessionId = some b)
    (hother : ∀ other ≠ sessionId, r'.state other = r.state other)
    (haction : (BoardAction.face sessionId a.incarnation action).report = .silent)
    (hstep : Face.Step called (· ∈ r.board.operationIds) (· ∈ r.board.urlIds) sessionId action 0
      a.face b.face) :
    Board.StepFor called .silent r.board r'.board := by
  refine ⟨_, haction, ?_⟩
  have hboard := Board.Step.face sessionId (lookup_faces ha) hstep
  rw [add_zero] at hboard
  rw [board_setFace hside hown hother]
  exact hboard

/-- A session that rests, or is absent, is the whole step. -/
theorem stepFor_restsFrom (hside : r'.side = r.side)
    (hown : restsFrom ((r.state sessionId).map (·.face)) ((r'.state sessionId).map (·.face)))
    (hother : ∀ other ≠ sessionId, r'.state other = r.state other) :
    Board.StepFor called .silent r.board r'.board := by
  cases ha : r.state sessionId with
  | none =>
      rw [ha] at hown
      rw [board_same hside]
      · exact .rests _
      · intro id
        by_cases hid : id = sessionId
        · rw [hid, ha]
          exact hown
        · rw [hother id hid]
  | some a =>
      rw [ha] at hown
      obtain ⟨face, hface, execution, hexecution, rfl⟩ := hown
      obtain ⟨b, hb, hbface⟩ := Option.map_eq_some_iff.mp hface
      refine stepFor_setFace .rests hside ha hb hother rfl ?_
      rw [hbface]
      exact .rests execution hexecution

end Written

section Registration

omit [DecidableEq δ]

variable {called : Caller} (r : SessionRegistry σ δ) (sessionId : String) (incarnation : Nat)

/-- A session that is cleared keeps its live side and its operation. -/
theorem clearHistoryForReplacement_state {a : SessionState δ} (ha : r.state sessionId = some a)
    (hkey : a.sessionId = sessionId) (hi : a.incarnation = incarnation) :
    ∃ b, (r.clearHistoryForReplacement sessionId incarnation).state sessionId = some b ∧
      b.face = { a.face with execution := none } ∧
      ∀ other ≠ sessionId,
        (r.clearHistoryForReplacement sessionId incarnation).state other = r.state other := by
  unfold SessionRegistry.clearHistoryForReplacement
  rw [requireState_eq_ok.mpr ⟨ha, hi⟩]
  dsimp only
  obtain ⟨t, n, hremove⟩ := removeRetainedTerminals_eq
    { r.putState sessionId
        { SessionState.cold sessionId incarnation with
          live := a.live
          operation := a.operation
          viewRevision := nextCounter a.viewRevision } with
      overlayBytes := r.overlayBytes - a.activeOverlayBytes } ⟨sessionId, incarnation⟩
  have hw := written_putState ha
    { SessionState.cold sessionId incarnation with
      live := a.live
      operation := a.operation
      viewRevision := nextCounter a.viewRevision }
  rw [hremove]
  refine ⟨_, hw.state, ?_, hw.states⟩
  simp [SessionState.face, SessionState.cold, SessionState.turnExecution, hi, hkey]

theorem clearHistoryForReplacement_stepFor (hkeyed : r.board.Keyed) :
    Board.StepFor called .silent r.board
      (r.clearHistoryForReplacement sessionId incarnation).board := by
  by_cases h : ∃ a, r.state sessionId = some a ∧ a.incarnation = incarnation
  · obtain ⟨a, ha, hi⟩ := h
    obtain ⟨b, hb, hface, hother⟩ := clearHistoryForReplacement_state r sessionId incarnation ha
      (hkeyed.state ha) hi
    refine stepFor_setFace .rests
      (SessionRegistry.side_clearHistoryForReplacement ..) ha hb hother rfl ?_
    rw [hface]
    exact .rests none (.inr rfl)
  · rcases clearHistoryForReplacement_cases r sessionId incarnation with
      ⟨-, hsame⟩ | ⟨a, -, ha, hi, -⟩
    · rw [hsame]
      exact .rests _
    · exact absurd ⟨a, ha, hi⟩ h

omit [Inhabited σ] in
theorem retireEntry_state {a : SessionState δ} (ha : r.state sessionId = some a)
    (hi : a.incarnation = incarnation) :
    (r.retireEntry sessionId incarnation).state sessionId = none ∧
      ∀ other ≠ sessionId, (r.retireEntry sessionId incarnation).state other = r.state other := by
  unfold SessionRegistry.retireEntry
  rw [requireState_eq_ok.mpr ⟨ha, hi⟩]
  refine ⟨?_, fun other ho => ?_⟩
  · simp [SessionRegistry.state]
  · simp [SessionRegistry.state, Finmap.lookup_erase_ne ho]

/-- Whatever was known under an id, only its own incarnation stays, without a turn. -/
theorem replaceIncarnation_state (hkey : ∀ a, r.state sessionId = some a → a.sessionId = sessionId) :
    (∀ other ≠ sessionId,
        (r.replaceIncarnation sessionId incarnation).state other = r.state other) ∧
      ((r.replaceIncarnation sessionId incarnation).state sessionId = none ∧
          (∀ a, r.state sessionId = some a → a.incarnation ≠ incarnation) ∨
        ∃ a b, r.state sessionId = some a ∧ a.incarnation = incarnation ∧
          (r.replaceIncarnation sessionId incarnation).state sessionId = some b ∧
          b.face = { a.face with execution := none }) := by
  unfold SessionRegistry.replaceIncarnation
  cases ha : r.state sessionId with
  | none => exact ⟨fun _ _ => rfl, .inl ⟨ha, by simp⟩⟩
  | some a =>
      obtain ⟨b, hb, hface, hother⟩ :=
        clearHistoryForReplacement_state r sessionId a.incarnation ha (hkey a ha) rfl
      dsimp only
      by_cases hi : a.incarnation = incarnation
      · rw [if_neg (not_not.mpr hi)]
        exact ⟨hother, .inr ⟨a, b, rfl, hi, hb, hface⟩⟩
      · rw [if_pos hi]
        have hbi : b.incarnation = a.incarnation := congrArg Face.incarnation hface
        obtain ⟨hnone, hstay⟩ := retireEntry_state _ sessionId a.incarnation hb hbi
        refine ⟨fun other ho => (hstay other ho).trans (hother other ho), .inl ⟨hnone, ?_⟩⟩
        rintro c ⟨⟩
        exact hi

theorem registerHistory_faces (ready : Bool)
    (hkey : ∀ a, r.state sessionId = some a → a.sessionId = sessionId) :
    (∀ other ≠ sessionId,
        (r.registerHistory sessionId incarnation ready).state other = r.state other) ∧
      ∃ b, (r.registerHistory sessionId incarnation ready).state sessionId = some b ∧
        (b.face = ⟨sessionId, incarnation, none, none, none⟩ ∧
            (∀ a, r.state sessionId = some a → a.incarnation ≠ incarnation) ∨
          ∃ a, r.state sessionId = some a ∧ a.incarnation = incarnation ∧
            b.face = { a.face with execution := none }) := by
  obtain ⟨hother, hown⟩ := replaceIncarnation_state
    { r with nextIncarnation := max r.nextIncarnation incarnation } sessionId incarnation hkey
  unfold SessionRegistry.registerHistory
  dsimp only
  generalize SessionRegistry.replaceIncarnation
    { r with nextIncarnation := max r.nextIncarnation incarnation } sessionId incarnation = r₁
    at hother hown ⊢
  cases hs : r₁.sessions.lookup sessionId with
  | none =>
      have hnew : ∀ a, r.state sessionId = some a → a.incarnation ≠ incarnation := by
        rcases hown with ⟨-, hnew⟩ | ⟨a, b, -, -, hb, -⟩
        · exact hnew
        · simp [SessionRegistry.state, hs] at hb
      have hw := written_insert r₁ sessionId
        (r₁.history.installEmpty ⟨sessionId, incarnation⟩).2
        ⟨if ready then .ready sessionId incarnation
          (r₁.history.installEmpty ⟨sessionId, incarnation⟩).1.revision
          else .cold sessionId incarnation, false⟩
      refine ⟨fun other ho => (hw.states other ho).trans (hother other ho), _, hw.state,
        .inl ⟨?_, hnew⟩⟩
      cases ready <;> rfl
  | some entry =>
      have hentry : r₁.state sessionId = some entry.state := by simp [SessionRegistry.state, hs]
      rcases hown with ⟨hnone, -⟩ | ⟨a, b, ha, hi, hb, hface⟩
      · rw [hentry] at hnone
        cases hnone
      · cases hentry.symm.trans hb
        refine ⟨fun other ho => ?_, _, (written_insert r₁ sessionId
          (r₁.history.installEmpty ⟨sessionId, incarnation⟩).2 { entry with state := _ }).state,
          .inr ⟨a, ha, hi, ?_⟩⟩
        · exact ((written_insert r₁ sessionId
            (r₁.history.installEmpty ⟨sessionId, incarnation⟩).2
            { entry with state := _ }).states other ho).trans (hother other ho)
        · have hlive : entry.state.live.map (·.face) = a.live.map (·.face) := congrArg Face.live hface
          have hoperation : entry.state.operation = a.operation := congrArg Face.operation hface
          cases ready <;>
            simp [SessionState.face, SessionState.turnExecution, SessionState.cold,
              SessionState.ready, hi, hlive, hoperation, hkey a ha]

/-- A session is registered under the incarnation it has, or anew. -/
theorem registerHistory_stepFor (ready : Bool) (hkeyed : r.board.Keyed)
    (hcalled : called.serves → ∀ a, r.state sessionId = some a → a.incarnation = incarnation) :
    Board.StepFor called .silent r.board (r.registerHistory sessionId incarnation ready).board := by
  obtain ⟨hother, b, hb, hface⟩ := registerHistory_faces r sessionId incarnation ready
    fun _ ha => hkeyed.state ha
  have hside := SessionRegistry.side_registerHistory r sessionId incarnation ready
  rcases hface with ⟨hface, hnew⟩ | ⟨a, ha, -, hface⟩
  · refine ⟨.registers sessionId, rfl, ?_⟩
    rw [board_setFace hside hb hother, hface]
    refine .registers sessionId incarnation fun hc => ?_
    rw [face_eq, Option.map_eq_none_iff]
    cases ha : r.state sessionId with
    | none => rfl
    | some a => exact absurd (hcalled hc a ha) (hnew a ha)
  · refine stepFor_setFace .rests hside ha hb hother rfl ?_
    rw [hface]
    exact .rests none (.inr rfl)

end Registration

section Ids

omit [Inhabited σ] [DecidableEq δ]

theorem mem_idsOf {o : Option String} {id : String} : id ∈ idsOf o ↔ o = some id := by
  cases o with
  | none => simp [idsOf]
  | some other => simp [idsOf, eq_comm]

theorem Ledger.mem_operationIds {d : Ledger} {id : String} :
    id ∈ d.operationIds ↔ ∃ key interaction, d.pending.lookup key = some interaction ∧
      interaction.respondingOperationId = some id := by
  simp only [Ledger.operationIds, Table.mem_sum, mem_idsOf]

/-- The interactions of a ledger that an operation responds to. -/
theorem Ledger.any_responding {pending : Table String PendingInteraction} {id : String} :
    pending.any (fun _ interaction => decide (interaction.respondingOperationId = some id)) =
        true ↔
      id ∈ Ledger.operationIds ⟨pending, 0⟩ := by
  rw [Table.any_eq_true, Ledger.mem_operationIds]
  simp only [decide_eq_true_eq]

theorem mem_operationIds_live {live : SessionLiveState} {id : String} :
    id ∈ live.interactions.operationIds ↔
      (live.permissions.any (fun _ interaction =>
          decide (interaction.respondingOperationId = some id)) ||
        live.elicitations.any (fun _ interaction =>
          decide (interaction.respondingOperationId = some id))) = true := by
  rw [Bool.or_eq_true, Ledger.any_responding, Ledger.any_responding, Interactions.operationIds,
    Multiset.mem_add]
  rfl

/-- The ids a session holds, apart from a reservation that is exempt. -/
theorem mem_operationIds_face {a : SessionState δ} {id : String} :
    id ∈ a.face.operationIds ↔
      a.turnExecution.any (fun execution => execution.rpcOperationId = id) = true ∨
        a.operation.any (fun operation => operation.operationId = id) = true ∨
        a.live.any (fun live => live.permissions.any (fun _ interaction =>
            decide (interaction.respondingOperationId = some id)) ||
          live.elicitations.any fun _ interaction =>
            decide (interaction.respondingOperationId = some id)) = true := by
  rw [Face.operationIds, Multiset.mem_add, Multiset.mem_add, mem_idsOf, mem_idsOf, or_assoc]
  refine or_congr ?_ (or_congr ?_ ?_)
  · cases h : a.turnExecution <;> simp [SessionState.face, h]
  · cases h : a.operation <;> simp [SessionState.face, h]
  · cases h : a.live with
    | none => simp [SessionState.face, h]
    | some live =>
        simp only [SessionState.face, h, Option.map_some, Option.elim_some, Option.any_some]
        exact mem_operationIds_live

variable {r : SessionRegistry σ δ} {operationId : String}

/-- An id that is in use is held by some session or by the connection. -/
theorem mem_board_operationIds :
    operationId ∈ r.board.operationIds ↔
      (∃ id a, r.state id = some a ∧ operationId ∈ a.face.operationIds) ∨
        operationId ∈ r.connectionInteractions.operationIds := by
  rw [Board.operationIds, Multiset.mem_add, Table.mem_sum]
  refine or_congr_left ?_
  constructor
  · rintro ⟨id, face, hface, hmem⟩
    rw [face_eq] at hface
    obtain ⟨a, ha, rfl⟩ := Option.map_eq_some_iff.mp hface
    exact ⟨id, a, ha, hmem⟩
  · rintro ⟨id, a, ha, hmem⟩
    exact ⟨id, a.face, lookup_faces ha, hmem⟩

/-- An id that is not in use, a reservation apart, is held by that reservation alone. -/
theorem operationInUseExceptReserved_eq_false
    {reservation : Option (String × Nat × SessionOperationKind)}
    (h : r.operationInUseExceptReserved operationId reservation = false) :
    operationId ∉ r.connectionInteractions.operationIds ∧
      ∀ id a, r.state id = some a → operationId ∈ a.face.operationIds →
        ∃ o, a.operation = some o ∧ o.stage = "reserved" ∧
          reservation = some (a.sessionId, a.incarnation, o.kind) := by
  unfold SessionRegistry.operationInUseExceptReserved at h
  rw [Bool.or_eq_false_iff, ← Bool.not_eq_true, ← Bool.not_eq_true] at h
  obtain ⟨hsessions, hconnection⟩ := h
  refine ⟨?_, ?_⟩
  · intro hmem
    rw [Interactions.operationIds, Multiset.mem_add] at hmem
    rcases hmem with hmem | hmem
    · cases hmem
    · exact hconnection (Ledger.any_responding.mpr hmem)
  · intro id a ha hmem
    obtain ⟨entry, hentry, rfl⟩ := Option.map_eq_some_iff.mp ha
    rw [Table.any_eq_true] at hsessions
    have hnot := fun hany => hsessions ⟨id, entry, hentry, hany⟩
    simp only [Bool.or_eq_true] at hnot
    rcases mem_operationIds_face.mp hmem with hturn | hop | hlive
    · exact absurd (.inl (.inl hturn)) hnot
    · obtain ⟨o, ho, hid⟩ := (Option.any_eq_true _ _).mp hop
      refine ⟨o, ho, ?_⟩
      by_contra hfree
      refine hnot (.inl (.inr ?_))
      rw [ho, Option.any_some]
      simp only [Bool.and_eq_true, hid, true_and, Bool.not_eq_true', Bool.and_eq_false_iff,
        decide_eq_false_iff_not]
      exact not_and_or.mp hfree
    · exact absurd (.inr hlive) hnot

theorem operationInUse_eq_false (h : r.operationInUse operationId = false) :
    operationId ∉ r.board.operationIds := by
  obtain ⟨hconnection, hsessions⟩ := operationInUseExceptReserved_eq_false h
  rw [mem_board_operationIds, not_or]
  refine ⟨?_, hconnection⟩
  rintro ⟨id, a, ha, hmem⟩
  obtain ⟨o, -, -, hnone⟩ := hsessions id a ha hmem
  cases hnone

/-- An id that may start an operation is unused, or reserved in the session itself. -/
theorem checkOperationId_eq_ok {sessionId : String} {incarnation : Nat}
    {kind : SessionOperationKind} (hkeyed : r.board.Keyed)
    (h : r.checkOperationId sessionId incarnation operationId kind = .ok ()) {a : SessionState δ}
    (ha : r.state sessionId = some a) (hfree : a.operation = none) :
    operationId ∉ r.board.operationIds := by
  rw [SessionRegistry.checkOperationId, ite_error_eq_ok, Bool.not_eq_true] at h
  obtain ⟨hconnection, hsessions⟩ := operationInUseExceptReserved_eq_false h.1
  rw [mem_board_operationIds, not_or]
  refine ⟨?_, hconnection⟩
  rintro ⟨id, b, hb, hmem⟩
  obtain ⟨o, ho, -, hreserved⟩ := hsessions id b hb hmem
  have hid : sessionId = b.sessionId := (Prod.mk.inj (Option.some.inj hreserved)).1
  rw [hkeyed.state hb] at hid
  subst hid
  cases ha.symm.trans hb
  rw [hfree] at ho
  cases ho

end Ids

section Mirror

variable {called : Caller} (r : SessionRegistry σ δ) (sessionId : String) (incarnation : Nat)

omit [DecidableEq δ] in
/-- A session is removed when nothing of it is left but its history. -/
theorem remove_stepFor (hkeyed : r.board.Keyed) :
    Board.StepFor called .silent r.board (r.remove sessionId incarnation).board := by
  have hclear : Board.StepFor called .silent r.board _ :=
    clearHistoryForReplacement_stepFor r sessionId incarnation hkeyed
  have hside : ((r.clearHistoryForReplacement sessionId incarnation).retireEntry sessionId
      incarnation).side = r.side :=
    (SessionRegistry.side_retireEntry ..).trans (SessionRegistry.side_clearHistoryForReplacement ..)
  simp only [SessionRegistry.remove]
  split
  · exact hclear
  · rename_i entry hentry
    split
    case isFalse => exact hclear
    case isTrue hgone =>
      have hb : (r.clearHistoryForReplacement sessionId incarnation).state sessionId =
          some entry.state := by simp [SessionRegistry.state, hentry]
      obtain ⟨hnone, hother⟩ := retireEntry_state _ sessionId incarnation hb hgone.1
      by_cases ha : ∃ a, r.state sessionId = some a ∧ a.incarnation = incarnation
      · obtain ⟨a, ha, hi⟩ := ha
        obtain ⟨b, hb', hface, hclearOther⟩ := clearHistoryForReplacement_state r sessionId
          incarnation ha (hkeyed.state ha) hi
        cases hb.symm.trans hb'
        have hlive : entry.state.live.map (·.face) = a.live.map (·.face) := congrArg Face.live hface
        have hoperation : entry.state.operation = a.operation := congrArg Face.operation hface
        refine ⟨.removes sessionId, rfl, ?_⟩
        rw [board_erase hside hnone fun other ho => (hother other ho).trans (hclearOther other ho)]
        refine .removes sessionId (lookup_faces ha) ?_ ?_
        · change a.live.map (·.face) = none
          rw [← hlive, Option.isNone_iff_eq_none.mp hgone.2.1]
          rfl
        · exact hoperation.symm.trans (Option.isNone_iff_eq_none.mp hgone.2.2.1)
      · rcases clearHistoryForReplacement_cases r sessionId incarnation with
          ⟨hno, hsame⟩ | ⟨a, -, ha', hi, -⟩
        · rw [hsame] at hb
          exact absurd ⟨_, hb, hgone.1⟩ ha
        · exact absurd ⟨a, ha', hi⟩ ha

omit [Inhabited σ] [DecidableEq δ] in
/-- A change of one session that is refused, or takes its face through a step. -/
theorem stateStep_stepFor {change : SessionState δ → Except MirrorError (SessionState δ)}
    (action : FaceAction)
    (haction : ∀ i, (BoardAction.face sessionId i action).report = .silent)
    (hchange : ∀ a b, r.state sessionId = some a → change a = .ok b →
      Face.Step called (· ∈ r.board.operationIds) (· ∈ r.board.urlIds) sessionId action 0
        a.face b.face) :
    Board.StepFor called .silent r.board (r.stateStep sessionId incarnation change).2.board := by
  rcases stateStep_cases r sessionId incarnation change with
    ⟨error, h⟩ | ⟨a, b, ha, -, hb, h⟩
  · rw [h]
    exact .rests _
  · rw [h]
    have hw := written_putState ha b
    exact stepFor_setFace action (SessionRegistry.side_putState ..) ha hw.state hw.states
      (haction _) (hchange a b ha hb)

omit [Inhabited σ] [DecidableEq δ] in
theorem beginExclusive_stepFor (kind : SessionOperationKind) (operationId : String)
    (horderly : called.orderly → kind = .delete ∨
      ∃ a live, r.state sessionId = some a ∧ a.live = some live ∧ live.lifecycle = .active) :
    Board.StepFor called .silent r.board
      (r.beginExclusive sessionId incarnation kind operationId).2.board := by
  unfold SessionRegistry.beginExclusive
  split
  · exact .rests _
  · by_cases hused : r.operationInUse operationId = true
    · rw [if_pos hused]
      exact .rests _
    · rw [if_neg hused]
      have hunused := operationInUse_eq_false (Bool.eq_false_iff.mpr hused)
      refine stateStep_stepFor r sessionId incarnation (.starts operationId) (fun _ => rfl) ?_
      intro a b ha hb
      obtain ⟨u, hcan, hb⟩ := bind_eq_ok.mp hb
      cases hb
      have hfree : a.operation = none := by
        unfold SessionState.canBegin at hcan
        split at hcan
        case isTrue => cases hcan
        case isFalse hfree =>
          simp only [Bool.or_eq_true, not_or, Bool.not_eq_true, Option.isSome_eq_false_iff,
            Option.isNone_iff_eq_none] at hfree
          exact hfree.1
      refine .starts (a := a.face) ⟨operationId, kind, "reserved", none⟩ _ (.inl ⟨hfree, hunused⟩)
        (fun _ => by simp) rfl (fun b hb => .inl hb) ?_ ?_
      · rintro - ⟨o, ⟨⟩, -, hs⟩
        simp at hs
      · intro _ hc b hb hclosed
        rcases horderly hc with hk | ⟨a', live, ha', hlive, hactive⟩
        · exact ⟨hk, .inl ⟨rfl, rfl⟩⟩
        · cases ha.symm.trans ha'
          rw [SessionState.lifecycle_of_face hlive hb, hactive] at hclosed
          cases hclosed

omit [Inhabited σ] [DecidableEq δ] in
theorem settleExclusive_stepFor (kind : SessionAdmission) (operationId : String)
    (hcalled : called.serves → ∀ a, r.state sessionId = some a → a.stageIn ["cleanup"] = false)
    (horderly : called.orderly → ∀ a, r.state sessionId = some a →
      a.stageIn ["deleting"] = false) :
    Board.StepFor called .silent r.board
      (r.settleExclusive sessionId incarnation kind operationId).2.board := by
  refine stateStep_stepFor r sessionId incarnation (.ends operationId) (fun _ => rfl) ?_
  intro a b ha hb
  unfold SessionState.settleExclusive at hb
  split at hb
  case isFalse => cases hb
  case isTrue hany =>
    cases hb
    obtain ⟨o, ho, hid⟩ := (Option.any_eq_true _ _).mp hany
    simp only [Bool.and_eq_true, decide_eq_true_eq] at hid
    obtain ⟨-, rfl⟩ := hid
    refine .ends (a := a.face) _ ho ?_ rfl (fun b hb => .inl hb) ?_
    · intro hc hs
      have hstage := hcalled hc a ha
      simp [SessionState.stageIn, ho, hs] at hstage
    · rintro hc b hb (hclosed | ⟨o', ⟨⟩, -, hs⟩) b' hb'
      · rw [← Option.some.inj (hb.symm.trans hb')]
        exact hclosed
      · have hstage := horderly hc a ha
        simp [SessionState.stageIn, ho, hs] at hstage

omit [Inhabited σ] [DecidableEq δ] in
/-- Writing a session that rests, where nothing else shows. -/
theorem putState_stepFor {r r' : SessionRegistry σ δ} {sessionId : String} {a b : SessionState δ}
    (hside : r'.side = r.side) (hstates : ∀ id, r'.state id = r.state id)
    (ha : r.state sessionId = some a) (hrests : a.face.RestsAs b.face) :
    Board.StepFor called .silent r.board (r'.putState sessionId b).board := by
  have hw := written_putState ((hstates sessionId).trans ha) b
  obtain ⟨execution, hexecution, hb⟩ := hrests
  refine stepFor_setFace .rests ((SessionRegistry.side_putState ..).trans hside) ha hw.state
    (fun other ho => (hw.states other ho).trans (hstates other)) rfl ?_
  rw [hb]
  exact .rests execution hexecution

omit [Inhabited σ] [DecidableEq δ] in
theorem touch_stepFor :
    Board.StepFor called .silent r.board (r.touch sessionId incarnation).2.board := by
  unfold SessionRegistry.touch
  cases ha : r.requireState sessionId incarnation with
  | error error => exact .rests _
  | ok a => exact putState_stepFor rfl (fun _ => rfl) (requireState_eq_ok.mp ha).1 (.refl _)

omit [Inhabited σ] [DecidableEq δ] in
theorem retainTerminalOutput_stepFor (terminalId : String) (terminal : Value) :
    Board.StepFor called .silent r.board
      (r.retainTerminalOutput sessionId incarnation terminalId terminal).2.board := by
  simp only [SessionRegistry.retainTerminalOutput]
  cases ha : r.requireState sessionId incarnation with
  | error error => exact .rests _
  | ok a =>
      dsimp only
      split
      · exact .rests _
      · exact putState_stepFor rfl (fun _ => rfl) (requireState_eq_ok.mp ha).1 (.refl _)

/-- What a registry shows of all sessions, when at most one of them came to rest. -/
def RestsAt (r r' : SessionRegistry σ δ) (sessionId : String) : Prop :=
  restsFrom ((r.state sessionId).map (·.face)) ((r'.state sessionId).map (·.face)) ∧
    ∀ other ≠ sessionId, r'.state other = r.state other

omit [Inhabited σ] [DecidableEq δ] in
theorem RestsAt.trans {r r₁ r₂ : SessionRegistry σ δ} {sessionId : String}
    (h : RestsAt r r₁ sessionId) (h' : RestsAt r₁ r₂ sessionId) : RestsAt r r₂ sessionId :=
  ⟨h.1.trans h'.1, fun other ho => (h'.2 other ho).trans (h.2 other ho)⟩

omit [Inhabited σ] in
/-- An effect of kinds that rest leaves the session at rest. -/
theorem Effect.restsAt {sha256 : String → δ} {kinds : List Action} {r r' : SessionRegistry σ δ}
    {sessionId : String} (h : Effect sha256 sessionId kinds r r')
    (hk : ∀ kind ∈ kinds, kind.rests = true)
    (helapsed : (elapses kinds).Sublist [.elapsed]) : RestsAt r r' sessionId :=
  ⟨h.self.rests hk, fun other ho => ((h.other other ho).mono helapsed).elapsed_session⟩

omit [Inhabited σ] [DecidableEq δ] in
theorem modifyState_restsAt {f : SessionState δ → SessionState δ}
    (h : ∀ a : SessionState δ, a.face.RestsAs (f a).face) : RestsAt r (r.modifyState sessionId f) sessionId := by
  unfold SessionRegistry.modifyState
  cases ha : r.state sessionId with
  | none => exact ⟨.refl _, fun _ _ => rfl⟩
  | some a =>
      have hw := written_putState ha (f a)
      refine ⟨?_, hw.states⟩
      rw [ha, hw.state]
      exact ⟨_, rfl, h a⟩

theorem appendLoadUpdates_restsAt (sha256 : String → δ) (attemptId : String)
    (updates : List Value) :
    RestsAt r (SessionRegistry.appendLoadUpdates sessionId incarnation attemptId r updates).2
      sessionId :=
  (appendLoadUpdates_effect sha256 sessionId incarnation attemptId updates r).restsAt
    (by simp) (List.nil_sublist _)

/-- A history that comes from the cache of the bridge is no change of the face. -/
theorem useCachedHistory_restsAt (sha256 : String → δ) (updates : List Value) (notice : String) :
    RestsAt r (r.useCachedHistory sessionId incarnation updates notice).2 sessionId := by
  have refl : RestsAt r r sessionId := ⟨.refl _, fun _ _ => rfl⟩
  simp only [SessionRegistry.useCachedHistory]
  cases ha : r.requireState sessionId incarnation with
  | error error => exact refl
  | ok a =>
      have hstate := (requireState_eq_ok.mp ha).1
      dsimp only
      split
      · exact refl
      · have hw := written_putState hstate { a with phase := .cold }
        have hcold : RestsAt r (r.putState sessionId { a with phase := .cold }) sessionId := by
          refine ⟨?_, hw.states⟩
          rw [hstate, hw.state]
          exact ⟨_, rfl, .refl _⟩
        have hbegin := (beginLoad_effect sha256 (r.putState sessionId { a with phase := .cold })
          sessionId incarnation "bridge-cache-fallback").restsAt (by simp [Action.rests])
          (by decide)
        split
        · rename_i h
          rw [h] at hbegin
          exact hcold.trans hbegin
        · rename_i r₁ h
          rw [h] at hbegin
          have happend := appendLoadUpdates_restsAt r₁ sessionId incarnation sha256
            "bridge-cache-fallback" updates
          split
          · rename_i h
            rw [h] at happend
            exact (hcold.trans hbegin).trans happend
          · rename_i r₂ h
            rw [h] at happend
            have hcommit := (commitLoad_effect sha256 r₂ sessionId incarnation
              "bridge-cache-fallback").restsAt (by simp [Action.rests]) (by decide)
            split
            · rename_i h
              rw [h] at hcommit
              exact ((hcold.trans hbegin).trans happend).trans hcommit
            · rename_i r₃ h
              rw [h] at hcommit
              exact (((hcold.trans hbegin).trans happend).trans hcommit).trans
                (modifyState_restsAt r₃ sessionId fun a => .refl a.face)

/-- Every operation on the history is a step of the board that reports nothing. -/
theorem RegistryOp.stepFor (env : RuntimeEnv σ δ) (op : {op : RegistryOp // op.independent = true})
    (hkeyed : r.board.Keyed) :
    Board.StepFor (RuntimeOp.caller r (.mirror op)) .silent r.board
      ((RuntimeOp.mirror op).step env r).board := by
  obtain ⟨op, hop⟩ := op
  have hside := op.step_side env.sha256 env.validate r hop
  -- Most operations are known to rest by the kinds of their effect.
  have rests (id : String) (hid : op.owner = some id) (hk : ∀ kind ∈ op.kinds, kind.rests = true) :
      Board.StepFor (RuntimeOp.caller r (.mirror ⟨op, hop⟩)) .silent r.board
        (op.step env.sha256 env.validate r).board :=
    have hrests := (op.step_effect env.sha256 env.validate r hid).restsAt hk op.elapses_kinds
    stepFor_restsFrom hside hrests.1 hrests.2
  cases op with
  | registerCold id incarnation =>
      exact registerHistory_stepFor r id incarnation false hkeyed fun hc a ha => by
        simpa [RuntimeOp.caller, RuntimeOp.called, ha] using hc
  | registerNew id incarnation =>
      exact registerHistory_stepFor r id incarnation true hkeyed fun hc a ha => by
        simpa [RuntimeOp.caller, RuntimeOp.called, ha] using hc
  | clearHistoryForReplacement id incarnation =>
      exact clearHistoryForReplacement_stepFor r id incarnation hkeyed
  | remove id incarnation => exact remove_stepFor r id incarnation hkeyed
  | useCachedHistory id incarnation updates notice =>
      have hrests := useCachedHistory_restsAt r id incarnation env.sha256 updates notice
      exact stepFor_restsFrom hside hrests.1 hrests.2
  | retainTerminalOutput id incarnation terminalId terminal =>
      exact retainTerminalOutput_stepFor r id incarnation terminalId terminal
  | beginExclusive id incarnation kind operationId =>
      refine beginExclusive_stepFor r id incarnation kind operationId fun hc => ?_
      simpa [RuntimeOp.caller, RuntimeOp.orderly, Option.any_eq_true] using hc
  | settleExclusive id incarnation kind operationId =>
      refine settleExclusive_stepFor r id incarnation kind operationId ?_ ?_
      · intro hc a ha
        simpa [RuntimeOp.caller, RuntimeOp.called, ha] using hc
      · intro hc a ha
        simpa [RuntimeOp.caller, RuntimeOp.orderly, ha] using hc
  | touch id incarnation => exact touch_stepFor r id incarnation
  | handle replay op =>
      have hsame : (RegistryOp.step env.sha256 env.validate r (.handle replay op)).board =
        r.board := board_same hside fun _ => rfl
      exact hsame ▸ .rests _
  | startTurn | installLive | writeLive => cases hop
  | _ => exact rests _ rfl (by simp [RegistryOp.kinds, Action.rests])

end Mirror

end Attyd.Session
