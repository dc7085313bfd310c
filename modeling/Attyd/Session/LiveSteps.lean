import Attyd.Session.BoardSteps

/-!
# The operations on live sessions as steps of the board

A reducer that passes its checks takes the face of its session through the step of its
kind; one that fails changes nothing. Opening a session installs a fresh face, and a
turn is admitted only where nothing runs.
-/

namespace Attyd.Session

open Json (Value)
open History

variable {σ δ : Type} {called : Caller} {r : SessionRegistry σ δ}
  {sessionId : String} {incarnation : Nat}

section Reduce

variable {α : Type}

theorem requireLiveOwner_eq_ok {owner : SessionState δ} {live : SessionLiveState}
    (h : r.requireLiveOwner sessionId incarnation = .ok (owner, live)) :
    r.state sessionId = some owner ∧ owner.incarnation = incarnation ∧ owner.live = some live ∧
      owner.face.Answers := by
  unfold SessionRegistry.requireLiveOwner at h
  cases hs : r.state sessionId with
  | none => simp [hs] at h
  | some a =>
      simp only [hs, ite_error_eq_ok, not_not] at h
      obtain ⟨hi, h⟩ := h
      cases hl : a.live with
      | none => simp [hl] at h
      | some l =>
          simp only [hl, ite_error_eq_ok, Except.ok.injEq, Prod.mk.injEq, Bool.not_eq_true] at h
          obtain ⟨hstage, rfl, rfl⟩ := h
          refine ⟨rfl, hi, hl, ?_⟩
          intro o ho hs
          change a.operation = some o at ho
          simp [SessionState.stageIn, ho, hs] at hstage

/-- What a reducer is told when it is run: all checks before it have passed. -/
structure Reducing (r : SessionRegistry σ δ) (sessionId : String) (incarnation : Nat)
    (owner : SessionState δ) (live : SessionLiveState) : Prop where
  state : r.state sessionId = some owner
  incarnation : owner.incarnation = incarnation
  live : owner.live = some live
  answers : owner.face.Answers

/-- A reduction is refused and changes nothing, or is written. -/
theorem reduceLive_cases (r : SessionRegistry σ δ) (expectedEpoch sessionId : String)
    (incarnation : Nat) (precheck : Except RuntimeStateError Unit)
    (change : SessionState δ → SessionLiveState → Except RuntimeStateError (α × Reduction δ)) :
    (∃ error, r.reduceLive expectedEpoch sessionId incarnation precheck change =
        (.error error, r)) ∨
      ∃ owner live answer reduction, precheck = .ok () ∧
        Reducing r sessionId incarnation owner live ∧
        change owner live = .ok (answer, reduction) ∧
        r.reduceLive expectedEpoch sessionId incarnation precheck change =
          (.ok answer, r.applyReduction sessionId reduction) := by
  unfold SessionRegistry.reduceLive
  dsimp only
  split
  · exact .inl ⟨_, rfl⟩
  · rename_i answer reduction h
    obtain ⟨_, -, h⟩ := bind_eq_ok.mp h
    obtain ⟨_, hpre, h⟩ := bind_eq_ok.mp h
    obtain ⟨⟨owner, live⟩, howner, h⟩ := bind_eq_ok.mp h
    obtain ⟨hs, hi, hl, ha⟩ := requireLiveOwner_eq_ok howner
    exact .inr ⟨owner, live, answer, reduction, hpre, ⟨hs, hi, hl, ha⟩, h, rfl⟩

theorem board_applyReduction {a : SessionState δ} (ha : r.state sessionId = some a)
    (reduction : Reduction δ) :
    (r.applyReduction sessionId reduction).board =
      { r.board.setFace sessionId reduction.owner.face with
        effects := r.board.effects + answers reduction.effects } := by
  have hwritten : ∀ b : SessionState δ, b.face = reduction.owner.face →
      ({ r.putState sessionId b with effects := r.effects + reduction.effects } :
        SessionRegistry σ δ).board = { r.board.setFace sessionId reduction.owner.face with
          effects := r.board.effects + answers reduction.effects } := by
    intro b hb
    have hw := written_putState ha b
    have hboard := board_setFace (SessionRegistry.side_putState r sessionId b) hw.state hw.states
    rw [hb] at hboard
    have hfaces : (r.putState sessionId b).board.faces =
        r.board.faces.insert sessionId reduction.owner.face := congrArg Board.faces hboard
    have hconnection : (r.putState sessionId b).board.connection = r.board.connection := by
      rw [hboard]
      rfl
    change Board.mk (r.putState sessionId b).board.faces (r.putState sessionId b).board.connection
      (answers (r.effects + reduction.effects)) = _
    rw [hfaces, hconnection, answers_add]
    rfl
  unfold SessionRegistry.applyReduction
  split
  · exact hwritten _ (SessionState.face_commitLive _)
  · exact hwritten _ rfl

/-- A reduction that shows in no face changes nothing on the board. -/
theorem board_applyReduction_rests {a : SessionState δ} (ha : r.state sessionId = some a)
    {reduction : Reduction δ} (h : SessionState.Rests a reduction) :
    (r.applyReduction sessionId reduction).board = r.board := by
  rw [board_applyReduction ha, h.1, h.2, answers_zero, add_zero]
  have hface : r.board.faces.insert sessionId a.face = r.board.faces := by
    refine Finmap.ext_lookup fun other => ?_
    by_cases ho : other = sessionId
    · rw [ho, Finmap.lookup_insert, lookup_faces ha]
    · rw [Finmap.lookup_insert_of_ne _ ho]
  change Board.mk (r.board.faces.insert sessionId a.face) _ _ = _
  rw [hface]
  rfl

/-- The steps of a session whose ids are those in use on the board. -/
abbrev ReducesOn (called : Caller) (r : SessionRegistry σ δ) (sessionId : String)
    (action : FaceAction) (owner : SessionState δ) (reduction : Reduction δ) : Prop :=
  SessionState.Reduces called (· ∈ r.board.operationIds) (· ∈ r.board.urlIds) sessionId action
    owner reduction

theorem board_step_applyReduction {a : SessionState δ} {action : FaceAction}
    (ha : r.state sessionId = some a) {reduction : Reduction δ}
    (h : ReducesOn called r sessionId action a reduction) :
    Board.Step called (.face sessionId a.incarnation action) r.board
      (r.applyReduction sessionId reduction).board := by
  rw [board_applyReduction ha]
  exact .face sessionId (lookup_faces ha) h

/-- What an operation reports when it answers without an error. -/
def reported {ε : Type} (answer : Except ε α) (report : Report) : Report :=
  match answer with
  | .ok _ => report
  | .error _ => .silent

/-- A reducer whose step is reported. -/
theorem reduceLive_reports {expectedEpoch : String} {precheck : Except RuntimeStateError Unit}
    {change : SessionState δ → SessionLiveState → Except RuntimeStateError (α × Reduction δ)}
    (action : FaceAction)
    (hchange : ∀ owner live answer reduction, Reducing r sessionId incarnation owner live →
      change owner live = .ok (answer, reduction) →
      ReducesOn called r sessionId action owner reduction) :
    Board.StepFor called
      (reported (r.reduceLive expectedEpoch sessionId incarnation precheck change).1
        (BoardAction.face sessionId incarnation action).report)
      r.board (r.reduceLive expectedEpoch sessionId incarnation precheck change).2.board := by
  rcases reduceLive_cases r expectedEpoch sessionId incarnation precheck change with
    ⟨error, h⟩ | ⟨owner, live, answer, reduction, -, hreducing, hok, h⟩
  · rw [h]
    exact .rests _
  · rw [h, ← hreducing.incarnation]
    exact ⟨_, rfl, board_step_applyReduction hreducing.state
      (hchange owner live answer reduction hreducing hok)⟩

theorem liveStep_reports {expectedEpoch : String} {precheck : Except RuntimeStateError Unit}
    {change : SessionState δ → SessionLiveState → Except RuntimeStateError (Reduction δ)}
    (action : FaceAction)
    (hchange : ∀ owner live reduction, Reducing r sessionId incarnation owner live →
      change owner live = .ok reduction → ReducesOn called r sessionId action owner reduction) :
    Board.StepFor called
      (reported (r.liveStep expectedEpoch sessionId incarnation precheck change).1
        (BoardAction.face sessionId incarnation action).report)
      r.board (r.liveStep expectedEpoch sessionId incarnation precheck change).2.board := by
  refine reduceLive_reports action ?_
  intro owner live answer reduction hr h
  obtain ⟨reduction', hchanged, hok⟩ := bind_eq_ok.mp h
  cases hok
  exact hchange owner live _ hr hchanged

theorem reduceLive_stepFor {expectedEpoch : String} {precheck : Except RuntimeStateError Unit}
    {change : SessionState δ → SessionLiveState → Except RuntimeStateError (α × Reduction δ)}
    (action : FaceAction)
    (haction : ∀ i, (BoardAction.face sessionId i action).report = .silent)
    (hchange : ∀ owner live answer reduction, precheck = .ok () →
      Reducing r sessionId incarnation owner live → change owner live = .ok (answer, reduction) →
      SessionState.Rests owner reduction ∨ ReducesOn called r sessionId action owner reduction) :
    Board.StepFor called .silent r.board
      (r.reduceLive expectedEpoch sessionId incarnation precheck change).2.board := by
  rcases reduceLive_cases r expectedEpoch sessionId incarnation precheck change with
    ⟨error, h⟩ | ⟨owner, live, answer, reduction, hpre, hreducing, hok, h⟩
  · rw [h]
    exact .rests _
  · rw [h]
    rcases hchange owner live answer reduction hpre hreducing hok with hrests | hstep
    · change Board.StepFor called .silent r.board (r.applyReduction sessionId reduction).board
      rw [board_applyReduction_rests hreducing.state hrests]
      exact .rests _
    · exact ⟨_, haction _, board_step_applyReduction hreducing.state hstep⟩

theorem liveStep_stepFor {expectedEpoch : String} {precheck : Except RuntimeStateError Unit}
    {change : SessionState δ → SessionLiveState → Except RuntimeStateError (Reduction δ)}
    (action : FaceAction)
    (haction : ∀ i, (BoardAction.face sessionId i action).report = .silent)
    (hchange : ∀ owner live reduction, precheck = .ok () →
      Reducing r sessionId incarnation owner live → change owner live = .ok reduction →
      SessionState.Rests owner reduction ∨ ReducesOn called r sessionId action owner reduction) :
    Board.StepFor called .silent r.board
      (r.liveStep expectedEpoch sessionId incarnation precheck change).2.board := by
  refine reduceLive_stepFor action haction ?_
  intro owner live answer reduction hpre hreducing h
  obtain ⟨reduction', hchanged, hok⟩ := bind_eq_ok.mp h
  cases hok
  exact hchange owner live _ hpre hreducing hchanged

end Reduce

section Open

variable [Inhabited σ]

omit [Inhabited σ] in
/-- A change of a session that its face does not show. -/
theorem board_modifyState (r : SessionRegistry σ δ) (sessionId : String)
    {f : SessionState δ → SessionState δ} (h : ∀ a : SessionState δ, (f a).face = a.face) :
    (r.modifyState sessionId f).board = r.board := by
  refine board_same (SessionRegistry.side_modifyState ..) fun id => ?_
  unfold SessionRegistry.modifyState
  cases ha : r.state sessionId with
  | none => rfl
  | some a =>
      have hw := written_putState ha (f a)
      by_cases hid : id = sessionId
      · rw [hid, hw.state, ha, Option.map_some, Option.map_some, h a]
      · rw [hw.states id hid]

/-- A live side is installed beside what the same incarnation has, or in a new session. -/
theorem installLive_state (live : SessionLiveState)
    (hkey : ∀ a, r.state sessionId = some a → a.sessionId = sessionId) :
    (∀ other ≠ sessionId,
        (r.installLive sessionId incarnation live).state other = r.state other) ∧
      ∃ b, (r.installLive sessionId incarnation live).state sessionId = some b ∧
        b.sessionId = sessionId ∧ b.live = some live ∧
        (b.operation = none ∧ b.turnExecution = none ∨
          ∃ a, r.state sessionId = some a ∧ b.operation = a.operation ∧
            b.turnExecution = a.turnExecution) := by
  unfold SessionRegistry.installLive
  dsimp only
  -- Without a former session the live side comes with a cold one.
  have hfresh : ∀ r₁ : SessionRegistry σ δ, r₁.state sessionId = none →
      (∀ other ≠ sessionId, r₁.state other = r.state other) →
      let entry := (r₁.sessions.lookup sessionId).getD ⟨.cold sessionId incarnation, false⟩
      let r₂ : SessionRegistry σ δ := { r₁ with
        sessions := r₁.sessions.insert sessionId
          { entry with state := { entry.state with live := some live } } }
      (∀ other ≠ sessionId, r₂.state other = r.state other) ∧
        ∃ b, r₂.state sessionId = some b ∧ b.sessionId = sessionId ∧ b.live = some live ∧
          (b.operation = none ∧ b.turnExecution = none ∨
            ∃ a, r.state sessionId = some a ∧ b.operation = a.operation ∧
              b.turnExecution = a.turnExecution) := by
    intro r₁ hnone hother
    have hl : r₁.sessions.lookup sessionId = none := Option.map_eq_none_iff.mp hnone
    dsimp only
    rw [hl, Option.getD_none]
    have hw := written_insert r₁ sessionId r₁.history
      ⟨{ SessionState.cold sessionId incarnation with live := some live }, false⟩
    exact ⟨fun other ho => (hw.states other ho).trans (hother other ho), _, hw.state, rfl, rfl,
      .inl ⟨rfl, rfl⟩⟩
  cases ha : r.state sessionId with
  | none =>
      have h := hfresh r ha fun _ _ => rfl
      rwa [ha] at h
  | some a =>
      dsimp only
      by_cases hi : a.incarnation = incarnation
      · rw [if_neg (not_not.mpr hi)]
        obtain ⟨entry, he, rfl⟩ := Option.map_eq_some_iff.mp ha
        rw [he, Option.getD_some]
        have hw := written_insert r sessionId r.history
          { entry with state := { entry.state with live := some live } }
        have hid : entry.state.sessionId = sessionId := hkey entry.state ha
        exact ⟨hw.states, _, hw.state, hid, rfl, .inr ⟨_, rfl, rfl, rfl⟩⟩
      · rw [if_pos hi]
        obtain ⟨b, hb, hface, hclear⟩ := clearHistoryForReplacement_state r sessionId
          a.incarnation ha (hkey a ha) rfl
        obtain ⟨hnone, hother⟩ := retireEntry_state _ sessionId a.incarnation hb
          (congrArg Face.incarnation hface)
        have h := hfresh _ hnone fun other ho => (hother other ho).trans (hclear other ho)
        rwa [ha] at h

omit [Inhabited σ] in
/-- Writing the live side in leaves the connection and the effects. -/
theorem side_installLive [Inhabited σ] (r : SessionRegistry σ δ) (sessionId : String)
    (incarnation : Nat) (live : SessionLiveState) :
    (r.installLive sessionId incarnation live).side = r.side := by
  unfold SessionRegistry.installLive
  dsimp only
  split
  · rfl
  · rename_i previous _
    split
    · exact (SessionRegistry.side_retireEntry ..).trans
        (SessionRegistry.side_clearHistoryForReplacement ..)
    · rfl

/-- A session that is opened is reported. -/
theorem install_stepFor (hkeyed : r.board.Keyed) (live : SessionLiveState)
    (operation : Option SessionOperationState) (hlive : live.interactions = .fresh)
    (hinUse : live.lifecycle.inUse = true)
    (hoperation : ∀ o, operation = some o →
      o.operationId ∉ r.board.operationIds ∧ o.stage = "attaching") :
    Board.StepFor called (reported (r.install sessionId live operation).1 (.opens sessionId))
      r.board (r.install sessionId live operation).2.board := by
  unfold SessionRegistry.install
  by_cases hopen : r.mayOpen sessionId = true
  · rw [hopen, Bool.not_true, if_neg (by simp)]
    dsimp only
    obtain ⟨hother, b, hb, hid, hbl, hrest⟩ := installLive_state (r :=
      { r with nextIncarnation := nextCounter r.nextIncarnation })
      live fun a (ha : r.state sessionId = some a) => hkeyed.state ha
    have hside := side_installLive { r with nextIncarnation := nextCounter r.nextIncarnation }
      sessionId (nextCounter r.nextIncarnation) live
    generalize SessionRegistry.installLive { r with
      nextIncarnation := nextCounter r.nextIncarnation } sessionId
      (nextCounter r.nextIncarnation) live = r₁ at hother hb hside ⊢
    have hfree : ∀ a, r.state sessionId = some a → a.operation = none ∧
        ∀ live, a.live = some live → live.lifecycle = .closed := by
      intro a ha
      simp only [SessionRegistry.mayOpen, ha, Option.all_some, Bool.and_eq_true,
        Option.isNone_iff_eq_none] at hopen
      refine ⟨hopen.1, fun l hl => ?_⟩
      simpa [hl] using hopen.2
    have hbfree : b.operation = none := by
      rcases hrest with ⟨hnone, -⟩ | ⟨a, ha, hop, -⟩
      · exact hnone
      · exact hop.trans (hfree a ha).1
    have hw := written_putState hb
      ({ b with operation := operation.or b.operation } : SessionState δ).commitLive
    simp only [SessionRegistry.modifyState, hb]
    refine ⟨.installs sessionId, rfl, ?_⟩
    rw [board_setFace ((SessionRegistry.side_putState ..).trans hside) hw.state
      fun other ho => (hw.states other ho).trans (hother other ho), SessionState.face_commitLive]
    refine .installs sessionId _ live.lifecycle hid ?_ ?_ ?_ ?_ hinUse
    · intro face hface
      rw [face_eq] at hface
      obtain ⟨a, ha, rfl⟩ := Option.map_eq_some_iff.mp hface
      refine ⟨(hfree a ha).1, fun l hl => ?_⟩
      obtain ⟨l', hl', rfl⟩ := Option.map_eq_some_iff.mp hl
      exact (hfree a ha).2 l' hl'
    · rcases hrest with ⟨-, hexec⟩ | ⟨a, ha, -, hexec⟩
      · exact .inl (congrArg (Option.map _) hexec)
      · exact .inr ⟨a.face, lookup_faces ha, (congrArg (Option.map _) hexec).symm⟩
    · intro o ho
      change operation.or b.operation = some o at ho
      rw [hbfree, Option.or_none] at ho
      exact hoperation o ho
    · change b.live.map _ = _
      rw [hbl, Option.map_some, SessionLiveState.face, hlive]
  · rw [Bool.not_eq_true] at hopen
    rw [hopen, Bool.not_false, if_pos rfl]
    exact .rests _

theorem openSession_stepFor (hkeyed : r.board.Keyed) (expectedEpoch cwd : String)
    (session : Value) (controlState : Table String Value) :
    Board.StepFor called
      (reported (r.openSession expectedEpoch sessionId cwd session controlState).1
        (.opens sessionId))
      r.board (r.openSession expectedEpoch sessionId cwd session controlState).2.board := by
  unfold SessionRegistry.openSession
  split
  · exact .rests _
  · exact install_stepFor hkeyed _ none rfl rfl (by simp)

theorem openForked_stepFor (hkeyed : r.board.Keyed) (expectedEpoch cwd : String)
    (session : Value) (source : String × Nat) (targetReplay : Option (List Value)) :
    Board.StepFor called
      (reported (r.openForked expectedEpoch sessionId cwd session source targetReplay).1
        (.opens sessionId))
      r.board (r.openForked expectedEpoch sessionId cwd session source targetReplay).2.board := by
  unfold SessionRegistry.openForked
  split
  · exact .rests _
  · split
    · exact .rests _
    · exact openSession_stepFor hkeyed ..

theorem startAttachment_stepFor (hkeyed : r.board.Keyed) (expectedEpoch cwd operationId : String)
    (kind : SessionOperationKind) :
    Board.StepFor called
      (reported (r.startAttachment expectedEpoch sessionId cwd operationId kind).1
        (.opens sessionId))
      r.board (r.startAttachment expectedEpoch sessionId cwd operationId kind).2.board := by
  unfold SessionRegistry.startAttachment
  split
  · exact .rests _
  · split
    · exact .rests _
    · split
      · exact .rests _
      · rename_i hused
        refine install_stepFor hkeyed _ _ rfl rfl ?_
        rintro o ⟨⟩
        exact ⟨operationInUse_eq_false (Bool.eq_false_iff.mpr hused), rfl⟩

end Open

section Turn

variable [DecidableEq δ]

omit [DecidableEq δ] in
/-- The face of a session in which a turn has begun. -/
theorem face_turnBegun (sha256 : String → δ) (a : SessionState δ)
    (operationId clientIntentId : String) (prompt : Prompt) :
    (a.turnBegun sha256 operationId clientIntentId prompt).face =
      { a.face with execution := some clientIntentId } := rfl

/-- A turn that is admitted runs in a live session that nothing else holds. -/
theorem admitSessionTurn_stepFor (sha256 : String → δ) (expectedEpoch : String)
    (expectedHistoryRevision clientIntentId : String) (prompt : Prompt) :
    Board.StepFor called .silent r.board
      (r.admitSessionTurn sha256 expectedEpoch sessionId incarnation expectedHistoryRevision
        clientIntentId prompt).2.board := by
  unfold SessionRegistry.admitSessionTurn
  split
  · exact .rests _
  rename_i owner live howner
  obtain ⟨_, -, howner⟩ := bind_eq_ok.mp howner
  obtain ⟨ha, hi, hlive, hanswers⟩ := requireLiveOwner_eq_ok howner
  split
  · exact .rests _
  · exact .rests _
  rename_i hcheck
  by_cases hactive : live.lifecycle = .active
  · rw [if_neg (not_not.mpr hactive)]
    by_cases hbusy : owner.turnExecution.isSome = true ∨ owner.operation.isSome = true
    · rw [if_pos hbusy]
      exact .rests _
    · rw [if_neg hbusy]
      simp only [not_or, Bool.not_eq_true, Option.isSome_eq_false_iff,
        Option.isNone_iff_eq_none] at hbusy
      by_cases hused : r.operationInUse clientIntentId = true
      · rw [if_pos hused]
        exact .rests _
      · rw [if_neg hused]
        have hunused := operationInUse_eq_false (Bool.eq_false_iff.mpr hused)
        obtain ⟨operationId, hstart⟩ : ∃ operationId, r.startTurn sha256 sessionId incarnation
            expectedHistoryRevision clientIntentId prompt = (.ok (.accepted operationId),
              { r.putOverlay sessionId owner
                (owner.turnBegun sha256 operationId clientIntentId prompt) with
                nextOperation := nextCounter r.nextOperation }) := by
          unfold SessionRegistry.startTurn
          simp only [requireState_eq_ok.mpr ⟨ha, hi⟩, SessionState.admitTurn, hcheck, ok_bind]
          exact ⟨_, rfl⟩
        rw [hstart]
        change Board.StepFor called .silent r.board
          (SessionRegistry.modifyState _ sessionId (·.commitLive)).board
        rw [board_modifyState _ _ fun a => SessionState.face_commitLive a]
        have hw := (written_putOverlay ha (owner.turnBegun sha256 operationId clientIntentId
          prompt)).counted (nextCounter r.nextOperation)
        have hstep : Face.Step called (· ∈ r.board.operationIds) (· ∈ r.board.urlIds) sessionId
            (.executes clientIntentId) 0 owner.face
            (owner.turnBegun sha256 operationId clientIntentId prompt).face := by
          rw [face_turnBegun]
          refine .executes clientIntentId hunused ?_ hbusy.2 (SessionState.face_live hlive) hactive
          simp [SessionState.face, hbusy.1]
        have hside := (SessionRegistry.side_counted (r.putOverlay sessionId owner
          (owner.turnBegun sha256 operationId clientIntentId prompt))
          (nextCounter r.nextOperation)).trans (SessionRegistry.side_putOverlay r sessionId ..)
        exact stepFor_setFace (.executes clientIntentId) hside ha hw.state hw.states rfl hstep
  · rw [if_pos hactive]
    exact .rests _

end Turn

section Operation

theorem startReload_stepFor (hkeyed : r.board.Keyed) (expectedEpoch operationId : String)
    (kind : SessionOperationKind) :
    Board.StepFor called .silent r.board
      (r.startReload expectedEpoch sessionId incarnation operationId kind).2.board := by
  refine liveStep_stepFor (.starts operationId) (fun _ => rfl) ?_
  intro owner live reduction hpre hr h
  rw [ite_error_eq_ok] at hpre
  exact .inr (SessionState.startReload_step hr.live
    (fun hfree => checkOperationId_eq_ok hkeyed hpre.2 hr.state hfree) h)

theorem startOperation_stepFor (hkeyed : r.board.Keyed) (expectedEpoch operationId : String)
    (kind : SessionOperationKind) (stage : String)
    (hstage : called.serves → ∀ a live, r.state sessionId = some a → a.live = some live →
      stage ≠ "cleanup" ∧ (kind = .delete → (stage = "deleting" ↔ live.lifecycle = .closed))) :
    Board.StepFor called .silent r.board
      (r.startOperation expectedEpoch sessionId incarnation operationId kind stage).2.board := by
  refine liveStep_stepFor (.starts operationId) (fun _ => rfl) ?_
  intro owner live reduction hpre hr h
  exact .inr (SessionState.startOperation_step hr.live
    (fun hfree => checkOperationId_eq_ok hkeyed hpre hr.state hfree)
    (fun hc => hstage hc owner live hr.state hr.live) h)

theorem startDelete_stepFor (hkeyed : r.board.Keyed) (expectedEpoch operationId : String) :
    Board.StepFor called .silent r.board
      (r.startDelete expectedEpoch sessionId incarnation operationId).2.board := by
  unfold SessionRegistry.startDelete
  split
  · exact .rests _
  rename_i owner live howner
  obtain ⟨ha, -, hlive, -⟩ := requireLiveOwner_eq_ok howner
  split
  · rename_i hactive
    refine startOperation_stepFor hkeyed _ _ _ _ fun _ b l hb hl => ⟨by simp, fun _ => ?_⟩
    cases ha.symm.trans hb
    cases hlive.symm.trans hl
    simp [hactive]
  · rename_i hclosed
    refine startOperation_stepFor hkeyed _ _ _ _ fun _ b l hb hl => ⟨by simp, fun _ => ?_⟩
    cases ha.symm.trans hb
    cases hlive.symm.trans hl
    simp [hclosed]
  · exact .rests _

theorem startDirectDelete_stepFor (hkeyed : r.board.Keyed) (expectedEpoch operationId : String) :
    Board.StepFor called .silent r.board
      (r.startDirectDelete expectedEpoch sessionId incarnation operationId).2.board := by
  unfold SessionRegistry.startDirectDelete
  split
  · exact .rests _
  rename_i owner live howner
  obtain ⟨ha, -, hlive, -⟩ := requireLiveOwner_eq_ok howner
  split
  · exact .rests _
  · rename_i hactive
    refine startOperation_stepFor hkeyed _ _ _ _ fun _ b l hb hl => ⟨by simp, fun _ => ?_⟩
    cases ha.symm.trans hb
    cases hlive.symm.trans hl
    simp [not_not.mp hactive]

/-- A cleanup is finished by its exact owner, in a session that is closed or gone. -/
theorem finishSessionCleanup_cases (r : SessionRegistry σ δ) (sessionId : String)
    (incarnation : Nat) (kind : SessionAdmission) (operationId : String) :
    (∃ error, r.finishSessionCleanup sessionId incarnation kind operationId = (.error error, r)) ∨
      ∃ a o, r.state sessionId = some a ∧ a.incarnation = incarnation ∧ a.operation = some o ∧
        o.operationId = operationId ∧ (∀ live, a.live = some live → live.lifecycle = .closed) ∧
        r.finishSessionCleanup sessionId incarnation kind operationId =
          (.ok (), r.putState sessionId { a with operation := none, live := none }) := by
  unfold SessionRegistry.finishSessionCleanup
  rcases stateStep_cases r sessionId incarnation (fun owner =>
      if owner.operation.any (fun operation =>
            operation.operationId = operationId && operation.kind.admission = kind) = false ∨
          owner.live.any (fun live => live.lifecycle ≠ .closed) then
        .error .operationMismatch
      else .ok { owner with operation := none, live := none }) with
    h | ⟨a, b, ha, hi, hb, h⟩
  · exact .inl h
  · rw [ite_error_eq_ok] at hb
    obtain ⟨hmatch, hb⟩ := hb
    cases hb
    rw [not_or, Bool.not_eq_false, Bool.not_eq_true] at hmatch
    obtain ⟨o, ho, hid⟩ := (Option.any_eq_true _ _).mp hmatch.1
    simp only [Bool.and_eq_true, decide_eq_true_eq] at hid
    refine .inr ⟨a, o, ha, hi, ho, hid.1, ?_, h⟩
    intro live hl
    simpa [hl] using hmatch.2

/-- What a cleanup that is done reports: the session had been kept for it, or not. -/
def cleaned (r : SessionRegistry σ δ) (sessionId : String) (incarnation : Nat)
    (kind : SessionAdmission) (operationId : String) : Report :=
  if (r.state sessionId).any (·.stageIn ["cleanup"]) then
    reported (r.finishSessionCleanup sessionId incarnation kind operationId).1
      (.cleans sessionId incarnation operationId)
  else .silent

theorem finishSessionCleanup_stepFor (kind : SessionAdmission) (operationId : String) :
    Board.StepFor called (cleaned r sessionId incarnation kind operationId) r.board
      (r.finishSessionCleanup sessionId incarnation kind operationId).2.board := by
  unfold cleaned
  rcases finishSessionCleanup_cases r sessionId incarnation kind operationId with
    ⟨error, h⟩ | ⟨a, o, ha, rfl, ho, rfl, hclosed, h⟩
  · rw [h]
    split <;> exact .rests _
  rw [h]
  have hw := written_putState ha { a with operation := none, live := none }
  have hstep : Face.Step called (· ∈ r.board.operationIds) (· ∈ r.board.urlIds) sessionId
      (.finishes o.operationId (o.stage = "cleanup")) 0 a.face
      { a.face with operation := none, live := none } := by
    refine @Face.Step.finishes _ _ _ _ a.face o ho ?_
    intro live hl
    obtain ⟨l, hal, rfl⟩ := Option.map_eq_some_iff.mp hl
    exact hclosed l hal
  have hboard := Board.Step.face sessionId (lookup_faces ha) hstep
  rw [add_zero] at hboard
  rw [board_setFace (SessionRegistry.side_putState ..) hw.state hw.states]
  refine ⟨_, ?_, hboard⟩
  by_cases hs : o.stage = "cleanup"
  · simp [BoardAction.report, SessionState.face, SessionState.stageIn, ho, hs, reported, ha]
  · simp [BoardAction.report, SessionState.stageIn, ho, hs, ha]

end Operation

end Attyd.Session
