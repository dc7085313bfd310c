import Attyd.Session.Faces

/-!
# The reducers on faces

Each reducer of a live session takes its face through the step of its own kind: those
that only write the controls, the terminals or the published record leave the face as
it is.
-/

namespace Attyd.Session

open Json (Value)
open History

variable {δ : Type} {called : Caller} {used urlUsed : String → Prop}

/-- Whether an effect answers an interaction or aborts a flow. -/
def RuntimeEffect.isAnswer : RuntimeEffect → Bool
  | .releaseTerminal _ _ => false
  | _ => true

/-- The effects that are about interactions. -/
def answers (effects : Multiset RuntimeEffect) : Multiset RuntimeEffect :=
  effects.filter fun effect => effect.isAnswer = true

@[simp] theorem answers_zero : answers 0 = 0 := rfl

theorem answers_add (e f : Multiset RuntimeEffect) : answers (e + f) = answers e + answers f :=
  Multiset.filter_add _ _ _

/-- Effects that all are answers. -/
theorem answers_collect {α : Type} {f : String → α → RuntimeEffect} (t : Table String α)
    (h : ∀ id a, (f id a).isAnswer = true) : answers (Table.collect f t) = Table.collect f t := by
  refine Multiset.filter_eq_self.mpr fun effect he => ?_
  obtain ⟨id, a, -, rfl⟩ := Table.mem_collect.mp he
  exact h id a

theorem answers_releaseTerminals (sessionId : String) (terminals : Table String Value) :
    answers (releaseTerminals sessionId terminals) = 0 := by
  refine Multiset.filter_eq_nil.mpr fun effect he => ?_
  obtain ⟨id, a, -, rfl⟩ := Table.mem_collect.mp he
  simp [RuntimeEffect.isAnswer]

theorem answers_interactions (d : Interactions) (sessionId : String) (incarnation : Nat) :
    answers (d.effects sessionId incarnation) = d.effects sessionId incarnation := by
  rw [Interactions.effects, answers_add, answers_add]
  unfold cancelPermissions cancelElicitations abortUrlFlows
  rw [answers_collect _ fun _ _ => rfl, answers_collect _ fun _ _ => rfl,
    answers_collect _ fun _ _ => rfl]

theorem answers_drainEffects (sessionId : String) (incarnation : Nat) (live : SessionLiveState) :
    answers (drainEffects sessionId incarnation live) =
      live.interactions.effects sessionId incarnation := by
  change answers (live.interactions.effects sessionId incarnation +
    releaseTerminals sessionId live.terminals) = _
  rw [answers_add, answers_interactions, answers_releaseTerminals, add_zero]

theorem answers_sealEffects (d : Interactions) (sessionId : String) (incarnation : Nat)
    (operationId : String) :
    answers (d.sealEffects sessionId incarnation operationId) =
      d.sealEffects sessionId incarnation operationId := by
  rw [Interactions.sealEffects, answers_add]
  unfold cancelPermissions cancelElicitations
  rw [answers_collect _ fun _ _ => rfl, answers_collect _ fun _ _ => rfl]

namespace SessionState

variable {self : SessionState δ} {live : SessionLiveState} {sessionId operationId : String}
  {kind : SessionOperationKind} {reduction : Reduction δ}

@[simp] theorem face_commitLive (self : SessionState δ) : self.commitLive.face = self.face := by
  cases hl : self.live <;> simp [face, commitLive, hl, turnExecution, SessionLiveState.face,
    SessionLiveState.interactions]

theorem withoutExecution_turnExecution (self : SessionState δ) :
    self.withoutExecution.turnExecution = none := by
  cases h : self.activeTurn <;> simp [turnExecution, withoutExecution, h]

/-- What runs is the current operation. -/
theorem runs_eq_true (h : self.runs operationId kind = true) :
    ∃ operation, self.operation = some operation ∧ operation.operationId = operationId ∧
      operation.kind = kind := by
  unfold runs at h
  cases ho : self.operation with
  | none => simp [ho] at h
  | some operation =>
      simp only [ho, Option.any_some, Bool.and_eq_true, decide_eq_true_eq] at h
      exact ⟨operation, rfl, h.1, h.2⟩

theorem stageIn_eq_true {stages : List String} {operation : SessionOperationState}
    (ho : self.operation = some operation) (h : self.stageIn stages = true) :
    operation.stage ∈ stages := by
  simpa [stageIn, ho] using h

section Rests

/-- A change of a live session that shows in no face. -/
def Rests (self : SessionState δ) (reduction : Reduction δ) : Prop :=
  reduction.owner.face = self.face ∧ reduction.effects = 0

theorem face_live_eq {live' : SessionLiveState} (hlive : self.live = some live)
    (h : live'.face = live.face) : { self with live := some live' }.face = self.face := by
  simp [face, hlive, h, turnExecution]

theorem appendAttachmentCandidate_rests {update : Value} (hlive : self.live = some live)
    (h : self.appendAttachmentCandidate live update = .ok reduction) : Rests self reduction := by
  simp only [appendAttachmentCandidate, ite_error_eq_ok] at h
  obtain ⟨-, h⟩ := h
  cases hr : retainControlUpdate update with
  | none =>
      simp only [hr, Except.ok.injEq] at h
      exact h ▸ ⟨rfl, rfl⟩
  | some update =>
      simp only [hr, Except.ok.injEq] at h
      exact h ▸ ⟨face_live_eq hlive rfl, rfl⟩

theorem projectTurnUpdate_rests {overlay : TurnOverlay} (hlive : self.live = some live)
    (h : self.projectTurnUpdate live overlay = .ok reduction) : Rests self reduction := by
  unfold projectTurnUpdate at h
  split at h
  · cases h
  · split at h
    · cases h
    · rw [ite_error_eq_ok] at h
      cases h.2
      exact ⟨face_live_eq hlive rfl, rfl⟩

theorem updateControlState_rests {key : String} {update : Value} (hlive : self.live = some live)
    (h : self.updateControlState live key update = .ok reduction) : Rests self reduction := by
  simp only [updateControlState, ite_error_eq_ok] at h
  obtain ⟨-, h⟩ := h
  split at h
  · cases h
    exact ⟨rfl, rfl⟩
  · cases h
    exact ⟨face_live_eq hlive rfl, rfl⟩

theorem synchronizeLoadedSession_rests {response : Value} {replay : List Value}
    (hlive : self.live = some live)
    (h : self.synchronizeLoadedSession sessionId live response replay = .ok reduction) :
    Rests self reduction := by
  simp only [synchronizeLoadedSession, ite_error_eq_ok, Except.ok.injEq] at h
  exact h.2 ▸ ⟨face_live_eq hlive rfl, rfl⟩

theorem requestCancel_rests (h : self.requestCancel = .ok reduction) : Rests self reduction := by
  unfold requestCancel at h
  cases he : self.turnExecution with
  | none => simp [he] at h
  | some execution =>
      simp only [he] at h
      split at h
      · cases h
        exact ⟨rfl, rfl⟩
      · cases h
        refine ⟨?_, rfl⟩
        obtain ⟨turn, ht, hx⟩ := Option.bind_eq_some_iff.mp he
        simp [face, turnExecution, ht, hx]

theorem upsertTerminal_rests {fold : Option Value → Value → Value} {terminalId : String}
    {terminal : Value} (hlive : self.live = some live) :
    Rests self (self.upsertTerminal live fold terminalId terminal).2 := by
  by_cases hr : terminalId ∈ live.releasedTerminals
  · rw [upsertTerminal, if_pos hr]
    exact ⟨rfl, rfl⟩
  · by_cases hs : (live.terminals.lookup terminalId).any
        (·.alike (fold (live.terminals.lookup terminalId) terminal)) = true
    · rw [upsertTerminal, if_neg hr]
      simp only [if_pos hs]
      exact ⟨rfl, rfl⟩
    · rw [upsertTerminal, if_neg hr]
      simp only [if_neg hs]
      refine ⟨face_live_eq hlive ?_, rfl⟩
      by_cases ht : terminalReleased terminal = true
      · simp only [if_pos ht]
        rfl
      · simp only [if_neg ht]
        rfl

end Rests

section Operations

/-- The step of one reducer, with the answers among its effects. -/
abbrev Reduces (called : Caller) (used urlUsed : String → Prop) (sessionId : String)
    (action : FaceAction) (self : SessionState δ) (reduction : Reduction δ) : Prop :=
  Face.Step called used urlUsed sessionId action (answers reduction.effects) self.face
    reduction.owner.face

/-- The face of a session whose live side and operation are written. -/
theorem face_published (self : SessionState δ) (live : SessionLiveState)
    (operation : Option SessionOperationState) :
    (self.published live operation).owner.face =
      { self.face with operation, live := some live.face } := rfl

/-- The lifecycle that a live session shows. -/
theorem lifecycle_of_face {b : LiveFace} (hlive : self.live = some live)
    (hb : self.face.live = some b) : b.lifecycle = live.lifecycle := by
  simp only [face, hlive, Option.map_some, Option.some.injEq] at hb
  exact (congrArg LiveFace.lifecycle hb).symm

theorem startReload_step (hlive : self.live = some live)
    (hused : self.operation = none → ¬used operationId)
    (h : self.startReload live operationId kind = .ok reduction) :
    Reduces called used urlUsed sessionId (.starts operationId) self reduction := by
  simp only [startReload, ite_error_eq_ok, Except.ok.injEq] at h
  obtain ⟨-, hactive, hbusy, rfl⟩ := h
  rw [Reduces, face_published]
  refine .starts ⟨operationId, kind, "reloading", none⟩ _ ?_ (fun _ => by simp) ?_ ?_ ?_ ?_
  · cases ho : self.operation with
    | none => exact .inl ⟨ho, hused ho⟩
    | some operation =>
        simp only [ho, Option.any_some, Bool.or_eq_true, decide_eq_true_eq, not_or,
          not_not] at hbusy
        exact .inr ⟨operation, ho, hbusy.2.1.1.1, hbusy.2.1.2⟩
  · simp only [face, hlive, Option.map_some]
    rfl
  · rintro b ⟨⟩
    exact .inl (by simp only [face, hlive, Option.map_some]; rfl)
  · rintro - ⟨o, ⟨⟩, -, hs⟩
    simp at hs
  · intro _ _ b hb hclosed
    rw [lifecycle_of_face hlive hb] at hclosed
    exact absurd hclosed (by simp [not_not.mp hactive])

/-- What an operation may do to the lifecycle when it starts. -/
theorem lifecycleStarted_mem (live : SessionLiveState) (kind : SessionOperationKind)
    (stage : String) :
    lifecycleStarted live kind stage = live.lifecycle ∨
      lifecycleStarted live kind stage ∈
        [SessionLifecycle.closing, .closingForDelete, .deleting] := by
  cases kind with
  | delete =>
      by_cases h : live.lifecycle = .closed ∨ stage = "deleting_active"
      · simp [lifecycleStarted, h]
      · simp [lifecycleStarted, h]
  | _ => simp [lifecycleStarted]

theorem startOperation_step {stage : String} (hlive : self.live = some live)
    (hused : self.operation = none → ¬used operationId)
    (hstage : called.serves → stage ≠ "cleanup" ∧
      (kind = .delete → (stage = "deleting" ↔ live.lifecycle = .closed)))
    (h : self.startOperation live operationId kind stage = .ok reduction) :
    Reduces called used urlUsed sessionId (.starts operationId) self reduction := by
  simp only [startOperation, ite_error_eq_ok, Except.ok.injEq] at h
  obtain ⟨-, hopen, hbusy, rfl⟩ := h
  rw [Reduces, face_published]
  refine .starts ⟨operationId, kind, stage, none⟩ _ ?_ (fun hc => (hstage hc).1) ?_ ?_ ?_ ?_
  · cases ho : self.operation with
    | none => exact .inl ⟨ho, hused ho⟩
    | some operation =>
        simp only [ho, Option.any_some, Bool.or_eq_true, decide_eq_true_eq, not_or,
          not_not] at hbusy
        exact .inr ⟨operation, ho, hbusy.1.1.1, hbusy.1.2⟩
  · simp only [face, hlive, Option.map_some]
    rfl
  · rintro b ⟨⟩
    rcases lifecycleStarted_mem live kind stage with hl | hl
    · refine .inl ?_
      simp only [face, hlive, Option.map_some, SessionLiveState.face, hl]
    · exact .inr hl
  · rintro hc ⟨o, ⟨⟩, hk, hs⟩
    have hclosed := ((hstage hc).2 hk).mp hs
    refine ⟨?_, ?_⟩
    · intro b hb
      exact (lifecycle_of_face hlive hb).trans hclosed
    · rintro b ⟨⟩
      change lifecycleStarted live kind stage = .deleting
      simp only at hk
      rw [hk, lifecycleStarted, if_pos (.inl hclosed)]
  · intro hc _ b hb hclosed
    rw [lifecycle_of_face hlive hb] at hclosed
    have hk : kind = .delete := by
      by_contra hk
      exact hopen ⟨by simp [hclosed], fun hd => hk hd.1⟩
    exact ⟨hk, .inr (((hstage hc).2 hk).mpr hclosed)⟩

/-- An operation that ends leaves the interactions alone. -/
theorem published_ends {live' : SessionLiveState} {operation : SessionOperationState}
    (hlive : self.live = some live) (ho : self.operation = some operation)
    (hanswers : self.face.Answers)
    (hinteractions : live'.interactions = live.interactions)
    (hlifecycle : live'.lifecycle = live.lifecycle ∨ live'.lifecycle = .active ∨
      deletesClosed (some operation) ∧ live'.lifecycle = .closed)
    (hclosed : called.orderly → live.lifecycle = .closed ∨ deletesClosed (some operation) →
      live'.lifecycle = .closed) :
    Reduces called used urlUsed sessionId (.ends operation.operationId) self
      (self.published live' none) := by
  rw [Reduces, face_published]
  refine .ends (some live'.face) ho (fun _ => hanswers operation ho) ?_ ?_ ?_
  · simp only [face, hlive, Option.map_some]
    exact congrArg some hinteractions
  · rintro b ⟨⟩
    rcases hlifecycle with hl | hl
    · refine .inl ?_
      simp only [face, hlive, Option.map_some, SessionLiveState.face, hl, hinteractions]
    · exact .inr hl
  · rintro hc b hb hended b' ⟨⟩
    rw [lifecycle_of_face hlive hb] at hended
    exact hclosed hc hended

/-- An operation of another kind is no delete of a closed session. -/
theorem not_deletesClosed {operation : SessionOperationState} (h : operation.kind ≠ .delete) :
    ¬deletesClosed (some operation) := by
  rintro ⟨o, ⟨⟩, hk, -⟩
  exact h hk

/-- A session that reloads is active, and its operation loads it. -/
theorem reloading_eq_true (h : self.reloading live operationId = true) :
    ∃ operation, self.operation = some operation ∧ operation.operationId = operationId ∧
      operation.kind ≠ .delete ∧ live.lifecycle ≠ .closed := by
  simp only [reloading, Bool.and_eq_true, decide_eq_true_eq] at h
  obtain ⟨operation, ho, hid, hk⟩ := runs_eq_true h.1.2
  exact ⟨operation, ho, hid, by simp [hk], by simp [h.1.1]⟩

theorem completeReload_step {response : Value} (hlive : self.live = some live)
    (hanswers : self.face.Answers)
    (h : self.completeReload sessionId live operationId response = .ok reduction) :
    Reduces called used urlUsed sessionId (.ends operationId) self reduction := by
  simp only [completeReload, ite_error_eq_ok, Bool.not_eq_true', Bool.not_eq_false,
    Except.ok.injEq] at h
  obtain ⟨hr, rfl⟩ := h
  obtain ⟨operation, ho, rfl, hk, hactive⟩ := reloading_eq_true hr
  exact published_ends hlive ho hanswers rfl (.inl rfl) fun _ h =>
    (h.elim hactive (not_deletesClosed hk)).elim

theorem failReload_step (hlive : self.live = some live) (hanswers : self.face.Answers)
    (h : self.failReload live operationId = .ok reduction) :
    Reduces called used urlUsed sessionId (.ends operationId) self reduction := by
  simp only [failReload, ite_error_eq_ok, Bool.not_eq_true', Bool.not_eq_false,
    Except.ok.injEq] at h
  obtain ⟨hr, rfl⟩ := h
  obtain ⟨operation, ho, rfl, hk, hactive⟩ := reloading_eq_true hr
  exact published_ends hlive ho hanswers rfl (.inl rfl) fun _ h =>
    (h.elim hactive (not_deletesClosed hk)).elim

theorem completeAttachment_step {response : Value} (hlive : self.live = some live)
    (hanswers : self.face.Answers)
    (h : self.completeAttachment sessionId live operationId kind response = .ok reduction) :
    Reduces called used urlUsed sessionId (.ends operationId) self reduction := by
  simp only [completeAttachment, ite_error_eq_ok, Except.ok.injEq, not_or,
    Bool.not_eq_false] at h
  obtain ⟨⟨hattaching, hr, hload⟩, rfl⟩ := h
  obtain ⟨operation, ho, rfl, hk⟩ := runs_eq_true hr
  refine published_ends hlive ho hanswers rfl (.inr (.inl rfl)) fun _ hended => ?_
  rcases hended with hclosed | hdeletes
  · exact absurd hclosed (by simp [not_not.mp hattaching])
  · refine absurd hdeletes (not_deletesClosed fun hd => hload ?_)
    simp [← hk, hd]

theorem completeOperation_step (hlive : self.live = some live) (hanswers : self.face.Answers)
    (h : self.completeOperation live operationId kind = .ok reduction) :
    Reduces called used urlUsed sessionId (.ends operationId) self reduction := by
  simp only [completeOperation, ite_error_eq_ok, Except.ok.injEq, not_or, Bool.not_eq_false] at h
  obtain ⟨⟨-, hdelete, hr⟩, rfl⟩ := h
  obtain ⟨operation, ho, rfl, hk⟩ := runs_eq_true hr
  exact published_ends hlive ho hanswers rfl (.inl rfl) fun _ hended =>
    hended.elim id fun hd => absurd hd (not_deletesClosed (hk ▸ hdelete))

theorem completeControlOperation_step {key : String} {update : Value}
    (hlive : self.live = some live) (hanswers : self.face.Answers)
    (hdelete : called.orderly → kind ≠ .delete)
    (h : self.completeControlOperation live operationId kind key update = .ok reduction) :
    Reduces called used urlUsed sessionId (.ends operationId) self reduction := by
  simp only [completeControlOperation, ite_error_eq_ok, Except.ok.injEq, Bool.not_eq_false] at h
  obtain ⟨hr, rfl⟩ := h
  obtain ⟨operation, ho, rfl, hk⟩ := runs_eq_true hr
  exact published_ends hlive ho hanswers rfl (.inl rfl) fun hc hended =>
    hended.elim id fun hd => absurd hd (not_deletesClosed (hk ▸ hdelete hc))

theorem failOperation_step (hlive : self.live = some live) (hanswers : self.face.Answers)
    (hopen : called.orderly → live.lifecycle ≠ .closed)
    (h : self.failOperation live operationId kind = .ok reduction) :
    Reduces called used urlUsed sessionId (.ends operationId) self reduction := by
  simp only [failOperation, ite_error_eq_ok, Except.ok.injEq, Bool.not_eq_false] at h
  obtain ⟨hr, rfl⟩ := h
  obtain ⟨operation, ho, rfl, hk⟩ := runs_eq_true hr
  refine published_ends hlive ho hanswers rfl ?_ ?_
  · change self.lifecycleFailed live kind = _ ∨ self.lifecycleFailed live kind = _ ∨
      _ ∧ self.lifecycleFailed live kind = _
    unfold lifecycleFailed
    cases kind with
    | close => exact .inr (.inl rfl)
    | delete =>
        by_cases hs : self.stageIn ["deleting"] = true
        · rw [if_pos hs]
          have hstage := stageIn_eq_true ho hs
          exact .inr (.inr ⟨⟨operation, rfl, hk, by simpa using hstage⟩, rfl⟩)
        · rw [if_neg hs]
          exact .inr (.inl rfl)
    | _ => exact .inl rfl
  · rintro hc (hclosed | ⟨o, ⟨⟩, hdelete, hstage⟩)
    · exact absurd hclosed (hopen hc)
    · have hs : self.stageIn ["deleting"] = true := by simp [stageIn, ho, hstage]
      change self.lifecycleFailed live kind = _
      rw [hk.symm.trans hdelete, lifecycleFailed, if_pos hs]

end Operations

section Ends

/-- The face of a session that is written without its execution. -/
theorem face_withoutExecution (self : SessionState δ) (live : Option SessionLiveState)
    (operation : Option SessionOperationState) :
    { self.withoutExecution with live, operation }.face =
      { self.face with execution := none, operation, live := live.map (·.face) } := by
  have h := withoutExecution_turnExecution self
  change Face.mk _ _ ((self.withoutExecution.turnExecution).map _) _ _ = _
  rw [h]
  rfl

theorem face_live (hlive : self.live = some live) : self.face.live = some live.face := by
  simp [face, hlive]

theorem deleteCloseSucceeded_step (hlive : self.live = some live) (hanswers : self.face.Answers)
    (h : self.deleteCloseSucceeded sessionId live operationId = .ok reduction) :
    Reduces called used urlUsed sessionId (.drains operationId .deleting) self reduction := by
  simp only [deleteCloseSucceeded, ite_error_eq_ok, Except.ok.injEq, not_or,
    Bool.not_eq_false] at h
  obtain ⟨⟨hr, -, -⟩, rfl⟩ := h
  obtain ⟨operation, ho, rfl, hk⟩ := runs_eq_true hr
  rw [Reduces, answers_drainEffects, face_withoutExecution, ho]
  exact @Face.Step.drains _ _ _ _ self.face operation live.face
    { operation with stage := "deleting" } none .deleting ho rfl (.inr rfl)
    (face_live hlive) hanswers (by simp) (by simp) (fun _ => rfl) fun _ => ⟨_, rfl, hk, rfl⟩

theorem markOperationUncertain_step {reason : String} (hlive : self.live = some live)
    (hanswers : self.face.Answers)
    (h : self.markOperationUncertain sessionId live operationId reason = .ok reduction) :
    Reduces called used urlUsed sessionId (.drains operationId .uncertain) self reduction := by
  simp only [markOperationUncertain, ite_error_eq_ok, Except.ok.injEq, Bool.not_eq_false] at h
  obtain ⟨hr, rfl⟩ := h
  cases ho : self.operation with
  | none => simp [ho] at hr
  | some operation =>
      have hid : operation.operationId = operationId := by simpa [ho] using hr
      subst hid
      rw [Reduces, answers_drainEffects]
      exact @Face.Step.drains _ _ _ _ self.face operation live.face
        { operation with stage := "uncertain", uncertaintyReason := some reason }
        self.face.execution .uncertain ho rfl (.inl rfl) (face_live hlive) hanswers (by simp)
        (by simp) (fun h => absurd rfl h) fun h => by simp at h

theorem closeSession_step (hlive : self.live = some live) (hanswers : self.face.Answers)
    (h : self.closeSession sessionId live operationId = .ok reduction) :
    Reduces called used urlUsed sessionId (.drains operationId .closed) self reduction := by
  simp only [closeSession, ite_error_eq_ok, Except.ok.injEq, not_or, Bool.not_eq_false] at h
  obtain ⟨⟨hr, -⟩, rfl⟩ := h
  obtain ⟨operation, ho, rfl, -⟩ := runs_eq_true hr
  rw [Reduces, answers_drainEffects, face_withoutExecution, ho]
  exact @Face.Step.drains _ _ _ _ self.face operation live.face
    { operation with stage := "cleanup" } none .closed ho rfl (.inr rfl)
    (face_live hlive) hanswers (by simp) (by simp) (fun _ => rfl) fun h => by simp at h

theorem failAttachment_step (hlive : self.live = some live) (hanswers : self.face.Answers)
    (h : self.failAttachment sessionId live operationId kind = .ok reduction) :
    Reduces called used urlUsed sessionId (.retires operationId false) self reduction := by
  simp only [failAttachment, ite_error_eq_ok, Except.ok.injEq, not_or, Bool.not_eq_false] at h
  obtain ⟨⟨-, hr⟩, rfl⟩ := h
  obtain ⟨operation, ho, rfl, -⟩ := runs_eq_true hr
  have heffects : answers ({ self with operation := none }.retireLive sessionId live).effects =
      live.interactions.effects sessionId self.incarnation :=
    answers_drainEffects sessionId self.incarnation live
  rw [Reduces, heffects]
  exact .retires none self.face.execution false ho (by simp) (.inl rfl) (face_live hlive) hanswers
    (by simp)

theorem completeDelete_step (hlive : self.live = some live) (hanswers : self.face.Answers)
    (h : self.completeDelete sessionId live operationId = .ok reduction) :
    Reduces called used urlUsed sessionId (.retires operationId true) self reduction := by
  simp only [completeDelete, ite_error_eq_ok, Except.ok.injEq, not_or, Bool.not_eq_false] at h
  obtain ⟨⟨-, hr, -⟩, rfl⟩ := h
  obtain ⟨operation, ho, rfl, -⟩ := runs_eq_true hr
  have hface : ({ self.withoutExecution with
      operation := self.operation.map fun operation => { operation with stage := "cleanup" }
      live := none } : SessionState δ).face = _ :=
    face_withoutExecution self none _
  have heffects : answers (drainEffects sessionId self.withoutExecution.incarnation live) =
      live.interactions.effects sessionId self.incarnation :=
    answers_drainEffects sessionId self.incarnation live
  change Face.Step called used urlUsed sessionId _ (answers (drainEffects sessionId
    self.withoutExecution.incarnation live)) self.face _
  rw [heffects]
  change Face.Step called used urlUsed sessionId _ _ self.face
    ({ self.withoutExecution with
      operation := self.operation.map fun operation => { operation with stage := "cleanup" }
      live := none } : SessionState δ).face
  rw [hface, ho]
  refine .retires (some { operation with stage := "cleanup" }) none true ho ?_ (.inr rfl)
    (face_live hlive) hanswers (by simp)
  rintro o ⟨⟩
  rfl

theorem sealTurn_step {lifecycle : Option SessionLifecycle} (hlive : self.live = some live)
    (hanswers : self.face.Answers) (hlifecycle : lifecycle = none ∨ lifecycle = some .uncertain)
    (h : self.sealTurn sessionId live operationId lifecycle = .ok reduction) :
    Reduces called used urlUsed sessionId (.seals operationId) self reduction := by
  unfold sealTurn at h
  cases he : self.turnExecution with
  | none => simp [he] at h
  | some execution =>
      simp only [he, ite_error_eq_ok, not_not] at h
      obtain ⟨rfl, h⟩ := h
      cases h
      have hface := face_withoutExecution self
        (some { live.withInteractions (live.interactions.sealed execution.rpcOperationId) with
          lifecycle := lifecycle.getD live.lifecycle }) self.operation
      have heffects := answers_sealEffects live.interactions sessionId self.incarnation
        execution.rpcOperationId
      have hid : self.face.execution = some execution.rpcOperationId := by simp [face, he]
      have hkept : lifecycle.getD live.lifecycle = live.face.lifecycle ∨
          lifecycle.getD live.lifecycle = .uncertain := by
        rcases hlifecycle with rfl | rfl
        · exact .inl rfl
        · exact .inr rfl
      have hstep : Face.Step called used urlUsed sessionId (.seals execution.rpcOperationId)
          (live.interactions.sealEffects sessionId self.incarnation execution.rpcOperationId)
          self.face _ :=
        @Face.Step.seals _ _ _ _ self.face live.face execution.rpcOperationId
          (lifecycle.getD live.lifecycle) hid (face_live hlive) hanswers hkept
      rw [← heffects] at hstep
      exact (congrArg (Face.Step called used urlUsed sessionId _ _ self.face) hface).mpr hstep

end Ends

end SessionState

end Attyd.Session
