import Attyd.Session.LoadEffects

/-!
# What the operations of a turn do

A turn is admitted, gathers updates, completes, and passes into the published
history; beside it the session is touched by operations that leave turn, load and
history alone.
-/

namespace Attyd.Session

open Json (Value)
open History

variable {σ δ : Type} [DecidableEq δ] {sha256 : String → δ} {r : SessionRegistry σ δ}
  {sessionId : String}

section Turn

/-- A turn request is answered without a new turn only as a duplicate. -/
theorem checkTurnAdmission_eq_some {a : SessionState δ} {expectedHistoryRevision clientIntentId : String}
    {prompt : Prompt} {admission : TurnAdmission}
    (h : a.checkTurnAdmission sha256 expectedHistoryRevision clientIntentId prompt =
      .ok (some admission)) : ∃ operationId, admission = .duplicate operationId := by
  unfold SessionState.checkTurnAdmission at h
  dsimp only at h
  split at h
  · split at h
    · cases h
      exact ⟨_, rfl⟩
    · cases h
  · split at h
    · split at h
      · cases h
        exact ⟨_, rfl⟩
      · cases h
    · obtain ⟨u, -, h⟩ := bind_eq_ok.mp h
      split at h <;> cases h

/-- A turn request is refused, answered from memory, or starts a turn. -/
theorem startTurn_cases (sha256 : String → δ) (r : SessionRegistry σ δ) (sessionId : String)
    (incarnation : Nat) (expectedHistoryRevision clientIntentId : String) (prompt : Prompt) :
    (∃ error, r.startTurn sha256 sessionId incarnation expectedHistoryRevision clientIntentId
        prompt = (.error error, r)) ∨
      ∃ a, r.state sessionId = some a ∧ a.incarnation = incarnation ∧
        ((∃ id, a.checkTurnAdmission sha256 expectedHistoryRevision clientIntentId prompt =
            .ok (some (.duplicate id)) ∧
          r.startTurn sha256 sessionId incarnation expectedHistoryRevision clientIntentId prompt =
            (.ok (.duplicate id), r.putOverlay sessionId a a)) ∨
          a.checkTurnAdmission sha256 expectedHistoryRevision clientIntentId prompt = .ok none ∧
          r.startTurn sha256 sessionId incarnation expectedHistoryRevision clientIntentId prompt =
            (.ok (.accepted (r.slice sessionId).nextOperationId),
              { r.putOverlay sessionId a
                  (a.turnBegun sha256 (r.slice sessionId).nextOperationId clientIntentId prompt)
                with nextOperation := nextCounter r.nextOperation })) := by
  unfold SessionRegistry.startTurn SessionState.admitTurn
  cases hr : r.requireState sessionId incarnation with
  | error error => exact .inl ⟨error, rfl⟩
  | ok a =>
      obtain ⟨ha, hi⟩ := requireState_eq_ok.mp hr
      dsimp only
      cases hc : a.checkTurnAdmission sha256 expectedHistoryRevision clientIntentId prompt with
      | error error => exact .inl ⟨error, rfl⟩
      | ok answer =>
          cases answer with
          | none => exact .inr ⟨a, ha, hi, .inr ⟨hc, rfl⟩⟩
          | some admission =>
              obtain ⟨id, rfl⟩ := checkTurnAdmission_eq_some hc
              exact .inr ⟨a, ha, hi, .inl ⟨id, hc, rfl⟩⟩

theorem startTurn_effect (sha256 : String → δ)
    (r : SessionRegistry σ δ) (sessionId : String) (incarnation : Nat)
    (expectedHistoryRevision clientIntentId : String) (prompt : Prompt) :
    Effect sha256 sessionId [.touched, .admitted] r
      (r.startTurn sha256 sessionId incarnation expectedHistoryRevision clientIntentId
        prompt).2 := by
  rcases startTurn_cases sha256 r sessionId incarnation expectedHistoryRevision clientIntentId
    prompt with ⟨error, hr⟩ | ⟨a, ha, -, ⟨id, -, hr⟩ | ⟨hc, hr⟩⟩
  · rw [hr]
    exact .refl r
  · rw [hr]
    exact (putOverlay_effect ha (.touched ha (.refl a))).mono (by decide)
  · rw [hr]
    have hw := (written_putOverlay ha
      (a.turnBegun sha256 (r.slice sessionId).nextOperationId clientIntentId prompt)).counted
        (nextCounter r.nextOperation)
    refine Effect.of_written hw ?_ ?_ ?_
    · exact (Moves.single (.admitted expectedHistoryRevision clientIntentId prompt ha hc)).mono
        (by decide)
    · intro other _
      change Moves sha256 other [.elapsed] _ _
      exact .single (.elapsed (.inr rfl) (.inl rfl))
    · dsimp only
      rw [history_putOverlay]
      exact id

omit [DecidableEq δ] in
/-- A change of an overlay is refused or written. -/
theorem overlayStep_cases
    (r : SessionRegistry σ δ) (sessionId : String) (incarnation : Nat)
    (change : SessionState δ → Except MirrorError (SessionState δ)) :
    (∃ error, r.overlayStep sessionId incarnation change = (.error error, r)) ∨
      ∃ a b, r.state sessionId = some a ∧ a.incarnation = incarnation ∧ change a = .ok b ∧
        r.overlayStep sessionId incarnation change = (.ok (), r.putOverlay sessionId a b) := by
  unfold SessionRegistry.overlayStep
  cases hr : r.requireState sessionId incarnation with
  | error error => exact .inl ⟨error, rfl⟩
  | ok a =>
      obtain ⟨ha, hi⟩ := requireState_eq_ok.mp hr
      dsimp only
      cases hc : change a with
      | error error => exact .inl ⟨error, rfl⟩
      | ok b => exact .inr ⟨a, b, ha, hi, hc, rfl⟩

omit [DecidableEq δ] in
/-- A change of a state is refused or written. -/
theorem stateStep_cases
    (r : SessionRegistry σ δ) (sessionId : String) (incarnation : Nat)
    (change : SessionState δ → Except MirrorError (SessionState δ)) :
    (∃ error, r.stateStep sessionId incarnation change = (.error error, r)) ∨
      ∃ a b, r.state sessionId = some a ∧ a.incarnation = incarnation ∧ change a = .ok b ∧
        r.stateStep sessionId incarnation change = (.ok (), r.putState sessionId b) := by
  unfold SessionRegistry.stateStep
  cases hr : r.requireState sessionId incarnation with
  | error error => exact .inl ⟨error, rfl⟩
  | ok a =>
      obtain ⟨ha, hi⟩ := requireState_eq_ok.mp hr
      dsimp only
      cases hc : change a with
      | error error => exact .inl ⟨error, rfl⟩
      | ok b => exact .inr ⟨a, b, ha, hi, hc, rfl⟩

theorem overlayStep_effect {kind : Action} (r : SessionRegistry σ δ) (sessionId : String)
    (incarnation : Nat) {change : SessionState δ → Except MirrorError (SessionState δ)}
    (ht : ∀ a b, r.state sessionId = some a → change a = .ok b →
      Transition sha256 sessionId kind (r.slice sessionId)
        ((r.slice sessionId).setSession b)) :
    Effect sha256 sessionId [kind] r (r.overlayStep sessionId incarnation change).2 := by
  rcases overlayStep_cases r sessionId incarnation change with
    ⟨error, hr⟩ | ⟨a, b, ha, -, hb, hr⟩
  · rw [hr]
    exact .refl r
  · rw [hr]
    exact putOverlay_effect ha (ht a b ha hb)

theorem stateStep_effect {kind : Action} (r : SessionRegistry σ δ) (sessionId : String)
    (incarnation : Nat) {change : SessionState δ → Except MirrorError (SessionState δ)}
    (ht : ∀ a b, r.state sessionId = some a → change a = .ok b →
      Transition sha256 sessionId kind (r.slice sessionId)
        ((r.slice sessionId).setSession b)) :
    Effect sha256 sessionId [kind] r (r.stateStep sessionId incarnation change).2 := by
  rcases stateStep_cases r sessionId incarnation change with
    ⟨error, hr⟩ | ⟨a, b, ha, -, hb, hr⟩
  · rw [hr]
    exact .refl r
  · rw [hr]
    exact putState_effect ha (ht a b ha hb)

theorem appendTurnUpdate_effect (sha256 : String → δ) (r : SessionRegistry σ δ) (sessionId : String)
    (incarnation : Nat) (operationId : String) (update : Value) :
    Effect sha256 sessionId [.gathered] r
      (r.appendTurnUpdate sessionId incarnation operationId update).2 := by
  refine overlayStep_effect r sessionId incarnation fun a b ha hb => ?_
  unfold SessionState.appendTurnUpdate at hb
  split at hb
  case isTrue => cases hb
  case isFalse hp =>
    obtain ⟨turn, -, hb⟩ := bind_eq_ok.mp hb
    exact .gathered update ha (.inl (by simpa using hp)) hb

theorem completeTurn_effect (sha256 : String → δ)
    (r : SessionRegistry σ δ) (sessionId : String) (incarnation : Nat)
    (operationId : String) (terminal : Value) :
    Effect sha256 sessionId [.completed] r
      (r.completeTurn sessionId incarnation operationId terminal).2 :=
  overlayStep_effect r sessionId incarnation fun _ _ ha hb =>
    .completed operationId terminal ha hb

theorem blockTurn_effect (sha256 : String → δ)
    (r : SessionRegistry σ δ) (sessionId : String) (incarnation : Nat)
    (operationId message : String) :
    Effect sha256 sessionId [.blocked] r
      (r.blockTurn sessionId incarnation operationId message).2 :=
  stateStep_effect r sessionId incarnation fun _ _ ha hb => .blocked operationId message ha hb

omit [DecidableEq δ] in
/-- An idle update is refused, joins the overlay, or is published. -/
theorem appendSessionUpdate_cases (r : SessionRegistry σ δ) (sessionId : String)
    (incarnation : Nat) (update : Value) :
    (∃ error, r.appendSessionUpdate sessionId incarnation update = (.error error, r)) ∨
      ∃ a, r.state sessionId = some a ∧ a.incarnation = incarnation ∧ a.loadAttempt = none ∧
        ((∃ b, a.phase = .reconciling ∧ a.foldOverlayUpdate update = .ok b ∧
          r.appendSessionUpdate sessionId incarnation update =
            (.ok (), r.putOverlay sessionId a b)) ∨
        ∃ prior updates, a.phase = .ready ∧
          r.history.peek ⟨sessionId, incarnation⟩ = some prior ∧
          foldHistoryUpdate prior.updates update = .ok updates ∧
          let published := r.history.installSnapshot ⟨sessionId, incarnation⟩ updates
            (Value.array updates).bytes
          r.appendSessionUpdate sessionId incarnation update =
            (.ok (), SessionRegistry.putState { r with history := published.2 } sessionId
              { a with historyRevision := some published.1.revision }.advanceRevision)) := by
  unfold SessionRegistry.appendSessionUpdate
  cases hr : r.requireState sessionId incarnation with
  | error error => exact .inl ⟨error, rfl⟩
  | ok a =>
      obtain ⟨ha, hi⟩ := requireState_eq_ok.mp hr
      dsimp only
      cases hl : a.loadAttempt with
      | some attemptId => exact .inl ⟨.wrongPhase, by simp⟩
      | none =>
          simp only [Option.isSome_none, Bool.false_eq_true, if_false]
          by_cases hp : a.phase = .reconciling
          · simp only [hp, if_true, SessionRegistry.overlayStep, hr,
              SessionState.appendReconcilingUpdate, hl]
            cases hf : a.foldOverlayUpdate update with
            | error error => exact .inl ⟨error, by simp⟩
            | ok b => exact .inr ⟨a, ha, hi, hl, .inl ⟨b, hp, hf, by simp⟩⟩
          · by_cases hready : a.phase = .ready
            · simp only [hready, ne_eq, not_true, if_false, reduceCtorEq]
              rcases r.history.appendCommittedUpdates_cases ⟨sessionId, incarnation⟩ [update] with
                ⟨error, hc⟩ | ⟨prior, updates, hprior, hf, hc⟩
              · exact .inl ⟨.history error, by simp only [hc]⟩
              · have hfold : foldHistoryUpdate prior.updates update = .ok updates := by
                  simpa using hf
                exact .inr ⟨a, ha, hi, hl, .inr ⟨prior, updates, hready, hprior, hfold,
                  by simp only [hc, hready, hl]⟩⟩
            · exact .inl ⟨.wrongPhase, by simp only [hp, hready, if_false, ne_eq,
                not_false_eq_true, if_true]⟩

theorem appendSessionUpdate_effect (sha256 : String → δ) (r : SessionRegistry σ δ) (sessionId : String)
    (incarnation : Nat) (update : Value) :
    Effect sha256 sessionId [.gathered, .appended] r
      (r.appendSessionUpdate sessionId incarnation update).2 := by
  rcases appendSessionUpdate_cases r sessionId incarnation update with
    ⟨error, hr⟩ | ⟨a, ha, rfl, hl, ⟨b, hp, hf, hr⟩ | ⟨prior, updates, hp, hprior, hf, hr⟩⟩
  · rw [hr]
    exact .refl r
  · rw [hr]
    exact (putOverlay_effect ha (.gathered update ha (.inr ⟨hp, hl⟩) hf)).mono (by decide)
  · rw [hr]
    have hw := fun b => written_putState_history ha
      (r.history.installSnapshot ⟨sessionId, a.incarnation⟩ updates (Value.array updates).bytes).2 b
    simp only [HistoryCache.view_installSnapshot] at hw
    have hall : [update].foldlM foldHistoryUpdate prior.updates = .ok updates := by
      simpa using hf
    refine Effect.mono (Effect.of_publish (hw _) (fun _ _ => rfl)
      (.appended update updates _ ha hl hp hprior hf) rfl ?_) (by decide)
    · intro hfold
      rw [history_putState]
      exact hfold.installSnapshot _ ((hfold.entries _ _ hprior).foldlM hall) _

omit [DecidableEq δ] in
theorem completedTurn_eq_ok {a : SessionState δ} {operationId : String} {turn : TurnOverlay}
    (h : SessionRegistry.completedTurn a operationId = .ok turn) :
    a.phase = .reconciling ∧ a.activeTurn = some turn ∧ turn.operationId = operationId ∧
      turn.terminal.isSome = true ∧ a.historyRevision.isSome = true ∧
      a.validateHistoryCommit = .ok () := by
  unfold SessionRegistry.completedTurn at h
  split at h
  case isTrue => cases h
  case isFalse hp =>
    cases hf : a.activeTurn.filter fun turn =>
        turn.operationId = operationId && turn.terminal.isSome with
    | none => simp [hf] at h
    | some found =>
        simp only [hf] at h
        split at h
        case isTrue => cases h
        case isFalse hrevision =>
          obtain ⟨u, hv, h⟩ := bind_eq_ok.mp h
          cases h
          obtain ⟨hturn, hmatch⟩ := Option.filter_eq_some_iff.mp hf
          simp only [Bool.and_eq_true, decide_eq_true_eq] at hmatch
          refine ⟨not_not.mp hp, hturn, hmatch.1, hmatch.2, ?_, hv⟩
          simpa [Option.isSome_iff_ne_none] using hrevision

/-- The registry once a completed turn has passed into the published history. -/
def turnRemembered (r : SessionRegistry σ δ) (key : SessionKey) (a : SessionState δ)
    (updates : List Value) : SessionRegistry σ δ :=
  let published := r.history.installSnapshot key updates (Value.array updates).bytes
  { SessionRegistry.putState { r with history := published.2 } key.sessionId
      (a.historyCommitted published.1.revision updates.length false) with
    overlayBytes := r.overlayBytes - a.activeOverlayBytes }

omit [DecidableEq δ] in
/-- A completed turn is refused, or passes into the published history. -/
theorem commitCompletedTurnFromMemory_cases (r : SessionRegistry σ δ) (sessionId : String)
    (incarnation : Nat) (operationId : String) :
    (∃ error, r.commitCompletedTurnFromMemory sessionId incarnation operationId =
        (.error error, r)) ∨
      ∃ a turn prior updates, r.state sessionId = some a ∧ a.incarnation = incarnation ∧
        SessionRegistry.completedTurn a operationId = .ok turn ∧
        r.history.peek ⟨sessionId, incarnation⟩ = some prior ∧
        (SessionRegistry.turnSuffix turn).foldlM foldHistoryUpdate prior.updates = .ok updates ∧
        r.commitCompletedTurnFromMemory sessionId incarnation operationId =
          (.ok (r.history.installSnapshot ⟨sessionId, incarnation⟩ updates
              (Value.array updates).bytes).1,
            turnRemembered r ⟨sessionId, incarnation⟩ a updates) := by
  unfold SessionRegistry.commitCompletedTurnFromMemory
  cases hr : r.requireState sessionId incarnation with
  | error error => exact .inl ⟨error, rfl⟩
  | ok a =>
      obtain ⟨ha, hi⟩ := requireState_eq_ok.mp hr
      dsimp only
      cases ht : SessionRegistry.completedTurn a operationId with
      | error error => exact .inl ⟨error, rfl⟩
      | ok turn =>
          rcases r.history.appendCommittedUpdates_cases ⟨sessionId, incarnation⟩
            (SessionRegistry.turnSuffix turn) with ⟨error, hc⟩ | ⟨prior, updates, hprior, hf, hc⟩
          · exact .inl ⟨.history error, by simp only [hc]⟩
          · refine .inr ⟨a, turn, prior, updates, ha, hi, ht, hprior, hf, ?_⟩
            simp only [hc]
            rfl

omit [DecidableEq δ] in
theorem written_turnRemembered {a : SessionState δ} {incarnation : Nat}
    (h : r.state sessionId = some a) (updates : List Value) :
    Written r (turnRemembered r ⟨sessionId, incarnation⟩ a updates) sessionId
      (some (a.historyCommitted ((r.slice sessionId).nextRevision incarnation) updates.length
        false))
      (r.history.view.publish ⟨sessionId, incarnation⟩ updates (Value.array updates).bytes)
      r.nextOperation := by
  rw [← HistoryCache.view_installSnapshot]
  exact (written_putState_history h _ _).congr rfl rfl rfl rfl

theorem commitCompletedTurnFromMemory_effect (sha256 : String → δ) (r : SessionRegistry σ δ)
    (sessionId : String) (incarnation : Nat) (operationId : String) :
    Effect sha256 sessionId [.remembered] r
      (r.commitCompletedTurnFromMemory sessionId incarnation operationId).2 := by
  rcases commitCompletedTurnFromMemory_cases r sessionId incarnation operationId with
    ⟨error, hr⟩ | ⟨a, turn, prior, updates, ha, rfl, ht, hprior, hf, hr⟩
  · rw [hr]
    exact .refl r
  · rw [hr]
    refine Effect.of_publish (written_turnRemembered ha updates) (fun _ _ => rfl) ?_ rfl ?_
    · exact .remembered operationId updates _ ha ht hprior hf
    · intro hfold
      unfold turnRemembered
      dsimp only
      rw [history_putState]
      exact hfold.installSnapshot _ ((hfold.entries _ _ hprior).foldlM hf) _

end Turn

section Operation

theorem beginExclusive_effect (sha256 : String → δ)
    (r : SessionRegistry σ δ) (sessionId : String) (incarnation : Nat)
    (kind : SessionOperationKind) (operationId : String) :
    Effect sha256 sessionId [.touched] r
      (r.beginExclusive sessionId incarnation kind operationId).2 := by
  unfold SessionRegistry.beginExclusive
  cases hr : r.requireState sessionId incarnation with
  | error error => exact .refl r
  | ok a =>
      dsimp only
      split
      · exact .refl r
      · refine stateStep_effect r sessionId incarnation fun a b ha hb => ?_
        obtain ⟨u, -, hb⟩ := bind_eq_ok.mp hb
        cases hb
        exact .touched ha { Touched.refl a with }

theorem settleExclusive_effect (sha256 : String → δ) (r : SessionRegistry σ δ) (sessionId : String)
    (incarnation : Nat) (kind : SessionAdmission) (operationId : String) :
    Effect sha256 sessionId [.touched] r
      (r.settleExclusive sessionId incarnation kind operationId).2 := by
  refine stateStep_effect r sessionId incarnation fun a b ha hb => ?_
  unfold SessionState.settleExclusive at hb
  split at hb
  · cases hb
    exact .touched ha { Touched.refl a with }
  · cases hb

theorem touch_effect (sha256 : String → δ) (r : SessionRegistry σ δ) (sessionId : String) (incarnation : Nat) :
    Effect sha256 sessionId [.touched] r (r.touch sessionId incarnation).2 := by
  unfold SessionRegistry.touch
  cases hr : r.requireState sessionId incarnation with
  | error error => exact .refl r
  | ok a =>
      obtain ⟨ha, -⟩ := requireState_eq_ok.mp hr
      exact putState_effect ha (.touched ha (touched_advanceRevision a))

theorem retainTerminalOutput_effect (sha256 : String → δ) (r : SessionRegistry σ δ) (sessionId : String)
    (incarnation : Nat) (terminalId : String) (terminal : Value) :
    Effect sha256 sessionId [.touched] r
      (r.retainTerminalOutput sessionId incarnation terminalId terminal).2 := by
  unfold SessionRegistry.retainTerminalOutput
  cases hr : r.requireState sessionId incarnation with
  | error error => exact .refl r
  | ok a =>
      obtain ⟨ha, -⟩ := requireState_eq_ok.mp hr
      dsimp only
      split
      · exact .refl r
      · exact Effect.of_terminals
          (putState_effect ha (.touched ha (touched_advanceRevision a)))

theorem view_effect (sha256 : String → δ) (r : SessionRegistry σ δ) (sessionId : String)
    (incarnation : Nat) :
    Effect sha256 sessionId [] r (r.view sessionId incarnation).2 := by
  unfold SessionRegistry.view
  cases hr : r.requireState sessionId incarnation with
  | error error => exact .refl r
  | ok a =>
      have hview := r.history.view_snapshot (⟨sessionId, incarnation⟩ : SessionKey)
      dsimp only
      cases hs : r.history.snapshot ⟨sessionId, incarnation⟩ with
      | mk baseline history =>
          have hf := fun hf : r.history.Folded => hf.snapshot ⟨sessionId, incarnation⟩
          rw [hs] at hview hf
          cases baseline <;> exact .of_view (fun _ => rfl) hview rfl rfl hf

end Operation

end Attyd.Session
