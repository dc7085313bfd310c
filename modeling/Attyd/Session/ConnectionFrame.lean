import Attyd.Session.FaceSteps

/-!
# What the operations on the history leave alone

The operations on the history, on turns and on the registration of sessions write
neither the interactions of the connection nor the effects that wait. Those that
neither register a session nor reserve it leave every face as it is, except that a
turn that passes into history, or is given up, takes its execution with it.
-/

namespace Attyd.Session

open Json (Value)
open History

variable {σ δ : Type} [Inhabited σ] [DecidableEq δ]

namespace SessionRegistry

omit [Inhabited σ] [DecidableEq δ] in
/-- The part of the registry that belongs to no session and no history. -/
def side (r : SessionRegistry σ δ) : Interactions × Multiset RuntimeEffect :=
  (r.connectionInteractions, r.effects)

section Side

variable (r : SessionRegistry σ δ) (sessionId : String) (incarnation : Nat)

omit [Inhabited σ] [DecidableEq δ]

@[simp] theorem side_history (history : HistoryCache σ) : { r with history }.side = r.side := rfl

@[simp] theorem side_overlayBytes (overlayBytes : Nat) :
    { r with overlayBytes }.side = r.side := rfl

@[simp] theorem side_putState (session : SessionState δ) :
    (r.putState sessionId session).side = r.side := by
  unfold putState
  split <;> rfl

@[simp] theorem side_modifyState (f : SessionState δ → SessionState δ) :
    (r.modifyState sessionId f).side = r.side := by
  unfold modifyState
  split
  · rfl
  · exact side_putState ..

/-- The counter of turn operations is no part of it. -/
theorem side_counted (n : Nat) : ({ r with nextOperation := n } : SessionRegistry σ δ).side =
    r.side := rfl

@[simp] theorem side_putOverlay (old new : SessionState δ) :
    (r.putOverlay sessionId old new).side = r.side :=
  side_putState r sessionId new

@[simp] theorem side_removeRetainedTerminals (key : SessionKey) :
    (r.removeRetainedTerminals key).side = r.side := by
  unfold removeRetainedTerminals
  split <;> rfl

@[simp] theorem side_pruneRetainedTerminals (key : SessionKey) (updates : List Value) :
    (r.pruneRetainedTerminals key updates).side = r.side := by
  unfold pruneRetainedTerminals
  split <;> rfl

@[simp] theorem side_retireEntry : (r.retireEntry sessionId incarnation).side = r.side := by
  unfold retireEntry
  split <;> rfl

@[simp] theorem side_stateStep (change : SessionState δ → Except MirrorError (SessionState δ)) :
    (r.stateStep sessionId incarnation change).2.side = r.side := by
  unfold stateStep
  split
  · rfl
  · split
    · rfl
    · exact side_putState ..

@[simp] theorem side_overlayStep (change : SessionState δ → Except MirrorError (SessionState δ)) :
    (r.overlayStep sessionId incarnation change).2.side = r.side := by
  unfold overlayStep
  split
  · rfl
  · split
    · rfl
    · exact side_putOverlay ..

end Side

section Operations

variable (r : SessionRegistry σ δ) (sessionId attemptId : String) (incarnation : Nat)

omit [DecidableEq δ]

@[simp] theorem side_clearHistoryForReplacement :
    (r.clearHistoryForReplacement sessionId incarnation).side = r.side := by
  unfold clearHistoryForReplacement
  split
  · rfl
  · rename_i session _
    change (removeRetainedTerminals _ _).side = r.side
    rw [side_removeRetainedTerminals]
    exact side_putState r sessionId _

@[simp] theorem side_replaceIncarnation :
    (r.replaceIncarnation sessionId incarnation).side = r.side := by
  unfold replaceIncarnation
  split
  · rfl
  · split <;> simp

@[simp] theorem side_registerHistory (ready : Bool) :
    (r.registerHistory sessionId incarnation ready).side = r.side := by
  have hside := side_replaceIncarnation
    { r with nextIncarnation := max r.nextIncarnation incarnation } sessionId incarnation
  simp only [registerHistory]
  split
  · exact hside
  · exact hside

@[simp] theorem side_remove : (r.remove sessionId incarnation).side = r.side := by
  simp only [remove]
  split
  · exact side_clearHistoryForReplacement ..
  · split <;> simp

@[simp] theorem side_beginLoad : (r.beginLoad sessionId incarnation attemptId).2.side = r.side := by
  unfold beginLoad
  split
  · rfl
  · split
    · rfl
    · split <;> simp

@[simp] theorem side_appendLoadUpdate (update : Value) :
    (r.appendLoadUpdate sessionId incarnation attemptId update).2.side = r.side := by
  simp only [appendLoadUpdate]
  split <;> rfl

@[simp] theorem side_appendLoadUpdates (updates : List Value) :
    (appendLoadUpdates sessionId incarnation attemptId r updates).2.side = r.side := by
  induction updates generalizing r with
  | nil => rfl
  | cons update updates ih =>
      have hside := side_appendLoadUpdate r sessionId attemptId incarnation update
      unfold appendLoadUpdates
      cases h : r.appendLoadUpdate sessionId incarnation attemptId update with
      | mk answer r' =>
          rw [h] at hside
          cases answer with
          | error error => exact hside
          | ok _ => exact (ih r').trans hside

@[simp] theorem side_commitLoad :
    (r.commitLoad sessionId incarnation attemptId).2.side = r.side := by
  simp only [commitLoad]
  split
  · rfl
  · split
    · rfl
    · split
      · rfl
      · split
        · rfl
        · rename_i history _
          refine (side_pruneRetainedTerminals _ _ _).trans ?_
          exact side_putState { r with history } sessionId _

@[simp] theorem side_commitAttachmentCache :
    (r.commitAttachmentCache sessionId incarnation attemptId).2.side = r.side := by
  have hside := side_commitLoad r sessionId attemptId incarnation
  unfold commitAttachmentCache
  split
  · rename_i h
    rwa [h] at hside
  · rename_i h
    rw [h] at hside
    exact (side_modifyState _ _ _).trans hside

@[simp] theorem side_failLoad (message : String) (retryable : Bool) :
    (r.failLoad sessionId incarnation attemptId message retryable).2.side = r.side := by
  unfold failLoad
  split
  · rfl
  · split
    · rfl
    · split <;> simp

@[simp] theorem side_useCachedHistory (updates : List Value) (notice : String) :
    (r.useCachedHistory sessionId incarnation updates notice).2.side = r.side := by
  simp only [useCachedHistory]
  split
  · rfl
  · rename_i session _
    split
    · rfl
    · have hbegin := side_beginLoad (r.putState sessionId { session with phase := .cold })
        sessionId "bridge-cache-fallback" incarnation
      rw [side_putState] at hbegin
      split
      · rename_i h
        rwa [h] at hbegin
      · rename_i r₁ h
        rw [h] at hbegin
        have happend := side_appendLoadUpdates r₁ sessionId "bridge-cache-fallback" incarnation
          updates
        split
        · rename_i h
          rw [h] at happend
          exact happend.trans hbegin
        · rename_i r₂ h
          rw [h] at happend
          have hcommit := side_commitLoad r₂ sessionId "bridge-cache-fallback" incarnation
          split
          · rename_i h
            rw [h] at hcommit
            exact hcommit.trans (happend.trans hbegin)
          · rename_i h
            rw [h] at hcommit
            exact (side_modifyState _ _ _).trans (hcommit.trans (happend.trans hbegin))

omit [Inhabited σ] in
@[simp] theorem side_appendSessionUpdate (update : Value) :
    (r.appendSessionUpdate sessionId incarnation update).2.side = r.side := by
  unfold appendSessionUpdate
  split
  · rfl
  · split
    · rfl
    · split
      · exact side_overlayStep ..
      · split
        · rfl
        · split
          · rfl
          · rename_i history _
            exact side_putState { r with history } sessionId _

omit [Inhabited σ] in
@[simp] theorem side_commitCompletedTurnFromMemory (operationId : String) :
    (r.commitCompletedTurnFromMemory sessionId incarnation operationId).2.side = r.side := by
  unfold commitCompletedTurnFromMemory
  split
  · rfl
  · split
    · rfl
    · split
      · rfl
      · rename_i history _
        exact side_putState { r with history } sessionId _

omit [Inhabited σ] in
@[simp] theorem side_retainTerminalOutput (terminalId : String) (terminal : Value) :
    (r.retainTerminalOutput sessionId incarnation terminalId terminal).2.side = r.side := by
  simp only [retainTerminalOutput]
  split
  · rfl
  · split
    · rfl
    · exact side_putState _ sessionId _

omit [Inhabited σ] in
@[simp] theorem side_beginExclusive (kind : SessionOperationKind) (operationId : String) :
    (r.beginExclusive sessionId incarnation kind operationId).2.side = r.side := by
  unfold beginExclusive
  split
  · rfl
  · split
    · rfl
    · exact side_stateStep ..

end Operations

end SessionRegistry

namespace RegistryOp

/-- No operation on the history writes the connection or the effects. -/
theorem step_side (sha256 : String → δ) (validate : ValidateHistoryUpdate σ)
    (r : SessionRegistry σ δ) (op : RegistryOp) (hop : op.independent = true) :
    (op.step sha256 validate r).side = r.side := by
  cases op with
  | registerCold | registerNew => exact r.side_registerHistory ..
  | clearHistoryForReplacement => exact r.side_clearHistoryForReplacement ..
  | remove => exact r.side_remove ..
  | beginLoad => exact r.side_beginLoad ..
  | appendLoadUpdate => exact r.side_appendLoadUpdate ..
  | invalidateLoad =>
      simp only [step, SessionRegistry.invalidateLoad]
      split <;> rfl
  | commitLoad => exact r.side_commitLoad ..
  | commitAttachmentCache => exact r.side_commitAttachmentCache ..
  | useCachedHistory => exact r.side_useCachedHistory ..
  | failLoad => exact r.side_failLoad ..
  | appendTurnUpdate | completeTurn => exact r.side_overlayStep ..
  | appendSessionUpdate => exact r.side_appendSessionUpdate ..
  | commitCompletedTurnFromMemory => exact r.side_commitCompletedTurnFromMemory ..
  | blockTurn | settleExclusive => exact r.side_stateStep ..
  | retainTerminalOutput => exact r.side_retainTerminalOutput ..
  | beginExclusive => exact r.side_beginExclusive ..
  | touch =>
      simp only [step, SessionRegistry.touch]
      split <;> simp
  | view =>
      simp only [step, SessionRegistry.view]
      split
      · rfl
      · split <;> rfl
  | handle => rfl
  | startTurn | installLive | writeLive => cases hop

end RegistryOp

end Attyd.Session
