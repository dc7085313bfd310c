import Attyd.Session.Registration

/-!
# Runs of the registry

Sessions come and go, load, run turns and are written by the live side, in any
order, while writers of candidates still hold their handles. A run is any
sequence of these operations. Each moves the slices of the sessions along
transitions: those of the kinds of the operation for its own session, and the
advance of the counters for every other.
-/

namespace Attyd.Session

open Json (Value)
open History

variable {σ δ : Type} [Inhabited σ] [DecidableEq δ]

/-- The operations of the registry, of the handles of candidates, and of the live side. -/
inductive RegistryOp where
  | registerCold (sessionId : String) (incarnation : Nat)
  | registerNew (sessionId : String) (incarnation : Nat)
  | clearHistoryForReplacement (sessionId : String) (incarnation : Nat)
  | remove (sessionId : String) (incarnation : Nat)
  | beginLoad (sessionId : String) (incarnation : Nat) (attemptId : String)
  | appendLoadUpdate (sessionId : String) (incarnation : Nat) (attemptId : String)
      (update : Value)
  | invalidateLoad (sessionId : String) (incarnation : Nat) (attemptId : String)
  | commitLoad (sessionId : String) (incarnation : Nat) (attemptId : String)
  | commitAttachmentCache (sessionId : String) (incarnation : Nat) (attemptId : String)
  | useCachedHistory (sessionId : String) (incarnation : Nat) (updates : List Value)
      (notice : String)
  | failLoad (sessionId : String) (incarnation : Nat) (attemptId message : String)
      (retryable : Bool)
  | startTurn (sessionId : String) (incarnation : Nat)
      (expectedHistoryRevision clientIntentId : String) (prompt : Prompt)
  | appendTurnUpdate (sessionId : String) (incarnation : Nat) (operationId : String)
      (update : Value)
  | completeTurn (sessionId : String) (incarnation : Nat) (operationId : String)
      (terminal : Value)
  | appendSessionUpdate (sessionId : String) (incarnation : Nat) (update : Value)
  | commitCompletedTurnFromMemory (sessionId : String) (incarnation : Nat) (operationId : String)
  | blockTurn (sessionId : String) (incarnation : Nat) (operationId message : String)
  | retainTerminalOutput (sessionId : String) (incarnation : Nat) (terminalId : String)
      (terminal : Value)
  | beginExclusive (sessionId : String) (incarnation : Nat) (kind : SessionOperationKind)
      (operationId : String)
  | settleExclusive (sessionId : String) (incarnation : Nat) (kind : SessionAdmission)
      (operationId : String)
  | touch (sessionId : String) (incarnation : Nat)
  | view (sessionId : String) (incarnation : Nat)
  | installLive (sessionId : String) (incarnation : Nat) (live : SessionLiveState)
  | writeLive (sessionId : String) (live : Option SessionLiveState)
      (operation : Option SessionOperationState) (execution : Option TurnExecution)
      (viewRevision : Nat)
  | handle (replay : Nat) (op : ReplayOp)

namespace RegistryOp

/-- One operation, whatever it answers. -/
def step (sha256 : String → δ) (validate : ValidateHistoryUpdate σ) (r : SessionRegistry σ δ) :
    RegistryOp → SessionRegistry σ δ
  | registerCold sessionId incarnation => r.registerCold sessionId incarnation
  | registerNew sessionId incarnation => r.registerNew sessionId incarnation
  | clearHistoryForReplacement sessionId incarnation =>
      r.clearHistoryForReplacement sessionId incarnation
  | remove sessionId incarnation => r.remove sessionId incarnation
  | beginLoad sessionId incarnation attemptId => (r.beginLoad sessionId incarnation attemptId).2
  | appendLoadUpdate sessionId incarnation attemptId update =>
      (r.appendLoadUpdate sessionId incarnation attemptId update).2
  | invalidateLoad sessionId incarnation attemptId =>
      (r.invalidateLoad sessionId incarnation attemptId).2
  | commitLoad sessionId incarnation attemptId =>
      (r.commitLoad sessionId incarnation attemptId).2
  | commitAttachmentCache sessionId incarnation attemptId =>
      (r.commitAttachmentCache sessionId incarnation attemptId).2
  | useCachedHistory sessionId incarnation updates notice =>
      (r.useCachedHistory sessionId incarnation updates notice).2
  | failLoad sessionId incarnation attemptId message retryable =>
      (r.failLoad sessionId incarnation attemptId message retryable).2
  | startTurn sessionId incarnation expectedHistoryRevision clientIntentId prompt =>
      (r.startTurn sha256 sessionId incarnation expectedHistoryRevision clientIntentId prompt).2
  | appendTurnUpdate sessionId incarnation operationId update =>
      (r.appendTurnUpdate sessionId incarnation operationId update).2
  | completeTurn sessionId incarnation operationId terminal =>
      (r.completeTurn sessionId incarnation operationId terminal).2
  | appendSessionUpdate sessionId incarnation update =>
      (r.appendSessionUpdate sessionId incarnation update).2
  | commitCompletedTurnFromMemory sessionId incarnation operationId =>
      (r.commitCompletedTurnFromMemory sessionId incarnation operationId).2
  | blockTurn sessionId incarnation operationId message =>
      (r.blockTurn sessionId incarnation operationId message).2
  | retainTerminalOutput sessionId incarnation terminalId terminal =>
      (r.retainTerminalOutput sessionId incarnation terminalId terminal).2
  | beginExclusive sessionId incarnation kind operationId =>
      (r.beginExclusive sessionId incarnation kind operationId).2
  | settleExclusive sessionId incarnation kind operationId =>
      (r.settleExclusive sessionId incarnation kind operationId).2
  | touch sessionId incarnation => (r.touch sessionId incarnation).2
  | view sessionId incarnation => (r.view sessionId incarnation).2
  | installLive sessionId incarnation live => r.installLive sessionId incarnation live
  | writeLive sessionId live operation execution viewRevision =>
      r.modifyState sessionId (·.withLive live operation execution viewRevision)
  | handle replay op =>
      { r with history := (r.history.onReplay replay fun data => op.run validate data).2 }

/-- The session an operation is about; a handle is about none. -/
def owner : RegistryOp → Option String
  | registerCold id _ | registerNew id _ | clearHistoryForReplacement id _ | remove id _
  | beginLoad id _ _ | appendLoadUpdate id _ _ _ | invalidateLoad id _ _ | commitLoad id _ _
  | commitAttachmentCache id _ _ | useCachedHistory id _ _ _ | failLoad id _ _ _ _
  | startTurn id _ _ _ _ | appendTurnUpdate id _ _ _ | completeTurn id _ _ _
  | appendSessionUpdate id _ _ | commitCompletedTurnFromMemory id _ _ | blockTurn id _ _ _
  | retainTerminalOutput id _ _ _ | beginExclusive id _ _ _ | settleExclusive id _ _ _
  | touch id _ | view id _ | installLive id _ _ | writeLive id _ _ _ _ => some id
  | handle _ _ => none

/-- The kinds of transitions an operation takes its session through. -/
def kinds : RegistryOp → List Action
  | registerCold _ _ | registerNew _ _ => [.cleared, .retired, .registered]
  | clearHistoryForReplacement _ _ => [.cleared]
  | remove _ _ => [.cleared, .retired]
  | beginLoad _ _ _ => [.begun]
  | appendLoadUpdate _ _ _ _ | invalidateLoad _ _ _ | view _ _ | handle _ _ => []
  | commitLoad _ _ _ => [.loaded]
  | commitAttachmentCache _ _ _ => [.loaded, .cooled]
  | useCachedHistory _ _ _ _ => [.cooled, .begun, .loaded, .touched]
  | failLoad _ _ _ _ _ => [.failed]
  | startTurn _ _ _ _ _ => [.touched, .admitted]
  | appendTurnUpdate _ _ _ _ => [.gathered]
  | completeTurn _ _ _ _ => [.completed]
  | appendSessionUpdate _ _ _ => [.gathered, .appended]
  | commitCompletedTurnFromMemory _ _ _ => [.remembered]
  | blockTurn _ _ _ _ => [.blocked]
  | retainTerminalOutput _ _ _ _ | beginExclusive _ _ _ _ | settleExclusive _ _ _ _
  | touch _ _ | writeLive _ _ _ _ _ => [.touched]
  | installLive _ _ _ => [.cleared, .retired, .created, .touched]

/-- No operation advances a counter twice. -/
theorem elapses_kinds (op : RegistryOp) : (elapses op.kinds).Sublist [.elapsed] := by
  cases op <;> first | exact List.nil_sublist _ | exact List.Sublist.refl _

theorem countP_kinds (op : RegistryOp) : op.kinds.countP Action.counts ≤ 1 := by
  have h := op.elapses_kinds.length_le
  rwa [elapses, List.length_map, ← List.countP_eq_length_filter] at h

variable (sha256 : String → δ) (validate : ValidateHistoryUpdate σ) (r : SessionRegistry σ δ)

/-- Every operation about a session has the effect of its kinds. -/
theorem step_effect (op : RegistryOp) {id : String} (h : op.owner = some id) :
    Effect sha256 id op.kinds r (op.step sha256 validate r) := by
  cases op with
  | handle replay op => cases h
  | registerCold _ incarnation =>
      cases h
      exact registerHistory_effect sha256 r id incarnation false
  | registerNew _ incarnation =>
      cases h
      exact registerHistory_effect sha256 r id incarnation true
  | clearHistoryForReplacement _ incarnation =>
      cases h
      exact clearHistoryForReplacement_effect sha256 r id incarnation
  | remove _ incarnation =>
      cases h
      exact remove_effect sha256 r id incarnation
  | beginLoad _ incarnation attemptId =>
      cases h
      exact beginLoad_effect sha256 r id incarnation attemptId
  | appendLoadUpdate _ incarnation attemptId update =>
      cases h
      exact appendLoadUpdate_effect sha256 r id incarnation attemptId update
  | invalidateLoad _ incarnation attemptId =>
      cases h
      exact invalidateLoad_effect sha256 validate r id incarnation attemptId
  | commitLoad _ incarnation attemptId =>
      cases h
      exact commitLoad_effect sha256 r id incarnation attemptId
  | commitAttachmentCache _ incarnation attemptId =>
      cases h
      exact commitAttachmentCache_effect sha256 r id incarnation attemptId
  | useCachedHistory _ incarnation updates notice =>
      cases h
      exact useCachedHistory_effect sha256 r id incarnation updates notice
  | failLoad _ incarnation attemptId message retryable =>
      cases h
      exact failLoad_effect sha256 r id incarnation attemptId message retryable
  | startTurn _ incarnation expectedHistoryRevision clientIntentId prompt =>
      cases h
      exact startTurn_effect sha256 r id incarnation expectedHistoryRevision clientIntentId prompt
  | appendTurnUpdate _ incarnation operationId update =>
      cases h
      exact appendTurnUpdate_effect sha256 r id incarnation operationId update
  | completeTurn _ incarnation operationId terminal =>
      cases h
      exact completeTurn_effect sha256 r id incarnation operationId terminal
  | appendSessionUpdate _ incarnation update =>
      cases h
      exact appendSessionUpdate_effect sha256 r id incarnation update
  | commitCompletedTurnFromMemory _ incarnation operationId =>
      cases h
      exact commitCompletedTurnFromMemory_effect sha256 r id incarnation operationId
  | blockTurn _ incarnation operationId message =>
      cases h
      exact blockTurn_effect sha256 r id incarnation operationId message
  | retainTerminalOutput _ incarnation terminalId terminal =>
      cases h
      exact retainTerminalOutput_effect sha256 r id incarnation terminalId terminal
  | beginExclusive _ incarnation kind operationId =>
      cases h
      exact beginExclusive_effect sha256 r id incarnation kind operationId
  | settleExclusive _ incarnation kind operationId =>
      cases h
      exact settleExclusive_effect sha256 r id incarnation kind operationId
  | touch _ incarnation =>
      cases h
      exact touch_effect sha256 r id incarnation
  | view _ incarnation =>
      cases h
      exact view_effect sha256 r id incarnation
  | installLive _ incarnation live =>
      cases h
      exact installLive_effect sha256 r id incarnation live
  | writeLive _ live operation execution viewRevision =>
      cases h
      cases ha : r.state id with
      | none =>
          simp only [step, SessionRegistry.modifyState, ha]
          exact .refl r
      | some a =>
          have htouched : Touched a (a.withLive live operation execution viewRevision) :=
            { Touched.refl a with turn := ⟨fun _ => execution, rfl⟩ }
          exact modifyState_effect _ ha (.touched ha htouched)

/-- An operation through a handle is seen by no session. -/
theorem handle_effect (replay : Nat) (op : ReplayOp) (id : String) :
    Effect sha256 id [] r (step sha256 validate r (.handle replay op)) :=
  .of_view (fun _ => rfl) rfl rfl rfl fun hf => hf.handle validate replay op

/-- What one operation does to the slice of any session. -/
theorem step_moves (op : RegistryOp) (id : String) :
    op.owner = some id ∧
        Moves sha256 id op.kinds (r.slice id) ((op.step sha256 validate r).slice id) ∨
      op.owner ≠ some id ∧
        Moves sha256 id [.elapsed] (r.slice id) ((op.step sha256 validate r).slice id) := by
  by_cases h : op.owner = some id
  · exact .inl ⟨h, (step_effect sha256 validate r op h).self⟩
  · refine .inr ⟨h, ?_⟩
    cases ho : op.owner with
    | some own =>
        have hne : id ≠ own := by
          rintro rfl
          exact h ho
        exact ((step_effect sha256 validate r op ho).other id hne).mono op.elapses_kinds
    | none =>
        cases op with
        | handle replay op =>
            exact (handle_effect sha256 validate r replay op id).self.mono (List.nil_sublist _)
        | _ => cases ho

/-- The cache stays folded. -/
theorem step_folded (op : RegistryOp) (h : r.history.Folded) :
    (op.step sha256 validate r).history.Folded := by
  cases ho : op.owner with
  | some own => exact (step_effect sha256 validate r op ho).folded h
  | none =>
      cases op with
      | handle replay op => exact h.handle validate replay op
      | _ => cases ho

end RegistryOp

end Attyd.Session
