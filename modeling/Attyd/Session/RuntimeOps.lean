import Attyd.Session.Runtime

/-!
# The operations of the runtime

All operations of the registry, with what the caller passes; a run is any sequence of
them. What an operation opens and retires is read off its answer.
-/

namespace Attyd.Session

open Json (Value)
open History

variable {σ δ : Type} [Inhabited σ] [DecidableEq δ]

/-- The operations that stand for no part of another one. -/
def RegistryOp.independent : RegistryOp → Bool
  | .startTurn _ _ _ _ _ | .installLive _ _ _ | .writeLive _ _ _ _ _ => false
  | _ => true

/-- The lifecycles in which a session is in use. -/
def SessionLifecycle.inUse (lifecycle : SessionLifecycle) : Bool :=
  lifecycle ∈ [.attaching, .active, .closing, .closingForDelete]

/-- The scope of an interaction: a session under one incarnation, or the connection. -/
abbrev Scope := Option (String × Nat)

inductive RuntimeOp where
  | mirror (op : {op : RegistryOp // op.independent = true})
  | openNewWithReplay (expectedEpoch sessionId cwd : String) (session : Value)
      (replay : List Value)
  | openForked (expectedEpoch sessionId cwd : String) (session : Value) (source : String × Nat)
      (targetReplay : Option (List Value))
  | startAttachment (expectedEpoch sessionId cwd operationId : String)
      (kind : SessionOperationKind)
  | startReload (expectedEpoch sessionId : String) (incarnation : Nat) (operationId : String)
      (kind : SessionOperationKind)
  | appendAttachmentCandidate (expectedEpoch sessionId : String) (incarnation : Nat)
      (update : Value)
  | completeReload (expectedEpoch sessionId : String) (incarnation : Nat) (operationId : String)
      (response : Value)
  | failReload (expectedEpoch sessionId : String) (incarnation : Nat) (operationId : String)
  | completeAttachment (expectedEpoch sessionId : String) (incarnation : Nat)
      (operationId : String) (kind : SessionOperationKind) (response : Value)
  | failAttachment (expectedEpoch sessionId : String) (incarnation : Nat) (operationId : String)
      (kind : SessionOperationKind)
  | admitSessionTurn (expectedEpoch sessionId : String) (incarnation : Nat)
      (expectedHistoryRevision clientIntentId : String) (prompt : Prompt)
  | projectTurnUpdate (expectedEpoch sessionId : String) (incarnation : Nat)
      (overlay : TurnOverlay)
  | updateControlState (expectedEpoch sessionId : String) (incarnation : Nat) (key : String)
      (update : Value)
  | synchronizeLoadedSession (expectedEpoch sessionId : String) (incarnation : Nat)
      (response : Value) (replay : List Value)
  | requestCancel (expectedEpoch sessionId : String) (incarnation : Nat)
  | completePrompt (expectedEpoch sessionId : String) (incarnation : Nat) (operationId : String)
  | failPrompt (expectedEpoch sessionId : String) (incarnation : Nat) (operationId : String)
  | markPromptUncertain (expectedEpoch sessionId : String) (incarnation : Nat)
      (operationId : String)
  | upsertTerminal (expectedEpoch sessionId : String) (incarnation : Nat) (terminalId : String)
      (terminal : Value)
  | startOperation (expectedEpoch sessionId : String) (incarnation : Nat) (operationId : String)
      (kind : SessionOperationKind) (stage : String)
  | startDelete (expectedEpoch sessionId : String) (incarnation : Nat) (operationId : String)
  | startDirectDelete (expectedEpoch sessionId : String) (incarnation : Nat)
      (operationId : String)
  | deleteCloseSucceeded (expectedEpoch sessionId : String) (incarnation : Nat)
      (operationId : String)
  | completeDelete (expectedEpoch sessionId : String) (incarnation : Nat) (operationId : String)
  | markOperationUncertain (expectedEpoch sessionId : String) (incarnation : Nat)
      (operationId reason : String)
  | completeOperation (expectedEpoch sessionId : String) (incarnation : Nat)
      (operationId : String) (kind : SessionOperationKind)
  | completeControlOperation (expectedEpoch sessionId : String) (incarnation : Nat)
      (operationId : String) (kind : SessionOperationKind) (controlKey : String)
      (controlUpdate : Value)
  | failOperation (expectedEpoch sessionId : String) (incarnation : Nat) (operationId : String)
      (kind : SessionOperationKind)
  | closeSession (expectedEpoch sessionId : String) (incarnation : Nat) (operationId : String)
  | finishSessionCleanup (sessionId : String) (incarnation : Nat) (kind : SessionAdmission)
      (operationId : String)
  | upsertPermission (expectedEpoch sessionId : String) (incarnation : Nat)
      (interactionId : String) (request : Value)
  | resolvePermission (expectedEpoch sessionId : String) (incarnation : Nat)
      (interactionId : String)
  | beginPermissionResponse (expectedEpoch sessionId : String) (incarnation : Nat)
      (interactionId operationId : String)
  | completePermissionResponse (expectedEpoch sessionId : String) (incarnation : Nat)
      (interactionId operationId : String)
  | upsertElicitation (expectedEpoch : String) (scope : Scope) (interactionId : String)
      (request : Value)
  | resolveElicitation (expectedEpoch : String) (scope : Scope) (interactionId : String)
      (acceptedUrlId : Option String)
  | beginElicitationResponse (expectedEpoch : String) (scope : Scope)
      (interactionId operationId : String)
  | completeElicitationResponse (expectedEpoch : String) (scope : Scope)
      (interactionId operationId : String) (acceptedUrlId : Option String)
  | settleUrlRegistration (expectedEpoch : String) (scope : Scope)
      (elicitationId registrationId : String) (status : UrlFlowStatus)
  | takeEffects

/-- What the runtime takes from code that is not modelled. -/
structure RuntimeEnv (σ δ : Type) where
  sha256 : String → δ
  validate : ValidateHistoryUpdate σ
  foldTerminalSnapshot : Option Value → Value → Value

namespace RuntimeOp

/-- One operation, whatever it answers. -/
def step (env : RuntimeEnv σ δ) (r : SessionRegistry σ δ) : RuntimeOp → SessionRegistry σ δ
  | mirror op => op.1.step env.sha256 env.validate r
  | openNewWithReplay epoch id cwd session replay =>
      (r.openNewWithReplay epoch id cwd session replay).2
  | openForked epoch id cwd session source targetReplay =>
      (r.openForked epoch id cwd session source targetReplay).2
  | startAttachment epoch id cwd operationId kind =>
      (r.startAttachment epoch id cwd operationId kind).2
  | startReload epoch id incarnation operationId kind =>
      (r.startReload epoch id incarnation operationId kind).2
  | appendAttachmentCandidate epoch id incarnation update =>
      (r.liveStep epoch id incarnation (.ok ()) fun owner live =>
        owner.appendAttachmentCandidate live update).2
  | completeReload epoch id incarnation operationId response =>
      (r.liveStep epoch id incarnation (.ok ()) fun owner live =>
        owner.completeReload id live operationId response).2
  | failReload epoch id incarnation operationId =>
      (r.liveStep epoch id incarnation (.ok ()) fun owner live =>
        owner.failReload live operationId).2
  | completeAttachment epoch id incarnation operationId kind response =>
      (r.liveStep epoch id incarnation (.ok ()) fun owner live =>
        owner.completeAttachment id live operationId kind response).2
  | failAttachment epoch id incarnation operationId kind =>
      (r.liveStep epoch id incarnation (.ok ()) fun owner live =>
        owner.failAttachment id live operationId kind).2
  | admitSessionTurn epoch id incarnation expectedHistoryRevision clientIntentId prompt =>
      (r.admitSessionTurn env.sha256 epoch id incarnation expectedHistoryRevision clientIntentId
        prompt).2
  | projectTurnUpdate epoch id incarnation overlay =>
      (r.liveStep epoch id incarnation (.ok ()) fun owner live =>
        owner.projectTurnUpdate live overlay).2
  | updateControlState epoch id incarnation key update =>
      (r.liveStep epoch id incarnation (.ok ()) fun owner live =>
        owner.updateControlState live key update).2
  | synchronizeLoadedSession epoch id incarnation response replay =>
      (r.liveStep epoch id incarnation (.ok ()) fun owner live =>
        owner.synchronizeLoadedSession id live response replay).2
  | requestCancel epoch id incarnation =>
      (r.liveStep epoch id incarnation (.ok ()) fun owner _ => owner.requestCancel).2
  | completePrompt epoch id incarnation operationId =>
      (r.liveStep epoch id incarnation (.ok ()) fun owner live =>
        owner.completePrompt id live operationId).2
  | failPrompt epoch id incarnation operationId =>
      (r.liveStep epoch id incarnation (.ok ()) fun owner live =>
        owner.failPrompt id live operationId).2
  | markPromptUncertain epoch id incarnation operationId =>
      (r.liveStep epoch id incarnation (.ok ()) fun owner live =>
        owner.markPromptUncertain id live operationId).2
  | upsertTerminal epoch id incarnation terminalId terminal =>
      (r.reduceLive epoch id incarnation (.ok ()) fun owner live =>
        .ok (owner.upsertTerminal live env.foldTerminalSnapshot terminalId terminal)).2
  | startOperation epoch id incarnation operationId kind stage =>
      (r.startOperation epoch id incarnation operationId kind stage).2
  | startDelete epoch id incarnation operationId =>
      (r.startDelete epoch id incarnation operationId).2
  | startDirectDelete epoch id incarnation operationId =>
      (r.startDirectDelete epoch id incarnation operationId).2
  | deleteCloseSucceeded epoch id incarnation operationId =>
      (r.liveStep epoch id incarnation (.ok ()) fun owner live =>
        owner.deleteCloseSucceeded id live operationId).2
  | completeDelete epoch id incarnation operationId =>
      (r.liveStep epoch id incarnation (.ok ()) fun owner live =>
        owner.completeDelete id live operationId).2
  | markOperationUncertain epoch id incarnation operationId reason =>
      (r.liveStep epoch id incarnation (.ok ()) fun owner live =>
        owner.markOperationUncertain id live operationId reason).2
  | completeOperation epoch id incarnation operationId kind =>
      (r.liveStep epoch id incarnation (.ok ()) fun owner live =>
        owner.completeOperation live operationId kind).2
  | completeControlOperation epoch id incarnation operationId kind controlKey controlUpdate =>
      (r.liveStep epoch id incarnation
        (if kind = .setMode ∨ kind = .setConfig then .ok () else .error .operationMismatch)
        fun owner live =>
          owner.completeControlOperation live operationId kind controlKey controlUpdate).2
  | failOperation epoch id incarnation operationId kind =>
      (r.liveStep epoch id incarnation (.ok ()) fun owner live =>
        owner.failOperation live operationId kind).2
  | closeSession epoch id incarnation operationId =>
      (r.liveStep epoch id incarnation (.ok ()) fun owner live =>
        owner.closeSession id live operationId).2
  | finishSessionCleanup id incarnation kind operationId =>
      (r.finishSessionCleanup id incarnation kind operationId).2
  | upsertPermission epoch id incarnation interactionId request =>
      (r.upsertPermission epoch id incarnation interactionId request).2
  | resolvePermission epoch id incarnation interactionId =>
      (r.resolvePermission epoch id incarnation interactionId).2
  | beginPermissionResponse epoch id incarnation interactionId operationId =>
      (r.beginPermissionResponse epoch id incarnation interactionId operationId).2
  | completePermissionResponse epoch id incarnation interactionId operationId =>
      (r.completePermissionResponse epoch id incarnation interactionId operationId).2
  | upsertElicitation epoch scope interactionId request =>
      (r.upsertElicitation epoch scope interactionId request).2
  | resolveElicitation epoch scope interactionId acceptedUrlId =>
      (r.resolveElicitation epoch scope interactionId acceptedUrlId).2
  | beginElicitationResponse epoch scope interactionId operationId =>
      (r.beginElicitationResponse epoch scope interactionId operationId).2
  | completeElicitationResponse epoch scope interactionId operationId acceptedUrlId =>
      (r.completeElicitationResponse epoch scope interactionId operationId acceptedUrlId).2
  | settleUrlRegistration epoch scope elicitationId registrationId status =>
      (r.settleUrlRegistration epoch scope elicitationId registrationId status).2
  | takeEffects => r.takeEffects.2

/-- Whether an interaction of the session may be opened: the incarnation is in use. -/
def serves (r : SessionRegistry σ δ) (sessionId : String) (incarnation : Nat) : Bool :=
  (r.state sessionId).any fun session =>
    session.incarnation = incarnation && session.live.any (·.lifecycle.inUse)

/-- What the bridge sees to before it makes the call: it registers a session under the
incarnation it just opened, or anew; only the cleanup itself releases a session that is
cleaned up; deletes start in their own stages; and interactions are opened in a session
that is in use. -/
def called (r : SessionRegistry σ δ) : RuntimeOp → Bool
  | mirror ⟨.registerCold id incarnation, _⟩ | mirror ⟨.registerNew id incarnation, _⟩ =>
      (r.state id).all (·.incarnation = incarnation)
  | mirror ⟨.settleExclusive id _ _ _, _⟩ => !(r.state id).any (·.stageIn ["cleanup"])
  | startOperation _ _ _ _ kind stage => kind ≠ .delete && stage ≠ "cleanup"
  | upsertPermission _ id incarnation _ _ => serves r id incarnation
  | upsertElicitation _ (some (id, incarnation)) _ _ => serves r id incarnation
  | _ => true

/-- The order the bridge keeps between operations on a session: only a delete is reserved in a
session that is not active, only what was started from an open session fails, and what is
released neither deletes a closed session nor cleans up. -/
def orderly (r : SessionRegistry σ δ) : RuntimeOp → Bool
  | mirror ⟨.beginExclusive id _ kind _, _⟩ =>
      kind = .delete ||
        (r.state id).any fun session => session.live.any fun live => live.lifecycle = .active
  | mirror ⟨.settleExclusive id _ _ _, _⟩ => !(r.state id).any (·.stageIn ["deleting"])
  | failOperation _ id _ _ _ =>
      !(r.state id).any fun session => session.live.any fun live => live.lifecycle = .closed
  | _ => true

end RuntimeOp

end Attyd.Session
