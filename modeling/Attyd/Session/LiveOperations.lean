import Attyd.Session.Live

/-!
# Reducers of one live session

Each reducer is one operation of the runtime on a live session: what it asks of the
lifecycle, of the operation that holds the session and of the turn, and the session it
leaves. The live side is passed beside its owner, since every reducer needs both.
-/

namespace Attyd.Session

open Json (Value)
open History

namespace SessionState

variable {δ : Type} (sessionId : String) (self : SessionState δ) (live : SessionLiveState)

section Attachment

def startReload (operationId : String) (kind : SessionOperationKind) :
    Except RuntimeStateError (Reduction δ) :=
  if self.operation.isNone ∧ self.canBegin .attachment ≠ .ok () then .error .busySession
  else if live.lifecycle ≠ .active then .error .sessionNotActive
  else if self.turnExecution.isSome ∨
      self.operation.any (fun operation =>
        operation.operationId ≠ operationId || operation.kind ≠ kind ||
          operation.stage ≠ "reserved") ∨
      live.permissions.keys ≠ ∅ ∨ live.elicitations.keys ≠ ∅ ∨ live.urlFlows.keys ≠ ∅ ∨
      live.terminals.keys ≠ ∅ ∨ live.attachmentCandidate ≠ [] then
    .error .busySession
  else
    .ok (self.published { live with attachmentCandidateBytes := 0 }
      (some ⟨operationId, kind, "reloading", none⟩))

/-- Whether the session collects the updates of an attachment or a reload. -/
def collecting : Bool :=
  (live.lifecycle = .attaching && self.operation.any fun operation =>
      operation.stage = "attaching" && (operation.kind = .load || operation.kind = .resume)) ||
    (live.lifecycle = .active && self.operation.any fun operation =>
      operation.stage = "reloading" && operation.kind = .load)

def appendAttachmentCandidate (update : Value) : Except RuntimeStateError (Reduction δ) :=
  if !self.collecting live then .error .operationMismatch
  else
    match retainControlUpdate update with
    | none => .ok ⟨self, 0, false⟩
    | some update =>
        .ok ⟨{ self with
          live := some { live with
            attachmentCandidate := live.attachmentCandidate ++ [update]
            attachmentCandidateBytes :=
              saturatingAdd live.attachmentCandidateBytes update.bytes } }, 0, false⟩

/-- Whether the named operation reloads the session. -/
def reloading (operationId : String) : Bool :=
  live.lifecycle = .active && self.runs operationId .load && self.stageIn ["reloading"]

def completeReload (operationId : String) (response : Value) :
    Except RuntimeStateError (Reduction δ) :=
  if !self.reloading live operationId then .error .operationMismatch
  else
    .ok (self.published
      { live with
        attachmentCandidate := []
        attachmentCandidateBytes := 0
        controlState := extractControlState live.attachmentCandidate
        session := retainSessionMetadata sessionId response }
      none)

def failReload (operationId : String) : Except RuntimeStateError (Reduction δ) :=
  if !self.reloading live operationId then .error .operationMismatch
  else
    .ok (self.published
      { live with attachmentCandidate := [], attachmentCandidateBytes := 0 } none)

def completeAttachment (operationId : String) (kind : SessionOperationKind) (response : Value) :
    Except RuntimeStateError (Reduction δ) :=
  if live.lifecycle ≠ .attaching ∨ self.runs operationId kind = false ∨
      (kind ≠ .load ∧ kind ≠ .resume) then
    .error .operationMismatch
  else
    .ok (self.published
      { live with
        attachmentCandidate := []
        attachmentCandidateBytes := 0
        controlState :=
          (extractControlState live.attachmentCandidate) ∪ live.controlState
        session := retainSessionMetadata sessionId response
        lifecycle := .active }
      none)

/-- The live side goes, and what waited in it is answered; the entry stays. -/
def retireLive : Reduction δ where
  owner := { self with live := none }
  effects := drainEffects sessionId self.incarnation live
  publishes := false

def failAttachment (operationId : String) (kind : SessionOperationKind) :
    Except RuntimeStateError (Reduction δ) :=
  if live.lifecycle ≠ .attaching ∨ self.runs operationId kind = false then
    .error .operationMismatch
  else .ok ({ self with operation := none }.retireLive sessionId live)

end Attachment

section Turn

def projectTurnUpdate (overlay : TurnOverlay) : Except RuntimeStateError (Reduction δ) :=
  match self.activeTurn with
  | none => .error .noActiveTurn
  | some turn =>
      match turn.execution with
      | none => .error .noActiveTurn
      | some execution =>
          if turn.operationId ≠ overlay.operationId ∨
              execution.rpcOperationId ≠ overlay.clientIntentId then
            .error .operationMismatch
          else
            .ok ⟨{ self with
              live := some { live with revision := nextCounter live.revision } }, 0, false⟩

def synchronizeLoadedSession (response : Value) (replay : List Value) :
    Except RuntimeStateError (Reduction δ) :=
  if live.lifecycle ≠ .active ∨ self.turnExecution.isSome then .error .busySession
  else
    .ok (self.published
      { live with
        session := retainSessionMetadata sessionId response
        controlState := extractControlState replay }
      self.operation)

def requestCancel : Except RuntimeStateError (Reduction δ) :=
  match self.turnExecution with
  | none => .error .noActiveTurn
  | some execution =>
      if execution.cancelRequested then .ok ⟨self, 0, false⟩
      else
        .ok ⟨{ self with
          activeTurn := self.activeTurn.map fun turn =>
            { turn with execution := some { execution with cancelRequested := true } } }, 0, true⟩

/-- End the execution of a turn; the interactions it opened are cancelled. -/
def sealTurn (operationId : String) (lifecycle : Option SessionLifecycle) :
    Except RuntimeStateError (Reduction δ) :=
  match self.turnExecution with
  | none => .error .noActiveTurn
  | some execution =>
      if execution.rpcOperationId ≠ operationId then .error .operationMismatch
      else
        let d := live.interactions
        .ok ⟨{ self.withoutExecution with
            live := some
              { live.withInteractions
                { d with
                  permissions := d.permissions.sealTurn operationId
                  elicitations := d.elicitations.sealTurn operationId } with
                lifecycle := lifecycle.getD live.lifecycle } },
          cancelPermissions sessionId self.incarnation (d.permissions.openedBy operationId) +
            cancelElicitations sessionId self.incarnation
              (d.elicitations.openedBy operationId),
          true⟩

def completePrompt (operationId : String) : Except RuntimeStateError (Reduction δ) :=
  self.sealTurn sessionId live operationId none

def failPrompt (operationId : String) : Except RuntimeStateError (Reduction δ) :=
  self.sealTurn sessionId live operationId none

def markPromptUncertain (operationId : String) : Except RuntimeStateError (Reduction δ) :=
  self.sealTurn sessionId live operationId (some .uncertain)

end Turn

section Operation

/-- Where an operation that starts leads the lifecycle. -/
def lifecycleStarted (kind : SessionOperationKind) (stage : String) : SessionLifecycle :=
  match kind with
  | .close => .closing
  | .delete =>
      if live.lifecycle = .closed ∨ stage = "deleting_active" then .deleting else .closingForDelete
  | _ => live.lifecycle

def startOperation (operationId : String) (kind : SessionOperationKind) (stage : String) :
    Except RuntimeStateError (Reduction δ) :=
  if self.operation.isNone ∧ self.canBegin kind.admission ≠ .ok () then .error .busySession
  else if live.lifecycle ≠ .active ∧ ¬(kind = .delete ∧ live.lifecycle = .closed) then
    .error .sessionNotActive
  else if self.operation.any (fun operation =>
        operation.operationId ≠ operationId || operation.kind ≠ kind ||
          operation.stage ≠ "reserved") ∨
      self.turnExecution.isSome ∧ kind ≠ .close ∧ kind ≠ .setMode ∧ kind ≠ .setConfig then
    .error .busySession
  else
    .ok (self.published { live with lifecycle := lifecycleStarted live kind stage }
      (some ⟨operationId, kind, stage, none⟩))

def deleteCloseSucceeded (operationId : String) : Except RuntimeStateError (Reduction δ) :=
  if self.runs operationId .delete = false ∨ self.stageIn ["closing"] = false ∨
      live.lifecycle ≠ .closingForDelete then
    .error .operationMismatch
  else
    .ok ⟨{ self.withoutExecution with
        operation := self.operation.map fun operation => { operation with stage := "deleting" }
        live := some { live.drained with lifecycle := .deleting } },
      drainEffects sessionId self.incarnation live, true⟩

def completeDelete (operationId : String) : Except RuntimeStateError (Reduction δ) :=
  if live.lifecycle ≠ .deleting ∨ self.runs operationId .delete = false ∨
      self.stageIn ["deleting", "deleting_active"] = false then
    .error .operationMismatch
  else
    let ended : SessionState δ :=
      { self.withoutExecution with
        operation := self.operation.map fun operation => { operation with stage := "cleanup" } }
    .ok (ended.retireLive sessionId live)

def markOperationUncertain (operationId reason : String) :
    Except RuntimeStateError (Reduction δ) :=
  if self.operation.any (fun operation => operation.operationId = operationId) = false then
    .error .operationMismatch
  else
    .ok ⟨{ self with
        operation := self.operation.map fun operation =>
          { operation with stage := "uncertain", uncertaintyReason := some reason }
        live := some { live.drained with lifecycle := .uncertain } },
      drainEffects sessionId self.incarnation live, true⟩

def completeOperation (operationId : String) (kind : SessionOperationKind) :
    Except RuntimeStateError (Reduction δ) :=
  if kind = .close ∨ kind = .delete ∨ self.runs operationId kind = false then
    .error .operationMismatch
  else .ok (self.published live none)

def completeControlOperation (operationId : String) (kind : SessionOperationKind)
    (controlKey : String) (controlUpdate : Value) : Except RuntimeStateError (Reduction δ) :=
  if self.runs operationId kind = false then .error .operationMismatch
  else
    .ok (self.published
      { live with controlState := live.controlState.insert controlKey controlUpdate } none)

/-- Where an operation that failed leaves the lifecycle. -/
def lifecycleFailed (kind : SessionOperationKind) : SessionLifecycle :=
  match kind with
  | .close => .active
  | .delete => if self.stageIn ["deleting"] then .closed else .active
  | _ => live.lifecycle

def failOperation (operationId : String) (kind : SessionOperationKind) :
    Except RuntimeStateError (Reduction δ) :=
  if self.runs operationId kind = false then .error .operationMismatch
  else .ok (self.published { live with lifecycle := self.lifecycleFailed live kind } none)

def closeSession (operationId : String) : Except RuntimeStateError (Reduction δ) :=
  if self.runs operationId .close = false ∨ self.stageIn ["cleanup"] then
    .error .operationMismatch
  else
    .ok ⟨{ self.withoutExecution with
        operation := self.operation.map fun operation => { operation with stage := "cleanup" }
        live := some { live.drained with lifecycle := .closed } },
      drainEffects sessionId self.incarnation live, false⟩

end Operation

section Controls

/-- Whether the lifecycle lets controls change. -/
def controllable : Bool :=
  live.lifecycle ∈ [.active, .closing, .closingForDelete]

def updateControlState (key : String) (update : Value) : Except RuntimeStateError (Reduction δ) :=
  if !controllable live then .error .sessionNotActive
  else
    let update := foldControlUpdate (live.controlState.lookup key) update
    if (live.controlState.lookup key).any (·.alike update) then .ok ⟨self, 0, false⟩
    else
      .ok (self.published { live with controlState := live.controlState.insert key update }
        self.operation)

/-- Fold a snapshot of a terminal into the one that is kept; a released terminal goes. -/
def upsertTerminal (foldTerminalSnapshot : Option Value → Value → Value) (terminalId : String)
    (terminal : Value) : TerminalUpsert × Reduction δ :=
  if terminalId ∈ live.releasedTerminals then (.stale, ⟨self, 0, false⟩)
  else
    let existing := live.terminals.lookup terminalId
    let materialized := foldTerminalSnapshot existing terminal
    if existing.any (·.alike materialized) then (.duplicate, ⟨self, 0, false⟩)
    else
      let live : SessionLiveState :=
        if terminalReleased terminal then
          { live with
            terminals := live.terminals.erase terminalId
            releasedTerminals := terminalId ::ₘ live.releasedTerminals }
        else { live with terminals := live.terminals.insert terminalId materialized }
      (if existing.isSome then .updated else .inserted,
        ⟨{ self with live := some { live with revision := nextCounter live.revision } }, 0,
          false⟩)

end Controls

end SessionState

end Attyd.Session
