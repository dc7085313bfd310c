import Attyd.Session.Runtime

/-!
# Session views in the browser, and the changes they apply alone

The server answers with a view of a session and announces each change of its
pending interactions and controls as a delta between two view revisions. The
browser applies such a delta to the view it holds and fetches the view again only
when the delta does not say enough.

## Implementation notes

A view is kept here with the parts that a local delta reads or writes, before
attachments are projected out of it; both sides project in the same way. A change
is the JSON object that is sent, so the checks of the browser are checks of its
members. What is pending in a view has no responder where the member is missing.
-/

namespace Attyd.Session

open Json (Value)

/-- A URL flow as a view shows it; the registration stays inside. -/
structure UrlFlowView where
  elicitationId : String
  request : Value
  status : UrlFlowStatus

def UrlFlow.shown (flow : UrlFlow) : UrlFlowView := ⟨flow.elicitationId, flow.request, flow.status⟩

/-- The wire name of an operation. -/
def SessionOperationKind.text : SessionOperationKind → String
  | load => "load"
  | resume => "resume"
  | fork => "fork"
  | close => "close"
  | delete => "delete"
  | setMode => "set_mode"
  | setConfig => "set_config"

/-- A view of a session; `activeOperation` is the `operationId` of its active turn. -/
structure BridgeSessionView where
  viewRevision : Nat
  activeOperation : Option String
  session : Value
  controls : Table String Value
  permissions : Table String PendingInteraction
  elicitations : Table String PendingInteraction
  urlFlows : Table String UrlFlowView
  operation : Option SessionOperationState

namespace BridgeSessionView

def modes (view : BridgeSessionView) : Option Value :=
  (view.session.get "modes").filter (!·.isNull)

/-- The mode that a control update of the view names. -/
def controlMode (view : BridgeSessionView) : Option Value :=
  (view.controls.lookup "current_mode_update").bind (·.get "currentModeId")

/-- The options that a control update of the view holds. -/
def controlOptions (view : BridgeSessionView) : Option Value :=
  (view.controls.lookup "config_option_update").bind (·.get "configOptions")

/-- The current mode: that of a control update, else that of the session. -/
def currentModeId (view : BridgeSessionView) : Option String :=
  (view.controlMode.or (view.modes.bind (·.get "currentModeId"))).bind Value.asStr

/-- The configuration options: those of a control update, else those of the session. -/
def configOptions (view : BridgeSessionView) : Value :=
  ((view.controlOptions.or (view.session.get "configOptions")).filter Value.isArray).getD (.array [])

/-- Two views show the same pending interactions, URL flows, modes, configuration options
and current operation. -/
structure Agrees (a b : BridgeSessionView) : Prop where
  permissions : a.permissions = b.permissions
  elicitations : a.elicitations = b.elicitations
  urlFlows : a.urlFlows = b.urlFlows
  modes : a.modes.map (·.remove "currentModeId") = b.modes.map (·.remove "currentModeId")
  currentModeId : a.currentModeId = b.currentModeId
  configOptions : a.configOptions = b.configOptions
  operation : a.operation = b.operation

end BridgeSessionView

section Browser

inductive SessionControlKind where
  | mode
  | config

def SessionControlKind.text : SessionControlKind → String
  | mode => "mode"
  | config => "config"

structure LocalSessionDelta where
  view : BridgeSessionView
  settledControl : Option SessionControlKind

variable (view : BridgeSessionView)

def upsertInteraction (interaction : Value) : Option LocalSessionDelta := do
  let interactionId ← interaction.getStr "interactionId"
  let request ← (interaction.get "request").filter Value.isObject
  let pending : PendingInteraction := ⟨interactionId, request, view.activeOperation, none⟩
  let type := interaction.get "type"
  if type = some (.string "permission") then
    some ⟨{ view with permissions := view.permissions.insert interactionId pending }, none⟩
  else if type = some (.string "elicitation") then
    some ⟨{ view with elicitations := view.elicitations.insert interactionId pending }, none⟩
  else none

/-- Accepting a URL elicitation registers a flow that the change does not carry. -/
def removeInteraction (change : Value) : Option LocalSessionDelta := do
  let interactionId ← change.getStr "interactionId"
  if (view.elicitations.lookup interactionId).any (·.request.getStr "mode" = some "url") then none
  else
    some ⟨{ view with
      permissions := view.permissions.erase interactionId
      elicitations := view.elicitations.erase interactionId }, none⟩

/-- The session that a control update leaves, and the control it settles. -/
def settledSession (change : Value) : Option (Value × SessionControlKind) :=
  if change.get "control" = some (.string "mode") then do
    let modeId ← change.getStr "modeId"
    let modes ← view.modes
    some (view.session.set "modes" (modes.set "currentModeId" (.string modeId)), .mode)
  else if change.get "control" = some (.string "configuration") then do
    let configOptions ← (change.get "configOptions").filter Value.isArray
    some (view.session.set "configOptions" configOptions, .config)
  else none

/-- The operation that is left once a control is settled. -/
def operationAfter (settledControl : SessionControlKind) : Option SessionOperationState :=
  view.operation.filter fun operation =>
    operation.kind.text ≠ settledControl.text ∧
      operation.kind.text ≠ "set_" ++ settledControl.text

def updateControl (change : Value) : Option LocalSessionDelta :=
  if view.session.isNull then none
  else
    (settledSession view change).map fun (session, settledControl) =>
      ⟨{ view with session, operation := operationAfter view settledControl },
        some settledControl⟩

/-- Apply a change without fetching the view again, or ask for that. -/
def applyLocalSessionDelta (change : Value) (viewRevision : Nat) : Option LocalSessionDelta :=
  let applied : Option LocalSessionDelta :=
    if change.get "kind" = some (.string "interaction_upsert") then
      upsertInteraction view (change.index "interaction")
    else if change.get "kind" = some (.string "interaction_remove") then
      removeInteraction view change
    else if change.get "kind" = some (.string "control_update") then updateControl view change
    else none
  applied.map fun result => { result with view := { result.view with viewRevision } }

/-- A change of a session, from one revision of its view to the next. -/
structure SessionDelta where
  fromRevision : Nat
  viewRevision : Nat
  change : Value

/-- The browser fetches the view again unless the delta starts where its view stands. -/
def receiveSessionDelta (delta : SessionDelta) : Option LocalSessionDelta :=
  if view.viewRevision ≠ delta.fromRevision then none
  else applyLocalSessionDelta view delta.change delta.viewRevision

end Browser

namespace SessionState

variable {δ : Type}

/-- The live side as it is published: not while a closed session is cleaned up. -/
def runtime (self : SessionState δ) : Option SessionLiveState :=
  self.live.filter fun live => !(live.lifecycle = .closed && self.stageIn ["cleanup"])

/-- The view that the server answers with. -/
def businessView (self : SessionState δ) : BridgeSessionView where
  viewRevision := self.viewRevision
  activeOperation := self.activeTurn.map (·.operationId)
  session := self.runtime.elim .null (·.session)
  controls := self.runtime.elim ∅ (·.controlState)
  permissions := self.runtime.elim ∅ (·.permissions)
  elicitations := self.runtime.elim ∅ (·.elicitations)
  urlFlows := self.runtime.elim ∅ (·.urlFlows.map UrlFlow.shown)
  operation := self.runtime.bind fun _ => self.operation

end SessionState

namespace SessionRegistry

variable {σ δ : Type}

def completeControlOperation (self : SessionRegistry σ δ) (expectedEpoch sessionId : String)
    (incarnation : Nat) (operationId : String) (kind : SessionOperationKind) (controlKey : String)
    (controlUpdate : Value) : Except RuntimeStateError Unit × SessionRegistry σ δ :=
  self.liveStep expectedEpoch sessionId incarnation
    (if kind = .setMode ∨ kind = .setConfig then .ok () else .error .operationMismatch)
    fun owner live => owner.completeControlOperation live operationId kind controlKey controlUpdate

def advanceSessionDelta (self : SessionRegistry σ δ) (sessionId : String) (incarnation : Nat)
    (change : Value) : Except SessionTurnError SessionDelta × SessionRegistry σ δ :=
  match self.touch sessionId incarnation with
  | (.error error, self) => (.error (.mirror error), self)
  | (.ok viewRevision, self) => (.ok ⟨viewRevision - 1, viewRevision, change⟩, self)

/-- Announce a change after the operation that made it, unless that failed. -/
def announce {α : Type} (outcome : Except RuntimeStateError α × SessionRegistry σ δ)
    (sessionId : String) (incarnation : Nat) (change : Value) :
    Except SessionTurnError SessionDelta × SessionRegistry σ δ :=
  match outcome with
  | (.error error, self) => (.error (.runtime error), self)
  | (.ok _, self) => self.advanceSessionDelta sessionId incarnation change

end SessionRegistry

def interactionUpsert (interactionId type : String) (request : Value) : Value :=
  .ofFields [("kind", .string "interaction_upsert"),
    ("interaction", .ofFields [("interactionId", .string interactionId), ("type", .string type),
      ("request", request)])]

def interactionRemove (interactionId : String) : Value :=
  .ofFields [("kind", .string "interaction_remove"), ("interactionId", .string interactionId)]

def modeUpdate (modeId : String) : Value :=
  .ofFields [("kind", .string "control_update"), ("control", .string "mode"),
    ("modeId", .string modeId)]

def configUpdate (configId : String) (value configOptions : Value) : Value :=
  .ofFields [("kind", .string "control_update"), ("control", .string "configuration"),
    ("configId", .string configId), ("value", value), ("configOptions", configOptions)]

/-- The id of the URL that an elicitation asks to open. -/
def urlElicitationId (request : Value) : Option String :=
  if request.getStr "mode" = some "url" then request.getStr "elicitationId" else none

/-- What makes the server announce a permission, elicitation or control delta. An accepted
elicitation reaches its requester or not. -/
inductive DeltaCall where
  | permission (interactionId : String) (request : Value)
  | elicitation (interactionId : String) (request : Value)
  | cancelPermission (interactionId : String)
  | cancelElicitation (interactionId : String)
  | respondPermission (interactionId requestId : String)
  | respondElicitation (interactionId requestId : String) (accepted delivered : Bool)
  | setMode (requestId modeId : String)
  | setConfigOption (requestId configId : String) (value configOptions : Value)

section Server

variable {σ δ : Type}
variable (r : SessionRegistry σ δ) (epoch sessionId : String) (incarnation : Nat)

/-- The request of a pending elicitation of the session. -/
def pendingElicitation (interactionId : String) : Value :=
  (((r.state sessionId).bind (·.live)).bind fun live =>
    live.elicitations.lookup interactionId).elim .null (·.request)

def DeltaCall.run : DeltaCall → Except SessionTurnError SessionDelta × SessionRegistry σ δ
  | permission interactionId request =>
      SessionRegistry.announce
        (r.upsertPermission epoch sessionId incarnation interactionId request)
        sessionId incarnation (interactionUpsert interactionId "permission" request)
  | elicitation interactionId request =>
      SessionRegistry.announce
        (r.upsertElicitation epoch (some (sessionId, incarnation)) interactionId request)
        sessionId incarnation (interactionUpsert interactionId "elicitation" request)
  | cancelPermission interactionId =>
      SessionRegistry.announce (r.resolvePermission epoch sessionId incarnation interactionId)
        sessionId incarnation (interactionRemove interactionId)
  | cancelElicitation interactionId =>
      SessionRegistry.announce
        (r.resolveElicitation epoch (some (sessionId, incarnation)) interactionId none)
        sessionId incarnation (interactionRemove interactionId)
  | respondPermission interactionId requestId =>
      match r.beginPermissionResponse epoch sessionId incarnation interactionId requestId with
      | (.error error, r) => (.error (.runtime error), r)
      | (.ok _, r) =>
          SessionRegistry.announce
            (r.completePermissionResponse epoch sessionId incarnation interactionId requestId)
            sessionId incarnation (interactionRemove interactionId)
  | respondElicitation interactionId requestId accepted delivered =>
      let acceptedUrlId :=
        if accepted && delivered then urlElicitationId (pendingElicitation r sessionId interactionId)
        else none
      match r.beginElicitationResponse epoch (some (sessionId, incarnation)) interactionId
          requestId with
      | (.error error, r) => (.error (.runtime error), r)
      | (.ok _, r) =>
          SessionRegistry.announce
            (r.completeElicitationResponse epoch (some (sessionId, incarnation)) interactionId
              requestId acceptedUrlId)
            sessionId incarnation (interactionRemove interactionId)
  | setMode requestId modeId =>
      SessionRegistry.announce
        (r.completeControlOperation epoch sessionId incarnation requestId .setMode
          "current_mode_update"
          (.ofFields [("sessionUpdate", .string "current_mode_update"),
            ("currentModeId", .string modeId)]))
        sessionId incarnation (modeUpdate modeId)
  | setConfigOption requestId configId value configOptions =>
      SessionRegistry.announce
        (r.completeControlOperation epoch sessionId incarnation requestId .setConfig
          "config_option_update"
          (.ofFields [("sessionUpdate", .string "config_option_update"),
            ("configOptions", configOptions)]))
        sessionId incarnation (configUpdate configId value configOptions)

end Server

end Attyd.Session
