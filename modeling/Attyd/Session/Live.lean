import Attyd.Session.Registry

/-!
# The live side of one session

A live session has a lifecycle, at most one operation, and what the agent and its
users are doing with it: permissions, elicitations, URL flows and terminals. What
ends a turn or a session takes the pending interactions with it and leaves effects
for the bridge to answer them.

## Implementation notes

An operation on one live session is a reducer: it makes its checks, and answers with
the session it leaves, the effects, and whether the change is published. Permissions
and elicitations are answered in the same way, and share the operations of a ledger.
The journal of published changes is left out, so publishing only counts the revision
and copies the headers of the history. How terminal snapshots fold is a parameter.
-/

namespace Attyd.Session

open Json (Value)
open History

inductive RuntimeStateError where
  | epochMismatch
  | unknownSession
  | staleIncarnation
  | busySession
  | noActiveTurn
  | operationMismatch
  | unknownInteraction
  | sessionNotActive
  | operationCollision
  | interactionCollision
  deriving DecidableEq

inductive InteractionResolution where
  | applied
  | alreadyResolved
  deriving DecidableEq

inductive InteractionResponseStart where
  | applied
  | duplicate
  deriving DecidableEq

inductive UrlFlowResolution where
  | applied
  | alreadyTerminal
  | staleRegistration
  deriving DecidableEq

inductive InteractionUpsert where
  | inserted
  | duplicate
  | alreadyResolved
  deriving DecidableEq

inductive TerminalUpsert where
  | inserted
  | updated
  | duplicate
  | stale
  deriving DecidableEq

section Controls

def isConversationUpdateKind (kind : String) : Bool :=
  kind ∈ ["user_message_chunk", "agent_message_chunk", "agent_thought_chunk", "tool_call",
    "tool_call_update", "plan", "plan_update", "plan_removed", "compaction_update",
    "compaction_summary_chunk"]

def retainControlUpdate (entry : Value) : Option Value :=
  let update := (entry.get "update").getD entry
  (update.getStr "sessionUpdate").bind fun kind =>
    if isConversationUpdateKind kind then none else some update

def extractControlState (entries : List Value) : Table String Value :=
  (entries.filterMap retainControlUpdate).foldl
    (fun controls update =>
      let kind := (update.getStr "sessionUpdate").getD ""
      controls.insert kind (foldControlUpdate (controls.lookup kind) update))
    ∅

def retainSessionMetadata (sessionId : String) (response : Value) : Value :=
  .ofFields (("sessionId", .string sessionId) ::
    ["modes", "configOptions"].filterMap fun key =>
      ((response.get key).filter (· ≠ .null)).map fun value => (key, value))

end Controls

/-- The interactions of one kind in one scope: what waits for an answer, and what had one. -/
structure Ledger where
  pending : Table String PendingInteraction
  resolved : Multiset String

namespace Ledger

/-- Open an interaction. Where no turn can run, only the requests are compared. -/
def upsert (d : Ledger) (interactionId : String) (request : Value) (operationId : Option String)
    (comparesOperation : Bool) : Except RuntimeStateError (InteractionUpsert × Ledger) :=
  if interactionId ∈ d.resolved then .ok (.alreadyResolved, d)
  else
    match d.pending.lookup interactionId with
    | some existing =>
        if existing.request.alike request = true ∧
            (comparesOperation = true → existing.operationId = operationId) then
          .ok (.duplicate, d)
        else .error .interactionCollision
    | none =>
        .ok (.inserted,
          { d with
            pending := d.pending.insert interactionId ⟨interactionId, request, operationId, none⟩ })

/-- Begin the response to an interaction. -/
def respond (d : Ledger) (interactionId operationId : String) (operationInUse : Bool) :
    Except RuntimeStateError (InteractionResponseStart × Ledger) :=
  match d.pending.lookup interactionId with
  | none => .error .unknownInteraction
  | some pending =>
      match pending.respondingOperationId with
      | some existing =>
          if existing = operationId then .ok (.duplicate, d) else .error .interactionCollision
      | none =>
          if operationInUse then .error .operationCollision
          else
            .ok (.applied,
              { d with
                pending := d.pending.insert interactionId
                  { pending with respondingOperationId := some operationId } })

/-- Take an interaction out, with its request, and remember it. -/
def resolve (d : Ledger) (interactionId : String) (refused : Bool) :
    Except RuntimeStateError (InteractionResolution × Value × Ledger) :=
  if interactionId ∈ d.resolved then .ok (.alreadyResolved, .null, d)
  else if refused then .error .interactionCollision
  else
    match d.pending.lookup interactionId with
    | none => .error .unknownInteraction
    | some pending =>
        .ok (.applied, pending.request,
          ⟨d.pending.erase interactionId, interactionId ::ₘ d.resolved⟩)

/-- Take an interaction out for the operation that responds to it. -/
def complete (d : Ledger) (interactionId operationId : String) (refused : Bool) :
    Except RuntimeStateError (InteractionResolution × Value × Ledger) :=
  if interactionId ∈ d.resolved then .ok (.alreadyResolved, .null, d)
  else
    match d.pending.lookup interactionId with
    | none => .error .unknownInteraction
    | some pending =>
        if pending.respondingOperationId ≠ some operationId then .error .operationMismatch
        else d.resolve interactionId refused

/-- The interactions that a turn opened. -/
def openedBy (d : Ledger) (operationId : String) : Table String PendingInteraction :=
  d.pending.retain fun _ interaction => interaction.operationId = some operationId

/-- Take out the interactions of a turn that ends, and remember them. -/
def sealTurn (d : Ledger) (operationId : String) : Ledger where
  pending := d.pending.retain fun _ interaction => interaction.operationId ≠ some operationId
  resolved := Table.collect (fun id _ => id) (d.openedBy operationId) + d.resolved

end Ledger

/-- The interactions and URL flows of one scope: a session, or the connection itself. -/
structure Interactions where
  permissions : Ledger
  elicitations : Ledger
  urlFlows : Table String UrlFlow
  resolvedUrlFlows : Multiset String

namespace Interactions

/-- A resolved elicitation may have accepted a URL, whose flow then waits. -/
def accepted (d : Interactions) (interactionId : String) (request : Value) :
    Option String → Interactions
  | none => d
  | some elicitationId =>
      { d with
        resolvedUrlFlows := d.resolvedUrlFlows.filter (· ≠ elicitationId)
        urlFlows := d.urlFlows.insert elicitationId
          ⟨elicitationId, interactionId, request, .waiting⟩ }

/-- Settle the flow of one registration. -/
def settleUrlRegistration (d : Interactions) (elicitationId registrationId : String)
    (status : UrlFlowStatus) : Except RuntimeStateError (UrlFlowResolution × Interactions) :=
  if (d.urlFlows.lookup elicitationId).any (·.registrationId ≠ registrationId) then
    .ok (.staleRegistration, d)
  else if status = .waiting then .error .operationMismatch
  else if elicitationId ∈ d.resolvedUrlFlows then .ok (.alreadyTerminal, d)
  else
    match d.urlFlows.lookup elicitationId with
    | none => .error .unknownInteraction
    | some flow =>
        let removed := { d with urlFlows := d.urlFlows.erase elicitationId }
        if flow.status ≠ .waiting then .ok (.alreadyTerminal, removed)
        else
          .ok (.applied,
            { removed with resolvedUrlFlows := elicitationId ::ₘ d.resolvedUrlFlows })

end Interactions

namespace SessionLiveState

def interactions (live : SessionLiveState) : Interactions where
  permissions := ⟨live.permissions, live.resolvedPermissions⟩
  elicitations := ⟨live.elicitations, live.resolvedElicitations⟩
  urlFlows := live.urlFlows
  resolvedUrlFlows := live.resolvedUrlFlows

def withInteractions (live : SessionLiveState) (interactions : Interactions) :
    SessionLiveState :=
  { live with
    permissions := interactions.permissions.pending
    resolvedPermissions := interactions.permissions.resolved
    elicitations := interactions.elicitations.pending
    resolvedElicitations := interactions.elicitations.resolved
    urlFlows := interactions.urlFlows
    resolvedUrlFlows := interactions.resolvedUrlFlows }

/-- The live side a session starts with. -/
def opened (cwd : String) (session : Value) (controlState : Table String Value)
    (lifecycle : SessionLifecycle) : SessionLiveState where
  revision := 0
  cwd
  session
  controlState
  lifecycle
  permissions := ∅
  elicitations := ∅
  urlFlows := ∅
  terminals := ∅
  historyRevision := none
  phase := .ready
  syncError := none
  resolvedPermissions := 0
  resolvedElicitations := 0
  resolvedUrlFlows := 0
  releasedTerminals := 0
  attachmentCandidate := []
  attachmentCandidateBytes := 0

/-- The live side without its pending interactions, URL flows and terminals. -/
def drained (live : SessionLiveState) : SessionLiveState :=
  { live with
    permissions := ∅
    elicitations := ∅
    urlFlows := ∅
    terminals := ∅ }

end SessionLiveState

section Effects

variable (sessionId : String) (incarnation : Nat)

def cancelPermissions (pending : Table String PendingInteraction) : Multiset RuntimeEffect :=
  Table.collect (fun id _ => .cancelPermissionResponder sessionId incarnation id) pending

def cancelElicitations (pending : Table String PendingInteraction) : Multiset RuntimeEffect :=
  Table.collect (fun id _ => .cancelElicitationResponder (some (sessionId, incarnation)) id) pending

def abortUrlFlows (flows : Table String UrlFlow) : Multiset RuntimeEffect :=
  Table.collect
    (fun id flow => .abortUrlFlow (some (sessionId, incarnation)) id flow.registrationId)
    (flows.retain fun _ flow => flow.status = .waiting)

def terminalReleased (terminal : Value) : Bool :=
  ((terminal.get "released").bind Value.asBool).getD false

def releaseTerminals (terminals : Table String Value) : Multiset RuntimeEffect :=
  Table.collect (fun id _ => .releaseTerminal sessionId id)
    (terminals.retain fun _ terminal => !terminalReleased terminal)

/-- What a session that ends leaves to be answered, aborted and released. -/
def drainEffects (live : SessionLiveState) : Multiset RuntimeEffect :=
  cancelPermissions sessionId incarnation live.permissions +
    cancelElicitations sessionId incarnation live.elicitations +
    abortUrlFlows sessionId incarnation live.urlFlows +
    releaseTerminals sessionId live.terminals

end Effects

section

variable (δ : Type)

/-- What a reducer leaves of a live session, and whether that is published. -/
structure Reduction where
  owner : SessionState δ
  effects : Multiset RuntimeEffect
  publishes : Bool

end

namespace SessionState

variable {δ : Type}

/-- Count a publication and copy the headers of the history. -/
def commitLive (self : SessionState δ) : SessionState δ :=
  { self with
    live := self.live.map fun live =>
      { live with
        revision := nextCounter live.revision
        historyRevision := self.historyRevision
        phase := self.phase
        syncError := self.syncError } }

def withoutExecution (self : SessionState δ) : SessionState δ :=
  { self with activeTurn := self.activeTurn.map fun turn => { turn with execution := none } }

/-- Whether the current operation is the one named. -/
def runs (self : SessionState δ) (operationId : String) (kind : SessionOperationKind) : Bool :=
  self.operation.any fun operation =>
    operation.operationId = operationId && operation.kind = kind

/-- Whether the current operation is in one of the stages. -/
def stageIn (self : SessionState δ) (stages : List String) : Bool :=
  self.operation.any fun operation => operation.stage ∈ stages

/-- The session with another live side and operation, published. -/
def published (self : SessionState δ) (live : SessionLiveState)
    (operation : Option SessionOperationState) : Reduction δ :=
  ⟨{ self with live := some live, operation }, 0, true⟩

end SessionState

end Attyd.Session
