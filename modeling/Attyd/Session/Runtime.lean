import Attyd.Session.LiveOperations
import Attyd.Session.Runs

/-!
# The runtime of the registry

The runtime opens sessions, runs the reducers on the live ones and keeps the
interactions of the connection. Together with the operations on the history these are
all the operations of the registry, and a run is any sequence of them.

## Implementation notes

`reduceLive` makes the checks that all operations on a live session share, in the order
of the source. A session and the connection share the operations on elicitations. The
operations of `RegistryOp` that write the live side of a session stand for those defined
here, and `startTurn` is only called by `admitSessionTurn`, so they are no operations of
their own in a run of the runtime.
-/

namespace Attyd.Session

open Json (Value)
open History

inductive SessionTurnError where
  | runtime (error : RuntimeStateError)
  | mirror (error : MirrorError)
  deriving DecidableEq

namespace SessionRegistry

variable {σ δ : Type} [Inhabited σ] [DecidableEq δ]

section Reduce

variable {α : Type}

omit [Inhabited σ] [DecidableEq δ] in
/-- The interactions of the connection: it asks for no permissions. -/
def connectionInteractions (self : SessionRegistry σ δ) : Interactions where
  permissions := ⟨∅, 0⟩
  elicitations := ⟨self.requestElicitations, self.resolvedRequestElicitations⟩
  urlFlows := self.requestUrlFlows
  resolvedUrlFlows := self.resolvedRequestUrlFlows

def requireEpoch (self : SessionRegistry σ δ) (expectedEpoch : String) :
    Except RuntimeStateError Unit :=
  if expectedEpoch = self.epoch then .ok () else .error .epochMismatch

/-- The live session of the given incarnation, unless it is being cleaned up. -/
def requireLiveOwner (self : SessionRegistry σ δ) (sessionId : String) (incarnation : Nat) :
    Except RuntimeStateError (SessionState δ × SessionLiveState) :=
  match self.state sessionId with
  | none => .error .unknownSession
  | some owner =>
      if owner.incarnation ≠ incarnation then .error .staleIncarnation
      else
        match owner.live with
        | none => .error .unknownSession
        | some live =>
            if owner.stageIn ["cleanup"] then .error .unknownSession else .ok (owner, live)

def applyReduction (self : SessionRegistry σ δ) (sessionId : String) (reduction : Reduction δ) :
    SessionRegistry σ δ :=
  { self.putState sessionId
      (if reduction.publishes then reduction.owner.commitLive else reduction.owner) with
    effects := self.effects + reduction.effects }

/-- Run a reducer on a live session; nothing changes when a check fails. -/
def reduceLive (self : SessionRegistry σ δ) (expectedEpoch sessionId : String)
    (incarnation : Nat) (precheck : Except RuntimeStateError Unit)
    (change : SessionState δ → SessionLiveState → Except RuntimeStateError (α × Reduction δ)) :
    Except RuntimeStateError α × SessionRegistry σ δ :=
  let outcome : Except RuntimeStateError (α × Reduction δ) := do
    self.requireEpoch expectedEpoch
    precheck
    let owner ← self.requireLiveOwner sessionId incarnation
    change owner.1 owner.2
  match outcome with
  | .error error => (.error error, self)
  | .ok (answer, reduction) => (.ok answer, self.applyReduction sessionId reduction)

/-- Run a reducer that has nothing to answer. -/
def liveStep (self : SessionRegistry σ δ) (expectedEpoch sessionId : String) (incarnation : Nat)
    (precheck : Except RuntimeStateError Unit)
    (change : SessionState δ → SessionLiveState → Except RuntimeStateError (Reduction δ)) :
    Except RuntimeStateError Unit × SessionRegistry σ δ :=
  self.reduceLive expectedEpoch sessionId incarnation precheck fun owner live => do
    .ok ((), ← change owner live)

omit [Inhabited σ] [DecidableEq δ] in
def withConnection (self : SessionRegistry σ δ) (interactions : Interactions)
    (publishes : Bool) : SessionRegistry σ δ :=
  { self with
    requestElicitations := interactions.elicitations.pending
    resolvedRequestElicitations := interactions.elicitations.resolved
    requestUrlFlows := interactions.urlFlows
    resolvedRequestUrlFlows := interactions.resolvedUrlFlows
    connectionRevision :=
      if publishes then nextCounter self.connectionRevision else self.connectionRevision }

/-- Run a change of the interactions of one scope; it is told the turn that runs there. -/
def reduceScope (self : SessionRegistry σ δ) (expectedEpoch : String)
    (scope : Option (String × Nat))
    (change : Option String → Interactions →
      Except RuntimeStateError (α × Interactions × Bool)) :
    Except RuntimeStateError α × SessionRegistry σ δ :=
  match scope with
  | some (sessionId, incarnation) =>
      self.reduceLive expectedEpoch sessionId incarnation (.ok ()) fun owner live => do
        let reduced ← change (owner.turnExecution.map (·.rpcOperationId)) live.interactions
        .ok (reduced.1,
          ⟨{ owner with live := some (live.withInteractions reduced.2.1) }, 0, reduced.2.2⟩)
  | none =>
      match self.requireEpoch expectedEpoch >>= fun _ => change none self.connectionInteractions with
      | .error error => (.error error, self)
      | .ok (answer, interactions, publishes) =>
          (.ok answer, self.withConnection interactions publishes)

end Reduce

section Open

/-- Whether a session may be opened under the id: nothing holds it, and none is live. -/
def mayOpen (self : SessionRegistry σ δ) (sessionId : String) : Bool :=
  (self.state sessionId).all fun session =>
    session.operation.isNone && session.live.all fun live => live.lifecycle = .closed

/-- Install a live side under the next incarnation. -/
def install (self : SessionRegistry σ δ) (sessionId : String) (live : SessionLiveState)
    (operation : Option SessionOperationState) :
    Except RuntimeStateError Nat × SessionRegistry σ δ :=
  if !self.mayOpen sessionId then (.error .busySession, self)
  else
    let incarnation := nextCounter self.nextIncarnation
    (.ok incarnation,
      ({ self with nextIncarnation := incarnation }.installLive sessionId incarnation
        live).modifyState sessionId fun session =>
          { session with operation := operation.or session.operation }.commitLive)

def openSession (self : SessionRegistry σ δ) (expectedEpoch sessionId cwd : String)
    (session : Value) (controlState : Table String Value) :
    Except RuntimeStateError Nat × SessionRegistry σ δ :=
  match self.requireEpoch expectedEpoch with
  | .error error => (.error error, self)
  | .ok () =>
      self.install sessionId
        (.opened cwd (retainSessionMetadata sessionId session) controlState .active) none

def openNewWithReplay (self : SessionRegistry σ δ) (expectedEpoch sessionId cwd : String)
    (session : Value) (replay : List Value) : Except RuntimeStateError Nat × SessionRegistry σ δ :=
  self.openSession expectedEpoch sessionId cwd session (extractControlState replay)

def openForked (self : SessionRegistry σ δ) (expectedEpoch sessionId cwd : String)
    (session : Value) (source : String × Nat) (targetReplay : Option (List Value)) :
    Except RuntimeStateError Nat × SessionRegistry σ δ :=
  match self.requireEpoch expectedEpoch >>= fun _ => self.requireLiveOwner source.1 source.2 with
  | .error error => (.error error, self)
  | .ok (_, live) =>
      if live.lifecycle ≠ .active then (.error .sessionNotActive, self)
      else
        self.openSession expectedEpoch sessionId cwd session
          ((targetReplay.map extractControlState).getD ∅)

def startAttachment (self : SessionRegistry σ δ) (expectedEpoch sessionId cwd operationId : String)
    (kind : SessionOperationKind) : Except RuntimeStateError Nat × SessionRegistry σ δ :=
  match self.requireEpoch expectedEpoch with
  | .error error => (.error error, self)
  | .ok () =>
      if kind ≠ .load ∧ kind ≠ .resume then (.error .operationMismatch, self)
      else if self.operationInUse operationId then (.error .operationCollision, self)
      else
        self.install sessionId (.opened cwd .null ∅ .attaching)
          (some ⟨operationId, kind, "attaching", none⟩)

end Open

section Turn

/-- Admit a turn and publish it, before the agent is asked. -/
def admitSessionTurn (sha256 : String → δ) (self : SessionRegistry σ δ)
    (expectedEpoch sessionId : String) (incarnation : Nat)
    (expectedHistoryRevision clientIntentId : String) (prompt : Prompt) :
    Except SessionTurnError TurnAdmission × SessionRegistry σ δ :=
  match self.requireEpoch expectedEpoch >>= fun _ =>
      self.requireLiveOwner sessionId incarnation with
  | .error error => (.error (.runtime error), self)
  | .ok (owner, live) =>
      match owner.checkTurnAdmission sha256 expectedHistoryRevision clientIntentId prompt with
      | .error error => (.error (.mirror error), self)
      | .ok (some duplicate) => (.ok duplicate, self)
      | .ok none =>
          if live.lifecycle ≠ .active then (.error (.runtime .sessionNotActive), self)
          else if owner.turnExecution.isSome ∨ owner.operation.isSome then
            (.error (.runtime .busySession), self)
          else if self.operationInUse clientIntentId then
            (.error (.runtime .operationCollision), self)
          else
            match self.startTurn sha256 sessionId incarnation expectedHistoryRevision
                clientIntentId prompt with
            | (.error error, self) => (.error (.mirror error), self)
            | (.ok admission, self) =>
                (.ok admission, self.modifyState sessionId (·.commitLive))

end Turn

section Operation

/-- An id an operation may start under: unused, or the session's own reservation. -/
def checkOperationId (self : SessionRegistry σ δ) (sessionId : String) (incarnation : Nat)
    (operationId : String) (kind : SessionOperationKind) : Except RuntimeStateError Unit :=
  if self.operationInUseExceptReserved operationId (some (sessionId, incarnation, kind)) then
    .error .operationCollision
  else .ok ()

def startReload (self : SessionRegistry σ δ) (expectedEpoch sessionId : String)
    (incarnation : Nat) (operationId : String) (kind : SessionOperationKind) :
    Except RuntimeStateError Unit × SessionRegistry σ δ :=
  self.liveStep expectedEpoch sessionId incarnation
    (if kind ≠ .load then .error .operationMismatch
      else self.checkOperationId sessionId incarnation operationId kind)
    fun owner live => owner.startReload live operationId kind

def startOperation (self : SessionRegistry σ δ) (expectedEpoch sessionId : String)
    (incarnation : Nat) (operationId : String) (kind : SessionOperationKind) (stage : String) :
    Except RuntimeStateError Unit × SessionRegistry σ δ :=
  self.liveStep expectedEpoch sessionId incarnation
    (self.checkOperationId sessionId incarnation operationId kind)
    fun owner live => owner.startOperation live operationId kind stage

/-- Delete a session: one that is active is closed first. -/
def startDelete (self : SessionRegistry σ δ) (expectedEpoch sessionId : String)
    (incarnation : Nat) (operationId : String) :
    Except RuntimeStateError Unit × SessionRegistry σ δ :=
  match self.requireLiveOwner sessionId incarnation with
  | .error error => (.error error, self)
  | .ok (_, live) =>
      match live.lifecycle with
      | .active =>
          self.startOperation expectedEpoch sessionId incarnation operationId .delete "closing"
      | .closed =>
          self.startOperation expectedEpoch sessionId incarnation operationId .delete "deleting"
      | _ => (.error .sessionNotActive, self)

def startDirectDelete (self : SessionRegistry σ δ) (expectedEpoch sessionId : String)
    (incarnation : Nat) (operationId : String) :
    Except RuntimeStateError Unit × SessionRegistry σ δ :=
  match self.requireLiveOwner sessionId incarnation with
  | .error error => (.error error, self)
  | .ok (_, live) =>
      if live.lifecycle ≠ .active then (.error .sessionNotActive, self)
      else
        self.startOperation expectedEpoch sessionId incarnation operationId .delete
          "deleting_active"

/-- Release a session whose resources are cleaned up; the owner is named exactly. -/
def finishSessionCleanup (self : SessionRegistry σ δ) (sessionId : String) (incarnation : Nat)
    (kind : SessionAdmission) (operationId : String) :
    Except MirrorError Unit × SessionRegistry σ δ :=
  self.stateStep sessionId incarnation fun owner =>
    if owner.operation.any (fun operation =>
          operation.operationId = operationId && operation.kind.admission = kind) = false ∨
        owner.live.any (fun live => live.lifecycle ≠ .closed) then
      .error .operationMismatch
    else .ok { owner with operation := none, live := none }

end Operation

section Interactions

def upsertPermission (self : SessionRegistry σ δ) (expectedEpoch sessionId : String)
    (incarnation : Nat) (interactionId : String) (request : Value) :
    Except RuntimeStateError InteractionUpsert × SessionRegistry σ δ :=
  self.reduceScope expectedEpoch (some (sessionId, incarnation)) fun active d => do
    let upserted ← d.permissions.upsert interactionId request active true
    .ok (upserted.1, { d with permissions := upserted.2 }, upserted.1 = .inserted)

def resolvePermission (self : SessionRegistry σ δ) (expectedEpoch sessionId : String)
    (incarnation : Nat) (interactionId : String) :
    Except RuntimeStateError InteractionResolution × SessionRegistry σ δ :=
  self.reduceScope expectedEpoch (some (sessionId, incarnation)) fun _ d => do
    let resolved ← d.permissions.resolve interactionId false
    .ok (resolved.1, { d with permissions := resolved.2.2 }, resolved.1 = .applied)

def beginPermissionResponse (self : SessionRegistry σ δ) (expectedEpoch sessionId : String)
    (incarnation : Nat) (interactionId operationId : String) :
    Except RuntimeStateError InteractionResponseStart × SessionRegistry σ δ :=
  self.reduceScope expectedEpoch (some (sessionId, incarnation)) fun _ d => do
    let started ← d.permissions.respond interactionId operationId (self.operationInUse operationId)
    .ok (started.1, { d with permissions := started.2 }, started.1 = .applied)

def completePermissionResponse (self : SessionRegistry σ δ) (expectedEpoch sessionId : String)
    (incarnation : Nat) (interactionId operationId : String) :
    Except RuntimeStateError InteractionResolution × SessionRegistry σ δ :=
  self.reduceScope expectedEpoch (some (sessionId, incarnation)) fun _ d => do
    let resolved ← d.permissions.complete interactionId operationId false
    .ok (resolved.1, { d with permissions := resolved.2.2 }, resolved.1 = .applied)

def upsertElicitation (self : SessionRegistry σ δ) (expectedEpoch : String)
    (scope : Option (String × Nat)) (interactionId : String) (request : Value) :
    Except RuntimeStateError InteractionUpsert × SessionRegistry σ δ :=
  self.reduceScope expectedEpoch scope fun active d => do
    let upserted ← d.elicitations.upsert interactionId request active scope.isSome
    .ok (upserted.1, { d with elicitations := upserted.2 }, upserted.1 = .inserted)

/-- Whether the flow of a URL is registered in any scope. -/
def urlFlowInUse (self : SessionRegistry σ δ) (elicitationId : String) : Bool :=
  (self.requestUrlFlows.lookup elicitationId).isSome ||
    self.sessions.any fun _ entry =>
      entry.state.live.any fun live => (live.urlFlows.lookup elicitationId).isSome

omit [Inhabited σ] [DecidableEq δ] in
/-- What a resolved elicitation leaves of its scope. -/
def afterResolution (d : Session.Interactions) (interactionId : String)
    (acceptedUrlId : Option String) (resolved : InteractionResolution × Value × Ledger) :
    InteractionResolution × Session.Interactions × Bool :=
  let removed := { d with elicitations := resolved.2.2 }
  (resolved.1,
    if resolved.1 = .applied then removed.accepted interactionId resolved.2.1 acceptedUrlId
    else removed,
    resolved.1 = .applied)

def resolveElicitation (self : SessionRegistry σ δ) (expectedEpoch : String)
    (scope : Option (String × Nat)) (interactionId : String) (acceptedUrlId : Option String) :
    Except RuntimeStateError InteractionResolution × SessionRegistry σ δ :=
  self.reduceScope expectedEpoch scope fun _ d => do
    let resolved ← d.elicitations.resolve interactionId (acceptedUrlId.any self.urlFlowInUse)
    .ok (afterResolution d interactionId acceptedUrlId resolved)

def beginElicitationResponse (self : SessionRegistry σ δ) (expectedEpoch : String)
    (scope : Option (String × Nat)) (interactionId operationId : String) :
    Except RuntimeStateError InteractionResponseStart × SessionRegistry σ δ :=
  self.reduceScope expectedEpoch scope fun _ d => do
    let started ← d.elicitations.respond interactionId operationId (self.operationInUse operationId)
    .ok (started.1, { d with elicitations := started.2 }, started.1 = .applied)

def completeElicitationResponse (self : SessionRegistry σ δ) (expectedEpoch : String)
    (scope : Option (String × Nat)) (interactionId operationId : String)
    (acceptedUrlId : Option String) :
    Except RuntimeStateError InteractionResolution × SessionRegistry σ δ :=
  self.reduceScope expectedEpoch scope fun _ d => do
    let resolved ← d.elicitations.complete interactionId operationId
      (acceptedUrlId.any self.urlFlowInUse)
    .ok (afterResolution d interactionId acceptedUrlId resolved)

def settleUrlRegistration (self : SessionRegistry σ δ) (expectedEpoch : String)
    (scope : Option (String × Nat)) (elicitationId registrationId : String)
    (status : UrlFlowStatus) : Except RuntimeStateError UrlFlowResolution × SessionRegistry σ δ :=
  self.reduceScope expectedEpoch scope fun _ d => do
    let settled ← d.settleUrlRegistration elicitationId registrationId status
    .ok (settled.1, settled.2, settled.1 = .applied)

end Interactions

/-- The effects that wait for the bridge, which takes all of them. -/
def takeEffects (self : SessionRegistry σ δ) : Multiset RuntimeEffect × SessionRegistry σ δ :=
  (self.effects, { self with effects := 0 })

end SessionRegistry

end Attyd.Session
