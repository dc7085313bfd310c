import Attyd.Session.RuntimeOps

/-!
# What the operations and the interactions of the sessions do

A face is what a session shows of its turn, its operation, its lifecycle and its
interactions; a board has the face of every session, the interactions of the
connection and the effects that wait. The steps of a board say all that can happen
to it, with everything each of them requires, and every operation of the runtime is
one of them.

## Implementation notes

Some steps require more of the bridge than of the registry: an interaction is only
opened in a session that is in use, say. These requirements stand behind what the
caller sees to.
-/

namespace Attyd.Session

open Json (Value)
open History

inductive InteractionKind where
  | permission
  | elicitation
  deriving DecidableEq

namespace Interactions

def ledger (d : Interactions) : InteractionKind → Ledger
  | .permission => d.permissions
  | .elicitation => d.elicitations

def withLedger (d : Interactions) (kind : InteractionKind) (ledger : Ledger) : Interactions :=
  match kind with
  | .permission => { d with permissions := ledger }
  | .elicitation => { d with elicitations := ledger }

/-- No interaction and no flow waits. -/
structure Idle (d : Interactions) : Prop where
  permissions : d.permissions.pending = ∅
  elicitations : d.elicitations.pending = ∅
  urlFlows : d.urlFlows = ∅

/-- The interactions of a scope that starts. -/
def fresh : Interactions := ⟨⟨∅, 0⟩, ⟨∅, 0⟩, ∅, 0⟩

/-- The interactions after a drain: what had an answer stays known. -/
def drained (d : Interactions) : Interactions :=
  { d with
    permissions := { d.permissions with pending := ∅ }
    elicitations := { d.elicitations with pending := ∅ }
    urlFlows := ∅ }

/-- The interactions once a turn is sealed. -/
def sealed (d : Interactions) (operationId : String) : Interactions :=
  { d with
    permissions := d.permissions.sealTurn operationId
    elicitations := d.elicitations.sealTurn operationId }

end Interactions

/-- What happens to the interactions of one scope. -/
inductive InteractionAction where
  | opens (kind : InteractionKind) (interactionId : String)
  | responds (kind : InteractionKind) (interactionId operationId : String)
  | resolves (kind : InteractionKind) (interactionId : String) (acceptedUrlId : Option String)
  | settles (elicitationId registrationId : String)
  | discards (elicitationId : String)
  deriving DecidableEq

/-- One step of the interactions of a scope in which the given turn runs. -/
inductive Interactions.Step (used urlUsed : String → Prop) (active : Option String) :
    InteractionAction → Interactions → Interactions → Prop
  | opens {d : Interactions} (kind : InteractionKind) (interactionId : String) (request : Value)
      (hnew : interactionId ∉ (d.ledger kind).resolved)
      (hfree : (d.ledger kind).pending.lookup interactionId = none) :
      Step used urlUsed active (.opens kind interactionId) d
        (d.withLedger kind
          { d.ledger kind with
            pending := (d.ledger kind).pending.insert interactionId
              ⟨interactionId, request, active, none⟩ })
  | responds {d : Interactions} (kind : InteractionKind) (interactionId operationId : String)
      {pending : PendingInteraction} (hpending : (d.ledger kind).pending.lookup interactionId =
        some pending)
      (hfree : pending.respondingOperationId = none) (hunused : ¬used operationId) :
      Step used urlUsed active (.responds kind interactionId operationId) d
        (d.withLedger kind
          { d.ledger kind with
            pending := (d.ledger kind).pending.insert interactionId
              { pending with respondingOperationId := some operationId } })
  | resolves {d : Interactions} (kind : InteractionKind) (interactionId : String)
      (acceptedUrlId : Option String) {pending : PendingInteraction}
      (hpending : (d.ledger kind).pending.lookup interactionId = some pending)
      (hnew : interactionId ∉ (d.ledger kind).resolved)
      (hurl : ∀ url, acceptedUrlId = some url → kind = .elicitation ∧ ¬urlUsed url) :
      Step used urlUsed active (.resolves kind interactionId acceptedUrlId) d
        ((d.withLedger kind
          ⟨(d.ledger kind).pending.erase interactionId,
            interactionId ::ₘ (d.ledger kind).resolved⟩).accepted
          interactionId pending.request acceptedUrlId)
  | settles {d : Interactions} (elicitationId registrationId : String) {flow : UrlFlow}
      (hflow : d.urlFlows.lookup elicitationId = some flow)
      (hregistration : flow.registrationId = registrationId) (hwaiting : flow.status = .waiting)
      (hnew : elicitationId ∉ d.resolvedUrlFlows) :
      Step used urlUsed active (.settles elicitationId registrationId) d
        { d with
          urlFlows := d.urlFlows.erase elicitationId
          resolvedUrlFlows := elicitationId ::ₘ d.resolvedUrlFlows }
  | discards {d : Interactions} (elicitationId : String) {flow : UrlFlow}
      (hflow : d.urlFlows.lookup elicitationId = some flow) (hwaiting : flow.status ≠ .waiting) :
      Step used urlUsed active (.discards elicitationId) d
        { d with urlFlows := d.urlFlows.erase elicitationId }

structure LiveFace where
  lifecycle : SessionLifecycle
  interactions : Interactions

structure Face where
  sessionId : String
  incarnation : Nat
  execution : Option String
  operation : Option SessionOperationState
  live : Option LiveFace

/-- Whether the operations on a live session answer: nothing cleans it up. -/
def Face.Answers (a : Face) : Prop := ∀ o, a.operation = some o → o.stage ≠ "cleanup"

def SessionLiveState.face (live : SessionLiveState) : LiveFace := ⟨live.lifecycle, live.interactions⟩

def SessionState.face {δ : Type} (self : SessionState δ) : Face where
  sessionId := self.sessionId
  incarnation := self.incarnation
  execution := self.turnExecution.map (·.rpcOperationId)
  operation := self.operation
  live := self.live.map (·.face)

/-- What interactions leave to be answered and aborted when their scope ends. -/
def Interactions.effects (d : Interactions) (sessionId : String) (incarnation : Nat) :
    Multiset RuntimeEffect :=
  cancelPermissions sessionId incarnation d.permissions.pending +
    cancelElicitations sessionId incarnation d.elicitations.pending +
    abortUrlFlows sessionId incarnation d.urlFlows

/-- What the interactions of a sealed turn leave to be answered. -/
def Interactions.sealEffects (d : Interactions) (sessionId : String) (incarnation : Nat)
    (operationId : String) : Multiset RuntimeEffect :=
  cancelPermissions sessionId incarnation (d.permissions.openedBy operationId) +
    cancelElicitations sessionId incarnation (d.elicitations.openedBy operationId)

/-- Whether an operation runs the stage of a delete whose session is closed. -/
def deletesClosed (operation : Option SessionOperationState) : Prop :=
  ∃ o, operation = some o ∧ o.kind = .delete ∧ o.stage = "deleting"

/-- Whether the operation of a face cleans its session up. -/
def Face.Cleaning (a : Face) : Prop := ∃ o, a.operation = some o ∧ o.stage = "cleanup"

/-- What happens to the face of one session. -/
inductive FaceAction where
  | rests
  | executes (operationId : String)
  | starts (operationId : String)
  | ends (operationId : String)
  | drains (operationId : String) (lifecycle : SessionLifecycle)
  | retires (operationId : String) (cleans : Bool)
  | finishes (operationId : String) (cleans : Bool)
  | seals (operationId : String)
  | interacts (action : InteractionAction)

/-- What the caller of an operation sees to: that the session serves what is asked of it,
and that operations are reserved, failed and released in their order. -/
structure Caller where
  serves : Prop
  orderly : Prop

/-- What the bridge sees to when it makes one of its calls. -/
def RuntimeOp.caller {σ δ : Type} [Inhabited σ] [DecidableEq δ] (r : SessionRegistry σ δ)
    (op : RuntimeOp) : Caller :=
  ⟨op.called r = true, op.orderly r = true⟩

/-- One step of the face of a session. -/
inductive Face.Step (called : Caller) (used urlUsed : String → Prop) (sessionId : String) :
    FaceAction → Multiset RuntimeEffect → Face → Face → Prop
  | rests {a : Face} (execution : Option String)
      (hexecution : execution = a.execution ∨ execution = none) :
      Step called used urlUsed sessionId .rests 0 a { a with execution }
  | executes {a : Face} (operationId : String) (hunused : ¬used operationId)
      (hidle : a.execution = none) (hfree : a.operation = none) {live : LiveFace}
      (hlive : a.live = some live) (hactive : live.lifecycle = .active) :
      Step called used urlUsed sessionId (.executes operationId) 0 a
        { a with execution := some operationId }
  /-- An operation starts, or goes on from its reservation. -/
  | starts {a : Face} (operation : SessionOperationState) (live : Option LiveFace)
      (hid : a.operation = none ∧ ¬used operation.operationId ∨
        ∃ reserved, a.operation = some reserved ∧
          reserved.operationId = operation.operationId ∧ reserved.stage = "reserved")
      (hstage : called.serves → operation.stage ≠ "cleanup")
      (hlive : live.map (·.interactions) = a.live.map (·.interactions))
      (hlifecycle : ∀ b, live = some b → a.live = some b ∨
        b.lifecycle ∈ [.closing, .closingForDelete, .deleting])
      (hdeleting : called.serves → deletesClosed (some operation) →
        (∀ b, a.live = some b → b.lifecycle = .closed) ∧
          ∀ b, live = some b → b.lifecycle = .deleting)
      (hclosed : called.serves → called.orderly → ∀ b, a.live = some b → b.lifecycle = .closed →
        operation.kind = .delete ∧
          (operation.stage = "reserved" ∧ live = a.live ∨ operation.stage = "deleting")) :
      Step called used urlUsed sessionId (.starts operation.operationId) 0 a
        { a with operation := some operation, live }
  | ends {a : Face} {operation : SessionOperationState} (live : Option LiveFace)
      (hid : a.operation = some operation)
      (hstage : called.serves → operation.stage ≠ "cleanup")
      (hlive : live.map (·.interactions) = a.live.map (·.interactions))
      (hlifecycle : ∀ b, live = some b → a.live = some b ∨ b.lifecycle = .active ∨
        deletesClosed (some operation) ∧ b.lifecycle = .closed)
      (hclosed : called.orderly → ∀ b, a.live = some b →
        b.lifecycle = .closed ∨ deletesClosed (some operation) →
          ∀ b', live = some b' → b'.lifecycle = .closed) :
      Step called used urlUsed sessionId (.ends operation.operationId) 0 a
        { a with operation := none, live }
  /-- An operation closes the session or loses it, and nothing goes on in it. -/
  | drains {a : Face} {operation : SessionOperationState} {live : LiveFace}
      (next : SessionOperationState) (execution : Option String) (lifecycle : SessionLifecycle)
      (hid : a.operation = some operation) (hnext : next.operationId = operation.operationId)
      (hexecution : execution = a.execution ∨ execution = none) (hlive : a.live = some live)
      (hanswers : a.Answers) (hlifecycle : lifecycle ∈ [.deleting, .closed, .uncertain])
      (hcleanup : next.stage = "cleanup" ↔ lifecycle = .closed)
      (hconfirmed : lifecycle ≠ .uncertain → execution = none)
      (hdeleting : lifecycle = .deleting → deletesClosed (some next)) :
      Step called used urlUsed sessionId (.drains operation.operationId lifecycle)
        (live.interactions.effects sessionId a.incarnation) a
        { a with
          execution
          operation := some next
          live := some ⟨lifecycle, live.interactions.drained⟩ }
  /-- An operation takes the live side away. -/
  | retires {a : Face} {operation : SessionOperationState} {live : LiveFace}
      (next : Option SessionOperationState) (execution : Option String) (cleans : Bool)
      (hid : a.operation = some operation)
      (hnext : ∀ o, next = some o → o.operationId = operation.operationId)
      (hexecution : execution = a.execution ∨ execution = none) (hlive : a.live = some live)
      (hanswers : a.Answers)
      (hcleans : cleans = true ↔ ∃ o, next = some o ∧ o.stage = "cleanup") :
      Step called used urlUsed sessionId (.retires operation.operationId cleans)
        (live.interactions.effects sessionId a.incarnation) a
        { a with execution, operation := next, live := none }
  | finishes {a : Face} {operation : SessionOperationState}
      (hid : a.operation = some operation)
      (hlive : ∀ live, a.live = some live → live.lifecycle = .closed) :
      Step called used urlUsed sessionId
        (.finishes operation.operationId (operation.stage = "cleanup")) 0 a
        { a with operation := none, live := none }
  | seals {a : Face} {live : LiveFace} (operationId : String) (lifecycle : SessionLifecycle)
      (hid : a.execution = some operationId) (hlive : a.live = some live) (hanswers : a.Answers)
      (hlifecycle : lifecycle = live.lifecycle ∨ lifecycle = .uncertain) :
      Step called used urlUsed sessionId (.seals operationId)
        (live.interactions.sealEffects sessionId a.incarnation operationId) a
        { a with
          execution := none
          live := some ⟨lifecycle, live.interactions.sealed operationId⟩ }
  | interacts {a : Face} {live : LiveFace} {action : InteractionAction} {d : Interactions}
      (hlive : a.live = some live) (hanswers : a.Answers)
      (hstep : live.interactions.Step used urlUsed a.execution action d)
      (hopens : called.serves → ∀ kind id, action = .opens kind id → live.lifecycle.inUse = true) :
      Step called used urlUsed sessionId (.interacts action) 0 a
        { a with live := some { live with interactions := d } }

section Ids

/-- The id an option holds, if any. -/
def idsOf : Option String → Multiset String
  | none => 0
  | some id => {id}

/-- The operations that respond to interactions. -/
def Ledger.operationIds (d : Ledger) : Multiset String :=
  Table.sum (fun interaction => idsOf interaction.respondingOperationId) d.pending

def Interactions.operationIds (d : Interactions) : Multiset String :=
  d.permissions.operationIds + d.elicitations.operationIds

def Interactions.urlIds (d : Interactions) : Multiset String :=
  Table.collect (fun id _ => id) d.urlFlows

def Face.operationIds (a : Face) : Multiset String :=
  idsOf a.execution + idsOf (a.operation.map (·.operationId)) +
    a.live.elim 0 (·.interactions.operationIds)

def Face.urlIds (a : Face) : Multiset String := a.live.elim 0 (·.interactions.urlIds)

end Ids

/-- The faces of all sessions, the interactions of the connection, and the effects. -/
structure Board where
  faces : Table String Face
  connection : Interactions
  effects : Multiset RuntimeEffect

namespace Board

/-- The operation ids that turns, operations and responses hold. -/
def operationIds (b : Board) : Multiset String :=
  Table.sum Face.operationIds b.faces + b.connection.operationIds

/-- The URLs whose flows are registered. -/
def urlIds (b : Board) : Multiset String := Table.sum Face.urlIds b.faces + b.connection.urlIds

/-- Every session is kept under its own id. -/
def Keyed (b : Board) : Prop := ∀ id a, b.faces.lookup id = some a → a.sessionId = id

def setFace (b : Board) (sessionId : String) (face : Face) : Board :=
  { b with faces := b.faces.insert sessionId face }

end Board

/-- What happens to a board. -/
inductive BoardAction where
  | rests
  | face (sessionId : String) (incarnation : Nat) (action : FaceAction)
  | connection (action : InteractionAction)
  | installs (sessionId : String)
  | registers (sessionId : String)
  | removes (sessionId : String)

/-- What a step opens, seals or does to an interaction, and how sessions end: a session
whose close is confirmed closes with an owner for the cleanup, who leaves once it is done;
a delete may go on after the close; and a session may be lost. -/
inductive Report where
  | silent
  | opens (sessionId : String)
  | seals (sessionId : String) (incarnation : Nat) (operationId : String)
  | interacts (scope : Scope) (action : InteractionAction)
  | confirms (sessionId : String)
  | closes (sessionId : String) (incarnation : Nat) (operationId : String)
  | cleans (sessionId : String) (incarnation : Nat) (operationId : String)
  | doubts (sessionId : String)
  deriving DecidableEq

/-- The report of a session that is drained. -/
def drainReport (sessionId : String) (incarnation : Nat) (operationId : String) :
    SessionLifecycle → Report
  | .deleting => .confirms sessionId
  | .closed => .closes sessionId incarnation operationId
  | .uncertain => .doubts sessionId
  | _ => .silent

/-- The report of a step; a flow that is discarded had been settled before. -/
def BoardAction.report : BoardAction → Report
  | .face _ _ (.interacts (.discards _)) | .connection (.discards _) => .silent
  | .face sessionId incarnation (.drains operationId lifecycle) =>
      drainReport sessionId incarnation operationId lifecycle
  | .face sessionId incarnation (.retires operationId true) =>
      .closes sessionId incarnation operationId
  | .face sessionId incarnation (.finishes operationId true) =>
      .cleans sessionId incarnation operationId
  | .face sessionId incarnation (.interacts action) =>
      .interacts (some (sessionId, incarnation)) action
  | .face sessionId incarnation (.seals operationId) => .seals sessionId incarnation operationId
  | .connection action => .interacts none action
  | .installs sessionId => .opens sessionId
  | _ => .silent

/-- One step of a board. -/
inductive Board.Step (called : Caller) : BoardAction → Board → Board → Prop
  | rests {b : Board} : Step called .rests b b
  | face {b : Board} {a a' : Face} {action : FaceAction} {effects : Multiset RuntimeEffect}
      (sessionId : String) (ha : b.faces.lookup sessionId = some a)
      (hstep : Face.Step called (· ∈ b.operationIds) (· ∈ b.urlIds) sessionId action effects a a') :
      Step called (.face sessionId a.incarnation action) b
        { b.setFace sessionId a' with effects := b.effects + effects }
  | connection {b : Board} {action : InteractionAction} {d : Interactions}
      (hstep : b.connection.Step (· ∈ b.operationIds) (· ∈ b.urlIds) none action d)
      (hkind : d.permissions = b.connection.permissions) :
      Step called (.connection action) b { b with connection := d }
  | installs {b : Board} (sessionId : String) (face : Face) (lifecycle : SessionLifecycle)
      (hid : face.sessionId = sessionId)
      (hfree : ∀ a, b.faces.lookup sessionId = some a →
        a.operation = none ∧ ∀ live, a.live = some live → live.lifecycle = .closed)
      (hexecution : face.execution = none ∨
        ∃ a, b.faces.lookup sessionId = some a ∧ a.execution = face.execution)
      (hoperation : ∀ o, face.operation = some o →
        o.operationId ∉ b.operationIds ∧ o.stage = "attaching")
      (hlive : face.live = some ⟨lifecycle, .fresh⟩) (hinUse : lifecycle.inUse = true) :
      Step called (.installs sessionId) b (b.setFace sessionId face)
  | registers {b : Board} (sessionId : String) (incarnation : Nat)
      (hnew : called.serves → b.faces.lookup sessionId = none) :
      Step called (.registers sessionId) b
        (b.setFace sessionId ⟨sessionId, incarnation, none, none, none⟩)
  | removes {b : Board} {a : Face} (sessionId : String) (ha : b.faces.lookup sessionId = some a)
      (hlive : a.live = none) (hfree : a.operation = none) :
      Step called (.removes sessionId) b { b with faces := b.faces.erase sessionId }

end Attyd.Session
