import Attyd.Library.Counter
import Attyd.Library.Json
import Attyd.Library.Quiescence
import Attyd.Library.Table

/-!
# One MCP connection

A connection to an MCP server is a child process, a table of requests that wait for a
response, and the tasks around them: the calls that send messages, the reader of the
child's output, the waiter for its exit, and whoever ends the connection. They share the
closed flag, the table and the manager's table of connections under separate locks.

## Implementation notes

A step is what one task does between two points where others may run; a task that holds a
lock over such a point is at a stage of its own. Of those who end the connection only the
first one goes past its look at the closed flag, so the connection is closed when it has a
termination, and the termination is the rest of what that task does. Requests and
notifications of the server touch nothing that is kept here.

The lock on the child's input and a full pipe are left out: a write takes one step, with an error
or without. So a write is assumed to end, as it does once the child reads its input or is killed.

The numbers of the requests are counted without bound; only the id of a request wraps.
-/

namespace Attyd.Mcp

open Json (Value)

/-- The errors of the protocol, under the names of their constructors. -/
inductive McpError where
  | requestCancelled
  | resourceNotFound (data : String)
  | invalidRequest (data : String)
  | invalidParams (data : String)
  | internalError (data : String)
  | new (code : Int) (message : String) (data : Option Value)
  deriving DecidableEq

def unknownConnection (connectionId : String) : McpError :=
  .resourceNotFound ("unknown MCP connection: " ++ connectionId)

def disconnected : McpError := .new (-32000) "MCP connection was disconnected" none

section Response

def asI32 : Value → Option Int
  | .number (.int n) => if -2 ^ 31 ≤ n ∧ n < 2 ^ 31 then some n else none
  | _ => none

/-- The result that a response of the server stands for. -/
def responseResult (object : Value) : Except McpError Value :=
  let error := (object.get "error").filter Value.isObject
  if error.isSome ∧ (object.get "result").isSome then
    .error (.new (-32603) "MCP response contains both result and error" none)
  else
    match error with
    | some error =>
        .error (.new (((error.get "code").bind asI32).getD (-32603))
          ((error.getStr "message").getD "MCP request failed") (error.get "data"))
    | none =>
        match object.get "result" with
        | some result => .ok result
        | none => .error (.internalError "MCP response has neither result nor error")

/-- The id that a line of the server answers, when it is a response. -/
def responseId (value : Value) : Option String :=
  if value.isObject = true ∧ value.getStr "jsonrpc" = some "2.0" ∧
      value.getStr "method" = none then
    value.getStr "id"
  else none

end Response

/-- What a waiting call is sent. -/
inductive PendingResult where
  | response (value : Value)
  | terminated (reason : McpError)
  deriving DecidableEq

def PendingResult.result : PendingResult → Except McpError Value
  | response value => responseResult value
  | terminated reason => .error reason

/-- The receiving side of a call: its sender is alive, has sent, or went without sending. -/
inductive Channel where
  | open
  | sent (result : PendingResult)
  | dropped
  deriving DecidableEq

/-- How a message call ends. A call is rejected before it has registered a request. -/
inductive CallOutcome where
  | rejected (error : McpError)
  | writeFailed (error : McpError)
  | delivered (result : PendingResult)
  | cancelled
  deriving DecidableEq

/-- Where a message call is. -/
inductive CallStage where
  | requiring
  | numbering
  | locking
  | inserting
  | writing
  | unregistering (error : McpError)
  | waiting
  | withdrawing
  | retracting
  | ended (outcome : CallOutcome)
  deriving DecidableEq

structure MessageCall where
  method : String
  stage : CallStage
  number : Option Nat
  registered : Bool
  cancelRequested : Bool
  channel : Channel

structure PendingMcpRequest where
  method : String
  call : Nat

/-- Where the task is that ends the connection, past the closed flag. -/
inductive TerminateStage where
  | cancelling
  | removing
  | killing
  | locking
  | draining
  | announcing
  | finished
  deriving DecidableEq

structure Termination where
  reason : McpError
  stage : TerminateStage

/-- Where the reader of the child's output is. -/
inductive Reader where
  | reading
  | routing (value : Value)
  | removing (value : Value) (id : String)
  | delivering (value : Value) (call : Nat)
  | stopped

/-- Where the request is that opened the connection. -/
inductive Connecting where
  | opening
  | activating
  | announcing
  | connected
  | refused
  deriving DecidableEq

inductive ConnectionEvent where
  | connected
  | disconnected
  deriving DecidableEq

structure McpConnection where
  id : String
  /-- The manager's table has the connection. -/
  listed : Bool
  connectionsLocked : Bool
  announced : Bool
  cancelled : Bool
  /-- The sender that kills the child has not been used. -/
  kill : Bool
  nextRequestId : Nat
  pending : Table String PendingMcpRequest
  pendingLocked : Bool
  calls : List MessageCall
  /-- Those who are about to look at the closed flag, to end the connection. -/
  enders : List McpError
  termination : Option Termination
  reader : Reader
  childWaited : Bool
  connecting : Connecting
  removals : Nat
  events : List ConnectionEvent

/-- The id of a request under its number; the counter has 64 bits. -/
def requestId (number : Nat) : String := "attyd-" ++ toString ((number + 1) % 2 ^ 64)

def MessageCall.start (method : String) : MessageCall where
  method
  stage :=
    if method.isEmpty then .ended (.rejected (.invalidParams "MCP method must not be empty"))
    else .requiring
  number := none
  registered := false
  cancelRequested := false
  channel := .open

def MessageCall.key (call : MessageCall) : String := requestId (call.number.getD 0)

namespace McpConnection

/-- A connection that was just put into the manager's table. -/
def opened (id : String) : McpConnection where
  id
  listed := true
  connectionsLocked := false
  announced := false
  cancelled := false
  kill := true
  nextRequestId := 0
  pending := ∅
  pendingLocked := false
  calls := []
  enders := []
  termination := none
  reader := .reading
  childWaited := false
  connecting := .opening
  removals := 0
  events := []

def closed (s : McpConnection) : Bool := s.termination.isSome

def setCall (s : McpConnection) (i : Nat) (call : MessageCall) : McpConnection :=
  { s with calls := s.calls.set i call }

def setStage (s : McpConnection) (i : Nat) (call : MessageCall) (stage : CallStage) :
    McpConnection :=
  s.setCall i { call with stage }

/-- What the sender of a call did last. -/
def setChannel (s : McpConnection) (i : Nat) (channel : Channel) : McpConnection :=
  { s with calls := s.calls.modify i fun call => { call with channel } }

/-- The entry under an id leaves the table, and its sender with it. -/
def dropPending (s : McpConnection) (key : String) : McpConnection :=
  match s.pending.lookup key with
  | none => s
  | some pending => { s with pending := s.pending.erase key }.setChannel pending.call .dropped

/-- A request enters the table; the sender of one under the same id is dropped. -/
def insertPending (s : McpConnection) (key : String) (pending : PendingMcpRequest) :
    McpConnection :=
  let s := s.dropPending key
  { s with pending := s.pending.insert key pending }

def setTermination (s : McpConnection) (stage : TerminateStage) : McpConnection :=
  { s with termination := s.termination.map fun termination => { termination with stage } }

end McpConnection

/-- What the tasks of a connection do, and what happens to them. -/
inductive Action where
  | message (method : String)
  | requestCancel (call : Nat)
  | require (call : Nat)
  | number (call : Nat)
  | lockPending (call : Nat)
  | insert (call : Nat)
  | wrote (call : Nat)
  | writeFailed (call : Nat) (error : McpError)
  | unregister (call : Nat)
  | receive (call : Nat)
  | withdraw (call : Nat)
  | removeWithdrawn (call : Nat)
  | retracted (call : Nat)
  | disconnect
  | closeAll
  | childExited (reason : McpError)
  | childKilled
  | readerFailed (reason : McpError)
  | readerEnded
  | connectCancelled
  | exchange (ender : Nat)
  | terminate
  | drain (id : String)
  | serverSends (value : Value)
  | route
  | takePending
  | deliver
  | activate
  | markAnnounced
  | announceConnected

namespace McpConnection

section Message

variable (s : McpConnection) (i : Nat) (call : MessageCall)

/-- The call looks its connection up, among those that are not closed. -/
def require : McpConnection :=
  if s.listed && !s.closed then s.setStage i call .numbering
  else s.setStage i call (.ended (.rejected (unknownConnection s.id)))

def takeNumber : McpConnection :=
  { s with nextRequestId := s.nextRequestId + 1 }.setCall i
    { call with number := some s.nextRequestId, stage := .locking }

/-- Under the lock of the table the call looks at the closed flag once more. -/
def lockPending : McpConnection :=
  if s.closed then s.setStage i call (.ended (.rejected (unknownConnection s.id)))
  else { s with pendingLocked := true }.setStage i call .inserting

def insertRequest : McpConnection :=
  { s.insertPending call.key ⟨call.method, i⟩ with pendingLocked := false }.setCall i
    { call with stage := .writing, registered := true }

/-- The call takes its own entry out, and goes on. -/
def withdrawRequest (stage : CallStage) : McpConnection :=
  (s.setStage i call stage).dropPending call.key

/-- What the call receives, if its sender has sent or gone. -/
def receive : Option McpConnection :=
  match call.channel with
  | .open => none
  | .sent result => some (s.setStage i call (.ended (.delivered result)))
  | .dropped => some (s.setStage i call (.ended .cancelled))

end Message

section Terminate

variable (s : McpConnection)

/-- The next step of the task that ends the connection. -/
def terminate : Option McpConnection :=
  s.termination.bind fun termination =>
    match termination.stage with
    | .cancelling => some ({ s with cancelled := true }.setTermination .removing)
    | .removing =>
        if s.connectionsLocked then none
        else
          some ({ s with
            listed := false
            removals := if s.listed then s.removals + 1 else s.removals }.setTermination .killing)
    | .killing => some ({ s with kill := false }.setTermination .locking)
    | .locking =>
        if s.pendingLocked then none
        else some ({ s with pendingLocked := true }.setTermination .draining)
    | .draining =>
        if s.pending.keys = ∅ then
          some ({ s with pendingLocked := false }.setTermination .announcing)
        else none
    | .announcing =>
        some ({ s with
          events := if s.announced then s.events ++ [ConnectionEvent.disconnected] else s.events
            }.setTermination .finished)
    | .finished => none

/-- The first one that finds the connection open ends it. -/
def exchange (ender : Nat) (reason : McpError) : McpConnection :=
  { s with
    enders := s.enders.eraseIdx ender
    termination := s.termination.or (some ⟨reason, .cancelling⟩) }

/-- One request is taken out of the table and sent the reason. -/
def drain (id : String) : Option McpConnection := do
  let termination ← s.termination.filter fun termination => termination.stage = .draining
  let pending ← s.pending.lookup id
  some ({ s with pending := s.pending.erase id }.setChannel pending.call
    (.sent (.terminated termination.reason)))

end Terminate

section Reader

variable (s : McpConnection)

/-- A line of the server is dropped once the connection is closed, or when it answers
nothing. -/
def route (value : Value) : McpConnection :=
  { s with
    reader :=
      if s.closed then .reading
      else
        match responseId value with
        | none => .reading
        | some id => .removing value id }

def takePending (value : Value) (id : String) : McpConnection :=
  match s.pending.lookup id with
  | none => { s with reader := .reading }
  | some pending =>
      { s with pending := s.pending.erase id, reader := .delivering value pending.call }

end Reader

/-- A call at a stage where its task may go on. -/
def callAt (s : McpConnection) (i : Nat) (stage : CallStage) : Option MessageCall :=
  (s.calls[i]?).filter fun call => call.stage = stage

/-- One step, where it is enabled. -/
def step (s : McpConnection) : Action → Option McpConnection
  | .message method => some { s with calls := s.calls ++ [.start method] }
  | .requestCancel i =>
      (s.calls[i]?).map fun call => s.setCall i { call with cancelRequested := true }
  | .require i =>
      if s.connectionsLocked then none else (s.callAt i .requiring).map (s.require i)
  | .number i => (s.callAt i .numbering).map (s.takeNumber i)
  | .lockPending i =>
      if s.pendingLocked then none else (s.callAt i .locking).map (s.lockPending i)
  | .insert i => (s.callAt i .inserting).map (s.insertRequest i)
  | .wrote i => (s.callAt i .writing).map fun call => s.setStage i call .waiting
  | .writeFailed i error =>
      (s.callAt i .writing).map fun call => s.setStage i call (.unregistering error)
  | .unregister i =>
      (s.calls[i]?).bind fun call =>
        match call.stage with
        | .unregistering error =>
            if s.pendingLocked then none
            else some (s.withdrawRequest i call (.ended (.writeFailed error)))
        | _ => none
  | .receive i => (s.callAt i .waiting).bind (s.receive i)
  | .withdraw i =>
      ((s.callAt i .waiting).filter (·.cancelRequested)).map fun call =>
        s.setStage i call .withdrawing
  | .removeWithdrawn i =>
      if s.pendingLocked then none
      else (s.callAt i .withdrawing).map fun call => s.withdrawRequest i call .retracting
  | .retracted i => (s.callAt i .retracting).map fun call => s.setStage i call (.ended .cancelled)
  | .disconnect =>
      if s.listed && !s.closed && !s.connectionsLocked then
        some { s with enders := s.enders ++ [disconnected] }
      else none
  | .closeAll =>
      if s.listed && !s.connectionsLocked then
        some { s with enders := s.enders ++ [.requestCancelled] }
      else none
  | .childExited reason =>
      if s.childWaited then none
      else some { s with childWaited := true, enders := s.enders ++ [reason] }
  | .childKilled => if s.childWaited || s.kill then none else some { s with childWaited := true }
  | .readerFailed reason =>
      match s.reader with
      | .reading => some { s with reader := .stopped, enders := s.enders ++ [reason] }
      | _ => none
  | .readerEnded =>
      match s.reader with
      | .reading => some { s with reader := .stopped }
      | _ => none
  | .connectCancelled =>
      if s.connecting = .opening then
        some { s with connecting := .refused, enders := s.enders ++ [.requestCancelled] }
      else none
  | .exchange ender => (s.enders[ender]?).map (s.exchange ender)
  | .terminate => s.terminate
  | .drain id => s.drain id
  | .serverSends value =>
      match s.reader with
      | .reading => some { s with reader := .routing value }
      | _ => none
  | .route =>
      match s.reader with
      | .routing value => some (s.route value)
      | _ => none
  | .takePending =>
      match s.reader with
      | .removing value id => if s.pendingLocked then none else some (s.takePending value id)
      | _ => none
  | .deliver =>
      match s.reader with
      | .delivering value call =>
          some ({ s with reader := .reading }.setChannel call (.sent (.response value)))
      | _ => none
  | .activate =>
      if s.connecting = .opening ∧ s.connectionsLocked = false then
        some (if s.listed && !s.closed then
            { s with connecting := .activating, connectionsLocked := true }
          else { s with connecting := .refused })
      else none
  | .markAnnounced =>
      if s.connecting = .activating then
        some { s with connecting := .announcing, announced := true, connectionsLocked := false }
      else none
  | .announceConnected =>
      if s.connecting = .announcing then
        some { s with connecting := .connected, events := s.events ++ [.connected] }
      else none

/-- The connection as its tasks leave it. -/
def after (id : String) (actions : List Action) : McpConnection :=
  run (attempt step) (opened id) actions

end McpConnection

end Attyd.Mcp
