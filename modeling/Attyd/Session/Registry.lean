import Attyd.Session.Reconcile
import Attyd.Session.State

/-!
# The session registry

The registry owns every session together with the history cache. Its operations
change a session and the cache in one step, and keep the accounts of overlay and
terminal bytes.

## Implementation notes

An operation answers with the registry as it leaves it, also when it fails: some
operations change the session before they fail. Of the resources of a session
only the pending materialization is kept, which `remove` asks for; the journal
and the routes of interactions are left out. The effects wait in no particular order.
-/

namespace Attyd.Session

open Json (Value)
open History

structure SessionEntry (δ : Type) where
  state : SessionState δ
  materialization : Bool

/-- What the bridge has to do outside the registry after a change. -/
inductive RuntimeEffect where
  | cancelPermissionResponder (sessionId : String) (incarnation : Nat) (interactionId : String)
  | cancelElicitationResponder (scope : Option (String × Nat)) (interactionId : String)
  | abortUrlFlow (scope : Option (String × Nat)) (elicitationId registrationId : String)
  | releaseTerminal (sessionId terminalId : String)
  deriving DecidableEq

structure SessionRegistry (σ δ : Type) where
  epoch : String
  nextIncarnation : Nat
  nextOperation : Nat
  sessions : Table String (SessionEntry δ)
  retiredIds : Finset String
  history : HistoryCache σ
  overlayBytes : Nat
  retainedTerminals : Table SessionKey (Table String Value)
  retainedTerminalBytes : Nat
  connectionRevision : Nat
  requestElicitations : Table String PendingInteraction
  requestUrlFlows : Table String UrlFlow
  resolvedRequestElicitations : Multiset String
  resolvedRequestUrlFlows : Multiset String
  effects : Multiset RuntimeEffect

namespace SessionRegistry

variable {σ δ : Type} [Inhabited σ] [DecidableEq δ]

def new (epoch : String) : SessionRegistry σ δ where
  epoch
  nextIncarnation := 0
  nextOperation := 0
  sessions := ∅
  retiredIds := ∅
  history := .new epoch
  overlayBytes := 0
  retainedTerminals := ∅
  retainedTerminalBytes := 0
  connectionRevision := 0
  requestElicitations := ∅
  requestUrlFlows := ∅
  resolvedRequestElicitations := 0
  resolvedRequestUrlFlows := 0
  effects := 0

section Access

def state (self : SessionRegistry σ δ) (sessionId : String) : Option (SessionState δ) :=
  (self.sessions.lookup sessionId).map (·.state)

def requireState (self : SessionRegistry σ δ) (sessionId : String) (incarnation : Nat) :
    Except MirrorError (SessionState δ) :=
  match self.state sessionId with
  | none => .error .unknownSession
  | some session =>
      if session.incarnation = incarnation then .ok session else .error .staleIncarnation

/-- Write the state of a registered session; its resources stay. -/
def putState (self : SessionRegistry σ δ) (sessionId : String) (session : SessionState δ) :
    SessionRegistry σ δ :=
  match self.sessions.lookup sessionId with
  | none => self
  | some entry =>
      { self with sessions := self.sessions.insert sessionId { entry with state := session } }

/-- Write a session whose overlay changed, with its account. -/
def putOverlay (self : SessionRegistry σ δ) (sessionId : String) (old new : SessionState δ) :
    SessionRegistry σ δ :=
  { self.putState sessionId new with
    overlayBytes :=
      saturatingAdd (self.overlayBytes - old.activeOverlayBytes) new.activeOverlayBytes }

/-- The session whose current load the operation names. -/
def requireLoading (self : SessionRegistry σ δ) (sessionId : String) (incarnation : Nat)
    (attemptId : String) : Except MirrorError (SessionState δ) := do
  let session ← self.requireState sessionId incarnation
  if session.loadAttempt = some attemptId ∧
      (session.phase = .loading ∨ session.phase = .reconciling) then
    .ok session
  else .error .operationMismatch

/-- Lift an answer of the history cache. -/
def ofHistory {α : Type} : Except HistoryCacheError α → Except MirrorError α
  | .ok a => .ok a
  | .error error => .error (.history error)

end Access

section Terminals

/-- Whether the content of an update shows the terminal. -/
def referencesTerminal (update : Value) (terminalId : String) : Bool :=
  ((update.get "content").bind Value.asArray).any fun content =>
    content.any fun item =>
      item.getStr "type" = some "terminal" && item.getStr "terminalId" = some terminalId

def removeRetainedTerminals (self : SessionRegistry σ δ) (key : SessionKey) :
    SessionRegistry σ δ :=
  match self.retainedTerminals.lookup key with
  | none => self
  | some terminals =>
      { self with
        retainedTerminals := self.retainedTerminals.erase key
        retainedTerminalBytes := self.retainedTerminalBytes - terminals.total Value.bytes }

/-- Drop the retained terminals that no update shows any more. -/
def pruneRetainedTerminals (self : SessionRegistry σ δ) (key : SessionKey)
    (updates : List Value) : SessionRegistry σ δ :=
  match self.retainedTerminals.lookup key with
  | none => self
  | some terminals =>
      let shown := fun id (_ : Value) => updates.any fun update => referencesTerminal update id
      { self with
        retainedTerminals := self.retainedTerminals.insert key (terminals.retain shown)
        retainedTerminalBytes := self.retainedTerminalBytes -
          (terminals.retain fun id v => !shown id v).total Value.bytes }

/-- Keep the final output of a released terminal that the session still shows. -/
def retainTerminalOutput (self : SessionRegistry σ δ) (sessionId : String) (incarnation : Nat)
    (terminalId : String) (terminal : Value) : Except MirrorError Bool × SessionRegistry σ δ :=
  match self.requireState sessionId incarnation with
  | .error error => (.error error, self)
  | .ok session =>
      let key : SessionKey := ⟨sessionId, incarnation⟩
      let terminals := (self.retainedTerminals.lookup key).getD ∅
      let shown := fun update => referencesTerminal update terminalId
      if (terminal.get "released").bind Value.asBool ≠ some true ∨
          (terminal.get "outputAppend").bind Value.asBool = some true ∨
          (terminals.lookup terminalId).isSome ∨
          ¬(session.activeTurn.any (·.updates.any shown) ∨
            (self.history.peek key).any (·.updates.any shown)) then
        (.ok false, self)
      else
        let retained := Value.ofFields
          [("sessionId", .string sessionId),
            ("terminalId", .string terminalId),
            ("output", (terminal.get "output").getD (.string "")),
            ("truncated", (terminal.get "truncated").getD (.bool false)),
            ("exitStatus", (terminal.get "exitStatus").getD .null),
            ("released", .bool true)]
        (.ok true,
          { self with
            retainedTerminals :=
              self.retainedTerminals.insert key (terminals.insert terminalId retained)
            retainedTerminalBytes :=
              saturatingAdd self.retainedTerminalBytes retained.bytes }.putState
            sessionId session.advanceRevision)

end Terminals

section Registration

/-- Release the baseline, the load, the overlay and the terminal output of an
incarnation; its live side and its operation stay. -/
def clearHistoryForReplacement (self : SessionRegistry σ δ) (sessionId : String)
    (incarnation : Nat) : SessionRegistry σ δ :=
  match self.requireState sessionId incarnation with
  | .error _ => self
  | .ok session =>
      let key : SessionKey := ⟨sessionId, incarnation⟩
      let cleared : SessionState δ :=
        { SessionState.cold sessionId incarnation with
          live := session.live
          operation := session.operation
          viewRevision := nextCounter session.viewRevision }
      let self :=
        { self.putState sessionId cleared with
          overlayBytes := self.overlayBytes - session.activeOverlayBytes }.removeRetainedTerminals key
      { self with history := self.history.remove key }

def retireEntry (self : SessionRegistry σ δ) (sessionId : String) (incarnation : Nat) :
    SessionRegistry σ δ :=
  match self.requireState sessionId incarnation with
  | .error _ => self
  | .ok _ =>
      { self with
        sessions := self.sessions.erase sessionId
        retiredIds := insert sessionId self.retiredIds }

/-- Clear a former incarnation, and retire it unless it is the one to register. -/
def replaceIncarnation (self : SessionRegistry σ δ) (sessionId : String) (incarnation : Nat) :
    SessionRegistry σ δ :=
  match self.state sessionId with
  | none => self
  | some previous =>
      let self := self.clearHistoryForReplacement sessionId previous.incarnation
      if previous.incarnation ≠ incarnation then self.retireEntry sessionId previous.incarnation
      else self

def registerHistory (self : SessionRegistry σ δ) (sessionId : String) (incarnation : Nat)
    (ready : Bool) : SessionRegistry σ δ :=
  let self := { self with nextIncarnation := max self.nextIncarnation incarnation }
  let self := self.replaceIncarnation sessionId incarnation
  let (snapshot, history) := self.history.installEmpty ⟨sessionId, incarnation⟩
  let self := { self with history }
  let state : SessionState δ :=
    if ready then .ready sessionId incarnation snapshot.revision else .cold sessionId incarnation
  match self.sessions.lookup sessionId with
  | some entry =>
      let state :=
        { state with
          live := entry.state.live
          operation := entry.state.operation
          viewRevision := entry.state.viewRevision }
      { self with sessions := self.sessions.insert sessionId { entry with state } }
  | none => { self with sessions := self.sessions.insert sessionId ⟨state, false⟩ }

def registerCold (self : SessionRegistry σ δ) (sessionId : String) (incarnation : Nat) :
    SessionRegistry σ δ := self.registerHistory sessionId incarnation false

def registerNew (self : SessionRegistry σ δ) (sessionId : String) (incarnation : Nat) :
    SessionRegistry σ δ := self.registerHistory sessionId incarnation true

def remove (self : SessionRegistry σ δ) (sessionId : String) (incarnation : Nat) :
    SessionRegistry σ δ :=
  let self := self.clearHistoryForReplacement sessionId incarnation
  match self.sessions.lookup sessionId with
  | none => self
  | some entry =>
      if entry.state.incarnation = incarnation ∧ entry.state.live.isNone ∧
          entry.state.operation.isNone ∧ ¬entry.materialization then
        self.retireEntry sessionId incarnation
      else self

end Registration

section Load

/-- The session once a load has begun. -/
def loadBegun (session : SessionState δ) (attemptId : String) : SessionState δ :=
  let phase :=
    match session.phase with
    | .blocked => if session.activeTurn.isSome then .reconciling else .loading
    | .cold | .ready => .loading
    | phase => phase
  { session with
    loadOrigin := some session.phase
    phase
    loadAttempt := some attemptId
    syncError := none }.advanceRevision

/-- Whether a load may begin: no running turn, no other load, and no operation
but the attachment the load belongs to. -/
def mayLoad (session : SessionState δ) (attemptId : String) : Bool :=
  session.phase ≠ .running && session.loadAttempt.isNone &&
    session.activeTurn.all (fun turn => turn.terminal.isSome) &&
    session.operation.all fun operation =>
      operation.kind.admission = .attachment && operation.operationId = attemptId

def beginLoad (self : SessionRegistry σ δ) (sessionId : String) (incarnation : Nat)
    (attemptId : String) : Except MirrorError Unit × SessionRegistry σ δ :=
  match self.requireState sessionId incarnation with
  | .error error => (.error error, self)
  | .ok session =>
      if !mayLoad session attemptId then (.error .wrongPhase, self)
      else
        match self.history.beginCandidate ⟨sessionId, incarnation⟩ attemptId with
        | (.error error, history) => (.error (.history error), { self with history })
        | (.ok (), history) =>
            (.ok (), { self with history }.putState sessionId (loadBegun session attemptId))

def appendLoadUpdate (self : SessionRegistry σ δ) (sessionId : String) (incarnation : Nat)
    (attemptId : String) (update : Value) : Except MirrorError Unit × SessionRegistry σ δ :=
  match self.requireLoading sessionId incarnation attemptId with
  | .error error => (.error error, self)
  | .ok _ =>
      let result := self.history.appendCandidate ⟨sessionId, incarnation⟩ attemptId update
      (ofHistory result.1, { self with history := result.2 })

def invalidateLoad (self : SessionRegistry σ δ) (sessionId : String) (incarnation : Nat)
    (attemptId : String) : Except MirrorError Unit × SessionRegistry σ δ :=
  match self.requireLoading sessionId incarnation attemptId with
  | .error error => (.error error, self)
  | .ok _ =>
      let result :=
        self.history.poisonCandidate ⟨sessionId, incarnation⟩ attemptId .invalidReplay
      (ofHistory result.1, { self with history := result.2 })

/-- Whether a replay ends the completed turn of the session: it extends the known
history, begins with the prompt and contains every durable update of the turn. -/
def checkReplay (session : SessionState δ) (prior candidate : List Value) :
    Except MirrorError Unit :=
  match historyPrefixEnd candidate prior, session.activeTurn with
  | some prefixEnd, some turn =>
      if prefixEnd < candidate.length ∧
          replaySuffixStartsWithPrompt (candidate.drop prefixEnd) turn.prompt ∧
          replayContainsCompletedTurn (candidate.drop prefixEnd) turn.updates then
        .ok ()
      else .error .inconsistentHistory
  | _, _ => .error .inconsistentHistory

/-- The checks a reconciling load makes before it publishes. -/
def checkReconciling (self : SessionRegistry σ δ) (session : SessionState δ) (key : SessionKey)
    (attemptId : String) : Except MirrorError Unit :=
  if session.phase = .reconciling then
    match self.history.peek key with
    | none => .error .inconsistentHistory
    | some prior => do
        let replay ← ofHistory (self.history.candidate key attemptId)
        let candidate ← ofHistory (self.history.replays.getD replay .default).updates
        checkReplay session prior.updates candidate
  else .ok ()

def commitLoad (self : SessionRegistry σ δ) (sessionId : String) (incarnation : Nat)
    (attemptId : String) : Except MirrorError HistorySnapshot × SessionRegistry σ δ :=
  let key : SessionKey := ⟨sessionId, incarnation⟩
  match self.requireLoading sessionId incarnation attemptId with
  | .error error => (.error error, self)
  | .ok session =>
      match self.checkReconciling session key attemptId with
      | .error error => (.error error, self)
      | .ok () =>
          match session.validateHistoryCommit with
          | .error error => (.error error, self)
          | .ok () =>
              match self.history.commitCandidate key attemptId with
              | (.error error, history) => (.error (.history error), { self with history })
              | (.ok snapshot, history) =>
                  let committed := session.historyCommitted snapshot.revision
                    snapshot.updates.length (session.phase = .loading)
                  let self :=
                    { { self with history }.putState sessionId committed with
                      overlayBytes := self.overlayBytes - session.activeOverlayBytes }
                  (.ok snapshot, self.pruneRetainedTerminals key snapshot.updates)

/-- Change the state of a session that is there. -/
def modifyState (self : SessionRegistry σ δ) (sessionId : String)
    (f : SessionState δ → SessionState δ) : SessionRegistry σ δ :=
  match self.state sessionId with
  | none => self
  | some session => self.putState sessionId (f session)

/-- Commit what a resumed session sent; that is no full replay, so it stays cold. -/
def commitAttachmentCache (self : SessionRegistry σ δ) (sessionId : String) (incarnation : Nat)
    (attemptId : String) : Except MirrorError HistorySnapshot × SessionRegistry σ δ :=
  match self.commitLoad sessionId incarnation attemptId with
  | (.error error, self) => (.error error, self)
  | (.ok snapshot, self) =>
      (.ok snapshot, self.modifyState sessionId fun session => { session with phase := .cold })

/-- Feed a list of updates to the current load, up to the first failure. -/
def appendLoadUpdates (sessionId : String) (incarnation : Nat) (attemptId : String) :
    SessionRegistry σ δ → List Value → Except MirrorError Unit × SessionRegistry σ δ
  | self, [] => (.ok (), self)
  | self, update :: updates =>
      match self.appendLoadUpdate sessionId incarnation attemptId update with
      | (.error error, self) => (.error error, self)
      | (.ok (), self) => appendLoadUpdates sessionId incarnation attemptId self updates

/-- Install a history the bridge kept itself, through a load of its own. -/
def useCachedHistory (self : SessionRegistry σ δ) (sessionId : String) (incarnation : Nat)
    (updates : List Value) (notice : String) : Except MirrorError Unit × SessionRegistry σ δ :=
  match self.requireState sessionId incarnation with
  | .error error => (.error error, self)
  | .ok session =>
      if session.activeTurn.isSome || session.loadAttempt.isSome then (.error .wrongPhase, self)
      else
        let attempt := "bridge-cache-fallback"
        let self := self.putState sessionId { session with phase := .cold }
        match self.beginLoad sessionId incarnation attempt with
        | (.error error, self) => (.error error, self)
        | (.ok (), self) =>
            match appendLoadUpdates sessionId incarnation attempt self updates with
            | (.error error, self) => (.error error, self)
            | (.ok (), self) =>
                match self.commitLoad sessionId incarnation attempt with
                | (.error error, self) => (.error error, self)
                | (.ok _, self) =>
                    (.ok (), self.modifyState sessionId fun session =>
                      { session with historyNotice := some notice })

/-- The phase a failed load leaves. -/
def phaseAfterFailure (origin : Option MirrorPhase) (retryable : Bool) : MirrorPhase :=
  if retryable then
    match origin with
    | some .ready => .ready
    | some .blocked => .blocked
    | some .reconciling => .reconciling
    | _ => .loading
  else .blocked

def failLoad (self : SessionRegistry σ δ) (sessionId : String) (incarnation : Nat)
    (attemptId message : String) (retryable : Bool) :
    Except MirrorError Unit × SessionRegistry σ δ :=
  match self.requireState sessionId incarnation with
  | .error error => (.error error, self)
  | .ok session =>
      if session.loadAttempt ≠ some attemptId then (.error .operationMismatch, self)
      else
        match self.history.abortCandidate ⟨sessionId, incarnation⟩ attemptId with
        | (.error error, history) => (.error (.history error), { self with history })
        | (.ok (), history) =>
            (.ok (),
              { self with history }.putState sessionId
                { session with
                  loadOrigin := none
                  loadAttempt := none
                  syncError := some message
                  phase := phaseAfterFailure session.loadOrigin retryable }.advanceRevision)

end Load

section Turn

def startTurn (sha256 : String → δ) (self : SessionRegistry σ δ) (sessionId : String)
    (incarnation : Nat) (expectedHistoryRevision clientIntentId : String) (prompt : Prompt) :
    Except MirrorError TurnAdmission × SessionRegistry σ δ :=
  let nextOperation := nextCounter self.nextOperation
  let operationId := self.epoch ++ ":" ++ toString nextOperation
  match self.requireState sessionId incarnation with
  | .error error => (.error error, self)
  | .ok session =>
      match session.admitTurn sha256 operationId expectedHistoryRevision clientIntentId prompt with
      | .error error => (.error error, self)
      | .ok (.duplicate id, session') =>
          (.ok (.duplicate id), self.putOverlay sessionId session session')
      | .ok (.accepted id, session') =>
          (.ok (.accepted id),
            { self.putOverlay sessionId session session' with nextOperation })

/-- A change of one session's overlay. -/
def overlayStep (self : SessionRegistry σ δ) (sessionId : String) (incarnation : Nat)
    (change : SessionState δ → Except MirrorError (SessionState δ)) :
    Except MirrorError Unit × SessionRegistry σ δ :=
  match self.requireState sessionId incarnation with
  | .error error => (.error error, self)
  | .ok session =>
      match change session with
      | .error error => (.error error, self)
      | .ok session' => (.ok (), self.putOverlay sessionId session session')

def appendTurnUpdate (self : SessionRegistry σ δ) (sessionId : String) (incarnation : Nat)
    (operationId : String) (update : Value) : Except MirrorError Unit × SessionRegistry σ δ :=
  self.overlayStep sessionId incarnation (·.appendTurnUpdate operationId update)

def completeTurn (self : SessionRegistry σ δ) (sessionId : String) (incarnation : Nat)
    (operationId : String) (terminal : Value) : Except MirrorError Unit × SessionRegistry σ δ :=
  self.overlayStep sessionId incarnation (·.completeTurn operationId terminal)

/-- An update outside any turn: it joins the overlay of a turn that waits for its
history, and else the published history itself. -/
def appendSessionUpdate (self : SessionRegistry σ δ) (sessionId : String) (incarnation : Nat)
    (update : Value) : Except MirrorError Unit × SessionRegistry σ δ :=
  match self.requireState sessionId incarnation with
  | .error error => (.error error, self)
  | .ok session =>
      if session.loadAttempt.isSome then (.error .wrongPhase, self)
      else if session.phase = .reconciling then
        self.overlayStep sessionId incarnation (·.appendReconcilingUpdate update)
      else if session.phase ≠ .ready then (.error .wrongPhase, self)
      else
        match self.history.appendCommittedUpdates ⟨sessionId, incarnation⟩ [update] with
        | (.error error, history) => (.error (.history error), { self with history })
        | (.ok snapshot, history) =>
            (.ok (),
              { self with history }.putState sessionId
                { session with historyRevision := some snapshot.revision }.advanceRevision)

/-- The user chunks that stand for a prompt the agent did not echo. -/
def promptChunks (turn : TurnOverlay) : List Value :=
  turn.prompt.map fun content =>
    .ofFields
      [("sessionUpdate", .string "user_message_chunk"),
        ("content", content),
        ("_meta", .ofFields
          [("attyd", .ofFields [("turnOperationId", .string turn.operationId)])])]

/-- What a completed turn adds to the history: the agent's own echo of the prompt
where there is one, else the prompt, and then the overlay. -/
def turnSuffix (turn : TurnOverlay) : List Value :=
  (if replaySuffixStartsWithPrompt turn.updates turn.prompt then [] else promptChunks turn) ++
    turn.updates

/-- The completed turn of the given operation, ready to pass into the history. -/
def completedTurn (session : SessionState δ) (operationId : String) :
    Except MirrorError TurnOverlay :=
  if session.phase ≠ .reconciling then .error .wrongPhase
  else
    match session.activeTurn.filter fun turn =>
        turn.operationId = operationId && turn.terminal.isSome with
    | none => .error .operationMismatch
    | some turn =>
        if session.historyRevision.isNone then .error .inconsistentHistory
        else do
          session.validateHistoryCommit
          .ok turn

def commitCompletedTurnFromMemory (self : SessionRegistry σ δ) (sessionId : String)
    (incarnation : Nat) (operationId : String) :
    Except MirrorError HistorySnapshot × SessionRegistry σ δ :=
  match self.requireState sessionId incarnation with
  | .error error => (.error error, self)
  | .ok session =>
      match completedTurn session operationId with
      | .error error => (.error error, self)
      | .ok turn =>
          match self.history.appendCommittedUpdates ⟨sessionId, incarnation⟩ (turnSuffix turn) with
          | (.error error, history) => (.error (.history error), { self with history })
          | (.ok snapshot, history) =>
              let committed :=
                session.historyCommitted snapshot.revision snapshot.updates.length false
              (.ok snapshot,
                { { self with history }.putState sessionId committed with
                  overlayBytes := self.overlayBytes - session.activeOverlayBytes })

/-- A change of one session's state that leaves the accounts alone. -/
def stateStep (self : SessionRegistry σ δ) (sessionId : String) (incarnation : Nat)
    (change : SessionState δ → Except MirrorError (SessionState δ)) :
    Except MirrorError Unit × SessionRegistry σ δ :=
  match self.requireState sessionId incarnation with
  | .error error => (.error error, self)
  | .ok session =>
      match change session with
      | .error error => (.error error, self)
      | .ok session' => (.ok (), self.putState sessionId session')

def blockTurn (self : SessionRegistry σ δ) (sessionId : String) (incarnation : Nat)
    (operationId message : String) : Except MirrorError Unit × SessionRegistry σ δ :=
  self.stateStep sessionId incarnation (·.blockTurn operationId message)

end Turn

section Operation

/-- Whether an operation id is held by a turn, an operation or an interaction;
a reservation of the caller itself does not count. -/
def operationInUseExceptReserved (self : SessionRegistry σ δ) (operationId : String)
    (reservation : Option (String × Nat × SessionOperationKind)) : Bool :=
  let responding := fun (_ : String) (interaction : PendingInteraction) =>
    decide (interaction.respondingOperationId = some operationId)
  self.sessions.any (fun _ entry =>
    let owner := entry.state
    owner.turnExecution.any (fun execution => execution.rpcOperationId = operationId) ||
    owner.operation.any (fun operation =>
      operation.operationId = operationId &&
        !(operation.stage = "reserved" &&
          reservation = some (owner.sessionId, owner.incarnation, operation.kind))) ||
    owner.live.any fun live => live.permissions.any responding || live.elicitations.any responding) ||
  self.requestElicitations.any responding

def operationInUse (self : SessionRegistry σ δ) (operationId : String) : Bool :=
  self.operationInUseExceptReserved operationId none

def beginExclusive (self : SessionRegistry σ δ) (sessionId : String) (incarnation : Nat)
    (kind : SessionOperationKind) (operationId : String) :
    Except MirrorError Unit × SessionRegistry σ δ :=
  match self.requireState sessionId incarnation with
  | .error error => (.error error, self)
  | .ok _ =>
      if self.operationInUse operationId then (.error .operationMismatch, self)
      else self.stateStep sessionId incarnation (·.beginExclusive kind operationId)

def settleExclusive (self : SessionRegistry σ δ) (sessionId : String) (incarnation : Nat)
    (kind : SessionAdmission) (operationId : String) :
    Except MirrorError Unit × SessionRegistry σ δ :=
  self.stateStep sessionId incarnation (·.settleExclusive kind operationId)

/-- Count a change of the session that is kept elsewhere. -/
def touch (self : SessionRegistry σ δ) (sessionId : String) (incarnation : Nat) :
    Except MirrorError Nat × SessionRegistry σ δ :=
  match self.requireState sessionId incarnation with
  | .error error => (.error error, self)
  | .ok session =>
      (.ok session.advanceRevision.viewRevision,
        self.putState sessionId session.advanceRevision)

/-- The session with its published history; reading it marks the history as used. -/
def view (self : SessionRegistry σ δ) (sessionId : String) (incarnation : Nat) :
    Except MirrorError (SessionState δ × HistorySnapshot) × SessionRegistry σ δ :=
  match self.requireState sessionId incarnation with
  | .error error => (.error error, self)
  | .ok session =>
      match self.history.snapshot ⟨sessionId, incarnation⟩ with
      | (none, history) => (.error .wrongPhase, { self with history })
      | (some baseline, history) => (.ok (session, baseline), { self with history })

/-- Give a session its live side; a session of another incarnation is retired first. -/
def installLive (self : SessionRegistry σ δ) (sessionId : String) (incarnation : Nat)
    (live : SessionLiveState) : SessionRegistry σ δ :=
  let self :=
    match self.state sessionId with
    | none => self
    | some previous =>
        if previous.incarnation ≠ incarnation then
          (self.clearHistoryForReplacement sessionId previous.incarnation).retireEntry sessionId
            previous.incarnation
        else self
  let entry := (self.sessions.lookup sessionId).getD ⟨.cold sessionId incarnation, false⟩
  { self with
    sessions :=
      self.sessions.insert sessionId { entry with state := { entry.state with live := some live } } }

end Operation

end SessionRegistry

end Attyd.Session
