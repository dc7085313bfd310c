import Attyd.History.Cache

/-!
# The business state of one session

A session runs at most one turn. While the turn streams, its updates gather in
an overlay; when it has ended, the overlay waits until a replay or the memory
commit moves it into the history. Loads and exclusive operations share the
session with the turn under the rules of `canBegin`.

## Implementation notes

Every operation here makes all its checks before it changes anything, so it
answers with the new state or with an error alone. A prompt comes with its
serialized text: only the text tells the order of keys, and only the digest of a
prompt depends on it. The hash function is a parameter.

The lists of resolved interactions are only asked for members, and kept as multisets.
-/

namespace Attyd.Session

open Json (Value)
open History

inductive MirrorPhase where
  | cold
  | loading
  | ready
  | running
  | reconciling
  | blocked
  deriving DecidableEq

inductive MirrorError where
  | unknownSession
  | staleIncarnation
  | wrongPhase
  | staleHistory
  | idempotencyConflict
  | operationMismatch
  | inconsistentHistory
  | history (error : HistoryCacheError)
  deriving DecidableEq

inductive SessionAdmission where
  | prompt
  | control
  | fork
  | close
  | delete
  | attachment
  deriving DecidableEq

inductive SessionOperationKind where
  | load
  | resume
  | fork
  | close
  | delete
  | setMode
  | setConfig
  deriving DecidableEq

def SessionOperationKind.admission : SessionOperationKind → SessionAdmission
  | load | resume => .attachment
  | fork => .fork
  | close => .close
  | delete => .delete
  | setMode | setConfig => .control

structure SessionOperationState where
  operationId : String
  kind : SessionOperationKind
  stage : String
  uncertaintyReason : Option String
  deriving DecidableEq

inductive SessionLifecycle where
  | attaching
  | active
  | closing
  | closingForDelete
  | deleting
  | closed
  | uncertain
  deriving DecidableEq

structure PendingInteraction where
  interactionId : String
  request : Value
  operationId : Option String
  respondingOperationId : Option String

inductive UrlFlowStatus where
  | waiting
  | completed
  | cancelled
  deriving DecidableEq

structure UrlFlow where
  elicitationId : String
  registrationId : String
  request : Value
  status : UrlFlowStatus

structure SessionLiveState where
  revision : Nat
  cwd : String
  session : Value
  controlState : Table String Value
  lifecycle : SessionLifecycle
  permissions : Table String PendingInteraction
  elicitations : Table String PendingInteraction
  urlFlows : Table String UrlFlow
  terminals : Table String Value
  historyRevision : Option String
  phase : MirrorPhase
  syncError : Option String
  resolvedPermissions : Multiset String
  resolvedElicitations : Multiset String
  resolvedUrlFlows : Multiset String
  releasedTerminals : Multiset String
  attachmentCandidate : List Value
  attachmentCandidateBytes : Nat

structure TurnExecution where
  rpcOperationId : String
  cancelRequested : Bool
  deriving DecidableEq

structure TurnOverlay where
  operationId : String
  clientIntentId : String
  prompt : List Value
  updates : List Value
  terminal : Option Value
  execution : Option TurnExecution
  deriving DecidableEq

/-- The published form of an overlay; the execution stays inside. -/
def TurnOverlay.toValue (turn : TurnOverlay) : Value :=
  .ofFields
    [("operationId", .string turn.operationId),
      ("clientIntentId", .string turn.clientIntentId),
      ("prompt", .array turn.prompt),
      ("updates", .array turn.updates),
      ("terminal", turn.terminal.getD .null)]

def serializedLen (turn : TurnOverlay) : Nat := turn.toValue.bytes

structure CompletedTurnOutcome where
  operationId : String
  afterUpdate : Nat
  response : Value
  deriving DecidableEq

/-- A prompt as it arrives: its blocks and the text they are serialized to. -/
structure Prompt where
  blocks : List Value
  text : String
  deriving DecidableEq

section

variable (δ : Type)

structure LastConsumption where
  operationId : String
  payloadDigest : δ
  consumedRevision : String
  successorRevision : String

structure SessionState where
  sessionId : String
  incarnation : Nat
  live : Option SessionLiveState
  viewRevision : Nat
  historyRevision : Option String
  phase : MirrorPhase
  activeTurn : Option TurnOverlay
  turnOutcomes : List CompletedTurnOutcome
  syncError : Option String
  historyNotice : Option String
  operation : Option SessionOperationState
  activePayloadDigest : Option δ
  consumedIntents : Table String (LastConsumption δ)
  loadAttempt : Option String
  loadOrigin : Option MirrorPhase
  activeOverlayBytes : Nat

end

inductive TurnAdmission where
  | accepted (operationId : String)
  | duplicate (operationId : String)
  deriving DecidableEq

namespace SessionState

variable {δ : Type} [DecidableEq δ]

def turnExecution (self : SessionState δ) : Option TurnExecution :=
  self.activeTurn.bind (·.execution)

def cold (sessionId : String) (incarnation : Nat) : SessionState δ where
  sessionId
  incarnation
  live := none
  viewRevision := 1
  historyRevision := none
  phase := .cold
  activeTurn := none
  turnOutcomes := []
  syncError := none
  historyNotice := none
  operation := none
  activePayloadDigest := none
  consumedIntents := ∅
  loadAttempt := none
  loadOrigin := none
  activeOverlayBytes := 0

def ready (sessionId : String) (incarnation : Nat) (historyRevision : String) : SessionState δ :=
  { cold sessionId incarnation with
    phase := .ready
    historyRevision := some historyRevision }

/-- Whether the session lets an intent in: nothing else may hold it, and the phase decides. -/
def canBegin (self : SessionState δ) (admission : SessionAdmission) : Except MirrorError Unit :=
  if self.operation.isSome || self.loadAttempt.isSome then .error .wrongPhase
  else
    let allowed : Bool :=
      match self.phase with
      | .ready => self.activeTurn.isNone
      | .running =>
          self.activeTurn.any (fun turn => turn.execution.isSome && turn.terminal.isNone) &&
            (admission = .control || admission = .close)
      | .cold => self.activeTurn.isNone && (admission = .attachment || admission = .delete)
      | .blocked =>
          match admission with
          | .close => true
          | .delete => self.activeTurn.isNone
          -- A completed overlay may wait for an explicit recovery.
          | .attachment => self.activeTurn.all fun turn => turn.terminal.isSome
          | .prompt | .control | .fork => false
      | .loading | .reconciling => false
    if allowed then .ok () else .error .wrongPhase

def beginExclusive (self : SessionState δ) (kind : SessionOperationKind) (operationId : String) :
    Except MirrorError (SessionState δ) := do
  self.canBegin kind.admission
  .ok { self with operation := some ⟨operationId, kind, "reserved", none⟩ }

def settleExclusive (self : SessionState δ) (kind : SessionAdmission) (operationId : String) :
    Except MirrorError (SessionState δ) :=
  if self.operation.any fun operation =>
      operation.kind.admission = kind && operation.operationId = operationId then
    .ok { self with operation := none }
  else .error .operationMismatch

def advanceRevision (self : SessionState δ) : SessionState δ :=
  { self with viewRevision := nextCounter self.viewRevision }

/-- What the live side of a session may write: its own record, the exclusive
operation and the execution of the turn. -/
def withLive (self : SessionState δ) (live : Option SessionLiveState)
    (operation : Option SessionOperationState) (execution : Option TurnExecution)
    (viewRevision : Nat) : SessionState δ :=
  { self with
    live
    operation
    viewRevision
    activeTurn := self.activeTurn.map fun turn => { turn with execution } }

/-- The answer to a turn request that needs no new turn, if there is one. -/
def checkTurnAdmission (sha256 : String → δ) (self : SessionState δ)
    (expectedHistoryRevision clientIntentId : String) (prompt : Prompt) :
    Except MirrorError (Option TurnAdmission) :=
  let digest := sha256 prompt.text
  match self.activeTurn.filter fun turn => turn.clientIntentId = clientIntentId with
  | some turn =>
      if self.activePayloadDigest = some digest then .ok (some (.duplicate turn.operationId))
      else .error .idempotencyConflict
  | none =>
      match self.consumedIntents.lookup clientIntentId with
      | some last =>
          if last.payloadDigest = digest ∧
              (last.consumedRevision = expectedHistoryRevision ∨
                last.successorRevision = expectedHistoryRevision) then
            .ok (some (.duplicate last.operationId))
          else .error .idempotencyConflict
      | none => do
          self.canBegin .prompt
          if self.historyRevision = some expectedHistoryRevision then .ok none
          else .error .staleHistory

/-- The session once a turn has begun. -/
def turnBegun (sha256 : String → δ) (self : SessionState δ) (operationId clientIntentId : String)
    (prompt : Prompt) : SessionState δ :=
  let overlay : TurnOverlay :=
    { operationId
      clientIntentId
      prompt := prompt.blocks
      updates := []
      terminal := none
      execution := some ⟨clientIntentId, false⟩ }
  { self with
    activeOverlayBytes := serializedLen overlay
    phase := .running
    activePayloadDigest := some (sha256 prompt.text)
    activeTurn := some overlay
    syncError := none }.advanceRevision

def admitTurn (sha256 : String → δ) (self : SessionState δ) (operationId : String)
    (expectedHistoryRevision clientIntentId : String) (prompt : Prompt) :
    Except MirrorError (TurnAdmission × SessionState δ) := do
  match ← self.checkTurnAdmission sha256 expectedHistoryRevision clientIntentId prompt with
  | some duplicate => .ok (duplicate, self)
  | none =>
      .ok (.accepted operationId, self.turnBegun sha256 operationId clientIntentId prompt)

def foldOverlayUpdate (self : SessionState δ) (update : Value) :
    Except MirrorError (SessionState δ) :=
  match self.activeTurn with
  | none => .error .operationMismatch
  | some turn =>
      match foldSharedActiveTurnUpdate turn.updates update with
      | .error _ => .error .inconsistentHistory
      | .ok updates =>
          let candidate := { turn with updates }
          .ok { self with
            activeOverlayBytes := serializedLen candidate
            activeTurn := some candidate }.advanceRevision

/-- The active turn of the given operation, while it has not ended. -/
def openTurn (self : SessionState δ) (operationId : String) : Except MirrorError TurnOverlay :=
  match self.activeTurn with
  | none => .error .operationMismatch
  | some turn =>
      if turn.operationId ≠ operationId || turn.terminal.isSome then .error .operationMismatch
      else .ok turn

def appendTurnUpdate (self : SessionState δ) (operationId : String) (update : Value) :
    Except MirrorError (SessionState δ) :=
  if self.phase ≠ .running then .error .wrongPhase
  else do
    let _ ← self.openTurn operationId
    self.foldOverlayUpdate update

def appendReconcilingUpdate (self : SessionState δ) (update : Value) :
    Except MirrorError (SessionState δ) :=
  if self.phase ≠ .reconciling || self.loadAttempt.isSome then .error .wrongPhase
  else self.foldOverlayUpdate update

def completeTurn (self : SessionState δ) (operationId : String) (terminal : Value) :
    Except MirrorError (SessionState δ) :=
  if self.phase ≠ .running then .error .wrongPhase
  else do
    let turn ← self.openTurn operationId
    -- A live execution has to be retired before the turn passes into history.
    if self.live.isSome && turn.execution.isSome then .error .operationMismatch
    else
      let candidate := { turn with execution := none, terminal := some terminal }
      .ok { self with
        activeOverlayBytes := serializedLen candidate
        activeTurn := some candidate
        phase := .reconciling }.advanceRevision

def blockTurn (self : SessionState δ) (operationId message : String) :
    Except MirrorError (SessionState δ) :=
  if (self.phase = .running || self.phase = .reconciling) &&
      self.activeTurn.any (fun turn => turn.operationId = operationId) then
    .ok { self with
      phase := .blocked
      syncError := some message
      loadAttempt := none
      loadOrigin := none }.advanceRevision
  else .error .operationMismatch

def validateHistoryCommit (self : SessionState δ) : Except MirrorError Unit :=
  if self.activeTurn.isSome && self.activePayloadDigest.isNone then .error .inconsistentHistory
  else .ok ()

/-- The outcomes after a commit: dropped by a full replay, else extended by the
turn that ended with a stop reason. -/
def outcomesAfter (self : SessionState δ) (afterUpdate : Nat) (replaceOutcomes : Bool) :
    List CompletedTurnOutcome :=
  if replaceOutcomes then []
  else
    match self.activeTurn with
    | none => self.turnOutcomes
    | some turn =>
        match turn.terminal.filter fun response => (response.getStr "stopReason").isSome with
        | some response => self.turnOutcomes ++ [⟨turn.operationId, afterUpdate, response⟩]
        | none => self.turnOutcomes

/-- The intents after a commit: the turn that passes into history is remembered. -/
def intentsAfter (self : SessionState δ) (revision : String) :
    Table String (LastConsumption δ) :=
  match self.activeTurn, self.historyRevision, self.activePayloadDigest with
  | some turn, some consumedRevision, some payloadDigest =>
      self.consumedIntents.insert turn.clientIntentId
        ⟨turn.operationId, payloadDigest, consumedRevision, revision⟩
  | _, _, _ => self.consumedIntents

def historyCommitted (self : SessionState δ) (revision : String) (afterUpdate : Nat)
    (replaceOutcomes : Bool) : SessionState δ :=
  { self with
    turnOutcomes := self.outcomesAfter afterUpdate replaceOutcomes
    historyNotice := if replaceOutcomes then none else self.historyNotice
    consumedIntents := self.intentsAfter revision
    historyRevision := some revision
    activeOverlayBytes := 0
    phase := .ready
    activeTurn := none
    activePayloadDigest := none
    loadAttempt := none
    loadOrigin := none
    syncError := none }.advanceRevision

section Inversion

omit [DecidableEq δ]

variable {self after : SessionState δ} {operationId : String} {update : Value}

/-- An accepted overlay update changes the updates of the turn and nothing else. -/
theorem foldOverlayUpdate_eq_ok (h : self.foldOverlayUpdate update = .ok after) :
    ∃ turn updates, self.activeTurn = some turn ∧
      foldSharedActiveTurnUpdate turn.updates update = .ok updates ∧
      after = { self with
        activeOverlayBytes := serializedLen { turn with updates }
        activeTurn := some { turn with updates } }.advanceRevision := by
  unfold foldOverlayUpdate at h
  cases ht : self.activeTurn with
  | none => simp [ht] at h
  | some turn =>
      simp only [ht] at h
      cases hf : foldSharedActiveTurnUpdate turn.updates update with
      | error error => simp [hf] at h
      | ok updates =>
          simp only [hf, Except.ok.injEq] at h
          exact ⟨turn, updates, rfl, hf, h.symm⟩

theorem openTurn_eq_ok {turn : TurnOverlay} (h : self.openTurn operationId = .ok turn) :
    self.activeTurn = some turn ∧ turn.operationId = operationId ∧ turn.terminal = none := by
  unfold openTurn at h
  cases ht : self.activeTurn with
  | none => simp [ht] at h
  | some open_ =>
      simp only [ht] at h
      split at h
      case isTrue => cases h
      case isFalse hopen =>
        cases h
        simp only [ne_eq, Bool.or_eq_true, decide_eq_true_eq, not_or, not_not,
          Bool.not_eq_true, Option.isSome_eq_false_iff, Option.isNone_iff_eq_none] at hopen
        exact ⟨rfl, hopen⟩

/-- A turn completes out of the running phase and waits for its history. -/
theorem completeTurn_eq_ok {terminal : Value}
    (h : self.completeTurn operationId terminal = .ok after) :
    ∃ turn, self.phase = .running ∧ self.activeTurn = some turn ∧
      turn.operationId = operationId ∧ turn.terminal = none ∧
      after = { self with
        activeOverlayBytes :=
          serializedLen { turn with execution := none, terminal := some terminal }
        activeTurn := some { turn with execution := none, terminal := some terminal }
        phase := .reconciling }.advanceRevision := by
  unfold completeTurn at h
  split at h
  case isTrue => cases h
  case isFalse hp =>
    obtain ⟨turn, hopen, h⟩ := bind_eq_ok.mp h
    obtain ⟨hturn, hid, hterminal⟩ := openTurn_eq_ok hopen
    split at h
    · cases h
    · exact ⟨turn, not_not.mp hp, hturn, hid, hterminal, (Except.ok.inj h).symm⟩

theorem blockTurn_eq_ok {message : String}
    (h : self.blockTurn operationId message = .ok after) :
    (self.phase = .running ∨ self.phase = .reconciling) ∧
      (∃ turn, self.activeTurn = some turn ∧ turn.operationId = operationId) ∧
      after = { self with
        phase := .blocked
        syncError := some message
        loadAttempt := none
        loadOrigin := none }.advanceRevision := by
  unfold blockTurn at h
  split at h
  case isTrue hb =>
    simp only [Bool.and_eq_true, Bool.or_eq_true, decide_eq_true_eq] at hb
    obtain ⟨turn, hturn, hid⟩ := (Option.any_eq_true _ _).mp hb.2
    exact ⟨hb.1, ⟨turn, hturn, by simpa using hid⟩, (Except.ok.inj h).symm⟩
  case isFalse => cases h

variable [DecidableEq δ] in
/-- A new turn needs a ready session that nothing else holds, an intent that was
not consumed, and the current revision. -/
theorem checkTurnAdmission_eq_none {sha256 : String → δ}
    {expectedHistoryRevision clientIntentId : String} {prompt : Prompt}
    (h : self.checkTurnAdmission sha256 expectedHistoryRevision clientIntentId prompt =
      .ok none) :
    self.phase = .ready ∧ self.activeTurn = none ∧ self.loadAttempt = none ∧
      self.consumedIntents.lookup clientIntentId = none ∧
      self.historyRevision = some expectedHistoryRevision := by
  unfold checkTurnAdmission at h
  dsimp only at h
  split at h
  · split at h <;> cases h
  · split at h
    · split at h <;> cases h
    · rename_i hconsumed
      obtain ⟨u, hcan, h⟩ := bind_eq_ok.mp h
      split at h
      case isFalse => cases h
      case isTrue hrevision =>
        unfold canBegin at hcan
        split at hcan
        case isTrue => cases hcan
        case isFalse hfree =>
          have hload : self.loadAttempt = none := by
            simp only [Bool.or_eq_true, not_or, Bool.not_eq_true, Option.isSome_eq_false_iff,
              Option.isNone_iff_eq_none] at hfree
            exact hfree.2
          have hready : self.phase = .ready ∧ self.activeTurn = none := by
            dsimp only at hcan
            cases hp : self.phase <;> simp [hp] at hcan
            exact ⟨rfl, hcan⟩
          exact ⟨hready.1, hready.2, hload, hconsumed, hrevision⟩

end Inversion

end SessionState

end Attyd.Session
