import Attyd.Library.Table
import Mathlib.Data.Finset.Basic

/-!
# Staging the early updates of a session that is being created

The agent may send updates of a session before it answers the request that
creates it. They are staged under their session id, as long as there are fewer
staged ids than creation requests in flight, and go to the session once it is
installed.

## Implementation notes

The handler of an update takes the state twice: `admitUpdate` is its first section and
`stage` its second one. The `Arc` of a validation stands here as the number of its
allocation. Which updates are valid is a parameter. Of a response stays whether it
passes the checks made before the staging table is read, whether its modes know
the mode its replay chose, and whether the session could be opened. Of the sessions
stays which ids are live, with their validation, and which are retired.
-/

namespace Attyd.Bridge

/-- What the validation of updates computes. A mode, if any, is chosen by an update. -/
structure Semantics (ν τ : Type*) where
  initial : τ
  /-- The terminals an update names are unknown to a session that is not installed. -/
  referenceError : ν → Option String
  track : Option String × τ → ν → Except String (Option String × τ)
  serializedLen : ν → Nat

structure SessionUpdateSemanticState (τ : Type*) where
  allocation : Nat
  currentModeId : Option String
  tracked : τ
  invalidReason : Option String
  deriving DecidableEq

structure CreationStaging (ν τ : Type*) where
  validation : SessionUpdateSemanticState τ
  earlyNotifications : List ν
  bytes : Nat
  deriving DecidableEq

structure BridgeState (ν τ : Type*) where
  pendingCreations : Nat
  creationStaging : Table String (CreationStaging ν τ)
  earlyUpdateCount : Nat
  earlyUpdateBytes : Nat
  live : Table String Nat
  retired : Finset String
  nextAllocation : Nat

/-- What the first section of the handler of an update finds. -/
inductive Admission where
  | live
  | retired
  | refused (message : String)
  | staged (allocation : Nat)
  | late
  deriving DecidableEq

/-- The agent's response to a creation request. -/
inductive CreationResponse where
  | error
  | session (sessionId : String) (acceptable : Bool) (modes : List String) (opens : Bool)

variable {ν τ : Type*}

def CreationStaging.new (semantics : Semantics ν τ) (allocation : Nat) : CreationStaging ν τ :=
  ⟨⟨allocation, none, semantics.initial, none⟩, [], 0⟩

/-- What the validation of a session that is not installed makes of an update. -/
def SessionUpdateSemanticState.validate (semantics : Semantics ν τ)
    (validation : SessionUpdateSemanticState τ) (notification : ν) :
    Except String (SessionUpdateSemanticState τ) :=
  match semantics.referenceError notification with
  | some message => .error message
  | none =>
      match semantics.track (validation.currentModeId, validation.tracked) notification with
      | .error message => .error message
      | .ok (currentModeId, tracked) => .ok { validation with currentModeId, tracked }

/-- Note the first reason why a replay is invalid. -/
def CreationStaging.invalidate (staging : CreationStaging ν τ) (message : String) :
    CreationStaging ν τ :=
  { staging with
    validation :=
      { staging.validation with
        invalidReason := staging.validation.invalidReason.or (some message) } }

def CreationStaging.append (staging : CreationStaging ν τ)
    (validation : SessionUpdateSemanticState τ) (notification : ν) (bytes : Nat) :
    CreationStaging ν τ :=
  ⟨validation, staging.earlyNotifications ++ [notification], staging.bytes + bytes⟩

/-- The replay is invalid, or chose a mode the response does not have. -/
def CreationStaging.rejects (staging : CreationStaging ν τ) (modes : List String) : Bool :=
  staging.validation.invalidReason.isSome || staging.validation.currentModeId.any (· ∉ modes)

namespace BridgeState

def new : BridgeState ν τ := ⟨0, ∅, 0, 0, ∅, ∅, 0⟩

/-- The first section of the handler of an update. -/
def admitUpdate (semantics : Semantics ν τ) (self : BridgeState ν τ) (sessionId : String) :
    Admission × BridgeState ν τ :=
  if (self.live.lookup sessionId).isSome then (.live, self)
  else if 0 < self.pendingCreations then
    if sessionId ∈ self.retired then (.retired, self)
    else if sessionId.isEmpty then (.refused "Agent session ID must not be empty", self)
    else
      match self.creationStaging.lookup sessionId with
      | some staging => (.staged staging.validation.allocation, self)
      | none =>
          if self.pendingCreations ≤ self.creationStaging.entries.card then
            (.refused
              "Agent sent updates for more session IDs than pending session creations", self)
          else
            (.staged self.nextAllocation,
              { self with
                nextAllocation := self.nextAllocation + 1
                creationStaging :=
                  self.creationStaging.insert sessionId
                    (.new semantics self.nextAllocation) })
  else (.late, self)

/-- The second section: an early update is staged if its owner still is what it was. -/
def stage (semantics : Semantics ν τ) (self : BridgeState ν τ) (sessionId : String)
    (allocation : Nat) (notification : ν) : BridgeState ν τ :=
  match self.creationStaging.lookup sessionId with
  | none => self
  | some staging =>
      if (self.live.lookup sessionId).isSome || staging.validation.allocation ≠ allocation ||
          self.pendingCreations = 0 || sessionId ∈ self.retired then self
      else
        match staging.validation.validate semantics notification with
        | .error message =>
            { self with
              creationStaging :=
                self.creationStaging.insert sessionId (staging.invalidate message) }
        | .ok validation =>
            let bytes := semantics.serializedLen notification
            { self with
              creationStaging :=
                self.creationStaging.insert sessionId
                  (staging.append validation notification bytes)
              earlyUpdateCount := self.earlyUpdateCount + 1
              earlyUpdateBytes := self.earlyUpdateBytes + bytes }

def discardCreationStaging (self : BridgeState ν τ) (sessionId : String) : BridgeState ν τ :=
  match self.creationStaging.lookup sessionId with
  | none => self
  | some staging =>
      { self with
        creationStaging := self.creationStaging.erase sessionId
        earlyUpdateCount := self.earlyUpdateCount - staging.earlyNotifications.length
        earlyUpdateBytes := self.earlyUpdateBytes - staging.bytes }

/-- Discard all that is staged, whatever the order. -/
def clearPendingCreationReplays (self : BridgeState ν τ) : BridgeState ν τ :=
  { self with
    creationStaging := ∅
    earlyUpdateCount := self.earlyUpdateCount -
      Table.sum (fun staging : CreationStaging ν τ => staging.earlyNotifications.length)
        self.creationStaging
    earlyUpdateBytes := self.earlyUpdateBytes -
      Table.sum (fun staging : CreationStaging ν τ => staging.bytes) self.creationStaging }

def clearIfIdle (self : BridgeState ν τ) : BridgeState ν τ :=
  if self.pendingCreations = 0 then self.clearPendingCreationReplays else self

/-- The response fails the checks made before the staging table is read. -/
def refusesResponse (self : BridgeState ν τ) (sessionId : String) (acceptable : Bool) : Bool :=
  !acceptable || (self.live.lookup sessionId).isSome

/-- Check a response against the replay staged for its session, and take that replay. -/
def prepareSessionResponse (semantics : Semantics ν τ) (self : BridgeState ν τ)
    (sessionId : String) (acceptable : Bool) (modes : List String) :
    Option (List ν) × BridgeState ν τ :=
  if self.refusesResponse sessionId acceptable then (none, self)
  else
    let staging := (self.creationStaging.lookup sessionId).getD (.new semantics self.nextAllocation)
    let self :=
      { self with
        nextAllocation := self.nextAllocation + 1
        creationStaging := self.creationStaging.insert sessionId staging }
    if staging.rejects modes then (none, self)
    else
      (some staging.earlyNotifications,
        { self with
          creationStaging := self.creationStaging.insert sessionId
            { staging with
              earlyNotifications := []
              bytes := 0 }
          earlyUpdateCount := self.earlyUpdateCount - staging.earlyNotifications.length
          earlyUpdateBytes := self.earlyUpdateBytes - staging.bytes })

/-- Give the validation of a staged session to its new incarnation. -/
def promoteCreationValidation (self : BridgeState ν τ) (sessionId : String) : BridgeState ν τ :=
  match self.creationStaging.lookup sessionId with
  | none => self
  | some staging =>
      { self.discardCreationStaging sessionId with
        live := self.live.insert sessionId staging.validation.allocation }

/-- What the handler of `session/new` or `session/fork` does with the response; a
session that was opened comes with its early updates. -/
def respond (semantics : Semantics ν τ) (self : BridgeState ν τ) :
    CreationResponse → Option (List ν) × BridgeState ν τ
  | .error =>
      (none, { self with pendingCreations := self.pendingCreations - 1 }.clearIfIdle)
  | .session sessionId acceptable modes opens =>
      match { self with pendingCreations := self.pendingCreations - 1 }.prepareSessionResponse
          semantics sessionId acceptable modes with
      | (none, self) => (none, self.clearIfIdle)
      | (some earlyUpdates, self) =>
          if opens then (some earlyUpdates, (self.promoteCreationValidation sessionId).clearIfIdle)
          else (none, self.discardCreationStaging sessionId)

/-- A session is closed or deleted and its entry retired. -/
def retireEntry (self : BridgeState ν τ) (sessionId : String) : BridgeState ν τ :=
  match self.live.lookup sessionId with
  | none => self
  | some _ =>
      { self with
        live := self.live.erase sessionId
        retired := insert sessionId self.retired }

end BridgeState

end Attyd.Bridge
