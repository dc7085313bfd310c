import Attyd.Session.Live

/-!
# Observers of one session

A session that nobody observes and that has nothing to do is closed after a while. Its
observers decide when: while somebody observes it, or while it works, no countdown is armed.
A countdown carries a permit, which can be cancelled until somebody claims it.

## Implementation notes

Permits and leases are shared handles: a handle is a number, and the table of handles tells
what became of it. Time is counted in nanoseconds. That a countdown is armed only while
nobody observes is a field of the observers, so no operation can leave it otherwise.
-/

namespace Attyd.Observation

open Json (Value)
open Session

/-- What an unobserved session is doing; only an idle one may be closed. -/
inductive SessionWork where
  | idle
  | running
  | awaitingInteraction
  deriving DecidableEq

section Work

variable {δ : Type}

/-- Whether the process of a terminal is alive. -/
def terminalIsRunning (terminal : Value) : Bool :=
  !terminalReleased terminal && (terminal.get "exitStatus").all (· = .null)

/-- The work of a session, from its state and from what its resources hold. -/
def SessionWork.of (session : SessionState δ) (materialization historySync : Bool) : SessionWork :=
  if session.live.any fun live =>
      live.permissions.keys ≠ ∅ || live.elicitations.keys ≠ ∅ || live.urlFlows.keys ≠ ∅ then
    .awaitingInteraction
  else if session.activeTurn.isSome || session.operation.isSome || session.loadAttempt.isSome ||
      session.live.any (fun live => live.terminals.any fun _ terminal =>
        terminalIsRunning terminal) || materialization || historySync then
    .running
  else .idle

end Work

section Handles

inductive PermitState where
  | pending
  | claimed
  | cancelled
  deriving DecidableEq

/-- One permit: its state, and the token that wakes who waits for it. -/
structure AutoClosePermit where
  state : PermitState
  cancelled : Bool
  deriving DecidableEq

def AutoClosePermit.cancel (self : AutoClosePermit) : AutoClosePermit where
  state := if self.state = .pending then .cancelled else self.state
  cancelled := true

/-- The permits in the order they were made, and what became of the observation leases. -/
structure Handles where
  permits : List AutoClosePermit
  cancelled : Finset Nat
  finished : Finset Nat

namespace Handles

def pending (self : Handles) (permit : Nat) : Bool :=
  self.permits[permit]?.any fun cell => cell.state = .pending

def tokenCancelled (self : Handles) (permit : Nat) : Bool :=
  self.permits[permit]?.any (·.cancelled)

/-- Claim a permit that is pending. -/
def claim (self : Handles) (permit : Nat) : Bool × Handles :=
  (self.pending permit,
    { self with
      permits := self.permits.modify permit fun cell =>
        { cell with state := if cell.state = .pending then .claimed else cell.state } })

def cancel (self : Handles) (permit : Nat) : Handles :=
  { self with permits := self.permits.modify permit (·.cancel) }

def cancelLeases (self : Handles) (leases : Finset Nat) : Handles :=
  { self with cancelled := self.cancelled ∪ leases }

def finishLeases (self : Handles) (leases : Finset Nat) : Handles :=
  { self with finished := self.finished ∪ leases }

end Handles

end Handles

structure AbsenceTimer where
  id : Nat
  started : Nat
  timeout : Nat
  permit : Nat
  deriving DecidableEq

/-- Whether nothing remains to wait for. -/
def AbsenceTimer.expired (self : AbsenceTimer) (now : Nat) : Bool :=
  self.timeout - (now - self.started) = 0

structure SessionObservers where
  observers : Table Nat Nat
  nextAbsence : Nat
  absence : Option AbsenceTimer
  closeAttempted : Bool
  /-- Nobody observes while a countdown is armed. -/
  vacant : absence ≠ none → observers = ∅

namespace SessionObservers

def new : SessionObservers := ⟨∅, 0, none, false, fun h => absurd rfl h⟩

def leases (self : SessionObservers) : Finset Nat := (self.observers.entries.map (·.2)).toFinset

/-- The permit of the countdown is cancelled, if one is armed. -/
def revoke (self : SessionObservers) (handles : Handles) : Handles :=
  self.absence.elim handles fun absence => handles.cancel absence.permit

def cancelAbsence (self : SessionObservers) (handles : Handles) : SessionObservers × Handles :=
  (⟨self.observers, self.nextAbsence, none, self.closeAttempted, fun h => absurd rfl h⟩,
    self.revoke handles)

def observe (self : SessionObservers) (handles : Handles) (id lease : Nat) :
    Bool × SessionObservers × Handles :=
  if lease ∈ handles.cancelled ∨ lease ∈ handles.finished then (false, self, handles)
  else
    match self.observers.lookup id with
    | some existing => (existing = lease, self, handles)
    | none =>
        (true,
          ⟨self.observers.insert id lease, self.nextAbsence, none, false, fun h => absurd rfl h⟩,
          self.revoke handles)

/-- Take an observer out; the table shrinks, so a countdown may stay armed. -/
def unobserve (self : SessionObservers) (handles : Handles) (id lease : Nat) :
    Bool × SessionObservers × Handles :=
  if self.observers.lookup id = some lease then
    (true,
      { self with
        observers := self.observers.erase id
        vacant := fun h => by rw [self.vacant h, Table.erase_of_lookup_none (by simp)] },
      handles.cancelLeases {lease})
  else (false, self, handles)

/-- The observers whose lease still holds. -/
def settled (self : SessionObservers) (handles : Handles) : SessionObservers :=
  { self with
    observers := self.observers.retain fun _ lease => lease ∉ handles.cancelled
    vacant := fun h => by rw [self.vacant h]; rfl }

/-- Whether the session cannot be closed as it is. -/
def blocked (self : SessionObservers) (lifecycle : Option SessionLifecycle) (work : SessionWork)
    (timeoutSeconds : Int) : Bool :=
  timeoutSeconds < 0 || lifecycle.all (fun phase => phase = .closed || phase = .deleting) ||
    self.observers.keys ≠ ∅ || work ≠ .idle

/-- Arm a countdown, cancel it, or leave it, after a change of the session. -/
def refresh (self : SessionObservers) (handles : Handles) (lifecycle : Option SessionLifecycle)
    (work : SessionWork) (timeoutSeconds : Int) (now : Nat) :
    Option AbsenceTimer × SessionObservers × Handles :=
  let settled := self.settled handles
  if settled.blocked lifecycle work timeoutSeconds then (none, settled.cancelAbsence handles)
  else if settled.absence.isSome || settled.closeAttempted || lifecycle ≠ some .active then
    (none, settled, handles)
  else
    let timer : AbsenceTimer :=
      { id := max ((settled.nextAbsence + 1) % 2 ^ 64) 1
        started := now
        timeout := timeoutSeconds.toNat * 10 ^ 9
        permit := handles.permits.length }
    -- Nobody is left in the table here, or the session would be blocked.
    (some timer,
      ⟨∅, timer.id, some timer, false, fun _ => rfl⟩,
      { handles with permits := handles.permits ++ [⟨.pending, false⟩] })

def markCloseAttempted (self : SessionObservers) : SessionObservers :=
  { self with closeAttempted := true }

def matchesAbsence (self : SessionObservers) (handles : Handles) (id permit : Nat) : Bool :=
  self.absence.any (fun absence => absence.id = id && absence.permit = permit) &&
    !self.observers.any fun _ lease => lease ∉ handles.cancelled

def shutdown (self : SessionObservers) (handles : Handles) : SessionObservers × Handles :=
  let stopped := self.cancelAbsence handles
  (⟨∅, self.nextAbsence, none, self.closeAttempted, fun h => absurd rfl h⟩,
    stopped.2.cancelLeases self.leases)

def stopAbsence (self : SessionObservers) (handles : Handles) : SessionObservers × Handles :=
  self.cancelAbsence handles

/-- Stop, and hand the leases to the caller, who ends them in order. -/
def drainForFinish (self : SessionObservers) (handles : Handles) :
    Finset Nat × SessionObservers × Handles :=
  let stopped := self.cancelAbsence handles
  (self.leases, ⟨∅, self.nextAbsence, none, self.closeAttempted, fun h => absurd rfl h⟩, stopped.2)

end SessionObservers

end Attyd.Observation
