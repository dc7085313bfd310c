import Attyd.Observation.Countdown
import Attyd.Session.LiveOperations

/-!
# Automatic closes

The bridge, its timer tasks and its command tasks share one session and its observers. A
timer task waits for a countdown, then asks the bridge to retire the session, again and again
while the permit is pending. The bridge looks at the session and starts a command; the
command looks again before it claims the permit and closes.

## Implementation notes

Every step is taken under the lock of the bridge, or looks at a permit alone; between two
steps anything else may happen. What other commands and the agent do to the session is an
arbitrary change of its state. Both commands that close a session admitCommand themselves in the
same way, and whether an operation id is used elsewhere is told from outside. The log is the
model's own: nothing reads it.
-/

namespace Attyd.Observation

open Session

section Admission

variable {δ : Type}

/-- Give the operation of a close back. -/
def releaseClose (session : SessionState δ) (requestId : String) : SessionState δ :=
  match session.settleExclusive .close requestId with
  | .ok settled => settled
  | .error _ => session

/-- Reserve the operation of a close and start it, or leave the session without one. -/
def startClose (session : SessionState δ) (requestId : String) (inUse : Bool) :
    Bool × SessionState δ :=
  if inUse then (false, session)
  else
    match session.beginExclusive .close requestId with
    | .error _ => (false, session)
    | .ok reserved =>
        match reserved.live with
        | none => (false, releaseClose reserved requestId)
        | some live =>
            match reserved.startOperation live requestId .close "closing" with
            | .error _ => (false, releaseClose reserved requestId)
            | .ok reduction => (true, reduction.owner.commitLive)

/-- Fail a close that was started, and release it. -/
def failClose (session : SessionState δ) (requestId : String) : SessionState δ :=
  match session.live with
  | none => releaseClose session requestId
  | some live =>
      match session.failOperation live requestId .close with
      | .error _ => session
      | .ok reduction => releaseClose reduction.owner.commitLive requestId

end Admission

section World

variable (δ : Type)

/-- One incarnation of the session, with what its resources own. -/
structure Allocation where
  state : SessionState δ
  materialization : Bool
  historySync : Bool
  observers : SessionObservers

/-- A task that waits for a countdown; once it has, it asks for the session to be retired. -/
structure TimerTask where
  incarnation : Nat
  timer : AbsenceTimer
  waited : Bool

structure RetireUnobservedSession where
  incarnation : Nat
  absenceId : Nat
  permit : Nat

/-- A command that closes the session, where the agent can, or retires it here. -/
structure CloseCommand where
  incarnation : Nat
  permit : Nat
  supportsClose : Bool

structure Bridge where
  now : Nat
  handles : Handles
  owner : Option (Allocation δ)
  nextIncarnation : Nat
  observersStopped : Bool
  observerTimeout : Option Int
  timers : List TimerTask
  inbox : List RetireUnobservedSession
  hand : Option RetireUnobservedSession
  commands : List CloseCommand
  log : List Happening

/-- What can happen next. -/
inductive Event where
  | elapse (nanoseconds : Nat)
  | allocate (state : SessionState δ)
  | retire
  | change (state : SessionState δ) (materialization historySync : Bool)
  | cancelLease (lease : Nat)
  | finishLease (lease : Nat)
  | observe (id lease : Nat)
  | unobserve (id lease : Nat)
  | refresh (lifecycle : Option SessionLifecycle) (work : SessionWork) (timeoutSeconds : Int)
  | refreshTimers
  | stopAbsence
  | markCloseAttempted
  | shutdown
  | finishObservers
  | stopObservers
  | wait (task : Nat)
  | send (task : Nat)
  | receive
  | retireUnobserved (supportsClose : Bool)
  | admitCommand (command : Nat) (requestId : String) (inUse : Bool)
  | drop (command : Nat)

end World

variable {δ : Type}

namespace Allocation

def work (self : Allocation δ) : SessionWork :=
  .of self.state self.materialization self.historySync

/-- The work of the session in a state that runs an operation, apart from the operation. -/
def workAside (self : Allocation δ) (state : SessionState δ) : SessionWork :=
  .of { state with operation := none } self.materialization self.historySync

def lifecycle (self : Allocation δ) : Option SessionLifecycle := self.state.live.map (·.lifecycle)

/-- Whether the session is live and active in the named incarnation. -/
def active (self : Allocation δ) (incarnation : Nat) : Bool :=
  self.lifecycle = some .active && self.state.incarnation = incarnation

end Allocation

namespace Bridge

def new (observerTimeout : Option Int) : Bridge δ where
  now := 0
  handles := ⟨[], ∅, ∅⟩
  owner := none
  nextIncarnation := 0
  observersStopped := false
  observerTimeout
  timers := []
  inbox := []
  hand := none
  commands := []
  log := []

/-- Change the observers of the session and the handles, with an entry for the log. -/
def onObservers (self : Bridge δ)
    (change : Allocation δ → Handles → SessionObservers × Handles × Option Happening) : Bridge δ :=
  match self.owner with
  | none => self
  | some owner =>
      let changed := change owner self.handles
      { self with
        owner := some { owner with observers := changed.1 }
        handles := changed.2.1
        log := changed.2.2.toList ++ self.log }

def stopAbsence (self : Bridge δ) : Bridge δ :=
  self.onObservers fun owner handles =>
    let stopped := owner.observers.stopAbsence handles
    (stopped.1, stopped.2, some (.stopped owner.state.incarnation))

def observe (self : Bridge δ) (id lease : Nat) : Bridge δ :=
  self.onObservers fun owner handles =>
    let observed := owner.observers.observe handles id lease
    (observed.2.1, observed.2.2,
      if observed.1 then
        some (.accepted owner.state.incarnation (owner.observers.observers.lookup id).isNone)
      else none)

def unobserve (self : Bridge δ) (id lease : Nat) : Bridge δ :=
  self.onObservers fun owner handles =>
    let left := owner.observers.unobserve handles id lease
    (left.2.1, left.2.2, none)

def markCloseAttempted (self : Bridge δ) : Bridge δ :=
  self.onObservers fun owner handles => (owner.observers.markCloseAttempted, handles, none)

def shutdown (self : Bridge δ) : Bridge δ :=
  self.onObservers fun owner handles =>
    let stopped := owner.observers.shutdown handles
    (stopped.1, stopped.2, some (.stopped owner.state.incarnation))

def finishObservers (self : Bridge δ) : Bridge δ :=
  self.onObservers fun owner handles =>
    let drained := owner.observers.drainForFinish handles
    (drained.2.1, drained.2.2.finishLeases drained.1, some (.stopped owner.state.incarnation))

/-- Refresh the observers; a countdown that is armed gets a task that waits for it. -/
def refresh (self : Bridge δ) (lifecycle : Option SessionLifecycle) (work : SessionWork)
    (timeoutSeconds : Int) : Bridge δ :=
  match self.owner with
  | none => self
  | some owner =>
      let refreshed :=
        owner.observers.refresh self.handles lifecycle work timeoutSeconds self.now
      let blocked := (owner.observers.settled self.handles).blocked lifecycle work timeoutSeconds
      let incarnation := owner.state.incarnation
      { self with
        owner := some { owner with observers := refreshed.2.1 }
        handles := refreshed.2.2
        timers := self.timers ++ (refreshed.1.map fun timer => ⟨incarnation, timer, false⟩).toList
        log :=
          (if blocked then [.unready incarnation work] else []) ++
            (refreshed.1.map (.armed incarnation)).toList ++ self.log }

/-- Refresh the observers from the session as it is. -/
def refreshObserverTimers (self : Bridge δ) : Bridge δ :=
  match self.owner with
  | none => self
  | some owner =>
      if self.observersStopped then self.stopAbsence
      else self.refresh owner.lifecycle owner.work (self.observerTimeout.getD (-1))

/-- The session is retired, and its observers with it. -/
def retire (self : Bridge δ) : Bridge δ := { self.shutdown with owner := none }

def allocate (self : Bridge δ) (state : SessionState δ) : Bridge δ :=
  if self.owner.isSome then self
  else
    { self with
      owner := some ⟨{ state with incarnation := self.nextIncarnation }, false, false, .new⟩
      nextIncarnation := self.nextIncarnation + 1 }

/-- Others change the session; its incarnation and its observers stay. -/
def change (self : Bridge δ) (state : SessionState δ) (materialization historySync : Bool) :
    Bridge δ :=
  { self with
    owner := self.owner.map fun owner =>
      { owner with
        state := { state with incarnation := owner.state.incarnation }
        materialization
        historySync } }

/-- A task looks whether its countdown has run out. -/
def wait (self : Bridge δ) (task : Nat) : Bridge δ :=
  match self.timers[task]? with
  | none => self
  | some waiting =>
      if waiting.waited then self
      else if !self.handles.pending waiting.timer.permit then
        { self with timers := self.timers.eraseIdx task }
      else if waiting.timer.expired self.now then
        { self with timers := self.timers.set task { waiting with waited := true } }
      else self

/-- A task whose countdown has run out asks the bridge to retire the session. -/
def send (self : Bridge δ) (task : Nat) : Bridge δ :=
  match self.timers[task]? with
  | none => self
  | some waiting =>
      if !waiting.waited then self
      else if !self.handles.pending waiting.timer.permit ||
          self.handles.tokenCancelled waiting.timer.permit then
        { self with timers := self.timers.eraseIdx task }
      else
        { self with
          inbox :=
            self.inbox ++ [⟨waiting.incarnation, waiting.timer.id, waiting.timer.permit⟩] }

/-- The bridge takes the next request, and looks at its permit before it takes the lock. -/
def receive (self : Bridge δ) : Bridge δ :=
  match self.hand, self.inbox with
  | none, request :: rest =>
      { self with
        inbox := rest
        hand := if self.handles.pending request.permit then some request else none }
  | _, _ => self

/-- The bridge decides about a request under the lock. -/
def retireUnobserved (self : Bridge δ) (supportsClose : Bool) : Bridge δ :=
  match self.hand with
  | none => self
  | some request =>
      let owned := self.owner.any fun owner =>
        owner.observers.matchesAbsence self.handles request.absenceId request.permit &&
          owner.active request.incarnation
      if !owned then
        { self with hand := none, handles := self.handles.cancel request.permit }
      else if self.owner.any fun owner => owner.work ≠ .idle then
        { self with hand := none }.stopAbsence
      else
        { self with
          hand := none
          commands := self.commands ++ [⟨request.incarnation, request.permit, supportsClose⟩] }

def setState (self : Bridge δ) (owner : Allocation δ) (state : SessionState δ) : Bridge δ :=
  { self with owner := some { owner with state } }

/-- A command starts the close of the session; the permit is claimed last. -/
def admitClose (self : Bridge δ) (owner : Allocation δ) (permit : Nat) (requestId : String)
    (inUse : Bool) : Bridge δ :=
  let started := startClose owner.state requestId inUse
  if !started.1 then self.setState owner started.2
  else if !(self.handles.claim permit).1 then
    self.setState owner (failClose started.2 requestId)
  else
    { self with
      handles := (self.handles.claim permit).2
      owner := some
        { owner with state := started.2, observers := owner.observers.markCloseAttempted }
      log :=
        .claimed owner.state.incarnation permit self.now (owner.workAside started.2)
          owner.observers.absence :: self.log }.refreshObserverTimers

/-- A command is admitted under the lock, or gives up. -/
def admitCommand (self : Bridge δ) (command : Nat) (requestId : String) (inUse : Bool) : Bridge δ :=
  match self.commands[command]? with
  | none => self
  | some close =>
      let self := { self with commands := self.commands.eraseIdx command }
      match self.owner with
      | none => { self with handles := self.handles.cancel close.permit }
      | some owner =>
          if owner.work ≠ .idle || !owner.active close.incarnation then
            { self with handles := self.handles.cancel close.permit }
          else self.admitClose owner close.permit requestId inUse

def step (self : Bridge δ) : Event δ → Bridge δ
  | .elapse nanoseconds => { self with now := self.now + nanoseconds }
  | .allocate state => self.allocate state
  | .retire => self.retire
  | .change state materialization historySync => self.change state materialization historySync
  | .cancelLease lease => { self with handles := self.handles.cancelLeases {lease} }
  | .finishLease lease => { self with handles := self.handles.finishLeases {lease} }
  | .observe id lease => self.observe id lease
  | .unobserve id lease => self.unobserve id lease
  | .refresh lifecycle work timeoutSeconds => self.refresh lifecycle work timeoutSeconds
  | .refreshTimers => self.refreshObserverTimers
  | .stopAbsence => self.stopAbsence
  | .markCloseAttempted => self.markCloseAttempted
  | .shutdown => self.shutdown
  | .finishObservers => self.finishObservers
  | .stopObservers => { self with observersStopped := true }.refreshObserverTimers
  | .wait task => self.wait task
  | .send task => self.send task
  | .receive => self.receive
  | .retireUnobserved supportsClose => self.retireUnobserved supportsClose
  | .admitCommand command requestId inUse => self.admitCommand command requestId inUse
  | .drop command => { self with commands := self.commands.eraseIdx command }

end Bridge

end Attyd.Observation
