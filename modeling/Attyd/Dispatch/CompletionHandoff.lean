import Attyd.Library.Table

/-!
# Handing a completion to the task that waits for it

A task registers before it sends its request and binds the request id it gets.
The completion comes out of the queue of its session together with the guard of
that delivery. It is parked until the registration is bound, or sent to the
waiter it belongs to, or dropped with its guard.

## Implementation notes

A registration is known by its allocation, which stands for its private `Arc`.
The guard of a delivery is known by a number of its own. Dropping a turn releases
its guard and wakes the dispatcher; the turns dropped so far are kept as a
multiset with the number of wake-ups, since a map may be dropped in any order.
Every call is one step.
-/

namespace Attyd.Dispatch

structure RequestOwner where
  epoch : String
  sessionId : Option String
  incarnation : Option Nat
  operationId : String
  attemptId : Option String
  deriving DecidableEq

inductive HandoffError where
  | closed
  | duplicateOwner
  | withdrawn
  | alreadyBound
  | unbound
  | earlyCompletionAlreadyParked
  | completionUnavailable
  deriving DecidableEq

inductive HandoffDisposition where
  | parkedUntilBound
  | delivered
  | unregistered
  | staleRequestId
  | receiverGone
  deriving DecidableEq

inductive BindDisposition (ρ : Type*) where
  | awaitingCompletion (discardedEarlyRequestId : Option ρ)
  | delivered
  | receiverGone
  | discarded
  | unreachable
  deriving DecidableEq

inductive DiscardDisposition where
  | discarded
  | parkedUntilBound
  | unregistered
  | staleRequestId
  deriving DecidableEq

/-- A completion with the guard of its delivery. -/
structure CompletionTurn (ρ : Type*) where
  owner : RequestOwner
  requestId : ρ
  guard : Nat
  deriving DecidableEq

structure HandoffEntry (ρ : Type*) where
  allocation : Nat
  requestId : Option ρ
  early : Option (CompletionTurn ρ)
  discardedEarly : Option ρ

/-- The side of a registration its task keeps: the end of its channel, and what was
sent to it and not yet taken. -/
structure CompletionRegistration (ρ : Type*) where
  owner : RequestOwner
  bound : Bool
  received : Option (CompletionTurn ρ)

structure CompletionHandoff (ρ : Type*) where
  closed : Bool
  nextAllocation : Nat
  entries : Table RequestOwner (HandoffEntry ρ)
  registrations : Table Nat (CompletionRegistration ρ)
  released : Multiset (CompletionTurn ρ)
  wakes : Nat

/-- A turn that may be there, as a multiset. -/
def turns {ρ : Type*} (turn : Option (CompletionTurn ρ)) : Multiset (CompletionTurn ρ) :=
  turn.elim 0 fun turn => {turn}

namespace CompletionHandoff

variable {ρ : Type*} [DecidableEq ρ]

def new : CompletionHandoff ρ := ⟨false, 0, ∅, ∅, 0, 0⟩

/-- Drop turns: each releases its guard and wakes the dispatcher. -/
def release (self : CompletionHandoff ρ) (dropped : Multiset (CompletionTurn ρ)) :
    CompletionHandoff ρ :=
  { self with
    released := dropped + self.released
    wakes := self.wakes + dropped.card }

def register (self : CompletionHandoff ρ) (owner : RequestOwner) :
    Except HandoffError Nat × CompletionHandoff ρ :=
  if self.closed then (.error .closed, self)
  else
    match self.entries.lookup owner with
    | some _ => (.error .duplicateOwner, self)
    | none =>
        (.ok self.nextAllocation,
          { self with
            nextAllocation := self.nextAllocation + 1
            entries := self.entries.insert owner ⟨self.nextAllocation, none, none, none⟩
            registrations :=
              self.registrations.insert self.nextAllocation ⟨owner, false, none⟩ })

/-- Send a turn to the registration of an entry; it comes back when the receiver is gone. -/
def send (self : CompletionHandoff ρ) (allocation : Nat) (turn : CompletionTurn ρ) :
    Bool × CompletionHandoff ρ :=
  match self.registrations.lookup allocation with
  | none => (false, self.release {turn})
  | some registration =>
      (true,
        { self with
          registrations :=
            self.registrations.insert allocation { registration with received := some turn } })

/-- Take a completion from the queue of its session, with the guard of the delivery. -/
def handoff (self : CompletionHandoff ρ) (turn : CompletionTurn ρ) :
    Except HandoffError HandoffDisposition × CompletionHandoff ρ :=
  if self.closed then (.error .closed, self.release {turn})
  else
    match self.entries.lookup turn.owner with
    | none => (.ok .unregistered, self.release {turn})
    | some entry =>
        match entry.requestId with
        | none =>
            if entry.early.isSome || entry.discardedEarly.isSome then
              (.error .earlyCompletionAlreadyParked, self.release {turn})
            else
              (.ok .parkedUntilBound,
                { self with
                  entries := self.entries.insert turn.owner { entry with early := some turn } })
        | some requestId =>
            if requestId ≠ turn.requestId then (.ok .staleRequestId, self.release {turn})
            else
              let result :=
                { self with entries := self.entries.erase turn.owner }.send entry.allocation turn
              (.ok (if result.1 then .delivered else .receiverGone), result.2)

/-- Withdraw the registration bound to a response; before the bind, leave a mark. -/
def discard (self : CompletionHandoff ρ) (owner : RequestOwner) (requestId : ρ) :
    Except HandoffError DiscardDisposition × CompletionHandoff ρ :=
  match self.entries.lookup owner with
  | none => (.ok .unregistered, self)
  | some entry =>
      match entry.requestId with
      | some bound =>
          if bound ≠ requestId then (.ok .staleRequestId, self)
          else
            (.ok .discarded,
              { self with entries := self.entries.erase owner }.release (turns entry.early))
      | none =>
          if entry.discardedEarly.any (· ≠ requestId) ||
              entry.early.any (·.requestId ≠ requestId) then
            (.error .earlyCompletionAlreadyParked, self)
          else
            (.ok .parkedUntilBound,
              { self with
                entries := self.entries.insert owner
                  { entry with
                    discardedEarly := some requestId
                    early := none } }.release (turns entry.early))

/-- Drop the entries of the owners that pass a test. -/
def dropEntries (self : CompletionHandoff ρ) (drops : RequestOwner → Bool) :
    CompletionHandoff ρ :=
  { self with
    entries := self.entries.retain fun owner _ => !drops owner }.release
      (Table.sum (fun entry : HandoffEntry ρ => turns entry.early)
        (self.entries.retain fun owner _ => drops owner))

def discardSession (self : CompletionHandoff ρ) (epoch sessionId : String) (incarnation : Nat) :
    CompletionHandoff ρ :=
  self.dropEntries fun owner =>
    owner.epoch = epoch && owner.sessionId = some sessionId && owner.incarnation = some incarnation

def close (self : CompletionHandoff ρ) : CompletionHandoff ρ :=
  { self with closed := true }.dropEntries fun _ => true

/-- Bind a registration to the id of the request it was made for. -/
def bind (self : CompletionHandoff ρ) (allocation : Nat) (requestId : ρ) :
    Except HandoffError (BindDisposition ρ) × CompletionHandoff ρ :=
  match self.registrations.lookup allocation with
  | none => (.error .withdrawn, self)
  | some registration =>
      if registration.bound then (.error .alreadyBound, self)
      else if self.closed then (.error .closed, self)
      else
        match (self.entries.lookup registration.owner).filter (·.allocation = allocation) with
        | none => (.error .withdrawn, self)
        | some entry =>
            let discarded := entry.discardedEarly = some requestId
            let delivers := discarded || entry.early.any (·.requestId = requestId)
            let self :=
              { self with
                registrations :=
                  self.registrations.insert allocation { registration with bound := true }
                entries :=
                  if delivers then self.entries.erase registration.owner
                  else
                    self.entries.insert registration.owner
                      { entry with
                        requestId := some requestId
                        early := none
                        discardedEarly := none } }
            if discarded then (.ok .discarded, self.release (turns entry.early))
            else
              match entry.early, delivers with
              | some turn, true =>
                  let result := self.send allocation turn
                  (.ok (if result.1 then .delivered else .receiverGone), result.2)
              | early, false =>
                  (.ok (.awaitingCompletion
                      ((early.map (·.requestId)).or entry.discardedEarly)),
                    self.release (turns early))
              | none, true => (.ok .unreachable, self)

/-- Drop a registration: its own entry goes, and so does what was sent to it. -/
def dropRegistration (self : CompletionHandoff ρ) (allocation : Nat) : CompletionHandoff ρ :=
  match self.registrations.lookup allocation with
  | none => self
  | some registration =>
      let withdrawn :=
        match (self.entries.lookup registration.owner).filter (·.allocation = allocation) with
        | none => self
        | some entry =>
            { self with entries := self.entries.erase registration.owner }.release
              (turns entry.early)
      { withdrawn with registrations := self.registrations.erase allocation }.release
        (turns registration.received)

/-- What the task of a registration finds when it polls its channel. -/
inductive WaitAnswer (ρ : Type*) where
  | pending
  | failed (error : HandoffError)
  | turn (turn : CompletionTurn ρ)

/-- Wait once: the registration is used up unless it has to wait on. -/
def wait (self : CompletionHandoff ρ) (allocation : Nat) : WaitAnswer ρ × CompletionHandoff ρ :=
  match self.registrations.lookup allocation with
  | none => (.failed .withdrawn, self)
  | some registration =>
      if !registration.bound then (.failed .unbound, self.dropRegistration allocation)
      else
        match registration.received with
        | some turn =>
            (.turn turn,
              { self with
                registrations := self.registrations.insert allocation
                  { registration with received := none } }.dropRegistration allocation)
        | none =>
            if (self.entries.lookup registration.owner).any (·.allocation = allocation) then
              (.pending, self)
            else (.failed .completionUnavailable, self.dropRegistration allocation)

end CompletionHandoff

end Attyd.Dispatch
