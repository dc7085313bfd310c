import Attyd.Delivery.Events
import Attyd.Library.Machine

/-!
# One subscription to a session

The hub publishes the events of a session to a subscriber; a writer takes them off the
subscriber's queue and sends them on. While a state event is queued and unclaimed, a newer
one replaces it in its slot. Outcomes are never replaced.

## Implementation notes

The hub publishes one event after another, in two or three steps: it finds the slot that is
still alive, replaces its payload if nobody claimed it, and otherwise queues a new item. The
writer takes an item, claims its payload, and sends it or skips it. The steps of both are
interleaved in any way. A slot is a number, and lives while the queue, the writer or the hub
holds it. The ledger is an integer, so an underflow would show as a negative value. What was
published and what was sent is kept beside, for the theorems alone. Subscribers without a
lease occur in tests only, and are left out; a session stream starts without initial events.
-/

namespace Attyd.Delivery

open Json (Value)

/-- The part of a canonical session that a reset repeats. -/
structure CanonicalSession where
  incarnation : Nat
  historyRevision : Value
  phase : Value
  syncError : Value

/-- The text of a reset. -/
def resetValue (sessionId : String) (place : SessionPosition)
    (historyRevision phase syncError : Value) : Value :=
  .ofFields
    [("type", .string "bridge/session_reset"),
      ("bridgeEpoch", .string place.owner.epoch),
      ("sessionId", .string sessionId),
      ("sessionIncarnation", .number (.int place.owner.incarnation)),
      ("viewRevision", .number (.int place.viewRevision)),
      ("historyRevision", historyRevision),
      ("phase", phase),
      ("syncError", syncError)]

/-- A reset from the canonical session, when there is one of this incarnation. -/
def canonicalResetEvent (canonical : Option CanonicalSession) (sessionId : String)
    (place : SessionPosition) : Option Value :=
  (canonical.filter fun session => session.incarnation = place.owner.incarnation).map
    fun session =>
      resetValue sessionId place session.historyRevision session.phase session.syncError

/-- A payload that can be replaced until it is claimed, and the bytes it is accounted for. -/
structure StateSlot where
  payload : Option Value
  position : Option SessionPosition
  accountedBytes : Nat

inductive QueuedPayload where
  | fixed (event : Value) (position : Option SessionPosition)
  | shared (slot : Nat)
  deriving DecidableEq

/-- Where the hub is in publishing an event. -/
inductive Publishing where
  | idle
  | replacing (slot : Nat) (next : Value) (position : SessionPosition)
  | sending (item : QueuedPayload)

/-- The item the writer has taken, and what it claimed of it. -/
structure Hand where
  item : QueuedPayload
  claimed : Option (Value × Option SessionPosition)

structure Subscription where
  sessionId : String
  subscribed : Bool
  leaseCancelled : Bool
  owner : Option SessionOwner
  stateSlot : Option Nat
  publishing : Publishing
  slots : List StateSlot
  ledger : Int
  receiving : Bool
  queue : List QueuedPayload
  hand : Option Hand
  position : Option SessionPosition
  /-- No slot was claimed twice. -/
  sound : Bool
  outcomes : List Value
  positions : List SessionPosition
  sent : List (Value × Option SessionPosition)

namespace Subscription

def new (sessionId : String) : Subscription where
  sessionId
  subscribed := true
  leaseCancelled := false
  owner := none
  stateSlot := none
  publishing := .idle
  slots := []
  ledger := 0
  receiving := true
  queue := []
  hand := none
  position := none
  sound := true
  outcomes := []
  positions := []
  sent := []

section Slots

/-- Whether the queue or the writer holds a slot. -/
def alive (self : Subscription) (slot : Nat) : Bool :=
  .shared slot ∈ self.queue || self.hand.any fun hand => hand.item = .shared slot

/-- An item is dropped: what it was accounted for leaves the ledger. -/
def dropItem (self : Subscription) : QueuedPayload → Subscription
  | .fixed event _ => { self with ledger := self.ledger - event.bytes }
  | .shared slot =>
      { self with
        ledger := self.ledger - (self.slots[slot]?.elim 0 (·.accountedBytes) : Nat)
        slots := self.slots.set slot ⟨none, none, 0⟩ }

/-- The subscriber leaves the hub, and its lease is cancelled. -/
def remove (self : Subscription) : Subscription :=
  { self with subscribed := false, leaseCancelled := true }

/-- An outcome, or the reset that starts the delivery, is accounted for before it is queued. -/
def trySendAt (self : Subscription) (event : Value) (position : Option SessionPosition) :
    Subscription :=
  { self with
    ledger := self.ledger + event.bytes
    publishing := .sending (.fixed event position) }

/-- A new slot is made and accounted for before it is queued. -/
def trySendState (self : Subscription) (event : Value) (position : SessionPosition) :
    Subscription :=
  { self with
    slots := self.slots ++ [⟨some event, some position, event.bytes⟩]
    ledger := self.ledger + event.bytes
    publishing := .sending (.shared self.slots.length) }

end Slots

section Hub

/-- Publish a state event: find the slot that may still be replaced. -/
def deliverState (self : Subscription) (canonical : Option CanonicalSession) (event : Value)
    (reset : Bool) (place : SessionPosition) : Subscription :=
  match self.stateSlot.filter self.alive with
  | some slot =>
      let next :=
        if reset then event
        else
          (canonicalResetEvent canonical self.sessionId place).getD
            (resetValue self.sessionId place .null .null .null)
      { self with publishing := .replacing slot next place }
  | none => self.trySendState event place

/-- An event of the session reaches the subscriber. -/
def publish (self : Subscription) (canonical : Option CanonicalSession) (event : SessionEvent) :
    Subscription :=
  if !self.subscribed || event.sessionId ≠ self.sessionId then self
  else if self.leaseCancelled then self.remove
  else
    match self.owner with
    | none => self
    | some owner =>
        if event.owner ≠ some owner then self.remove
        else
          match event.position with
          | some place =>
              { self with positions := self.positions ++ [place] }.deliverState canonical
                event.payload event.reset place
          | none =>
              { self with outcomes := self.outcomes ++ [event.payload] }.trySendAt event.payload
                none

/-- The observer is ready: its reset starts the delivery, and names the owner. -/
def observerReady (self : Subscription) (knownEpoch : Option String) (sessionId : String)
    (reset : Option SessionEvent) : Subscription :=
  if !self.subscribed || self.owner.isSome then self
  else
    match reset.bind fun reset => reset.position.map fun place => (reset, place) with
    | none => self.remove
    | some (reset, place) =>
        if sessionId = self.sessionId ∧ reset.sessionId = self.sessionId ∧
            knownEpoch.all (fun epoch => epoch = place.owner.epoch) = true ∧
            self.leaseCancelled = false then
          { self with
            owner := some place.owner
            positions := self.positions ++ [place] }.trySendAt reset.payload (some place)
        else self.remove

/-- The session ended for its observers: what is queued is still delivered. -/
def observerEnd (self : Subscription) (sessionId : String) (owner : Option SessionOwner) :
    Subscription :=
  if self.subscribed ∧ sessionId = self.sessionId ∧ owner.isSome ∧ self.owner = owner then
    { self with subscribed := false }
  else self

/-- The hub replaces the payload of the slot it found, or queues a new one if it was claimed. -/
def replace (self : Subscription) : Subscription :=
  match self.publishing with
  | .replacing slot next place =>
      match self.slots[slot]? with
      | none => { self with publishing := .idle }
      | some old =>
          match old.payload with
          | none => self.trySendState next place
          | some _ =>
              let replaced : Subscription :=
                { self with
                  publishing := .idle
                  slots := self.slots.set slot ⟨some next, some place, next.bytes⟩
                  ledger := self.ledger + next.bytes - old.accountedBytes }
              -- The queue may have gone meanwhile; then the hub held the last reference.
              if self.alive slot then replaced else replaced.dropItem (.shared slot)
  | _ => self

/-- The hub queues the item it has accounted for, if the receiving side is still there. -/
def send (self : Subscription) : Subscription :=
  match self.publishing with
  | .sending item =>
      if self.receiving then
        { self with
          publishing := .idle
          queue := self.queue ++ [item]
          stateSlot :=
            match item with
            | .shared slot => some slot
            | .fixed _ _ => self.stateSlot }
      else ({ self with publishing := .idle }.dropItem item).remove
  | _ => self

end Hub

section Writer

/-- The writer takes the next item off the queue. -/
def receive (self : Subscription) : Subscription :=
  match self.hand, self.queue with
  | none, item :: queue =>
      if self.receiving && !self.leaseCancelled then
        { self with queue, hand := some ⟨item, none⟩ }
      else self
  | _, _ => self

/-- The writer claims the payload of the item it has taken. -/
def claim (self : Subscription) : Subscription :=
  match self.hand with
  | some ⟨item, none⟩ =>
      match item with
      | .fixed event position =>
          { self with hand := some ⟨item, some (event, position)⟩ }
      | .shared slot =>
          match self.slots[slot]? with
          | some ⟨some payload, position, accountedBytes⟩ =>
              { self with
                hand := some ⟨item, some (payload, position)⟩
                slots := self.slots.set slot ⟨none, none, 0⟩
                ledger := self.ledger - accountedBytes }
          | _ => { self with sound := false }
  | _ => self

/-- Whether the writer has sent this position of the owner, or a later one. -/
def stale (self : Subscription) (position : Option SessionPosition) : Bool :=
  match self.position, position with
  | some current, some next =>
      current.owner = next.owner && next.viewRevision ≤ current.viewRevision
  | _, _ => false

/-- The writer lets the item go, and sends what it claimed unless that is stale. -/
def emit (self : Subscription) : Subscription :=
  match self.hand with
  | some ⟨item, some (payload, position)⟩ =>
      let released : Subscription :=
        match item with
        | .fixed event _ => { self with hand := none, ledger := self.ledger - event.bytes }
        | .shared _ => { self with hand := none }
      if self.stale position then released
      else
        { released with
          position := if position.isSome then position else self.position
          sent := self.sent ++ [(payload, position)] }
  | _ => self

/-- The slot the hub holds at this moment. -/
def held (self : Subscription) : Option Nat :=
  match self.publishing with
  | .replacing slot _ _ => some slot
  | _ => none

/-- The writer ends between two items: the queue is dropped, but for a slot the hub holds. -/
def close (self : Subscription) : Subscription :=
  if self.hand.isSome then self
  else
    let dropped := self.queue.filter fun item => self.held.all fun slot => item ≠ .shared slot
    dropped.foldl dropItem { self with receiving := false, queue := [], leaseCancelled := true }

end Writer

/-- What can happen next. -/
inductive Event where
  | publish (canonical : Option CanonicalSession) (event : SessionEvent)
  | ready (knownEpoch : Option String) (sessionId : String) (reset : Option SessionEvent)
  | finish (sessionId : String) (owner : Option SessionOwner)
  | cancelLease
  | unsubscribe
  | replace
  | send
  | receive
  | claim
  | emit
  | close

/-- The hub takes up another event only when it is done with the one before. -/
def whenIdle (self : Subscription) (change : Subscription → Subscription) : Subscription :=
  match self.publishing with
  | .idle => change self
  | _ => self

def step (self : Subscription) : Event → Subscription
  | .publish canonical event => self.whenIdle (·.publish canonical event)
  | .ready knownEpoch sessionId reset => self.whenIdle (·.observerReady knownEpoch sessionId reset)
  | .finish sessionId owner => self.whenIdle (·.observerEnd sessionId owner)
  | .cancelLease => { self with leaseCancelled := true }
  | .unsubscribe => self.whenIdle remove
  | .replace => self.replace
  | .send => self.send
  | .receive => self.receive
  | .claim => self.claim
  | .emit => self.emit
  | .close => self.close

end Subscription

end Attyd.Delivery
