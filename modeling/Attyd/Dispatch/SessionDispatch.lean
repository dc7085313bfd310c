import Attyd.Library.Table

/-!
# FIFO queues at the ingress boundary

Every session has one queue of events. The dispatcher takes the next event of a
session that is not busy, in turn; taking an event makes its session busy until
the guard of the delivery is dropped. Queued and outstanding events are counted,
over all sessions and for each, but never refused.

## Implementation notes

The counters and busy flags are shared with guards that may outlive their queue,
so they are kept beside the queues, one of each for every allocation of a queue.
A counter is an atomic `usize` and wraps. Every call is one step: the lock is
held for all of it but the dropping of removed events. `tryNext` names the two
`expect` calls it relies on as an answer of its own.
-/

namespace Attyd.Dispatch

inductive TrafficClass where
  | ordinary
  | reserved
  deriving DecidableEq

inductive DispatchError where
  | closed
  | epochMismatch
  | foreignHandle
  | sessionRemoved
  | staleHandle
  | staleIncarnation (current requested : Nat)
  | allocationExhausted
  deriving DecidableEq

structure SessionHandle where
  epoch : String
  sessionId : String
  incarnation : Nat
  allocation : Nat
  registry : Nat
  deriving DecidableEq

structure QueueUsage where
  items : Nat
  bytes : Nat
  deriving DecidableEq

namespace QueueUsage

def record (self : QueueUsage) (bytes : Nat) : QueueUsage :=
  ⟨(self.items + 1) % 2 ^ 64, (self.bytes + bytes) % 2 ^ 64⟩

/-- `fetch_sub` on both counters. -/
def release (self : QueueUsage) (bytes : Nat) : QueueUsage :=
  ⟨(self.items + (2 ^ 64 - 1)) % 2 ^ 64, (self.bytes + (2 ^ 64 - bytes % 2 ^ 64)) % 2 ^ 64⟩

theorem release_comm (self : QueueUsage) (a b : Nat) :
    (self.release a).release b = (self.release b).release a := by
  have ha : a % 2 ^ 64 < 2 ^ 64 := Nat.mod_lt a (by decide)
  have hb : b % 2 ^ 64 < 2 ^ 64 := Nat.mod_lt b (by decide)
  simp only [release, QueueUsage.mk.injEq, true_and]
  omega

end QueueUsage

structure ClassPools where
  ordinary : QueueUsage
  reserved : QueueUsage

namespace ClassPools

def default : ClassPools := ⟨⟨0, 0⟩, ⟨0, 0⟩⟩

def get (self : ClassPools) : TrafficClass → QueueUsage
  | .ordinary => self.ordinary
  | .reserved => self.reserved

def modify (self : ClassPools) (trafficClass : TrafficClass) (f : QueueUsage → QueueUsage) :
    ClassPools :=
  match trafficClass with
  | .ordinary => { self with ordinary := f self.ordinary }
  | .reserved => { self with reserved := f self.reserved }

theorem ext_get {p q : ClassPools} (h : ∀ c, p.get c = q.get c) : p = q := by
  obtain ⟨ordinary, reserved⟩ := p
  obtain ⟨ordinary', reserved'⟩ := q
  have ho : ordinary = ordinary' := h .ordinary
  have hr : reserved = reserved' := h .reserved
  rw [ho, hr]

@[simp] theorem get_modify (p : ClassPools) (c d : TrafficClass) (f : QueueUsage → QueueUsage) :
    (p.modify c f).get d = if d = c then f (p.get d) else p.get d := by
  cases c <;> cases d <;> rfl

end ClassPools

/-- What an event is counted as, under its allocation and over all sessions. -/
structure QueueLease where
  allocation : Nat
  trafficClass : TrafficClass
  size : Nat
  deriving DecidableEq

/-- The leases of an event, and whether dropping them ends a delivery. -/
structure DeliveryGuard where
  lease : QueueLease
  busy : Bool
  deriving DecidableEq

structure Delivery (ε : Type*) where
  handle : SessionHandle
  event : ε
  guard : DeliveryGuard

structure SessionQueue (ε : Type*) where
  handle : SessionHandle
  queue : List (Delivery ε)
  scheduled : Bool

/-- The guards of what a queue holds. -/
def SessionQueue.guards {ε : Type*} (self : SessionQueue ε) : Multiset DeliveryGuard :=
  (self.queue.map (·.guard) : List DeliveryGuard)

structure SessionDispatch (ε : Type*) where
  epoch : String
  identity : Nat
  global : ClassPools
  closed : Bool
  nextAllocation : Nat
  sessions : Table String (SessionQueue ε)
  ready : List SessionHandle
  accounting : Nat → ClassPools
  busy : Nat → Bool

/-- What a taker of the next event gets. -/
inductive NextDelivery (ε : Type*) where
  | closed
  | nothing
  | delivery (delivery : Delivery ε)
  | panicked

namespace SessionDispatch

variable {ε : Type*}

def new (epoch : String) (identity : Nat) : SessionDispatch ε where
  epoch
  identity
  global := .default
  closed := false
  nextAllocation := 0
  sessions := ∅
  ready := []
  accounting := fun _ => .default
  busy := fun _ => false

section Guards

/-- Count an event under its allocation and over all sessions. -/
def record (self : SessionDispatch ε) (lease : QueueLease) : SessionDispatch ε :=
  { self with
    accounting := Function.update self.accounting lease.allocation
      ((self.accounting lease.allocation).modify lease.trafficClass (·.record lease.size))
    global := self.global.modify lease.trafficClass (·.record lease.size) }

def release (self : SessionDispatch ε) (lease : QueueLease) : SessionDispatch ε :=
  { self with
    accounting := Function.update self.accounting lease.allocation
      ((self.accounting lease.allocation).modify lease.trafficClass (·.release lease.size))
    global := self.global.modify lease.trafficClass (·.release lease.size) }

/-- Drop a guard; a delivery under reduction frees its allocation. -/
def dropGuard (self : SessionDispatch ε) (guard : DeliveryGuard) : SessionDispatch ε :=
  let self := self.release guard.lease
  if guard.busy then
    { self with busy := Function.update self.busy guard.lease.allocation false }
  else self

@[simp] theorem global_release (self : SessionDispatch ε) (lease : QueueLease) (c : TrafficClass) :
    (self.release lease).global.get c =
      if c = lease.trafficClass then (self.global.get c).release lease.size
      else self.global.get c :=
  ClassPools.get_modify _ _ _ _

@[simp] theorem accounting_release (self : SessionDispatch ε) (lease : QueueLease)
    (allocation : Nat) (c : TrafficClass) :
    ((self.release lease).accounting allocation).get c =
      if allocation = lease.allocation ∧ c = lease.trafficClass then
        ((self.accounting allocation).get c).release lease.size
      else (self.accounting allocation).get c := by
  unfold release
  by_cases ha : allocation = lease.allocation
  · subst ha
    simp only [Function.update_self, ClassPools.get_modify, true_and]
  · simp only [Function.update_of_ne ha, ha, false_and, if_false]

/-- Everything but the counters and flags. -/
structure SameQueues (a b : SessionDispatch ε) : Prop where
  epoch : a.epoch = b.epoch
  identity : a.identity = b.identity
  closed : a.closed = b.closed
  nextAllocation : a.nextAllocation = b.nextAllocation
  sessions : a.sessions = b.sessions
  ready : a.ready = b.ready

theorem SameQueues.symm {a b : SessionDispatch ε} (h : SameQueues a b) : SameQueues b a :=
  ⟨h.epoch.symm, h.identity.symm, h.closed.symm, h.nextAllocation.symm, h.sessions.symm,
    h.ready.symm⟩

theorem SameQueues.trans {a b c : SessionDispatch ε} (hab : SameQueues a b)
    (hbc : SameQueues b c) : SameQueues a c :=
  ⟨hab.epoch.trans hbc.epoch, hab.identity.trans hbc.identity, hab.closed.trans hbc.closed,
    hab.nextAllocation.trans hbc.nextAllocation, hab.sessions.trans hbc.sessions,
    hab.ready.trans hbc.ready⟩

theorem SameQueues.ext {a b : SessionDispatch ε} (h : SameQueues a b)
    (global : ∀ c, a.global.get c = b.global.get c)
    (accounting : ∀ allocation c, (a.accounting allocation).get c = (b.accounting allocation).get c)
    (busy : a.busy = b.busy) : a = b := by
  obtain ⟨h1, h2, h3, h4, h5, h6⟩ := h
  cases a
  cases b
  simp only at h1 h2 h3 h4 h5 h6 busy
  have hg := ClassPools.ext_get global
  have ha := funext fun allocation => ClassPools.ext_get (accounting allocation)
  simp only at hg ha
  subst h1 h2 h3 h4 h5 h6 busy hg ha
  rfl

theorem dropGuard_sameQueues (self : SessionDispatch ε) (guard : DeliveryGuard) :
    SameQueues (self.dropGuard guard) self := by
  unfold dropGuard
  cases guard.busy <;> exact ⟨rfl, rfl, rfl, rfl, rfl, rfl⟩

@[simp] theorem global_dropGuard (self : SessionDispatch ε) (guard : DeliveryGuard)
    (c : TrafficClass) :
    (self.dropGuard guard).global.get c = (self.release guard.lease).global.get c := by
  unfold dropGuard
  cases guard.busy <;> rfl

@[simp] theorem accounting_dropGuard (self : SessionDispatch ε) (guard : DeliveryGuard)
    (allocation : Nat) (c : TrafficClass) :
    ((self.dropGuard guard).accounting allocation).get c =
      ((self.release guard.lease).accounting allocation).get c := by
  unfold dropGuard
  cases guard.busy <;> rfl

@[simp] theorem busy_dropGuard (self : SessionDispatch ε) (guard : DeliveryGuard)
    (allocation : Nat) :
    (self.dropGuard guard).busy allocation =
      if guard.busy = true ∧ allocation = guard.lease.allocation then false
      else self.busy allocation := by
  unfold dropGuard
  cases guard.busy with
  | false => rfl
  | true => simp only [if_true, Function.update_apply, true_and, release]

/-- Guards may be dropped in any order. -/
theorem dropGuard_comm (self : SessionDispatch ε) (a b : DeliveryGuard) :
    (self.dropGuard a).dropGuard b = (self.dropGuard b).dropGuard a := by
  have hq (x : SessionDispatch ε) (g : DeliveryGuard) := dropGuard_sameQueues x g
  refine (((hq _ b).trans (hq _ a)).trans ((hq _ a).trans (hq _ b)).symm).ext ?_ ?_ ?_
  · intro c
    simp only [global_dropGuard, global_release]
    split <;> split <;> first | rfl | exact QueueUsage.release_comm _ _ _
  · intro allocation c
    simp only [accounting_dropGuard, accounting_release]
    split <;> split <;> first | rfl | exact QueueUsage.release_comm _ _ _
  · funext allocation
    simp only [busy_dropGuard]
    split <;> split <;> rfl

instance : RightCommutative (dropGuard : SessionDispatch ε → DeliveryGuard → SessionDispatch ε) :=
  ⟨dropGuard_comm⟩

/-- Drop the guards of events that are no longer queued. -/
def dropAll (self : SessionDispatch ε) (guards : Multiset DeliveryGuard) : SessionDispatch ε :=
  guards.foldl dropGuard self

end Guards

section Calls

/-- The guards of everything the queues hold. -/
def queuedIn (sessions : Table String (SessionQueue ε)) : Multiset DeliveryGuard :=
  Table.sum (·.guards) sessions

/-- Open a queue for an incarnation. The same incarnation keeps its queue; a newer
one replaces it, and what the former held is dropped. -/
def register (self : SessionDispatch ε) (sessionId : String) (incarnation : Nat) :
    Except DispatchError SessionHandle × SessionDispatch ε :=
  if self.closed then (.error .closed, self)
  else
    let allocate : Except DispatchError SessionHandle × SessionDispatch ε :=
      if self.nextAllocation + 1 < 2 ^ 64 then
        let allocation := self.nextAllocation + 1
        let handle : SessionHandle :=
          ⟨self.epoch, sessionId, incarnation, allocation, self.identity⟩
        let previous := (self.sessions.lookup sessionId).elim 0 (·.guards)
        let self :=
          { self with
            nextAllocation := allocation
            sessions := self.sessions.insert sessionId ⟨handle, [], false⟩
            ready := self.ready.filter fun ready => ready.sessionId ≠ sessionId }
        (.ok handle, self.dropAll previous)
      else (.error .allocationExhausted, self)
    match self.sessions.lookup sessionId with
    | none => allocate
    | some previous =>
        if previous.handle.incarnation = incarnation then (.ok previous.handle, self)
        else if incarnation < previous.handle.incarnation then
          (.error (.staleIncarnation previous.handle.incarnation incarnation), self)
        else allocate

/-- The queue a handle still opens. -/
def validateHandle (self : SessionDispatch ε) (handle : SessionHandle) :
    Except DispatchError (SessionQueue ε) :=
  if self.closed then .error .closed
  else if handle.epoch ≠ self.epoch then .error .epochMismatch
  else if handle.registry ≠ self.identity then .error .foreignHandle
  else
    match self.sessions.lookup handle.sessionId with
    | none => .error .sessionRemoved
    | some queue => if queue.handle = handle then .ok queue else .error .staleHandle

def tryRoute (self : SessionDispatch ε) (handle : SessionHandle) (trafficClass : TrafficClass)
    (bytes : Nat) (event : ε) : Except DispatchError Unit × SessionDispatch ε :=
  match self.validateHandle handle with
  | .error error => (.error error, self)
  | .ok queue =>
      let lease : QueueLease := ⟨handle.allocation, trafficClass, max bytes 1⟩
      let self := self.record lease
      let queued : SessionQueue ε :=
        { queue with
          queue := queue.queue ++ [⟨handle, event, ⟨lease, false⟩⟩]
          scheduled := true }
      (.ok (),
        { self with
          sessions := self.sessions.insert handle.sessionId queued
          ready := if queue.scheduled then self.ready else self.ready ++ [handle] })

/-- Go through the ready handles once, passing over the busy ones. -/
def nextReady : Nat → SessionDispatch ε → NextDelivery ε × SessionDispatch ε
  | 0, self => (.nothing, self)
  | rounds + 1, self =>
      match self.ready with
      | [] => (.panicked, self)
      | handle :: ready =>
          match self.sessions.lookup handle.sessionId with
          | none => (.panicked, { self with ready })
          | some queue =>
              if self.busy queue.handle.allocation then
                nextReady rounds { self with ready := ready ++ [handle] }
              else
                match queue.queue with
                | [] => (.panicked, { self with ready })
                | delivery :: rest =>
                    let scheduled := !rest.isEmpty
                    (.delivery
                        { delivery with guard := { delivery.guard with busy := true } },
                      { self with
                        busy := Function.update self.busy queue.handle.allocation true
                        sessions := self.sessions.insert handle.sessionId
                          { queue with queue := rest, scheduled }
                        ready := if scheduled then ready ++ [handle] else ready })

/-- Take one event from the next session that is not busy. -/
def tryNext (self : SessionDispatch ε) : NextDelivery ε × SessionDispatch ε :=
  if self.closed then (.closed, self) else self.nextReady self.ready.length

def remove (self : SessionDispatch ε) (handle : SessionHandle) :
    Except DispatchError Unit × SessionDispatch ε :=
  match self.validateHandle handle with
  | .error error => (.error error, self)
  | .ok queue =>
      (.ok (),
        { self with
          sessions := self.sessions.erase handle.sessionId
          ready := self.ready.filter fun ready => ready ≠ handle }.dropAll queue.guards)

/-- Drop every queue, in whatever order the map gives them. -/
def close (self : SessionDispatch ε) : SessionDispatch ε :=
  { self with
    closed := true
    ready := []
    sessions := ∅ }.dropAll (queuedIn self.sessions)

end Calls

end SessionDispatch

end Attyd.Dispatch
