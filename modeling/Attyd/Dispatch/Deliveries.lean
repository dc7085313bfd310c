import Attyd.Dispatch.Queues
import Attyd.Library.Machine
import Mathlib.Algebra.Order.BigOperators.Group.Multiset
import Mathlib.Algebra.Order.Ring.Nat

/-!
# What the dispatcher delivers

The callers of the dispatcher register and remove sessions, route events, take
deliveries and drop their guards, in any order. Whatever they do, the events of
one allocation are delivered in the order they were routed, one at a time, and
the counters hold what is queued or under reduction.

## Implementation notes

The world keeps the guards its callers hold, and two logs that no call reads: the
events that were accepted and the events that were delivered, each with the
handle it went under and with what it is counted as.
-/

namespace Attyd.Dispatch

inductive Call (ε : Type*) where
  | register (sessionId : String) (incarnation : Nat)
  | route (handle : SessionHandle) (trafficClass : TrafficClass) (bytes : Nat) (event : ε)
  | takeNext
  | dropGuard (index : Nat)
  | remove (handle : SessionHandle)
  | close

/-- An event with its class and the bytes it is counted as. -/
structure Counted (ε : Type*) where
  event : ε
  trafficClass : TrafficClass
  bytes : Nat

def Delivery.counted {ε : Type*} (delivery : Delivery ε) : Counted ε :=
  ⟨delivery.event, delivery.guard.lease.trafficClass, delivery.guard.lease.size⟩

structure World (ε : Type*) where
  dispatch : SessionDispatch ε
  held : List DeliveryGuard
  routed : List (SessionHandle × Counted ε)
  delivered : List (SessionHandle × Counted ε)

namespace World

variable {ε : Type*}

def new (epoch : String) (identity : Nat) : World ε := ⟨.new epoch identity, [], [], []⟩

/-- One call; whoever takes a delivery holds its guard until it is dropped. -/
def step (w : World ε) : Call ε → World ε
  | .register sessionId incarnation =>
      { w with dispatch := (w.dispatch.register sessionId incarnation).2 }
  | .route handle trafficClass bytes event =>
      match w.dispatch.tryRoute handle trafficClass bytes event with
      | (.error _, dispatch) => { w with dispatch }
      | (.ok (), dispatch) =>
          { w with
            dispatch
            routed := w.routed ++ [(handle, ⟨event, trafficClass, max bytes 1⟩)] }
  | .takeNext =>
      match w.dispatch.tryNext with
      | (.delivery delivery, dispatch) =>
          { w with
            dispatch
            held := w.held ++ [delivery.guard]
            delivered := w.delivered ++ [(delivery.handle, delivery.counted)] }
      | (_, dispatch) => { w with dispatch }
  | .dropGuard index =>
      match w.held[index]? with
      | none => w
      | some guard =>
          { w with
            dispatch := w.dispatch.dropGuard guard
            held := w.held.eraseIdx index }
  | .remove handle => { w with dispatch := (w.dispatch.remove handle).2 }
  | .close => { w with dispatch := w.dispatch.close }

/-- The leases of all events that are queued or under reduction. -/
def live (w : World ε) : Multiset QueueLease :=
  (SessionDispatch.queuedIn w.dispatch.sessions).map (·.lease) +
    ((w.held.map (·.lease) : List QueueLease) : Multiset QueueLease)

end World

/-- The events of a log under one handle. -/
def eventsOf {ε : Type*} (log : List (SessionHandle × Counted ε)) (handle : SessionHandle) :
    List (Counted ε) :=
  (log.filter (·.1 = handle)).map (·.2)

section EventsOf

variable {ε : Type*} {log : List (SessionHandle × Counted ε)} {handle other : SessionHandle}
  {event : Counted ε}

theorem eventsOf_snoc_self :
    eventsOf (log ++ [(handle, event)]) handle = eventsOf log handle ++ [event] := by
  simp [eventsOf]

theorem eventsOf_snoc_of_ne (h : handle ≠ other) :
    eventsOf (log ++ [(handle, event)]) other = eventsOf log other := by
  simp [eventsOf, h]

theorem eventsOf_eq_nil (h : ∀ p ∈ log, p.1 ≠ handle) : eventsOf log handle = [] := by
  rw [eventsOf, List.map_eq_nil_iff, List.filter_eq_nil_iff]
  intro p hp
  simpa using h p hp

end EventsOf

namespace World

variable {ε : Type*}

/-- What holds of the world between two calls. -/
structure Orderly (w : World ε) : Prop where
  queued : w.dispatch.WellQueued
  closed : w.dispatch.closed = true → w.dispatch.sessions = ∅
  outstanding : (w.held.map (·.lease.allocation)).Nodup
  held : ∀ guard ∈ w.held, guard.busy = true ∧
    guard.lease.allocation ≤ w.dispatch.nextAllocation
  busy : ∀ allocation, w.dispatch.busy allocation = true ↔
    allocation ∈ w.held.map (·.lease.allocation)
  counts : w.dispatch.Counts w.live
  allocated : ∀ p ∈ w.routed, p.1.allocation ≤ w.dispatch.nextAllocation
  order : ∀ handle, eventsOf w.delivered handle <+: eventsOf w.routed handle
  pending : ∀ {sessionId queue}, w.dispatch.sessions.lookup sessionId = some queue →
    eventsOf w.routed queue.handle =
      eventsOf w.delivered queue.handle ++ queue.queue.map (·.counted)

theorem orderly_new (epoch : String) (identity : Nat) :
    (new epoch identity : World ε).Orderly where
  queued := SessionDispatch.wellQueued_of_empty rfl rfl
  closed _ := rfl
  outstanding := List.nodup_nil
  held guard h := by cases h
  busy allocation := by
    constructor
    · intro h
      cases h
    · intro h
      cases h
  counts := SessionDispatch.counts_new epoch identity
  allocated p h := by cases h
  order handle := List.prefix_rfl
  pending h := by cases h

variable {w : World ε}

/-- A change of the dispatcher that touches no queue but drops whole ones. -/
theorem Orderly.drop (h : w.Orderly) {d : SessionDispatch ε} {guards : Multiset DeliveryGuard}
    (queued : d.WellQueued) (closed : d.closed = true → d.sessions = ∅)
    (next : w.dispatch.nextAllocation ≤ d.nextAllocation)
    (busy : d.busy = w.dispatch.busy) (idle : ∀ guard ∈ guards, guard.busy = false)
    (global : d.global = w.dispatch.global) (accounting : d.accounting = w.dispatch.accounting)
    (dropped : SessionDispatch.queuedIn w.dispatch.sessions =
      guards + SessionDispatch.queuedIn d.sessions)
    (pending : ∀ {sessionId queue}, d.sessions.lookup sessionId = some queue →
      eventsOf w.routed queue.handle =
        eventsOf w.delivered queue.handle ++ queue.queue.map (·.counted)) :
    ({ w with dispatch := d.dropAll guards } : World ε).Orderly := by
  have hs : SessionDispatch.SameQueues (d.dropAll guards) d :=
    SessionDispatch.dropAll_sameQueues guards
  have hbusy : (d.dropAll guards).busy = w.dispatch.busy :=
    (SessionDispatch.dropAll_busy idle).trans busy
  refine ⟨queued.of_same hs, ?_, h.outstanding, ?_, ?_, ?_, ?_, h.order, ?_⟩
  · intro hc
    rw [hs.closed] at hc
    exact hs.sessions.trans (closed hc)
  · intro guard hg
    obtain ⟨hb, hle⟩ := h.held guard hg
    exact ⟨hb, (hle.trans next).trans_eq hs.nextAllocation.symm⟩
  · intro allocation
    change (d.dropAll guards).busy allocation = true ↔ _
    rw [hbusy]
    exact h.busy allocation
  · apply SessionDispatch.Counts.dropAll
    have hlive : guards.map (·.lease) + World.live { w with dispatch := d.dropAll guards } =
        w.live := by
      simp only [live, hs.sessions, dropped, Multiset.map_add, add_assoc]
    rw [hlive]
    exact h.counts.congr global accounting
  · intro p hp
    exact ((h.allocated p hp).trans next).trans_eq hs.nextAllocation.symm
  · intro sessionId queue hl
    change (d.dropAll guards).sessions.lookup sessionId = some queue at hl
    rw [hs.sessions] at hl
    exact pending hl

theorem idle_guards (h : w.Orderly) {sessionId : String} {queue : SessionQueue ε}
    (hl : w.dispatch.sessions.lookup sessionId = some queue) :
    ∀ guard ∈ queue.guards, guard.busy = false := by
  intro guard hg
  obtain ⟨delivery, hd, rfl⟩ := List.mem_map.mp (Multiset.mem_coe.mp hg)
  exact (h.queued.events hl delivery hd).2.2

theorem Orderly.register (h : w.Orderly) (sessionId : String) (incarnation : Nat) :
    (w.step (.register sessionId incarnation)).Orderly := by
  rcases w.dispatch.register_cases sessionId incarnation with ⟨answer, hr⟩ | ⟨hopen, hr⟩
  · simp only [step, hr]
    exact h
  · simp only [step, hr]
    refine h.drop (h.queued.opened sessionId incarnation) ?_ (Nat.le_succ _) rfl ?_ rfl rfl ?_ ?_
    · intro hc
      exact absurd (hopen.symm.trans hc) Bool.false_ne_true
    · intro guard hg
      cases hl : w.dispatch.sessions.lookup sessionId with
      | none =>
          rw [hl] at hg
          cases hg
      | some queue =>
          rw [hl] at hg
          exact idle_guards h hl guard hg
    · rw [SessionDispatch.opened, SessionDispatch.queuedIn, SessionDispatch.queuedIn,
        Table.sum_insert, Table.sum_split _ _ sessionId]
      change _ = _ + (0 + _)
      rw [zero_add]
    · intro id queue hl
      by_cases hid : id = sessionId
      · rw [hid, SessionDispatch.opened, Finmap.lookup_insert] at hl
        rw [← Option.some.inj hl]
        have hfresh : ∀ p ∈ w.routed, p.1 ≠ w.dispatch.nextHandle sessionId incarnation := by
          intro p hp heq
          have hle := h.allocated p hp
          rw [heq] at hle
          exact absurd hle (Nat.not_succ_le_self _)
        have hnone : eventsOf w.routed (w.dispatch.nextHandle sessionId incarnation) = [] :=
          eventsOf_eq_nil hfresh
        have hprefix := h.order (w.dispatch.nextHandle sessionId incarnation)
        rw [hnone, List.prefix_nil] at hprefix
        rw [hnone, hprefix]
        rfl
      · rw [SessionDispatch.opened, Finmap.lookup_insert_of_ne _ hid] at hl
        exact h.pending hl

theorem Orderly.remove (h : w.Orderly) (handle : SessionHandle) :
    (w.step (.remove handle)).Orderly := by
  simp only [step, SessionDispatch.remove]
  cases hv : w.dispatch.validateHandle handle with
  | error error => exact h
  | ok queue =>
      obtain ⟨hopen, hl, rfl⟩ := SessionDispatch.validateHandle_eq_ok hv
      refine h.drop (h.queued.removed hl) ?_ (Nat.le_refl _) rfl (idle_guards h hl) rfl rfl ?_ ?_
      · intro hc
        exact absurd (hopen.symm.trans hc) Bool.false_ne_true
      · exact Table.sum_erase _ hl
      · intro id other ho
        by_cases hid : id = queue.handle.sessionId
        · rw [hid, Finmap.lookup_erase] at ho
          cases ho
        · rw [Finmap.lookup_erase_ne hid] at ho
          exact h.pending ho

theorem Orderly.close (h : w.Orderly) : (w.step .close).Orderly := by
  simp only [step, SessionDispatch.close]
  refine h.drop (SessionDispatch.wellQueued_of_empty rfl rfl) (fun _ => rfl) (Nat.le_refl _) rfl
    ?_ rfl rfl ?_ ?_
  · intro guard hg
    obtain ⟨sessionId, queue, hl, hguard⟩ := Table.mem_sum.mp hg
    exact idle_guards h hl guard hguard
  · rw [SessionDispatch.queuedIn, SessionDispatch.queuedIn, Table.sum_empty, add_zero]
  · intro id queue hl
    cases hl

/-- The events of one queue and what is queued elsewhere. -/
theorem queuedIn_insert {sessions : Table String (SessionQueue ε)} {sessionId : String}
    {queue : SessionQueue ε} (hl : sessions.lookup sessionId = some queue)
    (queue' : SessionQueue ε) :
    ∃ others, SessionDispatch.queuedIn sessions = queue.guards + others ∧
      SessionDispatch.queuedIn (sessions.insert sessionId queue') = queue'.guards + others :=
  ⟨SessionDispatch.queuedIn (sessions.erase sessionId), Table.sum_erase _ hl,
    Table.sum_insert _ _ _ _⟩

theorem Orderly.route (h : w.Orderly) (handle : SessionHandle) (trafficClass : TrafficClass)
    (bytes : Nat) (event : ε) : (w.step (.route handle trafficClass bytes event)).Orderly := by
  simp only [step, SessionDispatch.tryRoute]
  cases hv : w.dispatch.validateHandle handle with
  | error error => exact h
  | ok queue =>
      obtain ⟨hopen, hl, rfl⟩ := SessionDispatch.validateHandle_eq_ok hv
      let lease : QueueLease := ⟨queue.handle.allocation, trafficClass, max bytes 1⟩
      let queue' : SessionQueue ε :=
        { queue with
          queue := queue.queue ++ [⟨queue.handle, event, ⟨lease, false⟩⟩]
          scheduled := true }
      have hmem : queue.handle ∈ w.dispatch.ready ↔ queue.queue ≠ [] := by
        rw [h.queued.ready]
        constructor
        · rintro ⟨found, hfound, -, hne⟩
          rw [hl] at hfound
          rwa [Option.some.inj hfound]
        · exact fun hne => ⟨queue, hl, rfl, hne⟩
      have hscheduled := h.queued.scheduled hl
      refine ⟨?_, ?_, h.outstanding, h.held, h.busy, ?_, ?_, ?_, ?_⟩
      · refine @SessionDispatch.WellQueued.requeue _ _ _ h.queued _ _ queue' hl rfl
          (by simp [queue']) ?_ rfl rfl ?_ ?_
        · intro delivery hd
          rcases List.mem_append.mp hd with hd | hd
          · exact h.queued.events hl delivery hd
          · rw [List.mem_singleton.mp hd]
            exact ⟨rfl, rfl, rfl⟩
        · dsimp only
          cases hs : queue.scheduled with
          | true => exact h.queued.nodup
          | false =>
              have hempty : queue.queue = [] := by simpa [hs] using hscheduled
              refine List.nodup_append.mpr ⟨h.queued.nodup, List.nodup_singleton _, ?_⟩
              intro a ha b hb heq
              rw [List.mem_singleton.mp hb] at heq
              rw [heq] at ha
              exact hmem.mp ha hempty
        · intro other
          have hne : queue'.queue ≠ [] := List.append_ne_nil_of_right_ne_nil _ (by simp)
          dsimp only
          cases hs : queue.scheduled with
          | true =>
              have hfull : queue.queue ≠ [] := by simpa [hs] using hscheduled
              by_cases ho : other = queue.handle
              · rw [if_pos ho, ho]
                exact iff_of_true (hmem.mpr hfull) hne
              · rw [if_neg ho]
                rfl
          | false =>
              rw [if_neg Bool.false_ne_true, List.mem_append, List.mem_singleton]
              by_cases ho : other = queue.handle
              · rw [if_pos ho]
                exact iff_of_true (.inr ho) hne
              · rw [if_neg ho]
                exact or_iff_left ho
      · intro hc
        exact absurd (hopen.symm.trans hc) Bool.false_ne_true
      · obtain ⟨others, hold, hnew⟩ := queuedIn_insert hl queue'
        have hguards : queue'.guards = ⟨lease, false⟩ ::ₘ queue.guards := by
          rw [SessionQueue.guards, SessionQueue.guards, List.map_append, ← Multiset.coe_add,
            add_comm]
          rfl
        have hlive : ∀ x : World ε, x.held = w.held →
            x.dispatch.sessions = w.dispatch.sessions.insert queue.handle.sessionId queue' →
            x.live = lease ::ₘ w.live := by
          intro x hheld hsessions
          rw [live, live, hheld, hsessions, hnew, hold, hguards, Multiset.cons_add,
            Multiset.map_cons, Multiset.cons_add]
        rw [hlive _ (by rfl) (by rfl)]
        exact (h.counts.record lease).congr rfl rfl
      · intro p hp
        rcases List.mem_append.mp hp with hp | hp
        · exact h.allocated p hp
        · rw [List.mem_singleton.mp hp]
          exact h.queued.allocated hl
      · intro other
        dsimp only
        by_cases ho : queue.handle = other
        · subst ho
          rw [eventsOf_snoc_self]
          exact (h.order _).trans (List.prefix_append _ _)
        · rw [eventsOf_snoc_of_ne ho]
          exact h.order other
      · intro id other ho
        dsimp only at ho ⊢
        by_cases hid : id = queue.handle.sessionId
        · rw [hid, Finmap.lookup_insert] at ho
          obtain rfl := Option.some.inj ho
          rw [eventsOf_snoc_self, h.pending hl, List.map_append, List.append_assoc]
          rfl
        · rw [Finmap.lookup_insert_of_ne _ hid] at ho
          have hne : queue.handle ≠ other.handle := by
            intro heq
            rw [← h.queued.sessionId ho, heq] at hid
            exact hid rfl
          rw [eventsOf_snoc_of_ne hne]
          exact h.pending ho

/-- Taking the next event finds every ready session busy, or takes the first event of
one that is not. -/
theorem Orderly.tryNext_cases (h : w.Orderly) (hopen : w.dispatch.closed = false) :
    ((∀ handle ∈ w.dispatch.ready, w.dispatch.busy handle.allocation = true) ∧
        w.dispatch.tryNext = (.nothing, w.dispatch)) ∨
      ∃ pre post queue delivery queued, w.dispatch.ready = pre ++ queue.handle :: post ∧
        (∀ handle ∈ pre, w.dispatch.busy handle.allocation = true) ∧
        w.dispatch.busy queue.handle.allocation = false ∧
        w.dispatch.sessions.lookup queue.handle.sessionId = some queue ∧
        queue.queue = delivery :: queued ∧
        w.dispatch.tryNext =
          (.delivery { delivery with guard := { delivery.guard with busy := true } },
            { w.dispatch with
              busy := Function.update w.dispatch.busy queue.handle.allocation true
              sessions := w.dispatch.sessions.insert queue.handle.sessionId
                { queue with queue := queued, scheduled := !queued.isEmpty }
              ready := post ++ pre ++ if queued.isEmpty then [] else [queue.handle] }) := by
  have hnext : w.dispatch.tryNext = w.dispatch.nextReady w.dispatch.ready.length := by
    rw [SessionDispatch.tryNext, if_neg (by rw [hopen]; exact Bool.false_ne_true)]
  rw [hnext]
  have hcases := SessionDispatch.nextReady_cases (List.append_nil w.dispatch.ready).symm
    (fun handle hh => (h.queued.ready handle).mp hh)
  simpa only [List.append_nil, List.nil_append] using hcases

theorem Orderly.takeNext (h : w.Orderly) : (w.step .takeNext).Orderly := by
  cases hc : w.dispatch.closed with
  | true =>
      simp only [step, SessionDispatch.tryNext, hc, if_true]
      exact h
  | false =>
      rcases h.tryNext_cases hc with
        ⟨-, hr⟩ | ⟨pre, post, queue, delivery, queued, hready, -, hfree, hl, hq, hr⟩
      · simp only [step, hr]
        exact h
      · simp only [step, hr]
        obtain ⟨hown, hallocation, hidle⟩ :=
          h.queued.events hl delivery (by rw [hq]; exact List.mem_cons_self)
        have hnot : queue.handle.allocation ∉ w.held.map (·.lease.allocation) := by
          rw [← h.busy, hfree]
          exact Bool.false_ne_true
        have hnodup := hready ▸ h.queued.nodup
        have hrest := (List.nodup_middle.mp hnodup)
        have hfresh : queue.handle ∉ pre ++ post := (List.nodup_cons.mp hrest).1
        let queue' : SessionQueue ε :=
          { queue with queue := queued, scheduled := !queued.isEmpty }
        refine ⟨?_, ?_, ?_, ?_, ?_, ?_, h.allocated, ?_, ?_⟩
        · refine @SessionDispatch.WellQueued.requeue _ _ _ h.queued _ _ queue' hl rfl rfl ?_ rfl rfl ?_ ?_
          · intro d hd
            exact h.queued.events hl d (by rw [hq]; exact List.mem_cons_of_mem _ hd)
          · dsimp only
            have hpost : (post ++ pre).Nodup :=
              (List.perm_append_comm.nodup_iff).mp (List.nodup_cons.mp hrest).2
            cases queued.isEmpty with
            | true => simpa using hpost
            | false =>
                refine List.nodup_append.mpr ⟨hpost, List.nodup_singleton _, ?_⟩
                intro a ha b hb heq
                rw [if_neg Bool.false_ne_true, List.mem_singleton] at hb
                rw [heq, hb, List.mem_append] at ha
                exact hfresh (List.mem_append.mpr ha.symm)
          · intro other
            dsimp only
            by_cases ho : other = queue.handle
            · rw [if_pos ho, ho]
              have hnotin : queue.handle ∉ post ++ pre := by
                intro hmem
                exact hfresh (List.mem_append.mpr (List.mem_append.mp hmem).symm)
              cases queued with
              | nil => simpa [queue'] using hnotin
              | cons d rest => simp [queue']
            · rw [if_neg ho, hready]
              cases queued.isEmpty <;> simp [ho, or_comm]
        · intro hclosed
          exact absurd (hc.symm.trans hclosed) Bool.false_ne_true
        · rw [List.map_append, List.map_singleton, hallocation]
          refine List.nodup_append.mpr ⟨h.outstanding, List.nodup_singleton _, ?_⟩
          intro a ha b hb heq
          rw [List.mem_singleton.mp hb] at heq
          exact hnot (heq ▸ ha)
        · intro guard hg
          rcases List.mem_append.mp hg with hg | hg
          · exact h.held guard hg
          · rw [List.mem_singleton.mp hg]
            exact ⟨rfl, hallocation.trans_le (h.queued.allocated hl)⟩
        · intro allocation
          dsimp only
          rw [List.map_append, List.map_singleton, List.mem_append, List.mem_singleton,
            hallocation, Function.update_apply]
          by_cases ha : allocation = queue.handle.allocation
          · rw [if_pos ha]
            exact iff_of_true rfl (.inr ha)
          · rw [if_neg ha, h.busy]
            exact (or_iff_left ha).symm
        · obtain ⟨others, hold, hnew⟩ := queuedIn_insert hl queue'
          have hguards : queue.guards = delivery.guard ::ₘ queue'.guards := by
            rw [SessionQueue.guards, hq]
            rfl
          have hlive : ∀ x : World ε,
              x.held = w.held ++ [{ delivery.guard with busy := true }] →
              x.dispatch.sessions = w.dispatch.sessions.insert queue.handle.sessionId queue' →
              x.live = w.live := by
            intro x hheld hsessions
            rw [live, live, hheld, hsessions, hnew, hold, hguards, Multiset.cons_add,
              Multiset.map_cons, List.map_append, ← Multiset.coe_add, List.map_singleton,
              Multiset.cons_add, ← add_assoc, Multiset.coe_singleton]
            exact (add_comm _ _).trans (Multiset.singleton_add _ _)
          rw [hlive _ (by rfl) (by rfl)]
          exact h.counts.congr rfl rfl
        · intro other
          dsimp only
          rw [hown]
          by_cases ho : queue.handle = other
          · subst ho
            rw [eventsOf_snoc_self, h.pending hl, hq, List.map_cons]
            exact ⟨queued.map (·.counted), List.append_assoc _ _ _⟩
          · rw [eventsOf_snoc_of_ne ho]
            exact h.order other
        · intro id other ho
          dsimp only at ho ⊢
          rw [hown]
          by_cases hid : id = queue.handle.sessionId
          · rw [hid, Finmap.lookup_insert] at ho
            obtain rfl := Option.some.inj ho
            rw [eventsOf_snoc_self, h.pending hl, hq, List.map_cons, List.append_assoc]
            rfl
          · rw [Finmap.lookup_insert_of_ne _ hid] at ho
            have hne : queue.handle ≠ other.handle := by
              intro heq
              rw [← h.queued.sessionId ho, heq] at hid
              exact hid rfl
            rw [eventsOf_snoc_of_ne hne]
            exact h.pending ho

theorem Orderly.dropGuard (h : w.Orderly) (index : Nat) :
    (w.step (.dropGuard index)).Orderly := by
  simp only [step]
  cases hg : w.held[index]? with
  | none => exact h
  | some guard =>
      obtain ⟨pre, post, hsplit, hlen⟩ :
          ∃ pre post, w.held = pre ++ guard :: post ∧ pre.length = index := by
        obtain ⟨hlt, hget⟩ := List.getElem?_eq_some_iff.mp hg
        refine ⟨w.held.take index, w.held.drop (index + 1), ?_, List.length_take_of_le hlt.le⟩
        rw [← hget, List.cons_getElem_drop_succ, List.take_append_drop]
      have herase : w.held.eraseIdx index = pre ++ post := by
        rw [hsplit, ← hlen, List.eraseIdx_append_of_length_le (Nat.le_refl _)]
        simp
      have hmem : guard ∈ w.held := hsplit ▸ List.mem_append_right _ List.mem_cons_self
      obtain ⟨hbusy, hle⟩ := h.held guard hmem
      have hs := SessionDispatch.dropGuard_sameQueues w.dispatch guard
      have hnodup : (guard.lease.allocation ::
          (pre ++ post).map (·.lease.allocation)).Nodup := by
        have houtstanding := h.outstanding
        rw [hsplit, List.map_append, List.map_cons] at houtstanding
        rw [List.map_append]
        exact List.nodup_middle.mp houtstanding
      refine ⟨h.queued.of_same hs, ?_, ?_, ?_, ?_, ?_, ?_, h.order, ?_⟩
      · intro hc
        rw [hs.closed] at hc
        exact hs.sessions.trans (h.closed hc)
      · rw [herase]
        exact (List.nodup_cons.mp hnodup).2
      · intro other ho
        rw [herase] at ho
        obtain ⟨hb, hle⟩ := h.held other (by
          rw [hsplit]
          exact List.mem_append.mpr ((List.mem_append.mp ho).imp_right (List.mem_cons_of_mem _)))
        exact ⟨hb, hle.trans_eq hs.nextAllocation.symm⟩
      · intro allocation
        rw [herase, SessionDispatch.busy_dropGuard]
        simp only [hbusy, true_and]
        by_cases ha : allocation = guard.lease.allocation
        · rw [if_pos ha, ha]
          exact iff_of_false Bool.false_ne_true (List.nodup_cons.mp hnodup).1
        · rw [if_neg ha, h.busy, hsplit]
          simp [ha]
      · have hlive : w.live = guard.lease ::ₘ
            World.live { w with
              dispatch := w.dispatch.dropGuard guard
              held := w.held.eraseIdx index } := by
          rw [live, live, hs.sessions, herase, hsplit, List.map_append, List.map_cons,
            List.map_append, ← Multiset.coe_add, ← Multiset.cons_coe, Multiset.add_cons,
            Multiset.add_cons, Multiset.coe_add]
        have hcounts := h.counts
        rw [hlive] at hcounts
        exact hcounts.dropGuard
      · intro p hp
        exact (h.allocated p hp).trans_eq hs.nextAllocation.symm
      · intro id queue hl
        change (w.dispatch.dropGuard guard).sessions.lookup id = some queue at hl
        rw [hs.sessions] at hl
        exact h.pending hl

/-- Every call keeps the world orderly. -/
theorem Orderly.step (h : w.Orderly) (call : Call ε) : (w.step call).Orderly := by
  cases call with
  | register sessionId incarnation => exact h.register sessionId incarnation
  | route handle trafficClass bytes event => exact h.route handle trafficClass bytes event
  | takeNext => exact h.takeNext
  | dropGuard index => exact h.dropGuard index
  | remove handle => exact h.remove handle
  | close => exact h.close

theorem orderly_run (epoch : String) (identity : Nat) (calls : List (Call ε)) :
    (run World.step (new epoch identity) calls).Orderly :=
  run_invariant (fun _ call hw => hw.step call) (orderly_new epoch identity) calls

/-- Live leases that a `usize` can count. -/
def Fits (leases : Multiset QueueLease) : Prop :=
  leases.card < 2 ^ 64 ∧ (leases.map (·.size)).sum < 2 ^ 64

/-- A counter holds the number and bytes of these leases, up to the width of a `usize`;
within that width every one of them can be taken out again without an underflow. -/
structure CountsExactly (usage : QueueUsage) (leases : Multiset QueueLease) : Prop where
  wrapped : usage = usageOf leases
  items : Fits leases → usage.items = leases.card
  bytes : Fits leases → usage.bytes = (leases.map (·.size)).sum
  noUnderflow : Fits leases → ∀ lease ∈ leases, 1 ≤ usage.items ∧ lease.size ≤ usage.bytes

theorem countsExactly_usageOf (leases : Multiset QueueLease) :
    CountsExactly (usageOf leases) leases := by
  have hitems (h : Fits leases) : (usageOf leases).items = leases.card := Nat.mod_eq_of_lt h.1
  have hbytes (h : Fits leases) : (usageOf leases).bytes = (leases.map (·.size)).sum :=
    Nat.mod_eq_of_lt h.2
  refine ⟨rfl, hitems, hbytes, ?_⟩
  intro h lease hl
  rw [hitems h, hbytes h]
  exact ⟨Multiset.card_pos_iff_exists_mem.mpr ⟨lease, hl⟩,
    Multiset.single_le_sum (fun _ _ => Nat.zero_le _) _ (Multiset.mem_map_of_mem _ hl)⟩

/-- After any calls in any order: the events of an allocation are delivered once and in
the order they were routed, a registered allocation has queued what is not delivered, at
most one event is outstanding for each, the ready list names the allocations with queued
events, no `expect` fails, nothing is to be taken exactly when all of them are outstanding,
and the counters hold what is queued or outstanding. -/
theorem dispatch_delivers_in_order (epoch : String) (identity : Nat) (calls : List (Call ε)) :
    let w := run World.step (new epoch identity) calls
    (∀ handle, eventsOf w.delivered handle <+: eventsOf w.routed handle) ∧
      (∀ sessionId queue, w.dispatch.sessions.lookup sessionId = some queue →
        eventsOf w.routed queue.handle =
          eventsOf w.delivered queue.handle ++ queue.queue.map (·.counted)) ∧
      (w.held.map (·.lease.allocation)).Nodup ∧
      w.dispatch.ready.Nodup ∧
      (∀ handle, handle ∈ w.dispatch.ready ↔
        ∃ queue, w.dispatch.sessions.lookup handle.sessionId = some queue ∧
          queue.handle = handle ∧ queue.queue ≠ []) ∧
      w.dispatch.tryNext.1 ≠ .panicked ∧
      (w.dispatch.closed = false →
        (w.dispatch.tryNext.1 = .nothing ↔
          ∀ sessionId queue, w.dispatch.sessions.lookup sessionId = some queue →
            queue.queue ≠ [] →
              queue.handle.allocation ∈ w.held.map (·.lease.allocation))) ∧
      (∀ c, CountsExactly (w.dispatch.global.get c) (ofClass w.live c)) ∧
      ∀ allocation c, CountsExactly ((w.dispatch.accounting allocation).get c)
        (ofAllocation w.live allocation c) := by
  intro w
  have h : w.Orderly := orderly_run epoch identity calls
  refine ⟨h.order, fun _ _ hqueue => h.pending hqueue, h.outstanding, h.queued.nodup, h.queued.ready, ?_, ?_,
    fun c => h.counts.global c ▸ countsExactly_usageOf _,
    fun allocation c => h.counts.session allocation c ▸ countsExactly_usageOf _⟩
  · cases hc : w.dispatch.closed with
    | true => simp [SessionDispatch.tryNext, hc]
    | false =>
        rcases h.tryNext_cases hc with ⟨-, hr⟩ | ⟨_, _, _, _, _, -, -, -, -, -, hr⟩
        · rw [hr]
          exact nofun
        · rw [hr]
          exact nofun
  · intro hc
    rcases h.tryNext_cases hc with
      ⟨hall, hr⟩ | ⟨_, _, queue, _, _, -, -, hfree, hl, hq, hr⟩
    · rw [hr]
      refine iff_of_true rfl fun sessionId queue hl hne => ?_
      have hid := h.queued.sessionId hl
      have hmem : queue.handle ∈ w.dispatch.ready :=
        (h.queued.ready _).mpr ⟨queue, hid.symm ▸ hl, rfl, hne⟩
      exact (h.busy _).mp (hall queue.handle hmem)
    · rw [hr]
      refine iff_of_false nofun fun hall => ?_
      have hheld := hall _ queue hl (by rw [hq]; exact List.cons_ne_nil _ _)
      rw [← h.busy, hfree] at hheld
      exact Bool.false_ne_true hheld

end World

end Attyd.Dispatch
