import Attyd.Dispatch.Deliveries
import Attyd.Library.BoundedWait

/-!
# No session waits for ever

An allocation with queued events that is not busy has a place in the ready list,
and everyone before it is served or passed over to the back at the next taking.
Calls for other sessions only add behind it, so its place bounds how many
deliveries are made before its own. The pump alternates between the session
queues and the global one on every call, whether or not the call finds an event.

## Implementation notes

An allocation that is removed, replaced or closed never comes back under its
handle, so a waiting handle stays open up to every later state in which it is
open. The two dispatchers of the pump are two worlds, and a pump is one or two
takings of them.
-/

namespace Attyd.Dispatch

namespace SessionDispatch

variable {ε : Type*}

/-- The queue of a handle is still open. -/
def Registered (d : SessionDispatch ε) (handle : SessionHandle) : Prop :=
  ∃ queue, d.sessions.lookup handle.sessionId = some queue ∧ queue.handle = handle

/-- An allocation with queued events that is not busy. -/
def Eligible (d : SessionDispatch ε) (handle : SessionHandle) : Prop :=
  d.Pending handle ∧ d.busy handle.allocation = false

/-- Eligibility is about the own queue and the own flag. -/
theorem Eligible.congr {d e : SessionDispatch ε} {handle : SessionHandle} (h : d.Eligible handle)
    (lookup : e.sessions.lookup handle.sessionId = d.sessions.lookup handle.sessionId)
    (busy : e.busy handle.allocation = d.busy handle.allocation) : e.Eligible handle := by
  obtain ⟨⟨queue, hl, hown, hne⟩, hfree⟩ := h
  exact ⟨⟨queue, lookup.trans hl, hown, hne⟩, busy.trans hfree⟩

/-- Rewriting the queue of a handle opens no other. -/
theorem registered_of_insert {d e : SessionDispatch ε} {queue queue' : SessionQueue ε}
    {handle : SessionHandle} (hl : d.sessions.lookup queue.handle.sessionId = some queue)
    (he : e.sessions = d.sessions.insert queue.handle.sessionId queue')
    (hown : queue'.handle = queue.handle)
    (h : e.Registered handle) : d.Registered handle := by
  obtain ⟨found, hfound, rfl⟩ := h
  rw [he] at hfound
  by_cases hid : found.handle.sessionId = queue.handle.sessionId
  · rw [hid, Finmap.lookup_insert] at hfound
    rw [← Option.some.inj hfound, hown]
    exact ⟨queue, hl, rfl⟩
  · rw [Finmap.lookup_insert_of_ne _ hid] at hfound
    exact ⟨found, hfound, rfl⟩

/-- What routing an event changes besides the counters. -/
theorem tryRoute_cases (d : SessionDispatch ε) (handle : SessionHandle)
    (trafficClass : TrafficClass) (bytes : Nat) (event : ε) :
    (∃ error, d.tryRoute handle trafficClass bytes event = (.error error, d)) ∨
      ∃ queue delivery e, d.sessions.lookup handle.sessionId = some queue ∧
        queue.handle = handle ∧ d.tryRoute handle trafficClass bytes event = (.ok (), e) ∧
        e.sessions = d.sessions.insert handle.sessionId
          { queue with queue := queue.queue ++ [delivery], scheduled := true } ∧
        e.busy = d.busy ∧ e.nextAllocation = d.nextAllocation ∧ d.ready <+: e.ready := by
  rw [tryRoute]
  cases hv : d.validateHandle handle with
  | error error => exact .inl ⟨error, rfl⟩
  | ok queue =>
      obtain ⟨-, hl, hown⟩ := validateHandle_eq_ok hv
      refine .inr ⟨queue, _, _, hl, hown, rfl, rfl, rfl, rfl, ?_⟩
      change d.ready <+: if queue.scheduled then d.ready else d.ready ++ [handle]
      split
      · exact List.prefix_rfl
      · exact List.prefix_append _ _

end SessionDispatch

namespace World

variable {ε : Type*} {w : World ε} {handle : SessionHandle}

/-- The allocation of a handle was given out, and its queue is no longer open. -/
structure Gone (handle : SessionHandle) (w : World ε) : Prop where
  orderly : w.Orderly
  allocated : handle.allocation ≤ w.dispatch.nextAllocation
  closed : ¬ w.dispatch.Registered handle

structure Waits (handle : SessionHandle) (w : World ε) : Prop where
  orderly : w.Orderly
  eligible : w.dispatch.Eligible handle

/-- How many of the ready handles stand before this one. -/
def place (handle : SessionHandle) (w : World ε) : Nat := w.dispatch.ready.idxOf handle

theorem Waits.mem_ready (h : w.Waits handle) : handle ∈ w.dispatch.ready :=
  (h.orderly.queued.ready handle).mpr h.eligible.1

/-- A taking finds every ready handle busy, or serves the first that is not. -/
theorem Orderly.takeNext_cases (h : w.Orderly) :
    ((∀ handle ∈ w.dispatch.ready, w.dispatch.busy handle.allocation = true) ∧
        w.step .takeNext = w) ∨
      ∃ pre post queue delivery queue' back, w.dispatch.ready = pre ++ queue.handle :: post ∧
        (∀ handle ∈ pre, w.dispatch.busy handle.allocation = true) ∧
        w.dispatch.sessions.lookup queue.handle.sessionId = some queue ∧
        queue'.handle = queue.handle ∧
        w.dispatch.tryNext.1 = .delivery delivery ∧ delivery.handle = queue.handle ∧
        (w.step .takeNext).delivered = w.delivered ++ [(queue.handle, delivery.counted)] ∧
        (w.step .takeNext).dispatch.sessions =
          w.dispatch.sessions.insert queue.handle.sessionId queue' ∧
        (w.step .takeNext).dispatch.busy =
          Function.update w.dispatch.busy queue.handle.allocation true ∧
        (w.step .takeNext).dispatch.nextAllocation = w.dispatch.nextAllocation ∧
        (w.step .takeNext).dispatch.ready = post ++ back := by
  cases hc : w.dispatch.closed with
  | true =>
      left
      refine ⟨fun handle hready => ?_, ?_⟩
      · obtain ⟨queue, hl, -⟩ := (h.queued.ready handle).mp hready
        rw [h.closed hc] at hl
        cases hl
      · simp only [World.step, SessionDispatch.tryNext, hc, if_true]
  | false =>
      rcases h.tryNext_cases hc with
        ⟨hall, hr⟩ | ⟨pre, post, queue, delivery, queued, hready, hpre, -, hl, hq, hr⟩
      · left
        refine ⟨hall, ?_⟩
        simp only [World.step, hr]
      · right
        have hown := (h.queued.events hl delivery (by rw [hq]; exact List.mem_cons_self)).1
        refine ⟨pre, post, queue, _, { queue with queue := queued, scheduled := !queued.isEmpty },
          pre ++ if queued.isEmpty then [] else [queue.handle], hready, hpre, hl, rfl,
          congrArg Prod.fst hr, hown, ?_⟩
        simp only [World.step, hr, hown, List.append_assoc, true_and]

/-- A call opens queues under fresh allocations only, and reuses none. -/
theorem Orderly.registered_step (h : w.Orderly) (call : Call ε) :
    w.dispatch.nextAllocation ≤ (w.step call).dispatch.nextAllocation ∧
      ∀ handle, (w.step call).dispatch.Registered handle →
        w.dispatch.Registered handle ∨ w.dispatch.nextAllocation < handle.allocation := by
  cases call with
  | register sessionId incarnation =>
      rcases w.dispatch.register_cases sessionId incarnation with ⟨answer, hr⟩ | ⟨-, hr⟩
      · simp only [World.step, hr]
        exact ⟨Nat.le_refl _, fun _ => Or.inl⟩
      · have hs := SessionDispatch.dropAll_sameQueues (d := w.dispatch.opened sessionId incarnation)
          ((w.dispatch.sessions.lookup sessionId).elim 0 (·.guards))
        simp only [World.step, hr, SessionDispatch.Registered, hs.nextAllocation, hs.sessions]
        refine ⟨Nat.le_succ _, ?_⟩
        rintro handle ⟨queue, hl, rfl⟩
        by_cases hid : queue.handle.sessionId = sessionId
        · rw [hid, SessionDispatch.opened, Finmap.lookup_insert] at hl
          rw [← Option.some.inj hl]
          exact .inr (Nat.lt_succ_self _)
        · rw [SessionDispatch.opened, Finmap.lookup_insert_of_ne _ hid] at hl
          exact .inl ⟨queue, hl, rfl⟩
  | route handle trafficClass bytes event =>
      rcases w.dispatch.tryRoute_cases handle trafficClass bytes event with
        ⟨error, hr⟩ | ⟨queue, delivery, e, hl, rfl, hr, hsessions, -, hnext, -⟩
      · simp only [World.step, hr]
        exact ⟨Nat.le_refl _, fun _ => Or.inl⟩
      · simp only [World.step, hr]
        refine ⟨hnext.ge, fun other ho => .inl ?_⟩
        exact SessionDispatch.registered_of_insert hl hsessions rfl ho
  | takeNext =>
      rcases h.takeNext_cases with
        ⟨-, hstep⟩ | ⟨_, _, queue, _, queue', _, -, -, hl, hown, -, -, -, hsessions, -, hnext, -⟩
      · rw [hstep]
        exact ⟨Nat.le_refl _, fun _ => Or.inl⟩
      · refine ⟨hnext.ge, fun other ho => .inl ?_⟩
        exact SessionDispatch.registered_of_insert hl hsessions hown ho
  | dropGuard index =>
      simp only [World.step]
      cases w.held[index]? with
      | none => exact ⟨Nat.le_refl _, fun _ => Or.inl⟩
      | some guard =>
          have hs := SessionDispatch.dropGuard_sameQueues w.dispatch guard
          simp only [SessionDispatch.Registered, hs.nextAllocation, hs.sessions]
          exact ⟨Nat.le_refl _, fun _ => Or.inl⟩
  | remove handle =>
      simp only [World.step, SessionDispatch.remove]
      cases hv : w.dispatch.validateHandle handle with
      | error error => exact ⟨Nat.le_refl _, fun _ => Or.inl⟩
      | ok queue =>
          simp only [SessionDispatch.Registered,
            (SessionDispatch.dropAll_sameQueues _).nextAllocation,
            (SessionDispatch.dropAll_sameQueues _).sessions]
          refine ⟨Nat.le_refl _, ?_⟩
          rintro other ⟨found, hl, hown⟩
          by_cases hid : other.sessionId = handle.sessionId
          · rw [hid, Finmap.lookup_erase] at hl
            cases hl
          · rw [Finmap.lookup_erase_ne hid] at hl
            exact .inl ⟨found, hl, hown⟩
  | close =>
      simp only [World.step, SessionDispatch.close, SessionDispatch.Registered,
        (SessionDispatch.dropAll_sameQueues _).nextAllocation,
        (SessionDispatch.dropAll_sameQueues _).sessions]
      refine ⟨Nat.le_refl _, ?_⟩
      rintro other ⟨found, hl, -⟩
      cases hl

/-- What is gone stays gone. -/
theorem Gone.step (h : w.Gone handle) (call : Call ε) : (w.step call).Gone handle := by
  obtain ⟨hle, hopen⟩ := h.orderly.registered_step call
  refine ⟨h.orderly.step call, h.allocated.trans hle, ?_⟩
  intro hr
  rcases hopen handle hr with hr | hlt
  · exact h.closed hr
  · exact absurd hlt (Nat.not_lt.mpr h.allocated)

/-- A waiting handle that is no longer open is gone. -/
theorem Waits.gone_step (h : w.Waits handle) (call : Call ε)
    (hc : ¬ (w.step call).dispatch.Registered handle) : (w.step call).Gone handle := by
  obtain ⟨queue, hl, hown, -⟩ := h.eligible.1
  have hle := h.orderly.queued.allocated hl
  rw [hown] at hle
  exact ⟨h.orderly.step call, hle.trans (h.orderly.registered_step call).1, hc⟩

/-- A call that serves nobody keeps a waiting handle at its place or before it. -/
structure Keeps (handle : SessionHandle) (w w' : World ε) : Prop where
  delivered : w'.delivered = w.delivered
  eligible : w'.dispatch.Eligible handle
  place : w'.place handle ≤ w.place handle

theorem Waits.keeps_self (h : w.Waits handle) : w.Keeps handle w :=
  ⟨rfl, h.eligible, Nat.le_refl _⟩

/-- A changed dispatcher that drops other handles, or adds behind the ready ones. -/
theorem Waits.keeps (h : w.Waits handle) {w' : World ε} (delivered : w'.delivered = w.delivered)
    (lookup : w'.dispatch.sessions.lookup handle.sessionId =
      w.dispatch.sessions.lookup handle.sessionId)
    (busy : w'.dispatch.busy handle.allocation = w.dispatch.busy handle.allocation)
    (ready : w'.dispatch.ready.idxOf handle ≤ w.dispatch.ready.idxOf handle) :
    w.Keeps handle w' :=
  ⟨delivered, h.eligible.congr lookup busy, ready⟩

theorem Waits.register (h : w.Waits handle) (sessionId : String) (incarnation : Nat) :
    (w.step (.register sessionId incarnation)).Gone handle ∨
      w.Keeps handle (w.step (.register sessionId incarnation)) := by
  rcases w.dispatch.register_cases sessionId incarnation with ⟨answer, hr⟩ | ⟨-, hr⟩
  · right
    simp only [World.step, hr]
    exact h.keeps_self
  · have hs := SessionDispatch.dropAll_sameQueues (d := w.dispatch.opened sessionId incarnation)
      ((w.dispatch.sessions.lookup sessionId).elim 0 (·.guards))
    by_cases hid : handle.sessionId = sessionId
    · -- The queue that takes this one's place has an allocation of its own.
      left
      refine h.gone_step _ ?_
      simp only [World.step, hr, SessionDispatch.Registered, hs.sessions]
      rintro ⟨queue, hl, rfl⟩
      rw [hid, SessionDispatch.opened, Finmap.lookup_insert] at hl
      obtain ⟨former, hformer, hown, -⟩ := h.eligible.1
      have hle := h.orderly.queued.allocated hformer
      rw [hown, ← Option.some.inj hl] at hle
      exact Nat.not_succ_le_self _ hle
    · right
      have hidle : ∀ guard ∈ (w.dispatch.sessions.lookup sessionId).elim 0 (·.guards),
          guard.busy = false := by
        intro guard hg
        cases hl : w.dispatch.sessions.lookup sessionId with
        | none =>
            rw [hl] at hg
            cases hg
        | some queue =>
            rw [hl] at hg
            exact idle_guards h.orderly hl guard hg
      simp only [World.step, hr]
      refine h.keeps rfl ?_ (congrFun (SessionDispatch.dropAll_busy hidle) _) ?_
      · rw [hs.sessions, SessionDispatch.opened, Finmap.lookup_insert_of_ne _ hid]
      · rw [hs.ready]
        exact idxOf_filter_le (a := handle) (decide_eq_true hid) _

theorem Waits.route (h : w.Waits handle) (other : SessionHandle) (trafficClass : TrafficClass)
    (bytes : Nat) (event : ε) :
    w.Keeps handle (w.step (.route other trafficClass bytes event)) := by
  rcases w.dispatch.tryRoute_cases other trafficClass bytes event with
    ⟨error, hr⟩ | ⟨queue, delivery, e, hl, rfl, hr, hsessions, hbusy, -, hready⟩
  · simp only [World.step, hr]
    exact h.keeps_self
  · simp only [World.step, hr]
    refine ⟨rfl, ⟨?_, by rw [hbusy]; exact h.eligible.2⟩, ?_⟩
    · obtain ⟨former, hformer, hown, hne⟩ := h.eligible.1
      unfold SessionDispatch.Pending
      rw [hsessions]
      by_cases hid : handle.sessionId = queue.handle.sessionId
      · rw [hid, hl] at hformer
        rw [hid, Finmap.lookup_insert]
        exact ⟨_, rfl, (congrArg _ (Option.some.inj hformer)).trans hown,
          List.append_ne_nil_of_right_ne_nil _ (List.cons_ne_nil _ _)⟩
      · rw [Finmap.lookup_insert_of_ne _ hid]
        exact ⟨former, hformer, hown, hne⟩
    · exact (hready.idxOf_eq_of_mem h.mem_ready).ge

theorem Waits.dropGuard (h : w.Waits handle) (index : Nat) :
    w.Keeps handle (w.step (.dropGuard index)) := by
  simp only [World.step]
  cases w.held[index]? with
  | none => exact h.keeps_self
  | some guard =>
      have hs := SessionDispatch.dropGuard_sameQueues w.dispatch guard
      refine h.keeps rfl (by rw [hs.sessions]) ?_ (by rw [hs.ready])
      rw [SessionDispatch.busy_dropGuard, h.eligible.2, ite_self]

theorem Waits.remove (h : w.Waits handle) (other : SessionHandle) :
    (w.step (.remove other)).Gone handle ∨ w.Keeps handle (w.step (.remove other)) := by
  by_cases ho : handle = other ∧ ∃ queue, w.dispatch.validateHandle other = .ok queue
  · obtain ⟨rfl, queue, hv⟩ := ho
    left
    refine h.gone_step _ ?_
    simp only [World.step, SessionDispatch.remove, hv, SessionDispatch.Registered,
      (SessionDispatch.dropAll_sameQueues _).sessions, Finmap.lookup_erase]
    rintro ⟨found, hl, -⟩
    cases hl
  · right
    simp only [World.step, SessionDispatch.remove]
    cases hv : w.dispatch.validateHandle other with
    | error error => exact h.keeps_self
    | ok queue =>
        have hne : handle ≠ other := fun heq => ho ⟨heq, queue, hv⟩
        obtain ⟨-, hl, rfl⟩ := SessionDispatch.validateHandle_eq_ok hv
        have hid : handle.sessionId ≠ queue.handle.sessionId := by
          intro hid
          obtain ⟨former, hformer, hown, -⟩ := h.eligible.1
          rw [hid, hl] at hformer
          exact hne (hown.symm.trans (congrArg _ (Option.some.inj hformer).symm))
        refine h.keeps rfl ?_ (congrFun (SessionDispatch.dropAll_busy (idle_guards h.orderly hl)) _) ?_
        · rw [(SessionDispatch.dropAll_sameQueues _).sessions, Finmap.lookup_erase_ne hid]
        · rw [(SessionDispatch.dropAll_sameQueues _).ready]
          exact idxOf_filter_le (a := handle) (decide_eq_true hne) _

theorem Waits.close (h : w.Waits handle) : (w.step .close).Gone handle := by
  refine h.gone_step _ ?_
  simp only [World.step, SessionDispatch.close, SessionDispatch.Registered,
    (SessionDispatch.dropAll_sameQueues _).sessions]
  rintro ⟨found, hl, -⟩
  cases hl

/-- While a handle waits, a taking delivers something: its own event, or that of a
handle in front of it. -/
theorem Waits.takeNext (h : w.Waits handle) :
    ∃ delivery other, w.dispatch.tryNext.1 = .delivery delivery ∧ delivery.handle = other ∧
      (w.step .takeNext).delivered = w.delivered ++ [(other, delivery.counted)] ∧
      (other = handle ∨ (w.step .takeNext).Waits handle ∧
        (w.step .takeNext).place handle < w.place handle) := by
  rcases h.orderly.takeNext_cases with ⟨hall, -⟩ |
    ⟨pre, post, queue, delivery, queue', back, hready, hpre, hl, hown, hnext, hdelivered, hlog,
      hsessions, hbusy, -, hback⟩
  · have hheld := hall handle h.mem_ready
    rw [h.eligible.2] at hheld
    cases hheld
  · refine ⟨delivery, queue.handle, hnext, hdelivered, hlog, ?_⟩
    by_cases heq : queue.handle = handle
    · exact .inl heq
    · right
      obtain ⟨former, hformer, hformerOwn, -⟩ := h.eligible.1
      have hid : handle.sessionId ≠ queue.handle.sessionId := by
        intro hid
        rw [hid, hl] at hformer
        exact heq ((congrArg _ (Option.some.inj hformer)).trans hformerOwn)
      have hallocation : handle.allocation ≠ queue.handle.allocation := by
        intro ha
        rw [← hformerOwn] at ha
        exact hid (h.orderly.queued.distinct hformer hl ha)
      have hfront : handle ∉ pre := by
        intro hmem
        have hheld := hpre handle hmem
        rw [h.eligible.2] at hheld
        cases hheld
      have hbehind : handle ∈ post := by
        have hmem := h.mem_ready
        rw [hready, List.mem_append, List.mem_cons] at hmem
        rcases hmem with hmem | hmem | hmem
        · exact absurd hmem hfront
        · exact absurd hmem.symm heq
        · exact hmem
      refine ⟨⟨h.orderly.step _, h.eligible.congr ?_ ?_⟩, ?_⟩
      · rw [hsessions, Finmap.lookup_insert_of_ne _ hid]
      · rw [hbusy, Function.update_of_ne hallocation]
      · rw [place, place, hready, hback]
        exact idxOf_rotate_lt hfront hbehind heq back

theorem step_grows (w : World ε) (call : Call ε) : w.delivered <+: (w.step call).delivered := by
  cases call with
  | register sessionId incarnation => exact List.prefix_rfl
  | route other trafficClass bytes event =>
      simp only [step]
      split <;> exact List.prefix_rfl
  | takeNext =>
      simp only [step]
      split
      · exact List.prefix_append _ _
      · exact List.prefix_rfl
  | dropGuard index =>
      simp only [step]
      split <;> exact List.prefix_rfl
  | remove other => exact List.prefix_rfl
  | close => exact List.prefix_rfl

/-- A waiting handle is served before its place is used up. -/
theorem boundedWait (handle : SessionHandle) :
    BoundedWait (step (ε := ε)) delivered (·.1 = handle) (Gone handle) (Waits handle)
      (place handle) where
  stays _ call h := h.step call
  grows := step_grows
  step w call h := by
    have hkeeps : w.Keeps handle (w.step call) →
        (w.step call).delivered = w.delivered ∧ (w.step call).Waits handle ∧
          (w.step call).place handle ≤ w.place handle :=
      fun hk => ⟨hk.delivered, ⟨h.orderly.step call, hk.eligible⟩, hk.place⟩
    cases call with
    | register sessionId incarnation =>
        exact (h.register sessionId incarnation).imp_right fun hk => .inl (hkeeps hk)
    | route other trafficClass bytes event =>
        exact .inr (.inl (hkeeps (h.route other trafficClass bytes event)))
    | takeNext =>
        obtain ⟨delivery, other, -, -, hlog, hout⟩ := h.takeNext
        exact .inr (.inr ⟨(other, delivery.counted), hlog, hout⟩)
    | dropGuard index => exact .inr (.inl (hkeeps (h.dropGuard index)))
    | remove other => exact (h.remove other).imp_right fun hk => .inl (hkeeps hk)
    | close => exact .inl h.close

end World

end Attyd.Dispatch
