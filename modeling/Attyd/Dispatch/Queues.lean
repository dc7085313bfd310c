import Attyd.Dispatch.Usage

/-!
# What holds of the queues between two calls

The ready list names every allocation that has queued events, once, and no other.
Every call keeps this, so the passage over the ready list never meets a handle
without a queue or a queue without an event.
-/

namespace Attyd.Dispatch

namespace SessionDispatch

variable {ε : Type*}

/-- The session of a handle has events and is open under that very handle. -/
def Pending (d : SessionDispatch ε) (handle : SessionHandle) : Prop :=
  ∃ queue, d.sessions.lookup handle.sessionId = some queue ∧ queue.handle = handle ∧
    queue.queue ≠ []

/-- The queues, the ready list and the scheduled flags agree. -/
structure WellQueued (d : SessionDispatch ε) : Prop where
  sessionId : ∀ {sessionId queue}, d.sessions.lookup sessionId = some queue →
    queue.handle.sessionId = sessionId
  allocated : ∀ {sessionId queue}, d.sessions.lookup sessionId = some queue →
    queue.handle.allocation ≤ d.nextAllocation
  scheduled : ∀ {sessionId queue}, d.sessions.lookup sessionId = some queue →
    queue.scheduled = !queue.queue.isEmpty
  events : ∀ {sessionId queue}, d.sessions.lookup sessionId = some queue →
    ∀ delivery ∈ queue.queue, delivery.handle = queue.handle ∧
      delivery.guard.lease.allocation = queue.handle.allocation ∧ delivery.guard.busy = false
  distinct : ∀ {sessionId sessionId' queue queue'},
    d.sessions.lookup sessionId = some queue → d.sessions.lookup sessionId' = some queue' →
    queue.handle.allocation = queue'.handle.allocation → sessionId = sessionId'
  nodup : d.ready.Nodup
  ready : ∀ handle, handle ∈ d.ready ↔ d.Pending handle

/-- Passing over the busy handles either finds nothing else, or takes the first event
of the first handle that is not busy. -/
theorem nextReady_cases {d : SessionDispatch ε} {rest passed : List SessionHandle}
    (hready : d.ready = rest ++ passed) (hpending : ∀ handle ∈ rest, d.Pending handle) :
    ((∀ handle ∈ rest, d.busy handle.allocation = true) ∧
        nextReady rest.length d = (.nothing, { d with ready := passed ++ rest })) ∨
      ∃ pre post queue delivery queued, rest = pre ++ queue.handle :: post ∧
        (∀ handle ∈ pre, d.busy handle.allocation = true) ∧
        d.busy queue.handle.allocation = false ∧
        d.sessions.lookup queue.handle.sessionId = some queue ∧
        queue.queue = delivery :: queued ∧
        nextReady rest.length d =
          (.delivery { delivery with guard := { delivery.guard with busy := true } },
            { d with
              busy := Function.update d.busy queue.handle.allocation true
              sessions := d.sessions.insert queue.handle.sessionId
                { queue with queue := queued, scheduled := !queued.isEmpty }
              ready := post ++ passed ++ pre ++
                if queued.isEmpty then [] else [queue.handle] }) := by
  induction rest generalizing d passed with
  | nil =>
      left
      refine ⟨fun handle hh => absurd hh List.not_mem_nil, ?_⟩
      rw [List.append_nil, ← List.nil_append passed, ← hready]
      rfl
  | cons handle rest ih =>
      obtain ⟨queue, hlookup, rfl, hne⟩ := hpending handle List.mem_cons_self
      rw [List.cons_append] at hready
      cases hbusy : d.busy queue.handle.allocation with
      | true =>
          have hnext : nextReady (rest.length + 1) d =
              nextReady rest.length { d with ready := rest ++ (passed ++ [queue.handle]) } := by
            simp only [nextReady, hready, hlookup, hbusy, if_true, List.append_assoc]
          rw [List.length_cons, hnext]
          rcases ih (d := { d with ready := rest ++ (passed ++ [queue.handle]) }) rfl
              (fun h hh => hpending h (List.mem_cons_of_mem _ hh)) with
            ⟨hall, heq⟩ | ⟨pre, post, queue', delivery, queued, rfl, hpre, hfree, hl, hq, heq⟩
          · left
            refine ⟨?_, ?_⟩
            · intro h hh
              rcases List.mem_cons.mp hh with rfl | hh
              · exact hbusy
              · exact hall h hh
            · rw [heq, List.append_assoc, List.singleton_append]
          · right
            refine ⟨queue.handle :: pre, post, queue', delivery, queued, rfl, ?_, hfree, hl, hq, ?_⟩
            · exact List.forall_mem_cons.mpr ⟨hbusy, hpre⟩
            · rw [heq]
              simp
      | false =>
          right
          cases hq : queue.queue with
          | nil => exact absurd hq hne
          | cons delivery queued =>
              refine ⟨[], rest, queue, delivery, queued, rfl, List.forall_mem_nil _, hbusy, hlookup,
                hq, ?_⟩
              simp only [List.length_cons, nextReady, hready, hlookup, hbusy, hq,
                Bool.false_eq_true, if_false, List.append_nil]
              cases queued.isEmpty <;> simp

theorem WellQueued.of_same {a b : SessionDispatch ε} (h : b.WellQueued) (hs : SameQueues a b) :
    a.WellQueued := by
  obtain ⟨-, -, -, hnext, hsessions, hready⟩ := hs
  have hpending (handle : SessionHandle) : a.Pending handle ↔ b.Pending handle := by
    unfold Pending
    rw [hsessions]
  refine ⟨?_, ?_, ?_, ?_, ?_, ?_, ?_⟩
  · rw [hsessions]
    exact h.sessionId
  · rw [hsessions, hnext]
    exact h.allocated
  · rw [hsessions]
    exact h.scheduled
  · rw [hsessions]
    exact h.events
  · rw [hsessions]
    exact h.distinct
  · rw [hready]
    exact h.nodup
  · intro handle
    rw [hready, hpending]
    exact h.ready handle

/-- The handle the next allocation is opened under. -/
def nextHandle (d : SessionDispatch ε) (sessionId : String) (incarnation : Nat) : SessionHandle :=
  ⟨d.epoch, sessionId, incarnation, d.nextAllocation + 1, d.identity⟩

/-- The dispatcher with a new queue, before the former one is dropped. -/
def opened (d : SessionDispatch ε) (sessionId : String) (incarnation : Nat) : SessionDispatch ε :=
  { d with
    nextAllocation := d.nextAllocation + 1
    sessions := d.sessions.insert sessionId ⟨d.nextHandle sessionId incarnation, [], false⟩
    ready := d.ready.filter fun ready => ready.sessionId ≠ sessionId }

theorem register_cases (d : SessionDispatch ε) (sessionId : String) (incarnation : Nat) :
    (∃ answer, d.register sessionId incarnation = (answer, d)) ∨
      d.closed = false ∧ d.register sessionId incarnation =
        (.ok (d.nextHandle sessionId incarnation),
          (d.opened sessionId incarnation).dropAll
            ((d.sessions.lookup sessionId).elim 0 (·.guards))) := by
  unfold register
  by_cases hc : d.closed = true
  · exact .inl ⟨.error .closed, by rw [if_pos hc]⟩
  · rw [if_neg hc]
    refine Or.imp_right (And.intro (eq_false_of_ne_true hc)) ?_
    by_cases hn : d.nextAllocation + 1 < 2 ^ 64
    · simp only [if_pos hn]
      cases hl : d.sessions.lookup sessionId with
      | none => exact .inr rfl
      | some previous =>
          dsimp only
          split
          case isTrue => exact .inl ⟨_, rfl⟩
          case isFalse =>
            split
            · exact .inl ⟨_, rfl⟩
            · exact .inr rfl
    · simp only [if_neg hn]
      left
      split
      · exact ⟨_, rfl⟩
      · split
        · exact ⟨_, rfl⟩
        · split <;> exact ⟨_, rfl⟩

/-- Writing a session leaves the others pending as they were. -/
theorem pending_insert_of_ne {d : SessionDispatch ε} {sessionId : String} {queue : SessionQueue ε}
    {sessions : Table String (SessionQueue ε)}
    (hs : sessions = d.sessions.insert sessionId queue) {handle : SessionHandle}
    (h : handle.sessionId ≠ sessionId) {e : SessionDispatch ε} (he : e.sessions = sessions) :
    e.Pending handle ↔ d.Pending handle := by
  unfold Pending
  rw [he, hs, Finmap.lookup_insert_of_ne _ h]

theorem WellQueued.opened {d : SessionDispatch ε} (h : d.WellQueued) (sessionId : String)
    (incarnation : Nat) : (d.opened sessionId incarnation).WellQueued := by
  have hlookup {id : String} {queue : SessionQueue ε}
      (hl : (d.opened sessionId incarnation).sessions.lookup id = some queue) :
      (id = sessionId ∧ queue = ⟨d.nextHandle sessionId incarnation, [], false⟩) ∨
        (id ≠ sessionId ∧ d.sessions.lookup id = some queue) := by
    by_cases hid : id = sessionId
    · subst hid
      rw [SessionDispatch.opened, Finmap.lookup_insert] at hl
      exact .inl ⟨rfl, (Option.some.inj hl).symm⟩
    · rw [SessionDispatch.opened, Finmap.lookup_insert_of_ne _ hid] at hl
      exact .inr ⟨hid, hl⟩
  refine ⟨?_, ?_, ?_, ?_, ?_, ?_, ?_⟩
  · intro id queue hl
    rcases hlookup hl with ⟨rfl, rfl⟩ | ⟨-, hl⟩
    · rfl
    · exact h.sessionId hl
  · intro id queue hl
    rcases hlookup hl with ⟨rfl, rfl⟩ | ⟨-, hl⟩
    · exact Nat.le_refl _
    · exact Nat.le_succ_of_le (h.allocated hl)
  · intro id queue hl
    rcases hlookup hl with ⟨rfl, rfl⟩ | ⟨-, hl⟩
    · rfl
    · exact h.scheduled hl
  · intro id queue hl
    rcases hlookup hl with ⟨rfl, rfl⟩ | ⟨-, hl⟩
    · intro delivery hd
      cases hd
    · exact h.events hl
  · intro id id' queue queue' hl hl' heq
    rcases hlookup hl with ⟨hid, rfl⟩ | ⟨-, hold⟩ <;>
      rcases hlookup hl' with ⟨hid', rfl⟩ | ⟨-, hold'⟩
    · rw [hid, hid']
    · have hle := h.allocated hold'
      rw [← heq] at hle
      exact absurd hle (Nat.not_succ_le_self _)
    · have hle := h.allocated hold
      rw [heq] at hle
      exact absurd hle (Nat.not_succ_le_self _)
    · exact h.distinct hold hold' heq
  · exact h.nodup.filter _
  · intro handle
    rw [SessionDispatch.opened, List.mem_filter, decide_eq_true_iff]
    by_cases hid : handle.sessionId = sessionId
    · constructor
      · exact fun hr => absurd hid hr.2
      · rintro ⟨queue, hl, -, hne⟩
        rcases hlookup hl with ⟨-, rfl⟩ | ⟨hne', -⟩
        · exact absurd rfl hne
        · exact absurd hid hne'
    · rw [h.ready, and_iff_left hid]
      exact (pending_insert_of_ne rfl hid rfl).symm

/-- Changing the events of one queue, with its flag and its place in the ready list. -/
theorem WellQueued.requeue {d e : SessionDispatch ε} (h : d.WellQueued) {sessionId : String}
    {queue queue' : SessionQueue ε} (hl : d.sessions.lookup sessionId = some queue)
    (handle : queue'.handle = queue.handle) (scheduled : queue'.scheduled = !queue'.queue.isEmpty)
    (events : ∀ delivery ∈ queue'.queue, delivery.handle = queue.handle ∧
      delivery.guard.lease.allocation = queue.handle.allocation ∧ delivery.guard.busy = false)
    (sessions : e.sessions = d.sessions.insert sessionId queue')
    (nextAllocation : e.nextAllocation = d.nextAllocation) (nodup : e.ready.Nodup)
    (ready : ∀ other, other ∈ e.ready ↔
      if other = queue.handle then queue'.queue ≠ [] else other ∈ d.ready) : e.WellQueued := by
  have hlookup {id : String} {other : SessionQueue ε} (ho : e.sessions.lookup id = some other) :
      (id = sessionId ∧ other = queue') ∨ d.sessions.lookup id = some other := by
    rw [sessions] at ho
    by_cases hid : id = sessionId
    · rw [hid, Finmap.lookup_insert] at ho
      exact .inl ⟨hid, (Option.some.inj ho).symm⟩
    · rw [Finmap.lookup_insert_of_ne _ hid] at ho
      exact .inr ho
  have hown {id : String} {other : SessionQueue ε} (ho : e.sessions.lookup id = some other) :
      ∃ former, d.sessions.lookup id = some former ∧ former.handle = other.handle := by
    rcases hlookup ho with ⟨rfl, rfl⟩ | ho
    · exact ⟨queue, hl, handle.symm⟩
    · exact ⟨other, ho, rfl⟩
  refine ⟨?_, ?_, ?_, ?_, ?_, nodup, ?_⟩
  · intro id other ho
    obtain ⟨former, hf, heq⟩ := hown ho
    rw [← heq]
    exact h.sessionId hf
  · intro id other ho
    obtain ⟨former, hf, heq⟩ := hown ho
    rw [← heq, nextAllocation]
    exact h.allocated hf
  · intro id other ho
    rcases hlookup ho with ⟨-, rfl⟩ | ho
    · exact scheduled
    · exact h.scheduled ho
  · intro id other ho
    rcases hlookup ho with ⟨-, rfl⟩ | ho
    · rw [handle]
      exact events
    · exact h.events ho
  · intro id id' other other' ho ho' heq
    obtain ⟨former, hf, hfe⟩ := hown ho
    obtain ⟨former', hf', hfe'⟩ := hown ho'
    rw [← hfe, ← hfe'] at heq
    exact h.distinct hf hf' heq
  · intro other
    rw [ready]
    by_cases ho : other = queue.handle
    · rw [if_pos ho, ho]
      have hid := h.sessionId hl
      constructor
      · intro hne
        exact ⟨queue', by rw [sessions, hid, Finmap.lookup_insert], handle, hne⟩
      · rintro ⟨found, hfound, -, hne⟩
        rw [sessions, hid, Finmap.lookup_insert] at hfound
        rwa [Option.some.inj hfound]
    · rw [if_neg ho, h.ready]
      by_cases hid : other.sessionId = sessionId
      · constructor
        · rintro ⟨found, hfound, heq, -⟩
          rw [hid, hl] at hfound
          rw [← Option.some.inj hfound] at heq
          exact absurd heq.symm ho
        · rintro ⟨found, hfound, heq, -⟩
          rw [sessions, hid, Finmap.lookup_insert] at hfound
          rw [← Option.some.inj hfound, handle] at heq
          exact absurd heq.symm ho
      · exact (pending_insert_of_ne sessions hid rfl).symm

theorem validateHandle_eq_ok {d : SessionDispatch ε} {handle : SessionHandle}
    {queue : SessionQueue ε} (h : d.validateHandle handle = .ok queue) :
    d.closed = false ∧ d.sessions.lookup handle.sessionId = some queue ∧
      queue.handle = handle := by
  unfold validateHandle at h
  split at h
  case isTrue => cases h
  case isFalse hc =>
    split at h
    case isTrue => cases h
    case isFalse =>
      split at h
      case isTrue => cases h
      case isFalse =>
        split at h
        case h_1 => cases h
        case h_2 found hl =>
          split at h
          case isFalse => cases h
          case isTrue heq =>
            cases h
            exact ⟨eq_false_of_ne_true hc, hl, heq⟩

theorem WellQueued.removed {d : SessionDispatch ε} (h : d.WellQueued) {queue : SessionQueue ε}
    (hl : d.sessions.lookup queue.handle.sessionId = some queue) :
    ({ d with
      sessions := d.sessions.erase queue.handle.sessionId
      ready := d.ready.filter fun ready => ready ≠ queue.handle } :
        SessionDispatch ε).WellQueued := by
  have hlookup {id : String} {other : SessionQueue ε}
      (ho : (d.sessions.erase queue.handle.sessionId).lookup id = some other) :
      d.sessions.lookup id = some other := by
    by_cases hid : id = queue.handle.sessionId
    · rw [hid, Finmap.lookup_erase] at ho
      cases ho
    · rwa [Finmap.lookup_erase_ne hid] at ho
  refine ⟨fun ho => h.sessionId (hlookup ho), fun ho => h.allocated (hlookup ho),
    fun ho => h.scheduled (hlookup ho), fun ho => h.events (hlookup ho),
    fun ho ho' => h.distinct (hlookup ho) (hlookup ho'), h.nodup.filter _, ?_⟩
  intro handle
  rw [List.mem_filter, h.ready, decide_eq_true_iff]
  constructor
  · rintro ⟨⟨found, hfound, rfl, hne⟩, hother⟩
    refine ⟨found, ?_, rfl, hne⟩
    have hid : found.handle.sessionId ≠ queue.handle.sessionId := by
      intro hid
      rw [hid, hl] at hfound
      exact hother (congrArg SessionQueue.handle (Option.some.inj hfound)).symm
    change (d.sessions.erase _).lookup _ = _
    rw [Finmap.lookup_erase_ne hid]
    exact hfound
  · rintro ⟨found, hfound, rfl, hne⟩
    refine ⟨⟨found, hlookup hfound, rfl, hne⟩, ?_⟩
    intro heq
    change (d.sessions.erase _).lookup _ = _ at hfound
    rw [heq, Finmap.lookup_erase] at hfound
    cases hfound

theorem wellQueued_of_empty {d : SessionDispatch ε} (sessions : d.sessions = ∅)
    (ready : d.ready = []) : d.WellQueued := by
  have hnone {id : String} {queue : SessionQueue ε} :
      d.sessions.lookup id ≠ some queue := by
    rw [sessions, Finmap.lookup_empty]
    exact nofun
  refine ⟨fun hl => absurd hl hnone, fun hl => absurd hl hnone, fun hl => absurd hl hnone,
    fun hl => absurd hl hnone, fun hl => absurd hl hnone, ?_, ?_⟩
  · rw [ready]
    exact List.nodup_nil
  · intro handle
    rw [ready]
    constructor
    · intro hh
      cases hh
    · rintro ⟨queue, hl, -⟩
      exact absurd hl hnone

end SessionDispatch

end Attyd.Dispatch
