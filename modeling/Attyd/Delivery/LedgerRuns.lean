import Attyd.Delivery.Ledger

/-!
# The ledger over whole runs

What the writer claims, lets go or drops leaves the ledger exactly once, whatever the hub is
doing meanwhile. So after every run the ledger is what is on its way.
-/

namespace Attyd.Delivery

open Json (Value)

namespace Subscription

section Steps

variable {d : Subscription}

/-- What the hub holds and nobody else weighs. -/
def heldBytes (d : Subscription) : Nat :=
  d.held.elim 0 fun slot => if d.alive slot then 0 else itemBytes d.slots (.shared slot)

theorem sum_carried (d : Subscription) :
    (d.carried.map (itemBytes d.slots)).sum =
      (d.items.map (itemBytes d.slots)).sum + d.heldBytes := by
  rw [carried, heldBytes, List.map_append, List.sum_append]
  cases d.held with
  | none => simp
  | some slot =>
      simp only [Option.elim_some]
      split <;> simp

theorem Stocked.single_carried (h : d.Stocked) (slot : Nat) :
    d.carried.count (.shared slot) ≤ 1 := by
  have hsingle := h.single slot
  rw [carried, List.count_append]
  cases hheld : d.held with
  | none => simpa using hsingle
  | some other =>
      simp only
      split
      · simpa using hsingle
      · next halive =>
          by_cases hother : other = slot
          · subst hother
            have hnone : Publishing.items d.publishing = [] := by
              unfold Subscription.held at hheld
              split at hheld
              · next hreplacing =>
                  rw [hreplacing]
                  rfl
              · cases hheld
            have hnot : .shared other ∉ d.items := by
              rw [items, hnone, List.append_nil]
              exact mem_queued_of_alive.not.mp halive
            simp [List.count_eq_zero.mpr hnot]
          · simpa [hother] using hsingle

/-- The writer claims a payload: the item stays on its way, and a slot weighs nothing then. -/
theorem Stocked.claim (h : d.Stocked) : d.claim.Stocked := by
  rw [Subscription.claim]
  split
  · next item hhand =>
      cases item with
      | fixed event place =>
          have hqueued : queued { d with hand := some ⟨.fixed event place, some (event, place)⟩ } =
              d.queued := by
            simp [queued, hhand]
          have hitems : items { d with hand := some ⟨.fixed event place, some (event, place)⟩ } =
              d.items := by
            rw [items, items, hqueued]
          refine ⟨fun slot => ?_, fun slot hslot => ?_, h.weak, h.held, h.whole, h.fresh,
            fun slot hslot => (by cases hslot), fun slot claim hslot => (by cases hslot),
            fun hclosed => ?_, h.sound, ?_⟩
          · rw [hitems]
            exact h.single slot
          · rw [hitems] at hslot
            exact h.known slot hslot
          · rw [hqueued]
            exact h.closed hclosed
          · rw [carried_congr hqueued rfl]
            exact h.ledger
      | shared slot =>
          obtain ⟨payload, place, accountedBytes, hget⟩ := h.taken slot hhand
          have hbytes := h.itemBytes_held hget
          have hlt := (List.getElem?_eq_some_iff.mp hget).1
          have hmem : .shared slot ∈ d.queued := by simp [queued, hhand]
          have hrest : .shared slot ∉ d.queue ++ Publishing.items d.publishing := by
            have hcount := h.single slot
            simp only [items, queued, hhand, Option.map_some, Option.toList_some,
              List.cons_append, List.nil_append, List.count_cons_self] at hcount
            exact List.count_eq_zero.mp (by omega)
          let d' : Subscription :=
            { d with
              hand := some ⟨.shared slot, some (payload, some place)⟩
              slots := d.slots.set slot ⟨none, none, 0⟩
              ledger := d.ledger - accountedBytes }
          have hqueued : d'.queued = d.queued := by simp [d', queued, hhand]
          have hitems : d'.items = d.items := by rw [items, items, hqueued]
          have hkeep {other : Nat} (hother : d.unclaimed other)
              (hmem : .shared other ∈ d.queue ++ Publishing.items d.publishing) :
              d'.unclaimed other := by
            have hne : slot ≠ other := by
              rintro rfl
              exact hrest hmem
            obtain ⟨payload', place', accountedBytes', hget'⟩ := hother
            exact ⟨payload', place', accountedBytes',
              by simpa [d', List.getElem?_set_ne hne] using hget'⟩
          simp only [hget]
          refine ⟨fun other => ?_, fun other hother => ?_, fun other hweak => ?_, h.held,
            fun other hother => ?_, fun other hother => hkeep (h.fresh other hother) hother,
            fun other hother => (by cases hother), fun other claim hother => ?_,
            fun hclosed => ?_, h.sound, ?_⟩
          · exact hitems ▸ h.single other
          · have hother' := h.known other (hitems ▸ hother)
            simpa using hother'
          · simpa using h.weak other hweak
          · rcases List.mem_or_eq_of_mem_set hother with hother | rfl
            · exact h.whole other hother
            · exact .inr rfl
          · cases hother
            exact List.getElem?_set_self hlt
          · rw [h.closed hclosed] at hmem
            cases hmem
          · have hledger := h.ledger
            have hmem' : .shared slot ∈ d.carried :=
              List.mem_append_left _ (List.mem_append_left _ hmem)
            have hsum := sum_set_of_single d.slots ⟨none, none, 0⟩ hmem'
              (h.single_carried slot)
            simp only [itemBytes, hget, List.getElem?_set_self hlt, Option.bind_some,
              Option.elim_some, Option.elim_none] at hsum
            change d.ledger - accountedBytes = ((d'.carried.map (itemBytes d'.slots)).sum : Nat)
            rw [carried_congr hqueued rfl, hbytes]
            change d.ledger - payload.bytes =
              ((d.carried.map (itemBytes (d.slots.set slot ⟨none, none, 0⟩))).sum : Nat)
            omega
  · exact h

/-- The writer lets an item go: what it weighed to the end leaves the ledger. -/
theorem Stocked.release (h : d.Stocked) {item : QueuedPayload}
    {claim : Value × Option SessionPosition} (hhand : d.hand = some ⟨item, some claim⟩)
    (position : Option SessionPosition) (sent : List (Value × Option SessionPosition)) :
    Stocked
      { d with
        hand := none
        ledger := d.ledger - itemBytes d.slots item
        position
        sent } := by
  let d' : Subscription :=
    { d with hand := none, ledger := d.ledger - itemBytes d.slots item, position, sent }
  have hitems : d.items = item :: d'.items := by simp [items, queued, hhand, d']
  have hqueued : d.queued = item :: d'.queued := by simp [queued, hhand, d']
  have hheld : d'.heldBytes = d.heldBytes := by
    rw [heldBytes, heldBytes]
    change d.held.elim 0 _ = d.held.elim 0 _
    cases d.held with
    | none => rfl
    | some slot =>
        simp only [Option.elim_some]
        by_cases hslot : item = .shared slot
        · -- The slot the writer lets go is claimed, so it weighs nothing.
          have hclaimed := h.claimed slot claim (hslot ▸ hhand)
          have hzero : itemBytes d.slots (.shared slot) = 0 := by simp [itemBytes, hclaimed]
          have hzero' : itemBytes d'.slots (.shared slot) = 0 := hzero
          simp [hzero, hzero']
        · have halive : d'.alive slot = d.alive slot := by
            rw [Bool.eq_iff_iff, mem_queued_of_alive, mem_queued_of_alive, hqueued, List.mem_cons]
            simp [Ne.symm hslot]
          rw [halive]
  refine ⟨fun slot => ?_, fun slot hslot => ?_, h.weak, h.held, h.whole, h.fresh,
    fun slot hslot => (by cases hslot), fun slot claim hslot => (by cases hslot),
    fun hclosed => ?_, h.sound, ?_⟩
  · have hsingle := h.single slot
    rw [hitems, List.count_cons] at hsingle
    change d'.items.count _ ≤ 1
    omega
  · exact h.known slot (by rw [hitems]; exact List.mem_cons_of_mem _ hslot)
  · have hclosed' := h.closed hclosed
    rw [hqueued] at hclosed'
    cases hclosed'
  · have hledger := h.ledger
    rw [sum_carried, hitems, ← hheld, List.map_cons, List.sum_cons] at hledger
    have hrest : d'.ledger = ((d'.items.map (itemBytes d.slots)).sum + d'.heldBytes : Nat) := by
      change d.ledger - itemBytes d.slots item = _
      omega
    rw [sum_carried]
    exact hrest

theorem Stocked.emit (h : d.Stocked) : d.emit.Stocked := by
  rw [Subscription.emit]
  split
  · next item payload place hhand =>
      have hrelease := h.release hhand
      cases item with
      | fixed event at' =>
          simp only
          split
          · exact hrelease d.position d.sent
          · exact hrelease _ _
      | shared slot =>
          have hzero : itemBytes d.slots (.shared slot) = 0 := by
            simp [itemBytes, h.claimed slot _ hhand]
          simp only [hzero, Int.ofNat_zero, Int.sub_zero] at hrelease
          simp only
          split
          · exact hrelease d.position d.sent
          · exact hrelease _ _
  · exact h

/-- Items that are dropped leave the slots of the others as they were. -/
theorem dropItem_slots {item : QueuedPayload} {slot : Nat} (h : item ≠ .shared slot) :
    (d.dropItem item).slots[slot]? = d.slots[slot]? := by
  cases item with
  | fixed => rfl
  | shared other =>
      have hne : other ≠ slot := fun he => h (congrArg _ he)
      simp [dropItem, List.getElem?_set_ne hne]

/-- Dropping items, each slot once, takes their whole weight off the ledger. -/
theorem ledger_foldl_dropItem (items : List QueuedPayload) (d : Subscription)
    (hwhole : ∀ slot ∈ d.slots, slot.Whole) (hsingle : ∀ slot, items.count (.shared slot) ≤ 1) :
    (items.foldl dropItem d).ledger = d.ledger - ((items.map (itemBytes d.slots)).sum : Nat) := by
  induction items generalizing d with
  | nil => simp
  | cons item items ih =>
      have hrest (slot : Nat) : items.count (.shared slot) ≤ 1 := by
        have hslot := hsingle slot
        rw [List.count_cons] at hslot
        omega
      have hledger : (d.dropItem item).ledger = d.ledger - itemBytes d.slots item := by
        cases item with
        | fixed => rfl
        | shared slot =>
            cases hget : d.slots[slot]? with
            | none => simp [dropItem, itemBytes, hget]
            | some old =>
                rcases hwhole old (List.mem_of_getElem? hget) with ⟨payload, place, rfl⟩ | rfl
                · simp [dropItem, itemBytes, hget]
                · simp [dropItem, itemBytes, hget]
      have hwhole' : ∀ slot ∈ (d.dropItem item).slots, slot.Whole := by
        cases item with
        | fixed => exact hwhole
        | shared slot =>
            intro new hnew
            rcases List.mem_or_eq_of_mem_set hnew with hnew | rfl
            · exact hwhole new hnew
            · exact .inr rfl
      have hbytes : (items.map (itemBytes (d.dropItem item).slots)).sum =
          (items.map (itemBytes d.slots)).sum := by
        cases item with
        | fixed => rfl
        | shared slot =>
            refine sum_set_of_notMem (List.count_eq_zero.mp ?_)
            have hslot := hsingle slot
            rw [List.count_cons_self] at hslot
            omega
      rw [List.foldl_cons, ih _ hwhole' hrest, hledger, hbytes, List.map_cons, List.sum_cons]
      push_cast
      omega

/-- What dropping items leaves: only the ledger and the slots of what is dropped change. -/
theorem foldl_dropItem_frame (items : List QueuedPayload) (d : Subscription) :
    ∃ slots ledger, items.foldl dropItem d = { d with slots, ledger } ∧
      slots.length = d.slots.length ∧
      (∀ slot, .shared slot ∉ items → slots[slot]? = d.slots[slot]?) ∧
      ((∀ slot ∈ d.slots, slot.Whole) → ∀ slot ∈ slots, slot.Whole) := by
  induction items generalizing d with
  | nil => exact ⟨d.slots, d.ledger, rfl, rfl, fun _ _ => rfl, id⟩
  | cons item items ih =>
      obtain ⟨slots, ledger, heq, hlength, hslots, hwhole⟩ := ih (d.dropItem item)
      rw [List.foldl_cons, heq]
      cases item with
      | fixed event place =>
          exact ⟨slots, ledger, rfl, hlength, fun slot hslot => hslots slot (by simp_all), hwhole⟩
      | shared other =>
          refine ⟨slots, ledger, rfl, by simpa [dropItem] using hlength, fun slot hslot => ?_,
            fun hall => hwhole fun new hnew => ?_⟩
          · obtain ⟨hne, hrest⟩ := not_or.mp (List.mem_cons.not.mp hslot)
            exact (hslots slot hrest).trans (dropItem_slots (Ne.symm hne))
          · rcases List.mem_or_eq_of_mem_set hnew with hnew | rfl
            · exact hall new hnew
            · exact .inr rfl

/-- The items that are dropped when the writer ends. -/
def dropped (d : Subscription) : List QueuedPayload :=
  d.queue.filter fun item => d.held.all fun slot => item ≠ .shared slot

/-- What is queued is dropped, but for the slot the hub holds. -/
theorem Stocked.sum_queue (h : d.Stocked) (hhand : d.hand = none) :
    (d.queue.map (itemBytes d.slots)).sum + d.heldBytes =
      (d.dropped.map (itemBytes d.slots)).sum +
        d.held.elim 0 fun slot => itemBytes d.slots (.shared slot) := by
  rw [dropped, heldBytes]
  cases hheld : d.held with
  | none => simp
  | some slot =>
      simp only [Option.elim_some, Option.all_some]
      have hqueued : d.queued = d.queue := by simp [queued, hhand]
      have hsplit := (List.filter_append_perm (fun item => decide (item ≠ .shared slot)) d.queue).map
        (itemBytes d.slots) |>.sum_eq
      have hsame : d.queue.filter (fun item => !decide (item ≠ .shared slot)) =
          List.replicate (d.queue.count (.shared slot)) (.shared slot) := by
        rw [← List.filter_beq]
        congr 1
        funext item
        simp [Bool.beq_eq_decide_eq]
      rw [List.map_append, List.sum_append, hsame, List.map_replicate] at hsplit
      have hsingle := h.single slot
      rw [items, hqueued, List.count_append] at hsingle
      split
      · next halive =>
          have hmem := mem_queued_of_alive.mp halive
          rw [hqueued] at hmem
          have hone : d.queue.count (.shared slot) = 1 := by
            have hpos := List.count_pos_iff.mpr hmem
            omega
          rw [hone] at hsplit
          simpa using hsplit.symm
      · next halive =>
          have hnot := mem_queued_of_alive.not.mp halive
          rw [hqueued] at hnot
          rw [List.count_eq_zero.mpr hnot] at hsplit
          simpa using hsplit.symm

theorem Stocked.close (h : d.Stocked) : d.close.Stocked := by
  rw [Subscription.close]
  split
  · exact h
  · next hhand =>
      have hhand : d.hand = none := by simpa using hhand
      obtain ⟨slots, ledger, heq, hlength, hslots, hwhole⟩ := foldl_dropItem_frame d.dropped
        { d with receiving := false, queue := [], leaseCancelled := true }
      have hledger := ledger_foldl_dropItem d.dropped
        { d with receiving := false, queue := [], leaseCancelled := true } h.whole fun slot => by
          have hsingle := h.single slot
          have hcount := List.Sublist.count_le (.shared slot)
            (List.filter_sublist (p := fun item => d.held.all fun slot => item ≠ .shared slot)
              (l := d.queue))
          rw [items, List.count_append, queued, List.count_append] at hsingle
          rw [dropped]
          omega
      change (d.dropped.foldl dropItem _).Stocked
      rw [heq] at hledger ⊢
      have hledger' : ledger = d.ledger - ((d.dropped.map (itemBytes d.slots)).sum : Nat) := hledger
      have hqueued : d.queued = d.queue := by simp [queued, hhand]
      have hitems : d.items = d.queue ++ Publishing.items d.publishing := by rw [items, hqueued]
      -- What the hub holds or has not queued yet is not dropped.
      have hkept {slot : Nat} (hslot : .shared slot ∈ Publishing.items d.publishing) :
          .shared slot ∉ d.dropped := by
        have hsingle := h.single slot
        rw [hitems, List.count_append] at hsingle
        have hpos := List.count_pos_iff.mpr hslot
        exact fun hmem => List.count_eq_zero.mp (by omega) (List.mem_filter.mp hmem).1
      have hheld {slot : Nat} (hslot : d.held = some slot) : .shared slot ∉ d.dropped := by
        simp [dropped, hslot]
      have hbytes {item : QueuedPayload}
          (hitem : ∀ slot, item = .shared slot → .shared slot ∉ d.dropped) :
          itemBytes slots item = itemBytes d.slots item := by
        cases item with
        | fixed => rfl
        | shared slot => rw [itemBytes, itemBytes, hslots slot (hitem slot rfl)]
      refine ⟨fun slot => ?_, fun slot hslot => ?_, fun slot hweak => hlength ▸ h.weak slot hweak,
        h.held, hwhole h.whole, fun slot hslot => ?_, fun slot hslot => ?_, fun slot claim hslot => ?_,
        fun _ => ?_, h.sound, ?_⟩
      · have hsingle := h.single slot
        rw [hitems, List.count_append] at hsingle
        simp only [items, queued, hhand, Option.map_none, Option.toList_none, List.nil_append]
        omega
      · refine hlength ▸ h.known slot ?_
        rw [hitems]
        exact List.mem_append_right _ (by simpa [items, queued, hhand] using hslot)
      · have hmem : .shared slot ∈ Publishing.items d.publishing := by simpa using hslot
        obtain ⟨payload, place, accountedBytes, hget⟩ := h.fresh slot (List.mem_append_right _ hmem)
        exact ⟨payload, place, accountedBytes, (hslots slot (hkept hmem)).trans hget⟩
      · exact absurd (hhand.symm.trans hslot) (by simp)
      · exact absurd (hhand.symm.trans hslot) (by simp)
      · simp [queued, hhand]
      · rw [sum_carried]
        have hsum := h.sum_queue hhand
        have hold := h.ledger
        rw [sum_carried, hitems, List.map_append, List.sum_append] at hold
        have hpub : ((Publishing.items d.publishing).map (itemBytes slots)).sum =
            ((Publishing.items d.publishing).map (itemBytes d.slots)).sum := by
          congr 1
          exact List.map_congr_left fun item hitem => hbytes fun slot hslot => hkept (hslot ▸ hitem)
        let closed : Subscription :=
          { d with receiving := false, queue := [], leaseCancelled := true, slots, ledger }
        have hclosed : closed.items = Publishing.items d.publishing := by
          simp [closed, items, queued, hhand]
        have hrest : closed.heldBytes =
            d.held.elim 0 fun slot => itemBytes d.slots (.shared slot) := by
          rw [heldBytes]
          change d.held.elim 0 _ = _
          cases hslot : d.held with
          | none => rfl
          | some slot =>
              have hdead : closed.alive slot = false := by simp [closed, alive, hhand]
              simp only [Option.elim_some, hdead, Bool.false_eq_true, if_false]
              exact hbytes fun other hother => by cases hother; exact hheld hslot
        change ledger = ((closed.items.map (itemBytes slots)).sum + closed.heldBytes : Nat)
        rw [hclosed, hpub, hrest, hledger', hold]
        omega

theorem Stocked.publish (h : d.Stocked) (hidle : d.publishing = .idle)
    (canonical : Option CanonicalSession) (event : SessionEvent) :
    (d.publish canonical event).Stocked := by
  rw [Subscription.publish]
  split
  · exact h
  · split
    · exact h.remove
    · cases howner : d.owner with
      | none => exact h
      | some owner =>
          simp only
          split
          · exact h.remove
          · cases event.position with
            | some place =>
                have hrecord := h.record d.subscribed d.leaseCancelled (some owner) d.outcomes
                  (d.positions ++ [place])
                exact hrecord.deliverState hidle canonical event.payload event.reset place
            | none =>
                have hrecord := h.record d.subscribed d.leaseCancelled (some owner)
                  (d.outcomes ++ [event.payload]) d.positions
                exact hrecord.trySendAt hidle event.payload none

theorem Stocked.observerReady (h : d.Stocked) (hidle : d.publishing = .idle)
    (knownEpoch : Option String) (sessionId : String) (reset : Option SessionEvent) :
    (d.observerReady knownEpoch sessionId reset).Stocked := by
  rw [Subscription.observerReady]
  split
  · exact h
  · split
    · exact h.remove
    · next reset place _ =>
        split
        · have hrecord := h.record d.subscribed d.leaseCancelled (some place.owner) d.outcomes
            (d.positions ++ [place])
          exact hrecord.trySendAt hidle reset.payload (some place)
        · exact h.remove

theorem Stocked.observerEnd (h : d.Stocked) (sessionId : String) (owner : Option SessionOwner) :
    (d.observerEnd sessionId owner).Stocked := by
  rw [Subscription.observerEnd]
  split
  · exact h.record false d.leaseCancelled d.owner d.outcomes d.positions
  · exact h

theorem Stocked.whenIdle (h : d.Stocked) (change : Subscription → Subscription)
    (hchange : d.publishing = .idle → (change d).Stocked) : (d.whenIdle change).Stocked := by
  rw [Subscription.whenIdle]
  split
  · next hidle => exact hchange hidle
  · exact h

theorem Stocked.step (h : d.Stocked) (event : Event) : (d.step event).Stocked := by
  cases event with
  | publish canonical event => 
      exact h.whenIdle (·.publish canonical event) fun hidle => h.publish hidle canonical event
  | ready knownEpoch sessionId reset =>
      exact h.whenIdle (·.observerReady knownEpoch sessionId reset) fun hidle =>
        h.observerReady hidle knownEpoch sessionId reset
  | finish sessionId owner =>
      exact h.whenIdle (·.observerEnd sessionId owner) fun _ => h.observerEnd sessionId owner
  | cancelLease => exact h.record d.subscribed true d.owner d.outcomes d.positions
  | unsubscribe => exact h.whenIdle Subscription.remove fun _ => h.remove
  | replace => exact h.replace
  | send => exact h.send
  | receive => exact h.receive
  | claim => exact h.claim
  | emit => exact h.emit
  | close => exact h.close

theorem stocked_new (sessionId : String) : (new sessionId).Stocked := by
  refine ⟨?_, ?_, ?_, ?_, ?_, ?_, ?_, ?_, ?_, rfl, ?_⟩ <;>
    simp [new, items, queued, Publishing.items, Subscription.held, carried]

end Steps

end Subscription

end Attyd.Delivery
