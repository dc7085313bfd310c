import Attyd.Delivery.Subscription

/-!
# The ledger of a subscription

The ledger is what the payloads weigh that are on their way and not yet let go: in the hand
of the hub, in the queue, and in the hand of the writer. A slot is on its way once, and weighs
nothing once its payload is claimed.
-/

namespace Attyd.Delivery

open Json (Value)

/-- A slot has a payload, a position and their account together, or nothing. -/
def StateSlot.Whole (slot : StateSlot) : Prop :=
  (∃ payload place, slot = ⟨some payload, some place, payload.bytes⟩) ∨ slot = ⟨none, none, 0⟩

namespace Subscription

/-- What an item on its way weighs. -/
def itemBytes (slots : List StateSlot) : QueuedPayload → Nat
  | .fixed event _ => event.bytes
  | .shared slot => (slots[slot]?.bind (·.payload)).elim 0 (·.bytes)

/-- What the hub has accounted for and not yet queued. -/
def Publishing.items : Publishing → List QueuedPayload
  | .sending item => [item]
  | .idle | .replacing _ _ _ => []

/-- The items the writer and the queue hold, in the order in which they are sent. -/
def queued (d : Subscription) : List QueuedPayload := (d.hand.map (·.item)).toList ++ d.queue

/-- The items on their way, in the order in which they are sent. -/
def items (d : Subscription) : List QueuedPayload := d.queued ++ Publishing.items d.publishing

/-- The items on their way, with the slot that only the hub still holds. -/
def carried (d : Subscription) : List QueuedPayload :=
  d.items ++
    match d.held with
    | some slot => if d.alive slot then [] else [.shared slot]
    | none => []

/-- Whether the payload of a slot can still be replaced. -/
def unclaimed (d : Subscription) (slot : Nat) : Prop :=
  ∃ payload place accountedBytes, d.slots[slot]? = some ⟨some payload, some place, accountedBytes⟩

/-- What holds of the slots and the ledger at any time. -/
structure Stocked (d : Subscription) : Prop where
  single : ∀ slot, d.items.count (.shared slot) ≤ 1
  known : ∀ slot, .shared slot ∈ d.items → slot < d.slots.length
  weak : ∀ slot, d.stateSlot = some slot → slot < d.slots.length
  held : ∀ slot, d.held = some slot → d.stateSlot = some slot
  whole : ∀ slot ∈ d.slots, slot.Whole
  fresh : ∀ slot, .shared slot ∈ d.queue ++ Publishing.items d.publishing → d.unclaimed slot
  taken : ∀ slot, d.hand = some ⟨.shared slot, none⟩ → d.unclaimed slot
  claimed : ∀ slot claim, d.hand = some ⟨.shared slot, some claim⟩ →
    d.slots[slot]? = some ⟨none, none, 0⟩
  closed : d.receiving = false → d.queued = []
  sound : d.sound = true
  ledger : d.ledger = ((d.carried.map (itemBytes d.slots)).sum : Nat)

section Items

variable {slots : List StateSlot} {slot : Nat} {new : StateSlot}

theorem itemBytes_set_of_ne {item : QueuedPayload} (h : item ≠ .shared slot) :
    itemBytes (slots.set slot new) item = itemBytes slots item := by
  cases item with
  | fixed => rfl
  | shared other =>
      have hne : slot ≠ other := fun he => h (congrArg _ he.symm)
      simp [itemBytes, List.getElem?_set_ne hne]

theorem itemBytes_append {item : QueuedPayload}
    (h : ∀ other, item = .shared other → other < slots.length) :
    itemBytes (slots ++ [new]) item = itemBytes slots item := by
  cases item with
  | fixed => rfl
  | shared other => simp [itemBytes, List.getElem?_append_left (h other rfl)]

theorem sum_set_of_notMem {items : List QueuedPayload} (h : .shared slot ∉ items) :
    (items.map (itemBytes (slots.set slot new))).sum = (items.map (itemBytes slots)).sum := by
  congr 1
  refine List.map_congr_left fun item hitem => itemBytes_set_of_ne ?_
  rintro rfl
  exact h hitem

theorem sum_append_of_known {items : List QueuedPayload}
    (h : ∀ other, .shared other ∈ items → other < slots.length) :
    (items.map (itemBytes (slots ++ [new]))).sum = (items.map (itemBytes slots)).sum := by
  congr 1
  refine List.map_congr_left fun item hitem => itemBytes_append fun other he => ?_
  exact h other (he ▸ hitem)

/-- A slot that is on its way once changes the whole weight by its own. -/
theorem sum_set_of_single (slots : List StateSlot) (new : StateSlot)
    {items : List QueuedPayload} (hmem : .shared slot ∈ items)
    (hsingle : items.count (.shared slot) ≤ 1) :
    (items.map (itemBytes (slots.set slot new))).sum + itemBytes slots (.shared slot) =
      (items.map (itemBytes slots)).sum + itemBytes (slots.set slot new) (.shared slot) := by
  obtain ⟨before, after, rfl⟩ := List.append_of_mem hmem
  rw [List.count_append, List.count_cons_self] at hsingle
  have hbefore : .shared slot ∉ before := List.count_eq_zero.mp (by omega)
  have hafter : .shared slot ∉ after := List.count_eq_zero.mp (by omega)
  simp only [List.map_append, List.map_cons, List.sum_append, List.sum_cons,
    sum_set_of_notMem hbefore, sum_set_of_notMem hafter]
  omega

end Items

section Steps

variable {d : Subscription}

theorem carried_of_idle (h : d.held = none) : d.carried = d.items := by
  simp [carried, h]

theorem Stocked.itemBytes_held (h : d.Stocked) {slot : Nat} {payload : Value}
    {place : SessionPosition} {accountedBytes : Nat}
    (hslot : d.slots[slot]? = some ⟨some payload, some place, accountedBytes⟩) :
    accountedBytes = payload.bytes := by
  rcases h.whole _ (List.mem_of_getElem? hslot) with ⟨payload', place', heq⟩ | heq
  · cases heq
    rfl
  · cases heq

/-- The hub accounts for an event it will queue as it is. -/
theorem Stocked.trySendAt (h : d.Stocked) (hidle : d.publishing = .idle) (event : Value)
    (place : Option SessionPosition) : (d.trySendAt event place).Stocked := by
  have hitems : (d.trySendAt event place).items = d.items ++ [.fixed event place] := by
    simp [items, Subscription.trySendAt, queued, hidle, Publishing.items]
  refine ⟨fun slot => ?_, fun slot hslot => ?_, h.weak, fun _ hheld => (by cases hheld), h.whole,
    fun slot hslot => ?_, h.taken, h.claimed, h.closed, h.sound, ?_⟩
  · rw [hitems, List.count_append]
    simpa using h.single slot
  · rw [hitems] at hslot
    exact h.known slot (by simpa using hslot)
  · refine h.fresh slot ?_
    simpa [Subscription.trySendAt, Publishing.items, hidle] using hslot
  · have hheld : d.held = none := by simp [Subscription.held, hidle]
    rw [carried_of_idle rfl, hitems]
    have hledger := h.ledger
    rw [carried_of_idle hheld] at hledger
    simp only [Subscription.trySendAt, hledger, List.map_append, List.map_cons, List.map_nil,
      List.sum_append, List.sum_cons, List.sum_nil, itemBytes]
    push_cast
    omega

/-- The hub makes a new slot, when it holds no payload that could be replaced. -/
theorem Stocked.trySendState (h : d.Stocked)
    (hpublishing : d.publishing = .idle ∨ ∃ slot next place,
      d.publishing = .replacing slot next place ∧ d.slots[slot]? = some ⟨none, none, 0⟩)
    (event : Value) (place : SessionPosition) : (d.trySendState event place).Stocked := by
  have hnone : Publishing.items d.publishing = [] := by
    rcases hpublishing with hidle | ⟨slot, next, place, hreplacing, -⟩
    · rw [hidle]
      rfl
    · rw [hreplacing]
      rfl
  have hsame : d.items = d.queued := by rw [items, hnone, List.append_nil]
  have hitems : (d.trySendState event place).items = d.items ++ [.shared d.slots.length] := by
    rw [hsame]
    rfl
  have hnew : .shared d.slots.length ∉ d.items := fun hmem => (h.known _ hmem).false
  have hold {slot : Nat} (hslot : d.unclaimed slot) : (d.trySendState event place).unclaimed slot := by
    obtain ⟨payload, place', accountedBytes, hget⟩ := hslot
    have hlt := (List.getElem?_eq_some_iff.mp hget).1
    exact ⟨payload, place', accountedBytes,
      (List.getElem?_append_left hlt).trans hget⟩
  refine ⟨fun slot => ?_, fun slot hslot => ?_, fun slot hweak => ?_,
    fun _ hheld => (by cases hheld), fun slot hslot => ?_, fun slot hslot => ?_,
    fun slot hhand => hold (h.taken slot hhand), fun slot claim hhand => ?_, h.closed, h.sound, ?_⟩
  · rw [hitems, List.count_append]
    by_cases hslot : slot = d.slots.length
    · subst hslot
      simp [List.count_eq_zero.mpr hnew]
    · simpa [Ne.symm hslot] using h.single slot
  · simp only [Subscription.trySendState, List.length_append, List.length_singleton]
    rw [hitems, List.mem_append, List.mem_singleton] at hslot
    rcases hslot with hslot | hslot
    · exact (h.known slot hslot).trans (Nat.lt_succ_self _)
    · cases hslot
      exact Nat.lt_succ_self _
  · have hlt := h.weak slot hweak
    simp only [Subscription.trySendState, List.length_append, List.length_singleton]
    omega
  · rcases List.mem_append.mp hslot with hslot | hslot
    · exact h.whole slot hslot
    · rw [List.mem_singleton.mp hslot]
      exact .inl ⟨event, place, rfl⟩
  · rcases List.mem_append.mp hslot with hslot | hslot
    · exact hold (h.fresh slot (List.mem_append_left _ hslot))
    · cases List.mem_singleton.mp hslot
      exact ⟨event, place, event.bytes, by simp [Subscription.trySendState]⟩
  · have hget := h.claimed slot claim hhand
    have hlt := (List.getElem?_eq_some_iff.mp hget).1
    exact (List.getElem?_append_left hlt).trans hget
  · have hcarried : (d.carried.map (itemBytes d.slots)).sum =
        (d.items.map (itemBytes d.slots)).sum := by
      rcases hpublishing with hidle | ⟨slot, next, place, hreplacing, hclaimed⟩
      · rw [carried_of_idle (by simp [Subscription.held, hidle])]
      · rw [carried]
        simp only [Subscription.held, hreplacing, List.map_append, List.sum_append]
        split
        · simp
        · simp [itemBytes, hclaimed]
    rw [carried_of_idle rfl, hitems]
    have hledger := h.ledger
    rw [hcarried] at hledger
    simp only [Subscription.trySendState, hledger, List.map_append, List.map_cons, List.map_nil,
      List.sum_append, List.sum_cons, List.sum_nil, sum_append_of_known h.known]
    simp [itemBytes]

/-- The hub holds a slot that is alive. -/
theorem Stocked.hold (h : d.Stocked) (hidle : d.publishing = .idle) {slot : Nat}
    (hweak : d.stateSlot = some slot) (halive : d.alive slot = true) (next : Value)
    (place : SessionPosition) :
    Stocked { d with publishing := .replacing slot next place } := by
  have hnone : Publishing.items d.publishing = [] := by rw [hidle]; rfl
  have hitems : items { d with publishing := .replacing slot next place } = d.items := by
    rw [items, items, hnone]
    rfl
  refine ⟨fun other => ?_, fun other hother => ?_, h.weak, fun other hheld => ?_, h.whole,
    fun other hother => ?_, h.taken, h.claimed, h.closed, h.sound, ?_⟩
  · rw [hitems]
    exact h.single other
  · rw [hitems] at hother
    exact h.known other hother
  · cases hheld
    exact hweak
  · refine h.fresh other ?_
    rw [hnone]
    exact hother
  · have halive' : alive { d with publishing := .replacing slot next place } slot = true := halive
    have hledger := h.ledger
    rw [carried_of_idle (by simp [Subscription.held, hidle])] at hledger
    rw [carried, hitems]
    simpa [Subscription.held, halive'] using hledger

theorem Stocked.deliverState (h : d.Stocked) (hidle : d.publishing = .idle)
    (canonical : Option CanonicalSession) (event : Value) (reset : Bool) (place : SessionPosition) :
    (d.deliverState canonical event reset place).Stocked := by
  rw [Subscription.deliverState]
  split
  · next slot hslot =>
      obtain ⟨hweak, halive⟩ := Option.filter_eq_some_iff.mp hslot
      exact h.hold hidle hweak halive _ place
  · exact h.trySendState (.inl hidle) event place

theorem Stocked.remove (h : d.Stocked) : d.remove.Stocked :=
  ⟨h.single, h.known, h.weak, h.held, h.whole, h.fresh, h.taken, h.claimed, h.closed, h.sound,
    h.ledger⟩

/-- What is kept for the theorems, and the ends of the subscription, do not matter here. -/
theorem Stocked.record (h : d.Stocked) (subscribed leaseCancelled : Bool)
    (owner : Option SessionOwner) (outcomes : List Value) (positions : List SessionPosition) :
    Stocked { d with subscribed, leaseCancelled, owner, outcomes, positions } :=
  ⟨h.single, h.known, h.weak, h.held, h.whole, h.fresh, h.taken, h.claimed, h.closed, h.sound,
    h.ledger⟩

theorem mem_queued_of_alive {slot : Nat} : d.alive slot = true ↔ .shared slot ∈ d.queued := by
  simp only [alive, queued, Bool.or_eq_true, decide_eq_true_eq, List.mem_append, Option.mem_toList,
    Option.map_eq_some_iff, Option.any_eq_true]
  exact or_comm

/-- A slot is written, and the hub holds nothing. What is still on its way has its payload. -/
theorem Stocked.writeSlot (h : d.Stocked) {slot : Nat} {old new : StateSlot} {ledger : Int}
    (hold : d.slots[slot]? = some old) (hunclaimed : d.unclaimed slot)
    (hnone : Publishing.items d.publishing = []) (hwhole : new.Whole)
    (hfresh : new.payload = none → .shared slot ∉ d.queued)
    (hledger : ledger = ((d.queued.map (itemBytes (d.slots.set slot new))).sum : Nat)) :
    Stocked { d with publishing := .idle, slots := d.slots.set slot new, ledger } := by
  have hsame : d.items = d.queued := by rw [items, hnone, List.append_nil]
  have hitems : items { d with publishing := .idle, slots := d.slots.set slot new, ledger } =
      d.queued := List.append_nil _
  have hlt := (List.getElem?_eq_some_iff.mp hold).1
  have hkeep {other : Nat} (hother : d.unclaimed other) (hmem : .shared other ∈ d.queued) :
      unclaimed { d with publishing := .idle, slots := d.slots.set slot new, ledger } other := by
    by_cases he : slot = other
    · subst he
      rcases hwhole with ⟨payload, place, rfl⟩ | rfl
      · exact ⟨payload, place, payload.bytes, by simp [hlt]⟩
      · exact absurd hmem (hfresh rfl)
    · obtain ⟨payload, place, accountedBytes, hget⟩ := hother
      exact ⟨payload, place, accountedBytes, by simpa [List.getElem?_set_ne he] using hget⟩
  refine ⟨fun other => ?_, fun other hother => ?_, fun other hweak => ?_,
    fun _ hheld => (by cases hheld), fun other hother => ?_, fun other hother => ?_,
    fun other hhand => ?_, fun other claim hhand => ?_, h.closed, h.sound, ?_⟩
  · rw [hitems, ← hsame]
    exact h.single other
  · rw [hitems, ← hsame] at hother
    simpa using h.known other hother
  · simpa using h.weak other hweak
  · rcases List.mem_or_eq_of_mem_set hother with hother | rfl
    · exact h.whole other hother
    · exact hwhole
  · have hmem : .shared other ∈ d.queue := by simpa [Publishing.items] using hother
    exact hkeep (h.fresh other (List.mem_append_left _ hmem)) (List.mem_append_right _ hmem)
  · have hhand' : d.hand = some ⟨.shared other, none⟩ := hhand
    exact hkeep (h.taken other hhand) (by simp [queued, hhand'])
  · have hclaimed := h.claimed other claim hhand
    have hne : slot ≠ other := by
      rintro rfl
      obtain ⟨payload, place, accountedBytes, hget⟩ := hunclaimed
      rw [hget] at hclaimed
      cases hclaimed
    simpa [List.getElem?_set_ne hne] using hclaimed
  · rw [carried_of_idle rfl, hitems]
    exact hledger

theorem Stocked.replace (h : d.Stocked) : d.replace.Stocked := by
  rw [Subscription.replace]
  split
  · next slot next place hreplacing =>
      have hheld : d.held = some slot := by simp [Subscription.held, hreplacing]
      have hlt := h.weak slot (h.held slot hheld)
      have hnone : Publishing.items d.publishing = [] := by rw [hreplacing]; rfl
      have hsame : d.items = d.queued := by rw [items, hnone, List.append_nil]
      obtain ⟨old, hold⟩ : ∃ old, d.slots[slot]? = some old := ⟨_, List.getElem?_eq_getElem hlt⟩
      simp only [hold]
      rcases h.whole old (List.mem_of_getElem? hold) with ⟨payload, place', rfl⟩ | rfl
      · have hunclaimed : d.unclaimed slot := ⟨payload, place', payload.bytes, hold⟩
        have hledger := h.ledger
        rw [carried, hheld, hsame] at hledger
        simp only
        split
        · next halive =>
            simp only [halive, if_true, List.append_nil] at hledger
            refine h.writeSlot hold hunclaimed hnone (.inl ⟨next, place, rfl⟩)
              (fun hpayload => (by cases hpayload)) ?_
            have hsum := sum_set_of_single d.slots ⟨some next, some place, next.bytes⟩
              (mem_queued_of_alive.mp halive) (hsame ▸ h.single slot)
            simp only [itemBytes, hold, List.getElem?_set_self hlt, Option.bind_some,
              Option.elim_some] at hsum
            omega
        · next halive =>
            have hnot : .shared slot ∉ d.queued := mem_queued_of_alive.not.mp halive
            simp only [halive, Bool.false_eq_true, if_false, List.map_append, List.sum_append] at hledger
            simp only [dropItem, List.set_set]
            refine h.writeSlot hold hunclaimed hnone (.inr rfl) (fun _ => hnot) ?_
            rw [sum_set_of_notMem hnot]
            simp only [List.getElem?_set_self hlt, Option.elim_some]
            simp only [List.map_cons, List.map_nil, List.sum_cons, List.sum_nil, itemBytes, hold,
              Option.bind_some, Option.elim_some] at hledger
            omega
      · exact h.trySendState (.inr ⟨slot, next, place, hreplacing, hold⟩) next place
  · exact h

theorem carried_congr {d' : Subscription} (hqueued : d'.queued = d.queued)
    (hpublishing : d'.publishing = d.publishing) : d'.carried = d.carried := by
  have halive (slot : Nat) : d'.alive slot = d.alive slot := by
    rw [Bool.eq_iff_iff, mem_queued_of_alive, mem_queued_of_alive, hqueued]
  simp only [carried, items, Subscription.held, hqueued, hpublishing, halive]

/-- The writer takes an item that is queued; it stays on its way. -/
theorem Stocked.receive (h : d.Stocked) : d.receive.Stocked := by
  rw [Subscription.receive]
  split
  · next item queue hhand hqueue =>
      split
      · next hreceiving =>
          have hqueued : queued { d with queue, hand := some ⟨item, none⟩ } = d.queued := by
            simp [queued, hhand, hqueue]
          have hitems : items { d with queue, hand := some ⟨item, none⟩ } = d.items := by
            rw [items, items, hqueued]
          have hold {slot : Nat} (hmem : .shared slot ∈ d.queue) : d.unclaimed slot :=
            h.fresh slot (List.mem_append_left _ hmem)
          refine ⟨fun slot => ?_, fun slot hslot => ?_, h.weak, h.held, h.whole, fun slot hslot => ?_,
            fun slot hslot => ?_, fun slot claim hslot => ?_, fun hclosed => ?_, h.sound, ?_⟩
          · rw [hitems]
            exact h.single slot
          · rw [hitems] at hslot
            exact h.known slot hslot
          · rcases List.mem_append.mp hslot with hslot | hslot
            · exact hold (by rw [hqueue]; exact List.mem_cons_of_mem _ hslot)
            · exact h.fresh slot (List.mem_append_right _ hslot)
          · cases hslot
            exact hold (by rw [hqueue]; exact List.mem_cons_self ..)
          · cases hslot
          · rw [Bool.and_eq_true] at hreceiving
            exact absurd (hreceiving.1.symm.trans hclosed) (by simp)
          · rw [carried_congr hqueued rfl]
            exact h.ledger
      · exact h
  · exact h

/-- An item that is queued stays on its way. -/
theorem Stocked.queue (h : d.Stocked) {item : QueuedPayload} (hsending : d.publishing = .sending item)
    (hreceiving : d.receiving = true) {stateSlot : Option Nat}
    (hweak : ∀ slot, stateSlot = some slot → d.stateSlot = some slot ∨ item = .shared slot) :
    Stocked { d with publishing := .idle, queue := d.queue ++ [item], stateSlot } := by
  have hone : Publishing.items d.publishing = [item] := by rw [hsending]; rfl
  have hitems : items { d with publishing := .idle, queue := d.queue ++ [item], stateSlot } =
      d.items := by
    rw [items, items, hone]
    simp [queued, Publishing.items]
  refine ⟨fun slot => ?_, fun slot hslot => ?_, fun slot hslot => ?_, fun _ hheld => (by cases hheld),
    h.whole, fun slot hslot => ?_, h.taken, h.claimed, fun hclosed => ?_, h.sound, ?_⟩
  · rw [hitems]
    exact h.single slot
  · rw [hitems] at hslot
    exact h.known slot hslot
  · rcases hweak slot hslot with hold | rfl
    · exact h.weak slot hold
    · exact h.known slot (by simp [items, hone])
  · refine h.fresh slot ?_
    rw [hone]
    simpa [Publishing.items] using hslot
  · exact absurd (hreceiving.symm.trans hclosed) (by simp)
  · rw [carried_of_idle rfl, hitems]
    have hledger := h.ledger
    rwa [carried_of_idle (by simp [Subscription.held, hsending])] at hledger

/-- The last item on its way is dropped, since nobody receives it. -/
theorem Stocked.dropLast (h : d.Stocked) {item : QueuedPayload}
    (hsending : d.publishing = .sending item) (hclosed : d.receiving = false) :
    ({ d with publishing := .idle }.dropItem item).Stocked := by
  have hqueued := h.closed hclosed
  obtain ⟨hhand, hqueue⟩ : d.hand = none ∧ d.queue = [] := by
    simpa [queued] using hqueued
  have hledger := h.ledger
  rw [carried_of_idle (by simp [Subscription.held, hsending]), items, hqueued, hsending] at hledger
  cases item with
  | fixed event place =>
      have hitems : items ({ d with publishing := .idle }.dropItem (.fixed event place)) = [] := by
        simp [items, queued, dropItem, hhand, hqueue, Publishing.items]
      refine ⟨fun slot => by simp [hitems], fun slot hslot => by simp [hitems] at hslot, h.weak,
        fun _ hheld => (by cases hheld), h.whole, fun slot hslot => ?_, h.taken, h.claimed, h.closed,
        h.sound, ?_⟩
      · simp [dropItem, hqueue, Publishing.items] at hslot
      · rw [carried_of_idle rfl, hitems]
        simp [Publishing.items, itemBytes] at hledger
        simp [dropItem, hledger]
  | shared slot =>
      have hitems : items ({ d with publishing := .idle }.dropItem (.shared slot)) = [] := by
        simp [items, queued, dropItem, hhand, hqueue, Publishing.items]
      obtain ⟨payload, place, accountedBytes, hget⟩ :=
        h.fresh slot (List.mem_append_right _ (by rw [hsending]; exact List.mem_singleton_self _))
      have hbytes := h.itemBytes_held hget
      refine ⟨fun other => by simp [hitems], fun other hother => by simp [hitems] at hother,
        fun other hweak => ?_, fun _ hheld => (by cases hheld), fun other hother => ?_,
        fun other hother => ?_, fun other hother => ?_, fun other claim hother => ?_, h.closed,
        h.sound, ?_⟩
      · simpa [dropItem] using h.weak other hweak
      · rcases List.mem_or_eq_of_mem_set hother with hother | rfl
        · exact h.whole other hother
        · exact .inr rfl
      · simp [dropItem, hqueue, Publishing.items] at hother
      · simp [dropItem, hhand] at hother
      · simp [dropItem, hhand] at hother
      · rw [carried_of_idle rfl, hitems]
        simp [Publishing.items, itemBytes, hget] at hledger
        simp [dropItem, hledger, hget, hbytes]

theorem Stocked.send (h : d.Stocked) : d.send.Stocked := by
  rw [Subscription.send]
  split
  · next item hsending =>
      split
      · next hreceiving =>
          refine h.queue hsending hreceiving fun slot hslot => ?_
          cases item with
          | fixed => exact .inl hslot
          | shared other =>
              cases hslot
              exact .inr rfl
      · next hclosed => exact (h.dropLast hsending (by simpa using hclosed)).remove
  · exact h

end Steps

end Subscription

end Attyd.Delivery
