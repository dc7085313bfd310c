import Attyd.Delivery.LedgerRuns

/-!
# What a subscription delivers

Outcomes leave in the order in which they were published, each once. Positions leave in
strictly increasing order, and the last one on its way is always the last one published: a
state event either joins the end or replaces the last position before it.
-/

namespace Attyd.Delivery

open Json (Value)

namespace Subscription

/-- The position an item would be sent with. -/
def place (slots : List StateSlot) : QueuedPayload → Option SessionPosition
  | .fixed _ position => position
  | .shared slot => slots[slot]?.bind (·.position)

/-- The position of what the writer holds. -/
def handPlace (d : Subscription) : Option SessionPosition :=
  d.hand.bind fun hand =>
    match hand.claimed with
    | some claim => claim.2
    | none => place d.slots hand.item

/-- The position of what the hub holds. -/
def hubPlace (d : Subscription) : Option SessionPosition :=
  match d.publishing with
  | .idle => none
  | .replacing _ _ position => some position
  | .sending item => place d.slots item

/-- The positions the writer and the queue hold, in the order in which they are sent. -/
def queuedPlaces (d : Subscription) : List SessionPosition :=
  d.handPlace.toList ++ d.queue.filterMap (place d.slots)

/-- The position sent last and those on their way. -/
def places (d : Subscription) : List SessionPosition :=
  d.position.toList ++ d.queuedPlaces ++ d.hubPlace.toList

def sentPlaces (d : Subscription) : List SessionPosition := d.sent.filterMap (·.2)

/-- What was sent without a position. -/
def sentOutcomes (d : Subscription) : List Value :=
  d.sent.filterMap fun event => if event.2.isNone then some event.1 else none

/-- The outcomes among the items. -/
def outcomesOf (items : List QueuedPayload) : List Value :=
  items.filterMap fun item =>
    match item with
    | .fixed event none => some event
    | .fixed _ (some _) | .shared _ => none

/-- The revisions never decrease. -/
def Rising (positions : List SessionPosition) : Prop :=
  positions.Pairwise fun a b => a.viewRevision ≤ b.viewRevision

/-- What holds of the order of delivery at any time. -/
structure Streamed (d : Subscription) : Prop where
  owned : ∀ position ∈ d.places ++ d.positions ++ d.sentPlaces, d.owner = some position.owner
  inactive : d.owner = none → d.stateSlot = none
  activation : ∀ event position, d.publishing = .sending (.fixed event (some position)) →
    d.stateSlot = none
  increasing : d.sentPlaces.Pairwise fun a b => a.viewRevision < b.viewRevision
  current : d.position = d.sentPlaces.getLast?
  last : d.receiving = true → Rising d.positions →
    Rising d.places ∧ d.places.getLast? = d.positions.getLast?
  outcomes : d.receiving = true → d.sentOutcomes ++ outcomesOf d.items = d.outcomes
  sent : d.sentOutcomes <+: d.outcomes
  reached : d.receiving = true → ∀ slot, d.held = some slot → d.unclaimed slot →
    d.alive slot = true
  replaceable : ∀ slot, d.stateSlot = some slot → d.unclaimed slot →
    ∀ before after, d.queued = before ++ .shared slot :: after →
      ∀ item ∈ after, ∃ event, item = .fixed event none
  fixedClaim : ∀ event position claim, d.hand = some ⟨.fixed event position, some claim⟩ →
    claim = (event, position)
  sharedClaim : ∀ slot claim, d.hand = some ⟨.shared slot, some claim⟩ → claim.2.isSome = true

section Places

variable {slots : List StateSlot} {slot : Nat} {new : StateSlot}

theorem place_set_of_ne {item : QueuedPayload} (h : item ≠ .shared slot) :
    place (slots.set slot new) item = place slots item := by
  cases item with
  | fixed => rfl
  | shared other =>
      have hne : slot ≠ other := fun he => h (congrArg _ he.symm)
      simp [place, List.getElem?_set_ne hne]

theorem place_append {item : QueuedPayload}
    (h : ∀ other, item = .shared other → other < slots.length) :
    place (slots ++ [new]) item = place slots item := by
  cases item with
  | fixed => rfl
  | shared other => simp [place, List.getElem?_append_left (h other rfl)]

theorem places_set_of_notMem {items : List QueuedPayload} (h : .shared slot ∉ items) :
    items.filterMap (place (slots.set slot new)) = items.filterMap (place slots) :=
  List.filterMap_congr fun _ hitem => place_set_of_ne fun he => h (he ▸ hitem)

theorem places_append_of_known {items : List QueuedPayload}
    (h : ∀ other, .shared other ∈ items → other < slots.length) :
    items.filterMap (place (slots ++ [new])) = items.filterMap (place slots) :=
  List.filterMap_congr fun _ hitem => place_append fun other he => h other (he ▸ hitem)

/-- A position that joins the end keeps the order, when it is not before the last one. -/
theorem rising_snoc {places positions : List SessionPosition} {position : SessionPosition}
    (hplaces : Rising places) (hlast : places.getLast? = positions.getLast?)
    (hpositions : Rising (positions ++ [position])) : Rising (places ++ [position]) := by
  refine List.pairwise_append.mpr ⟨hplaces, List.pairwise_singleton _ _, fun a ha b hb => ?_⟩
  cases List.mem_singleton.mp hb
  obtain ⟨before, last, rfl⟩ := (List.eq_nil_or_concat' places).resolve_left (List.ne_nil_of_mem ha)
  have hlast' : last ∈ positions := List.mem_of_getLast? (by rw [← hlast]; simp)
  have hbound : last.viewRevision ≤ position.viewRevision :=
    (List.pairwise_append.mp hpositions).2.2 last hlast' position (List.mem_singleton_self _)
  rcases List.mem_append.mp ha with ha | ha
  · exact ((List.pairwise_append.mp hplaces).2.2 a ha last (List.mem_singleton_self _)).trans hbound
  · cases List.mem_singleton.mp ha
    exact hbound

end Places

section Hub

variable {d : Subscription}

/-- What an outcome that is accounted for adds. -/
theorem Streamed.sendOutcome (h : d.Streamed) (hidle : d.publishing = .idle) (event : Value) :
    Streamed ({ d with outcomes := d.outcomes ++ [event] }.trySendAt event none) := by
  have hhub : d.hubPlace = none := by simp [hubPlace, hidle]
  have hplaces : ({ d with outcomes := d.outcomes ++ [event] }.trySendAt event none).places =
      d.places := by
    rw [places, places, hhub]
    rfl
  have hitems : ({ d with outcomes := d.outcomes ++ [event] }.trySendAt event none).items =
      d.items ++ [.fixed event none] := by
    have hnone : Publishing.items d.publishing = [] := by rw [hidle]; rfl
    rw [items, items, hnone, List.append_nil]
    rfl
  refine ⟨fun position hposition => ?_, h.inactive, fun _ _ hsending => ?_, h.increasing, h.current,
    fun hreceiving hrising => ?_, fun hreceiving => ?_, ?_, fun _ _ hheld => (by cases hheld),
    h.replaceable, h.fixedClaim, h.sharedClaim⟩
  · rw [hplaces] at hposition
    exact h.owned position hposition
  · cases hsending
  · rw [hplaces]
    exact h.last hreceiving hrising
  · rw [hitems, outcomesOf, List.filterMap_append]
    change d.sentOutcomes ++ (outcomesOf d.items ++ [event]) = d.outcomes ++ [event]
    rw [← List.append_assoc, h.outcomes hreceiving]
  · exact h.sent.trans (List.prefix_append _ _)

/-- The reset that starts the delivery names the owner. -/
theorem Streamed.activate (h : d.Streamed) (hidle : d.publishing = .idle)
    (howner : d.owner = none) (event : Value) (position : SessionPosition) :
    Streamed
      ({ d with
        owner := some position.owner
        positions := d.positions ++ [position] }.trySendAt event (some position)) := by
  have hnone {position : SessionPosition}
      (hposition : position ∈ d.places ++ d.positions ++ d.sentPlaces) : False := by
    have howned := h.owned position hposition
    rw [howner] at howned
    cases howned
  have hplaces : d.places = [] := List.eq_nil_iff_forall_not_mem.mpr fun other hother =>
    hnone (List.mem_append_left _ (List.mem_append_left _ hother))
  have hpositions : d.positions = [] := List.eq_nil_iff_forall_not_mem.mpr fun other hother =>
    hnone (List.mem_append_left _ (List.mem_append_right _ hother))
  have hsent : d.sentPlaces = [] := List.eq_nil_iff_forall_not_mem.mpr fun other hother =>
    hnone (List.mem_append_right _ hother)
  let d' : Subscription :=
    { d with
      owner := some position.owner
      positions := d.positions ++ [position] }.trySendAt event (some position)
  have hhub : d.hubPlace = none := by simp [hubPlace, hidle]
  have hplaces' : d'.places = [position] := by
    have hold := hplaces
    rw [places, hhub, Option.toList_none, List.append_nil] at hold
    change d.position.toList ++ d.queuedPlaces ++ [position] = [position]
    rw [hold, List.nil_append]
  have hpositions' : d'.positions = [position] := by
    change d.positions ++ [position] = [position]
    rw [hpositions, List.nil_append]
  have hsent' : d'.sentPlaces = [] := hsent
  have hitems : d'.items = d.items ++ [.fixed event (some position)] := by
    have hpublishing : Publishing.items d.publishing = [] := by rw [hidle]; rfl
    rw [items, items, hpublishing, List.append_nil]
    rfl
  refine ⟨fun other hother => ?_, fun hnot => (by cases hnot), fun _ _ _ => h.inactive howner,
    h.increasing, h.current, fun _ _ => ?_, fun hreceiving => ?_, h.sent,
    fun _ _ hheld => (by cases hheld), h.replaceable, h.fixedClaim, h.sharedClaim⟩
  · change other ∈ d'.places ++ d'.positions ++ d'.sentPlaces at hother
    rw [hplaces', hpositions', hsent'] at hother
    simp only [List.append_nil, List.mem_append, List.mem_singleton, or_self] at hother
    rw [hother]
    rfl
  · change Rising d'.places ∧ d'.places.getLast? = d'.positions.getLast?
    rw [hplaces', hpositions']
    exact ⟨List.pairwise_singleton _ _, rfl⟩
  · change d'.sentOutcomes ++ outcomesOf d'.items = d.outcomes
    rw [hitems, outcomesOf, List.filterMap_append]
    have hout := h.outcomes hreceiving
    change d.sentOutcomes ++ (outcomesOf d.items ++ []) = d.outcomes
    rwa [List.append_nil]

/-- The hub writes slots and moves on, and what is on its way stays as it is or loses positions
that are published again later. -/
theorem Streamed.rewrite (h : d.Streamed) {publishing : Publishing} {slots : List StateSlot}
    {ledger : Int} {d' : Subscription} (hd' : d' = { d with publishing, slots, ledger })
    (hplaces : d'.places.Sublist d.places)
    (hlast : d.receiving = true → d'.places.getLast? = d.places.getLast?)
    (hitems : outcomesOf d'.items = outcomesOf d.items)
    (hunclaimed : ∀ slot, d.stateSlot = some slot → d'.unclaimed slot → d.unclaimed slot)
    (hactivation : ∀ event place, d'.publishing ≠ .sending (.fixed event (some place)))
    (hheld : d'.held = none) : d'.Streamed := by
  subst hd'
  refine ⟨fun other hother => ?_, h.inactive,
    fun event place hsending => absurd hsending (hactivation event place), h.increasing, h.current,
    fun hreceiving hrising => ?_, fun hreceiving => ?_, h.sent, fun _ slot hslot => ?_,
    fun slot hweak hclaim => h.replaceable slot hweak (hunclaimed slot hweak hclaim), h.fixedClaim,
    h.sharedClaim⟩
  · refine h.owned other ?_
    simp only [List.mem_append] at hother ⊢
    exact hother.imp (Or.imp (fun hmem => hplaces.subset hmem) id) id
  · obtain ⟨hold, heq⟩ := h.last hreceiving hrising
    exact ⟨hold.sublist hplaces, (hlast hreceiving).trans heq⟩
  · rw [hitems]
    exact h.outcomes hreceiving
  · rw [hheld] at hslot
    cases hslot

/-- A position of the owner is published; the hub holds it next. -/
theorem Streamed.publishState (h : d.Streamed) {position : SessionPosition}
    (howner : d.owner = some position.owner) {publishing : Publishing} {slots : List StateSlot}
    {ledger : Int} {d' : Subscription}
    (hd' : d' =
      { d with positions := d.positions ++ [position], publishing, slots, ledger })
    (hplaces : d'.places = d.places ++ [position])
    (hitems : outcomesOf d'.items = outcomesOf d.items)
    (hunclaimed : ∀ slot, d.stateSlot = some slot → d'.unclaimed slot → d.unclaimed slot)
    (hactivation : ∀ event place, d'.publishing ≠ .sending (.fixed event (some place)))
    (hreached : ∀ slot, d'.held = some slot → d'.alive slot = true) : d'.Streamed := by
  subst hd'
  refine ⟨fun other hother => ?_, h.inactive,
    fun event place hsending => absurd hsending (hactivation event place), h.increasing, h.current,
    fun hreceiving hrising => ?_, fun hreceiving => ?_, h.sent,
    fun _ slot hheld _ => hreached slot hheld,
    fun slot hweak hclaim => h.replaceable slot hweak (hunclaimed slot hweak hclaim), h.fixedClaim,
    h.sharedClaim⟩
  · by_cases hother' : other = position
    · rw [hother']
      exact howner
    · refine h.owned other ?_
      rw [hplaces] at hother
      simp only [List.mem_append, List.mem_singleton, hother', or_false] at hother ⊢
      exact hother
  · obtain ⟨hold, hlast⟩ := h.last hreceiving (List.pairwise_append.mp hrising).1
    rw [hplaces]
    refine ⟨rising_snoc hold hlast hrising, ?_⟩
    rw [List.getLast?_concat, List.getLast?_concat]
  · rw [hitems]
    exact h.outcomes hreceiving

/-- What a new slot at the end leaves of the positions on their way. -/
theorem queuedPlaces_append (hs : d.Stocked) {new : StateSlot} {d' : Subscription}
    (hslots : d'.slots = d.slots ++ [new]) (hhand : d'.hand = d.hand) (hqueue : d'.queue = d.queue) :
    d'.queuedPlaces = d.queuedPlaces := by
  have hknown (slot : Nat) (hmem : .shared slot ∈ d.queued) : slot < d.slots.length :=
    hs.known slot (List.mem_append_left _ hmem)
  have hplace : d'.handPlace = d.handPlace := by
    rw [handPlace, handPlace, hhand, hslots]
    cases hhand' : d.hand with
    | none => rfl
    | some hand =>
        simp only [Option.bind_some]
        cases hand.claimed with
        | some claim => rfl
        | none =>
            refine place_append fun other hother => hknown other ?_
            simp [queued, hhand', hother]
  rw [queuedPlaces, queuedPlaces, hplace, hqueue, hslots]
  congr 1
  exact places_append_of_known fun other hother =>
    hknown other (List.mem_append_right _ hother)

theorem unclaimed_of_append {new : StateSlot} {slot : Nat} {d' : Subscription}
    (hslots : d'.slots = d.slots ++ [new]) (hlt : slot < d.slots.length)
    (h : d'.unclaimed slot) : d.unclaimed slot := by
  obtain ⟨payload, place, accountedBytes, hget⟩ := h
  rw [hslots, List.getElem?_append_left hlt] at hget
  exact ⟨payload, place, accountedBytes, hget⟩

theorem Streamed.deliverState (h : d.Streamed) (hs : d.Stocked) (hidle : d.publishing = .idle)
    (canonical : Option CanonicalSession) (event : Value) (reset : Bool)
    {position : SessionPosition} (howner : d.owner = some position.owner) :
    ({ d with positions := d.positions ++ [position] }.deliverState canonical event reset
      position).Streamed := by
  have hhub : d.hubPlace = none := by simp [hubPlace, hidle]
  have hnone : Publishing.items d.publishing = [] := by rw [hidle]; rfl
  have hplaces : d.places = d.position.toList ++ d.queuedPlaces := by
    rw [places, hhub, Option.toList_none, List.append_nil]
  rw [Subscription.deliverState]
  split
  · next slot hslot =>
      obtain ⟨-, halive⟩ := Option.filter_eq_some_iff.mp hslot
      refine h.publishState howner rfl ?_ ?_ (fun _ _ hclaim => hclaim) (fun _ _ => by simp)
        fun other hother => ?_
      · rw [hplaces]
        rfl
      · rw [items, items, hnone]
        rfl
      · cases hother
        exact halive
  · refine h.publishState howner rfl ?_ ?_ (fun slot hweak hclaim => ?_) (fun _ _ => by
      simp [trySendState]) fun _ hheld => (by cases hheld)
    · have hqueued : ({ d with positions := d.positions ++ [position] }.trySendState event
          position).queuedPlaces = d.queuedPlaces := queuedPlaces_append hs rfl rfl rfl
      rw [hplaces, places, hqueued]
      simp [hubPlace, trySendState, place]
    · rw [items, items, hnone]
      simp [trySendState, Publishing.items, outcomesOf, queued]
    · exact unclaimed_of_append rfl (hs.weak slot hweak) hclaim

theorem Streamed.remove (h : d.Streamed) : d.remove.Streamed :=
  ⟨h.owned, h.inactive, h.activation, h.increasing, h.current, h.last, h.outcomes, h.sent, h.reached,
    h.replaceable, h.fixedClaim, h.sharedClaim⟩

theorem Streamed.publish (h : d.Streamed) (hs : d.Stocked) (hidle : d.publishing = .idle)
    (canonical : Option CanonicalSession) (event : SessionEvent) :
    (d.publish canonical event).Streamed := by
  rw [Subscription.publish]
  split
  · exact h
  · split
    · exact h.remove
    · cases howner : d.owner with
      | none => exact h
      | some owner =>
          simp only
          split
          · exact h.remove
          · next hsame =>
              rw [not_not] at hsame
              cases hposition : event.position with
              | some position =>
                  -- The owner of the event is the one its position names.
                  have hplaced := event.placed position hposition
                  rw [hsame, ← howner] at hplaced
                  exact howner ▸ h.deliverState hs hidle canonical event.payload event.reset hplaced
              | none => exact howner ▸ h.sendOutcome hidle event.payload

theorem Streamed.observerReady (h : d.Streamed) (hidle : d.publishing = .idle)
    (knownEpoch : Option String) (sessionId : String) (reset : Option SessionEvent) :
    (d.observerReady knownEpoch sessionId reset).Streamed := by
  rw [Subscription.observerReady]
  split
  · exact h
  · next hnone =>
      have howner : d.owner = none := by
        simp only [Bool.or_eq_true, not_or, Option.isSome_iff_ne_none, ne_eq, not_not] at hnone
        exact hnone.2
      split
      · exact h.remove
      · next reset position _ =>
          split
          · exact h.activate hidle howner reset.payload position
          · exact h.remove

theorem Streamed.observerEnd (h : d.Streamed) (sessionId : String) (owner : Option SessionOwner) :
    (d.observerEnd sessionId owner).Streamed := by
  rw [Subscription.observerEnd]
  split
  · exact ⟨h.owned, h.inactive, h.activation, h.increasing, h.current, h.last, h.outcomes, h.sent,
      h.reached, h.replaceable, h.fixedClaim, h.sharedClaim⟩
  · exact h

/-- What is behind a slot that can be replaced has no position, so its position is the last. -/
theorem Streamed.queuedPlaces_of_alive (h : d.Streamed) (hs : d.Stocked) {slot : Nat}
    (hweak : d.stateSlot = some slot) (halive : d.alive slot = true)
    {payload : Value} {position : SessionPosition} {accountedBytes : Nat}
    (hget : d.slots[slot]? = some ⟨some payload, some position, accountedBytes⟩) :
    ∃ before, d.queuedPlaces = before ++ [position] ∧
      ∀ (d' : Subscription) (new : StateSlot), d'.slots = d.slots.set slot new → d'.hand = d.hand →
        d'.queue = d.queue → d'.queuedPlaces = before ++ new.position.toList := by
  have hlt := (List.getElem?_eq_some_iff.mp hget).1
  obtain ⟨before, after, hsplit⟩ := List.append_of_mem (mem_queued_of_alive.mp halive)
  have hafter := h.replaceable slot hweak ⟨payload, position, accountedBytes, hget⟩ before after hsplit
  have hsingle := hs.single slot
  rw [items, hsplit, List.count_append, List.count_append, List.count_cons_self] at hsingle
  have hnot : .shared slot ∉ before := List.count_eq_zero.mp (by omega)
  have hnone (slots : List StateSlot) : after.filterMap (place slots) = [] := by
    refine List.filterMap_eq_nil_iff.mpr fun item hitem => ?_
    obtain ⟨event, rfl⟩ := hafter item hitem
    rfl
  have hsplitPlaces (new : StateSlot) (before : List QueuedPayload) (hnot : .shared slot ∉ before) :
      (before ++ .shared slot :: after).filterMap (place (d.slots.set slot new)) =
        before.filterMap (place d.slots) ++ new.position.toList := by
    rw [List.filterMap_append, List.filterMap_cons, hnone, places_set_of_notMem hnot]
    cases hnew : new.position <;> simp [place, hlt, hnew]
  have hsame : d.slots.set slot ⟨some payload, some position, accountedBytes⟩ = d.slots := by
    rw [← List.getElem_of_getElem? hget |>.2]
    exact List.set_getElem_self hlt
  cases hhand : d.hand with
  | none =>
      have hqueue : d.queue = before ++ .shared slot :: after := by
        simpa [queued, hhand] using hsplit
      refine ⟨before.filterMap (place d.slots), ?_, fun d' new hslots hhand' hqueue' => ?_⟩
      · have hold := hsplitPlaces ⟨some payload, some position, accountedBytes⟩ before hnot
        rw [hsame] at hold
        simpa [queuedPlaces, handPlace, hhand, hqueue] using hold
      · rw [queuedPlaces, handPlace, hhand', hqueue', hslots, hqueue, hsplitPlaces new before hnot]
        rfl
  | some hand =>
      rw [queued, hhand, Option.map_some, Option.toList_some, List.singleton_append] at hsplit
      cases before with
      | nil =>
          obtain ⟨hitem, hqueue⟩ := List.cons.inj hsplit
          have hclaimed : hand.claimed = none := by
            by_contra hsome
            obtain ⟨claim, hclaim⟩ := Option.ne_none_iff_exists'.mp hsome
            have hempty := hs.claimed slot claim (by rw [hhand, ← hitem, ← hclaim])
            rw [hget] at hempty
            cases hempty
          refine ⟨[], ?_, fun d' new hslots hhand' hqueue' => ?_⟩
          · simp [queuedPlaces, handPlace, hhand, hclaimed, hitem, place, hget, hqueue, hnone]
          · rw [queuedPlaces, handPlace, hhand', hqueue', hslots, hqueue, hnone]
            simp [hclaimed, hitem, place, hlt]
      | cons item before =>
          have hitem : hand.item = item := (List.cons.inj hsplit).1
          have hqueue : d.queue = before ++ .shared slot :: after := (List.cons.inj hsplit).2
          obtain ⟨hne, hrest⟩ := not_or.mp (List.mem_cons.not.mp hnot)
          have hhandPlace (d' : Subscription) (new : StateSlot)
              (hslots : d'.slots = d.slots.set slot new) (hhand' : d'.hand = some hand) :
              d'.handPlace = d.handPlace := by
            rw [handPlace, handPlace, hhand', hhand, hslots]
            simp only [Option.bind_some]
            cases hand.claimed with
            | some claim => rfl
            | none => exact place_set_of_ne fun he => hne (he.symm.trans hitem)
          refine ⟨d.handPlace.toList ++ before.filterMap (place d.slots), ?_,
            fun d' new hslots hhand' hqueue' => ?_⟩
          · have hold := hsplitPlaces ⟨some payload, some position, accountedBytes⟩ before hrest
            rw [hsame] at hold
            rw [queuedPlaces, hqueue, hold, List.append_assoc]
            rfl
          · rw [queuedPlaces, hhandPlace d' new hslots hhand', hqueue', hslots, hqueue,
              hsplitPlaces new before hrest, List.append_assoc]

theorem Streamed.replace (h : d.Streamed) (hs : d.Stocked) : d.replace.Streamed := by
  rw [Subscription.replace]
  split
  · next slot next position hreplacing =>
      have hheld : d.held = some slot := by simp [Subscription.held, hreplacing]
      have hweak := hs.held slot hheld
      have hlt := hs.weak slot hweak
      have hnone : Publishing.items d.publishing = [] := by rw [hreplacing]; rfl
      have hhub : d.hubPlace = some position := by simp [hubPlace, hreplacing]
      obtain ⟨old, hold⟩ : ∃ old, d.slots[slot]? = some old := ⟨_, List.getElem?_eq_getElem hlt⟩
      simp only [hold]
      rcases hs.whole old (List.mem_of_getElem? hold) with ⟨payload, place', rfl⟩ | rfl
      · have hunclaimed : d.unclaimed slot := ⟨payload, place', payload.bytes, hold⟩
        simp only
        split
        · next halive =>
            obtain ⟨before, hbefore, hafter⟩ := h.queuedPlaces_of_alive hs hweak halive hold
            have hqueued := hafter
              { d with
                publishing := .idle
                slots := d.slots.set slot ⟨some next, some position, next.bytes⟩
                ledger := d.ledger + next.bytes - payload.bytes }
              ⟨some next, some position, next.bytes⟩ rfl rfl rfl
            refine h.rewrite rfl ?_ (fun _ => ?_) ?_ (fun other hother _ => ?_)
              (fun _ _ => by simp) rfl
            · rw [places, places, hqueued, hbefore, hhub]
              simp [hubPlace]
            · rw [places, places, hqueued, hbefore, hhub]
              simp [hubPlace]
            · rw [items, items, hnone]
              rfl
            · rw [hweak, Option.some.injEq] at hother
              exact hother ▸ hunclaimed
        · next halive =>
            have hreceiving : d.receiving = false := by
              by_contra hopen
              exact halive (h.reached (by simpa using hopen) slot hheld hunclaimed)
            obtain ⟨hhand, hqueue⟩ : d.hand = none ∧ d.queue = [] := by
              simpa [queued] using hs.closed hreceiving
            refine h.rewrite rfl ?_ (fun hopen => ?_) ?_ (fun other _ hother => ?_)
              (fun _ _ => by simp [dropItem]) rfl
            · simp [places, queuedPlaces, handPlace, dropItem, hubPlace, hhand, hqueue]
            · rw [hreceiving] at hopen
              cases hopen
            · rw [items, items, hnone]
              simp [queued, dropItem, hhand, hqueue, Publishing.items]
            · by_cases he : slot = other
              · exact he ▸ hunclaimed
              · obtain ⟨payload', place', accountedBytes, hget⟩ := hother
                refine ⟨payload', place', accountedBytes, ?_⟩
                simpa [dropItem, List.getElem?_set_ne he] using hget
      · -- The writer owns the slot, so the position moves on in a new one.
        have hqueued : (d.trySendState next position).queuedPlaces = d.queuedPlaces :=
          queuedPlaces_append hs rfl rfl rfl
        have hsame : (d.trySendState next position).places = d.places := by
          rw [places, places, hqueued, hhub]
          simp [hubPlace, trySendState, place]
        refine h.rewrite rfl (hsame ▸ List.Sublist.refl _) (fun _ => by rw [hsame]) ?_
          (fun other hother hclaim => unclaimed_of_append rfl (hs.weak other hother) hclaim)
          (fun _ _ => by simp [trySendState]) rfl
        rw [items, items, hnone]
        simp [trySendState, Publishing.items, outcomesOf, queued]
  · exact h

/-- An item joins the queue: it is where the hub had it, and a new slot is the last one. -/
theorem Streamed.queue (h : d.Streamed) (hs : d.Stocked) {item : QueuedPayload}
    (hsending : d.publishing = .sending item) {stateSlot : Option Nat}
    (hslot : (∃ slot, item = .shared slot ∧ stateSlot = some slot) ∨
      (∃ event place, item = .fixed event place ∧ stateSlot = d.stateSlot))
    (hactive : d.owner = none → stateSlot = none) :
    Streamed { d with publishing := .idle, queue := d.queue ++ [item], stateSlot } := by
  let d' : Subscription := { d with publishing := .idle, queue := d.queue ++ [item], stateSlot }
  have hone : Publishing.items d.publishing = [item] := by rw [hsending]; rfl
  have hitems : d'.items = d.items := by
    rw [items, items, hone]
    simp [d', queued, Publishing.items]
  have hqueued : d'.queued = d.queued ++ [item] := by simp [d', queued]
  have hplaces : d'.places = d.places := by
    have hhub : d.hubPlace = place d.slots item := by simp [hubPlace, hsending]
    have hhand : d'.handPlace = d.handPlace := rfl
    rw [places, places, hhub, queuedPlaces, queuedPlaces, hhand]
    simp only [d', hubPlace, List.filterMap_append, Option.toList_none, List.append_nil,
      List.append_assoc]
    congr 3
  refine ⟨fun other hother => ?_, hactive, fun _ _ hother => (by cases hother), h.increasing, h.current,
    fun hreceiving hrising => ?_, fun hreceiving => ?_, h.sent, fun _ _ hheld => (by cases hheld),
    fun slot hweak hclaim before after hsplit => ?_, h.fixedClaim, h.sharedClaim⟩
  · exact h.owned other (hplaces ▸ hother)
  · exact hplaces ▸ h.last hreceiving hrising
  · exact hitems ▸ h.outcomes hreceiving
  · change d'.queued = _ at hsplit
    rcases hslot with ⟨slot', rfl, rfl⟩ | ⟨event, place', rfl, rfl⟩
    · -- The slot is the last one, and on its way once.
      cases hweak
      have hsingle := hs.single slot
      rw [items, hone, ← hqueued, hsplit, List.count_append, List.count_cons_self] at hsingle
      have hnot : .shared slot ∉ after := List.count_eq_zero.mp (by omega)
      rcases List.eq_nil_or_concat' after with rfl | ⟨rest, last, rfl⟩
      · exact fun item hitem => (by cases hitem)
      · rw [hqueued, ← List.cons_append, ← List.append_assoc] at hsplit
        have hlast := List.append_inj_right' hsplit rfl
        exact absurd (by rw [← List.singleton_inj.mp hlast]; simp) hnot
    · have hnone : place' = none := by
        by_contra hsome
        obtain ⟨position, rfl⟩ := Option.ne_none_iff_exists'.mp hsome
        rw [h.activation event position hsending] at hweak
        cases hweak
      subst hnone
      rcases List.eq_nil_or_concat' after with rfl | ⟨rest, last, rfl⟩
      · exact fun item hitem => (by cases hitem)
      · rw [hqueued, ← List.cons_append, ← List.append_assoc] at hsplit
        have hrest := List.append_inj_left' hsplit rfl
        have hlast := List.append_inj_right' hsplit rfl
        intro other hother
        rcases List.mem_append.mp hother with hother | hother
        · exact h.replaceable slot hweak hclaim before rest hrest other hother
        · cases List.mem_singleton.mp hother
          exact ⟨event, (List.singleton_inj.mp hlast).symm⟩

/-- Once nobody receives, nothing more is sent, and nothing is queued. -/
theorem Streamed.shut (h : d.Streamed) (hhand : d.hand = none) {publishing : Publishing}
    {slots : List StateSlot} {ledger : Int} {subscribed leaseCancelled : Bool} {d' : Subscription}
    (hd' : d' =
      { d with
        subscribed, leaseCancelled, publishing, slots, ledger
        receiving := false
        queue := [] })
    (hpublishing : publishing = d.publishing ∨ publishing = .idle)
    (hplaces : ∀ position ∈ d'.places, position ∈ d.places) : d'.Streamed := by
  subst hd'
  refine ⟨fun other hother => ?_, h.inactive, fun event position hsending => ?_, h.increasing,
    h.current, fun hreceiving => (by cases hreceiving), fun hreceiving => (by cases hreceiving), h.sent,
    fun hreceiving => (by cases hreceiving), fun slot _ _ before after hsplit => ?_, h.fixedClaim,
    h.sharedClaim⟩
  · refine h.owned other ?_
    simp only [List.mem_append] at hother ⊢
    exact hother.imp (Or.imp (hplaces other) id) id
  · rcases hpublishing with rfl | rfl
    · exact h.activation event position hsending
    · cases hsending
  · simp [queued, hhand] at hsplit

theorem Streamed.send (h : d.Streamed) (hs : d.Stocked) : d.send.Streamed := by
  rw [Subscription.send]
  split
  · next item hsending =>
      split
      · refine h.queue hs hsending ?_ fun hnone => ?_
        · cases item with
          | fixed event place => exact .inr ⟨event, place, rfl, rfl⟩
          | shared slot => exact .inl ⟨slot, rfl, rfl⟩
        · cases item with
          | fixed event place => exact h.inactive hnone
          | shared slot =>
              -- Without an owner there is no position on its way.
              obtain ⟨payload, position, accountedBytes, hget⟩ := hs.fresh slot
                (List.mem_append_right _ (by rw [hsending]; exact List.mem_singleton_self _))
              have hmem : position ∈ d.places := by
                simp [places, hubPlace, hsending, place, hget]
              have howned := h.owned position (List.mem_append_left _ (List.mem_append_left _ hmem))
              rw [hnone] at howned
              cases howned
      · next hclosed =>
          have hclosed' : d.receiving = false := by simpa using hclosed
          obtain ⟨hhand, hqueue⟩ : d.hand = none ∧ d.queue = [] := by
            simpa [queued] using hs.closed hclosed'
          have hdropped : (dropItem { d with publishing := .idle } item).remove =
              { d with
                subscribed := false
                leaseCancelled := true
                publishing := .idle
                slots := (dropItem { d with publishing := .idle } item).slots
                ledger := (dropItem { d with publishing := .idle } item).ledger
                receiving := false
                queue := [] } := by
            cases item <;> simp [dropItem, Subscription.remove, hclosed', hqueue]
          refine h.shut hhand hdropped (.inr rfl) fun position hposition => ?_
          rw [hdropped] at hposition
          have hsent : position ∈ d.position.toList := by
            simpa [places, queuedPlaces, handPlace, hubPlace, hhand] using hposition
          exact List.mem_append_left _ (List.mem_append_left _ hsent)
  · exact h

end Hub

end Subscription

end Attyd.Delivery
