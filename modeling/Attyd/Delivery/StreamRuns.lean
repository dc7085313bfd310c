import Attyd.Delivery.Logs
import Attyd.Delivery.Stream

/-!
# What a subscription delivers over whole runs

The writer claims, sends or skips one item after another. After every run of the hub and the
writer, outcomes were sent in the order in which they were published, positions in strictly
increasing order, and once nothing is queued the last position sent is the last one published.
-/

namespace Attyd.Delivery

open Json (Value)

namespace Subscription

section Writer

variable {d : Subscription}

theorem Streamed.receive (h : d.Streamed) : d.receive.Streamed := by
  rw [Subscription.receive]
  split
  · next item queue hhand hqueue =>
      split
      · let d' : Subscription := { d with queue, hand := some ⟨item, none⟩ }
        have hqueued : d'.queued = d.queued := by simp [d', queued, hhand, hqueue]
        have hitems : d'.items = d.items := by rw [items, items, hqueued]
        have hplaces : d'.places = d.places := by
          have hsame : d'.queuedPlaces = d.queuedPlaces := by
            rw [queuedPlaces, queuedPlaces, handPlace, handPlace, hhand, hqueue]
            simp only [d', Option.bind_some, Option.bind_none, Option.toList_none, List.nil_append]
            cases hplace : place d.slots item <;> simp [hplace]
          rw [places, places, hsame]
          rfl
        have halive (slot : Nat) : d'.alive slot = d.alive slot := by
          rw [Bool.eq_iff_iff, mem_queued_of_alive, mem_queued_of_alive, hqueued]
        refine ⟨fun other hother => ?_, h.inactive, h.activation, h.increasing, h.current,
          fun hreceiving hrising => ?_, fun hreceiving => ?_, h.sent,
          fun hreceiving slot hheld hclaim => ?_, fun slot hweak hclaim before after hsplit => ?_,
          fun _ _ _ hhand' => (by cases hhand'), fun _ _ hhand' => (by cases hhand')⟩
        · exact h.owned other (hplaces ▸ hother)
        · exact hplaces ▸ h.last hreceiving hrising
        · exact hitems ▸ h.outcomes hreceiving
        · exact (halive slot).trans (h.reached hreceiving slot hheld hclaim)
        · exact h.replaceable slot hweak hclaim before after (hqueued ▸ hsplit)
      · exact h
  · exact h

/-- What the writer claims is sent with the position it had on its way. -/
theorem Streamed.claimAs (h : d.Streamed) {item : QueuedPayload}
    (hhand : d.hand = some ⟨item, none⟩) {claim : Value × Option SessionPosition}
    {slots : List StateSlot} {ledger : Int}
    (hplace : claim.2 = place d.slots item)
    (hothers : ∀ other ∈ d.queue ++ Publishing.items d.publishing,
      place slots other = place d.slots other)
    (hunclaimed : ∀ slot, unclaimed { d with hand := some ⟨item, some claim⟩, slots, ledger } slot →
      d.unclaimed slot)
    (hfixed : ∀ event position, item = .fixed event position → claim = (event, position))
    (hshared : ∀ slot, item = .shared slot → claim.2.isSome = true) :
    Streamed { d with hand := some ⟨item, some claim⟩, slots, ledger } := by
  let d' : Subscription := { d with hand := some ⟨item, some claim⟩, slots, ledger }
  have hqueued : d'.queued = d.queued := by simp [d', queued, hhand]
  have hitems : d'.items = d.items := by rw [items, items, hqueued]
  have hplaces : d'.places = d.places := by
    have hhub : d'.hubPlace = d.hubPlace := by
      cases hpublishing : d.publishing with
      | idle => simp [hubPlace, d', hpublishing]
      | replacing => simp [hubPlace, d', hpublishing]
      | sending sent =>
          simp only [hubPlace, d', hpublishing]
          refine hothers sent (List.mem_append_right _ ?_)
          rw [hpublishing]
          exact List.mem_singleton_self _
    have hqueue : d.queue.filterMap (place slots) = d.queue.filterMap (place d.slots) :=
      List.filterMap_congr fun other hother => hothers other (List.mem_append_left _ hother)
    rw [places, places, hhub, queuedPlaces, queuedPlaces, handPlace, handPlace, hhand]
    change d.position.toList ++ (claim.2.toList ++ d.queue.filterMap (place slots)) ++ _ = _
    rw [hplace, hqueue]
    rfl
  have halive (slot : Nat) : d'.alive slot = d.alive slot := by
    rw [Bool.eq_iff_iff, mem_queued_of_alive, mem_queued_of_alive, hqueued]
  refine ⟨fun other hother => ?_, h.inactive, h.activation, h.increasing, h.current,
    fun hreceiving hrising => ?_, fun hreceiving => ?_, h.sent,
    fun hreceiving slot hheld hclaim => ?_, fun slot hweak hclaim before after hsplit => ?_,
    fun event position claim' hhand' => ?_, fun slot claim' hhand' => ?_⟩
  · exact h.owned other (hplaces ▸ hother)
  · exact hplaces ▸ h.last hreceiving hrising
  · exact hitems ▸ h.outcomes hreceiving
  · exact (halive slot).trans (h.reached hreceiving slot hheld (hunclaimed slot hclaim))
  · exact h.replaceable slot hweak (hunclaimed slot hclaim) before after (hqueued ▸ hsplit)
  · cases hhand'
    exact hfixed event position rfl
  · cases hhand'
    exact hshared slot rfl

theorem Streamed.claim (h : d.Streamed) (hs : d.Stocked) : d.claim.Streamed := by
  rw [Subscription.claim]
  split
  · next item hhand =>
      cases item with
      | fixed event position =>
          exact h.claimAs hhand rfl (fun _ _ => rfl) (fun _ hclaim => hclaim)
            (fun _ _ he => by cases he; rfl) fun _ he => (by cases he)
      | shared slot =>
          obtain ⟨payload, position, accountedBytes, hget⟩ := hs.taken slot hhand
          simp only [hget]
          have hrest : .shared slot ∉ d.queue ++ Publishing.items d.publishing := by
            have hcount := hs.single slot
            simp only [items, queued, hhand, Option.map_some, Option.toList_some,
              List.cons_append, List.nil_append, List.count_cons_self] at hcount
            exact List.count_eq_zero.mp (by omega)
          refine h.claimAs hhand ?_ (fun other hother => ?_) (fun other hclaim => ?_)
            (fun _ _ he => (by cases he)) fun _ _ => rfl
          · simp [place, hget]
          · exact place_set_of_ne fun he => hrest (he ▸ hother)
          · by_cases he : slot = other
            · exact he ▸ ⟨payload, position, accountedBytes, hget⟩
            · obtain ⟨payload', place', accountedBytes', hget'⟩ := hclaim
              exact ⟨payload', place', accountedBytes', by simpa [List.getElem?_set_ne he] using hget'⟩
  · exact h

/-- The writer lets an item go; what it sends, and what stays on its way, is told here. -/
theorem Streamed.release (h : d.Streamed) (hs : d.Stocked) {item : QueuedPayload}
    {claim : Value × Option SessionPosition} (hhand : d.hand = some ⟨item, some claim⟩)
    {ledger : Int} {position : Option SessionPosition}
    {sent : List (Value × Option SessionPosition)} {d' : Subscription}
    (hd' : d' = { d with hand := none, ledger, position, sent })
    (howned : ∀ other ∈ d'.sentPlaces, other ∈ d.places ++ d.positions ++ d.sentPlaces)
    (hincreasing : d'.sentPlaces.Pairwise fun a b => a.viewRevision < b.viewRevision)
    (hcurrent : d'.position = d'.sentPlaces.getLast?)
    (hplaces : d'.places.Sublist d.places)
    (hlast : Rising d.places → d'.places.getLast? = d.places.getLast?)
    (houtcomes : d'.sentOutcomes ++ outcomesOf d'.items = d.sentOutcomes ++ outcomesOf d.items) :
    d'.Streamed := by
  have hqueued : d.queued = item :: d'.queued := by
    rw [hd']
    simp [queued, hhand]
  have hreceiving : d.receiving = true := by
    by_contra hclosed
    have hnil := hs.closed (by simpa using hclosed)
    rw [hqueued] at hnil
    cases hnil
  have hout := houtcomes.trans (h.outcomes hreceiving)
  have hreached (slot : Nat) (halive : d.alive slot = true) (hclaim : d.unclaimed slot) :
      d'.alive slot = true := by
    rw [mem_queued_of_alive, hqueued, List.mem_cons] at halive
    rcases halive with rfl | hmem
    · obtain ⟨payload, place, accountedBytes, hget⟩ := hclaim
      rw [hs.claimed slot claim hhand] at hget
      cases hget
    · exact mem_queued_of_alive.mpr hmem
  subst hd'
  refine ⟨fun other hother => ?_, h.inactive, h.activation, hincreasing, hcurrent,
    fun hrec hrising => ?_, fun _ => hout, ⟨_, hout⟩,
    fun hrec slot hheld hclaim => hreached slot (h.reached hrec slot hheld hclaim) hclaim,
    fun slot hweak hclaim before after hsplit => ?_, fun _ _ _ hhand' => (by cases hhand'),
    fun _ _ hhand' => (by cases hhand')⟩
  · rcases List.mem_append.mp hother with hother | hother
    · refine h.owned other ?_
      simp only [List.mem_append] at hother ⊢
      exact .inl (hother.imp (fun hmem => hplaces.subset hmem) id)
    · exact h.owned other (howned other hother)
  · obtain ⟨hold, heq⟩ := h.last hrec hrising
    exact ⟨hold.sublist hplaces, (hlast hold).trans heq⟩
  · refine h.replaceable slot hweak hclaim (item :: before) after ?_
    rw [hqueued, hsplit]
    rfl

/-- What is claimed without a position is an outcome, and what is claimed with one is none. -/
theorem Streamed.outcomesOf_hand (h : d.Streamed) {item : QueuedPayload} {payload : Value}
    {position : Option SessionPosition} (hhand : d.hand = some ⟨item, some (payload, position)⟩) :
    outcomesOf [item] = if position.isNone then [payload] else [] := by
  cases item with
  | fixed event place =>
      cases h.fixedClaim event place _ hhand
      cases position with
      | none => rfl
      | some position => rfl
  | shared slot =>
      have hsome := h.sharedClaim slot _ hhand
      cases position with
      | none => cases hsome
      | some position => rfl

theorem stale_iff {position : SessionPosition} :
    d.stale (some position) = true ↔ ∃ current, d.position = some current ∧
      current.owner = position.owner ∧ position.viewRevision ≤ current.viewRevision := by
  cases hw : d.position with
  | none => simp [stale, hw]
  | some current => simp [stale, hw]

/-- What is not stale is after everything that was sent. -/
theorem Streamed.lt_of_not_stale (h : d.Streamed) {position : SessionPosition}
    (hin : position ∈ d.places) (hstale : d.stale (some position) = false) :
    ∀ sent ∈ d.sentPlaces, sent.viewRevision < position.viewRevision := by
  intro sent hsent
  obtain ⟨before, current, hsplit⟩ :=
    (List.eq_nil_or_concat' d.sentPlaces).resolve_left (List.ne_nil_of_mem hsent)
  have hcurrent : d.position = some current := by rw [h.current, hsplit, List.getLast?_concat]
  have howner : current.owner = position.owner := by
    have hleft := h.owned current (List.mem_append_right _ (by rw [hsplit]; simp))
    have hright := h.owned position (List.mem_append_left _ (List.mem_append_left _ hin))
    exact Option.some.inj (hleft.symm.trans hright)
  have hlt : current.viewRevision < position.viewRevision := by
    by_contra hle
    have hstale' := stale_iff.mpr ⟨current, hcurrent, howner, Nat.le_of_not_lt hle⟩
    rw [hstale] at hstale'
    cases hstale'
  have hincreasing := h.increasing
  rw [hsplit] at hsent hincreasing
  rcases List.mem_append.mp hsent with hsent | hsent
  · exact ((List.pairwise_append.mp hincreasing).2.2 sent hsent current
      (List.mem_singleton_self _)).trans hlt
  · exact List.mem_singleton.mp hsent ▸ hlt

theorem Streamed.emit (h : d.Streamed) (hs : d.Stocked) : d.emit.Streamed := by
  cases hhand : d.hand with
  | none =>
      have hsame : d.emit = d := by simp [Subscription.emit, hhand]
      exact hsame.symm ▸ h
  | some hand =>
      obtain ⟨item, claimed⟩ := hand
      cases claimed with
      | none =>
          have hsame : d.emit = d := by simp [Subscription.emit, hhand]
          exact hsame.symm ▸ h
      | some claim =>
          obtain ⟨payload, position⟩ := claim
          have hemit : ∃ ledger, d.emit =
              { d with
                hand := none
                ledger
                position := if d.stale position ∨ position = none then d.position else position
                sent := if d.stale position then d.sent else d.sent ++ [(payload, position)] } := by
            cases hstale : d.stale position <;> cases item <;> cases position <;>
              simp [Subscription.emit, hhand, hstale]
          obtain ⟨ledger, hd'⟩ := hemit
          have hhub : d.emit.hubPlace = d.hubPlace := by rw [hd']; rfl
          have hqueue : d.emit.queuedPlaces = d.queue.filterMap (place d.slots) := by rw [hd']; rfl
          have hplaces : d.places = d.position.toList ++ (position.toList ++
              d.queue.filterMap (place d.slots)) ++ d.hubPlace.toList := by
            rw [places, queuedPlaces, handPlace, hhand]
            rfl
          have hplaces' : d.emit.places = d.emit.position.toList ++
              d.queue.filterMap (place d.slots) ++ d.hubPlace.toList := by
            rw [places, hqueue, hhub]
          have hitems : outcomesOf d.items =
              (if position.isNone then [payload] else []) ++ outcomesOf d.emit.items := by
            rw [← h.outcomesOf_hand hhand, outcomesOf, outcomesOf, outcomesOf,
              ← List.filterMap_append]
            congr 1
            rw [hd']
            simp [items, queued, hhand]
          have hmem {other : SessionPosition} (hother : other ∈ d.places) :
              d.owner = some other.owner :=
            h.owned other (List.mem_append_left _ (List.mem_append_left _ hother))
          cases position with
          | none =>
              -- An outcome is always sent.
              have hstale : d.stale none = false := by cases hw : d.position <;> simp [stale, hw]
              have hposition : d.emit.position = d.position := by rw [hd']; simp
              have hsent : d.emit.sent = d.sent ++ [(payload, none)] := by rw [hd']; simp [hstale]
              have hsentPlaces : d.emit.sentPlaces = d.sentPlaces := by
                simp [sentPlaces, hsent]
              have hsame : d.emit.places = d.places := by
                rw [hplaces', hposition, hplaces]
                rfl
              refine h.release hs hhand hd' (fun other hother => ?_) (hsentPlaces ▸ h.increasing) ?_
                (hsame ▸ List.Sublist.refl _) (fun _ => by rw [hsame]) ?_
              · exact List.mem_append_right _ (hsentPlaces ▸ hother)
              · rw [hposition, hsentPlaces]
                exact h.current
              · rw [hitems, sentOutcomes, hsent]
                simp [sentOutcomes]
          | some position =>
              have hout : d.emit.sentOutcomes ++ outcomesOf d.emit.items =
                  d.sentOutcomes ++ outcomesOf d.items := by
                rw [hitems]
                congr 1
                cases hstale : d.stale (some position) <;> simp [sentOutcomes, hd', hstale]
              cases hstale : d.stale (some position) with
              | true =>
                  have hposition : d.emit.position = d.position := by rw [hd']; simp [hstale]
                  have hsentPlaces : d.emit.sentPlaces = d.sentPlaces := by
                    simp [sentPlaces, hd', hstale]
                  obtain ⟨current, hcurrent, howner, hrevision⟩ := stale_iff.mp hstale
                  rw [hcurrent] at hplaces
                  rw [hposition, hcurrent] at hplaces'
                  refine h.release hs hhand hd' (fun other hother => ?_)
                    (hsentPlaces ▸ h.increasing) ?_ ?_ (fun hrising => ?_) hout
                  · exact List.mem_append_right _ (hsentPlaces ▸ hother)
                  · rw [hposition, hsentPlaces]
                    exact h.current
                  · rw [hplaces, hplaces']
                    simp
                  · -- What is skipped is the position sent last.
                    rw [hplaces] at hrising ⊢
                    have hle : current.viewRevision ≤ position.viewRevision :=
                      (List.pairwise_cons.mp hrising).1 position (by simp)
                    have hsame : position = current := by
                      cases current
                      cases position
                      simp only [SessionPosition.mk.injEq] at howner hrevision hle ⊢
                      exact ⟨howner.symm, by omega⟩
                    rw [hplaces', ← hsame]
                    simp only [List.append_assoc]
                    refine (List.getLast?_append_of_ne_nil _ ?_).symm
                    simp
              | false =>
                  have hposition : d.emit.position = some position := by rw [hd']; simp [hstale]
                  have hsentPlaces : d.emit.sentPlaces = d.sentPlaces ++ [position] := by
                    simp [sentPlaces, hd', hstale]
                  rw [hposition] at hplaces'
                  have hin : position ∈ d.places := by rw [hplaces]; simp
                  refine h.release hs hhand hd' (fun other hother => ?_) ?_ ?_ ?_ (fun _ => ?_) hout
                  · rw [hsentPlaces] at hother
                    rcases List.mem_append.mp hother with hother | hother
                    · exact List.mem_append_right _ hother
                    · cases List.mem_singleton.mp hother
                      exact List.mem_append_left _ (List.mem_append_left _ hin)
                  · rw [hsentPlaces]
                    refine List.pairwise_append.mpr ⟨h.increasing, List.pairwise_singleton _ _, ?_⟩
                    intro sent hsent other hother
                    cases List.mem_singleton.mp hother
                    exact h.lt_of_not_stale hin hstale sent hsent
                  · rw [hposition, hsentPlaces, List.getLast?_concat]
                  · rw [hplaces, hplaces', List.append_assoc, List.append_assoc, List.append_assoc]
                    exact List.sublist_append_right _ _
                  · rw [hplaces, hplaces']
                    simp only [List.append_assoc]
                    refine (List.getLast?_append_of_ne_nil _ ?_).symm
                    simp

theorem Streamed.close (h : d.Streamed) (hs : d.Stocked) : d.close.Streamed := by
  rw [Subscription.close]
  split
  · exact h
  · next hhand =>
      have hhand : d.hand = none := by simpa using hhand
      obtain ⟨slots, ledger, heq, -, hslots, -⟩ := foldl_dropItem_frame d.dropped
        { d with receiving := false, queue := [], leaseCancelled := true }
      change (d.dropped.foldl dropItem _).Streamed
      rw [heq]
      refine h.shut hhand rfl (.inl rfl) fun position hposition => ?_
      simp only [places, queuedPlaces, handPlace, hubPlace, hhand, Option.bind_none,
        Option.toList_none, List.filterMap_nil, List.nil_append, List.append_nil, List.mem_append]
        at hposition ⊢
      refine hposition.imp .inl fun hhub => ?_
      cases hpublishing : d.publishing with
      | idle => simp [hpublishing] at hhub
      | replacing => simpa [hpublishing] using hhub
      | sending item =>
          cases item with
          | fixed => simpa [hpublishing, place] using hhub
          | shared slot =>
              -- What the hub has not queued yet is not dropped.
              have hsingle := hs.single slot
              rw [items, hpublishing, List.count_append, queued, List.count_append] at hsingle
              simp only [Publishing.items, List.count_cons_self, List.count_nil] at hsingle
              have hnot : .shared slot ∉ d.dropped := fun hmem =>
                List.count_eq_zero.mp (by omega) (List.mem_filter.mp hmem).1
              have hsame : slots[slot]? = d.slots[slot]? := hslots slot hnot
              simpa [hpublishing, place, hsame] using hhub

end Writer

section Runs

variable {d : Subscription}

theorem Streamed.whenIdle (h : d.Streamed) (change : Subscription → Subscription)
    (hchange : d.publishing = .idle → (change d).Streamed) : (d.whenIdle change).Streamed := by
  rw [Subscription.whenIdle]
  split
  · next hidle => exact hchange hidle
  · exact h

theorem Streamed.step (h : d.Streamed) (hs : d.Stocked) (event : Event) : (d.step event).Streamed := by
  cases event with
  | publish canonical event =>
      exact h.whenIdle (·.publish canonical event) fun hidle => h.publish hs hidle canonical event
  | ready knownEpoch sessionId reset =>
      exact h.whenIdle (·.observerReady knownEpoch sessionId reset) fun hidle =>
        h.observerReady hidle knownEpoch sessionId reset
  | finish sessionId owner =>
      exact h.whenIdle (·.observerEnd sessionId owner) fun _ => h.observerEnd sessionId owner
  | cancelLease =>
      exact ⟨h.owned, h.inactive, h.activation, h.increasing, h.current, h.last, h.outcomes, h.sent,
        h.reached, h.replaceable, h.fixedClaim, h.sharedClaim⟩
  | unsubscribe => exact h.whenIdle Subscription.remove fun _ => h.remove
  | replace => exact h.replace hs
  | send => exact h.send hs
  | receive => exact h.receive
  | claim => exact h.claim hs
  | emit => exact h.emit hs
  | close => exact h.close hs

theorem streamed_new (sessionId : String) : (new sessionId).Streamed := by
  refine ⟨?_, ?_, ?_, ?_, ?_, ?_, ?_, ?_, ?_, ?_, ?_, ?_⟩ <;>
    simp [new, places, queuedPlaces, handPlace, hubPlace, sentPlaces, sentOutcomes, outcomesOf, items,
      queued, Publishing.items, Subscription.held, Rising]

/-- After every run the ledger and the order of delivery are right. -/
theorem run_streamed (sessionId : String) (events : List Event) :
    (run step (new sessionId) events).Stocked ∧ (run step (new sessionId) events).Streamed := by
  have hinvariant : ∀ (d : Subscription) (event : Event), d.Stocked ∧ d.Streamed → (d.step event).Stocked ∧
      (d.step event).Streamed :=
    fun d event h => ⟨h.1.step event, h.2.step h.1 event⟩
  exact run_invariant (P := fun d : Subscription => d.Stocked ∧ d.Streamed) hinvariant
    ⟨stocked_new sessionId, streamed_new sessionId⟩ events

end Runs

section Claimed

variable {d : Subscription} {slot : Nat}

theorem claimed_dropItem (h : d.slots[slot]? = some ⟨none, none, 0⟩) (item : QueuedPayload) :
    (d.dropItem item).slots[slot]? = some ⟨none, none, 0⟩ := by
  cases item with
  | fixed => exact h
  | shared other =>
      have hlt := (List.getElem?_eq_some_iff.mp h).1
      by_cases he : other = slot
      · subst he
        simp [dropItem, hlt]
      · simpa [dropItem, List.getElem?_set_ne he] using h

theorem claimed_foldl_dropItem (h : d.slots[slot]? = some ⟨none, none, 0⟩)
    (items : List QueuedPayload) :
    (items.foldl dropItem d).slots[slot]? = some ⟨none, none, 0⟩ := by
  induction items generalizing d with
  | nil => exact h
  | cons item items ih => exact ih (claimed_dropItem h item)

theorem claimed_trySendState (h : d.slots[slot]? = some ⟨none, none, 0⟩) (event : Value)
    (place : SessionPosition) :
    (d.trySendState event place).slots[slot]? = some ⟨none, none, 0⟩ :=
  (List.getElem?_append_left (List.getElem?_eq_some_iff.mp h).1).trans h

theorem claimed_replace (h : d.slots[slot]? = some ⟨none, none, 0⟩) :
    d.replace.slots[slot]? = some ⟨none, none, 0⟩ := by
  rw [Subscription.replace]
  split
  · next other next place _ =>
      cases hget : d.slots[other]? with
      | none => exact h
      | some old =>
          simp only
          cases hpayload : old.payload with
          | none => exact claimed_trySendState h next place
          | some payload =>
              have hne : other ≠ slot := by
                rintro rfl
                rw [h, Option.some.injEq] at hget
                rw [← hget] at hpayload
                cases hpayload
              simp only
              split
              · simpa [List.getElem?_set_ne hne] using h
              · exact claimed_dropItem (by simpa [List.getElem?_set_ne hne] using h) _
  · exact h

/-- Nothing is merged into a slot the writer has claimed: it stays empty. -/
theorem claimed_step (h : d.slots[slot]? = some ⟨none, none, 0⟩) (event : Event) :
    (d.step event).slots[slot]? = some ⟨none, none, 0⟩ := by
  have hidle (change : Subscription → Subscription)
      (hchange : (change d).slots[slot]? = some ⟨none, none, 0⟩) :
      (d.whenIdle change).slots[slot]? = some ⟨none, none, 0⟩ := by
    rw [whenIdle]
    split
    · exact hchange
    · exact h
  cases event with
  | publish canonical event =>
      refine hidle (·.publish canonical event) ?_
      rw [publish]
      split
      · exact h
      · split
        · exact h
        · cases d.owner with
          | none => exact h
          | some owner =>
              simp only
              split
              · exact h
              · cases event.position with
                | none => exact h
                | some place =>
                    simp only [deliverState]
                    split
                    · exact h
                    · exact claimed_trySendState h event.payload place
  | ready knownEpoch sessionId reset =>
      refine hidle (·.observerReady knownEpoch sessionId reset) ?_
      rw [observerReady]
      split
      · exact h
      · split
        · exact h
        · split <;> exact h
  | finish sessionId owner =>
      refine hidle (·.observerEnd sessionId owner) ?_
      rw [observerEnd]
      split <;> exact h
  | cancelLease => exact h
  | unsubscribe => exact hidle Subscription.remove h
  | replace => exact claimed_replace h
  | send =>
      change d.send.slots[slot]? = _
      rw [Subscription.send]
      split
      · next item _ =>
          split
          · exact h
          · exact claimed_dropItem (d := { d with publishing := .idle }) h item
      · exact h
  | receive =>
      change d.receive.slots[slot]? = _
      rw [receive]
      split
      · split <;> exact h
      · exact h
  | claim =>
      change d.claim.slots[slot]? = _
      have hlt := (List.getElem?_eq_some_iff.mp h).1
      rw [claim]
      split
      · next item _ =>
          cases item with
          | fixed => exact h
          | shared other =>
              simp only
              split
              · by_cases he : other = slot
                · subst he
                  simp [hlt]
                · simpa [List.getElem?_set_ne he] using h
              · exact h
      · exact h
  | emit =>
      change d.emit.slots[slot]? = _
      rw [emit]
      split
      · next item _ _ _ => cases item <;> (simp only; split <;> exact h)
      · exact h
  | close =>
      change d.close.slots[slot]? = _
      rw [close]
      split
      · exact h
      · exact claimed_foldl_dropItem
          (d := { d with receiving := false, queue := [], leaseCancelled := true }) h d.dropped

end Claimed

section Results

/-- Nothing is queued, and neither the hub nor the writer holds anything. -/
def Drained (d : Subscription) : Prop := d.queued = [] ∧ d.publishing = .idle

/-- What a subscription promises: outcomes leave once and in order; positions strictly increase
for each owner; once drained, the last position sent is the last one published, if revisions
never went back; a claimed slot is never written again; and the ledger is what is queued and
unclaimed, so it never underflows and ends at zero. -/
structure Delivers (d : Subscription) : Prop where
  outcomes : d.sentOutcomes <+: d.outcomes
  pending : d.receiving = true → d.sentOutcomes ++ outcomesOf d.items = d.outcomes
  increasing : ∀ owner, (d.sentPlaces.filter fun position => position.owner = owner).Pairwise
    fun a b => a.viewRevision < b.viewRevision
  latest : d.receiving = true → d.Drained → Rising d.positions →
    d.sentPlaces.getLast? = d.positions.getLast?
  unmerged : d.sound = true ∧ ∀ (event : Event) (slot : Nat),
    d.slots[slot]? = some ⟨none, none, 0⟩ → (d.step event).slots[slot]? = some ⟨none, none, 0⟩
  ledger : d.ledger = ((d.carried.map (itemBytes d.slots)).sum : Nat)
  empty : d.Drained → d.ledger = 0

theorem Streamed.delivers {d : Subscription} (h : d.Streamed) (hs : d.Stocked) : d.Delivers where
  outcomes := h.sent
  pending := h.outcomes
  increasing := fun _ => h.increasing.sublist List.filter_sublist
  latest := fun hreceiving hdrained hrising => by
    obtain ⟨hqueued, hidle⟩ := hdrained
    obtain ⟨hhand, hqueue⟩ : d.hand = none ∧ d.queue = [] := by simpa [queued] using hqueued
    have hplaces : d.places = d.position.toList := by
      simp [places, queuedPlaces, handPlace, hubPlace, hhand, hqueue, hidle]
    rw [← (h.last hreceiving hrising).2, hplaces, ← h.current]
    cases d.position <;> rfl
  unmerged := ⟨hs.sound, fun event _ hslot => claimed_step hslot event⟩
  ledger := hs.ledger
  empty := fun hdrained => by
    obtain ⟨hqueued, hidle⟩ := hdrained
    have hcarried : d.carried = [] := by
      rw [carried_of_idle (by simp [Subscription.held, hidle]), items, hqueued, hidle]
      rfl
    rw [hs.ledger, hcarried]
    rfl

/-- A subscription keeps its promises, whatever is published and whenever the writer claims; the
outcomes and positions it promises are those of the events that reach it. -/
theorem run_delivers (sessionId : String) (events : List Event) :
    let d := run step (new sessionId) events
    d.Delivers ∧ d.outcomes = outcomesIn (taken (new sessionId) events) ∧
      d.positions = positionsIn (taken (new sessionId) events) := by
  obtain ⟨hs, h⟩ := run_streamed sessionId events
  exact ⟨h.delivers hs, logs_run (new sessionId) events⟩

/-- Two changes behind a slow writer are one reset, and the outcome after them is kept. -/
example :
    let event (kind : String) (revision : Int) : Value :=
      .ofFields [("type", .string kind), ("bridgeEpoch", .string "e"), ("sessionId", .string "s"),
        ("sessionIncarnation", .number (.int 1)), ("viewRevision", .number (.int revision))]
    let delta (revision : Int) : SessionEvent :=
      .new "s" (event "bridge/session_delta" revision) true false
    let d := run step (new "s")
      [.ready none "s" (some (.new "s" (event "bridge/session_reset" 1) true true)), .send,
        .publish none (delta 2), .send,
        .publish none (.new "s" (event "bridge/session_turn_failed" 2) false false), .send,
        .publish none (delta 3), .replace,
        .receive, .claim, .emit, .receive, .claim, .emit, .receive, .claim, .emit]
    d.sentPlaces.map (·.viewRevision) = [1, 3] ∧ d.sentOutcomes = d.outcomes ∧ d.ledger = 0 := by
  decide +kernel

end Results

end Subscription

end Attyd.Delivery
