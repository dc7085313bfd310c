import Attyd.Delivery.Subscription

/-!
# What reaches a subscriber

The logs of a subscription hold the outcomes and the positions of the events that reach it: those
of its session and its owner that are published while it is subscribed, and the reset that starts
the delivery.

## Implementation notes

`takes` says what reaches the subscriber by the state before the step alone. `logs_run` is the only
link between the logs and the events of a run, so what is promised of the logs is promised of the
events.
-/

namespace Attyd.Delivery

open Json (Value)

namespace Subscription

/-- Whether the hub is done with the event before. -/
def idle (d : Subscription) : Bool :=
  match d.publishing with
  | .idle => true
  | _ => false

/-- What the subscriber takes of what happens: an event of its session and its owner, or the reset
that starts the delivery. -/
def takes (d : Subscription) : Event → Option SessionEvent
  | .publish _ event =>
      if d.idle ∧ d.subscribed = true ∧ event.sessionId = d.sessionId ∧ d.leaseCancelled = false ∧
          d.owner.isSome = true ∧ event.owner = d.owner then
        some event
      else none
  | .ready knownEpoch sessionId reset =>
      if d.idle ∧ d.subscribed = true ∧ sessionId = d.sessionId ∧ d.leaseCancelled = false ∧
          d.owner = none then
        reset.filter fun reset => reset.sessionId = d.sessionId ∧ reset.position.any fun place =>
          knownEpoch.all fun epoch => epoch = place.owner.epoch
      else none
  | _ => none

/-- What the subscriber takes along a run. -/
def taken : Subscription → List Event → List SessionEvent
  | _, [] => []
  | d, event :: events => (d.takes event).toList ++ taken (d.step event) events

/-- The payloads of the events without a position. -/
def outcomesIn (events : List SessionEvent) : List Value :=
  (events.filter (·.position.isNone)).map (·.payload)

/-- The positions of the events. -/
def positionsIn (events : List SessionEvent) : List SessionPosition :=
  events.filterMap (·.position)

/-- Nothing is added to the logs. -/
def SameLogs (d d' : Subscription) : Prop := d'.outcomes = d.outcomes ∧ d'.positions = d.positions

theorem sameLogs_dropItem (d : Subscription) (item : QueuedPayload) :
    SameLogs d (d.dropItem item) := by
  cases item <;> exact ⟨rfl, rfl⟩

theorem sameLogs_foldl_dropItem (d : Subscription) (items : List QueuedPayload) :
    SameLogs d (items.foldl dropItem d) := by
  induction items generalizing d with
  | nil => exact ⟨rfl, rfl⟩
  | cons item items ih =>
      obtain ⟨houtcomes, hpositions⟩ := sameLogs_dropItem d item
      obtain ⟨houtcomes', hpositions'⟩ := ih (d.dropItem item)
      exact ⟨houtcomes'.trans houtcomes, hpositions'.trans hpositions⟩

theorem sameLogs_deliverState (d : Subscription) (canonical : Option CanonicalSession)
    (event : Value) (reset : Bool) (place : SessionPosition) :
    SameLogs d (d.deliverState canonical event reset place) := by
  rw [deliverState]
  split <;> exact ⟨rfl, rfl⟩

/-- Of what the hub and the writer do, only what is published and what starts the delivery adds to
the logs. -/
theorem sameLogs_step (d : Subscription) (event : Event)
    (hpublish : ∀ canonical session, event ≠ .publish canonical session)
    (hready : ∀ knownEpoch sessionId reset, event ≠ .ready knownEpoch sessionId reset) :
    SameLogs d (d.step event) := by
  cases event with
  | publish canonical session => exact absurd rfl (hpublish canonical session)
  | ready knownEpoch sessionId reset => exact absurd rfl (hready knownEpoch sessionId reset)
  | finish sessionId owner =>
      rw [step, whenIdle]
      split
      · rw [observerEnd]
        split <;> exact ⟨rfl, rfl⟩
      · exact ⟨rfl, rfl⟩
  | cancelLease => exact ⟨rfl, rfl⟩
  | unsubscribe =>
      rw [step, whenIdle]
      split <;> exact ⟨rfl, rfl⟩
  | replace =>
      rw [step, Subscription.replace]
      split
      · split
        · exact ⟨rfl, rfl⟩
        · split
          · exact ⟨rfl, rfl⟩
          · dsimp only
            split
            · exact ⟨rfl, rfl⟩
            · exact sameLogs_dropItem _ _
      · exact ⟨rfl, rfl⟩
  | send =>
      rw [step, Subscription.send]
      split
      · split
        · exact ⟨rfl, rfl⟩
        · exact sameLogs_dropItem { d with publishing := .idle } _
      · exact ⟨rfl, rfl⟩
  | receive =>
      rw [step, Subscription.receive]
      split
      · split <;> exact ⟨rfl, rfl⟩
      · exact ⟨rfl, rfl⟩
  | claim =>
      rw [step, Subscription.claim]
      split
      · split
        · exact ⟨rfl, rfl⟩
        · split <;> exact ⟨rfl, rfl⟩
      · exact ⟨rfl, rfl⟩
  | emit =>
      rw [step, Subscription.emit]
      split
      · next item _ _ _ => cases item <;> (dsimp only; split <;> exact ⟨rfl, rfl⟩)
      · exact ⟨rfl, rfl⟩
  | close =>
      rw [step, Subscription.close]
      split
      · exact ⟨rfl, rfl⟩
      · exact sameLogs_foldl_dropItem
          { d with receiving := false, queue := [], leaseCancelled := true } _

/-- What an event adds to the logs is what the subscriber takes of it. -/
def Logs (d d' : Subscription) (event : Event) : Prop :=
  d'.outcomes = d.outcomes ++ outcomesIn (d.takes event).toList ∧
    d'.positions = d.positions ++ positionsIn (d.takes event).toList

theorem SameLogs.logs {d d' : Subscription} {event : Event} (h : SameLogs d d')
    (htakes : d.takes event = none) : Logs d d' event := by
  rw [Logs, htakes, h.1, h.2]
  simp [outcomesIn, positionsIn]

theorem logs_publish {d : Subscription} (hidle : d.idle = true)
    (canonical : Option CanonicalSession) (session : SessionEvent) :
    Logs d (d.publish canonical session) (.publish canonical session) := by
  rw [Subscription.publish]
  split
  · next hforeign =>
      refine SameLogs.logs ⟨rfl, rfl⟩ (if_neg fun htakes => ?_)
      simp [htakes.2.1, htakes.2.2.1] at hforeign
  · next hown =>
      simp only [Bool.or_eq_true, Bool.not_eq_true', decide_eq_true_iff, not_or,
        Bool.not_eq_false, not_not] at hown
      split
      · next hcancelled =>
          refine SameLogs.logs ⟨rfl, rfl⟩ (if_neg fun htakes => ?_)
          simp [htakes.2.2.2.1] at hcancelled
      · next hcancelled =>
          split
          · next hnone =>
              refine SameLogs.logs ⟨rfl, rfl⟩ (if_neg fun htakes => ?_)
              simp [hnone] at htakes
          · next owner howner =>
              split
              · next hother =>
                  refine SameLogs.logs ⟨rfl, rfl⟩ (if_neg fun htakes => ?_)
                  exact hother (htakes.2.2.2.2.2.trans howner)
              · next hsame =>
                  have htakes : d.takes (.publish canonical session) = some session :=
                    if_pos ⟨hidle, hown.1, hown.2, by simpa using hcancelled, by rw [howner]; rfl,
                      (not_not.mp hsame).trans howner.symm⟩
                  rw [Logs, htakes]
                  split
                  · next place hplace =>
                      obtain ⟨houtcomes, hpositions⟩ := sameLogs_deliverState
                        { d with positions := d.positions ++ [place] } canonical session.payload
                        session.reset place
                      rw [houtcomes, hpositions]
                      simp [outcomesIn, positionsIn, hplace]
                  · next hplace => simp [outcomesIn, positionsIn, hplace, trySendAt]

theorem logs_observerReady {d : Subscription} (hidle : d.idle = true) (knownEpoch : Option String)
    (sessionId : String) (reset : Option SessionEvent) :
    Logs d (d.observerReady knownEpoch sessionId reset) (.ready knownEpoch sessionId reset) := by
  rw [observerReady]
  split
  · next hstarted =>
      refine SameLogs.logs ⟨rfl, rfl⟩ (if_neg fun htakes => ?_)
      simp [htakes.2.1, htakes.2.2.2.2] at hstarted
  · next hwaiting =>
      simp only [Bool.or_eq_true, Bool.not_eq_true', not_or, Bool.not_eq_false,
        Bool.not_eq_true, Option.isSome_eq_false_iff, Option.isNone_iff_eq_none] at hwaiting
      split
      · next hnone =>
          refine SameLogs.logs ⟨rfl, rfl⟩ ?_
          rw [takes]
          split
          · refine Option.eq_none_iff_forall_ne_some.mpr fun taken htaken => ?_
            obtain ⟨hreset, hvalid⟩ := Option.filter_eq_some_iff.mp htaken
            obtain ⟨place, hplace, -⟩ := (Option.any_eq_true _ _).mp (of_decide_eq_true hvalid).2
            simp [hreset, hplace] at hnone
          · rfl
      · next taken place hbind =>
          obtain ⟨reset', hreset, hplaced⟩ := Option.bind_eq_some_iff.mp hbind
          obtain ⟨place', hplace, hpair⟩ := Option.map_eq_some_iff.mp hplaced
          obtain ⟨rfl, rfl⟩ := Prod.mk.inj hpair
          split
          · next hstarts =>
              have htakes : d.takes (.ready knownEpoch sessionId reset) = some reset' := by
                rw [takes, if_pos ⟨hidle, hwaiting.1, hstarts.1, hstarts.2.2.2, hwaiting.2⟩, hreset,
                  Option.filter_some, if_pos]
                simpa [hplace, hstarts.2.1] using hstarts.2.2.1
              rw [Logs, htakes]
              simp [outcomesIn, positionsIn, hplace, trySendAt]
          · next hrefused =>
              refine SameLogs.logs ⟨rfl, rfl⟩ ?_
              rw [takes]
              split
              · next hready =>
                  rw [hreset, Option.filter_some, if_neg]
                  intro hvalid
                  refine hrefused ⟨hready.2.2.1, ?_, ?_, hready.2.2.2.1⟩
                  · exact (of_decide_eq_true hvalid).1
                  · simpa [hplace] using (of_decide_eq_true hvalid).2
              · rfl

theorem logs_step (d : Subscription) (event : Event) : Logs d (d.step event) event := by
  cases event with
  | publish canonical session =>
      cases hidle : d.publishing with
      | replacing | sending =>
          exact SameLogs.logs (by simp [SameLogs, step, whenIdle, hidle])
            (by simp [takes, idle, hidle])
      | idle =>
          have hstep : d.step (.publish canonical session) = d.publish canonical session := by
            simp [step, whenIdle, hidle]
          rw [hstep]
          exact logs_publish (by simp [idle, hidle]) canonical session
  | ready knownEpoch sessionId reset =>
      cases hidle : d.publishing with
      | replacing | sending =>
          exact SameLogs.logs (by simp [SameLogs, step, whenIdle, hidle])
            (by simp [takes, idle, hidle])
      | idle =>
          have hstep : d.step (.ready knownEpoch sessionId reset) =
              d.observerReady knownEpoch sessionId reset := by
            simp [step, whenIdle, hidle]
          rw [hstep]
          exact logs_observerReady (by simp [idle, hidle]) knownEpoch sessionId reset
  | _ => exact (sameLogs_step d _ (by simp) (by simp)).logs rfl

/-- The logs hold what the subscriber has taken of the run. -/
theorem logs_run (d : Subscription) (events : List Event) :
    (run step d events).outcomes = d.outcomes ++ outcomesIn (taken d events) ∧
      (run step d events).positions = d.positions ++ positionsIn (taken d events) := by
  induction events generalizing d with
  | nil => simp [taken, outcomesIn, positionsIn]
  | cons event events ih =>
      obtain ⟨houtcomes, hpositions⟩ := logs_step d event
      obtain ⟨houtcomes', hpositions'⟩ := ih (d.step event)
      rw [run_cons, houtcomes', hpositions', houtcomes, hpositions]
      simp [taken, outcomesIn, positionsIn]

end Subscription

end Attyd.Delivery
