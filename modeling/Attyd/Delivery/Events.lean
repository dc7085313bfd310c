import Attyd.Library.Json

/-!
# Session events

What the bridge sends to those who observe a session. Its owner and its position are read off
the event itself, so an event with a position belongs to the owner the position names; the
record of an event keeps this as a field.
-/

namespace Attyd.Delivery

open Json (Value)

/-- The epoch of the bridge and the incarnation of the session. -/
structure SessionOwner where
  epoch : String
  incarnation : Nat
  deriving DecidableEq

/-- How far a view has come, for one owner. -/
structure SessionPosition where
  owner : SessionOwner
  viewRevision : Nat
  deriving DecidableEq

/-- The owner an event names. -/
def owner (value : Value) : Option SessionOwner := do
  let epoch ← (value.get "bridgeEpoch").bind Value.asStr
  let incarnation ← (value.get "sessionIncarnation").bind Value.asU64
  some ⟨epoch, incarnation⟩

/-- The position an event names. -/
def position (value : Value) : Option SessionPosition := do
  let epoch ← (value.get "bridgeEpoch").bind Value.asStr
  let incarnation ← (value.get "sessionIncarnation").bind Value.asU64
  let viewRevision ← (value.get "viewRevision").bind Value.asU64
  some ⟨⟨epoch, incarnation⟩, viewRevision⟩

theorem owner_of_position {value : Value} {place : SessionPosition}
    (h : position value = some place) : owner value = some place.owner := by
  simp only [position, owner, Option.bind_eq_bind, Option.bind_eq_some_iff] at h ⊢
  obtain ⟨epoch, hepoch, incarnation, hincarnation, viewRevision, -, hplace⟩ := h
  cases hplace
  exact ⟨epoch, hepoch, incarnation, hincarnation, rfl⟩

/-- An event on its way to those who observe a session. -/
structure SessionEvent where
  sessionId : String
  owner : Option SessionOwner
  position : Option SessionPosition
  reset : Bool
  payload : Value
  /-- An event with a position belongs to the owner the position names. -/
  placed : ∀ place, position = some place → owner = some place.owner

namespace SessionEvent

/-- An event whose position, if it has one, is read off the event. -/
def new (sessionId : String) (value : Value) (positioned reset : Bool) : SessionEvent where
  sessionId
  owner := Delivery.owner value
  position := if positioned then Delivery.position value else none
  reset
  payload := value
  placed := fun place h => by
    cases positioned with
    | true => exact owner_of_position h
    | false => cases h

end SessionEvent

end Attyd.Delivery
