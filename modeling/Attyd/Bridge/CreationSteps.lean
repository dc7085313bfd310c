import Attyd.Bridge.Creation

/-!
# What each section does to the staging table

Every section keeps the counters equal to what is staged. The handler of a response
ends one creation and leaves what is staged for the others.
-/

namespace Attyd.Bridge

variable {ν τ : Type*}

/-- Stage an update, or note why its replay is invalid. -/
def CreationStaging.push (semantics : Semantics ν τ) (staging : CreationStaging ν τ)
    (notification : ν) : CreationStaging ν τ :=
  match staging.validation.validate semantics notification with
  | .error message => staging.invalidate message
  | .ok validation =>
      staging.append validation notification (semantics.serializedLen notification)

theorem SessionUpdateSemanticState.allocation_of_validate {semantics : Semantics ν τ}
    {validation validation' : SessionUpdateSemanticState τ} {notification : ν}
    (h : validation.validate semantics notification = .ok validation') :
    validation'.allocation = validation.allocation := by
  rw [validate] at h
  split at h
  · cases h
  · split at h
    · cases h
    · cases h
      rfl

@[simp] theorem CreationStaging.allocation_push (semantics : Semantics ν τ)
    (staging : CreationStaging ν τ) (notification : ν) :
    (staging.push semantics notification).validation.allocation =
      staging.validation.allocation := by
  rw [push]
  cases hv : staging.validation.validate semantics notification with
  | error message => rfl
  | ok validation => exact SessionUpdateSemanticState.allocation_of_validate hv

namespace BridgeState

/-- The counters hold what is staged. -/
structure Counted (d : BridgeState ν τ) : Prop where
  count : d.earlyUpdateCount =
    Table.sum (fun staging : CreationStaging ν τ => staging.earlyNotifications.length)
      d.creationStaging
  bytes : d.earlyUpdateBytes =
    Table.sum (fun staging : CreationStaging ν τ => staging.bytes) d.creationStaging

variable {semantics : Semantics ν τ} {d : BridgeState ν τ}

theorem counted_new : (new : BridgeState ν τ).Counted := ⟨rfl, rfl⟩

/-- Writing an entry changes the counters by what it has more. -/
theorem Counted.insert (h : d.Counted) {sessionId : String} {staging : CreationStaging ν τ}
    {d' : BridgeState ν τ} (staged : d'.creationStaging = d.creationStaging.insert sessionId staging)
    (count : d'.earlyUpdateCount + ((d.creationStaging.lookup sessionId).elim 0
      fun old => old.earlyNotifications.length) =
        d.earlyUpdateCount + staging.earlyNotifications.length)
    (bytes : d'.earlyUpdateBytes + ((d.creationStaging.lookup sessionId).elim 0
      fun old => old.bytes) = d.earlyUpdateBytes + staging.bytes) : d'.Counted := by
  have hcount := Table.sum_split (fun staging : CreationStaging ν τ =>
    staging.earlyNotifications.length) d.creationStaging sessionId
  have hbytes := Table.sum_split (fun staging : CreationStaging ν τ => staging.bytes)
    d.creationStaging sessionId
  have hc := h.count
  have hb := h.bytes
  constructor
  · rw [staged, Table.sum_insert]
    omega
  · rw [staged, Table.sum_insert]
    omega

theorem Counted.admitUpdate (h : d.Counted) (semantics : Semantics ν τ) (sessionId : String) :
    (d.admitUpdate semantics sessionId).2.Counted := by
  rw [BridgeState.admitUpdate]
  split
  · exact h
  split
  · split
    · exact h
    split
    · exact h
    cases hl : d.creationStaging.lookup sessionId with
    | some staging => exact h
    | none =>
        dsimp only
        split
        · exact h
        · exact h.insert rfl (by rw [hl]; rfl) (by rw [hl]; rfl)
  · exact h

theorem Counted.stage (h : d.Counted) (semantics : Semantics ν τ) (sessionId : String)
    (allocation : Nat) (notification : ν) :
    (d.stage semantics sessionId allocation notification).Counted := by
  rw [BridgeState.stage]
  cases hl : d.creationStaging.lookup sessionId with
  | none => exact h
  | some staging =>
      dsimp only
      split
      · exact h
      cases staging.validation.validate semantics notification with
      | error message => exact h.insert rfl (by rw [hl]; rfl) (by rw [hl]; rfl)
      | ok validation =>
          refine h.insert rfl ?_ ?_
          · simp only [hl, Option.elim_some, CreationStaging.append, List.length_append,
              List.length_singleton]
            omega
          · simp only [hl, Option.elim_some, CreationStaging.append]
            omega

theorem Counted.discardCreationStaging (h : d.Counted) (sessionId : String) :
    (d.discardCreationStaging sessionId).Counted := by
  rw [BridgeState.discardCreationStaging]
  cases hl : d.creationStaging.lookup sessionId with
  | none => exact h
  | some staging =>
      constructor
      · dsimp only
        rw [h.count, Table.sum_erase _ hl, Nat.add_sub_cancel_left]
      · dsimp only
        rw [h.bytes, Table.sum_erase _ hl, Nat.add_sub_cancel_left]

theorem Counted.clearIfIdle (h : d.Counted) : d.clearIfIdle.Counted := by
  rw [BridgeState.clearIfIdle]
  split
  · exact ⟨by rw [clearPendingCreationReplays, h.count, Nat.sub_self]; rfl,
      by rw [clearPendingCreationReplays, h.bytes, Nat.sub_self]; rfl⟩
  · exact h

theorem Counted.prepareSessionResponse (h : d.Counted) (semantics : Semantics ν τ)
    (sessionId : String) (acceptable : Bool) (modes : List String) :
    (d.prepareSessionResponse semantics sessionId acceptable modes).2.Counted := by
  rw [BridgeState.prepareSessionResponse]
  split
  · exact h
  cases hl : d.creationStaging.lookup sessionId with
  | none =>
      dsimp only [Option.getD_none]
      split
      · exact h.insert rfl (by rw [hl]; rfl) (by rw [hl]; rfl)
      · exact h.insert (Finmap.insert_insert _) (by rw [hl]; rfl) (by rw [hl]; rfl)
  | some staging =>
      dsimp only [Option.getD_some]
      have hcount := h.count
      have hbytes := h.bytes
      rw [Table.sum_erase _ hl] at hcount hbytes
      split
      · exact h.insert rfl (by rw [hl]; rfl) (by rw [hl]; rfl)
      · refine h.insert (Finmap.insert_insert _) ?_ ?_
        · rw [hl, Option.elim_some]
          change d.earlyUpdateCount - _ + _ = d.earlyUpdateCount + 0
          omega
        · rw [hl, Option.elim_some]
          change d.earlyUpdateBytes - _ + _ = d.earlyUpdateBytes + 0
          omega

theorem Counted.promoteCreationValidation (h : d.Counted) (sessionId : String) :
    (d.promoteCreationValidation sessionId).Counted := by
  rw [BridgeState.promoteCreationValidation]
  cases d.creationStaging.lookup sessionId with
  | none => exact h
  | some staging =>
      obtain ⟨hcount, hbytes⟩ := h.discardCreationStaging sessionId
      exact ⟨hcount, hbytes⟩

theorem Counted.respond (h : d.Counted) (response : CreationResponse) :
    (d.respond semantics response).2.Counted := by
  have hless : ({ d with pendingCreations := d.pendingCreations - 1 } : BridgeState ν τ).Counted :=
    ⟨h.count, h.bytes⟩
  cases response with
  | error => exact hless.clearIfIdle
  | session sessionId acceptable modes opens =>
      have hprepared := hless.prepareSessionResponse semantics sessionId
        acceptable modes
      rw [BridgeState.respond]
      cases hp : ({ d with pendingCreations := d.pendingCreations - 1 } :
          BridgeState ν τ).prepareSessionResponse semantics sessionId acceptable modes with
      | mk answer d' =>
          rw [hp] at hprepared
          cases answer with
          | none => exact hprepared.clearIfIdle
          | some earlyUpdates =>
              cases opens with
              | true => exact (hprepared.promoteCreationValidation sessionId).clearIfIdle
              | false => exact hprepared.discardCreationStaging sessionId

theorem Counted.retireEntry (h : d.Counted) (sessionId : String) :
    (d.retireEntry sessionId).Counted := by
  rw [BridgeState.retireEntry]
  cases d.live.lookup sessionId with
  | none => exact h
  | some allocation => exact ⟨h.count, h.bytes⟩

/-- An update whose owner still is what it was is staged or noted. -/
theorem stage_eq (semantics : Semantics ν τ) {sessionId : String}
    {staging : CreationStaging ν τ} (notification : ν)
    (hl : d.creationStaging.lookup sessionId = some staging)
    (hlive : d.live.lookup sessionId = none) (hpending : d.pendingCreations ≠ 0)
    (hretired : sessionId ∉ d.retired) :
    let d' := d.stage semantics sessionId staging.validation.allocation notification
    d'.creationStaging = d.creationStaging.insert sessionId (staging.push semantics notification) ∧
      d'.live = d.live ∧ d'.retired = d.retired ∧ d'.pendingCreations = d.pendingCreations := by
  simp only [stage, hl, hlive, hpending, hretired, CreationStaging.push, Option.isSome_none,
    ne_eq, not_true_eq_false, decide_false, Bool.or_false, Bool.false_eq_true, if_false]
  cases staging.validation.validate semantics notification with
  | error message => exact ⟨rfl, rfl, rfl, rfl⟩
  | ok validation => exact ⟨rfl, rfl, rfl, rfl⟩

theorem stage_of_lookup_none (semantics : Semantics ν τ) {sessionId : String}
    (hl : d.creationStaging.lookup sessionId = none) (allocation : Nat) (notification : ν) :
    d.stage semantics sessionId allocation notification = d := by
  rw [stage, hl]

/-- The end of a creation: its request is not pending any more, nothing is staged for
its session, and the other sessions keep what they have. -/
structure Ends (d : BridgeState ν τ) (sessionId : String) (d' : BridgeState ν τ) : Prop where
  pending : d'.pendingCreations = d.pendingCreations - 1
  retired : d'.retired = d.retired
  live : ∀ other, other ≠ sessionId → d'.live.lookup other = d.live.lookup other
  gone : d'.creationStaging.lookup sessionId = none
  others : ∀ other, other ≠ sessionId → 1 < d.pendingCreations →
    d'.creationStaging.lookup other = d.creationStaging.lookup other
  staged : ∀ other staging, d'.creationStaging.lookup other = some staging →
    d.creationStaging.lookup other = some staging

variable {sessionId : String} {d' : BridgeState ν τ}

theorem Ends.clearIfIdle (h : Ends d sessionId d') : Ends d sessionId d'.clearIfIdle := by
  rw [BridgeState.clearIfIdle]
  split
  · rename_i hidle
    refine ⟨h.pending, h.retired, h.live, rfl, fun other ho hmany => ?_, fun other staging hl => ?_⟩
    · have hpending := h.pending
      omega
    · cases hl
  · exact h

/-- The end of the only creation discards all that is staged. -/
theorem ends_of_last (hlast : d.pendingCreations = 1) (pending : d'.pendingCreations = 0)
    (retired : d'.retired = d.retired) (live : d'.live = d.live) :
    Ends d sessionId d'.clearIfIdle := by
  rw [BridgeState.clearIfIdle, if_pos pending]
  refine ⟨?_, retired, ?_, rfl, fun other ho hmany => ?_, fun other staging hl => ?_⟩
  · rw [hlast]
    exact pending
  · intro other ho
    exact congrArg (Finmap.lookup other) live
  · omega
  · cases hl

/-- What is staged for a session, or what would be with its first update. -/
def Stages (semantics : Semantics ν τ) (d : BridgeState ν τ) (sessionId : String)
    (staging : CreationStaging ν τ) : Prop :=
  d.creationStaging.lookup sessionId = some staging ∨
    (d.creationStaging.lookup sessionId = none ∧ staging = .new semantics d.nextAllocation)

theorem prepareSessionResponse_cases (semantics : Semantics ν τ) (d : BridgeState ν τ)
    (sessionId : String) (acceptable : Bool) (modes : List String) :
    (d.refusesResponse sessionId acceptable = true ∧
        d.prepareSessionResponse semantics sessionId acceptable modes = (none, d)) ∨
      (d.refusesResponse sessionId acceptable = false ∧
        ∃ staging d', d.Stages semantics sessionId staging ∧
          d'.pendingCreations = d.pendingCreations ∧ d'.retired = d.retired ∧
          d'.live = d.live ∧
          ((staging.rejects modes = true ∧
              d.prepareSessionResponse semantics sessionId acceptable modes = (none, d')) ∨
            (d'.creationStaging = d.creationStaging.insert sessionId ⟨staging.validation, [], 0⟩ ∧
              d.prepareSessionResponse semantics sessionId acceptable modes =
                (some staging.earlyNotifications, d')))) := by
  rw [prepareSessionResponse]
  cases hr : d.refusesResponse sessionId acceptable with
  | true => exact .inl ⟨rfl, rfl⟩
  | false =>
      refine .inr ⟨rfl, ?_⟩
      rw [if_neg Bool.false_ne_true]
      have hstages : d.Stages semantics sessionId
          ((d.creationStaging.lookup sessionId).getD (.new semantics d.nextAllocation)) := by
        cases hl : d.creationStaging.lookup sessionId with
        | none => exact .inr ⟨hl, rfl⟩
        | some staging => exact .inl hl
      generalize (d.creationStaging.lookup sessionId).getD (.new semantics d.nextAllocation) =
        staging at hstages
      dsimp only
      by_cases hj : staging.rejects modes = true
      · rw [if_pos hj]
        refine ⟨staging, _, hstages, ?_, ?_, ?_, .inl ⟨hj, rfl⟩⟩ <;> rfl
      · rw [if_neg hj]
        refine ⟨staging, _, hstages, ?_, ?_, ?_, .inr ⟨?_, rfl⟩⟩
        · rfl
        · rfl
        · rfl
        · exact Finmap.insert_insert _

/-- The handler of a response ends its creation and no other. -/
theorem respond_ends (semantics : Semantics ν τ) (d : BridgeState ν τ)
    (response : CreationResponse)
    (names : ∀ target acceptable modes opens, response = .session target acceptable modes opens →
      d.refusesResponse target acceptable = false → target = sessionId)
    (failed : response = .error → d.pendingCreations = 1 ∨
      d.creationStaging.lookup sessionId = none)
    (refused : ∀ target acceptable modes opens,
      response = .session target acceptable modes opens →
      d.refusesResponse target acceptable = true →
        d.pendingCreations = 1 ∨ d.creationStaging.lookup sessionId = none)
    (rejected : ∀ target acceptable modes opens staging,
      response = .session target acceptable modes opens →
      d.creationStaging.lookup sessionId = some staging → staging.rejects modes = true →
        d.pendingCreations = 1) :
    Ends d sessionId (d.respond semantics response).2 := by
  let less : BridgeState ν τ := { d with pendingCreations := d.pendingCreations - 1 }
  have hzero : d.pendingCreations = 1 → less.pendingCreations = 0 := by
    intro hlast
    change d.pendingCreations - 1 = 0
    rw [hlast]
  have hnothing : (d.pendingCreations = 1 ∨ d.creationStaging.lookup sessionId = none) →
      Ends d sessionId less.clearIfIdle := by
    rintro (hlast | hnone)
    · exact ends_of_last hlast (hzero hlast) rfl rfl
    · refine Ends.clearIfIdle ⟨rfl, rfl, fun _ _ => rfl, hnone, fun _ _ _ => rfl, fun _ _ hl => hl⟩
  cases response with
  | error => exact hnothing (failed rfl)
  | session target acceptable modes opens =>
      rw [respond]
      rcases less.prepareSessionResponse_cases semantics target acceptable modes with
        ⟨hr, hp⟩ | ⟨hr, staging, d', hs, hpending, hretired, hlive, ⟨hj, hp⟩ | ⟨hstaged, hp⟩⟩
      · rw [hp]
        exact hnothing (refused _ _ _ _ rfl hr)
      · rw [hp]
        obtain rfl := names _ _ _ _ rfl hr
        rcases hs with hs | ⟨-, rfl⟩
        · have hlast := rejected _ _ _ _ staging rfl hs hj
          exact ends_of_last hlast (hpending.trans (hzero hlast)) hretired hlive
        · cases hj
      · rw [hp]
        obtain rfl := names _ _ _ _ rfl hr
        have hlookup : d'.creationStaging.lookup target = some ⟨staging.validation, [], 0⟩ := by
          rw [hstaged, Finmap.lookup_insert]
        have hothers : ∀ other, other ≠ target →
            (d'.creationStaging.erase target).lookup other = d.creationStaging.lookup other := by
          intro other ho
          rw [Finmap.lookup_erase_ne ho, hstaged, Finmap.lookup_insert_of_ne _ ho]
        have hkept : ∀ other staging, (d'.creationStaging.erase target).lookup other =
            some staging → d.creationStaging.lookup other = some staging := by
          intro other staging hl
          by_cases ho : other = target
          · rw [ho, Finmap.lookup_erase] at hl
            cases hl
          · rw [← hothers other ho]
            exact hl
        cases opens with
        | true =>
            refine Ends.clearIfIdle ?_
            rw [promoteCreationValidation, discardCreationStaging, hlookup]
            refine ⟨hpending, hretired, fun other ho => ?_, Finmap.lookup_erase _ _,
              fun other ho _ => hothers other ho, hkept⟩
            change (d'.live.insert target _).lookup other = _
            rw [Finmap.lookup_insert_of_ne _ ho, hlive]
        | false =>
            change Ends d target (d'.discardCreationStaging target)
            rw [discardCreationStaging, hlookup]
            exact ⟨hpending, hretired, fun other _ => congrArg (Finmap.lookup other) hlive,
              Finmap.lookup_erase _ _, fun other ho _ => hothers other ho, hkept⟩

end BridgeState

end Attyd.Bridge
