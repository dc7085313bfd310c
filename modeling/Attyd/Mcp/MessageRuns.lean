import Attyd.Mcp.MessageCalls

/-!
# Message calls along a run

A call that has ended stays so, and one that starts after the end of the connection
registers nothing. Where no task can go on, only the calls of an open connection that wait
for the server are left.
-/

namespace Attyd.Mcp

open Json (Value)

namespace McpConnection

variable {s s' : McpConnection} {i : Nat} {call : MessageCall} {action : Action}

section Closing

/-- What a step does to the termination: nothing, or it starts, or its task goes on. -/
theorem step_termination (hs : s.step action = some s') :
    s'.termination = s.termination ∨
      (∃ reason, s'.termination = s.termination.or (some ⟨reason, .cancelling⟩)) ∨
      ∃ stage, s'.termination = s.termination.map fun t => { t with stage } := by
  cases action with
  | exchange ender =>
      obtain ⟨reason, -, rfl⟩ := Option.map_eq_some_iff.mp hs
      exact .inr (.inl ⟨reason, rfl⟩)
  | terminate =>
      obtain ⟨t, -, hs⟩ := Option.bind_eq_some_iff.mp hs
      refine .inr (.inr ?_)
      split at hs
      · cases hs
        exact ⟨_, rfl⟩
      · split at hs <;> cases hs
        exact ⟨_, rfl⟩
      · cases hs
        exact ⟨_, rfl⟩
      · split at hs <;> cases hs
        exact ⟨_, rfl⟩
      · split at hs <;> cases hs
        exact ⟨_, rfl⟩
      · cases hs
        exact ⟨_, rfl⟩
      · cases hs
  | message method =>
      cases hs
      exact .inl rfl
  | requestCancel i | number i | wrote i | writeFailed i error | withdraw i | retracted i =>
      obtain ⟨call, -, rfl⟩ := Option.map_eq_some_iff.mp hs
      exact .inl rfl
  | insert i =>
      obtain ⟨call, -, rfl⟩ := Option.map_eq_some_iff.mp hs
      exact .inl (termination_dropPending s call.key).1
  | require i =>
      unfold step at hs
      dsimp only at hs
      split at hs
      · cases hs
      · obtain ⟨call, -, rfl⟩ := Option.map_eq_some_iff.mp hs
        unfold require
        split <;> exact .inl rfl
  | lockPending i =>
      unfold step at hs
      dsimp only at hs
      split at hs
      · cases hs
      · obtain ⟨call, -, rfl⟩ := Option.map_eq_some_iff.mp hs
        unfold lockPending
        split <;> exact .inl rfl
  | removeWithdrawn i =>
      unfold step at hs
      dsimp only at hs
      split at hs
      · cases hs
      · obtain ⟨call, -, rfl⟩ := Option.map_eq_some_iff.mp hs
        exact .inl (termination_dropPending _ call.key).1
  | unregister i =>
      obtain ⟨call, -, hs⟩ := Option.bind_eq_some_iff.mp hs
      split at hs
      · split at hs <;> cases hs
        exact .inl (termination_dropPending _ call.key).1
      · cases hs
  | receive i =>
      obtain ⟨call, -, hs⟩ := Option.bind_eq_some_iff.mp hs
      unfold receive at hs
      split at hs <;> cases hs <;> exact .inl rfl
  | drain id =>
      obtain ⟨t, -, hs⟩ := Option.bind_eq_some_iff.mp hs
      obtain ⟨pending, -, hs⟩ := Option.bind_eq_some_iff.mp hs
      cases hs
      exact .inl rfl
  | readerFailed _ | readerEnded | serverSends _ | route | deliver =>
      unfold step at hs
      cases hreader : s.reader <;> rw [hreader] at hs <;> cases hs
      all_goals exact .inl rfl
  | takePending =>
      unfold step at hs
      cases hreader : s.reader with
      | removing value id =>
          simp only [hreader] at hs
          split at hs <;> cases hs
          unfold takePending
          split <;> exact .inl rfl
      | _ =>
          rw [hreader] at hs
          cases hs
  | activate =>
      unfold step at hs
      dsimp only at hs
      split at hs <;> cases hs
      split <;> exact .inl rfl
  | disconnect | closeAll | childExited _ | childKilled | connectCancelled | markAnnounced |
      announceConnected =>
      unfold step at hs
      dsimp only at hs
      split at hs <;> cases hs
      exact .inl rfl

/-- The reason of the first one that ends the connection stays. -/
theorem reason_step (hs : s.step action = some s') {reason : McpError}
    (h : s.termination.map (·.reason) = some reason) :
    s'.termination.map (·.reason) = some reason := by
  obtain ⟨t, ht, rfl⟩ := Option.map_eq_some_iff.mp h
  rcases step_termination hs with h | ⟨other, h⟩ | ⟨stage, h⟩
  · rw [h, ht]
    rfl
  · rw [h, ht]
    rfl
  · rw [h, ht]
    rfl

theorem closed_step (hs : s.step action = some s') (h : s.closed = true) : s'.closed = true := by
  obtain ⟨t, ht⟩ := Option.isSome_iff_exists.mp h
  have hreason := reason_step hs (show s.termination.map (·.reason) = some t.reason by
    rw [ht]
    rfl)
  obtain ⟨t', ht', -⟩ := Option.map_eq_some_iff.mp hreason
  exact Option.isSome_iff_exists.mpr ⟨t', ht'⟩

/-- From a call's number on, the calls of a closed connection have registered nothing. -/
def Late (n : Nat) (s : McpConnection) : Prop :=
  s.closed = true ∧ ∀ (i : Nat) stage, n ≤ i → s.stages[i]? = some stage → stage.outside = true

theorem Late.step {n : Nat} (h : s.Late n) (hs : s.step action = some s') : s'.Late n := by
  refine ⟨closed_step hs h.1, fun i stage hle hi => ?_⟩
  cases step_stages hs with
  | same hstages => exact h.2 i stage hle (hstages ▸ hi)
  | moved j old new hj hmove hstages =>
      rw [hstages, getElem?_set_of_some hj] at hi
      split at hi
      · next he =>
          cases hi
          rw [h.1] at hmove
          exact hmove.outside (h.2 j old (he ▸ hle) hj)
      · exact h.2 i stage hle hi
  | started method hstages =>
      rw [hstages] at hi
      by_cases hlt : i < s.stages.length
      · rw [List.getElem?_append_left hlt] at hi
        exact h.2 i stage hle hi
      · rw [List.getElem?_append_right (Nat.le_of_not_lt hlt)] at hi
        rw [List.getElem?_singleton] at hi
        split at hi
        · cases hi
          exact outside_start method
        · cases hi

end Closing

section Work

/-- What the tasks of the connection have left to do. -/
def work (s : McpConnection) : Nat := (s.stages.map CallStage.rank).sum + s.otherWork

theorem sum_set_of_some {l : List Nat} {a : Nat} (h : l[i]? = some a) (b : Nat) :
    (l.set i b).sum + a = l.sum + b := by
  induction l generalizing i with
  | nil => cases h
  | cons c l ih =>
      cases i with
      | zero =>
          cases h
          simp only [List.set_cons_zero, List.sum_cons]
          omega
      | succ i =>
          have hrest := ih (i := i) h
          simp only [List.set_cons_succ, List.sum_cons]
          omega

/-- Every step of a task under way brings the tasks nearer to rest. -/
theorem settles : Settles step Action.Inner Inv work where
  preserved _ _ _ hinv hs := hinv.step hs
  lowers s action s' _ hinner hs := by
    cases step_stages hs with
    | same hstages hwork =>
        rw [work, work, hstages]
        exact Nat.add_lt_add_left (hwork hinner) _
    | moved i stage stage' hi hmove hstages hwork =>
        have hrank : (s.stages.map CallStage.rank)[i]? = some stage.rank := by
          rw [List.getElem?_map, hi]
          rfl
        have hsum := sum_set_of_some hrank stage'.rank
        rw [work, work, hstages, List.map_set]
        omega
    | started method hstages hno => exact absurd hinner hno

end Work

section Rest

theorem callAt_of_stage {stage : CallStage} (hi : s.calls[i]? = some call)
    (hstage : call.stage = stage) : s.callAt i stage = some call :=
  Option.filter_eq_some_iff.mpr ⟨hi, decide_eq_true hstage⟩

theorem exists_lookup_of_keys_ne_empty (h : s.pending.keys ≠ ∅) :
    ∃ key pending, s.pending.lookup key = some pending := by
  obtain ⟨key, hkey⟩ := Finset.nonempty_iff_ne_empty.mpr h
  exact ⟨key, Finmap.mem_iff.mp (Finmap.mem_keys.mp hkey)⟩

variable (h : s.Inv) (hrest : Resting step Action.Inner s)

include h hrest

theorem connectionsLocked_of_resting : s.connectionsLocked = false := by
  by_contra hlocked
  have hactivating := h.listing.locked.mp (Bool.not_eq_false _ ▸ hlocked)
  have hnone := hrest .markAnnounced trivial
  simp [step, hactivating] at hnone

theorem pendingLocked_of_resting : s.pendingLocked = false := by
  by_contra hlocked
  rcases h.locks.held (Bool.not_eq_false _ ▸ hlocked) with ⟨i, call, hi, hstage⟩ | ⟨t, ht, hstage⟩
  · have hnone := hrest (.insert i) trivial
    rw [step, callAt_of_stage hi hstage] at hnone
    cases hnone
  · by_cases hkeys : s.pending.keys = ∅
    · have hnone := hrest .terminate trivial
      rw [step, terminate, ht, Option.bind_some, hstage] at hnone
      simp [hkeys] at hnone
    · obtain ⟨key, pending, hp⟩ := exists_lookup_of_keys_ne_empty hkeys
      have hnone := hrest (.drain key) trivial
      simp [step, drain, ht, hstage, hp] at hnone

theorem finished_of_resting {t : Termination} (ht : s.termination = some t) :
    t.stage = .finished := by
  have hnone := hrest .terminate trivial
  have hconnections := connectionsLocked_of_resting h hrest
  have hpending := pendingLocked_of_resting h hrest
  rw [step, terminate, ht, Option.bind_some] at hnone
  cases hstage : t.stage with
  | finished => rfl
  | draining =>
      cases hpending.symm.trans (h.locks.draining t ht hstage)
  | removing => simp [hstage, hconnections] at hnone
  | locking => simp [hstage, hpending] at hnone
  | _ => simp [hstage] at hnone

end Rest

section Runs

variable {id : String} {actions : List Action}

theorem after_append (id : String) (actions further : List Action) :
    after id (actions ++ further) = run (attempt step) (after id actions) further :=
  run_append _ _ _ _

theorem disconnected_le (h : s.Listing) : s.events.count .disconnected ≤ 1 := by
  rw [h.events]
  split <;> omega

end Runs

end McpConnection

end Attyd.Mcp
