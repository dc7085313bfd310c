import Attyd.Mcp.ConnectionSteps

/-!
# The locks of a connection, and its place in the manager's table

A call looks at the closed flag under the lock of the table and inserts under the same
lock, and the task that ends the connection empties the table under it. The connection
leaves the manager's table once, and its end is announced at most once.
-/

namespace Attyd.Mcp

open Json (Value)

namespace McpConnection

variable {s s' : McpConnection} {i : Nat} {call : MessageCall}

section Locks

theorem drained_of_early {stage : TerminateStage} (h : stage.early = true) :
    stage.drained = false := by
  cases stage <;> first | rfl | cases h

theorem inserts_setCall (hi : s.calls[i]? = some call) {call' : MessageCall}
    (hsame : call'.stage = .inserting ↔ call.stage = .inserting) (j : Nat) :
    (s.setCall i call').Inserts j ↔ s.Inserts j := by
  have hget : (s.setCall i call').calls[j]? = if i = j then some call' else s.calls[j]? :=
    getElem?_set_of_some hi call' j
  unfold Inserts
  rw [hget]
  by_cases he : i = j
  · subst he
    rw [if_pos rfl, hi]
    constructor
    · rintro ⟨other, hother, hstage⟩
      cases hother
      exact ⟨call, rfl, hsame.mp hstage⟩
    · rintro ⟨other, hother, hstage⟩
      cases hother
      exact ⟨call', rfl, hsame.mpr hstage⟩
  · rw [if_neg he]

theorem inserts_setChannel (s : McpConnection) (i : Nat) (channel : Channel) (j : Nat) :
    (s.setChannel i channel).Inserts j ↔ s.Inserts j := by
  have hget : (s.setChannel i channel).calls[j]? =
      (s.calls[j]?).map fun call => if i = j then { call with channel } else call := by
    change (s.calls.modify i _)[j]? = _
    rw [List.getElem?_modify]
    rfl
  unfold Inserts
  rw [hget]
  constructor
  · rintro ⟨other, hother, hstage⟩
    obtain ⟨call, hcall, rfl⟩ := Option.map_eq_some_iff.mp hother
    refine ⟨call, hcall, ?_⟩
    split at hstage
    · exact hstage
    · exact hstage
  · rintro ⟨other, hother, hstage⟩
    refine ⟨_, Option.map_eq_some_iff.mpr ⟨other, hother, rfl⟩, ?_⟩
    split
    · exact hstage
    · exact hstage

theorem inserts_dropPending (s : McpConnection) (key : String) (j : Nat) :
    (s.dropPending key).Inserts j ↔ s.Inserts j := by
  unfold dropPending
  split
  · rfl
  · exact inserts_setChannel _ _ _ j

/-- Steps that leave the lock, the calls at the table and the termination alone. -/
theorem Locks.of_same (h : s.Locks) (hinserts : ∀ j, s'.Inserts j ↔ s.Inserts j)
    (hlocked : s'.pendingLocked = s.pendingLocked) (hterm : s'.termination = s.termination)
    (hempty : s.pending = ∅ → s'.pending = ∅) : s'.Locks where
  inserting j hj := by
    obtain ⟨hl, hearly, honly⟩ := h.inserting j ((hinserts j).mp hj)
    rw [hlocked, hterm]
    exact ⟨hl, hearly, fun k hk => honly k ((hinserts k).mp hk)⟩
  draining t ht hstage := by
    rw [hlocked]
    exact h.draining t (hterm ▸ ht) hstage
  held hl := by
    rw [hterm]
    refine (h.held (hlocked ▸ hl)).imp_left fun hinserting => ?_
    exact hinserting.imp fun j hj => (hinserts j).mpr hj
  drained t ht hstage := hempty (h.drained t (hterm ▸ ht) hstage)

theorem Locks.setCall (h : s.Locks) (hi : s.calls[i]? = some call) {call' : MessageCall}
    (hsame : call'.stage = .inserting ↔ call.stage = .inserting) : (s.setCall i call').Locks :=
  h.of_same (inserts_setCall hi hsame) rfl rfl fun hempty => hempty

theorem Locks.message (h : s.Locks) (method : String) :
    ({ s with calls := s.calls ++ [.start method] } : McpConnection).Locks := by
  refine h.of_same (fun j => ?_) rfl rfl fun hempty => hempty
  have hstart : (MessageCall.start method).stage ≠ .inserting := by
    unfold MessageCall.start
    cases method.isEmpty with
    | true => exact fun h => by cases h
    | false => exact fun h => by cases h
  constructor
  · rintro ⟨other, hother, hstage⟩
    by_cases hlt : j < s.calls.length
    · exact ⟨other, (List.getElem?_append_left hlt).symm.trans hother, hstage⟩
    · change (s.calls ++ [.start method])[j]? = some other at hother
      rw [List.getElem?_append_right (Nat.le_of_not_lt hlt)] at hother
      rw [List.mem_singleton.mp (List.mem_of_getElem? hother)] at hstage
      exact absurd hstage hstart
  · rintro ⟨other, hother, hstage⟩
    exact ⟨other, (List.getElem?_append_left (List.getElem?_eq_some_iff.mp hother).1).trans hother,
      hstage⟩

/-- A call that found the connection open under the lock is the only one at the table. -/
theorem Locks.lockPending (h : s.Locks) (hi : s.calls[i]? = some call)
    (hstage : call.stage = .locking) (hfree : s.pendingLocked = false) :
    (s.lockPending i call).Locks := by
  unfold McpConnection.lockPending
  split
  · refine h.setCall hi (iff_of_false (fun he => by cases he) fun he => ?_)
    cases hstage.symm.trans he
  · rename_i hopen
    have hnone : s.termination = none := by
      unfold closed at hopen
      simpa using hopen
    have honly : ∀ j, (({ s with pendingLocked := true } : McpConnection).setStage i call
        .inserting).Inserts j → j = i := by
      rintro j ⟨other, hother, hother'⟩
      have hother := (getElem?_set_of_some hi { call with stage := .inserting } j).symm.trans hother
      split at hother
      · next he => exact he.symm
      · have hl := (h.inserting j ⟨other, hother, hother'⟩).1
        rw [hfree] at hl
        cases hl
    have hnot : ∀ t, s.termination ≠ some t := fun t ht => by
      rw [hnone] at ht
      cases ht
    refine ⟨fun j hj => ⟨rfl, fun t ht => absurd ht (hnot t), fun k hk => ?_⟩,
      fun t ht _ => absurd ht (hnot t), fun _ => .inl ⟨i, ?_⟩, fun t ht _ => absurd ht (hnot t)⟩
    · rw [honly j hj, honly k hk]
    · exact ⟨_, (getElem?_set_of_some hi _ i).trans (if_pos rfl), rfl⟩

/-- A call that has inserted gives the lock back. -/
theorem Locks.insertRequest (h : s.Locks) (hi : s.calls[i]? = some call)
    (hstage : call.stage = .inserting) : (s.insertRequest i call).Locks := by
  obtain ⟨-, hearly, honly⟩ := h.inserting i ⟨call, hi, hstage⟩
  have hterm : (s.insertRequest i call).termination = s.termination := by
    unfold McpConnection.insertRequest insertPending dropPending
    cases s.pending.lookup call.key <;> rfl
  have hnone : ∀ j, ¬(s.insertRequest i call).Inserts j := by
    rintro j ⟨other, hother, hother'⟩
    have hother : ((s.insertPending call.key ⟨call.method, i⟩).calls.set i
        { call with stage := .writing, registered := true })[j]? = some other := hother
    rw [List.getElem?_set] at hother
    split at hother
    · split at hother
      · cases hother
        cases hother'
      · cases hother
    · next hne =>
        have hj := (inserts_dropPending s call.key j).mp ⟨other, hother, hother'⟩
        exact hne (honly j hj).symm
  refine ⟨fun j hj => absurd hj (hnone j), fun t ht hdraining => ?_, fun hl => ?_,
    fun t ht hdrained => ?_⟩
  · have := hearly t (hterm ▸ ht)
    rw [hdraining] at this
    cases this
  · cases hl
  · cases (drained_of_early (hearly t (hterm ▸ ht))).symm.trans hdrained

theorem pending_dropPending_of_empty (hempty : s.pending = ∅) (key : String) :
    (s.dropPending key).pending = ∅ := by
  have hnone : s.pending.lookup key = none := by
    rw [hempty]
    exact Finmap.lookup_empty _
  unfold dropPending
  rw [hnone]
  exact hempty

theorem termination_dropPending (s : McpConnection) (key : String) :
    (s.dropPending key).termination = s.termination ∧
      (s.dropPending key).pendingLocked = s.pendingLocked := by
  unfold dropPending
  cases s.pending.lookup key <;> exact ⟨rfl, rfl⟩

theorem Locks.withdrawRequest (h : s.Locks) (hi : s.calls[i]? = some call) {stage : CallStage}
    (hold : call.stage ≠ .inserting) (hnew : stage ≠ .inserting) :
    (s.withdrawRequest i call stage).Locks := by
  have hset : (s.setStage i call stage).Locks := h.setCall hi (iff_of_false hnew hold)
  obtain ⟨hterm, hlocked⟩ := termination_dropPending (s.setStage i call stage) call.key
  exact hset.of_same (inserts_dropPending _ _) hlocked hterm fun hempty =>
    pending_dropPending_of_empty hempty _

theorem erase_of_empty {t : Table String PendingMcpRequest} (h : t = ∅) (key : String) :
    t.erase key = ∅ := by
  rw [Table.erase_of_lookup_none]
  · exact h
  · rw [h]
    exact Finmap.lookup_empty _

theorem Locks.takeOut (h : s.Locks) (key : String) (reader : Reader) :
    ({ s with pending := s.pending.erase key, reader } : McpConnection).Locks :=
  h.of_same (fun _ => Iff.rfl) rfl rfl fun hempty => erase_of_empty hempty key

theorem Locks.setChannel (h : s.Locks) (i : Nat) (channel : Channel) :
    (s.setChannel i channel).Locks :=
  h.of_same (inserts_setChannel s i channel) rfl rfl fun hempty => hempty

/-- The first who ends the connection has not come to the lock. -/
theorem Locks.exchange (h : s.Locks) (ender : Nat) (reason : McpError) :
    (s.exchange ender reason).Locks := by
  cases ht : s.termination with
  | some t =>
      refine h.of_same (fun _ => Iff.rfl) rfl ?_ fun hempty => hempty
      unfold McpConnection.exchange
      rw [ht]
      rfl
  | none =>
      have hterm : (s.exchange ender reason).termination = some ⟨reason, .cancelling⟩ := by
        unfold McpConnection.exchange
        rw [ht]
        rfl
      refine ⟨fun j hj => ?_, fun t ht' hstage => ?_, fun hl => ?_, fun t ht' hstage => ?_⟩
      · obtain ⟨hl, -, honly⟩ := h.inserting j hj
        refine ⟨hl, fun t ht' => ?_, honly⟩
        cases Option.some.inj (hterm.symm.trans ht')
        rfl
      · cases Option.some.inj (hterm.symm.trans ht')
        cases hstage
      · rcases h.held hl with hinserts | ⟨t, ht', -⟩
        · exact .inl hinserts
        · cases ht.symm.trans ht'
      · cases Option.some.inj (hterm.symm.trans ht')
        cases hstage

/-- The stages follow one another; the table is emptied under the lock. -/
theorem Locks.terminate (h : s.Locks) (hs : s.terminate = some s') : s'.Locks := by
  obtain ⟨t, ht, hs⟩ := Option.bind_eq_some_iff.mp hs
  have hmap : ∀ (u : McpConnection) stage, u.termination = s.termination →
      (u.setTermination stage).termination = some { t with stage } := by
    intro u stage hu
    unfold setTermination
    rw [hu, ht]
    rfl
  have hearlier : ∀ (u : McpConnection) stage, t.stage.early = true → stage.early = true →
      u.termination = s.termination → u.pendingLocked = s.pendingLocked → u.calls = s.calls →
      (u.setTermination stage).Locks := by
    intro u stage hold hnew hu hlocked hcalls
    have hinserts : ∀ j, (u.setTermination stage).Inserts j ↔ s.Inserts j := by
      intro j
      unfold Inserts setTermination
      rw [hcalls]
    refine ⟨fun j hj => ?_, fun t' ht' hstage => ?_, fun hl => ?_, fun t' ht' hstage => ?_⟩
    · obtain ⟨hl, -, honly⟩ := h.inserting j ((hinserts j).mp hj)
      refine ⟨hlocked.trans hl, fun t' ht' => ?_, fun k hk => honly k ((hinserts k).mp hk)⟩
      cases Option.some.inj ((hmap u stage hu).symm.trans ht')
      exact hnew
    · cases Option.some.inj ((hmap u stage hu).symm.trans ht')
      cases (hstage : stage = .draining)
      cases hnew
    · rcases h.held (hlocked.symm.trans hl) with ⟨j, hj⟩ | ⟨t', ht', hstage⟩
      · exact .inl ⟨j, (hinserts j).mpr hj⟩
      · cases Option.some.inj (ht.symm.trans ht')
        rw [hstage] at hold
        cases hold
    · cases Option.some.inj ((hmap u stage hu).symm.trans ht')
      cases (drained_of_early hnew).symm.trans hstage
  have hnone (hlate : t.stage.early = false) : ∀ j, ¬s.Inserts j := by
    intro j hj
    have := (h.inserting j hj).2.1 t ht
    rw [hlate] at this
    cases this
  cases hstage : t.stage with
  | cancelling =>
      rw [hstage] at hs
      cases hs
      exact hearlier _ _ (by rw [hstage]; rfl) rfl rfl rfl rfl
  | removing =>
      rw [hstage] at hs
      dsimp only at hs
      split at hs
      · cases hs
      · cases hs
        exact hearlier _ _ (by rw [hstage]; rfl) rfl rfl rfl rfl
  | killing =>
      rw [hstage] at hs
      cases hs
      exact hearlier _ _ (by rw [hstage]; rfl) rfl rfl rfl rfl
  | locking =>
      rw [hstage] at hs
      dsimp only at hs
      split at hs
      · cases hs
      · rename_i hfree
        cases hs
        have hno : ∀ j, ¬s.Inserts j := fun j hj => hfree (h.inserting j hj).1
        refine ⟨fun j hj => absurd hj (hno j), fun _ _ _ => rfl, fun _ => .inr ⟨_, hmap _ _ rfl, rfl⟩,
          fun t' ht' hstage' => ?_⟩
        cases Option.some.inj ((hmap _ _ rfl).symm.trans ht')
        cases hstage'
  | draining =>
      rw [hstage] at hs
      dsimp only at hs
      split at hs
      · rename_i hempty
        cases hs
        have hno := hnone (by rw [hstage]; rfl)
        refine ⟨fun j hj => absurd hj (hno j), fun t' ht' hstage' => ?_, fun hl => ?_,
          fun _ _ _ => ?_⟩
        · cases Option.some.inj ((hmap _ _ rfl).symm.trans ht')
          cases hstage'
        · cases hl
        · apply Finmap.ext_lookup
          intro key
          rw [Finmap.lookup_empty, Finmap.lookup_eq_none, ← Finmap.mem_keys]
          exact hempty ▸ Finset.notMem_empty key
      · cases hs
  | announcing =>
      rw [hstage] at hs
      cases hs
      have hno := hnone (by rw [hstage]; rfl)
      refine ⟨fun j hj => absurd hj (hno j), fun t' ht' hstage' => ?_, fun hl => ?_,
        fun _ _ _ => ?_⟩
      · cases Option.some.inj ((hmap _ _ rfl).symm.trans ht')
        cases hstage'
      · rcases h.held hl with ⟨j, hj⟩ | ⟨t', ht', hstage'⟩
        · exact absurd hj (hno j)
        · cases Option.some.inj (ht.symm.trans ht')
          cases hstage.symm.trans hstage'
      · exact h.drained t ht (by rw [hstage]; rfl)
  | finished =>
      rw [hstage] at hs
      cases hs

end Locks

section Listing

/-- Steps of the calls, the reader and the table. -/
theorem Listing.of_same (h : s.Listing) (hlisted : s'.listed = s.listed)
    (hterm : s'.termination = s.termination) (hremovals : s'.removals = s.removals)
    (hlocked : s'.connectionsLocked = s.connectionsLocked)
    (hconnecting : s'.connecting = s.connecting) (hannounced : s'.announced = s.announced)
    (hevents : s'.events = s.events) : s'.Listing := by
  constructor
  · rw [hlisted, hterm]
    exact h.listed
  · rw [hremovals, hlisted]
    exact h.removals
  · rw [hlocked, hconnecting]
    exact h.locked
  · rw [hconnecting, hlisted]
    exact h.activating
  · rw [hannounced, hconnecting]
    exact h.announced
  · rw [hevents, hterm, hannounced]
    exact h.events

theorem Listing.dropPending (h : s.Listing) (key : String) : (s.dropPending key).Listing := by
  unfold McpConnection.dropPending
  cases s.pending.lookup key with
  | none => exact h
  | some pending => exact h.of_same rfl rfl rfl rfl rfl rfl rfl

theorem Listing.exchange (h : s.Listing) (ender : Nat) (reason : McpError) :
    (s.exchange ender reason).Listing := by
  cases ht : s.termination with
  | some t =>
      refine h.of_same rfl ?_ rfl rfl rfl rfl rfl
      unfold McpConnection.exchange
      rw [ht]
      rfl
  | none =>
      have hlisted := h.listed
      have hevents := h.events
      rw [ht] at hlisted hevents
      have hterm : (s.exchange ender reason).termination = some ⟨reason, .cancelling⟩ := by
        unfold McpConnection.exchange
        rw [ht]
        rfl
      refine ⟨?_, h.removals, h.locked, h.activating, h.announced, ?_⟩
      · rw [hterm]
        exact hlisted
      · rw [hterm]
        exact hevents

/-- Taking the connection off the table counts, and so does the announcement of its end. -/
theorem Listing.terminate (h : s.Listing) (hs : s.terminate = some s') : s'.Listing := by
  obtain ⟨t, ht, hs⟩ := Option.bind_eq_some_iff.mp hs
  have hlisted : s.listed = t.stage.listed := by
    rw [h.listed, ht]
    rfl
  have hevents := h.events
  rw [ht, Option.any_some] at hevents
  cases hstage : t.stage with
  | cancelling =>
      rw [hstage] at hs hlisted hevents
      cases hs
      refine ⟨?_, h.removals, h.locked, h.activating, h.announced, ?_⟩
      · simpa [setTermination, ht, TerminateStage.listed] using hlisted
      · simpa [setTermination, ht] using hevents
  | removing =>
      rw [hstage] at hs hlisted hevents
      have hremovals := h.removals
      rw [hlisted] at hremovals
      dsimp only at hs
      split at hs
      · cases hs
      · rename_i hfree
        cases hs
        have hnot : s.connecting ≠ .activating := fun he => hfree (h.locked.mpr he)
        refine ⟨?_, ?_, h.locked, fun he => absurd he hnot, h.announced, ?_⟩
        · simp [setTermination, ht, TerminateStage.listed]
        · simpa [setTermination, hlisted, TerminateStage.listed] using hremovals
        · simpa [setTermination, ht] using hevents
  | killing =>
      rw [hstage] at hs hlisted hevents
      cases hs
      refine ⟨?_, h.removals, h.locked, h.activating, h.announced, ?_⟩
      · simpa [setTermination, ht, TerminateStage.listed] using hlisted
      · simpa [setTermination, ht] using hevents
  | locking =>
      rw [hstage] at hs hlisted hevents
      dsimp only at hs
      split at hs
      · cases hs
      · cases hs
        refine ⟨?_, h.removals, h.locked, h.activating, h.announced, ?_⟩
        · simpa [setTermination, ht, TerminateStage.listed] using hlisted
        · simpa [setTermination, ht] using hevents
  | draining =>
      rw [hstage] at hs hlisted hevents
      dsimp only at hs
      split at hs
      · cases hs
        refine ⟨?_, h.removals, h.locked, h.activating, h.announced, ?_⟩
        · simpa [setTermination, ht, TerminateStage.listed] using hlisted
        · simpa [setTermination, ht] using hevents
      · cases hs
  | announcing =>
      rw [hstage] at hs hlisted hevents
      cases hs
      refine ⟨?_, h.removals, h.locked, h.activating, h.announced, ?_⟩
      · simpa [setTermination, ht, TerminateStage.listed] using hlisted
      · cases ha : s.announced with
        | true => simpa [setTermination, ht, ha] using hevents
        | false => simpa [setTermination, ht, ha] using hevents
  | finished =>
      rw [hstage] at hs
      cases hs

end Listing

end McpConnection

end Attyd.Mcp
