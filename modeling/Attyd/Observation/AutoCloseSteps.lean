import Attyd.Observation.AutoClose
import Attyd.Library.Machine

/-!
# The bridge and its countdown

The bridge holds one countdown, and every operation on the observers takes a step that a
countdown may take. A close that starts on an idle session is the only work of the session.
-/

namespace Attyd.Observation

open Session

variable {δ : Type}

section Handles

theorem Handles.pending_iff {handles : Handles} {permit : Nat} :
    handles.pending permit = true ↔ (handles.permits.map (·.state))[permit]? = some .pending := by
  rw [Handles.pending, List.getElem?_map]
  cases handles.permits[permit]? with
  | none => simp
  | some cell => simp

theorem Handles.states_cancel (handles : Handles) (permit : Nat) :
    (handles.cancel permit).permits.map (·.state) =
      (handles.permits.map (·.state)).modify permit fun state =>
        if state = .pending then .cancelled else state := by
  refine List.ext_getElem? fun i => ?_
  simp only [Handles.cancel, List.getElem?_map, List.getElem?_modify]
  cases handles.permits[i]? with
  | none => rfl
  | some cell =>
      simp only [Option.map_some]
      split <;> rfl

theorem Handles.states_claim {handles : Handles} {permit : Nat}
    (h : handles.pending permit = true) :
    (handles.claim permit).2.permits.map (·.state) =
      (handles.permits.map (·.state)).set permit .claimed := by
  have hpending := Handles.pending_iff.mp h
  refine List.ext_getElem? fun i => ?_
  simp only [Handles.claim, List.getElem?_map, List.getElem?_modify, List.getElem?_set]
  rw [List.getElem?_map] at hpending
  by_cases hi : permit = i
  · subst hi
    obtain ⟨cell, hcell, hstate⟩ := Option.map_eq_some_iff.mp hpending
    obtain ⟨hlt, hget⟩ := List.getElem?_eq_some_iff.mp hcell
    simp [hget, hstate, hlt]
  · simp [hi]

end Handles

section Close

variable (session : SessionState δ) (requestId : String)

theorem releaseClose_incarnation :
    (releaseClose session requestId).incarnation = session.incarnation := by
  rw [releaseClose, SessionState.settleExclusive]
  split <;> rename_i h
  · split at h
    · cases h
      rfl
    · cases h
  · rfl

/-- What starting a close leaves of a session: its operation and its lifecycle change. -/
theorem startClose_eq_true {inUse : Bool} (h : (startClose session requestId inUse).1 = true) :
    ∃ live, session.live = some live ∧ (startClose session requestId inUse).2 =
      ({ session with
        live := some { live with lifecycle := .closing }
        operation := some ⟨requestId, .close, "closing", none⟩ } : SessionState δ).commitLive := by
  rw [startClose] at h ⊢
  cases inUse with
  | true => cases h
  | false =>
      simp only [Bool.false_eq_true, if_false] at h ⊢
      cases hreserved : session.beginExclusive .close requestId with
      | error error =>
          rw [hreserved] at h
          cases h
      | ok reserved =>
          simp only [hreserved] at h ⊢
          obtain ⟨_, -, hok⟩ := bind_eq_ok.mp hreserved
          cases hlive : reserved.live with
          | none =>
              rw [hlive] at h
              cases h
          | some live =>
              simp only [hlive] at h ⊢
              cases hstarted : reserved.startOperation live requestId .close "closing" with
              | error error =>
                  rw [hstarted] at h
                  cases h
              | ok reduction =>
                  simp only [SessionState.startOperation, ite_error_eq_ok] at hstarted
                  obtain ⟨-, -, -, hreduction⟩ := hstarted
                  cases hreduction
                  cases hok
                  exact ⟨live, hlive, rfl⟩

theorem startClose_incarnation (inUse : Bool) :
    (startClose session requestId inUse).2.incarnation = session.incarnation := by
  cases hstarted : (startClose session requestId inUse).1 with
  | true =>
      obtain ⟨live, -, heq⟩ := startClose_eq_true session requestId hstarted
      rw [heq]
      rfl
  | false =>
      rw [startClose] at hstarted ⊢
      cases inUse with
      | true => rfl
      | false =>
          simp only [Bool.false_eq_true, if_false] at hstarted ⊢
          cases hreserved : session.beginExclusive .close requestId with
          | error error => rfl
          | ok reserved =>
              simp only [hreserved] at hstarted ⊢
              obtain ⟨_, -, hok⟩ := bind_eq_ok.mp hreserved
              have hincarnation : reserved.incarnation = session.incarnation := by
                cases hok
                rfl
              cases hlive : reserved.live with
              | none => exact (releaseClose_incarnation reserved requestId).trans hincarnation
              | some live =>
                  simp only [hlive] at hstarted ⊢
                  cases hoperation : reserved.startOperation live requestId .close "closing" with
                  | error error =>
                      exact (releaseClose_incarnation reserved requestId).trans hincarnation
                  | ok reduction =>
                      rw [hoperation] at hstarted
                      cases hstarted

theorem failClose_incarnation :
    (failClose session requestId).incarnation = session.incarnation := by
  rw [failClose]
  cases session.live with
  | none => exact releaseClose_incarnation session requestId
  | some live =>
      simp only
      cases hfailed : session.failOperation live requestId .close with
      | error error => rfl
      | ok reduction =>
          simp only [SessionState.failOperation, ite_error_eq_ok] at hfailed
          obtain ⟨-, hok⟩ := hfailed
          cases hok
          exact releaseClose_incarnation _ requestId

/-- A close that starts on an idle session is the only work of the session. -/
theorem work_startClose {materialization historySync inUse : Bool}
    (h : (startClose session requestId inUse).1 = true)
    (hidle : SessionWork.of session materialization historySync = .idle) :
    SessionWork.of { (startClose session requestId inUse).2 with operation := none }
      materialization historySync = .idle := by
  obtain ⟨live, hlive, heq⟩ := startClose_eq_true session requestId h
  rw [heq]
  simp only [SessionWork.of, hlive, Option.any_some, SessionState.commitLive, Option.map_some]
    at hidle ⊢
  split at hidle
  · cases hidle
  · next hinteractions =>
      split at hidle
      · cases hidle
      · next hrunning =>
          refine (if_neg hinteractions).trans (if_neg ?_)
          simp only [Bool.or_eq_true, not_or] at hrunning ⊢
          obtain ⟨⟨⟨⟨⟨hturn, -⟩, hload⟩, hterminals⟩, hmaterialization⟩, hsync⟩ := hrunning
          exact ⟨⟨⟨⟨⟨hturn, by simp⟩, hload⟩, hterminals⟩, hmaterialization⟩, hsync⟩

end Close

namespace Bridge

/-- The countdown of the session, as the bridge holds it. -/
def countdown (b : Bridge δ) : Countdown where
  owner := b.owner.map (·.state.incarnation)
  absence := b.owner.bind (·.observers.absence)
  attempted := b.owner.any (·.observers.closeAttempted)
  permits := b.handles.permits.map (·.state)
  allocated := b.nextIncarnation
  log := b.log

section Observers

/-- The countdown of a bridge whose session is there. -/
theorem countdown_of_owner {b : Bridge δ} {owner : Allocation δ} (howner : b.owner = some owner) :
    b.countdown =
      ⟨some owner.state.incarnation, owner.observers.absence, owner.observers.closeAttempted,
        b.handles.permits.map (·.state), b.nextIncarnation, b.log⟩ := by
  simp [countdown, howner]

theorem permits_disarm (c : Countdown) (observers : SessionObservers) (handles : Handles)
    (habsence : c.absence = observers.absence)
    (hpermits : c.permits = handles.permits.map (·.state)) :
    c.disarm.permits = (observers.revoke handles).permits.map (·.state) := by
  rw [Countdown.disarm, SessionObservers.revoke, habsence]
  cases observers.absence with
  | none => exact hpermits
  | some timer =>
      rw [Option.elim_some, Option.elim_some, Handles.states_cancel, ← hpermits]
      rfl

/-- The observers stopped their countdown, for a reason the log names. -/
theorem step_disarm {b : Bridge δ} {owner : Allocation δ} (howner : b.owner = some owner)
    (happening : Happening) (observers : SessionObservers)
    (hof : happening.incarnation = owner.state.incarnation)
    (hdisarms : happening.disarms = true) {b' : Bridge δ}
    (howner' : b'.owner = some { owner with observers })
    (habsence : observers.absence = none)
    (hattempted : observers.closeAttempted = owner.observers.closeAttempted)
    (hpermits : b'.handles.permits = (owner.observers.revoke b.handles).permits)
    (hnext : b'.nextIncarnation = b.nextIncarnation) (hlog : b'.log = happening :: b.log) :
    b.countdown.Step b'.countdown := by
  have hstep : b.countdown.Step (b.countdown.disarm.note happening) :=
    .disarm (by rw [countdown_of_owner howner]) hof hdisarms
  have heq : b'.countdown = b.countdown.disarm.note happening := by
    rw [countdown_of_owner howner', habsence, hattempted, hpermits, hnext, hlog]
    have hdisarm := permits_disarm b.countdown owner.observers b.handles (by rw [countdown_of_owner howner]) rfl
    rw [← hdisarm]
    simp only [Countdown.note]
    congr 1 <;> simp [countdown_of_owner howner]
  exact heq ▸ hstep

theorem step_observe {b : Bridge δ} {owner : Allocation δ} (howner : b.owner = some owner)
    (id lease : Nat) : b.countdown.Step (b.observe id lease).countdown := by
  have hcountdown := countdown_of_owner howner
  by_cases hlease : lease ∈ b.handles.cancelled ∨ lease ∈ b.handles.finished
  · have hsame : (b.observe id lease).countdown = b.countdown := by
      simp [observe, onObservers, howner, SessionObservers.observe, hlease, countdown]
    exact hsame ▸ .rest
  · cases hlookup : owner.observers.observers.lookup id with
    | some existing =>
        have hvacant : owner.observers.absence = none := by
          by_contra ha
          rw [owner.observers.vacant ha, Finmap.lookup_empty] at hlookup
          cases hlookup
        by_cases hexisting : existing = lease
        · have hnoted : (b.observe id lease).countdown =
              b.countdown.note (.accepted owner.state.incarnation false) := by
            simp [observe, onObservers, howner, SessionObservers.observe, hlease, hlookup,
              hexisting, countdown, Countdown.note]
          exact hnoted ▸ .repeated (by rw [hcountdown]) (by rw [hcountdown, hvacant])
        · have hsame : (b.observe id lease).countdown = b.countdown := by
            simp [observe, onObservers, howner, SessionObservers.observe, hlease, hlookup,
              hexisting, countdown]
          exact hsame ▸ .rest
    | none =>
        have hdisarm := permits_disarm b.countdown owner.observers b.handles (by rw [hcountdown]) rfl
        have haccepted : (b.observe id lease).countdown =
            { b.countdown.disarm.note (.accepted owner.state.incarnation true) with
              attempted := false } := by
          simp only [observe, onObservers, howner, SessionObservers.observe, hlease, hlookup,
            if_false, countdown, Countdown.note]
          rw [hcountdown] at hdisarm
          congr 1
          · simp
          · exact hdisarm.symm
          · simp
          · simp
        exact haccepted ▸ .accept (by rw [hcountdown])

theorem step_unobserve {b : Bridge δ} {owner : Allocation δ} (howner : b.owner = some owner)
    (id lease : Nat) : b.countdown.Step (b.unobserve id lease).countdown := by
  have hsame : (b.unobserve id lease).countdown = b.countdown := by
    by_cases hlookup : owner.observers.observers.lookup id = some lease
    · simp [unobserve, onObservers, howner, SessionObservers.unobserve, hlookup, countdown,
        Handles.cancelLeases]
    · simp [unobserve, onObservers, howner, SessionObservers.unobserve, hlookup, countdown]
  exact hsame ▸ .rest

theorem step_stopAbsence {b : Bridge δ} {owner : Allocation δ} (howner : b.owner = some owner) :
    b.countdown.Step b.stopAbsence.countdown :=
  step_disarm howner (.stopped owner.state.incarnation)
    ((owner.observers.cancelAbsence b.handles).1) rfl rfl
    (by simp [stopAbsence, onObservers, howner, SessionObservers.stopAbsence]) rfl rfl
    (by simp [stopAbsence, onObservers, howner, SessionObservers.stopAbsence,
      SessionObservers.cancelAbsence])
    (by simp [stopAbsence, onObservers, howner])
    (by simp [stopAbsence, onObservers, howner])

theorem step_shutdown {b : Bridge δ} {owner : Allocation δ} (howner : b.owner = some owner) :
    b.countdown.Step b.shutdown.countdown :=
  step_disarm howner (.stopped owner.state.incarnation)
    ((owner.observers.shutdown b.handles).1) rfl rfl
    (by simp [shutdown, onObservers, howner]) rfl rfl
    (by simp [shutdown, onObservers, howner, SessionObservers.shutdown,
      SessionObservers.cancelAbsence, Handles.cancelLeases])
    (by simp [shutdown, onObservers, howner])
    (by simp [shutdown, onObservers, howner])

theorem step_finishObservers {b : Bridge δ} {owner : Allocation δ}
    (howner : b.owner = some owner) : b.countdown.Step b.finishObservers.countdown :=
  step_disarm howner (.stopped owner.state.incarnation)
    ((owner.observers.drainForFinish b.handles).2.1) rfl rfl
    (by simp [finishObservers, onObservers, howner]) rfl rfl
    (by simp [finishObservers, onObservers, howner, SessionObservers.drainForFinish,
      SessionObservers.cancelAbsence, Handles.finishLeases])
    (by simp [finishObservers, onObservers, howner])
    (by simp [finishObservers, onObservers, howner])

theorem step_markCloseAttempted {b : Bridge δ} {owner : Allocation δ}
    (howner : b.owner = some owner) : b.countdown.Step b.markCloseAttempted.countdown := by
  have hmarked : b.markCloseAttempted.countdown = { b.countdown with attempted := true } := by
    simp [markCloseAttempted, onObservers, howner, SessionObservers.markCloseAttempted, countdown]
  exact hmarked ▸ .attempt

/-- What refreshing does: it ends the countdown of a session that cannot be closed, arms one
where none counts, or leaves everything as it is. -/
theorem refresh_cases (observers : SessionObservers) (handles : Handles)
    (lifecycle : Option SessionLifecycle) (work : SessionWork) (timeoutSeconds : Int) (now : Nat) :
    let settled := observers.settled handles
    let refreshed := observers.refresh handles lifecycle work timeoutSeconds now
    (settled.blocked lifecycle work timeoutSeconds = true ∧
      refreshed = (none, settled.cancelAbsence handles)) ∨
    (settled.blocked lifecycle work timeoutSeconds = false ∧ refreshed = (none, settled, handles)) ∨
    (settled.blocked lifecycle work timeoutSeconds = false ∧ settled.absence = none ∧
      settled.closeAttempted = false ∧ ∃ timer, timer.permit = handles.permits.length ∧
        timer.started = now ∧ refreshed.1 = some timer ∧ refreshed.2.1.absence = some timer ∧
        refreshed.2.1.closeAttempted = false ∧
        refreshed.2.2 = { handles with permits := handles.permits ++ [⟨.pending, false⟩] }) := by
  simp only [SessionObservers.refresh]
  cases hblocked : (observers.settled handles).blocked lifecycle work timeoutSeconds with
  | true => exact .inl ⟨rfl, by simp⟩
  | false =>
      by_cases hkeep : ((observers.settled handles).absence.isSome ||
          (observers.settled handles).closeAttempted || lifecycle ≠ some .active) = true
      · exact .inr (.inl ⟨rfl, if_pos hkeep⟩)
      · simp only [Bool.or_eq_true, not_or, Option.isSome_iff_ne_none, ne_eq, not_not,
          Bool.not_eq_true] at hkeep
        obtain ⟨⟨habsence, hattempted⟩, hlifecycle⟩ := hkeep
        refine .inr (.inr ⟨rfl, habsence, hattempted, ?_⟩)
        simp only [habsence, hattempted, hlifecycle]
        exact ⟨_, rfl, rfl, rfl, rfl, rfl, rfl⟩

/-- The bridge after a refresh, when the session is there. -/
theorem refresh_of_owner {b : Bridge δ} {owner : Allocation δ} (howner : b.owner = some owner)
    (lifecycle : Option SessionLifecycle) (work : SessionWork) (timeoutSeconds : Int) :
    b.refresh lifecycle work timeoutSeconds =
      let refreshed := owner.observers.refresh b.handles lifecycle work timeoutSeconds b.now
      { b with
        owner := some { owner with observers := refreshed.2.1 }
        handles := refreshed.2.2
        timers := b.timers ++
          (refreshed.1.map fun timer => ⟨owner.state.incarnation, timer, false⟩).toList
        log :=
          (if (owner.observers.settled b.handles).blocked lifecycle work timeoutSeconds then
            [.unready owner.state.incarnation work] else []) ++
            (refreshed.1.map (.armed owner.state.incarnation)).toList ++ b.log } := by
  simp only [refresh, howner]

/-- A refresh is one step of the countdown, and starts a task for the countdown it arms. -/
theorem step_refresh {b : Bridge δ} {owner : Allocation δ} (howner : b.owner = some owner)
    (lifecycle : Option SessionLifecycle) (work : SessionWork) (timeoutSeconds : Int) :
    let b' := b.refresh lifecycle work timeoutSeconds
    b.countdown.Step b'.countdown ∧ ∀ task ∈ b'.timers, task ∈ b.timers ∨
      task.waited = false ∧ b'.countdown.absence = some task.timer ∧
        task.timer.permit = b.handles.permits.length ∧
        task.timer.permit < b'.handles.permits.length ∧ task.timer.started ≤ b'.now := by
  have hcountdown := countdown_of_owner howner
  intro b'
  have hb' : b' = _ := refresh_of_owner howner lifecycle work timeoutSeconds
  rcases refresh_cases owner.observers b.handles lifecycle work timeoutSeconds b.now with
    ⟨hblocked, hrefreshed⟩ | ⟨hblocked, hrefreshed⟩ |
    ⟨hblocked, habsence, hattempted, timer, hpermit, hstarted, hsome, habsence', hattempted', hhandles⟩
  · rw [hrefreshed, hblocked] at hb'
    refine ⟨step_disarm howner (.unready owner.state.incarnation work)
      (((owner.observers.settled b.handles).cancelAbsence b.handles).1) rfl rfl
      (by rw [hb']) rfl rfl (by rw [hb']; rfl) (by rw [hb']) (by rw [hb']; rfl), fun task htask => ?_⟩
    rw [hb'] at htask
    exact .inl (by simpa using htask)
  · rw [hrefreshed, hblocked] at hb'
    have hsame : b'.countdown = b.countdown := by
      rw [hb', hcountdown]
      rfl
    refine ⟨hsame ▸ .rest, fun task htask => ?_⟩
    rw [hb'] at htask
    exact .inl (by simpa using htask)
  · simp only [hblocked, hsome, hhandles] at hb'
    have harmed : b'.countdown =
        { b.countdown.note (.armed owner.state.incarnation timer) with
          absence := some timer
          permits := b.countdown.permits ++ [.pending] } := by
      rw [hb', hcountdown]
      simp [countdown, habsence', hattempted', Countdown.note,
        show owner.observers.closeAttempted = false from hattempted]
    refine ⟨?_, fun task htask => ?_⟩
    · rw [harmed]
      refine .arm (by rw [hcountdown]) (by rw [hcountdown]; exact habsence)
        (by rw [hcountdown]; exact hattempted) ?_
      rw [hpermit, hcountdown, List.length_map]
    · rw [hb'] at htask
      rcases List.mem_append.mp htask with hold | hnew
      · exact .inl hold
      · simp only [Option.map_some, Option.toList_some, List.mem_singleton] at hnew
        refine .inr ⟨by rw [hnew], by rw [harmed, hnew], by rw [hnew]; exact hpermit, ?_, ?_⟩
        · rw [hnew, hb']
          simp [hpermit]
        · rw [hnew, hb']
          exact hstarted.le

end Observers

end Bridge

end Attyd.Observation
