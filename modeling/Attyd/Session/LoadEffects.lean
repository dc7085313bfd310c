import Attyd.Session.Effects

/-!
# What the operations of a load do

Each operation of a load either fails and changes nothing, or does all of its
work; either way it moves the slice of its session along transitions of the kinds
named here.
-/

namespace Attyd.Session

open Json (Value)
open History

variable {σ δ : Type} [DecidableEq δ] {sha256 : String → δ} {r : SessionRegistry σ δ}
  {sessionId : String}

section Touch

omit [DecidableEq δ] in
theorem Touched.refl (a : SessionState δ) : Touched a a :=
  ⟨rfl, rfl, rfl, rfl, ⟨(·.execution), Option.map_id_fun.symm ▸ rfl⟩, rfl, rfl, rfl, rfl, rfl⟩

omit [DecidableEq δ] in
theorem touched_advanceRevision (a : SessionState δ) : Touched a a.advanceRevision :=
  { Touched.refl a with }

theorem putState_effect {kind : Action} {a b : SessionState δ} (h : r.state sessionId = some a)
    (ht : Transition sha256 sessionId kind (r.slice sessionId)
      ((r.slice sessionId).setSession b)) :
    Effect sha256 sessionId [kind] r (r.putState sessionId b) := by
  refine Effect.of_session (written_putState h b) ht ?_
  rw [history_putState]
  exact id

theorem putOverlay_effect {kind : Action} {a b : SessionState δ} (h : r.state sessionId = some a)
    (ht : Transition sha256 sessionId kind (r.slice sessionId)
      ((r.slice sessionId).setSession b)) :
    Effect sha256 sessionId [kind] r (r.putOverlay sessionId a b) := by
  refine Effect.of_session (written_putOverlay h b) ht ?_
  rw [history_putOverlay]
  exact id

end Touch

section Load

variable [Inhabited σ]

omit [DecidableEq δ] in
/-- A load that may not begin changes nothing. -/
theorem beginLoad_cases
    (r : SessionRegistry σ δ) (sessionId : String) (incarnation : Nat)
    (attemptId : String) :
    (∃ error, r.beginLoad sessionId incarnation attemptId = (.error error, r)) ∨
      ∃ a cache, r.state sessionId = some a ∧ a.incarnation = incarnation ∧
        SessionRegistry.mayLoad a attemptId = true ∧
        r.history.beginCandidate ⟨sessionId, incarnation⟩ attemptId = (.ok (), cache) ∧
        r.beginLoad sessionId incarnation attemptId =
          (.ok (), SessionRegistry.putState { r with history := cache } sessionId
            (SessionRegistry.loadBegun a attemptId)) := by
  unfold SessionRegistry.beginLoad
  cases hr : r.requireState sessionId incarnation with
  | error error => exact .inl ⟨error, rfl⟩
  | ok a =>
      obtain ⟨ha, hi⟩ := requireState_eq_ok.mp hr
      cases hm : SessionRegistry.mayLoad a attemptId with
      | false => exact .inl ⟨.wrongPhase, by simp only [hm, Bool.not_false, if_true]⟩
      | true =>
          simp only [hm, Bool.not_true, Bool.false_eq_true, if_false]
          rcases r.history.beginCandidate_cases ⟨sessionId, incarnation⟩ attemptId with
            ⟨error, hb⟩ | ⟨-, cache, hb, -⟩
          · exact .inl ⟨.history error, by simp only [hb]⟩
          · exact .inr ⟨a, cache, ha, hi, hm, hb, by simp only [hb]⟩

theorem beginLoad_effect (sha256 : String → δ) (r : SessionRegistry σ δ) (sessionId : String)
    (incarnation : Nat) (attemptId : String) :
    Effect sha256 sessionId [.begun] r (r.beginLoad sessionId incarnation attemptId).2 := by
  rcases beginLoad_cases r sessionId incarnation attemptId with
    ⟨error, hr⟩ | ⟨a, cache, ha, rfl, hm, hb, hr⟩
  · rw [hr]
    exact .refl r
  · rcases r.history.beginCandidate_cases ⟨sessionId, a.incarnation⟩ attemptId with
      ⟨error, hb'⟩ | ⟨hfree, cache', hb', hview⟩
    · rw [hb] at hb'
      cases hb'
    · rw [hb] at hb'
      cases hb'
      rw [hr]
      have hw := written_putState_history ha cache (SessionRegistry.loadBegun a attemptId)
      rw [hview] at hw
      refine .of_setAttempt hw (.begun attemptId ha hm hfree) ?_
      intro hf
      have hfold := hf.beginCandidate ⟨sessionId, a.incarnation⟩ attemptId
      rw [hb] at hfold
      rw [history_putState]
      exact hfold

theorem appendLoadUpdate_effect (sha256 : String → δ) (r : SessionRegistry σ δ)
    (sessionId : String) (incarnation : Nat) (attemptId : String) (update : Value) :
    Effect sha256 sessionId [] r
      (r.appendLoadUpdate sessionId incarnation attemptId update).2 := by
  unfold SessionRegistry.appendLoadUpdate
  split
  · exact .refl r
  · exact .of_view (fun _ => rfl) (HistoryCache.view_appendCandidate _ _) rfl rfl
      fun hf => hf.appendCandidate _ _ _

theorem appendLoadUpdates_effect (sha256 : String → δ) (sessionId : String) (incarnation : Nat)
    (attemptId : String) (updates : List Value) (r : SessionRegistry σ δ) :
    Effect sha256 sessionId [] r
      (SessionRegistry.appendLoadUpdates sessionId incarnation attemptId r updates).2 := by
  induction updates generalizing r with
  | nil => exact .refl r
  | cons update updates ih =>
      have hstep := appendLoadUpdate_effect sha256 r sessionId incarnation attemptId update
      rw [SessionRegistry.appendLoadUpdates]
      cases happ : r.appendLoadUpdate sessionId incarnation attemptId update with
      | mk answer r' =>
          rw [happ] at hstep
          cases answer with
          | error error => exact hstep
          | ok u => exact hstep.trans (ih r')

theorem invalidateLoad_effect (sha256 : String → δ) (validate : ValidateHistoryUpdate σ) (r : SessionRegistry σ δ)
    (sessionId : String) (incarnation : Nat) (attemptId : String) :
    Effect sha256 sessionId [] r (r.invalidateLoad sessionId incarnation attemptId).2 := by
  unfold SessionRegistry.invalidateLoad
  split
  · exact .refl r
  · exact .of_view (fun _ => rfl) (HistoryCache.view_poisonCandidate _ _) rfl rfl
      fun hf => hf.poisonCandidate _ validate _ _

omit [DecidableEq δ] in
/-- A load that is not the current one cannot fail. -/
theorem failLoad_cases
    (r : SessionRegistry σ δ) (sessionId : String) (incarnation : Nat)
    (attemptId message : String) (retryable : Bool) :
    (∃ error, r.failLoad sessionId incarnation attemptId message retryable = (.error error, r)) ∨
      ∃ a cache, r.state sessionId = some a ∧ a.incarnation = incarnation ∧
        a.loadAttempt = some attemptId ∧
        r.history.abortCandidate ⟨sessionId, incarnation⟩ attemptId = (.ok (), cache) ∧
        r.failLoad sessionId incarnation attemptId message retryable =
          (.ok (), SessionRegistry.putState { r with history := cache } sessionId
            { a with
              loadOrigin := none
              loadAttempt := none
              syncError := some message
              phase := SessionRegistry.phaseAfterFailure a.loadOrigin
                retryable }.advanceRevision) := by
  unfold SessionRegistry.failLoad
  cases hr : r.requireState sessionId incarnation with
  | error error => exact .inl ⟨error, rfl⟩
  | ok a =>
      obtain ⟨ha, hi⟩ := requireState_eq_ok.mp hr
      by_cases hm : a.loadAttempt = some attemptId
      · simp only [hm, ne_eq, not_true, if_false]
        rcases r.history.abortCandidate_cases ⟨sessionId, incarnation⟩ attemptId with
          ⟨error, hb⟩ | ⟨-, cache, hb, -⟩
        · exact .inl ⟨.history error, by simp only [hb]⟩
        · exact .inr ⟨a, cache, ha, hi, hm, hb, by simp only [hb]⟩
      · exact .inl ⟨.operationMismatch, by simp only [ne_eq, hm, not_false_eq_true, if_true]⟩

theorem failLoad_effect (sha256 : String → δ)
    (r : SessionRegistry σ δ) (sessionId : String) (incarnation : Nat)
    (attemptId message : String) (retryable : Bool) :
    Effect sha256 sessionId [.failed] r
      (r.failLoad sessionId incarnation attemptId message retryable).2 := by
  rcases failLoad_cases r sessionId incarnation attemptId message retryable with
    ⟨error, hr⟩ | ⟨a, cache, ha, rfl, hm, hb, hr⟩
  · rw [hr]
    exact .refl r
  · rcases r.history.abortCandidate_cases ⟨sessionId, a.incarnation⟩ attemptId with
      ⟨error, hb'⟩ | ⟨-, cache', hb', hview⟩
    · rw [hb] at hb'
      cases hb'
    · rw [hb] at hb'
      cases hb'
      rw [hr]
      have hw := fun b => written_putState_history ha cache b
      simp only [hview] at hw
      refine .of_setAttempt (hw _) (.failed attemptId message retryable ha hm rfl) ?_
      intro hf
      have hfold := hf.abortCandidate ⟨sessionId, a.incarnation⟩ attemptId
      rw [hb] at hfold
      rw [history_putState]
      exact hfold

/-- A load that may be published: the session it belongs to, its handle and its fold. -/
structure Commits
    (r : SessionRegistry σ δ) (sessionId : String) (incarnation : Nat)
    (attemptId : String) (a : SessionState δ) (replay : Nat) (updates : List Value) : Prop where
  state : r.state sessionId = some a
  owner : a.incarnation = incarnation
  attempt : a.loadAttempt = some attemptId
  phase : a.phase = .loading ∨ a.phase = .reconciling
  checked : r.checkReconciling a ⟨sessionId, incarnation⟩ attemptId = .ok ()
  digest : a.validateHistoryCommit = .ok ()
  current : r.history.candidates.lookup ⟨sessionId, incarnation⟩ = some ⟨attemptId, replay⟩
  updates : (r.history.replays.getD replay .default).updates = .ok updates

/-- The registry once a load is published. -/
def loadPublished (r : SessionRegistry σ δ) (key : SessionKey) (a : SessionState δ)
    (replay : Nat) (updates : List Value) : SessionRegistry σ δ :=
  let published := r.history.publish key replay updates
  SessionRegistry.pruneRetainedTerminals
    { SessionRegistry.putState { r with history := published.2 } key.sessionId
        (a.historyCommitted published.1.revision updates.length (a.phase = .loading)) with
      overlayBytes := r.overlayBytes - a.activeOverlayBytes } key updates

omit [DecidableEq δ] in
/-- A load is published, or the commit changes nothing. -/
theorem commitLoad_cases
    (r : SessionRegistry σ δ) (sessionId : String) (incarnation : Nat)
    (attemptId : String) :
    (∃ error, r.commitLoad sessionId incarnation attemptId = (.error error, r)) ∨
      ∃ a replay updates, Commits r sessionId incarnation attemptId a replay updates ∧
        r.commitLoad sessionId incarnation attemptId =
          (.ok (r.history.publish ⟨sessionId, incarnation⟩ replay updates).1,
            loadPublished r ⟨sessionId, incarnation⟩ a replay updates) := by
  unfold SessionRegistry.commitLoad SessionRegistry.requireLoading
  cases hr : r.requireState sessionId incarnation with
  | error error => exact .inl ⟨error, rfl⟩
  | ok a =>
      obtain ⟨ha, hi⟩ := requireState_eq_ok.mp hr
      simp only [ok_bind]
      by_cases hl : a.loadAttempt = some attemptId ∧ (a.phase = .loading ∨ a.phase = .reconciling)
      case neg => exact .inl ⟨.operationMismatch, by simp only [hl, if_false]⟩
      case pos =>
        simp only [hl, and_self, if_true]
        cases hc : r.checkReconciling a ⟨sessionId, incarnation⟩ attemptId with
        | error error => exact .inl ⟨error, rfl⟩
        | ok u =>
            cases hv : a.validateHistoryCommit with
            | error error => exact .inl ⟨error, rfl⟩
            | ok u =>
                rcases r.history.commitCandidate_cases ⟨sessionId, incarnation⟩ attemptId with
                  ⟨error, hcommit⟩ | ⟨replay, updates, hkey, hu, hcommit⟩
                · exact .inl ⟨.history error, by simp only [hcommit]⟩
                · refine .inr ⟨a, replay, updates, ⟨ha, hi, hl.1, hl.2, hc, hv, hkey, hu⟩, ?_⟩
                  simp only [hcommit]
                  rfl

omit [DecidableEq δ] [Inhabited σ] in
/-- Pruning drops terminals and nothing else. -/
theorem pruneRetainedTerminals_eq (r : SessionRegistry σ δ) (key : SessionKey)
    (updates : List Value) : ∃ retainedTerminals retainedTerminalBytes,
      r.pruneRetainedTerminals key updates =
        { r with retainedTerminals, retainedTerminalBytes } := by
  unfold SessionRegistry.pruneRetainedTerminals
  cases r.retainedTerminals.lookup key with
  | none => exact ⟨r.retainedTerminals, r.retainedTerminalBytes, rfl⟩
  | some terminals => exact ⟨_, _, rfl⟩

omit [DecidableEq δ] in
theorem loadPublished_history (r : SessionRegistry σ δ) (key : SessionKey)
    (a : SessionState δ) (replay : Nat) (updates : List Value) :
    (loadPublished r key a replay updates).history =
      (r.history.publish key replay updates).2 := by
  unfold loadPublished
  obtain ⟨t, b, hprune⟩ := pruneRetainedTerminals_eq _ key updates
  rw [hprune]
  exact history_putState _ _ _

omit [DecidableEq δ] in
theorem written_loadPublished {incarnation : Nat} {attemptId : String} {a : SessionState δ}
    {replay : Nat} {updates : List Value}
    (h : Commits r sessionId incarnation attemptId a replay updates) :
    Written r (loadPublished r ⟨sessionId, incarnation⟩ a replay updates) sessionId
      (some (a.historyCommitted
        (r.history.publish ⟨sessionId, incarnation⟩ replay updates).1.revision
        updates.length (a.phase = .loading)))
      (r.history.publish ⟨sessionId, incarnation⟩ replay updates).2.view r.nextOperation := by
  unfold loadPublished
  obtain ⟨t, b, hprune⟩ := pruneRetainedTerminals_eq _ ⟨sessionId, incarnation⟩ updates
  rw [hprune]
  exact (written_putState_history h.state _ _).congr rfl rfl rfl rfl

/-- A load that may be published has the effect of a load. -/
theorem Commits.effect (sha256 : String → δ) {incarnation : Nat} {attemptId : String}
    {a : SessionState δ} {replay : Nat} {updates : List Value}
    (h : Commits r sessionId incarnation attemptId a replay updates) :
    Effect sha256 sessionId [.loaded] r
      (loadPublished r ⟨sessionId, incarnation⟩ a replay updates) := by
  have hw := written_loadPublished h
  obtain rfl := h.owner
  rw [HistoryCache.view_publish] at hw
  refine .of_publish hw ?_ ?_ rfl ?_
  · intro other ho
    exact Slice.of_setAttempt_of_ne _ ho
  · rw [Slice.of_setAttempt]
    exact .loaded attemptId updates _ h.state h.attempt h.phase h.digest
  · intro hf
    rw [loadPublished_history]
    exact hf.publish _ h.updates

theorem commitLoad_effect (sha256 : String → δ)
    (r : SessionRegistry σ δ) (sessionId : String) (incarnation : Nat)
    (attemptId : String) :
    Effect sha256 sessionId [.loaded] r (r.commitLoad sessionId incarnation attemptId).2 := by
  rcases commitLoad_cases r sessionId incarnation attemptId with
    ⟨error, hr⟩ | ⟨a, replay, updates, hc, hr⟩
  · rw [hr]
    exact .refl r
  · rw [hr]
    exact hc.effect sha256

omit [Inhabited σ] in
/-- Writing a session again keeps its slice to that write. -/
theorem modifyState_effect {kind : Action} {a : SessionState δ}
    (f : SessionState δ → SessionState δ) (h : r.state sessionId = some a)
    (ht : Transition sha256 sessionId kind (r.slice sessionId)
      ((r.slice sessionId).setSession (f a))) :
    Effect sha256 sessionId [kind] r (r.modifyState sessionId f) := by
  simp only [SessionRegistry.modifyState, h]
  exact putState_effect h ht

theorem commitAttachmentCache_effect (sha256 : String → δ) (r : SessionRegistry σ δ) (sessionId : String)
    (incarnation : Nat) (attemptId : String) :
    Effect sha256 sessionId [.loaded, .cooled] r
      (r.commitAttachmentCache sessionId incarnation attemptId).2 := by
  have hload := commitLoad_effect sha256 r sessionId incarnation attemptId
  unfold SessionRegistry.commitAttachmentCache
  rcases commitLoad_cases r sessionId incarnation attemptId with
    ⟨error, hr⟩ | ⟨a, replay, updates, hc, hr⟩
  · simp only [hr]
    exact .refl r
  · rw [hr] at hload
    simp only [hr]
    have hstate := (written_loadPublished hc).state
    have hcool : Effect sha256 sessionId [.cooled] _ _ :=
      modifyState_effect (fun session => { session with phase := .cold }) hstate
        (.cooled hstate rfl rfl)
    exact hload.trans hcool

/-- A kept history is refused after it has cooled the session and begun a load at most, or its load
is published. -/
theorem useCachedHistory_cases (sha256 : String → δ) (r : SessionRegistry σ δ) (sessionId : String)
    (incarnation : Nat) (updates : List Value) (notice : String) :
    (∃ error r', r.useCachedHistory sessionId incarnation updates notice = (.error error, r') ∧
        Effect sha256 sessionId [.cooled, .begun] r r') ∨
      ∃ fed a replay folded, Effect sha256 sessionId [.cooled, .begun] r fed ∧
        Commits fed sessionId incarnation "bridge-cache-fallback" a replay folded ∧
        r.useCachedHistory sessionId incarnation updates notice =
          (.ok (), (loadPublished fed ⟨sessionId, incarnation⟩ a replay folded).modifyState
            sessionId fun session => { session with historyNotice := some notice }) := by
  unfold SessionRegistry.useCachedHistory
  cases hr : r.requireState sessionId incarnation with
  | error error => exact .inl ⟨error, r, rfl, .refl r⟩
  | ok a =>
      obtain ⟨ha, -⟩ := requireState_eq_ok.mp hr
      by_cases hm : a.activeTurn.isSome || a.loadAttempt.isSome
      · simp only [hm, if_true]
        exact .inl ⟨_, r, rfl, .refl r⟩
      · have hfree : a.activeTurn = none ∧ a.loadAttempt = none := by
          simpa using hm
        simp only [hm, Bool.false_eq_true, if_false]
        have hcooled := putState_effect ha
          (.cooled ha hfree.1 hfree.2 : Transition sha256 sessionId .cooled (r.slice sessionId) _)
        generalize r.putState sessionId { a with phase := .cold } = r₁ at hcooled ⊢
        have hbegun := hcooled.trans
          (beginLoad_effect sha256 r₁ sessionId incarnation "bridge-cache-fallback")
        cases hb : r₁.beginLoad sessionId incarnation "bridge-cache-fallback" with
        | mk answer r₂ =>
            rw [hb] at hbegun
            cases answer with
            | error error => exact .inl ⟨error, r₂, rfl, hbegun⟩
            | ok u =>
                have hfed := hbegun.trans (appendLoadUpdates_effect sha256 sessionId incarnation
                  "bridge-cache-fallback" updates r₂)
                cases hap : SessionRegistry.appendLoadUpdates sessionId incarnation
                    "bridge-cache-fallback" r₂ updates with
                | mk answer r₃ =>
                    rw [hap] at hfed
                    cases answer with
                    | error error => exact .inl ⟨error, r₃, by simp only [hap], hfed⟩
                    | ok u =>
                        rcases commitLoad_cases r₃ sessionId incarnation
                          "bridge-cache-fallback" with
                          ⟨error, hr⟩ | ⟨a, replay, folded, hc, hr⟩
                        · exact .inl ⟨error, r₃, by simp only [hap, hr], hfed⟩
                        · exact .inr ⟨r₃, a, replay, folded, hfed, hc, by simp only [hap, hr]⟩

theorem useCachedHistory_effect (sha256 : String → δ) (r : SessionRegistry σ δ) (sessionId : String)
    (incarnation : Nat) (updates : List Value) (notice : String) :
    Effect sha256 sessionId [.cooled, .begun, .loaded, .touched] r
      (r.useCachedHistory sessionId incarnation updates notice).2 := by
  rcases useCachedHistory_cases sha256 r sessionId incarnation updates notice with
    ⟨error, r', hr, hfailed⟩ | ⟨fed, a, replay, folded, hfed, hc, hr⟩
  · rw [hr]
    exact hfailed.mono (by decide)
  · rw [hr]
    have hstate := (written_loadPublished hc).state
    have htouch : Effect sha256 sessionId [.touched] _ _ :=
      modifyState_effect (fun session => { session with historyNotice := some notice }) hstate
        (.touched hstate { Touched.refl _ with })
    exact (hfed.trans (hc.effect sha256)).trans htouch

end Load

end Attyd.Session
