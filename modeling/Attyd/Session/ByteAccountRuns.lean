import Attyd.Session.ByteAccounts

/-!
# The byte counters after every run

Every operation of the registry keeps the accounts, whatever it answers. So after any run the
counters are the sums they stand for, and what an operation takes off is always there.
-/

namespace Attyd.Session

open Json (Value)
open History

variable {σ δ : Type} [Inhabited σ]

namespace SessionRegistry.Accounted

variable {r : SessionRegistry σ δ} {sessionId : String} {incarnation : Nat} {attemptId : String}

section Registration

/-- The sessions without an overlay may be written without one. -/
theorem insertEmpty (h : r.Accounted) {entry : SessionEntry δ}
    (hlen : ∀ a, r.state sessionId = some a → a.overlayLen = 0)
    (hempty : entry.state.overlayLen = 0) (hbytes : entry.state.activeOverlayBytes = 0) :
    ({ r with sessions := r.sessions.insert sessionId entry } : SessionRegistry σ δ).Accounted := by
  refine h.withSessions (h.overlays.of_insert rfl (hbytes.trans hempty.symm) ?_) rfl rfl rfl
  refine h.overlays.counted.insert_zero ?_ hempty
  cases he : r.sessions.lookup sessionId with
  | none => rfl
  | some entry => exact hlen entry.state (by rw [state, he]; rfl)

theorem registerHistory (h : r.Accounted) (sessionId : String) (incarnation : Nat) (ready : Bool)
    (hfits : (r.registerHistory sessionId incarnation ready).Fits) :
    (r.registerHistory sessionId incarnation ready).Accounted := by
  have hnext : ({ r with
      nextIncarnation := max r.nextIncarnation incarnation } : SessionRegistry σ δ).Accounted :=
    ⟨h.overlays.congr rfl rfl, h.baselines, h.terminals, h.folded⟩
  obtain ⟨hreplaced, hlen⟩ := hnext.replaceIncarnation sessionId incarnation
  have hbaselines := hfits.baselines
  rw [SessionRegistry.registerHistory] at hbaselines ⊢
  generalize SessionRegistry.replaceIncarnation
    { r with nextIncarnation := max r.nextIncarnation incarnation } sessionId incarnation = r₁
    at hreplaced hlen hbaselines ⊢
  have hinstalled (hempty : (r₁.history.installEmpty ⟨sessionId, incarnation⟩).2.entries.sum
      HistoryCache.serialized < 2 ^ 64) := hreplaced.withHistory
    (hreplaced.baselines.installSnapshot [] hempty)
    (hreplaced.folded.installSnapshot ⟨sessionId, incarnation⟩ isFold_nil 2)
  cases hs : r₁.sessions.lookup sessionId with
  | none =>
      simp only [hs] at hbaselines ⊢
      cases ready <;> exact (hinstalled hbaselines).insertEmpty hlen rfl rfl
  | some entry =>
      simp only [hs] at hbaselines ⊢
      cases ready <;> exact (hinstalled hbaselines).insertEmpty hlen rfl rfl

theorem remove (h : r.Accounted) (sessionId : String) (incarnation : Nat) :
    (r.remove sessionId incarnation).Accounted := by
  have hclear := h.clearHistoryForReplacement sessionId incarnation
  rw [SessionRegistry.remove]
  cases hs : (r.clearHistoryForReplacement sessionId incarnation).sessions.lookup sessionId with
  | none => exact hclear
  | some entry =>
      simp only
      split
      · next hretire =>
          refine hclear.retireEntry sessionId incarnation fun a ha => ?_
          refine overlayLen_clearHistoryForReplacement r sessionId incarnation ha ?_
          rw [state, hs] at ha
          cases ha
          exact hretire.1
      · exact hclear

theorem installLive (h : r.Accounted) (sessionId : String) (incarnation : Nat)
    (live : SessionLiveState) : (r.installLive sessionId incarnation live).Accounted := by
  -- What is written is the session that is there, or a new one without an overlay.
  have hinsert : ∀ r₁ : SessionRegistry σ δ, r₁.Accounted →
      ({ r₁ with
        sessions := r₁.sessions.insert sessionId
          { (r₁.sessions.lookup sessionId).getD ⟨.cold sessionId incarnation, false⟩ with
            state := { ((r₁.sessions.lookup sessionId).getD
              ⟨.cold sessionId incarnation, false⟩).state with live := some live } } } :
        SessionRegistry σ δ).Accounted := by
    intro r₁ h₁
    cases hs : r₁.sessions.lookup sessionId with
    | none =>
        refine h₁.insertEmpty (fun a ha => ?_) rfl rfl
        rw [state, hs] at ha
        cases ha
    | some entry =>
        have hrecorded := h₁.overlays.recorded sessionId entry.state (by rw [state, hs]; rfl)
        exact h₁.withSessions (h₁.overlays.of_insert rfl hrecorded
          (h₁.overlays.counted.insert_same hs rfl)) rfl rfl rfl
  rw [SessionRegistry.installLive]
  cases hs : r.state sessionId with
  | none => exact hinsert r h
  | some previous =>
      simp only
      split
      · next hne =>
          obtain ⟨hreplaced, -⟩ := h.replaceIncarnation sessionId incarnation
          rw [SessionRegistry.replaceIncarnation, hs] at hreplaced
          simp only [hne, ne_eq, not_false_eq_true, if_true] at hreplaced
          exact hinsert _ hreplaced
      · exact hinsert r h

end Registration

section Load

theorem beginLoad (h : r.Accounted) (sessionId : String) (incarnation : Nat) (attemptId : String) :
    (r.beginLoad sessionId incarnation attemptId).2.Accounted := by
  rcases beginLoad_cases r sessionId incarnation attemptId with
    ⟨error, hr⟩ | ⟨a, cache, ha, -, -, hb, hr⟩
  · rw [hr]
    exact h
  · have hbaselines := h.baselines.beginCandidate ⟨sessionId, incarnation⟩ attemptId
    have hfolded := h.folded.beginCandidate ⟨sessionId, incarnation⟩ attemptId
    rw [hb] at hbaselines hfolded
    rw [hr]
    exact (h.withHistory hbaselines hfolded).putState ha rfl rfl

theorem appendLoadUpdate (h : r.Accounted) (sessionId : String) (incarnation : Nat)
    (attemptId : String) (update : Value) :
    (r.appendLoadUpdate sessionId incarnation attemptId update).2.Accounted := by
  rw [SessionRegistry.appendLoadUpdate]
  split
  · exact h
  · exact h.withHistory (h.baselines.appendCandidate _ _ _) (h.folded.appendCandidate _ _ _)

theorem appendLoadUpdates (updates : List Value) (h : r.Accounted) (sessionId : String)
    (incarnation : Nat) (attemptId : String) :
    (SessionRegistry.appendLoadUpdates sessionId incarnation attemptId r updates).2.Accounted := by
  induction updates generalizing r with
  | nil => exact h
  | cons update updates ih =>
      have hone := h.appendLoadUpdate sessionId incarnation attemptId update
      rw [SessionRegistry.appendLoadUpdates]
      cases hr : r.appendLoadUpdate sessionId incarnation attemptId update with
      | mk answer next =>
          rw [hr] at hone
          cases answer with
          | error error => exact hone
          | ok u => exact ih hone

theorem invalidateLoad (validate : ValidateHistoryUpdate σ) (h : r.Accounted) (sessionId : String)
    (incarnation : Nat) (attemptId : String) :
    (r.invalidateLoad sessionId incarnation attemptId).2.Accounted := by
  rw [SessionRegistry.invalidateLoad]
  split
  · exact h
  · exact h.withHistory (h.baselines.poisonCandidate _ _ _)
      (h.folded.poisonCandidate _ validate _ _)

theorem failLoad (h : r.Accounted) (sessionId : String) (incarnation : Nat)
    (attemptId message : String) (retryable : Bool) :
    (r.failLoad sessionId incarnation attemptId message retryable).2.Accounted := by
  rcases failLoad_cases r sessionId incarnation attemptId message retryable with
    ⟨error, hr⟩ | ⟨a, cache, ha, -, -, hb, hr⟩
  · rw [hr]
    exact h
  · have hbaselines := h.baselines.abortCandidate ⟨sessionId, incarnation⟩ attemptId
    have hfolded := h.folded.abortCandidate ⟨sessionId, incarnation⟩ attemptId
    rw [hb] at hbaselines hfolded
    rw [hr]
    exact (h.withHistory hbaselines hfolded).putState ha rfl rfl

theorem commitLoad (h : r.Accounted) (sessionId : String) (incarnation : Nat) (attemptId : String)
    (hfits : (r.commitLoad sessionId incarnation attemptId).2.history.entries.sum
      HistoryCache.serialized < 2 ^ 64) :
    (r.commitLoad sessionId incarnation attemptId).2.Accounted := by
  rcases commitLoad_cases r sessionId incarnation attemptId with
    ⟨error, hr⟩ | ⟨a, replay, updates, hc, hr⟩
  · rw [hr]
    exact h
  · rw [hr] at hfits ⊢
    rw [loadPublished_history] at hfits
    have hpublished := h.withHistory (h.baselines.publish h.folded hc.updates hfits)
      (h.folded.publish ⟨sessionId, incarnation⟩ hc.updates)
    rw [loadPublished]
    exact (hpublished.clear hc.state rfl rfl).pruneRetainedTerminals _ _

/-- A session that is there is written with the overlay it has. -/
theorem modifyState (h : r.Accounted) (sessionId : String) {f : SessionState δ → SessionState δ}
    (hlen : ∀ a, (f a).overlayLen = a.overlayLen)
    (hbytes : ∀ a, (f a).activeOverlayBytes = a.activeOverlayBytes) :
    (r.modifyState sessionId f).Accounted := by
  rw [SessionRegistry.modifyState]
  cases ha : r.state sessionId with
  | none => exact h
  | some a => exact h.putState ha (hlen a) (hbytes a)

omit [Inhabited σ] in
theorem history_modifyState (r : SessionRegistry σ δ) (sessionId : String)
    (f : SessionState δ → SessionState δ) : (r.modifyState sessionId f).history = r.history := by
  rw [SessionRegistry.modifyState]
  cases r.state sessionId with
  | none => rfl
  | some a => exact history_putState _ _ _

theorem commitAttachmentCache (h : r.Accounted) (sessionId : String) (incarnation : Nat)
    (attemptId : String)
    (hfits : (r.commitAttachmentCache sessionId incarnation attemptId).2.Fits) :
    (r.commitAttachmentCache sessionId incarnation attemptId).2.Accounted := by
  have hcommit := h.commitLoad sessionId incarnation attemptId
  have hbaselines := hfits.baselines
  rw [SessionRegistry.commitAttachmentCache] at hbaselines ⊢
  cases hr : r.commitLoad sessionId incarnation attemptId with
  | mk answer committed =>
      rw [hr] at hcommit hbaselines
      cases answer with
      | error error => exact hcommit hbaselines
      | ok snapshot =>
          simp only [history_modifyState] at hbaselines
          exact (hcommit hbaselines).modifyState sessionId (fun _ => rfl) fun _ => rfl

theorem useCachedHistory (h : r.Accounted) (sessionId : String) (incarnation : Nat)
    (updates : List Value) (notice : String)
    (hfits : (r.useCachedHistory sessionId incarnation updates notice).2.Fits) :
    (r.useCachedHistory sessionId incarnation updates notice).2.Accounted := by
  have hbaselines := hfits.baselines
  rw [SessionRegistry.useCachedHistory] at hbaselines ⊢
  cases hr : r.requireState sessionId incarnation with
  | error error => exact h
  | ok a =>
      obtain ⟨ha, -⟩ := requireState_eq_ok.mp hr
      simp only [hr] at hbaselines ⊢
      split
      · exact h
      · next hfree =>
          rw [if_neg hfree] at hbaselines
          have hcold : (r.putState sessionId { a with phase := .cold }).Accounted :=
            h.putState ha rfl rfl
          have hbegun := hcold.beginLoad sessionId incarnation "bridge-cache-fallback"
          cases hb : (r.putState sessionId { a with phase := .cold }).beginLoad sessionId incarnation
              "bridge-cache-fallback" with
          | mk answer begun =>
              rw [hb] at hbegun
              simp only [hb] at hbaselines ⊢
              cases answer with
              | error error => exact hbegun
              | ok u =>
                  have hfed := appendLoadUpdates updates hbegun sessionId incarnation
                    "bridge-cache-fallback"
                  cases hf : SessionRegistry.appendLoadUpdates sessionId incarnation
                      "bridge-cache-fallback" begun updates with
                  | mk answer fed =>
                      rw [hf] at hfed
                      simp only [hf] at hbaselines ⊢
                      cases answer with
                      | error error => exact hfed
                      | ok u =>
                          have hcommit := hfed.commitLoad sessionId incarnation
                            "bridge-cache-fallback"
                          cases hc : fed.commitLoad sessionId incarnation
                              "bridge-cache-fallback" with
                          | mk answer committed =>
                              rw [hc] at hcommit
                              simp only [hc] at hbaselines ⊢
                              cases answer with
                              | error error => exact hcommit hbaselines
                              | ok snapshot =>
                                  simp only [history_modifyState] at hbaselines
                                  exact (hcommit hbaselines).modifyState sessionId (fun _ => rfl)
                                    fun _ => rfl

end Load

section Turn

variable [DecidableEq δ]

theorem startTurn (sha256 : String → δ) (h : r.Accounted) (sessionId : String) (incarnation : Nat)
    (expectedHistoryRevision clientIntentId : String) (prompt : Prompt)
    (hfits : (r.startTurn sha256 sessionId incarnation expectedHistoryRevision clientIntentId
      prompt).2.Fits) :
    (r.startTurn sha256 sessionId incarnation expectedHistoryRevision clientIntentId
      prompt).2.Accounted := by
  rcases startTurn_cases sha256 r sessionId incarnation expectedHistoryRevision clientIntentId
    prompt with ⟨error, hr⟩ | ⟨a, ha, -, ⟨id, -, hr⟩ | ⟨-, hr⟩⟩
  · rw [hr]
    exact h
  · rw [hr] at hfits ⊢
    exact h.putOverlay ha (h.overlays.recorded sessionId a ha) hfits
  · rw [hr] at hfits ⊢
    have hrecorded : (a.turnBegun sha256 (r.slice sessionId).nextOperationId clientIntentId
      prompt).Recorded := rfl
    have hput := h.putOverlay ha hrecorded
    generalize r.putOverlay sessionId a (a.turnBegun sha256 (r.slice sessionId).nextOperationId
      clientIntentId prompt) = written at hfits hput ⊢
    have hbegun := hput (hfits.congr rfl rfl rfl)
    exact ⟨hbegun.overlays.congr rfl rfl, hbegun.baselines, hbegun.terminals, hbegun.folded⟩

omit [DecidableEq δ] in
theorem overlayStep (h : r.Accounted) (sessionId : String) (incarnation : Nat)
    {change : SessionState δ → Except MirrorError (SessionState δ)}
    (hchange : ∀ a b, change a = .ok b → b.Recorded)
    (hfits : (r.overlayStep sessionId incarnation change).2.Fits) :
    (r.overlayStep sessionId incarnation change).2.Accounted := by
  rcases overlayStep_cases r sessionId incarnation change with
    ⟨error, hr⟩ | ⟨a, b, ha, -, hb, hr⟩
  · rw [hr]
    exact h
  · rw [hr] at hfits ⊢
    exact h.putOverlay ha (hchange a b hb) hfits

omit [DecidableEq δ] in
theorem stateStep (h : r.Accounted) (sessionId : String) (incarnation : Nat)
    {change : SessionState δ → Except MirrorError (SessionState δ)}
    (hchange : ∀ a b, change a = .ok b →
      b.overlayLen = a.overlayLen ∧ b.activeOverlayBytes = a.activeOverlayBytes) :
    (r.stateStep sessionId incarnation change).2.Accounted := by
  rcases stateStep_cases r sessionId incarnation change with
    ⟨error, hr⟩ | ⟨a, b, ha, -, hb, hr⟩
  · rw [hr]
    exact h
  · rw [hr]
    exact h.putState ha (hchange a b hb).1 (hchange a b hb).2

omit [Inhabited σ] [DecidableEq δ] in
/-- An update that is folded into an overlay is recorded with it. -/
theorem recorded_foldOverlayUpdate {a b : SessionState δ} {update : Value}
    (h : a.foldOverlayUpdate update = .ok b) : b.Recorded := by
  obtain ⟨turn, updates, -, -, rfl⟩ := SessionState.foldOverlayUpdate_eq_ok h
  rfl

omit [DecidableEq δ] in
theorem appendTurnUpdate (h : r.Accounted) (sessionId : String) (incarnation : Nat)
    (operationId : String) (update : Value)
    (hfits : (r.appendTurnUpdate sessionId incarnation operationId update).2.Fits) :
    (r.appendTurnUpdate sessionId incarnation operationId update).2.Accounted := by
  refine h.overlayStep sessionId incarnation (fun a b hb => ?_) hfits
  rw [SessionState.appendTurnUpdate] at hb
  split at hb
  · cases hb
  · obtain ⟨turn, -, hb⟩ := bind_eq_ok.mp hb
    exact recorded_foldOverlayUpdate hb

omit [DecidableEq δ] in
theorem completeTurn (h : r.Accounted) (sessionId : String) (incarnation : Nat)
    (operationId : String) (terminal : Value)
    (hfits : (r.completeTurn sessionId incarnation operationId terminal).2.Fits) :
    (r.completeTurn sessionId incarnation operationId terminal).2.Accounted := by
  refine h.overlayStep sessionId incarnation (fun a b hb => ?_) hfits
  obtain ⟨turn, -, -, -, -, rfl⟩ := SessionState.completeTurn_eq_ok hb
  rfl

omit [DecidableEq δ] in
theorem appendSessionUpdate (h : r.Accounted) (sessionId : String) (incarnation : Nat)
    (update : Value) (hfits : (r.appendSessionUpdate sessionId incarnation update).2.Fits) :
    (r.appendSessionUpdate sessionId incarnation update).2.Accounted := by
  rcases appendSessionUpdate_cases r sessionId incarnation update with
    ⟨error, hr⟩ | ⟨a, ha, -, -, ⟨b, -, hf, hr⟩ | ⟨prior, updates, -, hprior, hf, hr⟩⟩
  · rw [hr]
    exact h
  · rw [hr] at hfits ⊢
    exact h.putOverlay ha (recorded_foldOverlayUpdate hf) hfits
  · rw [hr] at hfits ⊢
    have hbaselines := hfits.baselines
    simp only [history_putState] at hbaselines
    have hall : [update].foldlM foldHistoryUpdate prior.updates = .ok updates := by
      simpa using hf
    refine (h.withHistory (h.baselines.installSnapshot updates hbaselines)
      (h.folded.installSnapshot _ ((h.folded.entries _ _ hprior).foldlM hall) _)).putState ha ?_ rfl
    rfl

omit [DecidableEq δ] in
theorem commitCompletedTurnFromMemory (h : r.Accounted) (sessionId : String) (incarnation : Nat)
    (operationId : String)
    (hfits : (r.commitCompletedTurnFromMemory sessionId incarnation operationId).2.Fits) :
    (r.commitCompletedTurnFromMemory sessionId incarnation operationId).2.Accounted := by
  rcases commitCompletedTurnFromMemory_cases r sessionId incarnation operationId with
    ⟨error, hr⟩ | ⟨a, turn, prior, updates, ha, -, -, hprior, hf, hr⟩
  · rw [hr]
    exact h
  · rw [hr] at hfits ⊢
    have hbaselines := hfits.baselines
    simp only [turnRemembered, history_putState] at hbaselines
    exact (h.withHistory (h.baselines.installSnapshot updates hbaselines)
      (h.folded.installSnapshot _ ((h.folded.entries _ _ hprior).foldlM hf) _)).clear ha rfl rfl

omit [DecidableEq δ] in
theorem blockTurn (h : r.Accounted) (sessionId : String) (incarnation : Nat)
    (operationId message : String) :
    (r.blockTurn sessionId incarnation operationId message).2.Accounted := by
  refine h.stateStep sessionId incarnation fun a b hb => ?_
  obtain ⟨-, -, rfl⟩ := SessionState.blockTurn_eq_ok hb
  exact ⟨rfl, rfl⟩

end Turn

section Operation

theorem beginExclusive (h : r.Accounted) (sessionId : String) (incarnation : Nat)
    (kind : SessionOperationKind) (operationId : String) :
    (r.beginExclusive sessionId incarnation kind operationId).2.Accounted := by
  rw [SessionRegistry.beginExclusive]
  split
  · exact h
  · split
    · exact h
    · refine h.stateStep sessionId incarnation fun a b hb => ?_
      obtain ⟨u, -, hb⟩ := bind_eq_ok.mp hb
      cases hb
      exact ⟨rfl, rfl⟩

theorem settleExclusive (h : r.Accounted) (sessionId : String) (incarnation : Nat)
    (kind : SessionAdmission) (operationId : String) :
    (r.settleExclusive sessionId incarnation kind operationId).2.Accounted := by
  refine h.stateStep sessionId incarnation fun a b hb => ?_
  rw [SessionState.settleExclusive] at hb
  split at hb
  · cases hb
    exact ⟨rfl, rfl⟩
  · cases hb

theorem touch (h : r.Accounted) (sessionId : String) (incarnation : Nat) :
    (r.touch sessionId incarnation).2.Accounted := by
  rw [SessionRegistry.touch]
  cases hr : r.requireState sessionId incarnation with
  | error error => exact h
  | ok a =>
      obtain ⟨ha, -⟩ := requireState_eq_ok.mp hr
      exact h.putState ha rfl rfl

theorem view (h : r.Accounted) (sessionId : String) (incarnation : Nat) :
    (r.view sessionId incarnation).2.Accounted := by
  rw [SessionRegistry.view]
  split
  · exact h
  · have hread := h.withHistory (h.baselines.snapshot ⟨sessionId, incarnation⟩)
      (h.folded.snapshot ⟨sessionId, incarnation⟩)
    cases hs : r.history.snapshot ⟨sessionId, incarnation⟩ with
    | mk baseline history =>
        rw [hs] at hread
        cases baseline <;> exact hread

/-- The output that is retained is new, and the registry counts it. -/
theorem retainTerminalOutput (h : r.Accounted) (sessionId : String) (incarnation : Nat)
    (terminalId : String) (terminal : Value)
    (hfits : (r.retainTerminalOutput sessionId incarnation terminalId terminal).2.Fits) :
    (r.retainTerminalOutput sessionId incarnation terminalId terminal).2.Accounted := by
  have hterminals := hfits.terminals
  rw [SessionRegistry.retainTerminalOutput] at hterminals ⊢
  cases hr : r.requireState sessionId incarnation with
  | error error => exact h
  | ok a =>
      obtain ⟨ha, -⟩ := requireState_eq_ok.mp hr
      simp only [hr] at hterminals ⊢
      split
      · exact h
      · next hkept =>
          rw [if_neg hkept] at hterminals
          have hnew : ((r.retainedTerminals.lookup ⟨sessionId, incarnation⟩).getD ∅).lookup
              terminalId = none := by
            by_contra hsome
            exact hkept (.inr (.inr (.inl (Option.isSome_iff_ne_none.mpr hsome))))
          generalize hretained : Value.ofFields [("sessionId", .string sessionId),
            ("terminalId", .string terminalId),
            ("output", (terminal.get "output").getD (.string "")),
            ("truncated", (terminal.get "truncated").getD (.bool false)),
            ("exitStatus", (terminal.get "exitStatus").getD .null),
            ("released", .bool true)] = retained at hterminals ⊢
          rw [(terminals_putState _ sessionId a.advanceRevision).1] at hterminals
          refine Accounted.putState (a := a) ?_ ha rfl rfl
          refine ⟨h.overlays.congr rfl rfl, h.baselines, ?_, h.folded⟩
          refine Table.Counts.insert_add h.terminals ?_ hterminals
          have hadded := Table.sum_insert_of_lookup_none Value.bytes retained hnew
          cases hk : r.retainedTerminals.lookup ⟨sessionId, incarnation⟩ with
          | none =>
              rw [hk] at hadded
              exact (Nat.add_comm _ _).trans hadded.symm
          | some terminals =>
              rw [hk] at hadded
              exact (Nat.add_comm _ _).trans hadded.symm

end Operation

end SessionRegistry.Accounted

namespace RegistryOp

open SessionRegistry

variable [DecidableEq δ] (sha256 : String → δ) (validate : ValidateHistoryUpdate σ)
  {r : SessionRegistry σ δ}

/-- Every operation keeps the accounts, whatever it answers, while the sums fit their counters. -/
theorem step_accounted (op : RegistryOp) (h : r.Accounted)
    (hfits : (op.step sha256 validate r).Fits) : (op.step sha256 validate r).Accounted := by
  cases op with
  | registerCold sessionId incarnation => exact h.registerHistory sessionId incarnation false hfits
  | registerNew sessionId incarnation => exact h.registerHistory sessionId incarnation true hfits
  | clearHistoryForReplacement sessionId incarnation =>
      exact h.clearHistoryForReplacement sessionId incarnation
  | remove sessionId incarnation => exact h.remove sessionId incarnation
  | beginLoad sessionId incarnation attemptId => exact h.beginLoad sessionId incarnation attemptId
  | appendLoadUpdate sessionId incarnation attemptId update =>
      exact h.appendLoadUpdate sessionId incarnation attemptId update
  | invalidateLoad sessionId incarnation attemptId =>
      exact h.invalidateLoad validate sessionId incarnation attemptId
  | commitLoad sessionId incarnation attemptId =>
      exact h.commitLoad sessionId incarnation attemptId hfits.baselines
  | commitAttachmentCache sessionId incarnation attemptId =>
      exact h.commitAttachmentCache sessionId incarnation attemptId hfits
  | useCachedHistory sessionId incarnation updates notice =>
      exact h.useCachedHistory sessionId incarnation updates notice hfits
  | failLoad sessionId incarnation attemptId message retryable =>
      exact h.failLoad sessionId incarnation attemptId message retryable
  | startTurn sessionId incarnation expectedHistoryRevision clientIntentId prompt =>
      exact h.startTurn sha256 sessionId incarnation expectedHistoryRevision clientIntentId prompt
        hfits
  | appendTurnUpdate sessionId incarnation operationId update =>
      exact h.appendTurnUpdate sessionId incarnation operationId update hfits
  | completeTurn sessionId incarnation operationId terminal =>
      exact h.completeTurn sessionId incarnation operationId terminal hfits
  | appendSessionUpdate sessionId incarnation update =>
      exact h.appendSessionUpdate sessionId incarnation update hfits
  | commitCompletedTurnFromMemory sessionId incarnation operationId =>
      exact h.commitCompletedTurnFromMemory sessionId incarnation operationId hfits
  | blockTurn sessionId incarnation operationId message =>
      exact h.blockTurn sessionId incarnation operationId message
  | retainTerminalOutput sessionId incarnation terminalId terminal =>
      exact h.retainTerminalOutput sessionId incarnation terminalId terminal hfits
  | beginExclusive sessionId incarnation kind operationId =>
      exact h.beginExclusive sessionId incarnation kind operationId
  | settleExclusive sessionId incarnation kind operationId =>
      exact h.settleExclusive sessionId incarnation kind operationId
  | touch sessionId incarnation => exact h.touch sessionId incarnation
  | view sessionId incarnation => exact h.view sessionId incarnation
  | installLive sessionId incarnation live => exact h.installLive sessionId incarnation live
  | writeLive sessionId live operation execution viewRevision =>
      refine h.modifyState sessionId (fun a => ?_) fun _ => rfl
      simp only [SessionState.withLive, SessionState.overlayLen]
      cases a.activeTurn with
      | none => rfl
      | some turn => rfl
  | handle replay op =>
      exact h.withHistory (h.baselines.onReplay replay _) (h.folded.handle validate replay op)

end RegistryOp

namespace SessionRegistry

omit [Inhabited σ] in
theorem fits_iff (r : SessionRegistry σ δ) :
    r.Fits ↔ r.sessions.sum entryOverlayLen < 2 ^ 64 ∧
      r.history.entries.sum HistoryCache.serialized < 2 ^ 64 ∧
      r.retainedTerminals.sum terminalsLen < 2 ^ 64 :=
  ⟨fun h => ⟨h.overlays, h.baselines, h.terminals⟩, fun h => ⟨h.1, h.2.1, h.2.2⟩⟩

instance (r : SessionRegistry σ δ) : Decidable r.Fits := decidable_of_iff _ (fits_iff r).symm

variable [DecidableEq δ]

/-- After every run whose sums fit their counters, the registry is accounted for. -/
theorem accounted_run (sha256 : String → δ) (validate : ValidateHistoryUpdate σ) (epoch : String)
    (ops : List RegistryOp)
    (h : Along (RegistryOp.step sha256 validate) (fun r op => (op.step sha256 validate r).Fits)
      (.new epoch) ops) :
    (run (RegistryOp.step sha256 validate) (.new epoch) ops).Accounted :=
  run_invariant_along (P := fun r => r.Accounted)
    (fun _ op hr hfits => RegistryOp.step_accounted sha256 validate op hr hfits)
    (Accounted.new epoch) h

/-- After every run, whatever the operations answered, each counter is the sum it stands for, and
what a session, a baseline or a terminal adds to it can be taken off without clipping. -/
theorem run_counters_exact (sha256 : String → δ) (validate : ValidateHistoryUpdate σ)
    (epoch : String) (ops : List RegistryOp)
    (h : Along (RegistryOp.step sha256 validate) (fun r op => (op.step sha256 validate r).Fits)
      (.new epoch) ops) :
    let r := run (RegistryOp.step sha256 validate) (.new epoch) ops
    r.overlayBytes = r.sessions.sum (fun entry => entry.state.activeTurn.elim 0 serializedLen) ∧
      r.history.snapshotBytes =
        r.history.entries.sum (fun entry => (Value.array entry.snapshot.updates).bytes) ∧
      r.retainedTerminalBytes =
        r.retainedTerminals.sum (fun terminals => terminals.sum Value.bytes) ∧
      (∀ sessionId session, r.state sessionId = some session →
        session.activeOverlayBytes = session.activeTurn.elim 0 serializedLen ∧
          session.activeOverlayBytes ≤ r.overlayBytes) ∧
      (∀ key entry, r.history.entries.lookup key = some entry →
        entry.snapshot.bytes = (Value.array entry.snapshot.updates).bytes ∧
          entry.snapshot.bytes ≤ r.history.snapshotBytes) ∧
      ∀ key terminals, r.retainedTerminals.lookup key = some terminals →
        terminals.total Value.bytes ≤ r.retainedTerminalBytes := by
  intro r
  have hr : r.Accounted := accounted_run sha256 validate epoch ops h
  refine ⟨hr.overlays.counted, hr.baselines.counted, hr.terminals, ?_, ?_, ?_⟩
  · intro sessionId session hs
    have hrecorded := hr.overlays.recorded sessionId session hs
    obtain ⟨entry, he, rfl⟩ := Option.map_eq_some_iff.mp hs
    refine ⟨hrecorded, ?_⟩
    rw [hrecorded]
    exact hr.overlays.counted.le he
  · intro key entry he
    have hmeasured := hr.baselines.measured key entry he
    refine ⟨hmeasured, ?_⟩
    rw [hmeasured]
    exact hr.baselines.counted.le he
  · intro key terminals hk
    exact Table.Counts.le hr.terminals hk

/-- A session is replaced while a turn of it runs, another one runs a turn, and a late operation
of the replaced one is refused. -/
theorem run_counters_exact_replacement :
    let r := run (RegistryOp.step id fun validation _ => (.ok (), validation))
      (.new "epoch" : SessionRegistry Unit String)
      [.registerNew "s" 1, .startTurn "s" 1 "epoch:1:1" "intent" ⟨[], "[]"⟩,
        .appendTurnUpdate "s" 1 "epoch:1" (.ofFields [("sessionUpdate", .string "x")]),
        .registerNew "t" 2, .startTurn "t" 2 "epoch:2:2" "intent" ⟨[], "[]"⟩,
        .registerNew "s" 3, .blockTurn "s" 1 "epoch:1" "stale"]
    0 < r.overlayBytes ∧
      r.overlayBytes =
        r.sessions.sum (fun entry => entry.state.activeTurn.elim 0 serializedLen) ∧
      r.history.snapshotBytes =
        r.history.entries.sum (fun entry => (Value.array entry.snapshot.updates).bytes) := by
  intro r
  have hfits : Along (RegistryOp.step id fun validation _ => (.ok (), validation))
      (fun r op => (op.step id (fun validation _ => (.ok (), validation)) r).Fits)
      (.new "epoch" : SessionRegistry Unit String)
      [.registerNew "s" 1, .startTurn "s" 1 "epoch:1:1" "intent" ⟨[], "[]"⟩,
        .appendTurnUpdate "s" 1 "epoch:1" (.ofFields [("sessionUpdate", .string "x")]),
        .registerNew "t" 2, .startTurn "t" 2 "epoch:2:2" "intent" ⟨[], "[]"⟩,
        .registerNew "s" 3, .blockTurn "s" 1 "epoch:1" "stale"] := by decide +kernel
  obtain ⟨hoverlays, hbaselines, -⟩ :=
    run_counters_exact id (fun validation _ => (.ok (), validation)) "epoch" _ hfits
  exact ⟨by decide +kernel, hoverlays, hbaselines⟩

end SessionRegistry

end Attyd.Session
