import Attyd.Session.TurnEffects

/-!
# What registration and removal do

A session is registered over whatever was known under its id: a former
incarnation is cleared and retired, the same incarnation is cleared only. The
live side may install itself in a session that is not registered yet.
-/

namespace Attyd.Session

open Json (Value)
open History

variable {σ δ : Type} [DecidableEq δ] {sha256 : String → δ} {r : SessionRegistry σ δ}
  {sessionId : String}

section Registration

omit [DecidableEq δ] in
theorem removeRetainedTerminals_eq (r : SessionRegistry σ δ) (key : SessionKey) :
    ∃ retainedTerminals retainedTerminalBytes,
      r.removeRetainedTerminals key = { r with retainedTerminals, retainedTerminalBytes } := by
  unfold SessionRegistry.removeRetainedTerminals
  cases r.retainedTerminals.lookup key with
  | none => exact ⟨r.retainedTerminals, r.retainedTerminalBytes, rfl⟩
  | some terminals => exact ⟨_, _, rfl⟩

variable [Inhabited σ]

omit [DecidableEq δ] in
/-- Clearing leaves a cold session without history, or changes nothing. -/
theorem clearHistoryForReplacement_cases (r : SessionRegistry σ δ) (sessionId : String)
    (incarnation : Nat) :
    (∀ a, r.state sessionId = some a → a.incarnation ≠ incarnation) ∧
        r.clearHistoryForReplacement sessionId incarnation = r ∨
      ∃ a b, r.state sessionId = some a ∧ a.incarnation = incarnation ∧
        Touched (.cold sessionId incarnation) b ∧
        (r.clearHistoryForReplacement sessionId incarnation).history =
          r.history.remove ⟨sessionId, incarnation⟩ ∧
        Written r (r.clearHistoryForReplacement sessionId incarnation) sessionId (some b)
          (r.history.view.forget ⟨sessionId, incarnation⟩) r.nextOperation := by
  unfold SessionRegistry.clearHistoryForReplacement
  cases hr : r.requireState sessionId incarnation with
  | error error =>
      refine .inl ⟨?_, rfl⟩
      intro a ha hi
      rw [requireState_eq_ok.mpr ⟨ha, hi⟩] at hr
      cases hr
  | ok a =>
      obtain ⟨ha, hi⟩ := requireState_eq_ok.mp hr
      dsimp only
      obtain ⟨t, b, hremove⟩ := removeRetainedTerminals_eq
        { r.putState sessionId
            { SessionState.cold sessionId incarnation with
              live := a.live
              operation := a.operation
              viewRevision := nextCounter a.viewRevision } with
          overlayBytes := r.overlayBytes - a.activeOverlayBytes } ⟨sessionId, incarnation⟩
      have hw := written_putState ha
        { SessionState.cold sessionId incarnation with
          live := a.live
          operation := a.operation
          viewRevision := nextCounter a.viewRevision }
      have hcold : Touched (.cold sessionId incarnation)
          { SessionState.cold sessionId incarnation with
            live := a.live
            operation := a.operation
            viewRevision := nextCounter a.viewRevision } :=
        { Touched.refl (SessionState.cold sessionId incarnation : SessionState δ) with }
      rw [hremove]
      dsimp only
      rw [history_putState]
      refine .inr ⟨a, _, ha, hi, hcold, rfl, ?_⟩
      have hview := r.history.view_remove ⟨sessionId, incarnation⟩
      exact ⟨hw.state, hw.states, hview, hw.epoch, hw.operations⟩

theorem clearHistoryForReplacement_effect (sha256 : String → δ) (r : SessionRegistry σ δ) (sessionId : String)
    (incarnation : Nat) :
    Effect sha256 sessionId [.cleared] r (r.clearHistoryForReplacement sessionId incarnation) := by
  rcases clearHistoryForReplacement_cases r sessionId incarnation with
    ⟨-, hr⟩ | ⟨a, b, ha, rfl, hb, hh, hw⟩
  · rw [hr]
    exact .refl r
  · refine .of_written hw (.single ?_) ?_ ?_
    · rw [Slice.of_forget]
      exact .cleared ha hb
    · intro other ho
      rw [Slice.of_forget_of_ne ho]
      exact .refl _ _
    · intro hf
      rw [hh]
      exact hf.remove _

omit [Inhabited σ] in
/-- A session without a load may be retired. -/
theorem retireEntry_effect (sha256 : String → δ) {a : SessionState δ} {incarnation : Nat}
    (h : r.state sessionId = some a) (hi : a.incarnation = incarnation)
    (hload : a.loadAttempt = none) :
    Effect sha256 sessionId [.retired] r (r.retireEntry sessionId incarnation) ∧
      (r.retireEntry sessionId incarnation).state sessionId = none := by
  unfold SessionRegistry.retireEntry
  rw [requireState_eq_ok.mpr ⟨h, hi⟩]
  have hnone : ({ r with
      sessions := r.sessions.erase sessionId
      retiredIds := insert sessionId r.retiredIds } : SessionRegistry σ δ).state sessionId =
      none := by
    simp [SessionRegistry.state]
  refine ⟨.of_written ⟨hnone, ?_, rfl, rfl, rfl⟩ (.single (.retired h hload))
    (fun _ _ => .refl _ _) id, hnone⟩
  intro other ho
  simp [SessionRegistry.state, Finmap.lookup_erase_ne ho]

/-- A former incarnation is cleared and retired; the one to register is cleared only. -/
theorem replaceIncarnation_effect (sha256 : String → δ) (r : SessionRegistry σ δ) (sessionId : String)
    (incarnation : Nat) :
    Effect sha256 sessionId [.cleared, .retired] r (r.replaceIncarnation sessionId incarnation) ∧
      ∀ a, (r.replaceIncarnation sessionId incarnation).state sessionId = some a →
        a.incarnation = incarnation ∧ a.loadAttempt = none := by
  unfold SessionRegistry.replaceIncarnation
  cases hs : r.state sessionId with
  | none =>
      refine ⟨.refl r, ?_⟩
      intro a ha
      rw [hs] at ha
      cases ha
  | some previous =>
      have hclear := clearHistoryForReplacement_effect sha256 r sessionId previous.incarnation
      rcases clearHistoryForReplacement_cases r sessionId previous.incarnation with
        ⟨hno, -⟩ | ⟨a, b, ha, -, hb, -, hw⟩
      · exact absurd rfl (hno previous hs)
      · dsimp only
        by_cases hne : previous.incarnation = incarnation
        · simp only [hne, ne_eq, not_true, if_false] at hclear hw ⊢
          refine ⟨hclear.mono (by decide), ?_⟩
          intro c hc
          rw [hw.state] at hc
          cases hc
          exact ⟨hb.incarnation.trans hne, hb.loadAttempt⟩
        · simp only [ne_eq, hne, not_false_eq_true, if_true]
          have hi : b.incarnation = previous.incarnation := hb.incarnation
          obtain ⟨hretire, hnone⟩ := retireEntry_effect sha256 hw.state hi hb.loadAttempt
          refine ⟨hclear.trans hretire, ?_⟩
          intro c hc
          rw [hnone] at hc
          cases hc

omit [DecidableEq δ] [Inhabited σ] in
theorem written_insert (r : SessionRegistry σ δ) (sessionId : String) (history : HistoryCache σ)
    (entry : SessionEntry δ) :
    Written r { r with history, sessions := r.sessions.insert sessionId entry } sessionId
      (some entry.state) history.view r.nextOperation := by
  refine ⟨?_, ?_, rfl, rfl, rfl⟩
  · simp [SessionRegistry.state]
  · intro other ho
    simp [SessionRegistry.state, Finmap.lookup_insert_of_ne _ ho]

theorem registerHistory_effect (sha256 : String → δ) (r : SessionRegistry σ δ) (sessionId : String)
    (incarnation : Nat) (ready : Bool) :
    Effect sha256 sessionId [.cleared, .retired, .registered] r
      (r.registerHistory sessionId incarnation ready) := by
  obtain ⟨hreplace, hfree⟩ := replaceIncarnation_effect sha256
    { r with nextIncarnation := max r.nextIncarnation incarnation } sessionId incarnation
  unfold SessionRegistry.registerHistory
  dsimp only
  generalize SessionRegistry.replaceIncarnation
    { r with nextIncarnation := max r.nextIncarnation incarnation } sessionId incarnation = r₁
    at hreplace hfree ⊢
  have hreplaced : Effect sha256 sessionId [.cleared, .retired] r r₁ :=
    ⟨hreplace.self, hreplace.other, hreplace.folded⟩
  suffices h : Effect sha256 sessionId [.registered] r₁ _ from hreplaced.trans h
  have hview := r₁.history.view_installSnapshot ⟨sessionId, incarnation⟩ [] 2
  have hfold : r₁.history.Folded → (r₁.history.installEmpty ⟨sessionId, incarnation⟩).2.Folded :=
    fun hf => hf.installSnapshot _ isFold_nil 2
  -- Registering is the same for a new session and for one that keeps its live side.
  have hinsert : ∀ entry : SessionEntry δ,
      (Touched (.cold sessionId incarnation) entry.state ∨
        Touched (.ready sessionId incarnation ((r₁.slice sessionId).nextRevision incarnation))
          entry.state) →
      Effect sha256 sessionId [.registered] r₁
        { r₁ with
          history := (r₁.history.installEmpty ⟨sessionId, incarnation⟩).2
          sessions := r₁.sessions.insert sessionId entry } := by
    intro entry hentry
    have hw := written_insert r₁ sessionId
      (r₁.history.installEmpty ⟨sessionId, incarnation⟩).2 entry
    rw [HistoryCache.installEmpty, hview] at hw
    exact .of_publish hw (fun _ _ => rfl) (.registered incarnation hfree hentry) rfl hfold
  cases hs : r₁.sessions.lookup sessionId with
  | none =>
      refine hinsert ⟨_, false⟩ ?_
      cases ready with
      | false => exact .inl (.refl _)
      | true => exact .inr (.refl _)
  | some entry =>
      refine hinsert { entry with state := _ } ?_
      cases ready with
      | false => exact .inl { Touched.refl (SessionState.cold sessionId incarnation) with }
      | true =>
          exact .inr { Touched.refl (SessionState.ready sessionId incarnation
            ((r₁.slice sessionId).nextRevision incarnation)) with }

omit [DecidableEq δ] in
/-- A registered session is cold, or ready on the revision just published for it. -/
theorem registerHistory_state
    (r : SessionRegistry σ δ) (sessionId : String) (incarnation : Nat)
    (ready : Bool) :
    let r' := r.registerHistory sessionId incarnation ready
    ∃ b, r'.state sessionId = some b ∧
      (Touched (.cold sessionId incarnation) b ∨
        Touched (.ready sessionId incarnation (HistoryCache.revisionText r'.history.epoch
          incarnation r'.history.nextGeneration)) b) := by
  unfold SessionRegistry.registerHistory
  dsimp only
  generalize SessionRegistry.replaceIncarnation
    { r with nextIncarnation := max r.nextIncarnation incarnation } sessionId incarnation = r₁
  cases hs : r₁.sessions.lookup sessionId with
  | none =>
      refine ⟨_, (written_insert r₁ sessionId
        (r₁.history.installEmpty ⟨sessionId, incarnation⟩).2 ⟨_, false⟩).state, ?_⟩
      cases ready with
      | false => exact .inl (.refl _)
      | true => exact .inr (.refl _)
  | some entry =>
      refine ⟨_, (written_insert r₁ sessionId
        (r₁.history.installEmpty ⟨sessionId, incarnation⟩).2 { entry with state := _ }).state, ?_⟩
      cases ready with
      | false => exact .inl { Touched.refl (SessionState.cold sessionId incarnation) with }
      | true =>
          exact .inr { Touched.refl (SessionState.ready sessionId incarnation
            (HistoryCache.revisionText r₁.history.epoch incarnation
              (nextCounter r₁.history.nextGeneration))) with }

omit [DecidableEq δ] in
/-- Removing a former incarnation again changes nothing. -/
theorem remove_of_ne {a : SessionState δ} {incarnation : Nat} (h : r.state sessionId = some a)
    (hne : a.incarnation ≠ incarnation) : r.remove sessionId incarnation = r := by
  rcases clearHistoryForReplacement_cases r sessionId incarnation with
    ⟨-, hr⟩ | ⟨b, -, hb, hi, -⟩
  · obtain ⟨entry, he, hstate⟩ := Option.map_eq_some_iff.mp h
    have hstale : entry.state.incarnation ≠ incarnation := by rwa [hstate]
    simp only [SessionRegistry.remove, hr, he, hstale, false_and, if_false]
  · cases h.symm.trans hb
    exact absurd hi hne

omit [DecidableEq δ] in
theorem clearHistoryForReplacement_of_ne {a : SessionState δ} {incarnation : Nat}
    (h : r.state sessionId = some a) (hne : a.incarnation ≠ incarnation) :
    r.clearHistoryForReplacement sessionId incarnation = r := by
  rcases clearHistoryForReplacement_cases r sessionId incarnation with
    ⟨-, hr⟩ | ⟨b, -, hb, hi, -⟩
  · exact hr
  · cases h.symm.trans hb
    exact absurd hi hne

theorem remove_effect (sha256 : String → δ) (r : SessionRegistry σ δ) (sessionId : String)
    (incarnation : Nat) :
    Effect sha256 sessionId [.cleared, .retired] r (r.remove sessionId incarnation) := by
  have hclear := clearHistoryForReplacement_effect sha256 r sessionId incarnation
  unfold SessionRegistry.remove
  dsimp only
  split
  · exact hclear.mono (by decide)
  · split
    case isFalse => exact hclear.mono (by decide)
    case isTrue entry he hi =>
      refine hclear.trans (retireEntry_effect sha256 ?_ hi.1 ?_).1
      · simp [SessionRegistry.state, he]
      · rcases clearHistoryForReplacement_cases r sessionId incarnation with
          ⟨hno, hr⟩ | ⟨a, b, ha, -, hb, -, hw⟩
        · rw [hr] at he
          exact absurd hi.1 (hno entry.state (by simp [SessionRegistry.state, he]))
        · have hstate := hw.state
          simp only [SessionRegistry.state, he, Option.map_some, Option.some.injEq] at hstate
          rw [hstate]
          exact hb.loadAttempt

omit [Inhabited σ] in
/-- Writing the live side into the session that is there, or into a new cold one. -/
theorem insertLive_effect (sha256 : String → δ) (r : SessionRegistry σ δ) (sessionId : String)
    (incarnation : Nat) (live : SessionLiveState) :
    let entry := (r.sessions.lookup sessionId).getD ⟨.cold sessionId incarnation, false⟩
    Effect sha256 sessionId [.created, .touched] r
      { r with
        sessions := r.sessions.insert sessionId
          { entry with state := { entry.state with live := some live } } } := by
  cases hs : r.sessions.lookup sessionId with
  | some entry =>
      have ha : r.state sessionId = some entry.state := by simp [SessionRegistry.state, hs]
      exact Effect.mono (.of_session (written_insert r sessionId r.history _)
        (.touched ha { Touched.refl entry.state with }) id) (by decide)
  | none =>
      have ha : r.state sessionId = none := by simp [SessionRegistry.state, hs]
      have hcold : Touched (.cold sessionId incarnation)
          { SessionState.cold sessionId incarnation with live := some live } :=
        { Touched.refl (SessionState.cold sessionId incarnation : SessionState δ) with }
      have hcreate : Transition sha256 sessionId .created (r.slice sessionId)
          ((r.slice sessionId).setSession (.cold sessionId incarnation)) := .created ha incarnation
      exact .of_written (written_insert r sessionId r.history _)
        (.step hcreate (.single (.touched rfl hcold))) (fun _ _ => .refl _ _) id

/-- The live side finds or makes the session it belongs to. -/
theorem installLive_effect (sha256 : String → δ) (r : SessionRegistry σ δ) (sessionId : String)
    (incarnation : Nat) (live : SessionLiveState) :
    Effect sha256 sessionId [.cleared, .retired, .created, .touched] r
      (r.installLive sessionId incarnation live) := by
  unfold SessionRegistry.installLive
  dsimp only
  cases hs : r.state sessionId with
  | none => exact (insertLive_effect sha256 r sessionId incarnation live).mono (by decide)
  | some previous =>
      dsimp only
      split
      case isFalse =>
        exact (insertLive_effect sha256 r sessionId incarnation live).mono (by decide)
      case isTrue =>
        have hclear := clearHistoryForReplacement_effect sha256 r sessionId previous.incarnation
        rcases clearHistoryForReplacement_cases r sessionId previous.incarnation with
          ⟨hno, -⟩ | ⟨a, b, ha, -, hb, -, hw⟩
        · exact absurd rfl (hno previous hs)
        · have hi : b.incarnation = previous.incarnation := hb.incarnation
          have hretire := (retireEntry_effect sha256 hw.state hi hb.loadAttempt).1
          exact (hclear.trans hretire).trans
            (insertLive_effect sha256 _ sessionId incarnation live)

/-- Into the session of its own incarnation the live side is only written. -/
theorem installLive_own (sha256 : String → δ) {a : SessionState δ}
    (h : r.state sessionId = some a) (live : SessionLiveState) :
    Effect sha256 sessionId [.touched] r (r.installLive sessionId a.incarnation live) := by
  obtain ⟨entry, he, rfl⟩ := Option.map_eq_some_iff.mp h
  unfold SessionRegistry.installLive
  simp only [h, ne_eq, not_true, if_false, he, Option.getD_some]
  exact .of_session (written_insert r sessionId r.history _)
    (.touched h { Touched.refl entry.state with }) id

end Registration

end Attyd.Session
