import Attyd.Session.TurnEffects

/-!
# What a failed history operation leaves

Every history operation but one makes all its checks before it changes a session, so a failure
leaves the session as it was. The installation of a cached history makes the session cold and
begins a load of its own before the steps that may still fail.

## Implementation notes

Of the answer of an operation only the error is kept. What is observed of a session is its history
side, with the baselines of all keys.
-/

namespace Attyd.Session

open Json (Value)
open History

variable {σ δ : Type} [Inhabited σ]

/-- The history operations on a session, with the arguments next to the session. -/
inductive HistoryOp where
  | beginLoad (attemptId : String)
  | appendLoadUpdate (attemptId : String) (update : Value)
  | commitLoad (attemptId : String)
  | useCachedHistory (updates : List Value) (notice : String)
  | startTurn (expectedHistoryRevision clientIntentId : String) (prompt : Prompt)
  | appendTurnUpdate (operationId : String) (update : Value)
  | appendSessionUpdate (update : Value)
  | completeTurn (operationId : String) (terminal : Value)
  | commitCompletedTurnFromMemory (operationId : String)
  | blockTurn (operationId message : String)

/-- The error of an answer, where it is one. -/
def errorOf {α : Type} : Except MirrorError α → Option MirrorError
  | .ok _ => none
  | .error error => some error

/-- An operation on a session: its error and the registry it leaves. -/
def HistoryOp.perform [DecidableEq δ] (sha256 : String → δ) (r : SessionRegistry σ δ)
    (sessionId : String) (incarnation : Nat) :
    HistoryOp → Option MirrorError × SessionRegistry σ δ
  | beginLoad attemptId =>
      (r.beginLoad sessionId incarnation attemptId).map errorOf id
  | appendLoadUpdate attemptId update =>
      (r.appendLoadUpdate sessionId incarnation attemptId update).map errorOf id
  | commitLoad attemptId => (r.commitLoad sessionId incarnation attemptId).map errorOf id
  | useCachedHistory updates notice =>
      (r.useCachedHistory sessionId incarnation updates notice).map errorOf id
  | startTurn expectedHistoryRevision clientIntentId prompt =>
      (r.startTurn sha256 sessionId incarnation expectedHistoryRevision clientIntentId prompt).map
        errorOf id
  | appendTurnUpdate operationId update =>
      (r.appendTurnUpdate sessionId incarnation operationId update).map errorOf id
  | appendSessionUpdate update =>
      (r.appendSessionUpdate sessionId incarnation update).map errorOf id
  | completeTurn operationId terminal =>
      (r.completeTurn sessionId incarnation operationId terminal).map errorOf id
  | commitCompletedTurnFromMemory operationId =>
      (r.commitCompletedTurnFromMemory sessionId incarnation operationId).map errorOf id
  | blockTurn operationId message =>
      (r.blockTurn sessionId incarnation operationId message).map errorOf id

/-- The history side of a session. -/
structure HistoryFace where
  phase : MirrorPhase
  activeTurn : Option TurnOverlay
  turnOutcomes : List CompletedTurnOutcome
  historyRevision : Option String
  viewRevision : Nat
  loadAttempt : Option String
  syncError : Option String
  historyNotice : Option String
  deriving DecidableEq

def SessionState.historyFace (self : SessionState δ) : HistoryFace where
  phase := self.phase
  activeTurn := self.activeTurn
  turnOutcomes := self.turnOutcomes
  historyRevision := self.historyRevision
  viewRevision := self.viewRevision
  loadAttempt := self.loadAttempt
  syncError := self.syncError
  historyNotice := self.historyNotice

/-- The history sides of all sessions are as before, and so are all baselines. -/
structure SameHistory (r r' : SessionRegistry σ δ) : Prop where
  face : ∀ sessionId, (r'.state sessionId).map (·.historyFace) =
    (r.state sessionId).map (·.historyFace)
  baseline : ∀ key, r'.history.peek key = r.history.peek key

omit [Inhabited σ] in
theorem SameHistory.refl (r : SessionRegistry σ δ) : SameHistory r r := ⟨fun _ => rfl, fun _ => rfl⟩

/-- The attempt under which a cached history is installed. -/
def cachedAttempt : String := "bridge-cache-fallback"

/-- The steps of an operation that may fail stand before all its changes. The installation of a
cached history is refused at once for a turn or a load; and where the session is cold already, its
load may be refused, too. -/
def HistoryOp.FailsFirst (r : SessionRegistry σ δ) (sessionId : String) (incarnation : Nat) :
    HistoryOp → Prop
  | useCachedHistory _ _ => ∀ a, r.requireState sessionId incarnation = .ok a →
      a.activeTurn = none → a.loadAttempt = none →
      a.phase = .cold ∧ (SessionRegistry.mayLoad a cachedAttempt = false ∨
        (r.history.candidates.lookup ⟨sessionId, incarnation⟩).isSome)
  | _ => True

section Cached

variable {r : SessionRegistry σ δ} {sessionId attemptId : String} {incarnation : Nat}

/-- Feeding a load changes no session. -/
theorem state_appendLoadUpdates (sessionId : String) (incarnation : Nat) (attemptId : String)
    (updates : List Value) (r : SessionRegistry σ δ) (id : String) :
    (SessionRegistry.appendLoadUpdates sessionId incarnation attemptId r updates).2.state id =
      r.state id := by
  induction updates generalizing r with
  | nil => rfl
  | cons update updates ih =>
      have hone : (r.appendLoadUpdate sessionId incarnation attemptId update).2.state id =
          r.state id := by
        unfold SessionRegistry.appendLoadUpdate
        split <;> rfl
      rw [SessionRegistry.appendLoadUpdates]
      cases happ : r.appendLoadUpdate sessionId incarnation attemptId update with
      | mk answer next =>
          rw [happ] at hone
          cases answer with
          | error error => exact hone
          | ok u => exact (ih next).trans hone

/-- A load is refused to a session that may not load, and where a candidate is open. -/
theorem beginLoad_of_refused {a : SessionState δ} (ha : r.requireState sessionId incarnation = .ok a)
    (h : SessionRegistry.mayLoad a attemptId = false ∨
      (r.history.candidates.lookup ⟨sessionId, incarnation⟩).isSome) :
    ∃ error, r.beginLoad sessionId incarnation attemptId = (.error error, r) := by
  unfold SessionRegistry.beginLoad
  rw [ha]
  cases hm : SessionRegistry.mayLoad a attemptId with
  | false => exact ⟨.wrongPhase, by simp only [hm, Bool.not_false, if_true]⟩
  | true =>
      rw [hm] at h
      rcases h with h | h
      · cases h
      · obtain ⟨candidate, hc⟩ := Option.isSome_iff_exists.mp h
        refine ⟨.history .candidateExists, ?_⟩
        simp only [hm, Bool.not_true, Bool.false_eq_true, if_false,
          HistoryCache.beginCandidate_of_some attemptId hc]

/-- Else it begins, and the session names its attempt. -/
theorem beginLoad_of_open {a : SessionState δ} (ha : r.requireState sessionId incarnation = .ok a)
    (hm : SessionRegistry.mayLoad a attemptId = true)
    (hc : r.history.candidates.lookup ⟨sessionId, incarnation⟩ = none) :
    ∃ next, r.beginLoad sessionId incarnation attemptId = (.ok (), next) ∧
      next.state sessionId = some (SessionRegistry.loadBegun a attemptId) := by
  obtain ⟨cache, hcache⟩ : ∃ cache,
      r.history.beginCandidate ⟨sessionId, incarnation⟩ attemptId = (.ok (), cache) :=
    ⟨_, HistoryCache.beginCandidate_of_none attemptId hc⟩
  refine ⟨SessionRegistry.putState { r with history := cache } sessionId
    (SessionRegistry.loadBegun a attemptId), ?_, ?_⟩
  · unfold SessionRegistry.beginLoad
    simp only [ha, hm, Bool.not_true, Bool.false_eq_true, if_false, hcache]
  · exact (written_putState_history (requireState_eq_ok.mp ha).1 cache _).state

/-- Where the load of a cached history has begun and the installation fails, it names its attempt. -/
theorem loadAttempt_of_failed {a : SessionState δ} {updates : List Value} {notice : String}
    {error : MirrorError} {r' : SessionRegistry σ δ}
    (ha : r.requireState sessionId incarnation = .ok a) (hturn : a.activeTurn = none)
    (hload : a.loadAttempt = none)
    (hm : SessionRegistry.mayLoad { a with phase := .cold } cachedAttempt = true)
    (hc : r.history.candidates.lookup ⟨sessionId, incarnation⟩ = none)
    (h : r.useCachedHistory sessionId incarnation updates notice = (.error error, r')) :
    (r'.state sessionId).map (·.loadAttempt) = some (some cachedAttempt) := by
  have hcooled := written_putState (requireState_eq_ok.mp ha).1 { a with phase := .cold }
  have hrequire : (r.putState sessionId { a with phase := .cold }).requireState sessionId
      incarnation = .ok { a with phase := .cold } :=
    requireState_eq_ok.mpr ⟨hcooled.state, (requireState_eq_ok.mp ha).2⟩
  rw [← history_putState r sessionId { a with phase := .cold }] at hc
  obtain ⟨begun, hbegin, hstate⟩ := beginLoad_of_open hrequire hm hc
  have hfed := state_appendLoadUpdates sessionId incarnation cachedAttempt updates begun sessionId
  rw [hstate] at hfed
  unfold SessionRegistry.useCachedHistory at h
  rw [cachedAttempt] at hbegin hfed ⊢
  simp only [ha] at h
  rw [if_neg (by rw [hturn, hload]; decide), hbegin] at h
  cases happ : SessionRegistry.appendLoadUpdates sessionId incarnation "bridge-cache-fallback"
      begun updates with
  | mk answer fed =>
      rw [happ] at hfed
      simp only [happ] at h
      cases answer with
      | error error =>
          cases h
          rw [hfed]
          rfl
      | ok u =>
          rcases commitLoad_cases fed sessionId incarnation "bridge-cache-fallback" with
            ⟨error, hcommit⟩ | ⟨b, replay, folded, -, hcommit⟩
          · simp only [hcommit] at h
            cases h
            rw [hfed]
            rfl
          · simp only [hcommit] at h
            cases h

/-- Where the load of a cached history is refused, the session is cold and nothing else changed. -/
theorem cooled_of_refused {a : SessionState δ} {updates : List Value} {notice : String}
    {error : MirrorError} {r' : SessionRegistry σ δ}
    (ha : r.requireState sessionId incarnation = .ok a) (hturn : a.activeTurn = none)
    (hload : a.loadAttempt = none)
    (hopen : SessionRegistry.mayLoad { a with phase := .cold } cachedAttempt = false ∨
      (r.history.candidates.lookup ⟨sessionId, incarnation⟩).isSome)
    (h : r.useCachedHistory sessionId incarnation updates notice = (.error error, r')) :
    r' = r.putState sessionId { a with phase := .cold } := by
  have hcooled := written_putState (requireState_eq_ok.mp ha).1 { a with phase := .cold }
  have hrequire : (r.putState sessionId { a with phase := .cold }).requireState sessionId
      incarnation = .ok { a with phase := .cold } :=
    requireState_eq_ok.mpr ⟨hcooled.state, (requireState_eq_ok.mp ha).2⟩
  rw [← history_putState r sessionId { a with phase := .cold }] at hopen
  obtain ⟨refusal, hbegin⟩ := beginLoad_of_refused hrequire hopen
  unfold SessionRegistry.useCachedHistory at h
  rw [cachedAttempt] at hbegin
  simp only [ha] at h
  rw [if_neg (by rw [hturn, hload]; decide), hbegin] at h
  cases h
  rfl

/-- The installation of a cached history fails without a change exactly when it fails first. -/
theorem useCachedHistory_failed_iff {updates : List Value} {notice : String}
    {error : MirrorError} {r' : SessionRegistry σ δ}
    (h : r.useCachedHistory sessionId incarnation updates notice = (.error error, r')) :
    SameHistory r r' ↔
      (HistoryOp.useCachedHistory updates notice).FailsFirst r sessionId incarnation := by
  cases ha : r.requireState sessionId incarnation with
  | error refusal =>
      unfold SessionRegistry.useCachedHistory at h
      rw [ha] at h
      cases h
      refine ⟨fun _ a hok => ?_, fun _ => .refl r⟩
      rw [ha] at hok
      cases hok
  | ok a =>
      by_cases hfree : a.activeTurn = none ∧ a.loadAttempt = none
      case neg =>
        unfold SessionRegistry.useCachedHistory at h
        have hbusy : (a.activeTurn.isSome || a.loadAttempt.isSome) = true := by
          cases hturn : a.activeTurn <;> cases hload : a.loadAttempt <;> simp_all
        simp only [ha, hbusy, if_true] at h
        cases h
        refine ⟨fun _ b hok hturn hload => ?_, fun _ => .refl r⟩
        rw [ha] at hok
        cases hok
        exact absurd ⟨hturn, hload⟩ hfree
      case pos =>
        obtain ⟨hturn, hload⟩ := hfree
        have hstate := (requireState_eq_ok.mp ha).1
        have hsame : a.phase = .cold → { a with phase := .cold } = a := by
          intro hcold
          rw [← hcold]
        by_cases hopen : SessionRegistry.mayLoad { a with phase := .cold } cachedAttempt = false ∨
            (r.history.candidates.lookup ⟨sessionId, incarnation⟩).isSome
        case pos =>
          rw [cooled_of_refused ha hturn hload hopen h]
          have hcooled := written_putState hstate { a with phase := .cold }
          constructor
          · rintro ⟨hface, -⟩ b hok - -
            rw [ha] at hok
            cases hok
            have hphase := congrArg (Option.map HistoryFace.phase) (hface sessionId)
            rw [hcooled.state, hstate] at hphase
            have hcold : a.phase = .cold := (Option.some.inj hphase).symm
            rw [hsame hcold] at hopen
            exact ⟨hcold, hopen⟩
          · intro hfirst
            obtain ⟨hcold, -⟩ := hfirst a ha hturn hload
            rw [hsame hcold] at hcooled ⊢
            refine ⟨fun other => ?_, fun key => congrFun (congrArg CacheView.peek hcooled.view) key⟩
            by_cases ho : other = sessionId
            · rw [ho, hcooled.state, hstate]
            · rw [hcooled.states other ho]
        case neg =>
          obtain ⟨hm, hc⟩ := not_or.mp hopen
          have hbegun := loadAttempt_of_failed ha hturn hload (Bool.not_eq_false _ ▸ hm)
            (Option.not_isSome_iff_eq_none.mp hc) h
          constructor
          · rintro ⟨hface, -⟩
            have hattempt := congrArg (Option.map HistoryFace.loadAttempt) (hface sessionId)
            rw [hstate, Option.map_map] at hattempt
            have hnone : some (some cachedAttempt) = some a.loadAttempt := hbegun.symm.trans hattempt
            rw [hload] at hnone
            cases hnone
          · intro hfirst
            obtain ⟨hcold, hrefused⟩ := hfirst a ha hturn hload
            rw [hsame hcold] at hopen
            exact absurd hrefused hopen

end Cached

section Failures

variable [DecidableEq δ] (sha256 : String → δ) {r : SessionRegistry σ δ} {sessionId : String}
  {incarnation : Nat}

omit [DecidableEq δ] in
/-- Feeding a load changes neither a session nor a baseline. -/
theorem sameHistory_appendLoadUpdate (attemptId : String) (update : Value) :
    SameHistory r (r.appendLoadUpdate sessionId incarnation attemptId update).2 := by
  unfold SessionRegistry.appendLoadUpdate
  split
  · exact .refl r
  · exact ⟨fun _ => rfl, fun key =>
      congrFun (congrArg CacheView.peek (HistoryCache.view_appendCandidate attemptId update)) key⟩

omit [Inhabited σ] [DecidableEq δ] in
/-- An operation that either fails with no change or succeeds. -/
theorem sameHistory_of_cases {α : Type} {result : Except MirrorError α × SessionRegistry σ δ}
    (h : (∃ error, result = (.error error, r)) ∨ ∃ a next, result = (.ok a, next))
    {error : MirrorError} {r' : SessionRegistry σ δ}
    (hfailed : result.map errorOf id = (some error, r')) : SameHistory r r' := by
  rcases h with ⟨refusal, rfl⟩ | ⟨a, next, rfl⟩
  · cases hfailed
    exact .refl r
  · cases hfailed

/-- A history operation that fails leaves the history side of every session and every baseline as
they were, exactly when it fails before its changes; only the installation of a cached history may
fail after one. -/
theorem failed_keeps_iff (op : HistoryOp) {error : MirrorError} {r' : SessionRegistry σ δ}
    (h : op.perform sha256 r sessionId incarnation = (some error, r')) :
    SameHistory r r' ↔ op.FailsFirst r sessionId incarnation := by
  cases op with
  | useCachedHistory updates notice =>
      cases hr : r.useCachedHistory sessionId incarnation updates notice with
      | mk answer next =>
          rw [HistoryOp.perform, hr] at h
          cases answer with
          | ok u => cases h
          | error refusal =>
              cases h
              exact useCachedHistory_failed_iff hr
  | beginLoad attemptId =>
      refine iff_of_true (sameHistory_of_cases ?_ h) trivial
      rcases beginLoad_cases r sessionId incarnation attemptId with hr | ⟨a, cache, -, -, -, -, hr⟩
      · exact .inl hr
      · exact .inr ⟨_, _, hr⟩
  | appendLoadUpdate attemptId update =>
      refine iff_of_true ?_ trivial
      have hnext := congrArg Prod.snd h
      rw [← show _ = r' from hnext]
      exact sameHistory_appendLoadUpdate attemptId update
  | commitLoad attemptId =>
      refine iff_of_true (sameHistory_of_cases ?_ h) trivial
      rcases commitLoad_cases r sessionId incarnation attemptId with hr | ⟨a, replay, u, -, hr⟩
      · exact .inl hr
      · exact .inr ⟨_, _, hr⟩
  | startTurn expectedHistoryRevision clientIntentId prompt =>
      refine iff_of_true (sameHistory_of_cases ?_ h) trivial
      rcases startTurn_cases sha256 r sessionId incarnation expectedHistoryRevision clientIntentId
        prompt with hr | ⟨a, -, -, ⟨id, -, hr⟩ | ⟨-, hr⟩⟩
      · exact .inl hr
      · exact .inr ⟨_, _, hr⟩
      · exact .inr ⟨_, _, hr⟩
  | appendTurnUpdate operationId update =>
      refine iff_of_true (sameHistory_of_cases ?_ h) trivial
      rcases overlayStep_cases r sessionId incarnation (·.appendTurnUpdate operationId update) with
        hr | ⟨a, b, -, -, -, hr⟩
      · exact .inl hr
      · exact .inr ⟨_, _, hr⟩
  | appendSessionUpdate update =>
      refine iff_of_true (sameHistory_of_cases ?_ h) trivial
      rcases appendSessionUpdate_cases r sessionId incarnation update with
        hr | ⟨a, -, -, -, ⟨b, -, -, hr⟩ | ⟨prior, updates, -, -, -, hr⟩⟩
      · exact .inl hr
      · exact .inr ⟨_, _, hr⟩
      · exact .inr ⟨_, _, hr⟩
  | completeTurn operationId terminal =>
      refine iff_of_true (sameHistory_of_cases ?_ h) trivial
      rcases overlayStep_cases r sessionId incarnation (·.completeTurn operationId terminal) with
        hr | ⟨a, b, -, -, -, hr⟩
      · exact .inl hr
      · exact .inr ⟨_, _, hr⟩
  | commitCompletedTurnFromMemory operationId =>
      refine iff_of_true (sameHistory_of_cases ?_ h) trivial
      rcases commitCompletedTurnFromMemory_cases r sessionId incarnation operationId with
        hr | ⟨a, turn, prior, updates, -, -, -, -, -, hr⟩
      · exact .inl hr
      · exact .inr ⟨_, _, hr⟩
  | blockTurn operationId message =>
      refine iff_of_true (sameHistory_of_cases ?_ h) trivial
      rcases stateStep_cases r sessionId incarnation (·.blockTurn operationId message) with
        hr | ⟨a, b, -, -, -, hr⟩
      · exact .inl hr
      · exact .inr ⟨_, _, hr⟩

end Failures

/-- A ready session that a control operation holds. -/
def controlledSession : SessionRegistry Unit String :=
  ((SessionRegistry.new "epoch").registerNew "s" 1).beginExclusive "s" 1 .setMode "control" |>.2

/-- A turn request to it is refused and changes nothing. -/
theorem failed_keeps_iff_controlled :
    SameHistory controlledSession
      ((HistoryOp.startTurn "r" "i" ⟨[], "[]"⟩).perform id controlledSession "s" 1).2 := by
  have hfailed : ((HistoryOp.startTurn "r" "i" ⟨[], "[]"⟩).perform id controlledSession "s" 1).1 =
      some .wrongPhase := by
    decide +kernel
  exact (failed_keeps_iff id (.startTurn "r" "i" ⟨[], "[]"⟩) (Prod.ext hfailed rfl)).mpr trivial

/-- The installation of a cached history is refused to it, and leaves it cold. -/
theorem failed_installation_cools :
    let result := (HistoryOp.useCachedHistory [] "notice").perform id controlledSession "s" 1
    result.1 = some .wrongPhase ∧
      (controlledSession.state "s").map (·.phase) = some .ready ∧
      (result.2.state "s").map (·.phase) = some .cold := by
  decide +kernel

end Attyd.Session
