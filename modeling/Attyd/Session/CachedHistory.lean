import Attyd.Session.LoadEffects

/-!
# A load that is fed a list of updates

A candidate that accepted a list of updates, and nothing else, holds their fold.
So a history the bridge installs itself is the fold of the list it was given.
-/

namespace Attyd.History

open Json (Value)

variable {σ : Type} [Inhabited σ] {cache : HistoryCache σ} {key : SessionKey}
  {attemptId : String} {updates : List Value}

/-- The open candidate of an attempt has accepted exactly these updates. -/
def HistoryCache.Gathers (cache : HistoryCache σ) (key : SessionKey) (attemptId : String)
    (updates : List Value) : Prop :=
  ∃ replay data, cache.candidates.lookup key = some ⟨attemptId, replay⟩ ∧
    cache.replays[replay]? = some data ∧ data.history.Indexed ∧ data.invalid = none ∧
    normalizeHistoryUpdates updates = .ok data.history.updates

/-- A candidate starts with nothing. -/
theorem HistoryCache.beginCandidate_gathers {cache' : HistoryCache σ}
    (h : cache.beginCandidate key attemptId = (.ok (), cache')) :
    cache'.Gathers key attemptId [] := by
  cases hc : cache.candidates.lookup key with
  | some candidate =>
      rw [beginCandidate_of_some attemptId hc] at h
      cases h
  | none =>
      rw [beginCandidate_of_none attemptId hc] at h
      cases h
      refine ⟨cache.replays.length, .default, ?_, ?_, ?_⟩
      · exact Finmap.lookup_insert _
      · exact List.getElem?_concat_length
      · exact ⟨HistoryBuilder.indexed_default, rfl, rfl⟩

/-- An update that is accepted is gathered. -/
theorem HistoryCache.Gathers.append (h : cache.Gathers key attemptId updates) {update : Value}
    {cache' : HistoryCache σ} (happ : cache.appendCandidate key attemptId update = (.ok (), cache')) :
    cache'.Gathers key attemptId (updates ++ [update]) := by
  obtain ⟨replay, data, hkey, hget, hi, hvalid, hfold⟩ := h
  have hc : cache.candidate key attemptId = .ok replay := candidate_eq_ok.mpr hkey
  simp only [appendCandidate, hc] at happ
  obtain ⟨hanswer, hdata⟩ := onReplay_of_getElem? hget (·.append update)
  rw [happ] at hanswer hdata
  have hkeys : cache'.candidates = cache.candidates := by
    exact (congrArg (fun result => result.2.candidates) happ).symm
  have hstep := HistoryBuilder.append_step hi update
  unfold ReplayData.append at hanswer hdata
  cases hs : data.sealed with
  | true =>
      rw [hs] at hanswer
      cases hanswer
  | false =>
      simp only [hs, hvalid, Bool.false_eq_true, if_false] at hanswer hdata
      cases hf : foldHistoryUpdate data.history.updates update with
      | error error =>
          rw [hf] at hstep
          simp only [hstep, reduceCtorEq] at hanswer
      | ok folded =>
          rw [hf] at hstep
          cases happend : data.history.append update with
          | mk answer history =>
              rw [happend] at hstep
              obtain ⟨rfl, hupdates, hindexed⟩ := hstep
              simp only [happend] at hdata
              refine ⟨replay, _, hkeys ▸ hkey, hdata, hindexed, rfl, ?_⟩
              rw [normalizeHistoryUpdates, List.foldlM_append]
              change normalizeHistoryUpdates updates >>= _ = _
              rw [hfold, hupdates]
              change [update].foldlM foldHistoryUpdate data.history.updates = .ok folded
              rw [List.foldlM_cons, hf]
              rfl

/-- What a gathering candidate holds is the fold of what it accepted. -/
theorem HistoryCache.Gathers.updates_eq (h : cache.Gathers key attemptId updates) {replay : Nat}
    (hkey : cache.candidates.lookup key = some ⟨attemptId, replay⟩) {folded : List Value}
    (hu : (cache.replays.getD replay .default).updates = .ok folded) :
    normalizeHistoryUpdates updates = .ok folded := by
  obtain ⟨replay', data, hkey', hget, -, hvalid, hfold⟩ := h
  rw [hkey] at hkey'
  cases hkey'
  rw [List.getD_eq_getElem?_getD, hget, Option.getD_some, ReplayData.updates, hvalid] at hu
  cases hu
  exact hfold

end Attyd.History

namespace Attyd.Session

open Json (Value)
open History

variable {σ δ : Type} [Inhabited σ] {sessionId : String} {incarnation : Nat}
  {attemptId : String} {r r' : SessionRegistry σ δ}

/-- A load that has begun has gathered nothing yet. -/
theorem beginLoad_gathers (h : r.beginLoad sessionId incarnation attemptId = (.ok (), r')) :
    r'.history.Gathers ⟨sessionId, incarnation⟩ attemptId [] := by
  rcases beginLoad_cases r sessionId incarnation attemptId with
    ⟨error, hr⟩ | ⟨b, cache, -, -, -, hcache, hr⟩
  · rw [h] at hr
    cases hr
  · rw [h] at hr
    cases hr
    rw [history_putState]
    exact HistoryCache.beginCandidate_gathers hcache

/-- A list that a load takes as a whole is what its candidate has gathered. -/
theorem appendLoadUpdates_gathers {gathered updates : List Value}
    (h : r.history.Gathers ⟨sessionId, incarnation⟩ attemptId gathered)
    (happ : SessionRegistry.appendLoadUpdates sessionId incarnation attemptId r updates =
      (.ok (), r')) :
    r'.history.Gathers ⟨sessionId, incarnation⟩ attemptId (gathered ++ updates) := by
  induction updates generalizing r gathered with
  | nil =>
      cases happ
      rw [List.append_nil]
      exact h
  | cons update updates ih =>
      rw [SessionRegistry.appendLoadUpdates] at happ
      cases hone : r.appendLoadUpdate sessionId incarnation attemptId update with
      | mk answer next =>
          rw [hone] at happ
          cases answer with
          | error error => cases happ
          | ok u =>
              have hnext : next.history.Gathers ⟨sessionId, incarnation⟩ attemptId
                  (gathered ++ [update]) := by
                unfold SessionRegistry.appendLoadUpdate at hone
                split at hone
                · cases hone
                · cases hc : r.history.appendCandidate ⟨sessionId, incarnation⟩ attemptId
                      update with
                  | mk result cache =>
                      rw [hc] at hone
                      cases result with
                      | error error => cases hone
                      | ok u =>
                          cases hone
                          exact h.append hc
              have hrest := ih hnext happ
              rwa [List.append_assoc, List.singleton_append] at hrest

/-- A history that is used from the cache is installed as the fold of its updates. -/
theorem useCachedHistory_installs {updates : List Value} {notice : String}
    (h : r.useCachedHistory sessionId incarnation updates notice = (.ok (), r')) :
    ∃ snapshot, r'.history.peek ⟨sessionId, incarnation⟩ = some snapshot ∧
      normalizeHistoryUpdates updates = .ok snapshot.updates := by
  unfold SessionRegistry.useCachedHistory at h
  cases hr : r.requireState sessionId incarnation with
  | error error =>
      rw [hr] at h
      cases h
  | ok a =>
      simp only [hr] at h
      split at h
      case isTrue => cases h
      case isFalse =>
        split at h
        case h_1 => cases h
        case h_2 begun hb =>
          split at h
          case h_1 => cases h
          case h_2 fed hfed =>
            split at h
            case h_1 => cases h
            case h_2 snapshot loaded hcommit =>
              cases h
              have hgathers : fed.history.Gathers ⟨sessionId, incarnation⟩
                  "bridge-cache-fallback" updates := by
                rw [← List.nil_append updates]
                exact appendLoadUpdates_gathers (beginLoad_gathers hb) hfed
              rcases commitLoad_cases fed sessionId incarnation "bridge-cache-fallback" with
                ⟨error, hr⟩ | ⟨b, replay, folded, hc, hr⟩
              · rw [hcommit] at hr
                cases hr
              · rw [hcommit] at hr
                cases hr
                refine ⟨(fed.history.publish ⟨sessionId, incarnation⟩ replay folded).1, ?_, ?_⟩
                · unfold SessionRegistry.modifyState
                  split
                  · rw [loadPublished_history, HistoryCache.peek_publish, if_pos rfl]
                  · rw [history_putState, loadPublished_history, HistoryCache.peek_publish,
                      if_pos rfl]
                · rw [HistoryCache.publish_fst_updates]
                  exact hgathers.updates_eq hc.current hc.updates

end Attyd.Session
