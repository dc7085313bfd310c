import Attyd.History.CacheRuns
import Attyd.History.Roles

/-!
# What the cache shows

Sessions see of the cache which snapshot is published under a key, which attempt
is current, and the generation of the last publication. Each operation of the
cache has a closed form on that view. Beside it every candidate and every
published history stays the fold of some updates.

## Implementation notes

The view is a function of the key, so an operation on one key is a
`Function.update`, and its effect on all other keys is a rewriting step.
-/

namespace Attyd.History

open Json (Value)

/-- The cache as its sessions see it. -/
structure CacheView where
  peek : SessionKey → Option HistorySnapshot
  attempt : SessionKey → Option String
  epoch : String
  generations : Nat

namespace CacheView

def publish (v : CacheView) (key : SessionKey) (updates : List Value) (bytes : Nat) : CacheView :=
  { v with
    peek := Function.update v.peek key
      (some ⟨HistoryCache.revisionText v.epoch key.incarnation (nextCounter v.generations),
        updates, bytes⟩)
    generations := nextCounter v.generations }

def setAttempt (v : CacheView) (key : SessionKey) (attempt : Option String) : CacheView :=
  { v with attempt := Function.update v.attempt key attempt }

def forget (v : CacheView) (key : SessionKey) : CacheView :=
  { v with
    peek := Function.update v.peek key none
    attempt := Function.update v.attempt key none }

end CacheView

namespace HistoryCache

variable {σ : Type}

/-- The attempt of the current candidate of a key. -/
def attempt (self : HistoryCache σ) : SessionKey → Option String :=
  Table.view LoadCandidate.attemptId self.candidates

def view (self : HistoryCache σ) : CacheView :=
  ⟨self.peek, self.attempt, self.epoch, self.nextGeneration⟩

section View

variable {cache : HistoryCache σ} {key : SessionKey}

theorem attempt_of_candidate {attemptId : String} {replay : Nat}
    (h : cache.candidate key attemptId = .ok replay) : cache.attempt key = some attemptId := by
  rw [attempt, Table.view, candidate_eq_ok.mp h]
  rfl

theorem attempt_eq_none : cache.attempt key = none ↔ cache.candidates.lookup key = none :=
  Option.map_eq_none_iff

theorem view_installSnapshot (key : SessionKey) (updates : List Value) (bytes : Nat) :
    (cache.installSnapshot key updates bytes).2.view = cache.view.publish key updates bytes := by
  have hpeek : (cache.installSnapshot key updates bytes).2.peek =
      Function.update cache.peek key (some (cache.installSnapshot key updates bytes).1) := by
    funext other
    rw [peek_installSnapshot, Function.update_apply]
  rw [view, hpeek]
  rfl

theorem view_snapshot (key : SessionKey) : (cache.snapshot key).2.view = cache.view := by
  unfold snapshot
  cases he : cache.entries.lookup key with
  | none => rfl
  | some entry =>
      have hpeek : Table.view HistoryEntry.snapshot (cache.entries.insert key
          { entry with lastUsed := nextCounter cache.clock }) = cache.peek := by
        rw [Table.view_insert]
        refine Function.update_eq_self_iff.mpr ?_
        simp [Table.view, he]
      exact congrArg (CacheView.mk · cache.attempt cache.epoch cache.nextGeneration) hpeek

section Replays

variable [Inhabited σ]

@[simp] theorem view_appendCandidate (attemptId : String) (update : Value) :
    (cache.appendCandidate key attemptId update).2.view = cache.view := by
  unfold appendCandidate
  cases cache.candidate key attemptId <;> rfl

@[simp] theorem view_poisonCandidate (attemptId : String) (error : HistoryCacheError) :
    (cache.poisonCandidate key attemptId error).2.view = cache.view := by
  unfold poisonCandidate
  cases cache.candidate key attemptId <;> rfl

omit [Inhabited σ] in
/-- The view once the candidate of a key is gone, whatever became of the candidates. -/
theorem view_erase (cache : HistoryCache σ) (key : SessionKey) (replays : List (ReplayData σ)) :
    ({ cache with candidates := cache.candidates.erase key, replays } : HistoryCache σ).view =
      cache.view.setAttempt key none :=
  congrArg (CacheView.mk cache.peek · cache.epoch cache.nextGeneration)
    (Table.view_erase _ cache.candidates key)

/-- A candidate is opened for a key that has none. -/
theorem beginCandidate_cases (cache : HistoryCache σ) (key : SessionKey) (attemptId : String) :
    (∃ error, cache.beginCandidate key attemptId = (.error error, cache)) ∨
      cache.attempt key = none ∧ ∃ cache' : HistoryCache σ,
        cache.beginCandidate key attemptId = (.ok (), cache') ∧
        cache'.view = cache.view.setAttempt key (some attemptId) := by
  cases hk : cache.candidates.lookup key with
  | some candidate => exact .inl ⟨_, beginCandidate_of_some attemptId hk⟩
  | none =>
      refine .inr ⟨attempt_eq_none.mpr hk, _, beginCandidate_of_none attemptId hk, ?_⟩
      exact congrArg (CacheView.mk cache.peek · cache.epoch cache.nextGeneration)
        (Table.view_insert _ cache.candidates key _)

theorem abortCandidate_cases (cache : HistoryCache σ) (key : SessionKey) (attemptId : String) :
    (∃ error, cache.abortCandidate key attemptId = (.error error, cache)) ∨
      cache.attempt key = some attemptId ∧ ∃ cache' : HistoryCache σ,
        cache.abortCandidate key attemptId = (.ok (), cache') ∧
        cache'.view = cache.view.setAttempt key none := by
  unfold abortCandidate
  cases hc : cache.candidate key attemptId with
  | error error => exact .inl ⟨error, rfl⟩
  | ok replay => exact .inr ⟨attempt_of_candidate hc, _, rfl, view_erase cache key _⟩

theorem view_publish (replay : Nat) (updates : List Value) :
    (cache.publish key replay updates).2.view =
      (cache.view.setAttempt key none).publish key updates
        (max (cache.replays.getD replay .default).history.bytes 2) := by
  rw [publish, view_installSnapshot]
  exact congrArg (CacheView.publish · key updates _) (view_erase cache key _)

theorem view_remove (cache : HistoryCache σ) (key : SessionKey) :
    (cache.remove key).view = cache.view.forget key := by
  have hpeek := Table.view_erase HistoryEntry.snapshot cache.entries key
  unfold remove
  cases hk : cache.candidates.lookup key with
  | some candidate =>
      have hattempt := Table.view_erase LoadCandidate.attemptId cache.candidates key
      simp only [hk]
      exact congrArg₂ (CacheView.mk · · cache.epoch cache.nextGeneration) hpeek hattempt
  | none =>
      have hattempt : cache.attempt = Function.update cache.attempt key none :=
        (Function.update_eq_self_iff.mpr (attempt_eq_none.mpr hk).symm).symm
      simp only [hk]
      exact congrArg₂ (CacheView.mk · · cache.epoch cache.nextGeneration) hpeek hattempt

end Replays

/-- An idle update is folded into the published history, or nothing changes. -/
theorem appendCommittedUpdates_cases (cache : HistoryCache σ) (key : SessionKey)
    (suffix : List Value) :
    (∃ error, cache.appendCommittedUpdates key suffix = (.error error, cache)) ∨
      ∃ prior updates, cache.peek key = some prior ∧
        suffix.foldlM foldHistoryUpdate prior.updates = .ok updates ∧
        cache.appendCommittedUpdates key suffix =
          (.ok (cache.installSnapshot key updates (Value.array updates).bytes).1,
            (cache.installSnapshot key updates (Value.array updates).bytes).2) := by
  unfold appendCommittedUpdates
  cases he : cache.entries.lookup key with
  | none => exact .inl ⟨_, rfl⟩
  | some previous =>
      cases hf : suffix.foldlM foldHistoryUpdate previous.snapshot.updates with
      | error error => exact .inl ⟨.invalidReplay, by simp only [hf]⟩
      | ok updates =>
          refine .inr ⟨previous.snapshot, updates, by simp [peek, he], hf, ?_⟩
          simp only [hf]

end View

end HistoryCache

section Folded

/-- A history some updates fold to. -/
def IsFold (updates : List Value) : Prop := ∃ raw, normalizeHistoryUpdates raw = .ok updates

theorem isFold_nil : IsFold [] := ⟨[], rfl⟩

theorem IsFold.foldlM {updates folded suffix : List Value} (h : IsFold updates)
    (hf : suffix.foldlM foldHistoryUpdate updates = .ok folded) : IsFold folded := by
  obtain ⟨raw, hraw⟩ := h
  exact ⟨raw ++ suffix, foldlM_append_eq_ok.mpr ⟨updates, hraw, hf⟩⟩

theorem IsFold.valid {updates : List Value} (h : IsFold updates) : ValidHistory updates := by
  obtain ⟨raw, hraw⟩ := h
  have hnil : ValidHistory [] := by simp [ValidHistory]
  exact foldlM_invariant (fun _ _ _ hs hf => foldHistoryUpdate_valid hs hf) hnil hraw

variable {σ : Type} [Inhabited σ]

/-- Every candidate and every published history is a fold. -/
structure HistoryCache.Folded (cache : HistoryCache σ) : Prop where
  replays : ∀ data ∈ cache.replays, ∃ l, Audited data l
  entries : ∀ key snapshot, cache.peek key = some snapshot → IsFold snapshot.updates

namespace HistoryCache.Folded

variable {cache : HistoryCache σ} (h : cache.Folded) (key : SessionKey)

omit [Inhabited σ] in
theorem new (epoch : String) : (HistoryCache.new epoch : HistoryCache σ).Folded where
  replays := by simp [HistoryCache.new]
  entries := by simp [HistoryCache.new, peek]

include h

theorem replay (replay : Nat) : ∃ l, Audited (cache.replays.getD replay .default) l := by
  rw [List.getD_eq_getElem?_getD]
  cases hd : cache.replays[replay]? with
  | none => exact ⟨_, audited_default⟩
  | some data => exact h.replays data (List.mem_of_getElem? hd)

theorem onReplay {α : Type} (replay : Nat) {operation : ReplayData σ → α × ReplayData σ}
    (hop : ∀ data l, Audited data l → ∃ l', Audited (operation data).2 l') :
    (cache.onReplay replay operation).2.Folded := by
  refine ⟨?_, h.entries⟩
  intro data hd
  rcases List.mem_or_eq_of_mem_set hd with hd | rfl
  · exact h.replays data hd
  · obtain ⟨l, hl⟩ := h.replay replay
    exact hop _ l hl

theorem handle (validate : ValidateHistoryUpdate σ) (replay : Nat) (op : ReplayOp) :
    (cache.onReplay replay fun data => op.run validate data).2.Folded :=
  h.onReplay replay fun _ _ hl => ⟨_, hl.run validate op⟩

theorem discard (replay : Nat) :
    (cache.onReplay replay fun _ => ((), ReplayData.discarded)).2.Folded :=
  h.onReplay replay fun _ l _ =>
    ⟨l.spoil, audited_spoiled rfl rfl HistoryBuilder.indexed_default⟩

omit [Inhabited σ] in
theorem installSnapshot {updates : List Value} (hu : IsFold updates) (bytes : Nat) :
    (cache.installSnapshot key updates bytes).2.Folded := by
  refine ⟨h.replays, ?_⟩
  intro other snapshot hs
  rw [peek_installSnapshot] at hs
  split at hs
  · cases hs
    exact hu
  · exact h.entries other snapshot hs

omit [Inhabited σ] in
theorem snapshot : (cache.snapshot key).2.Folded := by
  have hreplays : (cache.snapshot key).2.replays = cache.replays := by
    unfold HistoryCache.snapshot
    cases cache.entries.lookup key <;> rfl
  have hpeek : (cache.snapshot key).2.peek = cache.peek :=
    congrArg CacheView.peek (view_snapshot key)
  exact ⟨hreplays ▸ h.replays, hpeek ▸ h.entries⟩

theorem beginCandidate (attemptId : String) : (cache.beginCandidate key attemptId).2.Folded := by
  cases hk : cache.candidates.lookup key with
  | some candidate =>
      rw [beginCandidate_of_some attemptId hk]
      exact h
  | none =>
      rw [beginCandidate_of_none attemptId hk]
      refine ⟨?_, h.entries⟩
      intro data hd
      rcases List.mem_append.mp hd with hd | hd
      · exact h.replays data hd
      · rw [List.mem_singleton.mp hd]
        exact ⟨_, audited_default⟩

theorem appendCandidate (attemptId : String) (update : Value) :
    (cache.appendCandidate key attemptId update).2.Folded := by
  unfold HistoryCache.appendCandidate
  split
  · exact h
  · exact h.onReplay _ fun _ _ hl => ⟨_, hl.append update⟩

theorem poisonCandidate (validate : ValidateHistoryUpdate σ) (attemptId : String)
    (error : HistoryCacheError) : (cache.poisonCandidate key attemptId error).2.Folded := by
  unfold HistoryCache.poisonCandidate
  split
  · exact h
  · exact h.onReplay _ fun _ _ hl => ⟨_, hl.run validate (.poison error)⟩

theorem abortCandidate (attemptId : String) : (cache.abortCandidate key attemptId).2.Folded := by
  unfold HistoryCache.abortCandidate
  split
  · exact h
  · have hd := h.discard
    exact ⟨(hd _).replays, h.entries⟩

theorem remove : (cache.remove key).Folded := by
  have hentries : ∀ other snapshot, (cache.remove key).peek other = some snapshot →
      IsFold snapshot.updates := by
    intro other snapshot hs
    have hpeek := congrFun (congrArg CacheView.peek (cache.view_remove key)) other
    change (cache.remove key).peek other = Function.update cache.peek key none other at hpeek
    rw [hpeek, Function.update_apply] at hs
    split at hs
    · cases hs
    · exact h.entries other snapshot hs
  refine ⟨?_, hentries⟩
  unfold HistoryCache.remove
  cases hk : cache.candidates.lookup key with
  | none =>
      simp only [hk]
      exact h.replays
  | some candidate =>
      simp only [hk]
      exact (h.discard candidate.replay).replays

theorem publish {replay : Nat} {updates : List Value}
    (hu : (cache.replays.getD replay .default).updates = .ok updates) :
    (cache.publish key replay updates).2.Folded := by
  obtain ⟨l, hl⟩ := h.replay replay
  have hfold : IsFold updates := ⟨l.accepted, (hl.updates_eq_ok hu).2⟩
  have htaken : (cache.onReplay replay (·.takeHistory)).2.Folded := by
    refine h.onReplay replay fun data l hl => ?_
    unfold ReplayData.takeHistory
    cases hu : data.updates with
    | error error => exact ⟨l, hl⟩
    | ok updates =>
        -- What stays behind is closed and empty.
        have hp := (hl.updates_eq_ok hu).1
        refine ⟨⟨[], true, false⟩, ?_, fun _ => rfl, HistoryBuilder.indexed_default, fun _ => rfl⟩
        rw [← hp]
        exact hl.invalid
  have herased : ({ (cache.onReplay replay (·.takeHistory)).2 with
      candidates := cache.candidates.erase key } : HistoryCache σ).Folded :=
    ⟨htaken.replays, h.entries⟩
  exact herased.installSnapshot key hfold _

end HistoryCache.Folded

end Folded

end Attyd.History
