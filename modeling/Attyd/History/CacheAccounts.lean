import Attyd.History.Published
import Attyd.Library.Account

/-!
# The bytes of the published histories

The cache counts the bytes of the histories it has published. Every history is recorded with the
length of its own serialized text, also one that a load has measured while it was folded, so
the counter is the sum of these lengths.
-/

namespace Attyd.History

open Json (Value)

namespace HistoryCache

variable {σ : Type} {cache : HistoryCache σ} {key : SessionKey}

/-- The length of the serialized text of a published history. -/
def serialized (entry : HistoryEntry) : Nat := (Value.array entry.snapshot.updates).bytes

structure CountsBaselines (cache : HistoryCache σ) : Prop where
  measured : ∀ key entry, cache.entries.lookup key = some entry →
    entry.snapshot.bytes = serialized entry
  counted : Table.Counts cache.snapshotBytes serialized cache.entries

theorem countsBaselines_new (epoch : String) : (new epoch : HistoryCache σ).CountsBaselines where
  measured := by simp [new]
  counted := Table.counts_empty

namespace CountsBaselines

/-- The other parts of the cache are not counted. -/
theorem congr {cache' : HistoryCache σ} (h : cache.CountsBaselines)
    (hentries : cache'.entries = cache.entries)
    (hbytes : cache'.snapshotBytes = cache.snapshotBytes) : cache'.CountsBaselines := by
  refine ⟨?_, ?_⟩
  · rw [hentries]
    exact h.measured
  · rw [hentries, hbytes]
    exact h.counted

/-- What is taken off for a key is what its history weighs. -/
theorem bytesWithout_eq (h : cache.CountsBaselines) (key : SessionKey) :
    cache.bytesWithout key =
      cache.snapshotBytes - (cache.entries.lookup key).elim 0 serialized := by
  rw [bytesWithout]
  cases hk : cache.entries.lookup key with
  | none => rfl
  | some entry => rw [Option.elim_some, ← h.measured key entry hk]

/-- A history is published with the length of its text. -/
theorem installSnapshot (h : cache.CountsBaselines) (updates : List Value)
    (hfits : (cache.installSnapshot key updates (Value.array updates).bytes).2.entries.sum
      serialized < 2 ^ 64) :
    (cache.installSnapshot key updates (Value.array updates).bytes).2.CountsBaselines := by
  refine ⟨fun other entry hentry => ?_, ?_⟩
  · simp only [HistoryCache.installSnapshot] at hentry
    by_cases ho : other = key
    · rw [ho, Finmap.lookup_insert] at hentry
      cases hentry
      rfl
    · rw [Finmap.lookup_insert_of_ne _ ho] at hentry
      exact h.measured other entry hentry
  · have hcounted := h.counted.insert key _ hfits
    rw [← h.bytesWithout_eq] at hcounted
    exact hcounted

theorem snapshot (h : cache.CountsBaselines) (key : SessionKey) :
    (cache.snapshot key).2.CountsBaselines := by
  rw [HistoryCache.snapshot]
  cases hk : cache.entries.lookup key with
  | none => exact h.congr rfl rfl
  | some entry =>
      refine ⟨fun other found hfound => ?_, h.counted.insert_same hk rfl⟩
      by_cases ho : other = key
      · rw [ho, Finmap.lookup_insert] at hfound
        cases hfound
        exact h.measured key entry hk
      · rw [Finmap.lookup_insert_of_ne _ ho] at hfound
        exact h.measured other found hfound

variable [Inhabited σ]

theorem onReplay {α : Type} (h : cache.CountsBaselines) (replay : Nat)
    (operation : ReplayData σ → α × ReplayData σ) :
    (cache.onReplay replay operation).2.CountsBaselines := h.congr rfl rfl

theorem beginCandidate (h : cache.CountsBaselines) (key : SessionKey) (attemptId : String) :
    (cache.beginCandidate key attemptId).2.CountsBaselines := by
  rw [HistoryCache.beginCandidate]
  split
  · exact h
  · exact h.congr rfl rfl

theorem appendCandidate (h : cache.CountsBaselines) (key : SessionKey) (attemptId : String)
    (update : Value) : (cache.appendCandidate key attemptId update).2.CountsBaselines := by
  rw [HistoryCache.appendCandidate]
  split
  · exact h
  · exact h.onReplay _ _

theorem poisonCandidate (h : cache.CountsBaselines) (key : SessionKey) (attemptId : String)
    (error : HistoryCacheError) :
    (cache.poisonCandidate key attemptId error).2.CountsBaselines := by
  rw [HistoryCache.poisonCandidate]
  split
  · exact h
  · exact h.onReplay _ _

theorem abortCandidate (h : cache.CountsBaselines) (key : SessionKey) (attemptId : String) :
    (cache.abortCandidate key attemptId).2.CountsBaselines := by
  rw [HistoryCache.abortCandidate]
  split
  · exact h
  · exact h.congr rfl rfl

theorem remove (h : cache.CountsBaselines) (key : SessionKey) :
    (cache.remove key).CountsBaselines := by
  have herased : ({ cache with
      snapshotBytes := cache.bytesWithout key
      entries := cache.entries.erase key } : HistoryCache σ).CountsBaselines := by
    refine ⟨fun other entry hentry => ?_, ?_⟩
    · by_cases ho : other = key
      · rw [ho, Finmap.lookup_erase] at hentry
        cases hentry
      · rw [Finmap.lookup_erase_ne ho] at hentry
        exact h.measured other entry hentry
    · have hcounted := h.counted.erase key
      rw [← h.bytesWithout_eq] at hcounted
      exact hcounted
  rw [HistoryCache.remove]
  cases cache.candidates.lookup key with
  | none => exact herased
  | some candidate => exact herased.congr rfl rfl

/-- A load is published with the length it measured, which is that of its text. -/
theorem publish (h : cache.CountsBaselines) (hfolded : cache.Folded) {replay : Nat}
    {updates : List Value} (hu : (cache.replays.getD replay .default).updates = .ok updates)
    (hfits : (cache.publish key replay updates).2.entries.sum serialized < 2 ^ 64) :
    (cache.publish key replay updates).2.CountsBaselines := by
  obtain ⟨ledger, haudited⟩ := hfolded.replay replay
  have hbytes : max (cache.replays.getD replay .default).history.bytes 2 =
      (Value.array updates).bytes := by
    have hupdates : (cache.replays.getD replay .default).history.updates = updates := by
      rw [ReplayData.updates] at hu
      split at hu
      · cases hu
      · exact Except.ok.inj hu
    rw [haudited.indexed.max_bytes, hupdates]
  have htaken : ({ (cache.onReplay replay (·.takeHistory)).2 with
      candidates := cache.candidates.erase key } : HistoryCache σ).CountsBaselines :=
    h.congr rfl rfl
  rw [HistoryCache.publish, hbytes] at hfits ⊢
  exact htaken.installSnapshot updates hfits

end CountsBaselines

end HistoryCache

end Attyd.History
