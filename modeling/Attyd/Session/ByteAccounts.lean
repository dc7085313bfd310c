import Attyd.History.CacheAccounts
import Attyd.Session.Runs

/-!
# The byte counters of the registry

The registry counts the bytes of the overlays of all sessions and of the terminal output it
retains, and its cache those of the published histories. Each counter is kept by differences; it
stays the sum it stands for, whatever is replaced, removed or refused.

## Implementation notes

`Accounted` is the invariant. An operation that adds to a counter keeps it while the new sum fits
the counter, so a step lemma asks that of the registry after the step alone.
-/

namespace Attyd.Session

open Json (Value)
open History

variable {σ δ : Type}

/-- The length of the serialized overlay, zero without one. -/
def SessionState.overlayLen (self : SessionState δ) : Nat := self.activeTurn.elim 0 serializedLen

/-- The session has recorded the length of its overlay. -/
def SessionState.Recorded (self : SessionState δ) : Prop :=
  self.activeOverlayBytes = self.overlayLen

namespace SessionRegistry

variable {r r' : SessionRegistry σ δ} {sessionId : String} {a b : SessionState δ}

def entryOverlayLen (entry : SessionEntry δ) : Nat := entry.state.overlayLen

def terminalsLen (terminals : Table String Value) : Nat := terminals.total Value.bytes

/-- Every overlay is recorded with its length, and the registry counts them all. -/
structure CountsOverlays (r : SessionRegistry σ δ) : Prop where
  recorded : ∀ sessionId session, r.state sessionId = some session → session.Recorded
  counted : Table.Counts r.overlayBytes entryOverlayLen r.sessions

/-- The registry counts the terminal output it retains. -/
def CountsTerminals (r : SessionRegistry σ δ) : Prop :=
  Table.Counts r.retainedTerminalBytes terminalsLen r.retainedTerminals

section Overlays

theorem CountsOverlays.congr (h : r.CountsOverlays) (hsessions : r'.sessions = r.sessions)
    (hbytes : r'.overlayBytes = r.overlayBytes) : r'.CountsOverlays := by
  refine ⟨fun id session hstate => ?_, ?_⟩
  · rw [state, hsessions] at hstate
    exact h.recorded id session hstate
  · rw [hsessions, hbytes]
    exact h.counted

/-- A session is written: it records its overlay, and the counter follows. -/
theorem CountsOverlays.of_insert (h : r.CountsOverlays) {entry : SessionEntry δ}
    (hsessions : r'.sessions = r.sessions.insert sessionId entry)
    (hrecorded : entry.state.Recorded)
    (hcounted : Table.Counts r'.overlayBytes entryOverlayLen r'.sessions) : r'.CountsOverlays := by
  refine ⟨fun id session hstate => ?_, hcounted⟩
  rw [state, hsessions] at hstate
  by_cases hid : id = sessionId
  · rw [hid, Finmap.lookup_insert] at hstate
    cases hstate
    exact hrecorded
  · rw [Finmap.lookup_insert_of_ne _ hid] at hstate
    exact h.recorded id session hstate

/-- A session is written whose overlay is as long as before. -/
theorem CountsOverlays.putState (h : r.CountsOverlays) (ha : r.state sessionId = some a)
    (hlen : b.overlayLen = a.overlayLen) (hbytes : b.activeOverlayBytes = a.activeOverlayBytes) :
    (r.putState sessionId b).CountsOverlays := by
  obtain ⟨entry, he, rfl⟩ := Option.map_eq_some_iff.mp ha
  have hrecorded : b.Recorded := by
    rw [SessionState.Recorded, hlen, hbytes]
    exact h.recorded sessionId _ ha
  rw [SessionRegistry.putState, he]
  exact h.of_insert rfl hrecorded (h.counted.insert_same he hlen)

/-- A session is written whose overlay is gone; its length is taken off. -/
theorem CountsOverlays.clear (h : r.CountsOverlays) (ha : r.state sessionId = some a)
    (hlen : b.overlayLen = 0) (hbytes : b.activeOverlayBytes = 0) :
    ({ r.putState sessionId b with
      overlayBytes := r.overlayBytes - a.activeOverlayBytes } : SessionRegistry σ δ).CountsOverlays := by
  obtain ⟨entry, he, rfl⟩ := Option.map_eq_some_iff.mp ha
  have hold : entry.state.activeOverlayBytes = entry.state.overlayLen := h.recorded sessionId _ ha
  rw [SessionRegistry.putState, he, hold]
  refine h.of_insert rfl (hbytes.trans hlen.symm) (h.counted.insert_sub he ?_)
  change b.overlayLen + entry.state.overlayLen = entry.state.overlayLen
  rw [hlen, Nat.zero_add]

/-- A session is written with another overlay. -/
theorem CountsOverlays.putOverlay (h : r.CountsOverlays) (ha : r.state sessionId = some a)
    (hb : b.Recorded) (hfits : (r.putOverlay sessionId a b).sessions.sum entryOverlayLen < 2 ^ 64) :
    (r.putOverlay sessionId a b).CountsOverlays := by
  obtain ⟨entry, he, rfl⟩ := Option.map_eq_some_iff.mp ha
  have hold : entry.state.activeOverlayBytes = entry.state.overlayLen := h.recorded sessionId _ ha
  rw [SessionRegistry.putOverlay, SessionRegistry.putState, he] at hfits ⊢
  refine h.of_insert rfl hb ?_
  have hcounted := h.counted.insert sessionId _ hfits
  rw [he, Option.elim_some] at hcounted
  rw [hold, hb]
  exact hcounted

end Overlays

section Terminals

theorem CountsTerminals.congr (h : r.CountsTerminals)
    (hterminals : r'.retainedTerminals = r.retainedTerminals)
    (hbytes : r'.retainedTerminalBytes = r.retainedTerminalBytes) : r'.CountsTerminals := by
  rw [CountsTerminals, hterminals, hbytes]
  exact h

theorem CountsTerminals.removeRetainedTerminals (h : r.CountsTerminals) (key : SessionKey) :
    (r.removeRetainedTerminals key).CountsTerminals := by
  rw [SessionRegistry.removeRetainedTerminals]
  cases hk : r.retainedTerminals.lookup key with
  | none => exact h
  | some terminals =>
      have hcounted := Table.Counts.erase h key
      rw [hk] at hcounted
      exact hcounted

theorem CountsTerminals.pruneRetainedTerminals (h : r.CountsTerminals) (key : SessionKey)
    (updates : List Value) : (r.pruneRetainedTerminals key updates).CountsTerminals := by
  rw [SessionRegistry.pruneRetainedTerminals]
  cases hk : r.retainedTerminals.lookup key with
  | none => exact h
  | some terminals =>
      refine Table.Counts.insert_sub h hk ?_
      have hretain := Table.sum_retain Value.bytes terminals
        fun id _ => updates.any fun update => referencesTerminal update id
      rw [Nat.add_comm] at hretain
      exact hretain.symm

end Terminals

/-- The three counters are the sums they stand for, and the histories are folds. -/
structure Accounted (r : SessionRegistry σ δ) [Inhabited σ] : Prop where
  overlays : r.CountsOverlays
  baselines : r.history.CountsBaselines
  terminals : r.CountsTerminals
  folded : r.history.Folded

/-- The lengths of what the registry holds add up to less than a counter can count. -/
structure Fits (r : SessionRegistry σ δ) : Prop where
  overlays : r.sessions.sum entryOverlayLen < 2 ^ 64
  baselines : r.history.entries.sum HistoryCache.serialized < 2 ^ 64
  terminals : r.retainedTerminals.sum terminalsLen < 2 ^ 64

theorem Fits.congr (h : r.Fits) (hsessions : r'.sessions = r.sessions)
    (hhistory : r'.history = r.history) (hterminals : r'.retainedTerminals = r.retainedTerminals) :
    r'.Fits := by
  refine ⟨?_, ?_, ?_⟩
  · rw [hsessions]
    exact h.overlays
  · rw [hhistory]
    exact h.baselines
  · rw [hterminals]
    exact h.terminals

variable [Inhabited σ]

namespace Accounted

theorem new (epoch : String) : (SessionRegistry.new epoch : SessionRegistry σ δ).Accounted where
  overlays := ⟨by simp [SessionRegistry.new, state], Table.counts_empty⟩
  baselines := HistoryCache.countsBaselines_new epoch
  terminals := Table.counts_empty
  folded := HistoryCache.Folded.new epoch

/-- What the cache does beside publishing keeps the accounts. -/
theorem withHistory (h : r.Accounted) {history : HistoryCache σ}
    (hbaselines : history.CountsBaselines) (hfolded : history.Folded) :
    ({ r with history } : SessionRegistry σ δ).Accounted :=
  ⟨h.overlays.congr rfl rfl, hbaselines, h.terminals.congr rfl rfl, hfolded⟩

/-- What is written into the sessions touches neither the cache nor the terminals. -/
theorem withSessions (h : r.Accounted) (hoverlays : r'.CountsOverlays)
    (hhistory : r'.history = r.history) (hterminals : r'.retainedTerminals = r.retainedTerminals)
    (hbytes : r'.retainedTerminalBytes = r.retainedTerminalBytes) : r'.Accounted := by
  refine ⟨hoverlays, ?_, h.terminals.congr hterminals hbytes, ?_⟩
  · rw [hhistory]
    exact h.baselines
  · rw [hhistory]
    exact h.folded

omit [Inhabited σ] in
theorem terminals_putState (r : SessionRegistry σ δ) (sessionId : String) (b : SessionState δ) :
    (r.putState sessionId b).retainedTerminals = r.retainedTerminals ∧
      (r.putState sessionId b).retainedTerminalBytes = r.retainedTerminalBytes := by
  rw [SessionRegistry.putState]
  cases r.sessions.lookup sessionId <;> exact ⟨rfl, rfl⟩

theorem putState (h : r.Accounted) (ha : r.state sessionId = some a)
    (hlen : b.overlayLen = a.overlayLen) (hbytes : b.activeOverlayBytes = a.activeOverlayBytes) :
    (r.putState sessionId b).Accounted :=
  h.withSessions (h.overlays.putState ha hlen hbytes) (history_putState r sessionId b)
    (terminals_putState r sessionId b).1 (terminals_putState r sessionId b).2

theorem clear (h : r.Accounted) (ha : r.state sessionId = some a) (hlen : b.overlayLen = 0)
    (hbytes : b.activeOverlayBytes = 0) :
    ({ r.putState sessionId b with
      overlayBytes := r.overlayBytes - a.activeOverlayBytes } : SessionRegistry σ δ).Accounted :=
  h.withSessions (h.overlays.clear ha hlen hbytes) (history_putState r sessionId b)
    (terminals_putState r sessionId b).1 (terminals_putState r sessionId b).2

theorem putOverlay (h : r.Accounted) (ha : r.state sessionId = some a) (hb : b.Recorded)
    (hfits : (r.putOverlay sessionId a b).Fits) : (r.putOverlay sessionId a b).Accounted :=
  h.withSessions (h.overlays.putOverlay ha hb hfits.overlays)
    (history_putOverlay r sessionId a b) (terminals_putState r sessionId b).1
    (terminals_putState r sessionId b).2

theorem pruneRetainedTerminals (h : r.Accounted) (key : SessionKey) (updates : List Value) :
    (r.pruneRetainedTerminals key updates).Accounted := by
  have hterminals := h.terminals.pruneRetainedTerminals key updates
  obtain ⟨t, n, heq⟩ := pruneRetainedTerminals_eq r key updates
  rw [heq] at hterminals ⊢
  exact ⟨h.overlays.congr rfl rfl, h.baselines, hterminals, h.folded⟩

theorem removeRetainedTerminals (h : r.Accounted) (key : SessionKey) :
    (r.removeRetainedTerminals key).Accounted := by
  have hterminals := h.terminals.removeRetainedTerminals key
  obtain ⟨t, n, heq⟩ := removeRetainedTerminals_eq r key
  rw [heq] at hterminals ⊢
  exact ⟨h.overlays.congr rfl rfl, h.baselines, hterminals, h.folded⟩

end Accounted

section Registration

theorem Accounted.clearHistoryForReplacement (h : r.Accounted) (sessionId : String)
    (incarnation : Nat) : (r.clearHistoryForReplacement sessionId incarnation).Accounted := by
  rw [SessionRegistry.clearHistoryForReplacement]
  cases hr : r.requireState sessionId incarnation with
  | error error => exact h
  | ok session =>
      obtain ⟨ha, -⟩ := requireState_eq_ok.mp hr
      have hcleared := (h.clear ha (b := { SessionState.cold sessionId incarnation with
        live := session.live
        operation := session.operation
        viewRevision := nextCounter session.viewRevision }) rfl rfl).removeRetainedTerminals
          ⟨sessionId, incarnation⟩
      exact hcleared.withHistory (hcleared.baselines.remove _) (hcleared.folded.remove _)

/-- A session that was cleared has no overlay. -/
theorem overlayLen_clearHistoryForReplacement (r : SessionRegistry σ δ) (sessionId : String)
    (incarnation : Nat)
    (ha : (r.clearHistoryForReplacement sessionId incarnation).state sessionId = some a)
    (hi : a.incarnation = incarnation) : a.overlayLen = 0 := by
  rcases clearHistoryForReplacement_cases r sessionId incarnation with
    ⟨hno, hr⟩ | ⟨previous, cleared, -, -, htouched, -, hw⟩
  · rw [hr] at ha
    exact absurd hi (hno a ha)
  · rw [hw.state] at ha
    cases ha
    obtain ⟨execution, hturn⟩ := htouched.turn
    rw [SessionState.overlayLen, hturn]
    rfl

/-- A session without an overlay is retired. -/
theorem Accounted.retireEntry (h : r.Accounted) (sessionId : String) (incarnation : Nat)
    (hlen : ∀ a, r.state sessionId = some a → a.overlayLen = 0) :
    (r.retireEntry sessionId incarnation).Accounted := by
  rw [SessionRegistry.retireEntry]
  split
  · exact h
  · refine h.withSessions ⟨fun id session hstate => ?_, ?_⟩ rfl rfl rfl
    · rw [state] at hstate
      by_cases hid : id = sessionId
      · rw [hid, Finmap.lookup_erase] at hstate
        cases hstate
      · rw [Finmap.lookup_erase_ne hid] at hstate
        exact h.overlays.recorded id session hstate
    · have hcounted := h.overlays.counted.erase sessionId
      have hzero : (r.sessions.lookup sessionId).elim 0 entryOverlayLen = 0 := by
        cases he : r.sessions.lookup sessionId with
        | none => rfl
        | some entry => exact hlen entry.state (by rw [state, he]; rfl)
      rw [hzero, Nat.sub_zero] at hcounted
      exact hcounted

/-- A former incarnation leaves no overlay behind. -/
theorem Accounted.replaceIncarnation (h : r.Accounted) (sessionId : String) (incarnation : Nat) :
    (r.replaceIncarnation sessionId incarnation).Accounted ∧
      ∀ a, (r.replaceIncarnation sessionId incarnation).state sessionId = some a →
        a.overlayLen = 0 := by
  rw [SessionRegistry.replaceIncarnation]
  cases hs : r.state sessionId with
  | none =>
      refine ⟨h, fun a ha => ?_⟩
      rw [hs] at ha
      cases ha
  | some previous =>
      have hclear := h.clearHistoryForReplacement sessionId previous.incarnation
      have hlen : ∀ a, (r.clearHistoryForReplacement sessionId previous.incarnation).state
          sessionId = some a → a.overlayLen = 0 := by
        intro a ha
        refine overlayLen_clearHistoryForReplacement r sessionId previous.incarnation ha ?_
        rcases clearHistoryForReplacement_cases r sessionId previous.incarnation with
          ⟨hno, -⟩ | ⟨found, cleared, -, -, htouched, -, hw⟩
        · exact absurd rfl (hno previous hs)
        · rw [hw.state] at ha
          cases ha
          exact htouched.incarnation
      simp only
      split
      · refine ⟨hclear.retireEntry sessionId previous.incarnation hlen, fun a ha => ?_⟩
        rw [SessionRegistry.retireEntry] at ha
        split at ha
        · exact hlen a ha
        · simp [state] at ha
      · exact ⟨hclear, hlen⟩

end Registration

end SessionRegistry

end Attyd.Session
