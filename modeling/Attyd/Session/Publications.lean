import Attyd.Session.Intents

/-!
# The revisions of a session

Each publication of a history gives it a revision of a new generation. The operations that publish
are told by what they answer; all others leave the revision of the session as it was.

## Implementation notes

The generation counter wraps after 2 ^ 64 publications; only what is said of revisions that differ
assumes that it does not.
-/

namespace Attyd.Session

open Json (Value)
open History

variable {σ δ : Type} [Inhabited σ] [DecidableEq δ]

/-- The kinds of transitions that publish a history of a registered session. -/
def Action.publishes : Action → Bool
  | loaded | appended | remembered => true
  | _ => false

section Transitions

omit [Inhabited σ]

variable {sha256 : String → δ} {sessionId : String} {incarnation : Nat} {kind : Action}
  {kinds : List Action} {s s' : Slice δ} {a b : SessionState δ}

/-- The revision is as it was, or that of a later generation. -/
theorem Transition.generation (ht : Transition sha256 sessionId kind s s')
    (hk : kind.remains = true) (ha : s.session = some a)
    (hgens : s.generations + 1 < 2 ^ 64) :
    ∃ b, s'.session = some b ∧ b.incarnation = a.incarnation ∧
      s'.historyEpoch = s.historyEpoch ∧ s.generations ≤ s'.generations ∧
      s'.generations ≤ s.generations + kind.counts.toNat ∧
      (b.historyRevision = a.historyRevision ∨ s.generations < s'.generations ∧
        b.historyRevision =
          some (HistoryCache.revisionText s.historyEpoch a.incarnation s'.generations)) := by
  have hnext := nextCounter_of_lt hgens
  have hgrow : s.generations < nextCounter s.generations := by
    rw [hnext]
    exact Nat.lt_succ_self _
  cases hq : kind.quiet with
  | true =>
      obtain ⟨a', b, ha', hb, hsame, -, hepoch, -, hgen⟩ := ht.sameTurn hq
      cases ha.symm.trans ha'
      exact ⟨b, hb, hsame.incarnation, hepoch, hgen.ge, hgen.le.trans (Nat.le_add_right _ _),
        .inl hsame.historyRevision⟩
  | false =>
      cases ht with
      | elapsed hops hgens =>
          rw [hnext] at hgens
          refine ⟨a, ha, rfl, rfl, ?_, ?_, .inl rfl⟩
          · dsimp only
            omega
          · simp only [Action.counts, Bool.toNat_true]
            omega
      | loaded attemptId updates bytes ha' =>
          cases ha.symm.trans ha'
          exact ⟨_, rfl, rfl, rfl, hgrow.le, hnext.le, .inr ⟨hgrow, rfl⟩⟩
      | remembered operationId updates bytes ha' =>
          cases ha.symm.trans ha'
          exact ⟨_, rfl, rfl, rfl, hgrow.le, hnext.le, .inr ⟨hgrow, rfl⟩⟩
      | appended update updates bytes ha' =>
          cases ha.symm.trans ha'
          exact ⟨_, rfl, rfl, rfl, hgrow.le, hnext.le, .inr ⟨hgrow, rfl⟩⟩
      | admitted revision intent prompt ha' =>
          cases ha.symm.trans ha'
          exact ⟨_, rfl, rfl, rfl, le_rfl, Nat.le_add_right _ _, .inl rfl⟩
      | _ => simp_all [Action.remains, Action.stays, Action.quiet]

/-- Other transitions leave the revision of a session as it was. -/
theorem Moves.unpublished (hm : Moves sha256 sessionId kinds s s')
    (hk : ∀ kind ∈ kinds, kind.remains = true ∧ kind.publishes = false)
    {revision : Option String} (h : s.Has incarnation (·.historyRevision = revision)) :
    s'.Has incarnation (·.historyRevision = revision) := by
  refine hm.preserves (P := fun t => t.Has incarnation (·.historyRevision = revision))
    (fun kind hmem t t' ht => ?_) h
  rintro ⟨a, ha, hi, hrevision⟩
  obtain ⟨hremains, hsilent⟩ := hk kind hmem
  cases hq : kind.quiet with
  | true =>
      obtain ⟨a', b, ha', hb, hsame, -⟩ := ht.sameTurn hq
      cases ha.symm.trans ha'
      exact ⟨b, hb, hsame.incarnation.trans hi, hsame.historyRevision.trans hrevision⟩
  | false =>
      cases ht with
      | elapsed => exact ⟨a, ha, hi, hrevision⟩
      | admitted expected intent prompt ha' =>
          cases ha.symm.trans ha'
          exact ⟨_, rfl, hi, hrevision⟩
      | _ => simp_all [Action.remains, Action.stays, Action.quiet, Action.publishes]

/-- Quiet transitions publish nothing in any session. -/
theorem Moves.sameGenerations (hm : Moves sha256 sessionId kinds s s')
    (hk : ∀ kind ∈ kinds, kind.quiet = true) :
    s'.historyEpoch = s.historyEpoch ∧ s'.generations = s.generations := by
  refine hm.preserves (P := fun t => t.historyEpoch = s.historyEpoch ∧
    t.generations = s.generations) (fun kind hmem t t' ht => ?_) ⟨rfl, rfl⟩
  rintro ⟨hepoch, hgens⟩
  obtain ⟨-, -, -, -, -, -, hepoch', -, hgens'⟩ := ht.sameTurn (hk kind hmem)
  exact ⟨hepoch'.trans hepoch, hgens'.trans hgens⟩

/-- From one slice to a later one the incarnation stays, and the revision stays or is that of a
generation after the first slice. -/
structure Advance (incarnation : Nat) (s s' : Slice δ) : Prop where
  epoch : s'.historyEpoch = s.historyEpoch
  generations : s.generations ≤ s'.generations
  revision : ∃ a b, s.session = some a ∧ s'.session = some b ∧ a.incarnation = incarnation ∧
    b.incarnation = incarnation ∧ (b.historyRevision = a.historyRevision ∨
      ∃ g, s.generations < g ∧ g ≤ s'.generations ∧
        b.historyRevision = some (HistoryCache.revisionText s.historyEpoch incarnation g))

omit [DecidableEq δ] in
theorem Advance.trans {t : Slice δ} (h : Advance incarnation s t) (h' : Advance incarnation t s') :
    Advance incarnation s s' := by
  obtain ⟨a, b, ha, hb, hai, hbi, hab⟩ := h.revision
  obtain ⟨b', c, hb', hc, -, hci, hbc⟩ := h'.revision
  cases hb.symm.trans hb'
  refine ⟨h'.epoch.trans h.epoch, h.generations.trans h'.generations, a, c, ha, hc, hai, hci, ?_⟩
  have hle := h.generations
  rcases hbc with hsame | ⟨g, hlt, hg, hnew⟩
  · rcases hab with hfirst | ⟨g, hlt, hg, hnew⟩
    · exact .inl (hsame.trans hfirst)
    · exact .inr ⟨g, hlt, hg.trans h'.generations, hsame.trans hnew⟩
  · exact .inr ⟨g, by omega, hg, by rw [hnew, h.epoch]⟩

/-- Transitions advance a slice, and the generations by at most their count. -/
theorem Moves.advance (hm : Moves sha256 sessionId kinds s s')
    (hk : ∀ kind ∈ kinds, kind.remains = true) {a : SessionState δ} (ha : s.session = some a)
    (hi : a.incarnation = incarnation)
    (hgens : s.generations + kinds.countP Action.counts + 1 < 2 ^ 64) :
    Advance incarnation s s' ∧ s'.generations ≤ s.generations + kinds.countP Action.counts := by
  induction hm generalizing a with
  | @done s =>
      exact ⟨⟨rfl, le_rfl, a, a, ha, ha, hi, hi, .inl rfl⟩, Nat.le_add_right _ _⟩
  | skip _ ih =>
      rw [List.countP_cons] at hgens ⊢
      obtain ⟨hadvance, hle⟩ := ih (fun kind hmem => hk kind (List.mem_cons_of_mem _ hmem)) ha hi
        (by omega)
      exact ⟨hadvance, by omega⟩
  | @step kind kinds s t s' ht _ ih =>
      have hcount : (kind :: kinds).countP Action.counts =
          kinds.countP Action.counts + kind.counts.toNat := by
        rw [List.countP_cons]
        cases kind.counts <;> rfl
      rw [hcount] at hgens ⊢
      obtain ⟨b, hb, hbi, hepoch, hle, hcounted, hrevision⟩ :=
        ht.generation (hk _ List.mem_cons_self) ha (by omega)
      obtain ⟨hrest, hrestle⟩ := ih (fun kind hmem => hk kind (List.mem_cons_of_mem _ hmem)) hb
        (hbi.trans hi) (by omega)
      refine ⟨Advance.trans ⟨hepoch, hle, a, b, ha, hb, hi, hbi.trans hi, ?_⟩ hrest, by omega⟩
      rcases hrevision with hsame | ⟨hlt, hnew⟩
      · exact .inl hsame
      · exact .inr ⟨t.generations, hlt, le_rfl, by rw [hnew, hi]⟩

end Transitions

section Runs

variable {sha256 : String → δ} {sessionId : String} {incarnation : Nat}
  (validate : ValidateHistoryUpdate σ) {r : SessionRegistry σ δ} {ops : List RegistryOp}

/-- The current history revision of a session. -/
def revisionOf (r : SessionRegistry σ δ) (sessionId : String) : Option String :=
  (r.state sessionId).bind (·.historyRevision)

omit [Inhabited σ] [DecidableEq δ] in
theorem revisionOf_of_session {a : SessionState δ} (h : (r.slice sessionId).session = some a) :
    revisionOf r sessionId = a.historyRevision := by
  rw [revisionOf, show r.state sessionId = some a from h, Option.bind_some]

omit [Inhabited σ] [DecidableEq δ] in
/-- A change to a session that leaves its revision alone. -/
theorem revisionOf_modifyState (r : SessionRegistry σ δ) {f : SessionState δ → SessionState δ}
    (hf : ∀ a, (f a).historyRevision = a.historyRevision) :
    revisionOf (r.modifyState sessionId f) sessionId = revisionOf r sessionId := by
  unfold SessionRegistry.modifyState
  cases ha : r.state sessionId with
  | none => rfl
  | some a =>
      rw [revisionOf_of_session (written_putState ha (f a)).state, hf, revisionOf_of_session ha]

omit [DecidableEq δ] in
/-- A load that is published gives the session the revision of the next generation. -/
theorem revisionOf_loadPublished {attemptId : String} {a : SessionState δ} {replay : Nat}
    {updates : List Value} (h : Commits r sessionId incarnation attemptId a replay updates) :
    revisionOf (loadPublished r ⟨sessionId, incarnation⟩ a replay updates) sessionId =
      some (HistoryCache.revisionText r.history.epoch incarnation
        (nextCounter r.history.nextGeneration)) :=
  revisionOf_of_session (written_loadPublished h).state

/-- Whether an operation publishes the history of a session: a ready session takes an idle update,
or a turn or a load is committed. -/
def RegistryOp.publishes (sessionId : String) (r : SessionRegistry σ δ) : RegistryOp → Bool
  | .appendSessionUpdate id incarnation update =>
      id = sessionId && (r.state id).any (·.phase = .ready) &&
        (r.appendSessionUpdate id incarnation update).1.toBool
  | .commitCompletedTurnFromMemory id incarnation operationId =>
      id = sessionId && (r.commitCompletedTurnFromMemory id incarnation operationId).1.toBool
  | .commitLoad id incarnation attemptId =>
      id = sessionId && (r.commitLoad id incarnation attemptId).1.toBool
  | .commitAttachmentCache id incarnation attemptId =>
      id = sessionId && (r.commitAttachmentCache id incarnation attemptId).1.toBool
  | .useCachedHistory id incarnation updates notice =>
      id = sessionId && (r.useCachedHistory id incarnation updates notice).1.toBool
  | _ => false

/-- An operation that publishes no history of the session. -/
def Unpublished (sessionId : String) (r : SessionRegistry σ δ) (op : RegistryOp) : Prop :=
  op.publishes sessionId r = false

instance (sessionId : String) (r : SessionRegistry σ δ) (op : RegistryOp) :
    Decidable (Unpublished sessionId r op) :=
  inferInstanceAs (Decidable (op.publishes sessionId r = false))

/-- An operation that publishes nothing leaves the revision of the session as it was. -/
theorem step_unpublished (sha256 : String → δ) {op : RegistryOp}
    (hreplaces : op.replaces sessionId incarnation = false)
    {revision : Option String}
    (h : (r.slice sessionId).Has incarnation (·.historyRevision = revision))
    (hop : Unpublished sessionId r op) :
    ((op.step sha256 validate r).slice sessionId).Has incarnation
      (·.historyRevision = revision) := by
  obtain ⟨a, ha, hi, -⟩ := id h
  obtain ⟨kinds, hm, hk, -, hfrom⟩ := step_remains sha256 validate ha hi hreplaces
  -- An operation without a kind of its own that publishes.
  have hsilent (hown : ∀ kind ∈ op.kinds, kind.publishes = false) :
      ((op.step sha256 validate r).slice sessionId).Has incarnation
        (·.historyRevision = revision) := by
    refine hm.unpublished (fun kind hmem => ⟨hk kind hmem, ?_⟩) h
    rcases hfrom kind hmem with rfl | hmem
    · rfl
    · exact hown kind hmem
  have hsame (hstep : op.step sha256 validate r = r) :
      ((op.step sha256 validate r).slice sessionId).Has incarnation
        (·.historyRevision = revision) := by
    rwa [hstep]
  rcases RegistryOp.step_moves sha256 validate r op sessionId with ⟨ho, -⟩ | ⟨-, hother⟩
  · cases op with
    | appendSessionUpdate id i update =>
        cases ho
        rcases appendSessionUpdate_cases r sessionId i update with
          ⟨error, hr⟩ | ⟨b, hb, -, hload, ⟨c, hphase, hfold, hr⟩ | ⟨_, _, hphase, -, -, hr⟩⟩
        · exact hsame (by rw [RegistryOp.step, hr])
        · have hgathered : Effect sha256 sessionId [.gathered] r (r.putOverlay sessionId b c) :=
            putOverlay_effect hb (.gathered update hb (.inr ⟨hphase, hload⟩) hfold)
          rw [RegistryOp.step, hr]
          exact hgathered.self.unpublished (by decide) h
        · simp [Unpublished, RegistryOp.publishes, hb, hphase, hr, Except.toBool] at hop
    | commitCompletedTurnFromMemory id i operationId =>
        cases ho
        rcases commitCompletedTurnFromMemory_cases r sessionId i operationId with
          ⟨error, hr⟩ | ⟨b, turn, prior, updates, -, -, -, -, -, hr⟩
        · exact hsame (by rw [RegistryOp.step, hr])
        · simp [Unpublished, RegistryOp.publishes, hr, Except.toBool] at hop
    | commitLoad id i attemptId =>
        cases ho
        rcases commitLoad_cases r sessionId i attemptId with
          ⟨error, hr⟩ | ⟨b, replay, updates, -, hr⟩
        · exact hsame (by rw [RegistryOp.step, hr])
        · simp [Unpublished, RegistryOp.publishes, hr, Except.toBool] at hop
    | commitAttachmentCache id i attemptId =>
        cases ho
        rcases commitLoad_cases r sessionId i attemptId with
          ⟨error, hr⟩ | ⟨b, replay, updates, -, hr⟩
        · exact hsame (by simp only [RegistryOp.step, SessionRegistry.commitAttachmentCache, hr])
        · simp [Unpublished, RegistryOp.publishes, SessionRegistry.commitAttachmentCache, hr,
            Except.toBool] at hop
    | useCachedHistory id i updates notice =>
        cases ho
        rcases useCachedHistory_cases sha256 r sessionId i updates notice with
          ⟨error, r', hr, hfailed⟩ | ⟨fed, b, replay, folded, -, -, hr⟩
        · rw [RegistryOp.step, hr]
          exact hfailed.self.unpublished (by decide) h
        · simp [Unpublished, RegistryOp.publishes, hr, Except.toBool] at hop
    | _ => exact hsilent (by simp [RegistryOp.kinds, Action.publishes])
  · exact hother.unpublished (by decide) h

/-- An operation that publishes gives the session the revision of the next generation. -/
theorem step_published (sha256 : String → δ) {op : RegistryOp} {a : SessionState δ}
    (ha : r.state sessionId = some a) (hi : a.incarnation = incarnation)
    (hop : op.publishes sessionId r = true) :
    revisionOf (op.step sha256 validate r) sessionId =
      some (HistoryCache.revisionText r.history.epoch incarnation
        (nextCounter r.history.nextGeneration)) := by
  cases op with
  | appendSessionUpdate id i update =>
      simp only [RegistryOp.publishes, Bool.and_eq_true, decide_eq_true_eq] at hop
      obtain ⟨⟨rfl, hready⟩, hok⟩ := hop
      rcases appendSessionUpdate_cases r id i update with
        ⟨error, hr⟩ | ⟨b, hb, hbi, -, ⟨c, hphase, -, hr⟩ | ⟨prior, updates, -, -, -, hr⟩⟩
      · rw [hr] at hok
        cases hok
      · rw [hb, Option.any_some, hphase] at hready
        exact absurd hready (by decide)
      · cases ha.symm.trans hb
        rw [RegistryOp.step, hr]
        refine (revisionOf_of_session (written_putState_history ha _ _).state).trans ?_
        rw [← hi, hbi]
        rfl
  | commitCompletedTurnFromMemory id i operationId =>
      simp only [RegistryOp.publishes, Bool.and_eq_true, decide_eq_true_eq] at hop
      obtain ⟨rfl, hok⟩ := hop
      rcases commitCompletedTurnFromMemory_cases r id i operationId with
        ⟨error, hr⟩ | ⟨b, turn, prior, updates, hb, hbi, -, -, -, hr⟩
      · rw [hr] at hok
        cases hok
      · cases ha.symm.trans hb
        rw [RegistryOp.step, hr]
        refine (revisionOf_of_session (written_turnRemembered ha updates).state).trans ?_
        rw [← hi, hbi]
        rfl
  | commitLoad id i attemptId =>
      simp only [RegistryOp.publishes, Bool.and_eq_true, decide_eq_true_eq] at hop
      obtain ⟨rfl, hok⟩ := hop
      rcases commitLoad_cases r id i attemptId with
        ⟨error, hr⟩ | ⟨b, replay, updates, hc, hr⟩
      · rw [hr] at hok
        cases hok
      · cases ha.symm.trans hc.state
        rw [RegistryOp.step, hr]
        rw [revisionOf_loadPublished hc, ← hi, hc.owner]
  | commitAttachmentCache id i attemptId =>
      simp only [RegistryOp.publishes, Bool.and_eq_true, decide_eq_true_eq] at hop
      obtain ⟨rfl, hok⟩ := hop
      rcases commitLoad_cases r id i attemptId with
        ⟨error, hr⟩ | ⟨b, replay, updates, hc, hr⟩
      · simp only [SessionRegistry.commitAttachmentCache, hr] at hok
        cases hok
      · cases ha.symm.trans hc.state
        simp only [RegistryOp.step, SessionRegistry.commitAttachmentCache, hr]
        rw [revisionOf_modifyState]
        · rw [revisionOf_loadPublished hc, ← hi, hc.owner]
        · exact fun _ => rfl
  | useCachedHistory id i updates notice =>
      simp only [RegistryOp.publishes, Bool.and_eq_true, decide_eq_true_eq] at hop
      obtain ⟨rfl, hok⟩ := hop
      rcases useCachedHistory_cases sha256 r id i updates notice with
        ⟨error, r', hr, -⟩ | ⟨fed, b, replay, folded, hfed, hc, hr⟩
      · rw [hr] at hok
        cases hok
      · -- The load that is published has begun after `r`, in the same generation.
        obtain ⟨b', hb, hbi, -⟩ := hfed.self.unpublished (by decide) ⟨a, ha, hi, rfl⟩
        cases hb.symm.trans hc.state
        obtain ⟨hepoch, hgens⟩ := hfed.self.sameGenerations (by decide)
        change fed.history.epoch = r.history.epoch at hepoch
        change fed.history.nextGeneration = r.history.nextGeneration at hgens
        rw [RegistryOp.step, hr]
        dsimp only
        rw [revisionOf_modifyState]
        · rw [revisionOf_loadPublished hc, hepoch, hgens, ← hbi, hc.owner]
        · exact fun _ => rfl
  | _ => cases hop

/-- Where no operation publishes, the revision is the same at the end. -/
theorem run_unpublished (sha256 : String → δ)
    (hreplaces : ∀ op ∈ ops, op.replaces sessionId incarnation = false)
    {revision : Option String}
    (hr : (r.slice sessionId).Has incarnation (·.historyRevision = revision))
    (h : Along (RegistryOp.step sha256 validate) (Unpublished sessionId) r ops) :
    ((run (RegistryOp.step sha256 validate) r ops).slice sessionId).Has incarnation
      (·.historyRevision = revision) := by
  induction ops generalizing r with
  | nil => exact hr
  | cons op ops ih =>
      exact ih (fun op hop => hreplaces op (List.mem_cons_of_mem _ hop))
        (step_unpublished validate sha256 (hreplaces op List.mem_cons_self) hr h.1) h.2

/-- An operation advances the slice of a session, by one generation at most. -/
theorem step_advance (sha256 : String → δ) {op : RegistryOp}
    (hreplaces : op.replaces sessionId incarnation = false) {a : SessionState δ}
    (ha : r.state sessionId = some a) (hi : a.incarnation = incarnation)
    (hgens : r.history.nextGeneration + 2 < 2 ^ 64) :
    let r' := op.step sha256 validate r
    Advance incarnation (r.slice sessionId) (r'.slice sessionId) ∧
      r'.history.nextGeneration ≤ r.history.nextGeneration + 1 := by
  obtain ⟨kinds, hm, hk, hcount, -⟩ := step_remains sha256 validate ha hi hreplaces
  have hbound : (r.slice sessionId).generations + kinds.countP Action.counts + 1 < 2 ^ 64 := by
    change r.history.nextGeneration + _ + 1 < _
    omega
  obtain ⟨hadvance, hle⟩ := hm.advance hk ha hi hbound
  exact ⟨hadvance, hle.trans (Nat.add_le_add_left hcount _)⟩

/-- A run advances the slice of a session, each operation by one generation at most. -/
theorem run_advance (sha256 : String → δ)
    (hreplaces : ∀ op ∈ ops, op.replaces sessionId incarnation = false) {a : SessionState δ}
    (ha : r.state sessionId = some a) (hi : a.incarnation = incarnation)
    (hgens : r.history.nextGeneration + ops.length + 1 < 2 ^ 64) :
    Advance incarnation (r.slice sessionId)
      ((run (RegistryOp.step sha256 validate) r ops).slice sessionId) := by
  induction ops generalizing r a with
  | nil => exact ⟨rfl, le_rfl, a, a, ha, ha, hi, hi, .inl rfl⟩
  | cons op ops ih =>
      rw [List.length_cons] at hgens
      obtain ⟨hone, hle⟩ := step_advance validate sha256 (hreplaces op List.mem_cons_self) ha hi
        (by omega)
      obtain ⟨-, b, -, hb, -, hbi, -⟩ := hone.revision
      exact hone.trans (ih (fun op hop => hreplaces op (List.mem_cons_of_mem _ hop)) hb hbi
        (by omega))

/-- Where some operation publishes, the revision at the end is of a later generation. -/
theorem run_published (hreplaces : ∀ op ∈ ops, op.replaces sessionId incarnation = false)
    {a : SessionState δ} (ha : r.state sessionId = some a) (hi : a.incarnation = incarnation)
    (hgens : r.history.nextGeneration + ops.length + 1 < 2 ^ 64)
    (h : ¬Along (RegistryOp.step sha256 validate) (Unpublished sessionId) r ops) :
    ∃ g, r.history.nextGeneration < g ∧
      revisionOf (run (RegistryOp.step sha256 validate) r ops) sessionId =
        some (HistoryCache.revisionText r.history.epoch incarnation g) := by
  induction ops generalizing r a with
  | nil => exact absurd trivial h
  | cons op ops ih =>
      rw [List.length_cons] at hgens
      have hrest : ∀ op ∈ ops, op.replaces sessionId incarnation = false :=
        fun op hop => hreplaces op (List.mem_cons_of_mem _ hop)
      obtain ⟨hone, hle⟩ := step_advance validate sha256 (hreplaces op List.mem_cons_self) ha hi
        (by omega)
      have hgrow := hone.generations
      have hepoch := hone.epoch
      change (op.step sha256 validate r).history.epoch = r.history.epoch at hepoch
      change r.history.nextGeneration ≤ (op.step sha256 validate r).history.nextGeneration at hgrow
      obtain ⟨-, b, -, hb, -, hbi, -⟩ := hone.revision
      by_cases hsilent : Unpublished sessionId r op
      · obtain ⟨g, hg, hfinal⟩ := ih hrest hb hbi (by omega) fun hrun => h ⟨hsilent, hrun⟩
        rw [hepoch] at hfinal
        exact ⟨g, by omega, hfinal⟩
      · -- The operation publishes; later ones keep its revision or publish a later one.
        have hnew : b.historyRevision = some (HistoryCache.revisionText r.history.epoch incarnation
            (nextCounter r.history.nextGeneration)) := by
          rw [← revisionOf_of_session hb]
          exact step_published validate sha256 ha hi (Bool.eq_true_of_not_eq_false hsilent)
        have hnext := nextCounter_of_lt (n := r.history.nextGeneration) (by omega)
        obtain ⟨b', c, hb', hc, -, -, hfinal⟩ :=
          (run_advance validate sha256 hrest hb hbi (by omega)).revision
        cases hb.symm.trans hb'
        rw [run_cons, revisionOf_of_session hc]
        rcases hfinal with hkept | ⟨g, hg, -, hlast⟩
        · rw [hkept]
          exact ⟨_, by omega, hnew⟩
        · change (op.step sha256 validate r).history.nextGeneration < g at hg
          refine ⟨g, by omega, ?_⟩
          rw [← hepoch]
          exact hlast

end Runs

section Numbered

variable {sha256 : String → δ} {sessionId : String} {kind : Action} {s s' : Slice δ}

omit [Inhabited σ] [DecidableEq δ] in
/-- The revision of a session is of a generation that was published. -/
def Slice.Numbered (s : Slice δ) : Prop :=
  ∀ a revision, s.session = some a → a.historyRevision = some revision →
    ∃ g ≤ s.generations, revision = HistoryCache.revisionText s.historyEpoch a.incarnation g

omit [Inhabited σ] in
theorem Transition.numbered (ht : Transition sha256 sessionId kind s s') (h : s.Numbered)
    (hgens : s.generations + 1 < 2 ^ 64) :
    s'.Numbered ∧ s'.generations ≤ s.generations + kind.counts.toNat := by
  have hnext := nextCounter_of_lt hgens
  cases hq : kind.quiet with
  | true =>
      obtain ⟨a, b, ha, hb, hsame, -, hepoch, -, hgen⟩ := ht.sameTurn hq
      refine ⟨?_, hgen.le.trans (Nat.le_add_right _ _)⟩
      intro b' revision hb' hrevision
      cases hb.symm.trans hb'
      rw [hsame.historyRevision] at hrevision
      rw [hepoch, hgen, hsame.incarnation]
      exact h a revision ha hrevision
  | false =>
      cases ht with
      | elapsed hops hgen =>
          rw [hnext] at hgen
          refine ⟨?_, ?_⟩
          · intro a revision ha hrevision
            obtain ⟨g, hg, heq⟩ := h a revision ha hrevision
            exact ⟨g, by dsimp only; omega, heq⟩
          · simp only [Action.counts, Bool.toNat_true]
            omega
      | created hs incarnation =>
          refine ⟨?_, Nat.le_add_right _ _⟩
          intro b revision hb hrevision
          cases hb
          cases hrevision
      | @registered s c incarnation hs hc =>
          refine ⟨?_, hnext.le⟩
          intro b revision hb hrevision
          cases hb
          rcases hc with hc | hc
          · rw [hc.historyRevision] at hrevision
            cases hrevision
          · rw [hc.historyRevision] at hrevision
            cases hrevision
            exact ⟨_, le_rfl, by rw [hc.incarnation]; rfl⟩
      | cleared ha hc =>
          refine ⟨?_, Nat.le_add_right _ _⟩
          intro b revision hb hrevision
          cases hb
          rw [hc.historyRevision] at hrevision
          cases hrevision
      | retired =>
          refine ⟨?_, Nat.le_add_right _ _⟩
          intro b revision hb
          cases hb
      | @admitted s a expected intent prompt ha =>
          refine ⟨?_, Nat.le_add_right _ _⟩
          intro b revision hb hrevision
          cases hb
          exact h a revision ha hrevision
      | loaded =>
          refine ⟨?_, hnext.le⟩
          intro b revision hb hrevision
          cases hb
          cases hrevision
          exact ⟨_, le_rfl, rfl⟩
      | appended =>
          refine ⟨?_, hnext.le⟩
          intro b revision hb hrevision
          cases hb
          cases hrevision
          exact ⟨_, le_rfl, rfl⟩
      | remembered =>
          refine ⟨?_, hnext.le⟩
          intro b revision hb hrevision
          cases hb
          cases hrevision
          exact ⟨_, le_rfl, rfl⟩
      | _ => cases hq

omit [Inhabited σ] in
theorem Moves.numbered {kinds : List Action} (hm : Moves sha256 sessionId kinds s s')
    (h : s.Numbered) (hgens : s.generations + kinds.countP Action.counts + 1 < 2 ^ 64) :
    s'.Numbered ∧ s'.generations ≤ s.generations + kinds.countP Action.counts := by
  induction hm with
  | done => exact ⟨h, Nat.le_add_right _ _⟩
  | skip _ ih =>
      rw [List.countP_cons] at hgens ⊢
      obtain ⟨hrest, hle⟩ := ih h (by omega)
      exact ⟨hrest, by omega⟩
  | @step kind kinds s t s' ht _ ih =>
      have hcount : (kind :: kinds).countP Action.counts =
          kinds.countP Action.counts + kind.counts.toNat := by
        rw [List.countP_cons]
        cases kind.counts <;> rfl
      rw [hcount] at hgens ⊢
      obtain ⟨hone, hle⟩ := ht.numbered h (by omega)
      obtain ⟨hrest, hrestle⟩ := ih hone (by omega)
      exact ⟨hrest, by omega⟩

/-- Along a run that does not exhaust the generations every revision is numbered. -/
theorem numbered_run (sha256 : String → δ) (validate : ValidateHistoryUpdate σ) (sessionId : String)
    {r : SessionRegistry σ δ} (ops : List RegistryOp) (h : (r.slice sessionId).Numbered)
    (hgens : r.history.nextGeneration + ops.length + 1 < 2 ^ 64) :
    let r' := run (RegistryOp.step sha256 validate) r ops
    (r'.slice sessionId).Numbered ∧
      r'.history.nextGeneration ≤ r.history.nextGeneration + ops.length := by
  induction ops generalizing r with
  | nil => exact ⟨h, le_rfl⟩
  | cons op ops ih =>
      rw [List.length_cons] at hgens ⊢
      have hstep : ((op.step sha256 validate r).slice sessionId).Numbered ∧
          (op.step sha256 validate r).history.nextGeneration ≤ r.history.nextGeneration + 1 := by
        rcases op.step_moves sha256 validate r sessionId with ⟨-, hm⟩ | ⟨-, hm⟩
        · have hcount := op.countP_kinds
          obtain ⟨hnumbered, hle⟩ := hm.numbered h (by
            change r.history.nextGeneration + _ + 1 < _
            omega)
          exact ⟨hnumbered, hle.trans (Nat.add_le_add_left hcount _)⟩
        · exact hm.numbered h (by
            change r.history.nextGeneration + 1 + 1 < _
            omega)
      obtain ⟨hrest, hle⟩ := ih hstep.1 (by omega)
      exact ⟨hrest, hle.trans (by omega)⟩

end Numbered

end Attyd.Session
