import Attyd.Session.Consistency
import Attyd.Session.TurnRequests

/-!
# Committed intents

A session remembers a committed intent with two revisions: the one the turn was submitted against
and the one its commit published. No later operation on the incarnation forgets it, and a retry is
a duplicate on these two revisions and a conflict on any other.
-/

namespace Attyd.Session

open Json (Value)
open History

variable {σ δ : Type} [Inhabited σ] [DecidableEq δ]

/-- The kinds of transitions of a session that is neither replaced nor removed. -/
def Action.remains (kind : Action) : Bool := kind.stays || kind = .admitted

section Sound

omit [Inhabited σ] [DecidableEq δ]

/-- The intent of a running turn is not consumed yet. -/
def Fresh (a : SessionState δ) : Prop :=
  ∀ turn, a.activeTurn = some turn → a.consumedIntents.lookup turn.clientIntentId = none

theorem SameTurn.fresh {a b : SessionState δ} (h : SameTurn a b) (ha : Fresh a) : Fresh b := by
  obtain ⟨change, hsame, hturn⟩ := h.turn
  intro turn hactive
  rw [hturn, Option.map_eq_some_iff] at hactive
  obtain ⟨old, hold, rfl⟩ := hactive
  rw [h.intents, (hsame old).1]
  exact ha old hold

/-- The session of a slice agrees with itself, and its running turn is fresh. -/
structure Slice.Sound (s : Slice δ) : Prop where
  ok : ∀ a, s.session = some a → SessionOk a (s.baseline a.incarnation)
  fresh : ∀ a, s.session = some a → Fresh a

variable [DecidableEq δ] {sha256 : String → δ} {sessionId : String} {kind : Action}
  {s s' : Slice δ}

theorem Transition.fresh (ht : Transition sha256 sessionId kind s s')
    (h : ∀ a, s.session = some a → Fresh a) : ∀ b, s'.session = some b → Fresh b := by
  intro b hb
  cases hq : kind.quiet with
  | true =>
      obtain ⟨a, b', ha, hb', hsame, -⟩ := ht.sameTurn hq
      cases hb.symm.trans hb'
      exact hsame.fresh (h a ha)
  | false =>
      cases ht with
      | elapsed => exact h b hb
      | created hs incarnation =>
          cases hb
          intro turn hturn
          cases hturn
      | registered incarnation hs hc =>
          cases hb
          intro turn hturn
          rcases hc with hc | hc
          · obtain ⟨execution, hnone⟩ := hc.turn
            rw [hnone] at hturn
            cases hturn
          · obtain ⟨execution, hnone⟩ := hc.turn
            rw [hnone] at hturn
            cases hturn
      | cleared ha hc =>
          cases hb
          intro turn hturn
          obtain ⟨execution, hnone⟩ := hc.turn
          rw [hnone] at hturn
          cases hturn
      | retired => cases hb
      | loaded =>
          cases hb
          intro turn hturn
          cases hturn
      | @admitted s a revision intent prompt ha hc =>
          cases hb
          intro turn hturn
          cases hturn
          exact (SessionState.checkTurnAdmission_eq_none hc).2.2.2.1
      | @appended s a prior update updates bytes ha =>
          cases hb
          exact h a ha
      | remembered =>
          cases hb
          intro turn hturn
          cases hturn
      | _ => cases hq

theorem Slice.Sound.transition (h : s.Sound) (ht : Transition sha256 sessionId kind s s') :
    s'.Sound :=
  ⟨ht.sessionOk h.ok, ht.fresh h.fresh⟩

theorem Slice.Sound.moves {kinds : List Action} (h : s.Sound)
    (hm : Moves sha256 sessionId kinds s s') : s'.Sound :=
  hm.preserves (fun _ _ _ _ ht hs => hs.transition ht) h

end Sound

section Registry

variable (sha256 : String → δ) (validate : ValidateHistoryUpdate σ)

theorem RegistryOp.step_sound {r : SessionRegistry σ δ} (sessionId : String) (op : RegistryOp)
    (h : (r.slice sessionId).Sound) : ((op.step sha256 validate r).slice sessionId).Sound := by
  rcases op.step_moves sha256 validate r sessionId with ⟨-, hm⟩ | ⟨-, hm⟩
  · exact h.moves hm
  · exact h.moves hm

/-- Every session of a run is sound. -/
theorem sound_run (epoch : String) (ops : List RegistryOp) (sessionId : String) :
    ((run (RegistryOp.step sha256 validate) (.new epoch : SessionRegistry σ δ) ops).slice
      sessionId).Sound := by
  refine run_invariant (P := fun r : SessionRegistry σ δ => (r.slice sessionId).Sound)
    (fun r op h => op.step_sound sha256 validate sessionId h) ?_ ops
  constructor
  · intro a ha
    cases ha
  · intro a ha
    cases ha

end Registry

section Transitions

omit [Inhabited σ]

variable {sha256 : String → δ} {sessionId : String} {kind : Action} {s s' : Slice δ}
  {a b : SessionState δ} {request : TurnRequest} {operationId : String}

/-- The turn of an accepted request is under way, on the revision it was submitted against. -/
def Pending (sha256 : String → δ) (request : TurnRequest) (operationId : String)
    (a : SessionState δ) : Prop :=
  (∃ turn, a.activeTurn = some turn ∧ turn.clientIntentId = request.clientIntentId ∧
    turn.operationId = operationId) ∧
  a.activePayloadDigest = some (sha256 request.prompt.text) ∧
  a.historyRevision = some request.expectedHistoryRevision

/-- What a session remembers of an accepted request whose turn was committed. -/
def consumption (sha256 : String → δ) (request : TurnRequest) (operationId successor : String) :
    LastConsumption δ :=
  ⟨operationId, sha256 request.prompt.text, request.expectedHistoryRevision, successor⟩

/-- The turn of an accepted request was committed with a revision. -/
def Recalls (sha256 : String → δ) (request : TurnRequest) (operationId successor : String)
    (a : SessionState δ) : Prop :=
  a.consumedIntents.lookup request.clientIntentId =
    some (consumption sha256 request operationId successor)

omit [DecidableEq δ] in
theorem Pending.sameTurn (h : Pending sha256 request operationId a) (hab : SameTurn a b) :
    Pending sha256 request operationId b := by
  obtain ⟨⟨turn, hturn, hintent, hid⟩, hdigest, hrevision⟩ := h
  obtain ⟨change, hsame, hchange⟩ := hab.turn
  refine ⟨⟨change turn, by rw [hchange, hturn]; rfl, ?_, ?_⟩, ?_, ?_⟩
  · rw [(hsame turn).1, hintent]
  · rw [(hsame turn).2, hid]
  · rw [hab.digest, hdigest]
  · rw [hab.historyRevision, hrevision]

omit [DecidableEq δ] in
/-- A commit remembers the pending request, with the revision it publishes. -/
theorem Pending.intentsAfter (h : Pending sha256 request operationId a) (revision : String) :
    (a.intentsAfter revision).lookup request.clientIntentId =
      some (consumption sha256 request operationId revision) := by
  obtain ⟨⟨turn, hturn, hintent, hid⟩, hdigest, hrevision⟩ := h
  simp only [SessionState.intentsAfter, hturn, hdigest, hrevision, hintent, hid]
  exact Finmap.lookup_insert _

omit [DecidableEq δ] in
/-- A commit keeps what was remembered before. -/
theorem Recalls.intentsAfter {successor : String} (hfresh : Fresh a)
    (h : Recalls sha256 request operationId successor a) (revision : String) :
    (a.intentsAfter revision).lookup request.clientIntentId =
      some (consumption sha256 request operationId successor) := by
  unfold SessionState.intentsAfter
  split
  case h_1 turn base digest hturn _ _ =>
    have hne : request.clientIntentId ≠ turn.clientIntentId := by
      intro heq
      have hfree := hfresh turn hturn
      rw [← heq, h] at hfree
      cases hfree
    rw [Finmap.lookup_insert_of_ne _ hne]
    exact h
  case h_2 => exact h

/-- A pending request stays pending or is committed, by a transition that counts. -/
theorem Transition.pending (ht : Transition sha256 sessionId kind s s')
    (hk : kind.remains = true) (ha : s.session = some a)
    (hok : SessionOk a (s.baseline a.incarnation))
    (h : Pending sha256 request operationId a) :
    ∃ b, s'.session = some b ∧ b.incarnation = a.incarnation ∧
      (Pending sha256 request operationId b ∨
        kind.counts = true ∧ ∃ successor, b.historyRevision = some successor ∧
          Recalls sha256 request operationId successor b) := by
  cases hq : kind.quiet with
  | true =>
      obtain ⟨a', b, ha', hb, hsame, -⟩ := ht.sameTurn hq
      cases ha.symm.trans ha'
      exact ⟨b, hb, hsame.incarnation, .inl (h.sameTurn hsame)⟩
  | false =>
      cases ht with
      | elapsed => exact ⟨a, ha, rfl, .inl h⟩
      | loaded attemptId updates bytes ha' =>
          cases ha.symm.trans ha'
          exact ⟨_, rfl, rfl, .inr ⟨rfl, _, rfl, h.intentsAfter _⟩⟩
      | remembered operationId updates bytes ha' =>
          cases ha.symm.trans ha'
          exact ⟨_, rfl, rfl, .inr ⟨rfl, _, rfl, h.intentsAfter _⟩⟩
      | appended update updates bytes ha' hload hphase =>
          -- A ready session has no turn.
          cases ha.symm.trans ha'
          have hnone := hok.phase
          unfold PhaseOk at hnone
          simp only [hphase] at hnone
          obtain ⟨⟨turn, hturn, -⟩, -⟩ := h
          rw [hnone.1] at hturn
          cases hturn
      | admitted revision intent prompt ha' hc =>
          cases ha.symm.trans ha'
          obtain ⟨⟨turn, hturn, -⟩, -⟩ := h
          rw [(SessionState.checkTurnAdmission_eq_none hc).2.1] at hturn
          cases hturn
      | _ => simp_all [Action.remains, Action.stays, Action.quiet]

/-- What is remembered of a request stays. -/
theorem Transition.recalls {successor : String} (ht : Transition sha256 sessionId kind s s')
    (hk : kind.remains = true) (ha : s.session = some a) (hfresh : Fresh a)
    (h : Recalls sha256 request operationId successor a) :
    ∃ b, s'.session = some b ∧ b.incarnation = a.incarnation ∧
      Recalls sha256 request operationId successor b := by
  cases hq : kind.quiet with
  | true =>
      obtain ⟨a', b, ha', hb, hsame, -⟩ := ht.sameTurn hq
      cases ha.symm.trans ha'
      refine ⟨b, hb, hsame.incarnation, ?_⟩
      rw [Recalls, hsame.intents]
      exact h
  | false =>
      cases ht with
      | elapsed => exact ⟨a, ha, rfl, h⟩
      | loaded attemptId updates bytes ha' =>
          cases ha.symm.trans ha'
          exact ⟨_, rfl, rfl, h.intentsAfter hfresh _⟩
      | remembered operationId updates bytes ha' =>
          cases ha.symm.trans ha'
          exact ⟨_, rfl, rfl, h.intentsAfter hfresh _⟩
      | appended update updates bytes ha' =>
          cases ha.symm.trans ha'
          exact ⟨_, rfl, rfl, h⟩
      | admitted revision intent prompt ha' =>
          cases ha.symm.trans ha'
          exact ⟨_, rfl, rfl, h⟩
      | _ => simp_all [Action.remains, Action.stays, Action.quiet]

end Transitions

section Operations

variable {sha256 : String → δ} {sessionId : String} {incarnation : Nat} {kinds : List Action}
  {s s' : Slice δ} {request : TurnRequest} {operationId : String}

omit [Inhabited σ] [DecidableEq δ] in
/-- A property of the session of a slice, with its incarnation. -/
def Slice.Has (s : Slice δ) (incarnation : Nat) (P : SessionState δ → Prop) : Prop :=
  ∃ a, s.session = some a ∧ a.incarnation = incarnation ∧ P a

/-- The turn of a request was committed with the current revision. -/
def JustCommitted (sha256 : String → δ) (request : TurnRequest) (operationId : String)
    (a : SessionState δ) : Prop :=
  ∃ successor, a.historyRevision = some successor ∧
    Recalls sha256 request operationId successor a

omit [Inhabited σ] in
/-- Transitions that do not count leave the revision of a commit current. -/
theorem Moves.justCommitted (hm : Moves sha256 sessionId kinds s s')
    (hk : ∀ kind ∈ kinds, kind.remains = true) (hcount : kinds.countP Action.counts = 0)
    (h : s.Has incarnation (JustCommitted sha256 request operationId)) :
    s'.Has incarnation (JustCommitted sha256 request operationId) := by
  refine hm.preserves (P := fun t => t.Has incarnation
    (JustCommitted sha256 request operationId)) (fun kind hmem t t' ht => ?_) h
  have hquiet : kind.quiet = true := by
    have hone := hk kind hmem
    have hzero := List.countP_eq_zero.mp hcount kind hmem
    cases kind <;> simp_all [Action.remains, Action.stays, Action.quiet, Action.counts]
  obtain ⟨a, b, ha, hb, hsame, -⟩ := ht.sameTurn hquiet
  rintro ⟨a', ha', hi, successor, hrevision, hrecalls⟩
  cases ha.symm.trans ha'
  refine ⟨b, hb, hsame.incarnation.trans hi, successor, ?_, ?_⟩
  · rw [hsame.historyRevision, hrevision]
  · rw [Recalls, hsame.intents]
    exact hrecalls

omit [Inhabited σ] in
/-- The transitions of one operation keep a request pending, or commit it last. -/
theorem Moves.pending (hm : Moves sha256 sessionId kinds s s')
    (hk : ∀ kind ∈ kinds, kind.remains = true) (hcount : kinds.countP Action.counts ≤ 1)
    (hsound : s.Sound) (h : s.Has incarnation (Pending sha256 request operationId)) :
    s'.Has incarnation (Pending sha256 request operationId) ∨
      s'.Has incarnation (JustCommitted sha256 request operationId) := by
  induction hm with
  | done => exact .inl h
  | skip _ ih =>
      rw [List.countP_cons] at hcount
      exact ih (fun kind hmem => hk kind (List.mem_cons_of_mem _ hmem)) (by omega) hsound h
  | @step kind kinds s t s' ht hrest ih =>
      obtain ⟨a, ha, hi, hpending⟩ := h
      rw [List.countP_cons] at hcount
      have hkinds : ∀ kind ∈ kinds, kind.remains = true :=
        fun kind hmem => hk kind (List.mem_cons_of_mem _ hmem)
      obtain ⟨b, hb, hbi, hnext | ⟨hcounts, hcommitted⟩⟩ :=
        ht.pending (hk _ List.mem_cons_self) ha (hsound.ok a ha) hpending
      · exact ih hkinds (by omega) (hsound.transition ht) ⟨b, hb, hbi.trans hi, hnext⟩
      · rw [hcounts, if_pos rfl] at hcount
        exact .inr (hrest.justCommitted hkinds (by omega) ⟨b, hb, hbi.trans hi, hcommitted⟩)

omit [Inhabited σ] in
/-- What is remembered stays through any transitions. -/
theorem Moves.recalls {successor : String} (hm : Moves sha256 sessionId kinds s s')
    (hk : ∀ kind ∈ kinds, kind.remains = true) (hsound : s.Sound)
    (h : s.Has incarnation (Recalls sha256 request operationId successor)) :
    s'.Has incarnation (Recalls sha256 request operationId successor) := by
  have hboth : s'.Sound ∧ s'.Has incarnation (Recalls sha256 request operationId successor) := by
    refine hm.preserves (P := fun t => t.Sound ∧
      t.Has incarnation (Recalls sha256 request operationId successor)) ?_ ⟨hsound, h⟩
    rintro kind hmem t t' ht ⟨htsound, a, ha, hi, hrecalls⟩
    obtain ⟨b, hb, hbi, hnext⟩ := ht.recalls (hk kind hmem) ha (htsound.fresh a ha) hrecalls
    exact ⟨htsound.transition ht, b, hb, hbi.trans hi, hnext⟩
  exact hboth.2

variable {r : SessionRegistry σ δ}

/-- Any operation that does not replace the incarnation takes it through remaining transitions, of
its own or of time that elapses. -/
theorem step_remains (sha256 : String → δ) (validate : ValidateHistoryUpdate σ)
    {op : RegistryOp} {a : SessionState δ}
    (h : r.state sessionId = some a) (hi : a.incarnation = incarnation)
    (hreplaces : op.replaces sessionId incarnation = false) :
    ∃ kinds, Moves sha256 sessionId kinds (r.slice sessionId)
        ((op.step sha256 validate r).slice sessionId) ∧
      (∀ kind ∈ kinds, kind.remains = true) ∧ kinds.countP Action.counts ≤ 1 ∧
      ∀ kind ∈ kinds, kind = .elapsed ∨ kind ∈ op.kinds := by
  by_cases hanswers : op.answers sha256 sessionId incarnation r = []
  · obtain ⟨kinds, hm, hstays, hcount, hown⟩ := step_stays validate h hi hreplaces hanswers
    refine ⟨kinds, hm, fun kind hmem => ?_, hcount, hown⟩
    rw [Action.remains, hstays kind hmem, Bool.true_or]
  · cases op with
    | startTurn id i revision intent prompt =>
        have hown : id = sessionId := by
          by_contra hne
          simp [RegistryOp.answers, hne] at hanswers
        subst hown
        rcases RegistryOp.step_moves sha256 validate r (.startTurn id i revision intent prompt)
          id with ⟨-, hm⟩ | ⟨ho, -⟩
        · exact ⟨_, hm, by simp [RegistryOp.kinds, Action.remains, Action.stays, Action.quiet],
            RegistryOp.countP_kinds _, fun _ hmem => .inr hmem⟩
        · exact absurd rfl ho
    | _ => exact absurd rfl hanswers

end Operations

section Runs

variable {sha256 : String → δ} {sessionId : String} {incarnation : Nat}
  (validate : ValidateHistoryUpdate σ) {r : SessionRegistry σ δ} {request : TurnRequest}
  {operationId : String} {ops : List RegistryOp}

omit [Inhabited σ] in
/-- A turn request that is accepted is pending. -/
theorem startTurn_pending {r' : SessionRegistry σ δ}
    (h : r.startTurn sha256 sessionId incarnation request.expectedHistoryRevision
      request.clientIntentId request.prompt = (.ok (.accepted operationId), r')) :
    (r'.slice sessionId).Has incarnation (Pending sha256 request operationId) := by
  rcases startTurn_cases sha256 r sessionId incarnation request.expectedHistoryRevision
    request.clientIntentId request.prompt with ⟨error, hr⟩ | ⟨a, ha, hi, ⟨id, -, hr⟩ | ⟨hc, hr⟩⟩
  · rw [h] at hr
    cases hr
  · rw [h] at hr
    cases hr
  · rw [h] at hr
    cases hr
    have hrevision := (SessionState.checkTurnAdmission_eq_none hc).2.2.2.2
    have hw := (written_putOverlay ha (a.turnBegun sha256 (r.slice sessionId).nextOperationId
      request.clientIntentId request.prompt)).counted (nextCounter r.nextOperation)
    exact ⟨_, hw.state, hi, ⟨_, rfl, rfl, rfl⟩, rfl, hrevision⟩

/-- A run keeps what is remembered. -/
theorem run_recalls {successor : String}
    (hreplaces : ∀ op ∈ ops, op.replaces sessionId incarnation = false)
    (hsound : (r.slice sessionId).Sound)
    (h : (r.slice sessionId).Has incarnation (Recalls sha256 request operationId successor)) :
    let r' := run (RegistryOp.step sha256 validate) r ops
    (r'.slice sessionId).Sound ∧ (r'.slice sessionId).Has incarnation
      (Recalls sha256 request operationId successor) := by
  induction ops generalizing r with
  | nil => exact ⟨hsound, h⟩
  | cons op ops ih =>
      obtain ⟨a, ha, hi, -⟩ := id h
      obtain ⟨kinds, hm, hk, -⟩ := step_remains sha256 validate ha hi
        (hreplaces op List.mem_cons_self)
      exact ih (fun op hop => hreplaces op (List.mem_cons_of_mem _ hop))
        (op.step_sound sha256 validate sessionId hsound) (hm.recalls hk hsound h)

/-- A run keeps a pending request pending, or remembers it. -/
theorem run_pending (hreplaces : ∀ op ∈ ops, op.replaces sessionId incarnation = false)
    (hsound : (r.slice sessionId).Sound)
    (h : (r.slice sessionId).Has incarnation (Pending sha256 request operationId)) :
    let r' := run (RegistryOp.step sha256 validate) r ops
    (r'.slice sessionId).Has incarnation (Pending sha256 request operationId) ∨
      ∃ successor, (r'.slice sessionId).Has incarnation
        (Recalls sha256 request operationId successor) := by
  induction ops generalizing r with
  | nil => exact .inl h
  | cons op ops ih =>
      obtain ⟨a, ha, hi, -⟩ := id h
      obtain ⟨kinds, hm, hk, hcount, -⟩ := step_remains sha256 validate ha hi
        (hreplaces op List.mem_cons_self)
      have hrest : ∀ op ∈ ops, op.replaces sessionId incarnation = false :=
        fun op hop => hreplaces op (List.mem_cons_of_mem _ hop)
      have hnext := op.step_sound sha256 validate sessionId hsound
      rcases hm.pending hk hcount hsound h with hpending | ⟨b, hb, hbi, successor, -, hrecalls⟩
      · exact ih hrest hnext hpending
      · exact .inr ⟨successor, (run_recalls validate hrest hnext ⟨b, hb, hbi, hrecalls⟩).2⟩

omit [Inhabited σ] in
/-- The answer to a retry of a request that is remembered. -/
theorem startTurn_recalled {successor : String} (hsound : (r.slice sessionId).Sound)
    (h : (r.slice sessionId).Has incarnation (Recalls sha256 request operationId successor))
    (expectedHistoryRevision : String) :
    (r.startTurn sha256 sessionId incarnation expectedHistoryRevision request.clientIntentId
      request.prompt).1 =
      if request.expectedHistoryRevision = expectedHistoryRevision ∨
          successor = expectedHistoryRevision then .ok (.duplicate operationId)
      else .error .idempotencyConflict := by
  obtain ⟨a, ha, hi, hrecalls⟩ := h
  have hnone : a.activeTurn.filter
      (fun turn => decide (turn.clientIntentId = request.clientIntentId)) = none := by
    refine Option.filter_eq_none_iff.mpr ?_
    intro turn hturn hintent
    have hfree := hsound.fresh a ha turn hturn
    rw [of_decide_eq_true hintent, hrecalls] at hfree
    cases hfree
  have hrequire : r.requireState sessionId incarnation = .ok a := requireState_eq_ok.mpr ⟨ha, hi⟩
  have hcheck : a.checkTurnAdmission sha256 expectedHistoryRevision request.clientIntentId
      request.prompt =
      if request.expectedHistoryRevision = expectedHistoryRevision ∨
          successor = expectedHistoryRevision then .ok (some (.duplicate operationId))
      else .error .idempotencyConflict := by
    unfold SessionState.checkTurnAdmission
    rw [Recalls] at hrecalls
    simp only [hnone, hrecalls, consumption, true_and]
  unfold SessionRegistry.startTurn SessionState.admitTurn
  by_cases hknown : request.expectedHistoryRevision = expectedHistoryRevision ∨
      successor = expectedHistoryRevision
  · rw [if_pos hknown] at hcheck ⊢
    simp only [hrequire, hcheck]
    rfl
  · rw [if_neg hknown] at hcheck ⊢
    simp only [hrequire, hcheck]
    rfl

end Runs

section Retry

variable (sha256 : String → δ) (validate : ValidateHistoryUpdate σ)

/-- Whether a turn of an intent is under way. -/
def runsIntent (r : SessionRegistry σ δ) (sessionId clientIntentId : String) : Bool :=
  (r.state sessionId).any fun a => a.activeTurn.any fun turn => turn.clientIntentId = clientIntentId

/-- The operation whose effect ends the turn of an accepted request commits it: the request is
remembered with the revision that is then current. -/
theorem commit_remembers {r r' : SessionRegistry σ δ} {sessionId operationId : String}
    {incarnation : Nat} {request : TurnRequest} {commit : RegistryOp} {during : List RegistryOp}
    (hsound : (r.slice sessionId).Sound)
    (haccepted : r.startTurn sha256 sessionId incarnation request.expectedHistoryRevision
      request.clientIntentId request.prompt = (.ok (.accepted operationId), r'))
    (hreplaces : ∀ op ∈ during ++ [commit], op.replaces sessionId incarnation = false)
    (hrunning : runsIntent (run (RegistryOp.step sha256 validate) r' during) sessionId
      request.clientIntentId = true)
    (hended : runsIntent (commit.step sha256 validate
      (run (RegistryOp.step sha256 validate) r' during)) sessionId request.clientIntentId = false) :
    ((commit.step sha256 validate (run (RegistryOp.step sha256 validate) r' during)).slice
      sessionId).Has incarnation (JustCommitted sha256 request operationId) := by
  have hstart : r' = (RegistryOp.startTurn sessionId incarnation request.expectedHistoryRevision
      request.clientIntentId request.prompt).step sha256 validate r := by
    rw [RegistryOp.step, haccepted]
  have hsound' : (r'.slice sessionId).Sound := by
    rw [hstart]
    exact RegistryOp.step_sound sha256 validate sessionId _ hsound
  have hrun := run_pending validate
    (fun op hop => hreplaces op (List.mem_append_left _ hop)) hsound' (startTurn_pending haccepted)
  have hsoundRun : ((run (RegistryOp.step sha256 validate) r' during).slice sessionId).Sound :=
    run_invariant (P := fun r : SessionRegistry σ δ => (r.slice sessionId).Sound)
      (fun r op h => op.step_sound sha256 validate sessionId h) hsound' during
  generalize run (RegistryOp.step sha256 validate) r' during = running at *
  have hpending : (running.slice sessionId).Has incarnation
      (Pending sha256 request operationId) := by
    rcases hrun with hpending | ⟨successor, a, ha, -, hrecalls⟩
    · exact hpending
    · -- A remembered intent has no turn under way.
      rw [runsIntent, show running.state sessionId = some a from ha, Option.any_some,
        Option.any_eq_true] at hrunning
      obtain ⟨turn, hturn, hintent⟩ := hrunning
      have hfree := hsoundRun.fresh a ha turn hturn
      rw [of_decide_eq_true hintent, hrecalls] at hfree
      cases hfree
  obtain ⟨a, ha, hi, -⟩ := id hpending
  obtain ⟨kinds, hm, hk, hcount, -⟩ := step_remains sha256 validate ha hi
    (hreplaces commit (List.mem_append_right _ List.mem_cons_self))
  rcases hm.pending hk hcount hsoundRun hpending with ⟨b, hb, -, ⟨turn, hturn, hintent, -⟩, -⟩ | h
  · rw [runsIntent, show (commit.step sha256 validate running).state sessionId = some b from hb,
      Option.any_some, hturn, Option.any_some, hintent, decide_eq_true rfl] at hended
    cases hended
  · exact h

end Retry

end Attyd.Session
