import Attyd.Session.Runs

/-!
# Turn requests are answered once

A client repeats a turn request until it hears of it, with the same intent id. The
session knows an accepted request first by its active turn and, once the turn has
passed into history, by the consumed intents; the revision it was accepted on is
never current again without a turn.

## Implementation notes

The two counters behind operation ids and revisions are 64 bits wide. The results
assume that they do not wrap in the run, which is the only way two of their texts
can agree.
-/

namespace Attyd.Session

open Json (Value)
open History

variable {σ δ : Type} [DecidableEq δ]

/-- What a turn request says. -/
structure TurnRequest where
  expectedHistoryRevision : String
  clientIntentId : String
  prompt : Prompt

section Memory

/-- A session remembers an accepted request with the operation it got. -/
def Remembers (sha256 : String → δ) (a : SessionState δ) (request : TurnRequest)
    (operationId : String) : Prop :=
  (∃ turn, a.activeTurn = some turn ∧ turn.clientIntentId = request.clientIntentId ∧
    turn.operationId = operationId ∧
    a.activePayloadDigest = some (sha256 request.prompt.text)) ∨
  ∃ last, a.consumedIntents.lookup request.clientIntentId = some last ∧
    last.operationId = operationId ∧ last.payloadDigest = sha256 request.prompt.text

/-- What a session knows of the requests it has accepted. -/
structure Keeps (sha256 : String → δ) (accepted : List (TurnRequest × String)) (s : Slice δ)
    (a : SessionState δ) : Prop where
  remembers : ∀ request operationId, (request, operationId) ∈ accepted →
    Remembers sha256 a request operationId
  numbered : ∀ request operationId, (request, operationId) ∈ accepted →
    ∃ n ≤ s.operations, operationId = s.epoch ++ ":" ++ toString n
  consumed : ∀ request operationId, (request, operationId) ∈ accepted →
    (∃ g ≤ s.generations, request.expectedHistoryRevision =
      HistoryCache.revisionText s.historyEpoch a.incarnation g) ∧
    (a.activeTurn = none → a.historyRevision ≠ some request.expectedHistoryRevision)
  known : ∀ revision, a.historyRevision = some revision →
    ∃ g ≤ s.generations, revision = HistoryCache.revisionText s.historyEpoch a.incarnation g
  fresh : ∀ turn, a.activeTurn = some turn →
    a.consumedIntents.lookup turn.clientIntentId = none
  based : a.activeTurn.isSome → a.historyRevision.isSome

variable {sha256 : String → δ} {accepted : List (TurnRequest × String)} {s s' : Slice δ}
  {a b : SessionState δ}

theorem revisionText_injective {epoch : String} {incarnation m n : Nat}
    (h : HistoryCache.revisionText epoch incarnation m =
      HistoryCache.revisionText epoch incarnation n) : m = n := by
  unfold HistoryCache.revisionText at h
  exact toString_injective (String.append_right_inj _ |>.mp h)

/-- The answer to a request whose intent was accepted before. -/
theorem Remembers.answer {request : TurnRequest} {operationId : String}
    (h : Remembers sha256 a request operationId)
    (hfresh : ∀ turn, a.activeTurn = some turn →
      a.consumedIntents.lookup turn.clientIntentId = none)
    (expectedHistoryRevision : String) (prompt : Prompt) :
    (∃ error, a.checkTurnAdmission sha256 expectedHistoryRevision request.clientIntentId prompt =
      .error error) ∨
    sha256 request.prompt.text = sha256 prompt.text ∧
      a.checkTurnAdmission sha256 expectedHistoryRevision request.clientIntentId prompt =
        .ok (some (.duplicate operationId)) := by
  unfold SessionState.checkTurnAdmission
  dsimp only
  rcases h with ⟨turn, hturn, hintent, hid, hdigest⟩ | ⟨last, hlast, hid, hdigest⟩
  · rw [hturn]
    simp only [Option.filter, hintent, decide_true, if_true, hdigest, Option.some.injEq]
    split
    case isTrue heq => exact .inr ⟨heq, by rw [hid]⟩
    case isFalse => exact .inl ⟨_, rfl⟩
  · have hnone : a.activeTurn.filter
        (fun turn => decide (turn.clientIntentId = request.clientIntentId)) = none := by
      refine Option.filter_eq_none_iff.mpr ?_
      intro turn hturn hintent
      have hfree := hfresh turn hturn
      rw [of_decide_eq_true hintent, hlast] at hfree
      cases hfree
    rw [hnone, hlast]
    dsimp only
    split
    case isTrue heq => exact .inr ⟨hdigest.symm.trans heq.1, by rw [hid]⟩
    case isFalse => exact .inl ⟨_, rfl⟩

end Memory

section Steps

omit [DecidableEq δ] in
/-- Both sessions run the same turn on the same revision and remember the same intents. -/
structure SameTurn (a b : SessionState δ) : Prop where
  incarnation : b.incarnation = a.incarnation
  historyRevision : b.historyRevision = a.historyRevision
  digest : b.activePayloadDigest = a.activePayloadDigest
  intents : b.consumedIntents = a.consumedIntents
  turn : ∃ change : TurnOverlay → TurnOverlay,
    (∀ turn, (change turn).clientIntentId = turn.clientIntentId ∧
      (change turn).operationId = turn.operationId) ∧
    b.activeTurn = a.activeTurn.map change

/-- The kinds of transitions that neither publish a history nor start a turn. -/
def Action.quiet : Action → Bool
  | touched | begun | failed | cooled | gathered | completed | blocked => true
  | _ => false

variable {sha256 : String → δ} {accepted : List (TurnRequest × String)} {s s' : Slice δ}
  {a b : SessionState δ} {sessionId : String} {kind : Action}

omit [DecidableEq δ] in
theorem SameTurn.of_eq (hi : b.incarnation = a.incarnation)
    (hr : b.historyRevision = a.historyRevision)
    (hd : b.activePayloadDigest = a.activePayloadDigest)
    (hc : b.consumedIntents = a.consumedIntents) (ht : b.activeTurn = a.activeTurn) :
    SameTurn a b :=
  ⟨hi, hr, hd, hc, id, fun _ => ⟨rfl, rfl⟩, by rw [ht, Option.map_id_apply]⟩

/-- A quiet transition keeps turn, revision, intents and counters. -/
theorem Transition.sameTurn (ht : Transition sha256 sessionId kind s s')
    (hk : kind.quiet = true) :
    ∃ a b, s.session = some a ∧ s'.session = some b ∧ SameTurn a b ∧ s'.epoch = s.epoch ∧
      s'.historyEpoch = s.historyEpoch ∧ s'.operations = s.operations ∧
      s'.generations = s.generations := by
  cases ht with
  | @touched _ a b h hb =>
      obtain ⟨execution, hturn⟩ := hb.turn
      refine ⟨a, b, h, rfl, ⟨hb.incarnation, hb.historyRevision, hb.digest, hb.intents, ?_⟩,
        rfl, rfl, rfl, rfl⟩
      exact ⟨fun turn => { turn with execution := execution turn }, fun _ => ⟨rfl, rfl⟩, hturn⟩
  | @begun _ a attemptId h hm hfree =>
      exact ⟨a, _, h, rfl, .of_eq rfl rfl rfl rfl rfl, rfl, rfl, rfl, rfl⟩
  | @failed _ a b attemptId message retryable h hload hb =>
      subst hb
      exact ⟨a, _, h, rfl, .of_eq rfl rfl rfl rfl rfl, rfl, rfl, rfl, rfl⟩
  | @cooled _ a h hturn hload =>
      exact ⟨a, _, h, rfl, .of_eq rfl rfl rfl rfl rfl, rfl, rfl, rfl, rfl⟩
  | @gathered _ a b update h hphase hb =>
      obtain ⟨turn, updates, hturn, -, rfl⟩ := SessionState.foldOverlayUpdate_eq_ok hb
      refine ⟨a, _, h, rfl, ⟨rfl, rfl, rfl, rfl, ?_⟩, rfl, rfl, rfl, rfl⟩
      exact ⟨fun turn => { turn with updates }, fun _ => ⟨rfl, rfl⟩, by rw [hturn]; rfl⟩
  | @completed _ a b operationId terminal h hb =>
      obtain ⟨turn, -, hturn, -, -, rfl⟩ := SessionState.completeTurn_eq_ok hb
      refine ⟨a, _, h, rfl, ⟨rfl, rfl, rfl, rfl, ?_⟩, rfl, rfl, rfl, rfl⟩
      exact ⟨fun turn => { turn with execution := none, terminal := some terminal },
        fun _ => ⟨rfl, rfl⟩, by rw [hturn]; rfl⟩
  | @blocked _ a b operationId message h hb =>
      obtain ⟨-, -, rfl⟩ := SessionState.blockTurn_eq_ok hb
      exact ⟨a, _, h, rfl, .of_eq rfl rfl rfl rfl rfl, rfl, rfl, rfl, rfl⟩
  | _ => cases hk

omit [DecidableEq δ] in
theorem Keeps.sameTurn (h : Keeps sha256 accepted s a) (hab : SameTurn a b)
    (hepoch : s'.epoch = s.epoch) (hhistory : s'.historyEpoch = s.historyEpoch)
    (hops : s.operations ≤ s'.operations) (hgens : s.generations ≤ s'.generations) :
    Keeps sha256 accepted s' b := by
  obtain ⟨change, hsame, hturn⟩ := hab.turn
  refine ⟨?_, ?_, ?_, ?_, ?_, ?_⟩
  · intro request operationId hmem
    rcases h.remembers request operationId hmem with ⟨turn, ht, hintent, hid, hd⟩ | hlast
    · refine .inl ⟨change turn, by rw [hturn, ht]; rfl, ?_, ?_, by rw [hab.digest, hd]⟩
      · rw [(hsame turn).1, hintent]
      · rw [(hsame turn).2, hid]
    · exact .inr (by rw [hab.intents]; exact hlast)
  · intro request operationId hmem
    obtain ⟨n, hn, heq⟩ := h.numbered request operationId hmem
    exact ⟨n, hn.trans hops, by rw [hepoch, heq]⟩
  · intro request operationId hmem
    obtain ⟨⟨g, hg, heq⟩, hnone⟩ := h.consumed request operationId hmem
    refine ⟨⟨g, hg.trans hgens, by rw [hhistory, hab.incarnation, heq]⟩, ?_⟩
    rw [hturn, hab.historyRevision, Option.map_eq_none_iff]
    exact hnone
  · intro revision hrevision
    rw [hab.historyRevision] at hrevision
    obtain ⟨g, hg, heq⟩ := h.known revision hrevision
    exact ⟨g, hg.trans hgens, by rw [hhistory, hab.incarnation, heq]⟩
  · intro turn ht
    rw [hturn, Option.map_eq_some_iff] at ht
    obtain ⟨old, hold, rfl⟩ := ht
    rw [hab.intents, (hsame old).1]
    exact h.fresh old hold
  · rw [hturn, hab.historyRevision, Option.isSome_map]
    exact h.based

omit [DecidableEq δ] in
/-- A commit turns the active turn into a consumed intent. -/
theorem Keeps.intentsAfter (h : Keeps sha256 accepted s a)
    {request : TurnRequest} {operationId : String} (hmem : (request, operationId) ∈ accepted)
    (revision : String) :
    ∃ last, (a.intentsAfter revision).lookup request.clientIntentId = some last ∧
      last.operationId = operationId ∧ last.payloadDigest = sha256 request.prompt.text := by
  unfold SessionState.intentsAfter
  rcases h.remembers request operationId hmem with
    ⟨turn, hturn, hintent, hid, hdigest⟩ | ⟨last, hlast, hid, hdigest⟩
  · obtain ⟨base, hbase⟩ := Option.isSome_iff_exists.mp (h.based (by rw [hturn]; rfl))
    simp only [hturn, hbase, hdigest, hintent]
    exact ⟨_, Finmap.lookup_insert _, hid, rfl⟩
  · split
    case h_1 turn base digest hturn _ _ =>
      have hne : request.clientIntentId ≠ turn.clientIntentId := by
        intro heq
        have hfree := h.fresh turn hturn
        rw [← heq, hlast] at hfree
        cases hfree
      exact ⟨last, by rw [Finmap.lookup_insert_of_ne _ hne, hlast], hid, hdigest⟩
    case h_2 => exact ⟨last, hlast, hid, hdigest⟩

omit [DecidableEq δ] in
/-- A publication gives a session a revision it never had. -/
theorem Keeps.published (h : Keeps sha256 accepted s a)
    (hgen : s'.generations = s.generations + 1) (hb : b.incarnation = a.incarnation)
    (hrevision : b.historyRevision =
      some (HistoryCache.revisionText s.historyEpoch a.incarnation s'.generations))
    (hremembers : ∀ request operationId, (request, operationId) ∈ accepted →
      Remembers sha256 b request operationId)
    (hfresh : ∀ turn, b.activeTurn = some turn →
      b.consumedIntents.lookup turn.clientIntentId = none)
    (hepoch : s'.epoch = s.epoch) (hhistory : s'.historyEpoch = s.historyEpoch)
    (hops : s'.operations = s.operations) : Keeps sha256 accepted s' b := by
  refine ⟨hremembers, ?_, ?_, ?_, hfresh, fun _ => by rw [hrevision]; rfl⟩
  · rw [hepoch, hops]
    exact h.numbered
  · intro request operationId hmem
    obtain ⟨⟨g, hg, heq⟩, -⟩ := h.consumed request operationId hmem
    refine ⟨⟨g, by omega, by rw [hhistory, hb, heq]⟩, ?_⟩
    rintro - hsame
    rw [hrevision, heq] at hsame
    have := revisionText_injective (Option.some.inj hsame)
    omega
  · intro revision hr
    rw [hrevision, Option.some.injEq] at hr
    exact ⟨s'.generations, le_rfl, by rw [← hr, hhistory, hb]⟩

/-- The kinds of transitions a registered session goes through without a new turn. -/
def Action.stays : Action → Bool
  | elapsed | loaded | appended | remembered => true
  | kind => kind.quiet

/-- The session of the slice has the incarnation and keeps the accepted requests. -/
def Serves (sha256 : String → δ) (accepted : List (TurnRequest × String)) (incarnation : Nat)
    (s : Slice δ) : Prop :=
  ∃ a, s.session = some a ∧ a.incarnation = incarnation ∧ Keeps sha256 accepted s a

/-- One transition keeps the accepted requests and advances the counters by at most one. -/
theorem Serves.transition {incarnation : Nat} (h : Serves sha256 accepted incarnation s)
    (ht : Transition sha256 sessionId kind s s') (hk : kind.stays = true)
    (hops : s.operations + 1 < 2 ^ 64) (hgens : s.generations + 1 < 2 ^ 64) :
    Serves sha256 accepted incarnation s' ∧ s'.operations ≤ s.operations + kind.counts.toNat ∧
      s'.generations ≤ s.generations + kind.counts.toNat := by
  have hnext := nextCounter_of_lt hgens
  obtain ⟨a, ha, hi, hkeeps⟩ := h
  cases hq : kind.quiet with
  | true =>
      obtain ⟨a', b, ha', hb, hsame, he, hh, ho, hg⟩ := ht.sameTurn hq
      cases ha.symm.trans ha'
      refine ⟨⟨b, hb, hsame.incarnation.trans hi, ?_⟩, by omega, by omega⟩
      exact hkeeps.sameTurn hsame he hh ho.ge hg.ge
  | false =>
      cases ht with
      | elapsed ho hg =>
          rw [nextCounter_of_lt hops] at ho
          rw [hnext] at hg
          refine ⟨⟨a, ha, hi, ?_⟩, ?_, ?_⟩
          · refine hkeeps.sameTurn (.of_eq rfl rfl rfl rfl rfl) rfl rfl ?_ ?_
            · dsimp only
              omega
            · dsimp only
              omega
          · simp only [Action.counts, Bool.toNat_true]
            omega
          · simp only [Action.counts, Bool.toNat_true]
            omega
      | loaded attemptId updates bytes ha' hload hphase hdigest =>
          cases ha.symm.trans ha'
          refine ⟨⟨_, rfl, hi, ?_⟩, Nat.le_add_right _ _, hnext.le⟩
          refine hkeeps.published hnext rfl rfl ?_ ?_ rfl rfl rfl
          · exact fun request operationId hmem => .inr (hkeeps.intentsAfter hmem _)
          · intro turn hturn
            cases hturn
      | appended update updates bytes ha' hload hphase hprior hfold =>
          cases ha.symm.trans ha'
          refine ⟨⟨_, rfl, hi, ?_⟩, Nat.le_add_right _ _, hnext.le⟩
          exact hkeeps.published hnext rfl rfl hkeeps.remembers hkeeps.fresh rfl rfl rfl
      | remembered operationId updates bytes ha' hturn hprior hfold =>
          cases ha.symm.trans ha'
          refine ⟨⟨_, rfl, hi, ?_⟩, Nat.le_add_right _ _, hnext.le⟩
          refine hkeeps.published hnext rfl rfl ?_ ?_ rfl rfl rfl
          · exact fun request operationId hmem => .inr (hkeeps.intentsAfter hmem _)
          · intro turn hturn
            cases hturn
      | _ => simp_all [Action.stays, Action.quiet]

/-- The transitions of one operation keep the accepted requests. -/
theorem Serves.moves {incarnation : Nat} {kinds : List Action}
    (h : Serves sha256 accepted incarnation s) (hm : Moves sha256 sessionId kinds s s')
    (hk : ∀ kind ∈ kinds, kind.stays = true)
    (hops : s.operations + kinds.countP Action.counts + 1 < 2 ^ 64)
    (hgens : s.generations + kinds.countP Action.counts + 1 < 2 ^ 64) :
    Serves sha256 accepted incarnation s' ∧
      s'.operations ≤ s.operations + kinds.countP Action.counts ∧
      s'.generations ≤ s.generations + kinds.countP Action.counts := by
  induction hm with
  | done => exact ⟨h, le_rfl, le_rfl⟩
  | @skip kind kinds s s' _ ih =>
      rw [List.countP_cons] at hops hgens ⊢
      have hrest := ih h (fun kind hmem => hk kind (List.mem_cons_of_mem _ hmem)) (by omega)
        (by omega)
      exact ⟨hrest.1, by omega, by omega⟩
  | @step kind kinds s t s' ht _ ih =>
      have hone := h.transition ht (hk kind List.mem_cons_self) (by omega) (by omega)
      have hcount : (kind :: kinds).countP Action.counts =
          kinds.countP Action.counts + kind.counts.toNat := by
        rw [List.countP_cons]
        cases kind.counts <;> rfl
      rw [hcount] at hops hgens ⊢
      have hrest := ih hone.1 (fun kind hmem => hk kind (List.mem_cons_of_mem _ hmem)) (by omega)
        (by omega)
      exact ⟨hrest.1, by omega, by omega⟩

end Steps

end Attyd.Session
