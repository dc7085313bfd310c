import Attyd.Session.BoardRuns
import Attyd.Library.Holding

/-!
# Every id has one holder

A turn, an operation or the response to an interaction starts only under an id that
nothing else holds, and a URL is accepted only when its flow is registered nowhere. So no
run gives one id to two of them, and no run registers one URL twice.
-/

namespace Attyd.Session

open Json (Value)
open History

section Interactions

variable {used urlUsed : String → Prop}

theorem Interactions.operationIds_ledger (d : Interactions) (kind : InteractionKind) :
    ∃ rest, d.operationIds = (d.ledger kind).operationIds + rest ∧
      ∀ ledger, (d.withLedger kind ledger).operationIds = ledger.operationIds + rest := by
  cases kind with
  | permission => exact ⟨_, rfl, fun _ => rfl⟩
  | elicitation =>
      refine ⟨d.permissions.operationIds, add_comm _ _, fun ledger => ?_⟩
      exact add_comm d.permissions.operationIds ledger.operationIds

/-- A change of one ledger is a change of the interactions. -/
theorem Interactions.joins_withLedger {d : Interactions} {kind : InteractionKind} {ledger : Ledger}
    (h : Gains used (d.ledger kind).operationIds ledger.operationIds) :
    Gains used d.operationIds (d.withLedger kind ledger).operationIds := by
  obtain ⟨rest, hold, hnew⟩ := d.operationIds_ledger kind
  rw [hold, hnew]
  exact h.add_right rest

theorem Interactions.operationIds_accepted (d : Interactions) (interactionId : String)
    (request : Value) (url : Option String) :
    (d.accepted interactionId request url).operationIds = d.operationIds := by
  cases url <;> rfl

/-- A response is the only step that takes an id. -/
theorem Interactions.Step.operationIds {active : Option String} {action : InteractionAction}
    {d d' : Interactions} (h : d.Step used urlUsed active action d') :
    Gains used d.operationIds d'.operationIds := by
  cases h with
  | opens kind interactionId request hnew hfree =>
      refine joins_withLedger (.of_eq ?_)
      rw [Ledger.operationIds, Table.sum_insert_of_lookup_none _ _ hfree]
      exact zero_add _
  | responds kind interactionId operationId hpending hfree hunused =>
      refine joins_withLedger (.cons hunused ?_)
      rw [Ledger.operationIds, Table.sum_insert, Ledger.operationIds, Table.sum_erase _ hpending,
        hfree]
      change {operationId} + _ = operationId ::ₘ (0 + _)
      rw [zero_add, Multiset.singleton_add]
  | resolves kind interactionId acceptedUrlId hpending =>
      rw [operationIds_accepted]
      refine joins_withLedger (.inl ?_)
      rw [Ledger.operationIds, Ledger.operationIds, Table.sum_erase _ hpending]
      exact Multiset.le_add_left _ _
  | settles => exact .refl _
  | discards => exact .refl _

theorem Interactions.urlIds_withLedger (d : Interactions) (kind : InteractionKind)
    (ledger : Ledger) : (d.withLedger kind ledger).urlIds = d.urlIds := by
  cases kind <;> rfl

/-- Accepting a URL is the only step that registers a flow. -/
theorem Interactions.Step.urlIds {active : Option String} {action : InteractionAction}
    {d d' : Interactions} (h : d.Step used urlUsed active action d') :
    Gains urlUsed d.urlIds d'.urlIds := by
  cases h with
  | opens kind => exact .of_eq (urlIds_withLedger ..)
  | responds kind => exact .of_eq (urlIds_withLedger ..)
  | @resolves _ kind interactionId acceptedUrlId pending hpending hnew hurl =>
      have hsame := urlIds_withLedger d kind
        ⟨(d.ledger kind).pending.erase interactionId, interactionId ::ₘ (d.ledger kind).resolved⟩
      generalize d.withLedger kind _ = e at hsame ⊢
      rw [← hsame]
      cases acceptedUrlId with
      | none => exact .refl _
      | some url =>
          have hunused := (hurl url rfl).2
          cases hflow : e.urlFlows.lookup url with
          | none => exact .cons hunused (Table.collect_insert_of_lookup_none _ _ hflow)
          | some flow => exact .of_eq (Table.collect_insert_of_lookup _ _ hflow rfl)
  | settles elicitationId registrationId hflow => exact .inl (Table.collect_erase_le _ hflow)
  | discards elicitationId hflow => exact .inl (Table.collect_erase_le _ hflow)

end Interactions

section Faces

variable {called : Caller} {used urlUsed : String → Prop} {sessionId : String}
  {action : FaceAction} {effects : Multiset RuntimeEffect} {a a' : Face}

theorem Ledger.operationIds_sealTurn_le (d : Ledger) (operationId : String) :
    (d.sealTurn operationId).operationIds ≤ d.operationIds := by
  have hsplit := Table.sum_retain
    (fun interaction : PendingInteraction => idsOf interaction.respondingOperationId) d.pending
    fun _ interaction => decide (interaction.operationId ≠ some operationId)
  rw [Ledger.operationIds, Ledger.operationIds, hsplit]
  exact Multiset.le_add_left _ _

theorem Interactions.operationIds_sealed_le (d : Interactions) (operationId : String) :
    (d.sealed operationId).operationIds ≤ d.operationIds :=
  add_le_add (d.permissions.operationIds_sealTurn_le operationId)
    (d.elicitations.operationIds_sealTurn_le operationId)

/-- What live sides hold is read off their interactions. -/
private theorem elim_interactions (f : Interactions → Multiset String) {l l' : Option LiveFace}
    (h : l.map (·.interactions) = l'.map (·.interactions)) :
    l.elim 0 (fun live => f live.interactions) = l'.elim 0 fun live => f live.interactions := by
  have helim : ∀ o : Option LiveFace, o.elim 0 (fun live => f live.interactions) =
      (o.map (·.interactions)).elim 0 f := by
    rintro (_ | live) <;> rfl
  rw [helim, helim, h]

private theorem idsOf_execution_le {execution execution' : Option String}
    (h : execution' = execution ∨ execution' = none) : idsOf execution' ≤ idsOf execution := by
  rcases h with rfl | rfl
  · exact le_rfl
  · exact Multiset.zero_le _

/-- A turn, an operation or a response takes an unused id, and all other steps take none. -/
theorem Face.Step.operationIds (h : Face.Step called used urlUsed sessionId action effects a a') :
    Gains used a.operationIds a'.operationIds := by
  cases h with
  | rests execution hexecution =>
      have hle := idsOf_execution_le hexecution
      refine .inl ?_
      change idsOf execution + _ + _ ≤ idsOf a.execution + _ + _
      gcongr
  | executes operationId hunused hidle =>
      refine .cons hunused ?_
      change {operationId} + _ + _ = operationId ::ₘ (idsOf a.execution + _ + _)
      rw [hidle, add_assoc, Multiset.singleton_add, add_assoc]
      exact congrArg _ (zero_add _).symm
  | starts operation live hid hstage hlive =>
      have hids := elim_interactions Interactions.operationIds hlive
      change Gains used (idsOf a.execution + idsOf (a.operation.map (·.operationId)) + _)
        (idsOf a.execution + {operation.operationId} + live.elim 0 _)
      rw [hids]
      refine .add_right _ (.add_left _ ?_)
      rcases hid with ⟨hnone, hunused⟩ | ⟨reserved, hreserved, heq, -⟩
      · rw [hnone]
        exact .cons hunused rfl
      · rw [hreserved, ← heq]
        exact .refl _
  | ends live hid hstage hlive =>
      have hids := elim_interactions Interactions.operationIds hlive
      refine .inl ?_
      change idsOf a.execution + 0 + live.elim 0 _ ≤ idsOf a.execution + _ + _
      rw [hids]
      gcongr
      exact Multiset.zero_le _
  | @drains _ operation live next execution lifecycle hid hnext hexecution hlive =>
      have hle := idsOf_execution_le hexecution
      refine .inl ?_
      change idsOf execution + {next.operationId} + 0 ≤ idsOf a.execution +
        idsOf (a.operation.map (·.operationId)) + _
      rw [hid, hnext]
      gcongr
      · exact le_rfl
      · exact Multiset.zero_le _
  | @retires _ operation live next execution cleans hid hnext hexecution hlive =>
      have hle := idsOf_execution_le hexecution
      refine .inl ?_
      change idsOf execution + idsOf (next.map (·.operationId)) + 0 ≤ idsOf a.execution +
        idsOf (a.operation.map (·.operationId)) + _
      gcongr
      · rw [hid]
        cases next with
        | none => exact Multiset.zero_le _
        | some o => exact (congrArg idsOf (congrArg some (hnext o rfl))).le
      · exact Multiset.zero_le _
  | finishes hid =>
      refine .inl ?_
      change idsOf a.execution + 0 + 0 ≤ idsOf a.execution + _ + _
      gcongr
      · exact Multiset.zero_le _
      · exact Multiset.zero_le _
  | @seals _ live operationId lifecycle hid hlive =>
      refine .inl ?_
      change 0 + _ + (live.interactions.sealed operationId).operationIds ≤
        idsOf a.execution + _ + a.live.elim 0 _
      rw [hlive]
      gcongr
      · exact Multiset.zero_le _
      · exact live.interactions.operationIds_sealed_le operationId
  | interacts hlive hanswers hstep =>
      change Gains used (idsOf a.execution + _ + a.live.elim 0 _) (idsOf a.execution + _ + _)
      rw [hlive]
      exact hstep.operationIds.add_left _

/-- Only an interaction of the session registers a flow. -/
theorem Face.Step.urlIds (h : Face.Step called used urlUsed sessionId action effects a a') :
    Gains urlUsed a.urlIds a'.urlIds := by
  cases h with
  | rests => exact .refl _
  | executes => exact .refl _
  | starts operation live hid hstage hlive =>
      exact .of_eq (elim_interactions Interactions.urlIds hlive)
  | ends live hid hstage hlive => exact .of_eq (elim_interactions Interactions.urlIds hlive)
  | drains => exact .inl (Multiset.zero_le _)
  | retires => exact .inl (Multiset.zero_le _)
  | finishes => exact .inl (Multiset.zero_le _)
  | @seals _ live operationId lifecycle hid hlive =>
      refine .of_eq ?_
      change live.interactions.urlIds = a.live.elim 0 _
      rw [hlive]
      rfl
  | interacts hlive hanswers hstep =>
      change Gains urlUsed (a.live.elim 0 _) _
      rw [hlive]
      exact hstep.urlIds

theorem Face.Step.sessionId_eq
    (h : Face.Step called used urlUsed sessionId action effects a a') :
    a'.sessionId = a.sessionId := by
  cases h <;> rfl

theorem Face.Step.incarnation_eq
    (h : Face.Step called used urlUsed sessionId action effects a a') :
    a'.incarnation = a.incarnation := by
  cases h <;> rfl

end Faces

section Boards

variable {called : Caller} {action : BoardAction} {b b' : Board}

/-- The ids of a table of faces after one of them was written. -/
theorem joins_insert {used : String → Prop} (ids : Face → Multiset String)
    {t : Table String Face} {sessionId : String} {face : Face}
    (h : Gains used ((t.lookup sessionId).elim 0 ids) (ids face)) :
    Gains used (Table.sum ids t) (Table.sum ids (t.insert sessionId face)) := by
  rw [Table.sum_insert, Table.sum_split ids t sessionId]
  exact h.add_right _

theorem Board.Step.operationIds (h : Board.Step called action b b') :
    Gains (· ∈ b.operationIds) b.operationIds b'.operationIds := by
  cases h with
  | rests => exact .refl _
  | face sessionId ha hstep =>
      refine .add_right _ (joins_insert Face.operationIds ?_)
      rw [ha]
      exact hstep.operationIds
  | connection hstep => exact hstep.operationIds.add_left _
  | installs sessionId face lifecycle hid hfree hexecution hoperation hlive =>
      refine .add_right _ (joins_insert Face.operationIds ?_)
      rw [Face.operationIds, hlive]
      change Gains _ _ (idsOf face.execution + _ + 0)
      rw [add_zero]
      -- The execution is the one the session had, and the operation takes an unused id.
      have hexec : idsOf face.execution ≤
          (b.faces.lookup sessionId).elim 0 Face.operationIds := by
        rcases hexecution with hnone | ⟨a, ha, hsame⟩
        · rw [hnone]
          exact Multiset.zero_le _
        · rw [ha, ← hsame, Option.elim_some, Face.operationIds, add_assoc]
          exact Multiset.le_add_right _ _
      cases ho : face.operation with
      | none =>
          refine .inl ?_
          change idsOf face.execution + 0 ≤ _
          rwa [add_zero]
      | some operation =>
          refine .inr ⟨operation.operationId, (hoperation operation ho).1, ?_⟩
          change idsOf face.execution + {operation.operationId} ≤ _
          rw [add_comm, Multiset.singleton_add]
          exact Multiset.cons_le_cons _ hexec
  | registers sessionId =>
      exact .add_right _ (joins_insert Face.operationIds (.inl (Multiset.zero_le _)))
  | removes sessionId ha =>
      refine .add_right _ (.inl ?_)
      rw [Table.sum_erase Face.operationIds ha]
      exact Multiset.le_add_left _ _

theorem Board.Step.urlIds (h : Board.Step called action b b') :
    Gains (· ∈ b.urlIds) b.urlIds b'.urlIds := by
  cases h with
  | rests => exact .refl _
  | face sessionId ha hstep =>
      refine .add_right _ (joins_insert Face.urlIds ?_)
      rw [ha]
      exact hstep.urlIds
  | connection hstep => exact hstep.urlIds.add_left _
  | installs sessionId face lifecycle hid hfree hexecution hoperation hlive =>
      refine .add_right _ (joins_insert Face.urlIds ?_)
      rw [Face.urlIds, hlive]
      exact .inl (Multiset.zero_le _)
  | registers sessionId =>
      exact .add_right _ (joins_insert Face.urlIds (.inl (Multiset.zero_le _)))
  | removes sessionId ha =>
      refine .add_right _ (.inl ?_)
      rw [Table.sum_erase Face.urlIds ha]
      exact Multiset.le_add_left _ _

theorem Board.Keyed.setFace {sessionId : String} {face : Face} (h : b.Keyed)
    (hid : face.sessionId = sessionId) : (b.setFace sessionId face).Keyed := by
  intro id a ha
  by_cases ho : id = sessionId
  · subst ho
    cases (Finmap.lookup_insert _).symm.trans ha
    exact hid
  · exact h id a ((Finmap.lookup_insert_of_ne _ ho).symm.trans ha)

theorem Board.Step.keyed (h : Board.Step called action b b') (hkeyed : b.Keyed) : b'.Keyed := by
  cases h with
  | rests => exact hkeyed
  | face sessionId ha hstep =>
      exact hkeyed.setFace (hstep.sessionId_eq.trans (hkeyed sessionId _ ha))
  | connection => exact hkeyed
  | installs sessionId face lifecycle hid => exact hkeyed.setFace hid
  | registers sessionId => exact hkeyed.setFace rfl
  | removes sessionId =>
      intro id a ha
      by_cases ho : id = sessionId
      · subst ho
        cases (Finmap.lookup_erase _ _).symm.trans ha
      · exact hkeyed id a ((Finmap.lookup_erase_ne ho).symm.trans ha)

end Boards

section Runs

variable {σ δ : Type} [Inhabited σ] [DecidableEq δ]

/-- Every session is under its own id, and every id has one holder. -/
structure Board.Held (b : Board) : Prop where
  keyed : b.Keyed
  operationIds : b.operationIds.Nodup
  urlIds : b.urlIds.Nodup

theorem Board.Held.step {called : Caller} {action : BoardAction} {b b' : Board} (h : b.Held)
    (hstep : Board.Step called action b b') : b'.Held :=
  ⟨hstep.keyed h.keyed, hstep.operationIds.nodup h.operationIds, hstep.urlIds.nodup h.urlIds⟩

omit [Inhabited σ] [DecidableEq δ] in
theorem board_new (epoch : String) :
    (SessionRegistry.new epoch : SessionRegistry σ δ).board = ⟨∅, .fresh, 0⟩ := rfl

omit [Inhabited σ] [DecidableEq δ] in
theorem Board.Held.new (epoch : String) :
    (SessionRegistry.new epoch : SessionRegistry σ δ).board.Held := by
  rw [board_new]
  refine ⟨?_, Multiset.nodup_zero, Multiset.nodup_zero⟩
  intro id a ha
  cases ha

theorem Board.Held.runtimeStep {r : SessionRegistry σ δ} (env : RuntimeEnv σ δ) (op : RuntimeOp)
    (h : r.board.Held) : (op.step env r).board.Held := by
  by_cases hop : op = .takeEffects
  · subst hop
    exact ⟨h.keyed, h.operationIds, h.urlIds⟩
  · obtain ⟨action, -, hstep⟩ := op.stepFor env r hop h.keyed
    exact h.step hstep

end Runs

end Attyd.Session
