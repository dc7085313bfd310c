import Attyd.Session.LiveSteps

/-!
# The operations on interactions as steps of the board

What an operation on interactions did is read off its answer: an interaction that was
inserted, a response that was applied, a resolution, a flow that was settled. Every
other answer leaves the interactions as they were.
-/

namespace Attyd.Session

open Json (Value)
open History

/-- The interactions a step is about. -/
def InteractionAction.kind : InteractionAction → InteractionKind
  | .opens kind _ | .responds kind _ _ | .resolves kind _ _ => kind
  | .settles _ _ | .discards _ => .elicitation

namespace Ledger

variable {d d' : Ledger} {interactionId operationId : String} {request : Value}

/-- An interaction that is opened was neither pending nor resolved. -/
theorem upsert_eq_ok {active : Option String} {compares : Bool} {answer : InteractionUpsert}
    (h : d.upsert interactionId request active compares = .ok (answer, d')) :
    answer ≠ .inserted ∧ d' = d ∨
      answer = .inserted ∧ interactionId ∉ d.resolved ∧ d.pending.lookup interactionId = none ∧
        d' = { d with
          pending := d.pending.insert interactionId ⟨interactionId, request, active, none⟩ } := by
  unfold upsert at h
  split at h
  · cases h
    exact .inl ⟨by simp, rfl⟩
  · rename_i hnew
    cases hp : d.pending.lookup interactionId with
    | none =>
        simp only [hp, Except.ok.injEq, Prod.mk.injEq] at h
        exact .inr ⟨h.1.symm, hnew, rfl, h.2.symm⟩
    | some existing =>
        simp only [hp] at h
        split at h
        · cases h
          exact .inl ⟨by simp, rfl⟩
        · cases h

/-- A response begins for an interaction that has none, under an unused id. -/
theorem respond_eq_ok {inUse : Bool} {answer : InteractionResponseStart}
    (h : d.respond interactionId operationId inUse = .ok (answer, d')) :
    answer = .duplicate ∧ d' = d ∨
      ∃ pending, answer = .applied ∧ d.pending.lookup interactionId = some pending ∧
        pending.respondingOperationId = none ∧ inUse = false ∧
        d' = { d with
          pending := d.pending.insert interactionId
            { pending with respondingOperationId := some operationId } } := by
  unfold respond at h
  split at h
  · cases h
  · rename_i pending hp
    split at h
    · split at h
      · cases h
        exact .inl ⟨rfl, rfl⟩
      · cases h
    · rename_i hfree
      rw [ite_error_eq_ok] at h
      cases h.2
      exact .inr ⟨pending, rfl, hp, hfree, by simpa using h.1, rfl⟩

/-- An interaction that is resolved was pending. -/
theorem resolve_eq_ok {refused : Bool} {answer : InteractionResolution} {value : Value}
    (h : d.resolve interactionId refused = .ok (answer, value, d')) :
    answer = .alreadyResolved ∧ interactionId ∈ d.resolved ∧ d' = d ∨
      ∃ pending, answer = .applied ∧ interactionId ∉ d.resolved ∧ refused = false ∧
        d.pending.lookup interactionId = some pending ∧ value = pending.request ∧
        d' = ⟨d.pending.erase interactionId, interactionId ::ₘ d.resolved⟩ := by
  unfold resolve at h
  split at h
  · rename_i hold
    cases h
    exact .inl ⟨rfl, hold, rfl⟩
  · rename_i hnew
    rw [ite_error_eq_ok] at h
    obtain ⟨hrefused, h⟩ := h
    split at h
    · cases h
    · rename_i pending hp
      cases h
      exact .inr ⟨pending, rfl, hnew, by simpa using hrefused, hp, rfl, rfl⟩

/-- Completing an interaction resolves it, for the operation that responds to it. -/
theorem complete_eq_ok {refused : Bool}
    {outcome : InteractionResolution × Value × Ledger}
    (h : d.complete interactionId operationId refused = .ok outcome) :
    d.resolve interactionId refused = .ok outcome ∧
      (interactionId ∉ d.resolved → ∃ pending, d.pending.lookup interactionId = some pending ∧
        pending.respondingOperationId = some operationId) := by
  unfold complete at h
  split at h
  · rename_i hold
    cases h
    exact ⟨if_pos hold, fun hnew => absurd hold hnew⟩
  · split at h
    · cases h
    · rename_i pending hp
      rw [ite_error_eq_ok, not_not] at h
      exact ⟨h.2, fun _ => ⟨pending, hp, h.1⟩⟩

end Ledger

/-- A flow that is settled was waiting; one that had been settled is only dropped. -/
theorem Interactions.settleUrlRegistration_eq_ok {d d' : Interactions}
    {elicitationId registrationId : String} {status : UrlFlowStatus} {answer : UrlFlowResolution}
    (h : d.settleUrlRegistration elicitationId registrationId status = .ok (answer, d')) :
    answer ≠ .applied ∧ (d' = d ∨ ∃ flow, d.urlFlows.lookup elicitationId = some flow ∧
        flow.status ≠ .waiting ∧ d' = { d with urlFlows := d.urlFlows.erase elicitationId }) ∨
      ∃ flow, answer = .applied ∧ d.urlFlows.lookup elicitationId = some flow ∧
        flow.registrationId = registrationId ∧ flow.status = .waiting ∧
        elicitationId ∉ d.resolvedUrlFlows ∧
        d' = { d with
          urlFlows := d.urlFlows.erase elicitationId
          resolvedUrlFlows := elicitationId ::ₘ d.resolvedUrlFlows } := by
  unfold settleUrlRegistration at h
  split at h
  · cases h
    exact .inl ⟨by simp, .inl rfl⟩
  · rename_i hregistration
    rw [ite_error_eq_ok] at h
    obtain ⟨-, h⟩ := h
    split at h
    · cases h
      exact .inl ⟨by simp, .inl rfl⟩
    · rename_i hnew
      split at h
      · cases h
      · rename_i flow hflow
        have hmatch : flow.registrationId = registrationId := by simpa [hflow] using hregistration
        simp only at h
        split at h
        · rename_i hstatus
          cases h
          exact .inl ⟨by simp, .inr ⟨flow, hflow, hstatus, rfl⟩⟩
        · rename_i hstatus
          cases h
          exact .inr ⟨flow, rfl, hflow, hmatch, not_not.mp hstatus, hnew, rfl⟩

/-- Only a step that is about permissions changes them. -/
theorem Interactions.Step.permissions {used urlUsed : String → Prop} {active : Option String}
    {action : InteractionAction} {d d' : Interactions} (h : d.Step used urlUsed active action d')
    (hkind : action.kind = .elicitation) : d'.permissions = d.permissions := by
  cases h with
  | opens kind => cases (hkind : kind = .elicitation); rfl
  | responds kind => cases (hkind : kind = .elicitation); rfl
  | resolves kind interactionId acceptedUrlId =>
      cases (hkind : kind = .elicitation)
      cases acceptedUrlId <;> rfl
  | settles => rfl
  | discards => rfl

variable {σ δ : Type}

section Scope

variable {r : SessionRegistry σ δ} {called : Caller}

theorem face_withInteractions (a : SessionState δ) (live : SessionLiveState) (d : Interactions) :
    ({ a with live := some (live.withInteractions d) } : SessionState δ).face =
      { a.face with live := some { live.face with interactions := d } } := rfl

/-- A URL whose flow is not in use is registered in no scope. -/
theorem urlFlowInUse_eq_false {elicitationId : String} (h : r.urlFlowInUse elicitationId = false) :
    elicitationId ∉ r.board.urlIds := by
  unfold SessionRegistry.urlFlowInUse at h
  rw [Bool.or_eq_false_iff, ← Bool.not_eq_true, ← Bool.not_eq_true] at h
  obtain ⟨hconnection, hsessions⟩ := h
  have mem_urlIds : ∀ {d : Interactions}, elicitationId ∈ d.urlIds →
      (d.urlFlows.lookup elicitationId).isSome = true := by
    intro d hmem
    obtain ⟨id, flow, hflow, rfl⟩ := Table.mem_collect.mp hmem
    rw [hflow]
    rfl
  rw [Board.urlIds, Multiset.mem_add, not_or]
  refine ⟨?_, fun hmem => hconnection (mem_urlIds hmem)⟩
  rw [Table.mem_sum]
  rintro ⟨id, face, hface, hmem⟩
  rw [face_eq] at hface
  obtain ⟨a, ha, rfl⟩ := Option.map_eq_some_iff.mp hface
  obtain ⟨entry, hentry, rfl⟩ := Option.map_eq_some_iff.mp ha
  refine hsessions (Table.any_eq_true.mpr ⟨id, entry, hentry, ?_⟩)
  cases hl : entry.state.live with
  | none => simp [Face.urlIds, SessionState.face, hl] at hmem
  | some live =>
      simp only [Face.urlIds, SessionState.face, hl, Option.map_some, Option.elim_some] at hmem
      exact mem_urlIds hmem

section Answer

variable {α : Type}

/-- What an operation did in a scope: its action when it answers that this was applied. -/
def did [DecidableEq α] (scope : Scope) (answer : Except RuntimeStateError α) (applied : α)
    (action : InteractionAction) : Report :=
  match answer with
  | .ok a => if a = applied then .interacts scope action else .silent
  | .error _ => .silent

/-- The steps of the interactions of a scope whose ids are those in use on the board. -/
abbrev InteractsOn (r : SessionRegistry σ δ) (active : Option String) (action : InteractionAction)
    (d d' : Interactions) : Prop :=
  d.Step (· ∈ r.board.operationIds) (· ∈ r.board.urlIds) active action d'

/-- What a change of interactions does when it is not refused: nothing, its own action, or
the removal of a flow that was settled. -/
def Changes (r : SessionRegistry σ δ) (applied : α) (action : InteractionAction)
    (change : Option String → Interactions → Except RuntimeStateError (α × Interactions × Bool)) :
    Prop :=
  ∀ active d answer d' publishes, change active d = .ok (answer, d', publishes) →
    answer ≠ applied ∧ (d' = d ∨ ∃ id, InteractsOn r active (.discards id) d d') ∨
      answer = applied ∧ InteractsOn r active action d d'

variable [DecidableEq α] {expectedEpoch : String} {applied : α} {action : InteractionAction}
  {change : Option String → Interactions → Except RuntimeStateError (α × Interactions × Bool)}

/-- An operation on the interactions of a session. -/
theorem reduceSession_stepFor {sessionId : String} {incarnation : Nat}
    (haction : ∀ id, action ≠ .discards id) (hchange : Changes r applied action change)
    (hopens : called.serves → ∀ kind id, action = .opens kind id →
      RuntimeOp.serves r sessionId incarnation = true) :
    Board.StepFor called
      (did (some (sessionId, incarnation))
        (r.reduceScope expectedEpoch (some (sessionId, incarnation)) change).1 applied action)
      r.board (r.reduceScope expectedEpoch (some (sessionId, incarnation)) change).2.board := by
  simp only [SessionRegistry.reduceScope]
  rcases reduceLive_cases r expectedEpoch sessionId incarnation (.ok ()) _ with
    ⟨error, h⟩ | ⟨owner, live, answer, reduction, -, hr, hok, h⟩
  · rw [h]
    exact .rests _
  · rw [h]
    obtain ⟨⟨answer', d, publishes⟩, hchanged, hok⟩ := bind_eq_ok.mp hok
    cases hok
    -- The face of the session is written with the interactions that are left.
    have hwrite : ∀ performed : InteractionAction,
        InteractsOn r (owner.turnExecution.map (·.rpcOperationId)) performed live.interactions d →
        (called.serves → ∀ kind id, performed = .opens kind id → live.lifecycle.inUse = true) →
        Board.Step called (.face sessionId incarnation (.interacts performed)) r.board
          (r.applyReduction sessionId
            ⟨{ owner with live := some (live.withInteractions d) }, 0, publishes⟩).board := by
      intro performed hstep hperformed
      rw [← hr.incarnation]
      refine board_step_applyReduction hr.state ?_
      change Face.Step called _ _ sessionId _ 0 owner.face _
      rw [face_withInteractions]
      exact .interacts (SessionState.face_live hr.live) hr.answers hstep hperformed
    rcases hchange _ _ _ _ _ hchanged with ⟨hne, hsame | ⟨id, hstep⟩⟩ | ⟨heq, hstep⟩
    · subst hsame
      simp only [did, if_neg hne]
      rw [board_applyReduction_rests hr.state]
      · exact .rests _
      · exact ⟨SessionState.face_live_eq hr.live rfl, rfl⟩
    · simp only [did, if_neg hne]
      exact ⟨_, rfl, hwrite (.discards id) hstep (by simp)⟩
    · simp only [did, if_pos heq]
      refine ⟨_, ?_, hwrite action hstep ?_⟩
      · cases action with
        | discards id => exact absurd rfl (haction id)
        | _ => rfl
      · intro hc kind id hk
        have hserves := hopens hc kind id hk
        simpa [RuntimeOp.serves, hr.state, hr.incarnation, hr.live] using hserves

/-- An operation on the interactions of the connection. -/
theorem reduceConnection_stepFor (haction : ∀ id, action ≠ .discards id)
    (hchange : Changes r applied action change) (hkind : action.kind = .elicitation) :
    Board.StepFor called (did none (r.reduceScope expectedEpoch none change).1 applied action)
      r.board (r.reduceScope expectedEpoch none change).2.board := by
  simp only [SessionRegistry.reduceScope]
  split
  · exact .rests _
  · rename_i answer d publishes h
    obtain ⟨_, -, hchanged⟩ := bind_eq_ok.mp h
    have hboard : (r.withConnection d publishes).board = { r.board with connection :=
        { d with permissions := r.board.connection.permissions } } := rfl
    have hwrite : ∀ performed : InteractionAction, performed.kind = .elicitation →
        InteractsOn r none performed r.connectionInteractions d →
        Board.Step called (.connection performed) r.board (r.withConnection d publishes).board := by
      intro performed hperformed hstep
      have hpermissions := hstep.permissions hperformed
      rw [hboard]
      change Board.Step called _ r.board
        { r.board with connection := { d with permissions := r.connectionInteractions.permissions } }
      rw [← hpermissions]
      exact .connection hstep hpermissions
    rcases hchange _ _ _ _ _ hchanged with ⟨hne, hsame | ⟨id, hstep⟩⟩ | ⟨heq, hstep⟩
    · subst hsame
      simp only [did, if_neg hne]
      exact .rests _
    · simp only [did, if_neg hne]
      exact ⟨_, rfl, hwrite (.discards id) rfl hstep⟩
    · simp only [did, if_pos heq]
      refine ⟨_, ?_, hwrite action hkind hstep⟩
      cases action with
      | discards id => exact absurd rfl (haction id)
      | _ => rfl

end Answer

section Changes

variable (kind : InteractionKind) (interactionId operationId : String)

theorem upsert_changes (request : Value) (compares : Bool) :
    Changes r InteractionUpsert.inserted (.opens kind interactionId) (fun active d => do
      let upserted ← (d.ledger kind).upsert interactionId request active compares
      .ok (upserted.1, d.withLedger kind upserted.2, upserted.1 = .inserted)) := by
  intro active d answer d' publishes h
  obtain ⟨⟨answer, ledger⟩, hupsert, h⟩ := bind_eq_ok.mp h
  cases h
  rcases Ledger.upsert_eq_ok hupsert with ⟨hne, rfl⟩ | ⟨rfl, hnew, hfree, rfl⟩
  · exact .inl ⟨hne, .inl (by cases kind <;> rfl)⟩
  · exact .inr ⟨rfl, .opens kind interactionId request hnew hfree⟩

theorem respond_changes :
    Changes r InteractionResponseStart.applied (.responds kind interactionId operationId) (fun _ d => do
      let started ← (d.ledger kind).respond interactionId operationId
        (r.operationInUse operationId)
      .ok (started.1, d.withLedger kind started.2, started.1 = .applied)) := by
  intro active d answer d' publishes h
  obtain ⟨⟨answer, ledger⟩, hrespond, h⟩ := bind_eq_ok.mp h
  cases h
  rcases Ledger.respond_eq_ok hrespond with ⟨rfl, rfl⟩ | ⟨pending, rfl, hp, hfree, hused, rfl⟩
  · exact .inl ⟨by simp, .inl (by cases kind <;> rfl)⟩
  · exact .inr ⟨rfl, .responds kind interactionId operationId hp hfree
      (operationInUse_eq_false hused)⟩

/-- A resolution takes a permission out, and nothing else. -/
theorem resolvePermission_changes {resolve : Ledger →
      Except RuntimeStateError (InteractionResolution × Value × Ledger)}
    (hresolve : ∀ d outcome, resolve d = .ok outcome → d.resolve interactionId false = .ok outcome) :
    Changes r InteractionResolution.applied (.resolves .permission interactionId none) (fun _ d => do
      let resolved ← resolve d.permissions
      .ok (resolved.1, { d with permissions := resolved.2.2 }, resolved.1 = .applied)) := by
  intro active d answer d' publishes h
  obtain ⟨⟨answer, value, ledger⟩, hresolved, h⟩ := bind_eq_ok.mp h
  cases h
  rcases Ledger.resolve_eq_ok (hresolve _ _ hresolved) with
    ⟨rfl, -, rfl⟩ | ⟨pending, rfl, hnew, -, hp, -, rfl⟩
  · exact .inl ⟨by simp, .inl rfl⟩
  · exact .inr ⟨rfl, .resolves .permission interactionId none hp hnew (by simp)⟩

/-- A resolution takes an elicitation out, and registers the flow of the accepted URL. -/
theorem resolveElicitation_changes (acceptedUrlId : Option String) {resolve : Ledger →
      Except RuntimeStateError (InteractionResolution × Value × Ledger)}
    (hresolve : ∀ d outcome, resolve d = .ok outcome →
      d.resolve interactionId (acceptedUrlId.any r.urlFlowInUse) = .ok outcome) :
    Changes r InteractionResolution.applied (.resolves .elicitation interactionId acceptedUrlId) (fun _ d => do
      let resolved ← resolve d.elicitations
      .ok (SessionRegistry.afterResolution d interactionId acceptedUrlId resolved)) := by
  intro active d answer d' publishes h
  obtain ⟨⟨answer, value, ledger⟩, hresolved, h⟩ := bind_eq_ok.mp h
  cases h
  rcases Ledger.resolve_eq_ok (hresolve _ _ hresolved) with
    ⟨rfl, -, rfl⟩ | ⟨pending, rfl, hnew, hrefused, hp, rfl, rfl⟩
  · exact .inl ⟨by simp, .inl rfl⟩
  · refine .inr ⟨rfl, .resolves .elicitation interactionId acceptedUrlId hp hnew ?_⟩
    rintro url rfl
    exact ⟨rfl, urlFlowInUse_eq_false hrefused⟩

theorem settleUrlRegistration_changes (elicitationId registrationId : String)
    (status : UrlFlowStatus) :
    Changes r UrlFlowResolution.applied (.settles elicitationId registrationId) (fun _ d => do
      let settled ← d.settleUrlRegistration elicitationId registrationId status
      .ok (settled.1, settled.2, settled.1 = .applied)) := by
  intro active d answer d' publishes h
  obtain ⟨⟨answer, ledger⟩, hsettle, h⟩ := bind_eq_ok.mp h
  cases h
  rcases Interactions.settleUrlRegistration_eq_ok hsettle with
    ⟨hne, hsame⟩ | ⟨flow, rfl, hflow, hmatch, hwaiting, hnew, rfl⟩
  · refine .inl ⟨hne, hsame.imp id ?_⟩
    rintro ⟨flow, hflow, hstatus, rfl⟩
    exact ⟨elicitationId, .discards elicitationId hflow hstatus⟩
  · exact .inr ⟨rfl, .settles elicitationId registrationId hflow hmatch hwaiting hnew⟩

end Changes

end Scope

end Attyd.Session
