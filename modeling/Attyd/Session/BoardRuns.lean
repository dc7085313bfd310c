import Attyd.Session.InteractionSteps

/-!
# Runs on the board

Every operation of the runtime takes the board through one step, which reports what the
operation answers; only taking the effects is no step. What the steps of a board preserve
therefore holds after every run.
-/

namespace Attyd.Session

open Json (Value)
open History

variable {σ δ : Type} [Inhabited σ] [DecidableEq δ]

namespace RuntimeOp

/-- What an operation opened, sealed, ended or did to an interaction, read off its answer. -/
def report (r : SessionRegistry σ δ) : RuntimeOp → Report
  | openNewWithReplay epoch id cwd session replay =>
      reported (r.openNewWithReplay epoch id cwd session replay).1 (.opens id)
  | openForked epoch id cwd session source targetReplay =>
      reported (r.openForked epoch id cwd session source targetReplay).1 (.opens id)
  | startAttachment epoch id cwd operationId kind =>
      reported (r.startAttachment epoch id cwd operationId kind).1 (.opens id)
  | completePrompt epoch id incarnation operationId =>
      reported (r.liveStep epoch id incarnation (.ok ()) fun owner live =>
        owner.completePrompt id live operationId).1 (.seals id incarnation operationId)
  | failPrompt epoch id incarnation operationId =>
      reported (r.liveStep epoch id incarnation (.ok ()) fun owner live =>
        owner.failPrompt id live operationId).1 (.seals id incarnation operationId)
  | markPromptUncertain epoch id incarnation operationId =>
      reported (r.liveStep epoch id incarnation (.ok ()) fun owner live =>
        owner.markPromptUncertain id live operationId).1 (.seals id incarnation operationId)
  | upsertPermission epoch id incarnation interactionId request =>
      did (some (id, incarnation)) (r.upsertPermission epoch id incarnation interactionId request).1
        .inserted (.opens .permission interactionId)
  | resolvePermission epoch id incarnation interactionId =>
      did (some (id, incarnation)) (r.resolvePermission epoch id incarnation interactionId).1
        .applied (.resolves .permission interactionId none)
  | beginPermissionResponse epoch id incarnation interactionId operationId =>
      did (some (id, incarnation))
        (r.beginPermissionResponse epoch id incarnation interactionId operationId).1
        .applied (.responds .permission interactionId operationId)
  | completePermissionResponse epoch id incarnation interactionId operationId =>
      did (some (id, incarnation))
        (r.completePermissionResponse epoch id incarnation interactionId operationId).1
        .applied (.resolves .permission interactionId none)
  | upsertElicitation epoch scope interactionId request =>
      did scope (r.upsertElicitation epoch scope interactionId request).1
        .inserted (.opens .elicitation interactionId)
  | resolveElicitation epoch scope interactionId acceptedUrlId =>
      did scope (r.resolveElicitation epoch scope interactionId acceptedUrlId).1
        .applied (.resolves .elicitation interactionId acceptedUrlId)
  | beginElicitationResponse epoch scope interactionId operationId =>
      did scope (r.beginElicitationResponse epoch scope interactionId operationId).1
        .applied (.responds .elicitation interactionId operationId)
  | completeElicitationResponse epoch scope interactionId operationId acceptedUrlId =>
      did scope
        (r.completeElicitationResponse epoch scope interactionId operationId acceptedUrlId).1
        .applied (.resolves .elicitation interactionId acceptedUrlId)
  | settleUrlRegistration epoch scope elicitationId registrationId status =>
      did scope (r.settleUrlRegistration epoch scope elicitationId registrationId status).1
        .applied (.settles elicitationId registrationId)
  | deleteCloseSucceeded epoch id incarnation operationId =>
      reported (r.liveStep epoch id incarnation (.ok ()) fun owner live =>
        owner.deleteCloseSucceeded id live operationId).1 (.confirms id)
  | completeDelete epoch id incarnation operationId =>
      reported (r.liveStep epoch id incarnation (.ok ()) fun owner live =>
        owner.completeDelete id live operationId).1 (.closes id incarnation operationId)
  | closeSession epoch id incarnation operationId =>
      reported (r.liveStep epoch id incarnation (.ok ()) fun owner live =>
        owner.closeSession id live operationId).1 (.closes id incarnation operationId)
  | markOperationUncertain epoch id incarnation operationId reason =>
      reported (r.liveStep epoch id incarnation (.ok ()) fun owner live =>
        owner.markOperationUncertain id live operationId reason).1 (.doubts id)
  | finishSessionCleanup id incarnation kind operationId =>
      cleaned r id incarnation kind operationId
  | _ => .silent

section Scopes

variable {α : Type} [DecidableEq α] {r : SessionRegistry σ δ} {called : Caller}
  {expectedEpoch : String} {applied : α} {action : InteractionAction}
  {change : Option String → Interactions → Except RuntimeStateError (α × Interactions × Bool)}

omit [Inhabited σ] [DecidableEq δ] in
/-- An operation on the elicitations of whatever scope. -/
theorem reduceScope_stepFor (scope : Scope) (haction : ∀ id, action ≠ .discards id)
    (hchange : Changes r applied action change) (hkind : action.kind = .elicitation)
    (hopens : called.serves → ∀ kind id, action = .opens kind id → ∀ owner, scope = some owner →
      serves r owner.1 owner.2 = true) :
    Board.StepFor called (did scope (r.reduceScope expectedEpoch scope change).1 applied action)
      r.board (r.reduceScope expectedEpoch scope change).2.board := by
  cases scope with
  | none => exact reduceConnection_stepFor haction hchange hkind
  | some owner =>
      exact reduceSession_stepFor haction hchange fun hc kind id hk => hopens hc kind id hk _ rfl

end Scopes

omit [Inhabited σ] [DecidableEq δ] in
/-- An end of a turn that seals it. -/
theorem sealTurn_stepFor {r : SessionRegistry σ δ} {called : Caller} (epoch id : String)
    (incarnation : Nat) (operationId : String) (lifecycle : Option SessionLifecycle)
    (hlifecycle : lifecycle = none ∨ lifecycle = some .uncertain) :
    Board.StepFor called
      (reported (r.liveStep epoch id incarnation (.ok ()) fun owner live =>
        owner.sealTurn id live operationId lifecycle).1 (.seals id incarnation operationId))
      r.board (r.liveStep epoch id incarnation (.ok ()) fun owner live =>
        owner.sealTurn id live operationId lifecycle).2.board := by
  exact liveStep_reports (.seals operationId) fun _ _ _ hr h =>
    SessionState.sealTurn_step hr.live hr.answers hlifecycle h

/-- Every operation but the one that takes the effects is a step of the board, with the
report of the operation. -/
theorem stepFor (env : RuntimeEnv σ δ) (r : SessionRegistry σ δ) (op : RuntimeOp)
    (hop : op ≠ .takeEffects) (hkeyed : r.board.Keyed) :
    Board.StepFor (op.caller r) (op.report r) r.board (op.step env r).board := by
  cases op with
  | mirror op => exact RegistryOp.stepFor r env op hkeyed
  | openNewWithReplay epoch id cwd session replay => exact openSession_stepFor hkeyed ..
  | openForked epoch id cwd session source replay => exact openForked_stepFor hkeyed ..
  | startAttachment epoch id cwd operationId kind => exact startAttachment_stepFor hkeyed ..
  | startReload epoch id incarnation operationId kind => exact startReload_stepFor hkeyed ..
  | appendAttachmentCandidate =>
      exact liveStep_stepFor .rests (fun _ => rfl) fun _ _ _ _ hr h =>
        .inl (SessionState.appendAttachmentCandidate_rests hr.live h)
  | completeReload epoch id incarnation operationId response =>
      exact liveStep_stepFor (.ends operationId) (fun _ => rfl) fun _ _ _ _ hr h =>
        .inr (SessionState.completeReload_step hr.live hr.answers h)
  | failReload epoch id incarnation operationId =>
      exact liveStep_stepFor (.ends operationId) (fun _ => rfl) fun _ _ _ _ hr h =>
        .inr (SessionState.failReload_step hr.live hr.answers h)
  | completeAttachment epoch id incarnation operationId kind response =>
      exact liveStep_stepFor (.ends operationId) (fun _ => rfl) fun _ _ _ _ hr h =>
        .inr (SessionState.completeAttachment_step hr.live hr.answers h)
  | failAttachment epoch id incarnation operationId kind =>
      exact liveStep_stepFor (.retires operationId false) (fun _ => rfl) fun _ _ _ _ hr h =>
        .inr (SessionState.failAttachment_step hr.live hr.answers h)
  | admitSessionTurn epoch id incarnation expected intent prompt =>
      exact admitSessionTurn_stepFor env.sha256 epoch expected intent prompt
  | projectTurnUpdate =>
      exact liveStep_stepFor .rests (fun _ => rfl) fun _ _ _ _ hr h =>
        .inl (SessionState.projectTurnUpdate_rests hr.live h)
  | updateControlState =>
      exact liveStep_stepFor .rests (fun _ => rfl) fun _ _ _ _ hr h =>
        .inl (SessionState.updateControlState_rests hr.live h)
  | synchronizeLoadedSession =>
      exact liveStep_stepFor .rests (fun _ => rfl) fun _ _ _ _ hr h =>
        .inl (SessionState.synchronizeLoadedSession_rests hr.live h)
  | requestCancel =>
      exact liveStep_stepFor .rests (fun _ => rfl) fun _ _ _ _ _ h =>
        .inl (SessionState.requestCancel_rests h)
  | completePrompt epoch id incarnation operationId =>
      exact sealTurn_stepFor epoch id incarnation operationId none (.inl rfl)
  | failPrompt epoch id incarnation operationId =>
      exact sealTurn_stepFor epoch id incarnation operationId none (.inl rfl)
  | markPromptUncertain epoch id incarnation operationId =>
      exact sealTurn_stepFor epoch id incarnation operationId (some .uncertain) (.inr rfl)
  | upsertTerminal epoch id incarnation terminalId terminal =>
      refine reduceLive_stepFor .rests (fun _ => rfl) fun owner live _ reduction _ hr h => ?_
      have hreduction : _ = reduction := congrArg Prod.snd (Except.ok.inj h)
      exact .inl (hreduction ▸ SessionState.upsertTerminal_rests hr.live)
  | startOperation epoch id incarnation operationId kind stage =>
      refine startOperation_stepFor hkeyed epoch operationId kind stage fun hc _ _ _ _ => ?_
      simp only [caller, called, Bool.and_eq_true, decide_eq_true_eq] at hc
      exact ⟨hc.2, fun hk => absurd hk hc.1⟩
  | startDelete epoch id incarnation operationId => exact startDelete_stepFor hkeyed ..
  | startDirectDelete epoch id incarnation operationId =>
      exact startDirectDelete_stepFor hkeyed ..
  | deleteCloseSucceeded epoch id incarnation operationId =>
      exact liveStep_reports (.drains operationId .deleting) fun _ _ _ hr h =>
        SessionState.deleteCloseSucceeded_step hr.live hr.answers h
  | completeDelete epoch id incarnation operationId =>
      exact liveStep_reports (.retires operationId true) fun _ _ _ hr h =>
        SessionState.completeDelete_step hr.live hr.answers h
  | markOperationUncertain epoch id incarnation operationId reason =>
      exact liveStep_reports (.drains operationId .uncertain) fun _ _ _ hr h =>
        SessionState.markOperationUncertain_step hr.live hr.answers h
  | completeOperation epoch id incarnation operationId kind =>
      exact liveStep_stepFor (.ends operationId) (fun _ => rfl) fun _ _ _ _ hr h =>
        .inr (SessionState.completeOperation_step hr.live hr.answers h)
  | completeControlOperation epoch id incarnation operationId kind key update =>
      refine liveStep_stepFor (.ends operationId) (fun _ => rfl) fun _ _ _ hpre hr h =>
        .inr (SessionState.completeControlOperation_step hr.live hr.answers (fun _ => ?_) h)
      rintro rfl
      simp at hpre
  | failOperation epoch id incarnation operationId kind =>
      refine liveStep_stepFor (.ends operationId) (fun _ => rfl) fun _ _ _ _ hr h =>
        .inr (SessionState.failOperation_step hr.live hr.answers (fun hc => ?_) h)
      simpa [caller, orderly, hr.state, hr.live] using hc
  | closeSession epoch id incarnation operationId =>
      exact liveStep_reports (.drains operationId .closed) fun _ _ _ hr h =>
        SessionState.closeSession_step hr.live hr.answers h
  | finishSessionCleanup id incarnation kind operationId =>
      exact finishSessionCleanup_stepFor kind operationId
  | upsertPermission epoch id incarnation interactionId request =>
      exact reduceSession_stepFor (fun _ => by simp)
        (upsert_changes .permission interactionId request true) fun hc _ _ _ => hc
  | resolvePermission epoch id incarnation interactionId =>
      exact reduceSession_stepFor (fun _ => by simp)
        (resolvePermission_changes interactionId fun _ _ h => h) fun _ _ _ hk => by cases hk
  | beginPermissionResponse epoch id incarnation interactionId operationId =>
      exact reduceSession_stepFor (fun _ => by simp)
        (respond_changes .permission interactionId operationId) fun _ _ _ hk => by cases hk
  | completePermissionResponse epoch id incarnation interactionId operationId =>
      exact reduceSession_stepFor (fun _ => by simp)
        (resolvePermission_changes interactionId fun _ _ h => (Ledger.complete_eq_ok h).1)
        fun _ _ _ hk => by cases hk
  | upsertElicitation epoch scope interactionId request =>
      refine reduceScope_stepFor scope (fun _ => by simp)
        (upsert_changes .elicitation interactionId request scope.isSome) rfl ?_
      rintro hc _ _ - owner rfl
      exact hc
  | resolveElicitation epoch scope interactionId acceptedUrlId =>
      exact reduceScope_stepFor scope (fun _ => by simp)
        (resolveElicitation_changes interactionId acceptedUrlId fun _ _ h => h) rfl
        fun _ _ _ hk => by cases hk
  | beginElicitationResponse epoch scope interactionId operationId =>
      exact reduceScope_stepFor scope (fun _ => by simp)
        (respond_changes .elicitation interactionId operationId) rfl fun _ _ _ hk => by cases hk
  | completeElicitationResponse epoch scope interactionId operationId acceptedUrlId =>
      exact reduceScope_stepFor scope (fun _ => by simp)
        (resolveElicitation_changes interactionId acceptedUrlId fun _ _ h =>
          (Ledger.complete_eq_ok h).1) rfl fun _ _ _ hk => by cases hk
  | settleUrlRegistration epoch scope elicitationId registrationId status =>
      exact reduceScope_stepFor scope (fun _ => by simp)
        (settleUrlRegistration_changes elicitationId registrationId status) rfl
        fun _ _ _ hk => by cases hk
  | takeEffects => exact absurd rfl hop

end RuntimeOp

end Attyd.Session
