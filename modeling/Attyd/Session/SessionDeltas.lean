import Attyd.Session.DeltaAgreement

/-!
# A local delta against the view of the server

The browser that applies a delta alone agrees with the view of the server unless the operation of a
new interaction is not the one the browser knows, or an older control update hides the new one.
-/

namespace Attyd.Session

open Json (Value)

variable {σ δ : Type}
variable {r r' : SessionRegistry σ δ} {epoch sessionId : String} {incarnation : Nat}
variable {view : BridgeSessionView} {owner : SessionState δ}

/-- The id of a new interaction is a new allocation. -/
def DeltaCall.Allocates (d : Interactions) : DeltaCall → Prop
  | .permission interactionId _ | .elicitation interactionId _ =>
      d.permissions.Unused interactionId ∧ d.elicitations.Unused interactionId
  | _ => True

/-- Whether the view already knows what the delta leaves out. -/
def DeltaCall.Carried (view : BridgeSessionView) (owner : SessionState δ) : DeltaCall → Prop
  | .permission _ _ | .elicitation _ _ =>
      view.activeOperation = owner.turnExecution.map (·.rpcOperationId)
  | .setMode _ modeId => ∀ mode, view.controlMode = some mode → mode = .string modeId
  | .setConfigOption _ _ _ configOptions =>
      ∀ options, view.controlOptions = some options →
        (if options.isArray then options else .array []) = configOptions
  | _ => True

/-- A delta that the browser applies alone agrees with the view of the server exactly when
the browser knows the operation of a new interaction, and no older control update hides
the one that was made. -/
theorem receiveSessionDelta_agrees_iff (hheld : Holds r sessionId view owner) (call : DeltaCall)
    (halloc : ∀ live, owner.live = some live →
      Allocated live.interactions ∧ call.Allocates live.interactions)
    {delta : SessionDelta} (hrun : call.run r epoch sessionId incarnation = (.ok delta, r'))
    {applied : LocalSessionDelta} (happlied : receiveSessionDelta view delta = some applied) :
    ∃ owner', r'.state sessionId = some owner' ∧
      applied.view.viewRevision = owner'.viewRevision ∧
      (applied.view.Agrees owner'.businessView ↔ call.Carried view owner) := by
  have hallocated : ∀ live, owner.live = some live → Allocated live.interactions :=
    fun live hlive => (halloc live hlive).1
  have hremoval : ∀ {interactionId live after}, owner.live = some live →
      Removed interactionId live.interactions after →
      Announced r r' sessionId owner delta (interactionRemove interactionId) live.interactions
        after →
      ∃ owner', r'.state sessionId = some owner' ∧
        applied.view.viewRevision = owner'.viewRevision ∧
        (applied.view.Agrees owner'.businessView ↔ True) := by
    intro interactionId live after hlive hremoved hannounced
    obtain ⟨owner', hstate, hrevision, ha⟩ := hremoved.agrees hlive hannounced hheld happlied
    exact ⟨owner', hstate, hrevision, iff_of_true ha trivial⟩
  cases call with
  | permission interactionId request =>
      exact permission_agrees_iff hheld (fun live hlive => (halloc live hlive).2.1) hrun happlied
  | elicitation interactionId request =>
      exact elicitation_agrees_iff hheld (fun live hlive => (halloc live hlive).2.2) hrun happlied
  | cancelPermission interactionId =>
      obtain ⟨live, after, hlive, hremoved, hannounced⟩ :=
        cancelPermission_removed hheld.state hallocated hrun
      exact hremoval hlive hremoved hannounced
  | cancelElicitation interactionId =>
      obtain ⟨live, after, hlive, hremoved, hannounced⟩ :=
        cancelElicitation_removed hheld.state hallocated hrun
      exact hremoval hlive hremoved hannounced
  | respondPermission interactionId requestId =>
      obtain ⟨live, after, hlive, hremoved, hannounced⟩ :=
        respondPermission_removed hheld.state hallocated hrun
      exact hremoval hlive hremoved hannounced
  | respondElicitation interactionId requestId accepted delivered =>
      have hurl := respondElicitation_no_url hheld hrun happlied
      obtain ⟨live, after, hlive, hremoved, hannounced⟩ :=
        respondElicitation_removed hheld.state hallocated hurl hrun
      exact hremoval hlive hremoved hannounced
  | setMode requestId modeId => exact setMode_agrees_iff hheld hrun happlied
  | setConfigOption requestId configId value configOptions =>
      exact setConfigOption_agrees_iff hheld hrun happlied

section Inputs

/-- A new session whose history is ready. -/
def idleSession : SessionRegistry Unit String :=
  ((SessionRegistry.new "epoch").openNewWithReplay "epoch" "s" "/" (.ofFields []) []).2.registerNew
    "s" 1

/-- The same session with a turn that runs. -/
def runningSession : SessionRegistry Unit String :=
  (idleSession.admitSessionTurn id "epoch" "s" 1 "epoch:1:1" "intent" ⟨[], "[]"⟩).2

def permissionCall : DeltaCall :=
  .permission "p" (.ofFields [("sessionId", .string "s"),
    ("toolCall", .ofFields [("toolCallId", .string "t")]), ("options", .array [])])

/-- A permission that is asked for while no turn runs. -/
theorem receiveSessionDelta_agrees_iff_idle :
    ∃ owner delta applied owner', idleSession.state "s" = some owner ∧
      (permissionCall.run idleSession "epoch" "s" 1).1 = .ok delta ∧
      receiveSessionDelta owner.businessView delta = some applied ∧
      (permissionCall.run idleSession "epoch" "s" 1).2.state "s" = some owner' ∧
      applied.view.viewRevision = owner'.viewRevision ∧
      applied.view.Agrees owner'.businessView := by
  let owner := (idleSession.state "s").get (by decide)
  have hstate : idleSession.state "s" = some owner := (Option.some_get _).symm
  obtain ⟨delta, hdelta⟩ : ∃ delta, (permissionCall.run idleSession "epoch" "s" 1).1 = .ok delta :=
    ⟨_, rfl⟩
  obtain ⟨applied, happlied⟩ : ∃ applied,
      receiveSessionDelta owner.businessView delta = some applied := by
    cases hdelta
    exact ⟨_, rfl⟩
  have hheld : Holds idleSession "s" owner.businessView owner :=
    ⟨hstate, rfl, ⟨rfl, rfl, rfl, rfl, rfl, rfl, rfl⟩, .inr (by decide), fun modes hmodes => by
      cases hmodes⟩
  have hfresh : owner.live.map (·.interactions) = some Interactions.fresh := rfl
  have halloc : ∀ live, owner.live = some live →
      Allocated live.interactions ∧ permissionCall.Allocates live.interactions := by
    intro live hlive
    rw [hlive, Option.map_some, Option.some.injEq] at hfresh
    rw [hfresh]
    have hunused (d : Ledger) (hd : d = ⟨∅, 0⟩) (interactionId : String) :
        d.Unused interactionId := by
      rw [hd]
      exact ⟨Multiset.notMem_zero _, Finmap.lookup_empty _⟩
    exact ⟨⟨Interactions.answered_fresh, fun interactionId => .inl (hunused _ rfl _)⟩,
      hunused _ rfl _, hunused _ rfl _⟩
  obtain ⟨owner', howner', hrevision, hiff⟩ := receiveSessionDelta_agrees_iff hheld permissionCall
    halloc (Prod.ext hdelta rfl) happlied
  exact ⟨owner, delta, applied, owner', hstate, hdelta, happlied, howner', hrevision,
    hiff.mpr rfl⟩

/-- A permission that is asked for by the turn that runs: the browser names the turn after
its operation, the server after the intent of the client. -/
theorem receiveSessionDelta_disagrees_running :
    ∃ owner delta applied owner', runningSession.state "s" = some owner ∧
      (permissionCall.run runningSession "epoch" "s" 1).1 = .ok delta ∧
      receiveSessionDelta owner.businessView delta = some applied ∧
      (permissionCall.run runningSession "epoch" "s" 1).2.state "s" = some owner' ∧
      applied.view.viewRevision = owner'.viewRevision ∧
      ¬applied.view.Agrees owner'.businessView := by
  refine ⟨_, _, _, _, rfl, rfl, rfl, rfl, rfl, fun h => ?_⟩
  have hoperation := congrArg (fun t => (t.lookup "p").map (·.operationId)) h.permissions
  revert hoperation
  decide

end Inputs

end Attyd.Session
