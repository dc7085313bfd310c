import Attyd.Session.Announcements

/-!
# What the browser makes of an announced delta

The browser that holds the view before applies the change alone. For each kind of change the view it
holds afterwards is compared with the one the server would answer with.
-/

namespace Attyd.Session

open Json (Value)

variable {σ δ : Type}
variable {r r' : SessionRegistry σ δ} {epoch sessionId : String} {incarnation : Nat}
variable {view : BridgeSessionView} {owner : SessionState δ}

/-- The browser holds a view of a session that shows what the server would answer. -/
structure Holds (r : SessionRegistry σ δ) (sessionId : String) (view : BridgeSessionView)
    (owner : SessionState δ) : Prop where
  state : r.state sessionId = some owner
  activeOperation : view.activeOperation = owner.activeTurn.map (·.operationId)
  agrees : view.Agrees owner.businessView
  session : view.session = .null ∨ view.session.isObject = true
  modes : ∀ modes, view.modes = some modes → modes.isObject = true

section Browser

variable (view : BridgeSessionView) (interactionId modeId configId : String)
  (request value configOptions : Value) (viewRevision : Nat)

theorem applyLocalSessionDelta_permission :
    applyLocalSessionDelta view (interactionUpsert interactionId "permission" request)
        viewRevision =
      if request.isObject then
        some ⟨{ view with
          viewRevision
          permissions := view.permissions.insert interactionId
            ⟨interactionId, request, view.activeOperation, none⟩ }, none⟩
      else none := by
  cases hobject : request.isObject <;>
    simp [applyLocalSessionDelta, interactionUpsert, upsertInteraction, Value.get_ofFields,
      List.lookup_cons, Value.index, Value.getStr, Value.asStr, Option.filter, hobject]

theorem applyLocalSessionDelta_elicitation :
    applyLocalSessionDelta view (interactionUpsert interactionId "elicitation" request)
        viewRevision =
      if request.isObject then
        some ⟨{ view with
          viewRevision
          elicitations := view.elicitations.insert interactionId
            ⟨interactionId, request, view.activeOperation, none⟩ }, none⟩
      else none := by
  cases hobject : request.isObject <;>
    simp [applyLocalSessionDelta, interactionUpsert, upsertInteraction, Value.get_ofFields,
      List.lookup_cons, Value.index, Value.getStr, Value.asStr, Option.filter, hobject]

theorem applyLocalSessionDelta_remove :
    applyLocalSessionDelta view (interactionRemove interactionId) viewRevision =
      if (view.elicitations.lookup interactionId).any
          (·.request.getStr "mode" = some "url") then none
      else
        some ⟨{ view with
          viewRevision
          permissions := view.permissions.erase interactionId
          elicitations := view.elicitations.erase interactionId }, none⟩ := by
  cases hurl : (view.elicitations.lookup interactionId).any
      (·.request.getStr "mode" = some "url") <;>
    simp [applyLocalSessionDelta, interactionRemove, removeInteraction, Value.get_ofFields,
      List.lookup_cons, Value.getStr, Value.asStr] at hurl ⊢ <;>
    simp [hurl]

theorem applyLocalSessionDelta_mode (hnull : view.session.isNull = false) :
    applyLocalSessionDelta view (modeUpdate modeId) viewRevision =
      view.modes.map fun modes =>
        ⟨{ view with
          viewRevision
          session := view.session.set "modes" (modes.set "currentModeId" (.string modeId))
          operation := operationAfter view .mode }, some .mode⟩ := by
  cases hmodes : view.modes <;>
    simp [applyLocalSessionDelta, modeUpdate, updateControl, settledSession, Value.get_ofFields,
      List.lookup_cons, Value.getStr, Value.asStr, hnull, hmodes]

theorem applyLocalSessionDelta_config (hnull : view.session.isNull = false) :
    applyLocalSessionDelta view (configUpdate configId value configOptions) viewRevision =
      if configOptions.isArray then
        some ⟨{ view with
          viewRevision
          session := view.session.set "configOptions" configOptions
          operation := operationAfter view .config }, some .config⟩
      else none := by
  cases harray : configOptions.isArray <;>
    simp [applyLocalSessionDelta, configUpdate, updateControl, settledSession, Value.get_ofFields,
      List.lookup_cons, hnull, harray, Option.filter]

/-- A control of a view without a session is never settled in place. -/
theorem updateControl_of_isNull (hnull : view.session.isNull = true) (change : Value) :
    updateControl view change = none := by
  unfold updateControl
  rw [if_pos hnull]

end Browser

section Agreement

variable {delta : SessionDelta} {applied : LocalSessionDelta} {live : SessionLiveState}

/-- What the browser applies is the change of a delta that starts at its view. -/
theorem receiveSessionDelta_eq_some (h : receiveSessionDelta view delta = some applied) :
    applyLocalSessionDelta view delta.change delta.viewRevision = some applied := by
  unfold receiveSessionDelta at h
  split at h
  · cases h
  · exact h

theorem businessView_advanceRevision (a : SessionState δ) :
    a.businessView.Agrees a.advanceRevision.businessView := ⟨rfl, rfl, rfl, rfl, rfl, rfl, rfl⟩

theorem Holds.interactions (h : Holds r sessionId view owner) (hlive : owner.live = some live)
    (hfree : owner.stageIn ["cleanup"] = false) :
    view.permissions = live.interactions.permissions.pending ∧
      view.elicitations = live.interactions.elicitations.pending ∧
      owner.businessView.urlFlows = live.interactions.urlFlows.map UrlFlow.shown := by
  have hpermissions := h.agrees.permissions
  have helicitations := h.agrees.elicitations
  simp only [SessionState.businessView, runtime_eq_live hlive hfree, Option.elim_some]
    at hpermissions helicitations ⊢
  exact ⟨hpermissions, helicitations, rfl⟩

/-- A view with other pending interactions against the one the server answers with. -/
theorem Announced.agrees_iff {change : Value} {before after : Interactions}
    (h : Announced r r' sessionId owner delta change before after)
    (hheld : Holds r sessionId view owner)
    (permissions elicitations : Table String PendingInteraction) :
    ∃ owner', r'.state sessionId = some owner' ∧ delta.viewRevision = owner'.viewRevision ∧
      (({ view with viewRevision := delta.viewRevision, permissions, elicitations } :
          BridgeSessionView).Agrees owner'.businessView ↔
        permissions = after.permissions.pending ∧ elicitations = after.elicitations.pending ∧
          owner.businessView.urlFlows = after.urlFlows.map UrlFlow.shown) := by
  obtain ⟨a, hinteracted, hstate, hrevision⟩ := h.left
  refine ⟨a.advanceRevision, hstate, hrevision, ?_⟩
  rw [← agrees_withInteractions_iff hheld.agrees after permissions elicitations
    delta.viewRevision]
  have hshown := (businessView_advanceRevision a).symm.trans (hinteracted.businessView h.free)
  exact ⟨fun ha => ha.trans hshown, fun ha => ha.trans hshown.symm⟩

/-- Two tables with one new entry agree when the entries do. -/
theorem insert_eq_insert_iff {t : Table String PendingInteraction} {key : String}
    {a b : PendingInteraction} : t.insert key a = t.insert key b ↔ a = b := by
  constructor
  · intro h
    have hkey := congrArg (Finmap.lookup key) h
    rw [Finmap.lookup_insert, Finmap.lookup_insert] at hkey
    exact Option.some.inj hkey
  · rintro rfl
    rfl

/-- A removal is applied exactly as the server made it. -/
theorem Removed.agrees {interactionId : String} {after : Interactions}
    (h : Removed interactionId live.interactions after) (hlive : owner.live = some live)
    (hannounced : Announced r r' sessionId owner delta (interactionRemove interactionId)
      live.interactions after)
    (hheld : Holds r sessionId view owner) (happlied : receiveSessionDelta view delta = some applied) :
    ∃ owner', r'.state sessionId = some owner' ∧
      applied.view.viewRevision = owner'.viewRevision ∧
      applied.view.Agrees owner'.businessView := by
  have hlocal := receiveSessionDelta_eq_some happlied
  rw [hannounced.change, applyLocalSessionDelta_remove] at hlocal
  split at hlocal
  · cases hlocal
  · cases hlocal
    obtain ⟨hpermissions, helicitations, hurlFlows⟩ := hheld.interactions hlive hannounced.free
    obtain ⟨owner', hstate, hrevision, hiff⟩ := hannounced.agrees_iff hheld
      (view.permissions.erase interactionId) (view.elicitations.erase interactionId)
    refine ⟨owner', hstate, hrevision, hiff.mpr ⟨?_, ?_, ?_⟩⟩
    · rw [hpermissions, h.permissions]
    · rw [helicitations, h.elicitations]
    · rw [hurlFlows, h.urlFlows]

end Agreement

section Upserts

variable {delta : SessionDelta} {applied : LocalSessionDelta}
  {interactionId : String} {request : Value}

/-- A new permission agrees when the browser knows the operation that asks for it. -/
theorem permission_agrees_iff (hheld : Holds r sessionId view owner)
    (hunused : ∀ live, owner.live = some live → live.interactions.permissions.Unused interactionId)
    (hrun : (DeltaCall.permission interactionId request).run r epoch sessionId incarnation =
      (.ok delta, r'))
    (happlied : receiveSessionDelta view delta = some applied) :
    ∃ owner', r'.state sessionId = some owner' ∧
      applied.view.viewRevision = owner'.viewRevision ∧
      (applied.view.Agrees owner'.businessView ↔
        view.activeOperation = owner.turnExecution.map (·.rpcOperationId)) := by
  obtain ⟨live, answer, after, publishes, hlive, hchange, hannounced⟩ :=
    announce_reduceScope hheld.state hrun
  rw [Ledger.upsert_of_unused (hunused live hlive)] at hchange
  cases hchange
  have hlocal := receiveSessionDelta_eq_some happlied
  rw [hannounced.change, applyLocalSessionDelta_permission] at hlocal
  split at hlocal
  · cases hlocal
    obtain ⟨hpermissions, helicitations, hurlFlows⟩ := hheld.interactions hlive hannounced.free
    obtain ⟨owner', hstate, hrevision, hiff⟩ := hannounced.agrees_iff hheld
      (view.permissions.insert interactionId
        ⟨interactionId, request, view.activeOperation, none⟩) view.elicitations
    refine ⟨owner', hstate, hrevision, hiff.trans ?_⟩
    rw [hpermissions, insert_eq_insert_iff]
    exact ⟨fun h => congrArg PendingInteraction.operationId h.1,
      fun h => ⟨by rw [h], helicitations, hurlFlows⟩⟩
  · cases hlocal

theorem elicitation_agrees_iff (hheld : Holds r sessionId view owner)
    (hunused : ∀ live, owner.live = some live →
      live.interactions.elicitations.Unused interactionId)
    (hrun : (DeltaCall.elicitation interactionId request).run r epoch sessionId incarnation =
      (.ok delta, r'))
    (happlied : receiveSessionDelta view delta = some applied) :
    ∃ owner', r'.state sessionId = some owner' ∧
      applied.view.viewRevision = owner'.viewRevision ∧
      (applied.view.Agrees owner'.businessView ↔
        view.activeOperation = owner.turnExecution.map (·.rpcOperationId)) := by
  obtain ⟨live, answer, after, publishes, hlive, hchange, hannounced⟩ :=
    announce_reduceScope hheld.state hrun
  rw [Ledger.upsert_of_unused (hunused live hlive)] at hchange
  cases hchange
  have hlocal := receiveSessionDelta_eq_some happlied
  rw [hannounced.change, applyLocalSessionDelta_elicitation] at hlocal
  split at hlocal
  · cases hlocal
    obtain ⟨hpermissions, helicitations, hurlFlows⟩ := hheld.interactions hlive hannounced.free
    obtain ⟨owner', hstate, hrevision, hiff⟩ := hannounced.agrees_iff hheld view.permissions
      (view.elicitations.insert interactionId
        ⟨interactionId, request, view.activeOperation, none⟩)
    refine ⟨owner', hstate, hrevision, hiff.trans ?_⟩
    rw [helicitations, insert_eq_insert_iff]
    exact ⟨fun h => congrArg PendingInteraction.operationId h.2.1,
      fun h => ⟨hpermissions, by rw [h], hurlFlows⟩⟩
  · cases hlocal

/-- Where the browser applies the removal, the elicitation asked for no URL. -/
theorem respondElicitation_no_url {requestId : String} {accepted delivered : Bool}
    (hheld : Holds r sessionId view owner)
    (hrun : (DeltaCall.respondElicitation interactionId requestId accepted delivered).run r epoch
      sessionId incarnation = (.ok delta, r'))
    (happlied : receiveSessionDelta view delta = some applied) :
    urlElicitationId (pendingElicitation r sessionId interactionId) = none := by
  have hlocal := receiveSessionDelta_eq_some happlied
  unfold DeltaCall.run at hrun
  dsimp only at hrun
  split at hrun
  · cases hrun
  · rename_i started middle hstarted
    obtain ⟨owner', live, -, -, -, hr, -⟩ := reduceScope_eq_ok hstarted
    cases Option.some.inj (hheld.state.symm.trans hr.state)
    obtain ⟨-, -, -, -, -, -, hchange, -⟩ := announce_eq_ok hrun
    obtain ⟨-, helicitations, -⟩ := hheld.interactions hr.live hr.stageIn
    rw [hchange, applyLocalSessionDelta_remove] at hlocal
    split at hlocal
    · cases hlocal
    · rename_i hurl
      unfold pendingElicitation urlElicitationId
      simp only [hheld.state, hr.live, Option.bind_some]
      cases hpending : live.elicitations.lookup interactionId with
      | none => rfl
      | some pending =>
          have hfound : view.elicitations.lookup interactionId = some pending := by
            rw [helicitations]
            exact hpending
          simp only [hfound, Option.any_some, decide_eq_true_eq] at hurl
          exact if_neg hurl

end Upserts

section Controls

variable {delta : SessionDelta} {applied : LocalSessionDelta} {operationId : String}

/-- A control operation that ended, and its announcement. -/
theorem announce_control {key : String} {kind : SessionOperationKind} {update change : Value}
    (hheld : Holds r sessionId view owner)
    (h : SessionRegistry.announce
      (r.completeControlOperation epoch sessionId incarnation operationId kind key update)
      sessionId incarnation change = (.ok delta, r')) :
    ∃ live owner', Reducing r sessionId incarnation owner live ∧
      owner.runs operationId kind = true ∧ r'.state sessionId = some owner' ∧
      delta.change = change ∧ delta.viewRevision = owner'.viewRevision ∧
      ({ owner.businessView with
        controls := live.controlState.insert key update
        operation := none } : BridgeSessionView).Agrees owner'.businessView := by
  obtain ⟨_, done, a, houtcome, hdone, hstate, hchange, hrevision⟩ := announce_eq_ok h
  obtain ⟨owner', live, owner'', live', hr, hruns, hleft, hlive', hoperation, -, hinteractions,
    hsession, hcontrols⟩ := completeControlOperation_eq_ok houtcome
  cases Option.some.inj (hheld.state.symm.trans hr.state)
  cases Option.some.inj (hdone.symm.trans hleft)
  refine ⟨live, _, hr, hruns, hstate, hchange, hrevision, ?_⟩
  have hstage : a.stageIn ["cleanup"] = false := by
    unfold SessionState.stageIn
    rw [hoperation]
    rfl
  have hpermissions := congrArg (·.permissions.pending) hinteractions
  have helicitations := congrArg (·.elicitations.pending) hinteractions
  have hurlFlows := congrArg (·.urlFlows) hinteractions
  simp only [SessionLiveState.interactions] at hpermissions helicitations hurlFlows
  refine BridgeSessionView.Agrees.trans ?_ (businessView_advanceRevision a)
  have hruntime := runtime_eq_live hr.live hr.stageIn
  have hruntime' := runtime_eq_live hlive' hstage
  constructor <;>
    simp [SessionState.businessView, BridgeSessionView.modes, BridgeSessionView.currentModeId,
      BridgeSessionView.controlMode, BridgeSessionView.configOptions,
      BridgeSessionView.controlOptions, hruntime, hruntime', hpermissions, helicitations,
      hurlFlows, hsession, hcontrols, hoperation]

/-- The browser knows that the operation which set a control has ended. -/
theorem operationAfter_eq_none {kind : SessionOperationKind} (control : SessionControlKind)
    (hkind : kind.text = "set_" ++ control.text) (hruns : owner.runs operationId kind = true)
    (hoperation : view.operation = owner.operation) : operationAfter view control = none := by
  unfold operationAfter
  rw [hoperation]
  unfold SessionState.runs at hruns
  cases ho : owner.operation with
  | none => rfl
  | some operation =>
      rw [ho, Option.any_some, Bool.and_eq_true, decide_eq_true_eq, decide_eq_true_eq] at hruns
      simp [Option.filter, hruns.2, hkind]

end Controls

section Main

variable {delta : SessionDelta} {applied : LocalSessionDelta} {requestId : String}

/-- A member that is written leaves the others. -/
theorem remove_set_self {v : Value} (hv : v.isObject = true) (key : String) (x : Value) :
    (v.set key x).remove key = v.remove key := by
  refine Value.eq_of_get (by simpa using hv) (by simpa using hv) fun name => ?_
  by_cases he : name = key
  · simp [Value.get_remove, he]
  · simp [Value.get_remove, he]

/-- A mode that was set agrees unless an older control update hides it. -/
theorem setMode_agrees_iff {modeId : String} (hheld : Holds r sessionId view owner)
    (hrun : (DeltaCall.setMode requestId modeId).run r epoch sessionId incarnation =
      (.ok delta, r'))
    (happlied : receiveSessionDelta view delta = some applied) :
    ∃ owner', r'.state sessionId = some owner' ∧
      applied.view.viewRevision = owner'.viewRevision ∧
      (applied.view.Agrees owner'.businessView ↔
        ∀ mode, view.controlMode = some mode → mode = .string modeId) := by
  obtain ⟨live, owner', hr, hruns, hstate, hchange, hrevision, hshown⟩ :=
    announce_control hheld hrun
  have hlocal := receiveSessionDelta_eq_some happlied
  rw [hchange] at hlocal
  have hnull : view.session.isNull = false := by
    by_contra hnull
    rw [Bool.not_eq_false] at hnull
    simp [applyLocalSessionDelta, modeUpdate, Value.get_ofFields, List.lookup_cons,
      updateControl_of_isNull view hnull] at hlocal
  have hsession : view.session.isObject = true := by
    rcases hheld.session with h | h
    · rw [h] at hnull
      cases hnull
    · exact h
  rw [applyLocalSessionDelta_mode _ _ _ hnull, Option.map_eq_some_iff] at hlocal
  obtain ⟨modes, hmodes, rfl⟩ := hlocal
  have hobject := hheld.modes modes hmodes
  have hset : ((view.session.set "modes" (modes.set "currentModeId" (.string modeId))).get
      "modes").filter (!·.isNull) = some (modes.set "currentModeId" (.string modeId)) := by
    rw [Value.get_set_self hsession]
    cases modes with
    | object keys field => rfl
    | _ => cases hobject
  have hview := hheld.agrees
  have hruntime := runtime_eq_live hr.live hr.stageIn
  have hoperation : view.operation = owner.operation := by
    rw [hview.operation]
    simp [SessionState.businessView, hruntime]
  have hafter := operationAfter_eq_none .mode rfl hruns hoperation
  have hmode : ∀ mode : Option Value,
      (mode.or (some (.string modeId))).bind Value.asStr = some modeId ↔
        ∀ v, mode = some v → v = .string modeId := by
    intro mode
    cases mode with
    | none => simp [Value.asStr]
    | some v => cases v <;> simp [Value.asStr]
  refine ⟨owner', hstate, hrevision, ?_⟩
  rw [← hmode view.controlMode]
  constructor
  · intro ha
    have := (ha.trans hshown.symm).currentModeId
    simpa [BridgeSessionView.currentModeId, BridgeSessionView.controlMode,
      BridgeSessionView.modes, hset, Value.get_set_self hobject, Value.get_ofFields, List.lookup_cons,
      Value.asStr] using this
  · intro hcurrent
    refine BridgeSessionView.Agrees.trans ?_ hshown
    refine ⟨hview.permissions, hview.elicitations, hview.urlFlows, ?_, ?_, ?_, hafter⟩
    · have := hview.modes
      simp only [hmodes, Option.map_some] at this
      simpa [BridgeSessionView.modes, hset, remove_set_self hobject] using this
    · simpa [BridgeSessionView.currentModeId, BridgeSessionView.controlMode,
        BridgeSessionView.modes, hset, Value.get_set_self hobject, Value.get_ofFields,
        List.lookup_cons, Value.asStr] using hcurrent
    · have := hview.configOptions
      simpa [BridgeSessionView.configOptions, BridgeSessionView.controlOptions,
        SessionState.businessView, hruntime] using this

/-- Options that were set agree unless an older control update hides them. -/
theorem setConfigOption_agrees_iff {configId : String} {value configOptions : Value}
    (hheld : Holds r sessionId view owner)
    (hrun : (DeltaCall.setConfigOption requestId configId value configOptions).run r epoch
      sessionId incarnation = (.ok delta, r'))
    (happlied : receiveSessionDelta view delta = some applied) :
    ∃ owner', r'.state sessionId = some owner' ∧
      applied.view.viewRevision = owner'.viewRevision ∧
      (applied.view.Agrees owner'.businessView ↔
        ∀ options, view.controlOptions = some options →
          (if options.isArray then options else .array []) = configOptions) := by
  obtain ⟨live, owner', hr, hruns, hstate, hchange, hrevision, hshown⟩ :=
    announce_control hheld hrun
  have hlocal := receiveSessionDelta_eq_some happlied
  rw [hchange] at hlocal
  have hnull : view.session.isNull = false := by
    by_contra hnull
    rw [Bool.not_eq_false] at hnull
    simp [applyLocalSessionDelta, configUpdate, Value.get_ofFields, List.lookup_cons,
      updateControl_of_isNull view hnull] at hlocal
  have hsession : view.session.isObject = true := by
    rcases hheld.session with h | h
    · rw [h] at hnull
      cases hnull
    · exact h
  rw [applyLocalSessionDelta_config _ _ _ _ _ hnull] at hlocal
  cases harray : configOptions.isArray with
  | false => simp [harray] at hlocal
  | true =>
      rw [harray, if_pos rfl] at hlocal
      cases hlocal
      have hview := hheld.agrees
      have hruntime := runtime_eq_live hr.live hr.stageIn
      have hoperation : view.operation = owner.operation := by
        rw [hview.operation]
        simp [SessionState.businessView, hruntime]
      have hafter := operationAfter_eq_none .config rfl hruns hoperation
      have hoptions : ∀ options : Option Value,
          ((options.or (some configOptions)).filter Value.isArray).getD (.array []) =
              configOptions ↔
            ∀ v, options = some v →
              (if v.isArray then v else .array []) = configOptions := by
        intro options
        cases options with
        | none => simp [Option.filter, harray]
        | some v => cases hv : v.isArray <;> simp [Option.filter, hv]
      refine ⟨owner', hstate, hrevision, ?_⟩
      rw [← hoptions view.controlOptions]
      constructor
      · intro ha
        have := (ha.trans hshown.symm).configOptions
        simpa [BridgeSessionView.configOptions, BridgeSessionView.controlOptions,
          Value.get_set_self hsession, Value.get_ofFields, List.lookup_cons, Option.filter, harray]
          using this
      · intro hcurrent
        refine BridgeSessionView.Agrees.trans ?_ hshown
        refine ⟨hview.permissions, hview.elicitations, hview.urlFlows, ?_, ?_, ?_, hafter⟩
        · have := hview.modes
          simpa [BridgeSessionView.modes, SessionState.businessView, hruntime] using this
        · have := hview.currentModeId
          simpa [BridgeSessionView.currentModeId, BridgeSessionView.controlMode,
            BridgeSessionView.modes, SessionState.businessView, hruntime] using this
        · simpa [BridgeSessionView.configOptions, BridgeSessionView.controlOptions,
            Value.get_set_self hsession, Value.get_ofFields, List.lookup_cons, Option.filter, harray]
            using hcurrent

end Main

end Attyd.Session
