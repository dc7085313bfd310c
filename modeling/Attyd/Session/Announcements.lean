import Attyd.Session.BrowserViews
import Attyd.Session.BoardAccounts

/-!
# What a call that announces a delta leaves

The server makes a change, counts a revision of the view and announces the change. Each call is
brought to what it leaves of the live side: the interactions of the session have changed, and
nothing else that its view shows.
-/

namespace Attyd.Session

open Json (Value)

variable {σ δ : Type}
variable {r r' : SessionRegistry σ δ} {epoch sessionId : String} {incarnation : Nat}
variable {view : BridgeSessionView} {owner : SessionState δ}

section Server

/-- The interactions of a session have changed, and nothing else that its view shows. -/
structure Interacted (a b : SessionState δ) (before after : Interactions) : Prop where
  live : ∃ l l', a.live = some l ∧ b.live = some l' ∧ l.interactions = before ∧
    l'.interactions = after ∧ l'.session = l.session ∧ l'.controlState = l.controlState ∧
    l'.lifecycle = l.lifecycle
  operation : b.operation = a.operation
  activeTurn : b.activeTurn = a.activeTurn
  viewRevision : b.viewRevision = a.viewRevision

theorem Interacted.trans {a b c : SessionState δ} {d d' d'' : Interactions}
    (h : Interacted a b d d') (h' : Interacted b c d' d'') : Interacted a c d d'' := by
  obtain ⟨l, m, hl, hm, hd, -, hsession, hcontrol, hlifecycle⟩ := h.live
  obtain ⟨m', n, hm', hn, -, hd'', hsession', hcontrol', hlifecycle'⟩ := h'.live
  cases Option.some.inj (hm.symm.trans hm')
  exact ⟨⟨l, n, hl, hn, hd, hd'', hsession'.trans hsession, hcontrol'.trans hcontrol,
      hlifecycle'.trans hlifecycle⟩,
    h'.operation.trans h.operation, h'.activeTurn.trans h.activeTurn,
    h'.viewRevision.trans h.viewRevision⟩

theorem state_applyReduction (h : r.state sessionId = some owner) (reduction : Reduction δ) :
    (r.applyReduction sessionId reduction).state sessionId =
      some (if reduction.publishes then reduction.owner.commitLive else reduction.owner) :=
  (written_putState h _).state

/-- A change of the interactions of a session that is not refused. -/
theorem reduceScope_eq_ok {α : Type} {answer : α}
    {change : Option String → Interactions → Except RuntimeStateError (α × Interactions × Bool)}
    (h : r.reduceScope epoch (some (sessionId, incarnation)) change = (.ok answer, r')) :
    ∃ owner live owner' interactions publishes, Reducing r sessionId incarnation owner live ∧
      change (owner.turnExecution.map (·.rpcOperationId)) live.interactions =
        .ok (answer, interactions, publishes) ∧
      r'.state sessionId = some owner' ∧
      Interacted owner owner' live.interactions interactions := by
  dsimp only [SessionRegistry.reduceScope] at h
  rcases reduceLive_cases r epoch sessionId incarnation (.ok ()) _ with
    ⟨error, he⟩ | ⟨owner, live, answer', reduction, -, hr, hchange, he⟩
  · rw [he] at h
    cases h
  · rw [he] at h
    cases h
    obtain ⟨⟨answer, interactions, publishes⟩, hreduced, hchange⟩ := bind_eq_ok.mp hchange
    cases hchange
    refine ⟨owner, live, _, interactions, publishes, hr, hreduced,
      state_applyReduction hr.state _, ?_⟩
    cases publishes with
    | false => exact ⟨⟨live, _, hr.live, rfl, rfl, rfl, rfl, rfl, rfl⟩, rfl, rfl, rfl⟩
    | true => exact ⟨⟨live, _, hr.live, rfl, rfl, rfl, rfl, rfl, rfl⟩, rfl, rfl, rfl⟩

/-- What is announced was done, and the view has advanced by one revision. -/
theorem announce_eq_ok {α : Type} {outcome : Except RuntimeStateError α × SessionRegistry σ δ}
    {change : Value} {delta : SessionDelta}
    (h : SessionRegistry.announce outcome sessionId incarnation change = (.ok delta, r')) :
    ∃ answer done a, outcome = (.ok answer, done) ∧ done.state sessionId = some a ∧
      r'.state sessionId = some a.advanceRevision ∧ delta.change = change ∧
      delta.viewRevision = a.advanceRevision.viewRevision := by
  obtain ⟨answer | error, done⟩ := outcome
  · cases h
  · change done.advanceSessionDelta sessionId incarnation change = _ at h
    unfold SessionRegistry.advanceSessionDelta SessionRegistry.touch at h
    cases hs : done.requireState sessionId incarnation with
    | error error =>
        simp only [hs] at h
        cases h
    | ok a =>
        simp only [hs] at h
        cases h
        obtain ⟨hstate, -⟩ := requireState_eq_ok.mp hs
        exact ⟨_, done, a, rfl, hstate, (written_putState hstate _).state, rfl, rfl⟩

/-- A control operation that is completed: its update is kept, and the session is free. -/
theorem completeControlOperation_eq_ok {operationId key : String} {kind : SessionOperationKind}
    {update : Value} {answer : Unit}
    (h : r.completeControlOperation epoch sessionId incarnation operationId kind key update =
      (.ok answer, r')) :
    ∃ owner live owner' live', Reducing r sessionId incarnation owner live ∧
      owner.runs operationId kind = true ∧ r'.state sessionId = some owner' ∧
      owner'.live = some live' ∧ owner'.operation = none ∧
      owner'.viewRevision = owner.viewRevision ∧ live'.interactions = live.interactions ∧
      live'.session = live.session ∧
      live'.controlState = live.controlState.insert key update := by
  unfold SessionRegistry.completeControlOperation SessionRegistry.liveStep at h
  rcases reduceLive_cases r epoch sessionId incarnation _ _ with
    ⟨error, he⟩ | ⟨owner, live, answer', reduction, -, hr, hchange, he⟩
  · rw [he] at h
    cases h
  · rw [he] at h
    cases h
    obtain ⟨reduced, hreduced, hchange⟩ := bind_eq_ok.mp hchange
    cases hchange
    unfold SessionState.completeControlOperation at hreduced
    rw [ite_error_eq_ok, Bool.not_eq_false] at hreduced
    obtain ⟨hruns, hreduced⟩ := hreduced
    cases hreduced
    exact ⟨owner, live, _, _, hr, hruns, state_applyReduction hr.state _, rfl, rfl, rfl, rfl, rfl,
      rfl⟩

end Server

section Views

theorem BridgeSessionView.Agrees.trans {a b c : BridgeSessionView} (h : a.Agrees b)
    (h' : b.Agrees c) : a.Agrees c :=
  ⟨h.permissions.trans h'.permissions, h.elicitations.trans h'.elicitations,
    h.urlFlows.trans h'.urlFlows, h.modes.trans h'.modes, h.currentModeId.trans h'.currentModeId,
    h.configOptions.trans h'.configOptions, h.operation.trans h'.operation⟩

theorem BridgeSessionView.Agrees.symm {a b : BridgeSessionView} (h : a.Agrees b) : b.Agrees a :=
  ⟨h.permissions.symm, h.elicitations.symm, h.urlFlows.symm, h.modes.symm,
    h.currentModeId.symm, h.configOptions.symm, h.operation.symm⟩

/-- The view with other interactions. -/
def BridgeSessionView.withInteractions (view : BridgeSessionView) (d : Interactions) :
    BridgeSessionView :=
  { view with
    permissions := d.permissions.pending
    elicitations := d.elicitations.pending
    urlFlows := d.urlFlows.map UrlFlow.shown }

theorem Reducing.stageIn {live : SessionLiveState}
    (h : Reducing r sessionId incarnation owner live) : owner.stageIn ["cleanup"] = false := by
  unfold SessionState.stageIn
  cases ho : owner.operation with
  | none => rfl
  | some operation => simpa using h.answers operation ho

theorem runtime_eq_live {live : SessionLiveState} (hlive : owner.live = some live)
    (hstage : owner.stageIn ["cleanup"] = false) : owner.runtime = some live := by
  simp [SessionState.runtime, hlive, hstage]

/-- Only the interactions of the view change with those of the session. -/
theorem Interacted.businessView {a b : SessionState δ} {d d' : Interactions}
    (h : Interacted a b d d') (ha : a.stageIn ["cleanup"] = false) :
    b.businessView.Agrees (a.businessView.withInteractions d') := by
  obtain ⟨l, l', hl, hl', -, rfl, hsession, hcontrol, -⟩ := h.live
  have hb : b.stageIn ["cleanup"] = false := by
    rw [← ha]
    unfold SessionState.stageIn
    rw [h.operation]
  have hra := runtime_eq_live hl ha
  have hrb := runtime_eq_live hl' hb
  have hsessions : b.businessView.session = a.businessView.session := by
    simp [SessionState.businessView, hra, hrb, hsession]
  have hcontrols : b.businessView.controls = a.businessView.controls := by
    simp [SessionState.businessView, hra, hrb, hcontrol]
  refine ⟨?_, ?_, ?_, ?_, ?_, ?_, ?_⟩
  · simp [SessionState.businessView, BridgeSessionView.withInteractions, hrb,
      SessionLiveState.interactions]
  · simp [SessionState.businessView, BridgeSessionView.withInteractions, hrb,
      SessionLiveState.interactions]
  · simp [SessionState.businessView, BridgeSessionView.withInteractions, hrb,
      SessionLiveState.interactions]
  · simp only [BridgeSessionView.modes, hsessions, BridgeSessionView.withInteractions]
  · simp only [BridgeSessionView.currentModeId, BridgeSessionView.controlMode,
      BridgeSessionView.modes, hsessions, hcontrols, BridgeSessionView.withInteractions]
  · simp only [BridgeSessionView.configOptions, BridgeSessionView.controlOptions, hsessions,
      hcontrols, BridgeSessionView.withInteractions]
  · simp [SessionState.businessView, BridgeSessionView.withInteractions, hra, hrb, h.operation]

theorem agrees_withInteractions_iff (h : view.Agrees owner.businessView) (d : Interactions)
    (permissions elicitations : Table String PendingInteraction) (viewRevision : Nat) :
    ({ view with viewRevision, permissions, elicitations } : BridgeSessionView).Agrees
        (owner.businessView.withInteractions d) ↔
      permissions = d.permissions.pending ∧ elicitations = d.elicitations.pending ∧
        owner.businessView.urlFlows = d.urlFlows.map UrlFlow.shown := by
  constructor
  · intro ha
    exact ⟨ha.permissions, ha.elicitations, h.urlFlows.symm.trans ha.urlFlows⟩
  · rintro ⟨rfl, rfl, hurlFlows⟩
    exact ⟨rfl, rfl, h.urlFlows.trans hurlFlows, h.modes, h.currentModeId, h.configOptions,
      h.operation⟩

end Views

/-- An id that no interaction of the kind has, pending or resolved. -/
def Ledger.Unused (d : Ledger) (interactionId : String) : Prop :=
  interactionId ∉ d.resolved ∧ d.pending.lookup interactionId = none

/-- Every request of the agent allocates its own id, so permissions and elicitations share
none. -/
structure Allocated (d : Interactions) : Prop where
  answered : d.Answered
  apart : ∀ interactionId,
    d.permissions.Unused interactionId ∨ d.elicitations.Unused interactionId

section Ledgers

variable {d d' : Ledger} {interactionId operationId : String} {value : Value}

theorem Ledger.upsert_of_unused (h : d.Unused interactionId) (request : Value)
    (active : Option String) (compares : Bool) :
    d.upsert interactionId request active compares = .ok (.inserted, { d with
      pending := d.pending.insert interactionId ⟨interactionId, request, active, none⟩ }) := by
  simp [Ledger.upsert, h.1, h.2]

theorem Ledger.erase_of_unused (h : d.Unused interactionId) :
    d.pending.erase interactionId = d.pending :=
  Table.erase_of_lookup_none h.2

/-- Resolving an interaction leaves it pending in no case. -/
theorem Ledger.resolve_pending {refused : Bool} {answer : InteractionResolution}
    (hanswered : ∀ id, id ∈ d.resolved → d.pending.lookup id = none)
    (h : d.resolve interactionId refused = .ok (answer, value, d')) :
    d'.pending = d.pending.erase interactionId ∧ ¬d.Unused interactionId := by
  rcases Ledger.resolve_eq_ok h with ⟨-, hold, rfl⟩ | ⟨pending, -, -, -, hpending, -, rfl⟩
  · exact ⟨(Table.erase_of_lookup_none (hanswered _ hold)).symm, fun hunused => hunused.1 hold⟩
  · exact ⟨rfl, fun hunused => by simp [hunused.2] at hpending⟩

/-- A response that begins changes no other interaction. -/
theorem Ledger.respond_pending {inUse : Bool} {answer : InteractionResponseStart}
    (h : d.respond interactionId operationId inUse = .ok (answer, d')) :
    d'.pending.erase interactionId = d.pending.erase interactionId ∧ d'.resolved = d.resolved ∧
      ∃ pending, d.pending.lookup interactionId = some pending := by
  have hfound : ∃ pending, d.pending.lookup interactionId = some pending := by
    unfold Ledger.respond at h
    cases hp : d.pending.lookup interactionId with
    | none => simp [hp] at h
    | some pending => exact ⟨pending, rfl⟩
  rcases Ledger.respond_eq_ok h with ⟨-, rfl⟩ | ⟨pending, -, -, -, -, rfl⟩
  · exact ⟨rfl, rfl, hfound⟩
  · refine ⟨?_, rfl, hfound⟩
    apply Finmap.ext_lookup
    intro id
    by_cases he : id = interactionId
    · rw [he, Finmap.lookup_erase, Finmap.lookup_erase]
    · rw [Finmap.lookup_erase_ne he, Finmap.lookup_erase_ne he, Finmap.lookup_insert_of_ne _ he]

/-- A response that is completed takes the interaction out. -/
theorem Ledger.complete_pending {inUse refused : Bool} {started : InteractionResponseStart}
    {answer : InteractionResolution} {d'' : Ledger}
    (hanswered : ∀ id, id ∈ d.resolved → d.pending.lookup id = none)
    (hstart : d.respond interactionId operationId inUse = .ok (started, d'))
    (h : d'.complete interactionId operationId refused = .ok (answer, value, d'')) :
    d''.pending = d.pending.erase interactionId ∧ ¬d.Unused interactionId := by
  obtain ⟨herase, hresolved, pending, hpending⟩ := Ledger.respond_pending hstart
  have hnew : interactionId ∉ d'.resolved := by
    rw [hresolved]
    intro hmem
    simp [hanswered _ hmem] at hpending
  rcases Ledger.resolve_eq_ok (Ledger.complete_eq_ok h).1 with
    ⟨-, hold, -⟩ | ⟨_, -, -, -, -, -, rfl⟩
  · exact absurd hold hnew
  · exact ⟨herase, fun hunused => by simp [hunused.2] at hpending⟩

end Ledgers

section Runs

/-- What a call has left of the interactions of a session, and what it has announced. -/
structure Announced (r r' : SessionRegistry σ δ) (sessionId : String) (owner : SessionState δ)
    (delta : SessionDelta) (change : Value) (before after : Interactions) : Prop where
  change : delta.change = change
  free : owner.stageIn ["cleanup"] = false
  left : ∃ a, Interacted owner a before after ∧ r'.state sessionId = some a.advanceRevision ∧
    delta.viewRevision = a.advanceRevision.viewRevision

variable {value : Value} {delta : SessionDelta}

/-- A change of the interactions of a session, and its announcement. -/
theorem announce_reduceScope {α : Type}
    {change : Option String → Interactions → Except RuntimeStateError (α × Interactions × Bool)}
    (hs : r.state sessionId = some owner)
    (h : SessionRegistry.announce (r.reduceScope epoch (some (sessionId, incarnation)) change)
      sessionId incarnation value = (.ok delta, r')) :
    ∃ live answer after publishes, owner.live = some live ∧
      change (owner.turnExecution.map (·.rpcOperationId)) live.interactions =
        .ok (answer, after, publishes) ∧
      Announced r r' sessionId owner delta value live.interactions after := by
  obtain ⟨answer, done, a, houtcome, hdone, hstate, hchange, hrevision⟩ := announce_eq_ok h
  obtain ⟨owner', live, owner'', after, publishes, hr, hreduced, hleft, hinteracted⟩ :=
    reduceScope_eq_ok houtcome
  cases Option.some.inj (hs.symm.trans hr.state)
  cases Option.some.inj (hdone.symm.trans hleft)
  exact ⟨live, answer, after, publishes, hr.live, hreduced, hchange, hr.stageIn, _, hinteracted,
    hstate, hrevision⟩

/-- Two changes of the interactions, and the announcement of the second. -/
theorem announce_reduceScope_after {α β : Type} {started : α} {middle : SessionRegistry σ δ}
    {first : Option String → Interactions → Except RuntimeStateError (α × Interactions × Bool)}
    {second : Option String → Interactions → Except RuntimeStateError (β × Interactions × Bool)}
    (hs : r.state sessionId = some owner)
    (hfirst : r.reduceScope epoch (some (sessionId, incarnation)) first = (.ok started, middle))
    (h : SessionRegistry.announce
      (middle.reduceScope epoch (some (sessionId, incarnation)) second)
      sessionId incarnation value = (.ok delta, r')) :
    ∃ live active between publishes answer after publishes', owner.live = some live ∧
      first (owner.turnExecution.map (·.rpcOperationId)) live.interactions =
        .ok (started, between, publishes) ∧
      second active between = .ok (answer, after, publishes') ∧
      Announced r r' sessionId owner delta value live.interactions after := by
  obtain ⟨owner', live, a, between, publishes, hr, hreduced, hmiddle, hinteracted⟩ :=
    reduceScope_eq_ok hfirst
  cases Option.some.inj (hs.symm.trans hr.state)
  obtain ⟨live', answer, after, publishes', hlive', hsecond, hannounced⟩ :=
    announce_reduceScope hmiddle h
  obtain ⟨_, l, _, hl, _, hbetween, _⟩ := hinteracted.live
  cases Option.some.inj (hl.symm.trans hlive')
  rw [hbetween] at hsecond hannounced
  obtain ⟨c, hafter, hstate, hrevision⟩ := hannounced.left
  exact ⟨live, _, between, publishes, answer, after, publishes', hr.live, hreduced, hsecond,
    hannounced.change, hr.stageIn, c, hinteracted.trans hafter, hstate, hrevision⟩

end Runs

section Removals

variable {value : Value} {delta : SessionDelta} {interactionId requestId : String}

/-- The interactions once one of them is out, when no URL is accepted. -/
structure Removed (interactionId : String) (d d' : Interactions) : Prop where
  permissions : d'.permissions.pending = d.permissions.pending.erase interactionId
  elicitations : d'.elicitations.pending = d.elicitations.pending.erase interactionId
  urlFlows : d'.urlFlows = d.urlFlows

theorem Allocated.permission_removed {d d' : Interactions} (h : Allocated d)
    (hremoved : d'.permissions.pending = d.permissions.pending.erase interactionId ∧
      ¬d.permissions.Unused interactionId)
    (helicitations : d'.elicitations = d.elicitations) (hurlFlows : d'.urlFlows = d.urlFlows) :
    Removed interactionId d d' := by
  refine ⟨hremoved.1, ?_, hurlFlows⟩
  rw [helicitations]
  exact (Ledger.erase_of_unused ((h.apart interactionId).resolve_left hremoved.2)).symm

theorem Allocated.elicitation_removed {d d' : Interactions} (h : Allocated d)
    (hremoved : d'.elicitations.pending = d.elicitations.pending.erase interactionId ∧
      ¬d.elicitations.Unused interactionId)
    (hpermissions : d'.permissions = d.permissions) (hurlFlows : d'.urlFlows = d.urlFlows) :
    Removed interactionId d d' := by
  refine ⟨?_, hremoved.1, hurlFlows⟩
  rw [hpermissions]
  exact (Ledger.erase_of_unused ((h.apart interactionId).resolve_right hremoved.2)).symm

/-- An elicitation that is resolved without a URL is taken out, and that is all. -/
theorem afterResolution_none (interactionId : String) (d : Interactions)
    (resolved : InteractionResolution × Value × Ledger) :
    (SessionRegistry.afterResolution d interactionId none resolved).2.1 =
      { d with elicitations := resolved.2.2 } := by
  unfold SessionRegistry.afterResolution
  split
  · rfl
  · rfl

theorem cancelPermission_removed (hs : r.state sessionId = some owner)
    (halloc : ∀ live, owner.live = some live → Allocated live.interactions)
    (h : (DeltaCall.cancelPermission interactionId).run r epoch sessionId incarnation =
      (.ok delta, r')) :
    ∃ live after, owner.live = some live ∧ Removed interactionId live.interactions after ∧
      Announced r r' sessionId owner delta (interactionRemove interactionId) live.interactions
        after := by
  obtain ⟨live, answer, after, publishes, hlive, hchange, hannounced⟩ := announce_reduceScope hs h
  obtain ⟨⟨answer, value, ledger⟩, hresolved, hchange⟩ := bind_eq_ok.mp hchange
  cases hchange
  have hremoved := Ledger.resolve_pending ((halloc live hlive).answered .permission) hresolved
  refine ⟨live, _, hlive, ?_, hannounced⟩
  exact (halloc live hlive).permission_removed hremoved rfl rfl

theorem cancelElicitation_removed
    (hs : r.state sessionId = some owner)
    (halloc : ∀ live, owner.live = some live → Allocated live.interactions)
    (h : (DeltaCall.cancelElicitation interactionId).run r epoch sessionId incarnation =
      (.ok delta, r')) :
    ∃ live after, owner.live = some live ∧ Removed interactionId live.interactions after ∧
      Announced r r' sessionId owner delta (interactionRemove interactionId) live.interactions
        after := by
  obtain ⟨live, answer, after, publishes, hlive, hchange, hannounced⟩ := announce_reduceScope hs h
  obtain ⟨⟨answer, value, ledger⟩, hresolved, hchange⟩ := bind_eq_ok.mp hchange
  have hafter := afterResolution_none interactionId live.interactions (answer, value, ledger)
  rw [Except.ok.inj hchange] at hafter
  dsimp only at hafter
  have hremoved := Ledger.resolve_pending ((halloc live hlive).answered .elicitation) hresolved
  refine ⟨live, after, hlive, ?_, hannounced⟩
  rw [hafter]
  exact (halloc live hlive).elicitation_removed hremoved rfl rfl

theorem respondPermission_removed
    (hs : r.state sessionId = some owner)
    (halloc : ∀ live, owner.live = some live → Allocated live.interactions)
    (h : (DeltaCall.respondPermission interactionId requestId).run r epoch sessionId incarnation =
      (.ok delta, r')) :
    ∃ live after, owner.live = some live ∧ Removed interactionId live.interactions after ∧
      Announced r r' sessionId owner delta (interactionRemove interactionId) live.interactions
        after := by
  unfold DeltaCall.run at h
  dsimp only at h
  split at h
  · cases h
  · rename_i started middle hstarted
    obtain ⟨live, active, between, publishes, answer, after, publishes', hlive, hfirst, hsecond,
      hannounced⟩ := announce_reduceScope_after hs hstarted h
    obtain ⟨⟨_, first⟩, hrespond, hfirst⟩ := bind_eq_ok.mp hfirst
    cases hfirst
    obtain ⟨⟨_, _, second⟩, hcomplete, hsecond⟩ := bind_eq_ok.mp hsecond
    cases hsecond
    have hremoved := Ledger.complete_pending ((halloc live hlive).answered .permission) hrespond
      hcomplete
    refine ⟨live, _, hlive, ?_, hannounced⟩
    exact (halloc live hlive).permission_removed hremoved rfl rfl

/-- An answered elicitation is taken out; its URL is registered when it is one. -/
theorem respondElicitation_removed {accepted delivered : Bool}
    (hs : r.state sessionId = some owner)
    (halloc : ∀ live, owner.live = some live → Allocated live.interactions)
    (hurl : urlElicitationId (pendingElicitation r sessionId interactionId) = none)
    (h : (DeltaCall.respondElicitation interactionId requestId accepted delivered).run r epoch
      sessionId incarnation = (.ok delta, r')) :
    ∃ live after, owner.live = some live ∧ Removed interactionId live.interactions after ∧
      Announced r r' sessionId owner delta (interactionRemove interactionId) live.interactions
        after := by
  unfold DeltaCall.run at h
  dsimp only at h
  rw [hurl, ite_self] at h
  split at h
  · cases h
  · rename_i started middle hstarted
    obtain ⟨live, active, between, publishes, answer, after, publishes', hlive, hfirst, hsecond,
      hannounced⟩ := announce_reduceScope_after hs hstarted h
    obtain ⟨⟨_, first⟩, hrespond, hfirst⟩ := bind_eq_ok.mp hfirst
    cases hfirst
    obtain ⟨⟨answer', value', second⟩, hcomplete, hsecond⟩ := bind_eq_ok.mp hsecond
    have hafter := afterResolution_none interactionId
      { live.interactions with elicitations := first } (answer', value', second)
    rw [Except.ok.inj hsecond] at hafter
    dsimp only at hafter
    have hremoved := Ledger.complete_pending ((halloc live hlive).answered .elicitation) hrespond
      hcomplete
    refine ⟨live, after, hlive, ?_, hannounced⟩
    rw [hafter]
    exact (halloc live hlive).elicitation_removed hremoved rfl rfl

end Removals

end Attyd.Session
