import Attyd.Session.HeldIds

/-!
# Settlements

An operation that completes, fails or settles what runs under an id names the session or
the connection the id belongs to. It changes nothing, or it finds the id there and changes
nothing else: no other session, no other incarnation, and no history but that of the
incarnation it names.
-/

namespace Attyd.Session

open Json (Value)
open History

variable {σ δ : Type}

/-- The scope and the id that a completion, a failure or a settlement names. -/
def RuntimeOp.settlement : RuntimeOp → Option (Scope × String)
  | completeReload _ id incarnation operationId _ | failReload _ id incarnation operationId
  | completeAttachment _ id incarnation operationId _ _
  | failAttachment _ id incarnation operationId _
  | completePrompt _ id incarnation operationId | failPrompt _ id incarnation operationId
  | markPromptUncertain _ id incarnation operationId
  | deleteCloseSucceeded _ id incarnation operationId
  | completeDelete _ id incarnation operationId
  | markOperationUncertain _ id incarnation operationId _
  | completeOperation _ id incarnation operationId _
  | completeControlOperation _ id incarnation operationId _ _ _
  | failOperation _ id incarnation operationId _ | closeSession _ id incarnation operationId
  | finishSessionCleanup id incarnation _ operationId
  | completePermissionResponse _ id incarnation _ operationId
  | mirror ⟨.settleExclusive id incarnation _ operationId, _⟩
  | mirror ⟨.completeTurn id incarnation operationId _, _⟩
  | mirror ⟨.blockTurn id incarnation operationId _, _⟩
  | mirror ⟨.commitCompletedTurnFromMemory id incarnation operationId, _⟩ =>
      some (some (id, incarnation), operationId)
  | completeElicitationResponse _ scope _ operationId _ => some (scope, operationId)
  | _ => none

/-- Whether what runs in a scope runs under the id: a turn, known to the agent or to the
history, an operation, or the response to an interaction. -/
def SessionRegistry.Owns (r : SessionRegistry σ δ) : Scope → String → Prop
  | some (sessionId, incarnation), operationId =>
      ∃ a, r.state sessionId = some a ∧ a.incarnation = incarnation ∧
        (operationId ∈ a.face.operationIds ∨
          ∃ turn, a.activeTurn = some turn ∧ turn.operationId = operationId)
  | none, operationId => operationId ∈ r.connectionInteractions.operationIds

/-- What changes, changes in one scope: in one incarnation of a session, or in the connection. -/
structure ChangesOnly (scope : Scope) (r r' : SessionRegistry σ δ) : Prop where
  sessions : ∀ id, (∀ incarnation, scope ≠ some (id, incarnation)) → r'.state id = r.state id
  incarnations : ∀ id a b, r.state id = some a → r'.state id = some b →
    b.incarnation = a.incarnation
  histories : ∀ key : SessionKey, scope ≠ some (key.sessionId, key.incarnation) →
    r'.history.view.peek key = r.history.view.peek key ∧
      r'.history.view.attempt key = r.history.view.attempt key
  connection : scope ≠ none → r'.connectionInteractions = r.connectionInteractions

/-- A settlement changes nothing, or only the scope that owns the id. -/
def Settled (scope : Scope) (operationId : String) (r r' : SessionRegistry σ δ) : Prop :=
  r' = r ∨ r.Owns scope operationId ∧ ChangesOnly scope r r'

section Frame

variable {r r' : SessionRegistry σ δ} {sessionId operationId : String} {incarnation : Nat}
  {view : CacheView} {operations : Nat}

/-- Writing one session is a change of that session alone. -/
theorem Written.changesOnly {a b : SessionState δ} (ha : r.state sessionId = some a)
    (hw : Written r r' sessionId (some b) view operations)
    (hb : b.incarnation = a.incarnation) (hside : r'.side = r.side)
    (hview : ∀ key : SessionKey, key ≠ ⟨sessionId, incarnation⟩ →
      view.peek key = r.history.view.peek key ∧ view.attempt key = r.history.view.attempt key) :
    ChangesOnly (some (sessionId, incarnation)) r r' where
  sessions id hid := hw.states id fun h => hid incarnation (h ▸ rfl)
  incarnations id c d hc hd := by
    by_cases hid : id = sessionId
    · subst hid
      cases ha.symm.trans hc
      cases hw.state.symm.trans hd
      exact hb
    · cases hc.symm.trans ((hw.states id hid).symm.trans hd)
      rfl
  histories key hkey := by
    rw [hw.view]
    refine hview key ?_
    rintro rfl
    exact hkey rfl
  connection _ := congrArg Prod.fst hside

/-- Writing back what a session is changes nothing. -/
theorem putState_same {a : SessionState δ} (ha : r.state sessionId = some a) :
    r.putState sessionId a = r := by
  obtain ⟨entry, hentry, rfl⟩ := Option.map_eq_some_iff.mp ha
  have hsessions : r.sessions.insert sessionId entry = r.sessions := by
    refine Finmap.ext_lookup fun other => ?_
    by_cases ho : other = sessionId
    · rw [ho, Finmap.lookup_insert, hentry]
    · rw [Finmap.lookup_insert_of_ne _ ho]
  unfold SessionRegistry.putState
  rw [hentry]
  exact congrArg (fun sessions => { r with sessions }) hsessions

end Frame

section Live

variable {α : Type} {r : SessionRegistry σ δ} {sessionId operationId : String} {incarnation : Nat}

/-- The id that a step of a face ends something under. -/
def FaceAction.ended : FaceAction → Option String
  | .ends operationId | .drains operationId _ | .retires operationId _ | .finishes operationId _
  | .seals operationId => some operationId
  | _ => none

theorem Face.Step.mem_operationIds {called : Caller} {used urlUsed : String → Prop}
    {action : FaceAction} {effects : Multiset RuntimeEffect} {a a' : Face}
    (h : Face.Step called used urlUsed sessionId action effects a a')
    (hended : action.ended = some operationId) : operationId ∈ a.operationIds := by
  have of_operation {operation : SessionOperationState} (ho : a.operation = some operation)
      (hid : operation.operationId = operationId) : operationId ∈ a.operationIds := by
    refine Multiset.mem_add.mpr (.inl (Multiset.mem_add.mpr (.inr (mem_idsOf.mpr ?_))))
    rw [ho, Option.map_some, hid]
  cases h with
  | ends live hid => exact of_operation hid (Option.some.inj hended)
  | drains next execution lifecycle hid => exact of_operation hid (Option.some.inj hended)
  | retires next execution cleans hid => exact of_operation hid (Option.some.inj hended)
  | finishes hid => exact of_operation hid (Option.some.inj hended)
  | seals id lifecycle hid =>
      refine Multiset.mem_add.mpr (.inl (Multiset.mem_add.mpr (.inl (mem_idsOf.mpr ?_))))
      exact hid.trans hended
  | _ => cases hended

theorem applyReduction_changesOnly {a : SessionState δ} (ha : r.state sessionId = some a)
    {reduction : Reduction δ}
    (hb : reduction.owner.incarnation = a.incarnation) :
    ChangesOnly (some (sessionId, incarnation)) r (r.applyReduction sessionId reduction) := by
  have hwritten : ∀ b : SessionState δ, b.incarnation = a.incarnation →
      ChangesOnly (some (sessionId, incarnation)) r
        { r.putState sessionId b with effects := r.effects + reduction.effects } := by
    intro b hb
    have hc : ChangesOnly (some (sessionId, incarnation)) r (r.putState sessionId b) :=
      (written_putState ha b).changesOnly ha hb (SessionRegistry.side_putState ..)
        fun _ _ => ⟨rfl, rfl⟩
    exact ⟨hc.sessions, hc.incarnations, hc.histories, hc.connection⟩
  unfold SessionRegistry.applyReduction
  split
  · exact hwritten _ hb
  · exact hwritten _ hb

/-- A reducer that settles an id of its session. -/
theorem reduceLive_settled {expectedEpoch : String} {precheck : Except RuntimeStateError Unit}
    {change : SessionState δ → SessionLiveState → Except RuntimeStateError (α × Reduction δ)}
    (hchange : ∀ owner live answer reduction, Reducing r sessionId incarnation owner live →
      change owner live = .ok (answer, reduction) →
      reduction = ⟨owner, 0, false⟩ ∨
        operationId ∈ owner.face.operationIds ∧
          reduction.owner.incarnation = owner.incarnation) :
    Settled (some (sessionId, incarnation)) operationId r
      (r.reduceLive expectedEpoch sessionId incarnation precheck change).2 := by
  rcases reduceLive_cases r expectedEpoch sessionId incarnation precheck change with
    ⟨error, h⟩ | ⟨owner, live, answer, reduction, -, hr, hok, h⟩
  · exact .inl (congrArg Prod.snd h)
  · rw [h]
    rcases hchange owner live answer reduction hr hok with rfl | ⟨hmem, hb⟩
    · refine .inl ?_
      change { r.putState sessionId owner with effects := r.effects + 0 } = r
      rw [putState_same hr.state, add_zero]
    · exact .inr ⟨⟨owner, hr.state, hr.incarnation, .inl hmem⟩,
        applyReduction_changesOnly hr.state hb⟩

/-- A reducer whose step ends something under the id. -/
theorem liveStep_settled {expectedEpoch : String} {precheck : Except RuntimeStateError Unit}
    {change : SessionState δ → SessionLiveState → Except RuntimeStateError (Reduction δ)}
    (action : FaceAction) (hended : action.ended = some operationId)
    (hchange : ∀ owner live reduction, Reducing r sessionId incarnation owner live →
      change owner live = .ok reduction → ReducesOn ⟨False, False⟩ r sessionId action owner reduction) :
    Settled (some (sessionId, incarnation)) operationId r
      (r.liveStep expectedEpoch sessionId incarnation precheck change).2 := by
  refine reduceLive_settled ?_
  intro owner live answer reduction hr h
  obtain ⟨reduction', hchanged, hok⟩ := bind_eq_ok.mp h
  cases hok
  have hstep := hchange owner live _ hr hchanged
  exact .inr ⟨hstep.mem_operationIds hended, hstep.incarnation_eq⟩

/-- The response that an operation completes is its own. -/
theorem Ledger.complete_mem {d : Ledger} {interactionId : String} {refused : Bool}
    {answer : InteractionResolution} {value : Value} {d' : Ledger}
    (h : d.complete interactionId operationId refused = .ok (answer, value, d')) :
    answer = .alreadyResolved ∧ d' = d ∨ answer = .applied ∧ operationId ∈ d.operationIds := by
  obtain ⟨hresolve, howner⟩ := Ledger.complete_eq_ok h
  rcases Ledger.resolve_eq_ok hresolve with ⟨hanswer, -, rfl⟩ | ⟨-, hanswer, hnew, -⟩
  · exact .inl ⟨hanswer, rfl⟩
  · obtain ⟨pending, hp, hid⟩ := howner hnew
    exact .inr ⟨hanswer, Ledger.mem_operationIds.mpr ⟨interactionId, pending, hp, hid⟩⟩

/-- A completion in a scope leaves its interactions, or finds the id among them. -/
theorem reduceScope_settled {expectedEpoch : String} {scope : Scope}
    {change : Option String → Interactions →
      Except RuntimeStateError (InteractionResolution × Interactions × Bool)}
    (hchange : ∀ active d answer d' publishes, change active d = .ok (answer, d', publishes) →
      d' = d ∧ publishes = false ∨ operationId ∈ d.operationIds) :
    Settled scope operationId r (r.reduceScope expectedEpoch scope change).2 := by
  cases scope with
  | some owner =>
      refine reduceLive_settled ?_
      intro owner live answer reduction hr h
      obtain ⟨⟨answer, d, publishes⟩, hchanged, hok⟩ := bind_eq_ok.mp h
      cases hok
      rcases hchange _ _ _ _ _ hchanged with ⟨rfl, rfl⟩ | hmem
      · refine .inl ?_
        change Reduction.mk { owner with live := some live } 0 false = ⟨owner, 0, false⟩
        rw [← hr.live]
      · refine .inr ⟨?_, rfl⟩
        rw [Face.operationIds, SessionState.face_live hr.live]
        exact Multiset.mem_add.mpr (.inr hmem)
  | none =>
      simp only [SessionRegistry.reduceScope]
      split
      · exact .inl rfl
      · rename_i answer d publishes h
        obtain ⟨_, -, hchanged⟩ := bind_eq_ok.mp h
        rcases hchange _ _ _ _ _ hchanged with ⟨rfl, rfl⟩ | hmem
        · exact .inl rfl
        · refine .inr ⟨hmem, fun _ _ => rfl, ?_, fun _ _ => ⟨rfl, rfl⟩, fun h => absurd rfl h⟩
          intro id a b ha hb
          cases ha.symm.trans hb
          rfl

end Live

section History

variable {r : SessionRegistry σ δ} {sessionId operationId : String} {incarnation : Nat}

/-- A change of one session that is refused, or finds the id in it. -/
theorem stateStep_settled {change : SessionState δ → Except MirrorError (SessionState δ)}
    (hchange : ∀ a b, change a = .ok b → b.incarnation = a.incarnation ∧
      (operationId ∈ a.face.operationIds ∨
        ∃ turn, a.activeTurn = some turn ∧ turn.operationId = operationId)) :
    Settled (some (sessionId, incarnation)) operationId r
      (r.stateStep sessionId incarnation change).2 := by
  unfold SessionRegistry.stateStep
  cases ha : r.requireState sessionId incarnation with
  | error error => exact .inl rfl
  | ok a =>
      obtain ⟨hstate, hi⟩ := requireState_eq_ok.mp ha
      dsimp only
      cases hb : change a with
      | error error => exact .inl rfl
      | ok b =>
          obtain ⟨hsame, howns⟩ := hchange a b hb
          exact .inr ⟨⟨a, hstate, hi, howns⟩, (written_putState hstate b).changesOnly hstate hsame
            (SessionRegistry.side_putState ..) fun _ _ => ⟨rfl, rfl⟩⟩

/-- What the operation of a session is found by is held by it. -/
theorem mem_operationIds_of_any {a : SessionState δ} {test : SessionOperationState → Bool}
    (h : a.operation.any test = true)
    (hid : ∀ operation, test operation = true → operation.operationId = operationId) :
    operationId ∈ a.face.operationIds := by
  obtain ⟨operation, ho, htest⟩ := (Option.any_eq_true _ _).mp h
  refine mem_operationIds_face.mpr (.inr (.inl ?_))
  rw [ho, Option.any_some, decide_eq_true_eq]
  exact hid operation htest

theorem settleExclusive_settled (kind : SessionAdmission) :
    Settled (some (sessionId, incarnation)) operationId r
      (r.settleExclusive sessionId incarnation kind operationId).2 := by
  refine stateStep_settled ?_
  intro a b hb
  unfold SessionState.settleExclusive at hb
  split at hb
  case isFalse => cases hb
  case isTrue hany =>
    cases hb
    refine ⟨rfl, .inl (mem_operationIds_of_any hany ?_)⟩
    intro operation htest
    simp only [Bool.and_eq_true, decide_eq_true_eq] at htest
    exact htest.2

theorem finishSessionCleanup_settled (kind : SessionAdmission) :
    Settled (some (sessionId, incarnation)) operationId r
      (r.finishSessionCleanup sessionId incarnation kind operationId).2 := by
  refine stateStep_settled ?_
  intro a b hb
  rw [ite_error_eq_ok, not_or, Bool.not_eq_false] at hb
  obtain ⟨⟨hany, -⟩, hb⟩ := hb
  cases hb
  refine ⟨rfl, .inl (mem_operationIds_of_any hany ?_)⟩
  intro operation htest
  simp only [Bool.and_eq_true, decide_eq_true_eq] at htest
  exact htest.1

theorem blockTurn_settled (message : String) :
    Settled (some (sessionId, incarnation)) operationId r
      (r.blockTurn sessionId incarnation operationId message).2 := by
  refine stateStep_settled ?_
  intro a b hb
  obtain ⟨-, howns, rfl⟩ := SessionState.blockTurn_eq_ok hb
  exact ⟨rfl, .inr howns⟩

theorem completeTurn_settled (terminal : Value) :
    Settled (some (sessionId, incarnation)) operationId r
      (r.completeTurn sessionId incarnation operationId terminal).2 := by
  unfold SessionRegistry.completeTurn SessionRegistry.overlayStep
  cases ha : r.requireState sessionId incarnation with
  | error error => exact .inl rfl
  | ok a =>
      obtain ⟨hstate, hi⟩ := requireState_eq_ok.mp ha
      dsimp only
      cases hb : a.completeTurn operationId terminal with
      | error error => exact .inl rfl
      | ok b =>
          obtain ⟨turn, -, hturn, hid, -, rfl⟩ := SessionState.completeTurn_eq_ok hb
          exact .inr ⟨⟨a, hstate, hi, .inr ⟨turn, hturn, hid⟩⟩,
            (written_putOverlay hstate _).changesOnly hstate rfl
              (SessionRegistry.side_putOverlay ..) fun _ _ => ⟨rfl, rfl⟩⟩

/-- The history that a turn is remembered in is that of its own incarnation. -/
theorem commitCompletedTurnFromMemory_settled :
    Settled (some (sessionId, incarnation)) operationId r
      (r.commitCompletedTurnFromMemory sessionId incarnation operationId).2 := by
  rcases commitCompletedTurnFromMemory_cases r sessionId incarnation operationId with
    ⟨error, hr⟩ | ⟨a, turn, prior, updates, ha, hi, ht, -, -, hr⟩
  · exact .inl (congrArg Prod.snd hr)
  · obtain ⟨-, hturn, hid, -⟩ := completedTurn_eq_ok ht
    have hside := SessionRegistry.side_commitCompletedTurnFromMemory r sessionId incarnation
      operationId
    rw [hr] at hside ⊢
    refine .inr ⟨⟨a, ha, hi, .inr ⟨turn, hturn, hid⟩⟩,
      (written_turnRemembered ha updates).changesOnly ha rfl hside ?_⟩
    intro key hkey
    exact ⟨Function.update_of_ne hkey _ _, rfl⟩

end History

section Runs

variable [Inhabited σ] [DecidableEq δ]

/-- Every settlement changes only the scope that owns the id. -/
theorem RuntimeOp.settled (env : RuntimeEnv σ δ) (r : SessionRegistry σ δ) (op : RuntimeOp)
    {scope : Scope} {operationId : String} (h : op.settlement = some (scope, operationId)) :
    Settled scope operationId r (op.step env r) := by
  cases op with
  | mirror op =>
      obtain ⟨op, hop⟩ := op
      cases op with
      | settleExclusive id incarnation kind operationId =>
          cases h
          exact settleExclusive_settled kind
      | completeTurn id incarnation operationId terminal =>
          cases h
          exact completeTurn_settled terminal
      | blockTurn id incarnation operationId message =>
          cases h
          exact blockTurn_settled message
      | commitCompletedTurnFromMemory id incarnation operationId =>
          cases h
          exact commitCompletedTurnFromMemory_settled
      | _ => cases h
  | completeReload epoch id incarnation operationId response =>
      cases h
      exact liveStep_settled (.ends operationId) rfl fun _ _ _ hr h =>
        SessionState.completeReload_step hr.live hr.answers h
  | failReload epoch id incarnation operationId =>
      cases h
      exact liveStep_settled (.ends operationId) rfl fun _ _ _ hr h =>
        SessionState.failReload_step hr.live hr.answers h
  | completeAttachment epoch id incarnation operationId kind response =>
      cases h
      exact liveStep_settled (.ends operationId) rfl fun _ _ _ hr h =>
        SessionState.completeAttachment_step hr.live hr.answers h
  | failAttachment epoch id incarnation operationId kind =>
      cases h
      exact liveStep_settled (.retires operationId false) rfl fun _ _ _ hr h =>
        SessionState.failAttachment_step hr.live hr.answers h
  | completePrompt epoch id incarnation operationId =>
      cases h
      exact liveStep_settled (.seals operationId) rfl fun _ _ _ hr h =>
        SessionState.sealTurn_step hr.live hr.answers (.inl rfl) h
  | failPrompt epoch id incarnation operationId =>
      cases h
      exact liveStep_settled (.seals operationId) rfl fun _ _ _ hr h =>
        SessionState.sealTurn_step hr.live hr.answers (.inl rfl) h
  | markPromptUncertain epoch id incarnation operationId =>
      cases h
      exact liveStep_settled (.seals operationId) rfl fun _ _ _ hr h =>
        SessionState.sealTurn_step hr.live hr.answers (.inr rfl) h
  | deleteCloseSucceeded epoch id incarnation operationId =>
      cases h
      exact liveStep_settled (.drains operationId .deleting) rfl fun _ _ _ hr h =>
        SessionState.deleteCloseSucceeded_step hr.live hr.answers h
  | completeDelete epoch id incarnation operationId =>
      cases h
      exact liveStep_settled (.retires operationId true) rfl fun _ _ _ hr h =>
        SessionState.completeDelete_step hr.live hr.answers h
  | markOperationUncertain epoch id incarnation operationId reason =>
      cases h
      exact liveStep_settled (.drains operationId .uncertain) rfl fun _ _ _ hr h =>
        SessionState.markOperationUncertain_step hr.live hr.answers h
  | completeOperation epoch id incarnation operationId kind =>
      cases h
      exact liveStep_settled (.ends operationId) rfl fun _ _ _ hr h =>
        SessionState.completeOperation_step hr.live hr.answers h
  | completeControlOperation epoch id incarnation operationId kind key update =>
      cases h
      exact liveStep_settled (.ends operationId) rfl fun _ _ _ hr h =>
        SessionState.completeControlOperation_step hr.live hr.answers False.elim h
  | failOperation epoch id incarnation operationId kind =>
      cases h
      exact liveStep_settled (.ends operationId) rfl fun _ _ _ hr h =>
        SessionState.failOperation_step hr.live hr.answers False.elim h
  | closeSession epoch id incarnation operationId =>
      cases h
      exact liveStep_settled (.drains operationId .closed) rfl fun _ _ _ hr h =>
        SessionState.closeSession_step hr.live hr.answers h
  | finishSessionCleanup id incarnation kind operationId =>
      cases h
      exact finishSessionCleanup_settled kind
  | completePermissionResponse epoch id incarnation interactionId operationId =>
      cases h
      refine reduceScope_settled ?_
      intro active d answer d' publishes hok
      obtain ⟨⟨answer, value, ledger⟩, hcomplete, hok⟩ := bind_eq_ok.mp hok
      cases hok
      rcases Ledger.complete_mem hcomplete with ⟨rfl, rfl⟩ | ⟨-, hmem⟩
      · exact .inl ⟨rfl, rfl⟩
      · exact .inr (Multiset.mem_add.mpr (.inl hmem))
  | completeElicitationResponse epoch scope interactionId operationId acceptedUrlId =>
      cases h
      refine reduceScope_settled ?_
      intro active d answer d' publishes hok
      obtain ⟨⟨answer, value, ledger⟩, hcomplete, hok⟩ := bind_eq_ok.mp hok
      cases hok
      rcases Ledger.complete_mem hcomplete with ⟨rfl, rfl⟩ | ⟨-, hmem⟩
      · exact .inl ⟨rfl, rfl⟩
      · exact .inr (Multiset.mem_add.mpr (.inr hmem))
  | _ => cases h

/-- In every state that a run reaches no id is held twice, and a completion, a failure or a
settlement that names an id changes nothing outside the session and incarnation, or the
connection, in which the id is held. -/
theorem run_ids_owned (env : RuntimeEnv σ δ) (epoch : String) (ops : List RuntimeOp) :
    let r : SessionRegistry σ δ := run (fun r op => op.step env r) (.new epoch) ops
    r.board.operationIds.Nodup ∧
      ∀ (op : RuntimeOp) (scope : Scope) (operationId : String),
        op.settlement = some (scope, operationId) →
          Settled scope operationId r (op.step env r) := by
  intro r
  have hheld : r.board.Held :=
    run_invariant (P := fun r : SessionRegistry σ δ => r.board.Held)
      (fun r op h => h.runtimeStep env op) (.new epoch) ops
  exact ⟨hheld.operationIds, fun op scope operationId h => op.settled env r h⟩

/-- Two sessions attach, and the first attachment fails. -/
theorem run_ids_owned_two_attachments :
    let env : RuntimeEnv Unit String :=
      ⟨id, fun validation _ => (.ok (), validation), fun _ terminal => terminal⟩
    let ops : List RuntimeOp :=
      [.startAttachment "epoch" "s" "/" "first" .load,
        .startAttachment "epoch" "t" "/" "second" .resume]
    let r := run (fun r op => op.step env r) (.new "epoch" : SessionRegistry Unit String) ops
    (r.operationInUse "first" = true ∧ r.operationInUse "second" = true) ∧
      r.board.operationIds.Nodup ∧
        Settled (some ("s", 1)) "first" r
          ((RuntimeOp.failAttachment "epoch" "s" 1 "first" .load).step env r) := by
  intro env ops r
  have h := run_ids_owned env "epoch" ops
  exact ⟨by decide, h.1, h.2 _ _ _ rfl⟩

end Runs

end Attyd.Session
