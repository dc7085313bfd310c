import Attyd.Session.InteractionAccounts
import Mathlib.Tactic.Abel

/-!
# The accounts of a board

Where a session is closed, nothing waits in it; an id that was answered is not pending;
and a response that began is the one that ends. With these invariants each step of a
board keeps the accounts of its interactions and flows.
-/

namespace Attyd.Session

open Json (Value)
open History

section Invariants

/-- What had an answer waits no longer. -/
def Interactions.Answered (d : Interactions) : Prop :=
  ∀ kind id, id ∈ (d.ledger kind).resolved → (d.ledger kind).pending.lookup id = none

/-- Nothing waits in a session that is closed or that an accepted delete removes. -/
structure Face.Sound (a : Face) : Prop where
  answered : ∀ live, a.live = some live → live.interactions.Answered
  closed : ∀ live, a.live = some live → live.lifecycle = .closed → live.interactions.Idle
  deleting : deletesClosed a.operation → ∀ live, a.live = some live →
    live.interactions.Idle ∧ live.lifecycle.inUse = false

structure Board.Sound (b : Board) : Prop where
  faces : ∀ id a, b.faces.lookup id = some a → a.Sound
  connection : b.connection.Answered

end Invariants

section Interactions

variable {used urlUsed : String → Prop} {active : Option String} {action : InteractionAction}
  {d d' : Interactions}

theorem Interactions.ledger_withLedger (d : Interactions) (kind other : InteractionKind)
    (ledger : Ledger) : (d.withLedger kind ledger).ledger other =
      if other = kind then ledger else d.ledger other := by
  cases kind <;> cases other <;> rfl

theorem Interactions.ledger_accepted (d : Interactions) (interactionId : String) (request : Value)
    (url : Option String) (kind : InteractionKind) :
    (d.accepted interactionId request url).ledger kind = d.ledger kind := by
  cases url <;> rfl

/-- One ledger of a step: left as it is, or opened, responded to or resolved. -/
theorem Interactions.Step.ledger_cases (h : d.Step used urlUsed active action d')
    (kind : InteractionKind) :
    d'.ledger kind = d.ledger kind ∨
      (∃ id request, action = .opens kind id ∧ id ∉ (d.ledger kind).resolved ∧
        (d.ledger kind).pending.lookup id = none ∧
        d'.ledger kind = { d.ledger kind with
          pending := (d.ledger kind).pending.insert id ⟨id, request, active, none⟩ }) ∨
      (∃ id operationId pending, (d.ledger kind).pending.lookup id = some pending ∧
        pending.respondingOperationId = none ∧
        d'.ledger kind = { d.ledger kind with
          pending := (d.ledger kind).pending.insert id
            { pending with respondingOperationId := some operationId } }) ∨
      ∃ id url, action = .resolves kind id url ∧
        d'.ledger kind = ⟨(d.ledger kind).pending.erase id, id ::ₘ (d.ledger kind).resolved⟩ := by
  cases h with
  | opens own interactionId request hnew hfree =>
      by_cases hk : kind = own
      · subst hk
        exact .inr (.inl ⟨interactionId, request, rfl, hnew, hfree, by
          rw [ledger_withLedger, if_pos rfl]⟩)
      · exact .inl (by rw [ledger_withLedger, if_neg hk])
  | responds own interactionId operationId hpending hfree =>
      by_cases hk : kind = own
      · subst hk
        exact .inr (.inr (.inl ⟨interactionId, operationId, _, hpending, hfree, by
          rw [ledger_withLedger, if_pos rfl]⟩))
      · exact .inl (by rw [ledger_withLedger, if_neg hk])
  | resolves own interactionId acceptedUrlId =>
      by_cases hk : kind = own
      · subst hk
        exact .inr (.inr (.inr ⟨interactionId, acceptedUrlId, rfl, by
          rw [ledger_accepted, ledger_withLedger, if_pos rfl]⟩))
      · exact .inl (by rw [ledger_accepted, ledger_withLedger, if_neg hk])
  | settles => exact .inl (by cases kind <;> rfl)
  | discards => exact .inl (by cases kind <;> rfl)

theorem Interactions.Step.answered (h : d.Step used urlUsed active action d')
    (hd : d.Answered) : d'.Answered := by
  intro kind id hid
  rcases h.ledger_cases kind with hsame | ⟨own, request, -, hnew, -, hopened⟩ |
    ⟨own, operationId, pending, hpending, -, hresponded⟩ | ⟨own, url, -, hresolved⟩
  · rw [hsame] at hid ⊢
    exact hd kind id hid
  · rw [hopened] at hid ⊢
    have hne : id ≠ own := by
      rintro rfl
      exact hnew hid
    exact (Finmap.lookup_insert_of_ne _ hne).trans (hd kind id hid)
  · rw [hresponded] at hid ⊢
    have hne : id ≠ own := by
      rintro rfl
      exact absurd ((hd kind id hid).symm.trans hpending) (by simp)
    exact (Finmap.lookup_insert_of_ne _ hne).trans (hd kind id hid)
  · rw [hresolved] at hid ⊢
    by_cases ho : id = own
    · rw [ho]
      exact Finmap.lookup_erase _ _
    · refine (Finmap.lookup_erase_ne ho).trans (hd kind id ?_)
      exact (Multiset.mem_cons.mp hid).resolve_left ho

/-- What is known to be answered stays known. -/
theorem Interactions.Step.resolved_subset (h : d.Step used urlUsed active action d')
    (kind : InteractionKind) : (d.ledger kind).resolved ⊆ (d'.ledger kind).resolved := by
  rcases h.ledger_cases kind with hsame | ⟨own, request, -, -, -, hopened⟩ |
    ⟨own, operationId, pending, -, -, hresponded⟩ | ⟨own, url, -, hresolved⟩
  · rw [hsame]
    exact fun _ h => h
  · rw [hopened]
    exact fun _ h => h
  · rw [hresponded]
    exact fun _ h => h
  · rw [hresolved]
    exact Multiset.subset_cons _ _

/-- Nothing can be done where nothing waits but to open an interaction. -/
theorem Interactions.Step.opens_of_idle (h : d.Step used urlUsed active action d')
    (hidle : d.Idle) : ∃ kind id, action = .opens kind id := by
  have hledger : ∀ kind, (d.ledger kind).pending = ∅ := by
    rintro (_ | _)
    · exact hidle.permissions
    · exact hidle.elicitations
  cases h with
  | opens kind id => exact ⟨kind, id, rfl⟩
  | responds kind id operationId hpending =>
      rw [hledger kind] at hpending
      cases hpending
  | resolves kind id url hpending =>
      rw [hledger kind] at hpending
      cases hpending
  | settles elicitationId registrationId hflow =>
      rw [hidle.urlFlows] at hflow
      cases hflow
  | discards elicitationId hflow =>
      rw [hidle.urlFlows] at hflow
      cases hflow

theorem Interactions.answered_fresh : Interactions.fresh.Answered := by
  intro kind id hid
  cases kind <;> cases hid

theorem Interactions.idle_fresh : Interactions.fresh.Idle := ⟨rfl, rfl, rfl⟩

theorem Interactions.Answered.drained (d : Interactions) : d.drained.Answered := by
  rintro (_ | _) id -
  · rfl
  · rfl

theorem Ledger.lookup_sealTurn (d : Ledger) (operationId id : String) :
    (d.sealTurn operationId).pending.lookup id =
      (d.pending.lookup id).filter fun i => decide (i.operationId ≠ some operationId) :=
  Table.lookup_retain ..

/-- Sealing a turn answers what it opened. -/
theorem Ledger.sealTurn_answered {d : Ledger} (operationId : String)
    (hd : ∀ id, id ∈ d.resolved → d.pending.lookup id = none) (id : String)
    (hid : id ∈ (d.sealTurn operationId).resolved) :
    (d.sealTurn operationId).pending.lookup id = none := by
  rw [lookup_sealTurn]
  rcases Multiset.mem_add.mp hid with hopened | hold
  · obtain ⟨own, i, hi, rfl⟩ := Table.mem_collect.mp hopened
    obtain ⟨hi, hop⟩ := Table.lookup_retain_eq_some.mp hi
    rw [hi, Option.filter_some, if_neg (by simpa using hop)]
  · rw [hd id hold]
    rfl

theorem Interactions.ledger_sealed (d : Interactions) (operationId : String)
    (kind : InteractionKind) :
    (d.sealed operationId).ledger kind = (d.ledger kind).sealTurn operationId := by
  cases kind <;> rfl

theorem Interactions.Answered.sealed (hd : d.Answered) (operationId : String) :
    (d.sealed operationId).Answered := by
  intro kind id hid
  rw [ledger_sealed] at hid ⊢
  exact Ledger.sealTurn_answered operationId (hd kind) id hid

theorem Interactions.Idle.sealed (hd : d.Idle) (operationId : String) :
    (d.sealed operationId).Idle := by
  have hnone : ∀ ledger : Ledger, ledger.pending = ∅ →
      (ledger.sealTurn operationId).pending = ∅ := by
    intro ledger h
    refine Finmap.ext_lookup fun id => ?_
    rw [Ledger.lookup_sealTurn, h]
    rfl
  exact ⟨hnone _ hd.permissions, hnone _ hd.elicitations, hd.urlFlows⟩

theorem Interactions.Idle.asked (hd : d.Idle) (scope : Scope) : d.asked scope = 0 := by
  rw [Interactions.asked, hd.permissions, hd.elicitations]
  rfl

theorem Interactions.Idle.waiting (hd : d.Idle) (scope : Scope) : d.waiting scope = 0 := by
  rw [Interactions.waiting, hd.urlFlows]
  rfl

end Interactions

section Faces

variable {used urlUsed : String → Prop} {sessionId : String} {action : FaceAction}
  {effects : Multiset RuntimeEffect} {a a' : Face}

/-- A step takes the live side of a session away, keeps its interactions, or changes them in
one of three ways. -/
theorem Face.Step.live_cases {called : Caller}
    (h : Face.Step called used urlUsed sessionId action effects a a') (live' : LiveFace)
    (hlive : a'.live = some live') :
    ∃ live, a.live = some live ∧
      (live'.interactions = live.interactions ∨ live'.interactions = live.interactions.drained ∨
        (∃ operationId, action = .seals operationId ∧
          live'.interactions = live.interactions.sealed operationId) ∨
        ∃ interaction, action = .interacts interaction ∧
          live.interactions.Step used urlUsed a.execution interaction live'.interactions) := by
  have kept {l : Option LiveFace} (hl : l = some live')
      (hsame : l.map (·.interactions) = a.live.map (·.interactions)) :
      ∃ live, a.live = some live ∧ live'.interactions = live.interactions := by
    rw [hl, Option.map_some] at hsame
    obtain ⟨live, ha, hi⟩ := Option.map_eq_some_iff.mp hsame.symm
    exact ⟨live, ha, hi.symm⟩
  cases h with
  | rests => exact ⟨live', hlive, .inl rfl⟩
  | executes => exact ⟨live', hlive, .inl rfl⟩
  | starts operation live hid hstage hsame =>
      obtain ⟨live, ha, hi⟩ := kept hlive hsame
      exact ⟨live, ha, .inl hi⟩
  | ends live hid hstage hsame =>
      obtain ⟨live, ha, hi⟩ := kept hlive hsame
      exact ⟨live, ha, .inl hi⟩
  | drains next execution lifecycle hid hnext hexecution ha =>
      cases hlive
      exact ⟨_, ha, .inr (.inl rfl)⟩
  | retires => cases hlive
  | finishes => cases hlive
  | seals operationId lifecycle hid ha =>
      cases hlive
      exact ⟨_, ha, .inr (.inr (.inl ⟨operationId, rfl, rfl⟩))⟩
  | interacts ha hanswers hstep =>
      cases hlive
      exact ⟨_, ha, .inr (.inr (.inr ⟨_, rfl, hstep⟩))⟩

theorem Face.Step.answered {called : Caller}
    (h : Face.Step called used urlUsed sessionId action effects a a')
    (ha : ∀ live, a.live = some live → live.interactions.Answered) (live' : LiveFace)
    (hlive : a'.live = some live') : live'.interactions.Answered := by
  obtain ⟨live, hl, hsame | hdrained | ⟨operationId, -, hsealed⟩ | ⟨interaction, -, hstep⟩⟩ :=
    h.live_cases live' hlive
  · rw [hsame]
    exact ha live hl
  · rw [hdrained]
    exact .drained _
  · rw [hsealed]
    exact (ha live hl).sealed operationId
  · exact hstep.answered (ha live hl)

/-- In a closed session nothing is opened. -/
theorem inUse_closed : SessionLifecycle.closed.inUse = false := by decide

/-- Every step of the bridge keeps nothing waiting where a session is closed. -/
theorem Face.Step.sound {called : Caller}
    (h : Face.Step called used urlUsed sessionId action effects a a') (hserves : called.serves)
    (ha : a.Sound) : a'.Sound := by
  refine ⟨h.answered ha.answered, ?_, ?_⟩
  · intro live' hlive hclosed
    cases h with
    | rests => exact ha.closed live' hlive hclosed
    | executes => exact ha.closed live' hlive hclosed
    | starts operation live hid hstage hsame hlifecycle =>
        rcases hlifecycle live' hlive with hsame | hmem
        · exact ha.closed live' hsame hclosed
        · rw [hclosed] at hmem
          simp at hmem
    | @ends _ operation live hid hstage hsame hlifecycle =>
        change live = some live' at hlive
        rcases hlifecycle live' hlive with hold | hactive | ⟨hdeletes, -⟩
        · exact ha.closed live' hold hclosed
        · rw [hclosed] at hactive
          cases hactive
        · rw [hlive, Option.map_some] at hsame
          obtain ⟨old, hold, hi⟩ := Option.map_eq_some_iff.mp hsame.symm
          rw [← hi]
          exact (ha.deleting (hid ▸ hdeletes) old hold).1
    | drains =>
        cases hlive
        exact ⟨rfl, rfl, rfl⟩
    | retires => cases hlive
    | finishes => cases hlive
    | @seals _ live operationId lifecycle hid hl hanswers hlifecycle =>
        cases hlive
        rcases hlifecycle with hsame | huncertain
        · exact (ha.closed live hl (hsame ▸ hclosed)).sealed operationId
        · rw [huncertain] at hclosed
          cases hclosed
    | interacts hl hanswers hstep hopens =>
        cases hlive
        obtain ⟨kind, id, rfl⟩ := hstep.opens_of_idle (ha.closed _ hl hclosed)
        have hinUse := hopens hserves kind id rfl
        rw [show _ = SessionLifecycle.closed from hclosed, inUse_closed] at hinUse
        cases hinUse
  · intro hdeletes live' hlive
    cases h with
    | rests => exact ha.deleting hdeletes live' hlive
    | executes => exact ha.deleting hdeletes live' hlive
    | starts operation live hid hstage hsame hlifecycle hdeleting =>
        obtain ⟨hclosed, hgoes⟩ := hdeleting hserves hdeletes
        change live = some live' at hlive
        rw [hlive, Option.map_some] at hsame
        obtain ⟨old, hold, hi⟩ := Option.map_eq_some_iff.mp hsame.symm
        rw [← hi, hgoes live' hlive]
        exact ⟨ha.closed old hold (hclosed old hold), by decide⟩
    | ends => obtain ⟨o, ho, -⟩ := hdeletes; cases ho
    | drains next execution lifecycle hid hnext hexecution hl hanswers hlifecycle =>
        cases hlive
        refine ⟨⟨rfl, rfl, rfl⟩, ?_⟩
        simp only [List.mem_cons, List.not_mem_nil, or_false] at hlifecycle
        rcases hlifecycle with rfl | rfl | rfl <;> rfl
    | retires => cases hlive
    | finishes => cases hlive
    | @seals _ live operationId lifecycle hid hl hanswers hlifecycle =>
        cases hlive
        obtain ⟨hidle, hunused⟩ := ha.deleting hdeletes live hl
        refine ⟨hidle.sealed operationId, ?_⟩
        rcases hlifecycle with rfl | rfl
        · exact hunused
        · rfl
    | interacts hl hanswers hstep hopens =>
        cases hlive
        obtain ⟨hidle, hunused⟩ := ha.deleting hdeletes _ hl
        obtain ⟨kind, id, rfl⟩ := hstep.opens_of_idle hidle
        rw [hopens hserves kind id rfl] at hunused
        cases hunused

end Faces

section Boards

variable {action : BoardAction} {b b' : Board}

/-- A property of all faces that holds of the one that is written. -/
theorem forall_setFace {P : Face → Prop} {sessionId : String} {face : Face}
    (h : ∀ id a, b.faces.lookup id = some a → P a) (hface : P face) (id : String) (a : Face)
    (ha : (b.setFace sessionId face).faces.lookup id = some a) : P a := by
  by_cases ho : id = sessionId
  · subst ho
    cases (Finmap.lookup_insert _).symm.trans ha
    exact hface
  · exact h id a ((Finmap.lookup_insert_of_ne _ ho).symm.trans ha)

theorem Board.Step.sound {called : Caller} (h : Board.Step called action b b')
    (hserves : called.serves) (hb : b.Sound) : b'.Sound := by
  cases h with
  | rests => exact hb
  | face sessionId ha hstep =>
      exact ⟨forall_setFace hb.faces (hstep.sound hserves (hb.faces _ _ ha)), hb.connection⟩
  | connection hstep => exact ⟨hb.faces, hstep.answered hb.connection⟩
  | installs sessionId face lifecycle hid hfree hexecution hoperation hlive hinUse =>
      refine ⟨forall_setFace hb.faces ⟨?_, ?_, ?_⟩, hb.connection⟩
      · intro live hl
        cases hlive.symm.trans hl
        exact Interactions.answered_fresh
      · intro live hl hclosed
        cases hlive.symm.trans hl
        exact Interactions.idle_fresh
      · rintro ⟨o, ho, -, hs⟩
        rw [(hoperation o ho).2] at hs
        simp at hs
  | registers sessionId incarnation =>
      refine ⟨forall_setFace hb.faces ⟨?_, ?_, ?_⟩, hb.connection⟩
      · rintro live ⟨⟩
      · rintro live ⟨⟩
      · rintro - live ⟨⟩
  | removes sessionId =>
      refine ⟨fun id a ha => ?_, hb.connection⟩
      by_cases ho : id = sessionId
      · subst ho
        cases (Finmap.lookup_erase _ _).symm.trans ha
      · exact hb.faces id a ((Finmap.lookup_erase_ne ho).symm.trans ha)

/-- A written face counts instead of the one that was there. -/
theorem sum_setFace {M : Type*} [AddCommMonoid M] (worth : Face → M) {t : Table String Face}
    {sessionId : String} {face : Face} {out into : M}
    (h : worth face + out = (t.lookup sessionId).elim 0 worth + into) :
    Table.sum worth (t.insert sessionId face) + out = Table.sum worth t + into := by
  rw [Table.sum_insert, Table.sum_split worth t sessionId, add_right_comm, h, add_right_comm]

variable {used urlUsed : String → Prop}

/-- The reports of one step of a face. -/
theorem Face.Step.report_interacts (sessionId : String) (incarnation : Nat)
    (interaction : InteractionAction) :
    let report := (BoardAction.face sessionId incarnation (.interacts interaction)).report
    let said := Report.interacts (some (sessionId, incarnation)) interaction
    report.opened = said.opened ∧ report.resolved = said.resolved ∧
      report.accepted = said.accepted ∧ report.settled = said.settled := by
  cases interaction <;> exact ⟨rfl, rfl, rfl, rfl⟩

/-- What is not done to an interaction enters and leaves no account. -/
theorem report_elsewhere (sessionId : String) (incarnation : Nat) (action : FaceAction)
    (h : ∀ interaction, action ≠ .interacts interaction) :
    let report := (BoardAction.face sessionId incarnation action).report
    report.opened = 0 ∧ report.resolved = 0 ∧ report.accepted = 0 ∧ report.settled = 0 := by
  cases action with
  | interacts interaction => exact absurd rfl (h interaction)
  | drains operationId lifecycle => cases lifecycle <;> exact ⟨rfl, rfl, rfl, rfl⟩
  | retires operationId cleans => cases cleans <;> exact ⟨rfl, rfl, rfl, rfl⟩
  | finishes operationId cleans => cases cleans <;> exact ⟨rfl, rfl, rfl, rfl⟩
  | _ => exact ⟨rfl, rfl, rfl, rfl⟩

/-- What live sides ask is read off their interactions. -/
theorem elim_live {M : Type*} [Zero M] (f : Interactions → M) {l l' : Option LiveFace}
    (h : l.map (·.interactions) = l'.map (·.interactions)) :
    l.elim 0 (fun live => f live.interactions) = l'.elim 0 fun live => f live.interactions := by
  have helim : ∀ o : Option LiveFace, o.elim 0 (fun live => f live.interactions) =
      (o.map (·.interactions)).elim 0 f := by
    rintro (_ | live) <;> rfl
  rw [helim, helim, h]

theorem Face.asked_of_live {a : Face} {live : LiveFace} (h : a.live = some live) :
    a.asked = live.interactions.asked (some (a.sessionId, a.incarnation)) := by
  rw [Face.asked, h, Option.elim_some]

theorem Face.waiting_of_live {a : Face} {live : LiveFace} (h : a.live = some live) :
    a.waiting = live.interactions.waiting (some (a.sessionId, a.incarnation)) := by
  rw [Face.waiting, h, Option.elim_some]

/-- The account of the interactions of one session. -/
theorem Face.Step.asked_add {action : FaceAction} {sessionId : String}
    {effects : Multiset RuntimeEffect} {a a' : Face} {called : Caller}
    (h : Face.Step called used urlUsed sessionId action effects a a') (ha : a.Sound)
    (hid : a.sessionId = sessionId) :
    a'.asked + (cancelled effects + (BoardAction.face sessionId a.incarnation action).report.resolved) =
      a.asked + (BoardAction.face sessionId a.incarnation action).report.opened := by
  subst hid
  cases h with
  | rests => exact congrArg (a.asked + ·) rfl
  | executes => exact congrArg (a.asked + ·) rfl
  | starts operation live hid hstage hlive =>
      exact congrArg (· + 0) (elim_live (·.asked (some (a.sessionId, a.incarnation))) hlive)
  | ends live hid hstage hlive =>
      exact congrArg (· + 0) (elim_live (·.asked (some (a.sessionId, a.incarnation))) hlive)
  | @drains _ operation live next execution lifecycle hid hnext hexecution hlive =>
      obtain ⟨hopened, hresolved, -, -⟩ := report_elsewhere a.sessionId a.incarnation
        (.drains operation.operationId lifecycle) (by simp)
      rw [hopened, hresolved]
      change 0 + (cancelled (live.interactions.effects a.sessionId a.incarnation) + 0) = a.asked + 0
      rw [cancelled_effects, Face.asked_of_live hlive, zero_add]
  | @retires _ operation live next execution cleans hid hnext hexecution hlive =>
      obtain ⟨hopened, hresolved, -, -⟩ := report_elsewhere a.sessionId a.incarnation
        (.retires operation.operationId cleans) (by simp)
      rw [hopened, hresolved]
      change 0 + (cancelled (live.interactions.effects a.sessionId a.incarnation) + 0) = a.asked + 0
      rw [cancelled_effects, Face.asked_of_live hlive, zero_add]
  | @finishes _ operation hid hclosed =>
      have hnone : a.asked = 0 := by
        cases hlive : a.live with
        | none => rw [Face.asked, hlive, Option.elim_none]
        | some live =>
            rw [Face.asked_of_live hlive, (ha.closed live hlive (hclosed live hlive)).asked]
      obtain ⟨hopened, hresolved, -, -⟩ := report_elsewhere a.sessionId a.incarnation
        (.finishes operation.operationId (operation.stage = "cleanup")) (by simp)
      rw [hopened, hresolved, hnone]
      rfl
  | @seals _ live operationId lifecycle hid hlive =>
      change (live.interactions.sealed operationId).asked _ + (cancelled _ + 0) = a.asked + 0
      rw [Face.asked_of_live hlive, add_zero, add_zero, add_comm]
      exact cancelled_sealEffects ..
  | interacts hlive hanswers hstep =>
      obtain ⟨hopened, hresolved, -, -⟩ := Face.Step.report_interacts a.sessionId a.incarnation _
      rw [hopened, hresolved, Face.asked_of_live hlive]
      change _ + (0 + _) = _
      rw [zero_add]
      exact hstep.asked_add _

/-- The account of the flows of one session. -/
theorem Face.Step.waiting_add {action : FaceAction} {sessionId : String}
    {effects : Multiset RuntimeEffect} {a a' : Face} {called : Caller}
    (h : Face.Step called used urlUsed sessionId action effects a a') (ha : a.Sound)
    (hid : a.sessionId = sessionId) (hurls : ∀ url ∈ a.urlIds, urlUsed url) :
    a'.waiting + (aborted effects + (BoardAction.face sessionId a.incarnation action).report.settled) =
      a.waiting + (BoardAction.face sessionId a.incarnation action).report.accepted := by
  subst hid
  cases h with
  | rests => exact congrArg (a.waiting + ·) rfl
  | executes => exact congrArg (a.waiting + ·) rfl
  | starts operation live hid hstage hlive =>
      exact congrArg (· + 0) (elim_live (·.waiting (some (a.sessionId, a.incarnation))) hlive)
  | ends live hid hstage hlive =>
      exact congrArg (· + 0) (elim_live (·.waiting (some (a.sessionId, a.incarnation))) hlive)
  | @drains _ operation live next execution lifecycle hid hnext hexecution hlive =>
      obtain ⟨-, -, haccepted, hsettled⟩ := report_elsewhere a.sessionId a.incarnation
        (.drains operation.operationId lifecycle) (by simp)
      rw [haccepted, hsettled]
      change 0 + (aborted (live.interactions.effects a.sessionId a.incarnation) + 0) = a.waiting + 0
      rw [aborted_effects, Face.waiting_of_live hlive, zero_add]
  | @retires _ operation live next execution cleans hid hnext hexecution hlive =>
      obtain ⟨-, -, haccepted, hsettled⟩ := report_elsewhere a.sessionId a.incarnation
        (.retires operation.operationId cleans) (by simp)
      rw [haccepted, hsettled]
      change 0 + (aborted (live.interactions.effects a.sessionId a.incarnation) + 0) = a.waiting + 0
      rw [aborted_effects, Face.waiting_of_live hlive, zero_add]
  | @finishes _ operation hid hclosed =>
      have hnone : a.waiting = 0 := by
        cases hlive : a.live with
        | none => rw [Face.waiting, hlive, Option.elim_none]
        | some live =>
            rw [Face.waiting_of_live hlive, (ha.closed live hlive (hclosed live hlive)).waiting]
      obtain ⟨-, -, haccepted, hsettled⟩ := report_elsewhere a.sessionId a.incarnation
        (.finishes operation.operationId (operation.stage = "cleanup")) (by simp)
      rw [haccepted, hsettled, hnone]
      rfl
  | @seals _ live operationId lifecycle hid hlive =>
      change (live.interactions.sealed operationId).waiting _ + (aborted _ + 0) = a.waiting + 0
      rw [Face.waiting_of_live hlive, aborted_sealEffects]
      rfl
  | interacts hlive hanswers hstep =>
      obtain ⟨-, -, haccepted, hsettled⟩ :=
        Face.Step.report_interacts a.sessionId a.incarnation _
      rw [haccepted, hsettled, Face.waiting_of_live hlive]
      change _ + (0 + _) = _
      rw [zero_add]
      refine hstep.waiting_add (fun url hurl => hurls url ?_) _
      rw [Face.urlIds, hlive]
      exact hurl

theorem Board.mem_urlIds_of_face {sessionId : String} {a : Face}
    (ha : b.faces.lookup sessionId = some a) {url : String} (h : url ∈ a.urlIds) :
    url ∈ b.urlIds :=
  Multiset.mem_add.mpr (.inl (Table.mem_sum.mpr ⟨sessionId, a, ha, h⟩))

/-- A session that is opened anew leaves nothing behind that waits. -/
theorem Face.Sound.idle_of_closed {a : Face} (ha : a.Sound)
    (hclosed : ∀ live, a.live = some live → live.lifecycle = .closed) :
    a.asked = 0 ∧ a.waiting = 0 := by
  cases hlive : a.live with
  | none => simp [Face.asked, Face.waiting, hlive]
  | some live =>
      have hidle := ha.closed live hlive (hclosed live hlive)
      rw [Face.asked_of_live hlive, Face.waiting_of_live hlive, hidle.asked, hidle.waiting]
      exact ⟨rfl, rfl⟩

/-- An account: what counts in it of a face, of the connection and of the effects, and what a
report says to enter and to leave it. -/
structure Account (M : Type*) where
  face : Face → Multiset M
  connection : Interactions → Multiset M
  emitted : Multiset RuntimeEffect → Multiset M
  enters : Report → Multiset M
  leaves : Report → Multiset M

/-- What waits on a board. -/
def Account.waiting {M : Type*} (account : Account M) (b : Board) : Multiset M :=
  Table.sum account.face b.faces + account.connection b.connection

/-- Every step of a face or of the connection balances, and nothing is lost with a live side. -/
structure Account.Balanced {M : Type*} (called : Caller) (account : Account M) (b : Board) :
    Prop where
  emitted_add : ∀ e f, account.emitted (e + f) = account.emitted e + account.emitted f
  face : ∀ sessionId a a' action effects, b.faces.lookup sessionId = some a →
    Face.Step called (· ∈ b.operationIds) (· ∈ b.urlIds) sessionId action effects a a' →
    account.face a' + (account.emitted effects +
        account.leaves (BoardAction.face sessionId a.incarnation action).report) =
      account.face a + account.enters (BoardAction.face sessionId a.incarnation action).report
  connection : ∀ action d,
    b.connection.Step (· ∈ b.operationIds) (· ∈ b.urlIds) none action d →
    account.connection d + account.leaves (BoardAction.connection action).report =
      account.connection b.connection + account.enters (BoardAction.connection action).report
  gone : ∀ a : Face, a.live = none → account.face a = 0
  closed : ∀ id a, b.faces.lookup id = some a →
    (∀ live, a.live = some live → live.lifecycle = .closed) → account.face a = 0
  opened : ∀ (a : Face) lifecycle, a.live = some ⟨lifecycle, .fresh⟩ → account.face a = 0
  silent : account.leaves .silent = account.enters .silent
  opens : ∀ id, account.leaves (.opens id) = account.enters (.opens id)

/-- A balanced account says of each step what entered, what left and what was emitted. -/
theorem Account.Balanced.step {M : Type*} {account : Account M} {called : Caller}
    (hbalanced : account.Balanced called b) (h : Board.Step called action b b')
    (hserves : called.serves) :
    account.waiting b' + (account.emitted b'.effects + account.leaves action.report) =
      account.waiting b + (account.emitted b.effects + account.enters action.report) := by
  have hwhole : ∀ faces faces' said said' : Multiset M, faces = faces' → said = said' →
      faces + account.connection b.connection + (account.emitted b.effects + said) =
        faces' + account.connection b.connection + (account.emitted b.effects + said') := by
    rintro _ _ _ _ rfl rfl
    rfl
  cases h with
  | rests =>
      exact hwhole _ _ _ _ rfl hbalanced.silent
  | @face _ a a' action effects sessionId ha hstep =>
      have hsum : Table.sum account.face (b.faces.insert sessionId a') +
            (account.emitted effects +
              account.leaves (BoardAction.face sessionId a.incarnation action).report) =
          Table.sum account.face b.faces +
            account.enters (BoardAction.face sessionId a.incarnation action).report := by
        refine sum_setFace account.face ?_
        rw [ha]
        exact hbalanced.face _ _ _ _ _ ha hstep
      change Table.sum account.face (b.faces.insert sessionId a') + account.connection b.connection +
        (account.emitted (b.effects + effects) + _) =
          Table.sum account.face b.faces + account.connection b.connection + _
      rw [hbalanced.emitted_add, add_assoc (account.emitted b.effects), add_left_comm,
        add_right_comm, hsum]
      abel
  | connection hstep =>
      change Table.sum account.face b.faces + account.connection _ +
          (account.emitted b.effects + _) =
        Table.sum account.face b.faces + account.connection b.connection + _
      rw [add_left_comm, add_assoc, hbalanced.connection _ _ hstep]
      abel
  | installs sessionId face lifecycle hid hfree hexecution hoperation hlive hinUse =>
      have hsum : Table.sum account.face (b.faces.insert sessionId face) + 0 =
          Table.sum account.face b.faces + 0 := by
        refine sum_setFace account.face ?_
        rw [hbalanced.opened face lifecycle hlive]
        cases ha : b.faces.lookup sessionId with
        | none => rfl
        | some a => exact (congrArg (· + 0) (hbalanced.closed _ a ha (hfree a ha).2)).symm
      rw [add_zero, add_zero] at hsum
      exact hwhole _ _ _ _ hsum (hbalanced.opens sessionId)
  | registers sessionId incarnation hnew =>
      have hsum := Table.sum_insert_of_lookup_none account.face
        ⟨sessionId, incarnation, none, none, none⟩ (hnew hserves)
      rw [hbalanced.gone _ rfl, zero_add] at hsum
      exact hwhole _ _ _ _ hsum hbalanced.silent
  | removes sessionId ha hlive =>
      have hsum := Table.sum_erase account.face ha
      rw [hbalanced.gone _ hlive, zero_add] at hsum
      exact hwhole _ _ _ _ hsum.symm hbalanced.silent

/-- The account of the interactions. -/
def askedAccount : Account Asked where
  face := Face.asked
  connection := (·.asked none)
  emitted := cancelled
  enters := Report.opened
  leaves := Report.resolved

/-- The account of the flows. -/
def flowAccount : Account FlowKey where
  face := Face.waiting
  connection := (·.waiting none)
  emitted := aborted
  enters := Report.accepted
  leaves := Report.settled

/-- The reports of the connection are about its interactions. -/
theorem report_connection (interaction : InteractionAction) :
    let report := (BoardAction.connection interaction).report
    let said := Report.interacts none interaction
    report.opened = said.opened ∧ report.resolved = said.resolved ∧
      report.accepted = said.accepted ∧ report.settled = said.settled := by
  cases interaction <;> exact ⟨rfl, rfl, rfl, rfl⟩

theorem askedAccount_balanced (called : Caller) (hkeyed : b.Keyed) (hb : b.Sound) :
    askedAccount.Balanced called b where
  emitted_add := cancelled_add
  face id a a' action effects ha hstep := hstep.asked_add (hb.faces _ _ ha) (hkeyed _ _ ha)
  connection action d hstep := by
    obtain ⟨hopened, hresolved, -, -⟩ := report_connection action
    change d.asked none + Report.resolved _ = b.connection.asked none + Report.opened _
    rw [hopened, hresolved]
    exact hstep.asked_add none
  gone a hlive := by
    change a.asked = 0
    rw [Face.asked, hlive, Option.elim_none]
  closed id a ha hclosed := ((hb.faces id a ha).idle_of_closed hclosed).1
  opened a lifecycle hlive := (Face.asked_of_live hlive).trans (Interactions.idle_fresh.asked _)
  silent := rfl
  opens _ := rfl

theorem flowAccount_balanced (called : Caller) (hkeyed : b.Keyed) (hb : b.Sound) :
    flowAccount.Balanced called b where
  emitted_add := aborted_add
  face id a a' action effects ha hstep :=
    hstep.waiting_add (hb.faces _ _ ha) (hkeyed _ _ ha) fun _ hurl =>
      Board.mem_urlIds_of_face ha hurl
  connection action d hstep := by
    obtain ⟨-, -, haccepted, hsettled⟩ := report_connection action
    change d.waiting none + Report.settled _ = b.connection.waiting none + Report.accepted _
    rw [haccepted, hsettled]
    exact hstep.waiting_add (fun url hurl => Multiset.mem_add.mpr (.inr hurl)) none
  gone a hlive := by
    change a.waiting = 0
    rw [Face.waiting, hlive, Option.elim_none]
  closed id a ha hclosed := ((hb.faces id a ha).idle_of_closed hclosed).2
  opened a lifecycle hlive :=
    (Face.waiting_of_live hlive).trans (Interactions.idle_fresh.waiting _)
  silent := rfl
  opens _ := rfl

end Boards

end Attyd.Session
