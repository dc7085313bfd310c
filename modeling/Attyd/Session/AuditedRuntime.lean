import Attyd.Session.BoardAccounts
import Attyd.Session.Settlements

/-!
# Runs of interactions

A run of the bridge with a log of what its operations reported: which interactions were
opened and resolved, which flows were registered and settled, which effects the bridge
took, and which interactions are retired until their session is opened anew. The log
balances with what waits and what the effects cancel and abort.
-/

namespace Attyd.Session

open Json (Value)
open History

section Pending

/-- The interaction of a scope that waits under an id. -/
def Board.pendingAt (b : Board) (asked : Asked) : Option PendingInteraction :=
  match asked.scope with
  | none => (b.connection.ledger asked.kind).pending.lookup asked.interactionId
  | some (sessionId, incarnation) =>
      (b.faces.lookup sessionId).bind fun a =>
        if a.incarnation = incarnation then
          a.live.bind fun live =>
            (live.interactions.ledger asked.kind).pending.lookup asked.interactionId
        else none

/-- What a scope has of its interactions, whatever its incarnation, is known to be answered. -/
def Board.Remembers (b : Board) (asked : Asked) : Prop :=
  match asked.scope with
  | none => asked.interactionId ∈ (b.connection.ledger asked.kind).resolved
  | some (sessionId, _) =>
      ∀ a live, b.faces.lookup sessionId = some a → a.live = some live →
        asked.interactionId ∈ (live.interactions.ledger asked.kind).resolved

variable {b b' : Board} {asked : Asked}

/-- What is known to be answered waits no longer. -/
theorem Board.Remembers.pendingAt (h : b.Remembers asked) (hb : b.Sound) :
    b.pendingAt asked = none := by
  obtain ⟨scope, kind, id⟩ := asked
  cases scope with
  | none => exact hb.connection kind id h
  | some owner =>
      obtain ⟨sessionId, incarnation⟩ := owner
      change (b.faces.lookup sessionId).bind _ = none
      cases ha : b.faces.lookup sessionId with
      | none => rfl
      | some a =>
          rw [Option.bind_some]
          split
          · cases hlive : a.live with
            | none => rfl
            | some live => exact (hb.faces _ _ ha).answered live hlive kind id (h a live ha hlive)
          · rfl

end Pending

section Steps

variable {called : Caller} {used urlUsed : String → Prop} {sessionId : String} {a a' : Face}
  {effects : Multiset RuntimeEffect} {b b' : Board}

/-- A response that began goes on while its interaction waits. -/
def Interactions.Keeps (d d' : Interactions) : Prop :=
  ∀ kind id i i' operationId, (d.ledger kind).pending.lookup id = some i →
    i.respondingOperationId = some operationId →
    (d'.ledger kind).pending.lookup id = some i' → i'.respondingOperationId = some operationId

theorem Interactions.Keeps.of_eq {d d' : Interactions} (h : d' = d) : d.Keeps d' := by
  intro kind id i i' operationId hi ho hi'
  rw [h, hi] at hi'
  cases hi'
  exact ho

theorem Interactions.Step.keeps {active : Option String} {action : InteractionAction}
    {d d' : Interactions} (h : d.Step used urlUsed active action d') : d.Keeps d' := by
  intro kind id i i' operationId hi ho hi'
  rcases h.ledger_cases kind with hsame | ⟨own, request, -, -, hfree, hopened⟩ |
    ⟨own, other, pending, hpending, hnone, hresponded⟩ | ⟨own, url, -, hresolved⟩
  · rw [hsame, hi] at hi'
    cases hi'
    exact ho
  · have hne : id ≠ own := by
      rintro rfl
      rw [hfree] at hi
      cases hi
    rw [hopened, Finmap.lookup_insert_of_ne _ hne, hi] at hi'
    cases hi'
    exact ho
  · have hne : id ≠ own := by
      rintro rfl
      cases hi.symm.trans hpending
      rw [hnone] at ho
      cases ho
    rw [hresponded, Finmap.lookup_insert_of_ne _ hne, hi] at hi'
    cases hi'
    exact ho
  · by_cases hne : id = own
    · rw [hresolved, hne, Finmap.lookup_erase] at hi'
      cases hi'
    · rw [hresolved, Finmap.lookup_erase_ne hne, hi] at hi'
      cases hi'
      exact ho

theorem Interactions.keeps_sealed (d : Interactions) (operationId : String) :
    d.Keeps (d.sealed operationId) := by
  intro kind id i i' own hi ho hi'
  rw [ledger_sealed, Ledger.lookup_sealTurn, hi] at hi'
  cases (Option.filter_eq_some_iff.mp hi').1
  exact ho

theorem Interactions.keeps_drained (d : Interactions) : d.Keeps d.drained := by
  rintro (_ | _) id i i' own - - ⟨⟩

theorem Face.Step.keeps {action : FaceAction}
    (h : Face.Step called used urlUsed sessionId action effects a a') {live' : LiveFace}
    (hlive : a'.live = some live') :
    ∃ live, a.live = some live ∧ live.interactions.Keeps live'.interactions := by
  obtain ⟨live, hl, hsame | hdrained | ⟨operationId, -, hsealed⟩ | ⟨interaction, -, hstep⟩⟩ :=
    h.live_cases live' hlive
  · exact ⟨live, hl, .of_eq hsame⟩
  · exact ⟨live, hl, hdrained ▸ Interactions.keeps_drained _⟩
  · exact ⟨live, hl, hsealed ▸ Interactions.keeps_sealed _ _⟩
  · exact ⟨live, hl, hstep.keeps⟩

/-- What a live session knows to be answered it knows after each step. -/
theorem Face.Step.resolved_subset {action : FaceAction}
    (h : Face.Step called used urlUsed sessionId action effects a a') {live' : LiveFace}
    (hlive : a'.live = some live') :
    ∃ live, a.live = some live ∧ ∀ kind,
      (live.interactions.ledger kind).resolved ⊆ (live'.interactions.ledger kind).resolved := by
  obtain ⟨live, hl, hsame | hdrained | ⟨operationId, -, hsealed⟩ | ⟨interaction, -, hstep⟩⟩ :=
    h.live_cases live' hlive
  · exact ⟨live, hl, fun kind => hsame ▸ fun _ h => h⟩
  · refine ⟨live, hl, fun kind => ?_⟩
    rw [hdrained]
    cases kind <;> exact fun _ h => h
  · refine ⟨live, hl, fun kind id hid => ?_⟩
    rw [hsealed, Interactions.ledger_sealed]
    exact Multiset.mem_add.mpr (.inr hid)
  · exact ⟨live, hl, hstep.resolved_subset⟩

end Steps

section Boards

variable {called : Caller} {action : BoardAction} {b b' : Board} {asked : Asked}

/-- A response in progress is the response until its interaction waits no longer. -/
theorem Board.Step.keeps (h : Board.Step called action b b') {i i' : PendingInteraction}
    {operationId : String} (hi : b.pendingAt asked = some i)
    (ho : i.respondingOperationId = some operationId) (hi' : b'.pendingAt asked = some i') :
    i'.respondingOperationId = some operationId := by
  obtain ⟨scope, kind, id⟩ := asked
  have same (hsame : b'.pendingAt ⟨scope, kind, id⟩ = b.pendingAt ⟨scope, kind, id⟩) :
      i'.respondingOperationId = some operationId := by
    rw [hsame, hi] at hi'
    cases hi'
    exact ho
  -- A written session is looked at under its own id only, and as one of its own incarnation.
  have written {sessionId : String} {face : Face} {effects : Multiset RuntimeEffect}
      (hb' : b' = { b.setFace sessionId face with effects })
      (hown : ∀ live', face.live = some live' → live'.interactions = .fresh ∨
        ∀ a, b.faces.lookup sessionId = some a →
          ∃ live, a.live = some live ∧ a.incarnation = face.incarnation ∧
            live.interactions.Keeps live'.interactions) :
      i'.respondingOperationId = some operationId := by
    subst hb'
    cases scope with
    | none => exact same rfl
    | some owner =>
        by_cases hid : owner.1 = sessionId
        · obtain ⟨own, incarnation⟩ := owner
          cases (hid : own = sessionId)
          change ((b.faces.insert own face).lookup own).bind _ = _ at hi'
          rw [Finmap.lookup_insert, Option.bind_some] at hi'
          split at hi'
          case isFalse => cases hi'
          case isTrue hinc =>
            obtain ⟨live', hlive', hi'⟩ := Option.bind_eq_some_iff.mp hi'
            obtain ⟨a, ha, hi⟩ := Option.bind_eq_some_iff.mp hi
            rcases hown live' hlive' with hfresh | hown
            · rw [hfresh] at hi'
              cases kind <;> cases hi'
            · obtain ⟨live, hlive, hsame, hkeeps⟩ := hown a ha
              rw [if_pos (hsame.trans hinc), hlive, Option.bind_some] at hi
              exact hkeeps kind id i i' operationId hi ho hi'
        · refine same ?_
          change ((b.faces.insert sessionId face).lookup owner.1).bind _ =
            (b.faces.lookup owner.1).bind _
          rw [Finmap.lookup_insert_of_ne _ hid]
  cases h with
  | rests => exact same rfl
  | face sessionId ha hstep =>
      refine written rfl fun live' hlive' => .inr fun a hold => ?_
      cases ha.symm.trans hold
      obtain ⟨live, hlive, hkeeps⟩ := hstep.keeps hlive'
      exact ⟨live, hlive, hstep.incarnation_eq.symm, hkeeps⟩
  | connection hstep =>
      cases scope with
      | none => exact hstep.keeps kind id i i' operationId hi ho hi'
      | some owner => exact same rfl
  | installs sessionId face lifecycle hid hfree hexecution hoperation hlive =>
      -- A session that is opened anew has nothing that waits.
      refine written rfl fun live' hlive' => .inl ?_
      cases hlive.symm.trans hlive'
      rfl
  | registers sessionId incarnation => exact written rfl fun live' hlive' => by cases hlive'
  | removes sessionId =>
      cases scope with
      | none => exact same rfl
      | some owner =>
          by_cases hid : owner.1 = sessionId
          · obtain ⟨own, incarnation⟩ := owner
            cases (hid : own = sessionId)
            change ((b.faces.erase own).lookup own).bind _ = _ at hi'
            rw [Finmap.lookup_erase] at hi'
            cases hi'
          · refine same ?_
            change ((b.faces.erase sessionId).lookup owner.1).bind _ =
              (b.faces.lookup owner.1).bind _
            rw [Finmap.lookup_erase_ne hid]

/-- Until its session is opened anew, what is answered stays so. -/
theorem Board.Step.remembers (h : Board.Step called action b b')
    (hopens : ∀ sessionId, action = .installs sessionId → ∀ owner, asked.scope = some owner →
      owner.1 ≠ sessionId)
    (hb : b.Remembers asked) : b'.Remembers asked := by
  obtain ⟨scope, kind, id⟩ := asked
  cases h with
  | rests => exact hb
  | face sessionId ha hstep =>
      cases scope with
      | none => exact hb
      | some owner =>
          intro a' live' ha' hlive'
          by_cases hid : owner.1 = sessionId
          · rw [hid] at ha'
            cases (Finmap.lookup_insert _).symm.trans ha'
            obtain ⟨live, hlive, hsubset⟩ := hstep.resolved_subset hlive'
            exact hsubset kind (hb _ live (hid ▸ ha) hlive)
          · exact hb a' live' ((Finmap.lookup_insert_of_ne _ hid).symm.trans ha') hlive'
  | connection hstep =>
      cases scope with
      | none => exact hstep.resolved_subset kind hb
      | some owner => exact hb
  | installs sessionId =>
      cases scope with
      | none => exact hb
      | some owner =>
          intro a' live' ha' hlive'
          have hid := hopens sessionId rfl owner rfl
          exact hb a' live' ((Finmap.lookup_insert_of_ne _ hid).symm.trans ha') hlive'
  | registers sessionId =>
      cases scope with
      | none => exact hb
      | some owner =>
          intro a' live' ha' hlive'
          by_cases hid : owner.1 = sessionId
          · rw [hid] at ha'
            cases (Finmap.lookup_insert _).symm.trans ha'
            cases hlive'
          · exact hb a' live' ((Finmap.lookup_insert_of_ne _ hid).symm.trans ha') hlive'
  | removes sessionId =>
      cases scope with
      | none => exact hb
      | some owner =>
          intro a' live' ha' hlive'
          by_cases hid : owner.1 = sessionId
          · rw [hid] at ha'
            cases (Finmap.lookup_erase _ _).symm.trans ha'
          · exact hb a' live' ((Finmap.lookup_erase_ne hid).symm.trans ha') hlive'

/-- The interactions of a session that a turn opened. -/
def Board.openedBy (b : Board) (sessionId : String) (incarnation : Nat) (operationId : String) :
    Multiset Asked :=
  ((b.faces.lookup sessionId).bind (·.live)).elim 0 fun live =>
    askedIn (live.interactions.permissions.openedBy operationId) (some (sessionId, incarnation))
        .permission +
      askedIn (live.interactions.elicitations.openedBy operationId)
        (some (sessionId, incarnation)) .elicitation

/-- What a report retires: an interaction that was resolved, or those of a sealed turn. -/
def Report.retires (b : Board) : Report → Multiset Asked
  | .interacts scope (.resolves kind id _) => {⟨scope, kind, id⟩}
  | .seals sessionId incarnation operationId => b.openedBy sessionId incarnation operationId
  | _ => 0

theorem Interactions.Step.mem_resolved {used urlUsed : String → Prop} {active : Option String}
    {d d' : Interactions} {kind : InteractionKind} {id : String} {url : Option String}
    (h : d.Step used urlUsed active (.resolves kind id url) d') :
    id ∈ (d'.ledger kind).resolved := by
  cases h with
  | resolves =>
      rw [ledger_accepted, ledger_withLedger, if_pos rfl]
      exact Multiset.mem_cons_self _ _

/-- What a step retires is known to be answered. -/
theorem Board.Step.remembers_retired (h : Board.Step called action b b')
    (hasked : asked ∈ action.report.retires b) : b'.Remembers asked := by
  cases h with
  | rests => cases hasked
  | installs => cases hasked
  | registers => cases hasked
  | removes => cases hasked
  | connection hstep =>
      rename_i interaction d hpermissions
      cases interaction with
      | resolves kind id url =>
          cases Multiset.mem_singleton.mp hasked
          exact hstep.mem_resolved
      | _ => cases hasked
  | @face _ a a' faceAction effects sessionId ha hstep =>
      cases faceAction with
      | interacts interaction =>
          cases interaction with
          | resolves kind id url =>
              cases Multiset.mem_singleton.mp hasked
              cases hstep with
              | interacts hlive hanswers hinteracts =>
                  intro c live' hc hlive'
                  cases (Finmap.lookup_insert _).symm.trans hc
                  cases hlive'
                  exact hinteracts.mem_resolved
          | _ => cases hasked
      | seals operationId =>
          cases hstep with
          | @seals _ live _ lifecycle hid hlive =>
              change asked ∈ b.openedBy sessionId a.incarnation operationId at hasked
              rw [Board.openedBy, ha, Option.bind_some, hlive, Option.elim_some] at hasked
              have hsealed : ∀ kind, asked ∈ askedIn ((live.interactions.ledger kind).openedBy
                  operationId) (some (sessionId, a.incarnation)) kind →
                  asked.scope = some (sessionId, a.incarnation) ∧ asked.interactionId ∈
                    ((live.interactions.sealed operationId).ledger asked.kind).resolved := by
                intro kind hmem
                obtain ⟨id, i, hi, rfl⟩ := Table.mem_collect.mp hmem
                refine ⟨rfl, ?_⟩
                rw [Interactions.ledger_sealed]
                exact Multiset.mem_add.mpr (.inl (Table.mem_collect.mpr ⟨id, i, hi, rfl⟩))
              have hmem : asked.scope = some (sessionId, a.incarnation) ∧ asked.interactionId ∈
                  ((live.interactions.sealed operationId).ledger asked.kind).resolved := by
                rcases Multiset.mem_add.mp hasked with hmem | hmem
                · exact hsealed .permission hmem
                · exact hsealed .elicitation hmem
              rw [Board.Remembers, hmem.1]
              intro c live' hc hlive'
              cases (Finmap.lookup_insert _).symm.trans hc
              cases hlive'
              exact hmem.2
      | drains operationId lifecycle => cases lifecycle <;> cases hasked
      | retires operationId cleans => cases cleans <;> cases hasked
      | finishes operationId cleans => cases cleans <;> cases hasked
      | _ => cases hasked

end Boards

section Responses

variable {σ δ : Type} {r : SessionRegistry σ δ} {asked : Asked}

/-- The interaction that an operation answers. -/
def RuntimeOp.answersTo : RuntimeOp → Option Asked
  | resolvePermission _ id incarnation interactionId
  | beginPermissionResponse _ id incarnation interactionId _
  | completePermissionResponse _ id incarnation interactionId _ =>
      some ⟨some (id, incarnation), .permission, interactionId⟩
  | resolveElicitation _ scope interactionId _
  | beginElicitationResponse _ scope interactionId _
  | completeElicitationResponse _ scope interactionId _ _ =>
      some ⟨scope, .elicitation, interactionId⟩
  | _ => none

/-- The interactions a scope of the registry has. -/
def SessionRegistry.InScope (r : SessionRegistry σ δ) (scope : Scope) (d : Interactions) : Prop :=
  match scope with
  | none => d = r.connectionInteractions
  | some (sessionId, _) =>
      ∃ owner live, r.state sessionId = some owner ∧ owner.live = some live ∧ d = live.interactions

/-- What a scope remembers is answered in its interactions. -/
theorem Board.Remembers.ledger {scope : Scope} {kind : InteractionKind} {id : String}
    (h : r.board.Remembers ⟨scope, kind, id⟩) {d : Interactions} (hd : r.InScope scope d) :
    id ∈ (d.ledger kind).resolved := by
  cases scope with
  | none =>
      cases (hd : d = r.connectionInteractions)
      exact h
  | some owner =>
      obtain ⟨a, live, ha, hlive, rfl⟩ := hd
      exact h a.face live.face (lookup_faces ha) (SessionState.face_live hlive)

theorem Board.Sound.inScope (hb : r.board.Sound) {scope : Scope} {d : Interactions}
    (hd : r.InScope scope d) : d.Answered := by
  cases scope with
  | none =>
      cases (hd : d = r.connectionInteractions)
      exact hb.connection
  | some owner =>
      obtain ⟨a, live, ha, hlive, rfl⟩ := hd
      exact (hb.faces _ _ (lookup_faces ha)).answered live.face (SessionState.face_live hlive)

/-- An operation that leaves the interactions of its scope changes nothing. -/
theorem reduceScope_same {α : Type} {expectedEpoch : String} {scope : Scope}
    {change : Option String → Interactions → Except RuntimeStateError (α × Interactions × Bool)}
    (hchange : ∀ d, r.InScope scope d → ∀ active answer d' publishes,
      change active d = .ok (answer, d', publishes) → d' = d ∧ publishes = false) :
    (r.reduceScope expectedEpoch scope change).2 = r := by
  cases scope with
  | some owner =>
      simp only [SessionRegistry.reduceScope]
      rcases reduceLive_cases r expectedEpoch owner.1 owner.2 (.ok ()) _ with
        ⟨error, h⟩ | ⟨own, live, answer, reduction, -, hr, hok, h⟩
      · rw [h]
      · obtain ⟨⟨answer, d, publishes⟩, hchanged, hok⟩ := bind_eq_ok.mp hok
        cases hok
        obtain ⟨rfl, rfl⟩ := hchange _ ⟨own, live, hr.state, hr.live, rfl⟩ _ _ _ _ hchanged
        rw [h]
        change { r.putState owner.1 { own with live := some live } with effects := r.effects + 0 } = r
        rw [← hr.live, putState_same hr.state, add_zero]
  | none =>
      simp only [SessionRegistry.reduceScope]
      split
      · rfl
      · rename_i answer d publishes h
        obtain ⟨_, -, hchanged⟩ := bind_eq_ok.mp h
        obtain ⟨rfl, rfl⟩ := hchange _ rfl _ _ _ _ hchanged
        rfl

theorem Ledger.respond_answered {d d' : Ledger} {id operationId : String} {inUse : Bool}
    {answer : InteractionResponseStart} (hnone : d.pending.lookup id = none) :
    d.respond id operationId inUse ≠ .ok (answer, d') := by
  intro h
  rw [Ledger.respond, hnone] at h
  cases h

theorem Ledger.resolve_answered {d d' : Ledger} {id : String} {refused : Bool}
    {answer : InteractionResolution} {value : Value} (hid : id ∈ d.resolved)
    (h : d.resolve id refused = .ok (answer, value, d')) : answer = .alreadyResolved ∧ d' = d := by
  rw [Ledger.resolve, if_pos hid] at h
  cases h
  exact ⟨rfl, rfl⟩

variable [Inhabited σ] [DecidableEq δ]

/-- A second response to what is answered has no effect. -/
theorem RuntimeOp.step_answered (env : RuntimeEnv σ δ) (op : RuntimeOp) (hb : r.board.Sound)
    (hknown : r.board.Remembers asked) (hop : op.answersTo = some asked) :
    op.step env r = r := by
  cases op with
  | resolvePermission epoch id incarnation interactionId =>
      cases hop
      refine reduceScope_same fun d hd active answer d' publishes h => ?_
      obtain ⟨⟨answer, value, ledger⟩, hresolve, h⟩ := bind_eq_ok.mp h
      cases h
      obtain ⟨rfl, rfl⟩ := Ledger.resolve_answered (hknown.ledger hd) hresolve
      exact ⟨rfl, rfl⟩
  | beginPermissionResponse epoch id incarnation interactionId operationId =>
      cases hop
      refine reduceScope_same fun d hd active answer d' publishes h => ?_
      obtain ⟨⟨answer, ledger⟩, hrespond, h⟩ := bind_eq_ok.mp h
      exact absurd hrespond (Ledger.respond_answered
        (hb.inScope hd .permission interactionId (hknown.ledger hd)))
  | completePermissionResponse epoch id incarnation interactionId operationId =>
      cases hop
      refine reduceScope_same fun d hd active answer d' publishes h => ?_
      obtain ⟨⟨answer, value, ledger⟩, hcomplete, h⟩ := bind_eq_ok.mp h
      cases h
      obtain ⟨rfl, rfl⟩ := Ledger.resolve_answered (hknown.ledger hd)
        (Ledger.complete_eq_ok hcomplete).1
      exact ⟨rfl, rfl⟩
  | resolveElicitation epoch scope interactionId acceptedUrlId =>
      cases hop
      refine reduceScope_same fun d hd active answer d' publishes h => ?_
      obtain ⟨⟨answer, value, ledger⟩, hresolve, h⟩ := bind_eq_ok.mp h
      cases h
      obtain ⟨rfl, rfl⟩ := Ledger.resolve_answered (hknown.ledger hd) hresolve
      exact ⟨rfl, rfl⟩
  | beginElicitationResponse epoch scope interactionId operationId =>
      cases hop
      refine reduceScope_same fun d hd active answer d' publishes h => ?_
      obtain ⟨⟨answer, ledger⟩, hrespond, h⟩ := bind_eq_ok.mp h
      exact absurd hrespond (Ledger.respond_answered
        (hb.inScope hd .elicitation interactionId (hknown.ledger hd)))
  | completeElicitationResponse epoch scope interactionId operationId acceptedUrlId =>
      cases hop
      refine reduceScope_same fun d hd active answer d' publishes h => ?_
      obtain ⟨⟨answer, value, ledger⟩, hcomplete, h⟩ := bind_eq_ok.mp h
      cases h
      obtain ⟨rfl, rfl⟩ := Ledger.resolve_answered (hknown.ledger hd)
        (Ledger.complete_eq_ok hcomplete).1
      exact ⟨rfl, rfl⟩
  | _ => cases hop

end Responses

section Runs

/-- What the operations of a run reported, and the effects the bridge took. -/
structure InteractionLog where
  opened : Multiset Asked
  resolved : Multiset Asked
  accepted : Multiset FlowKey
  settled : Multiset FlowKey
  retired : Multiset Asked
  taken : Multiset RuntimeEffect

/-- The ids that stay retired: those of a session only until it is opened anew. -/
def Report.keepsRetired : Report → Asked → Bool
  | .opens sessionId, asked => asked.scope.all fun owner => owner.1 ≠ sessionId
  | _, _ => true

def InteractionLog.note (log : InteractionLog) (b : Board) (report : Report)
    (taken : Multiset RuntimeEffect) : InteractionLog where
  opened := log.opened + report.opened
  resolved := log.resolved + report.resolved
  accepted := log.accepted + report.accepted
  settled := log.settled + report.settled
  retired := report.retires b + log.retired.filter fun asked => report.keepsRetired asked = true
  taken := log.taken + taken

variable {σ δ : Type} [Inhabited σ] [DecidableEq δ]

/-- The effects that an operation takes from the registry. -/
def RuntimeOp.takes (r : SessionRegistry σ δ) : RuntimeOp → Multiset RuntimeEffect
  | .takeEffects => r.takeEffects.1
  | _ => 0

section

variable (σ δ : Type)

structure AuditedRuntime where
  registry : SessionRegistry σ δ
  log : InteractionLog

end

namespace AuditedRuntime

omit [Inhabited σ] [DecidableEq δ] in
def new (epoch : String) : AuditedRuntime σ δ := ⟨.new epoch, ⟨0, 0, 0, 0, 0, 0⟩⟩

/-- One operation of the bridge, noted in the log. -/
def step (env : RuntimeEnv σ δ) (w : AuditedRuntime σ δ) (op : RuntimeOp) : AuditedRuntime σ δ :=
  ⟨op.step env w.registry,
    w.log.note w.registry.board (op.report w.registry) (op.takes w.registry)⟩

/-- The bridge makes the call in this state. -/
def Calls (w : AuditedRuntime σ δ) (op : RuntimeOp) : Prop := op.called w.registry = true

instance (w : AuditedRuntime σ δ) (op : RuntimeOp) : Decidable (w.Calls op) :=
  inferInstanceAs (Decidable (_ = true))

/-- The effects of the whole run: those the bridge took, and those that wait for it. -/
def effects (w : AuditedRuntime σ δ) : Multiset RuntimeEffect := w.log.taken + w.registry.effects

/-- The log balances with the board, and what is retired waits no longer. -/
structure Audited (w : AuditedRuntime σ δ) : Prop where
  held : w.registry.board.Held
  sound : w.registry.board.Sound
  asked : w.log.opened = w.registry.board.asked + w.log.resolved + cancelled w.effects
  flows : w.log.accepted = w.registry.board.waiting + w.log.settled + aborted w.effects
  retired : ∀ asked ∈ w.log.retired, w.registry.board.Remembers asked

theorem cancelled_answers (effects : Multiset RuntimeEffect) :
    cancelled (answers effects) = cancelled effects := by
  induction effects using Multiset.induction_on with
  | empty => rfl
  | cons effect effects ih =>
      rw [answers, Multiset.filter_cons, ← answers, cancelled_add, ih, ← Multiset.singleton_add,
        cancelled_add]
      cases effect <;> rfl

theorem aborted_answers (effects : Multiset RuntimeEffect) :
    aborted (answers effects) = aborted effects := by
  induction effects using Multiset.induction_on with
  | empty => rfl
  | cons effect effects ih =>
      rw [answers, Multiset.filter_cons, ← answers, aborted_add, ih, ← Multiset.singleton_add,
        aborted_add]
      cases effect <;> rfl

/-- A balanced step extends an account that balances. -/
private theorem extend {M : Type*} {waiting waiting' old left taken emitted emitted' entered
    leaves : Multiset M}
    (hold : old = waiting + left + (taken + emitted))
    (hstep : waiting' + (emitted' + leaves) = waiting + (emitted + entered)) :
    old + entered = waiting' + (left + leaves) + (taken + emitted') := by
  calc old + entered = waiting + (emitted + entered) + (left + taken) := by rw [hold]; abel
    _ = waiting' + (emitted' + leaves) + (left + taken) := by rw [hstep]
    _ = waiting' + (left + leaves) + (taken + emitted') := by abel

/-- Taking the effects only moves them into the log. -/
theorem Audited.takeEffects {w : AuditedRuntime σ δ} (env : RuntimeEnv σ δ) (h : w.Audited) :
    (w.step env .takeEffects).Audited := by
  refine ⟨⟨h.held.keyed, h.held.operationIds, h.held.urlIds⟩, ⟨h.sound.faces, h.sound.connection⟩,
    ?_, ?_, ?_⟩
  · change w.log.opened + 0 = w.registry.board.asked + (w.log.resolved + 0) +
      cancelled (w.effects + 0)
    rw [add_zero, add_zero, add_zero]
    exact h.asked
  · change w.log.accepted + 0 = w.registry.board.waiting + (w.log.settled + 0) +
      aborted (w.effects + 0)
    rw [add_zero, add_zero, add_zero]
    exact h.flows
  · intro asked hasked
    rcases Multiset.mem_add.mp hasked with hmem | hmem
    · cases hmem
    · exact h.retired asked (Multiset.mem_filter.mp hmem).1

/-- Every call of the bridge keeps the log balanced. -/
theorem Audited.step {w : AuditedRuntime σ δ} (env : RuntimeEnv σ δ) (op : RuntimeOp)
    (h : w.Audited) (hcalled : w.Calls op) : (w.step env op).Audited := by
  by_cases hop : op = .takeEffects
  · subst hop
    exact h.takeEffects env
  · obtain ⟨action, hreport, hstep⟩ := op.stepFor env w.registry hop h.held.keyed
    have hserves : (op.caller w.registry).serves := hcalled
    have htakes : op.takes w.registry = 0 := by
      cases op with
      | takeEffects => exact absurd rfl hop
      | _ => rfl
    have hasked := (askedAccount_balanced _ h.held.keyed h.sound).step hstep hserves
    have hflows := (flowAccount_balanced _ h.held.keyed h.sound).step hstep hserves
    rw [hreport] at hasked hflows
    refine ⟨h.held.step hstep, hstep.sound hserves h.sound, ?_, ?_, ?_⟩
    · change w.log.opened + _ = _ + (w.log.resolved + _) +
        cancelled (w.log.taken + op.takes w.registry + (op.step env w.registry).effects)
      rw [htakes, add_zero, cancelled_add, ← cancelled_answers (op.step env w.registry).effects]
      refine extend ?_ hasked
      rw [h.asked, effects, cancelled_add, ← cancelled_answers w.registry.effects]
      rfl
    · change w.log.accepted + _ = _ + (w.log.settled + _) +
        aborted (w.log.taken + op.takes w.registry + (op.step env w.registry).effects)
      rw [htakes, add_zero, aborted_add, ← aborted_answers (op.step env w.registry).effects]
      refine extend ?_ hflows
      rw [h.flows, effects, aborted_add, ← aborted_answers w.registry.effects]
      rfl
    · intro asked hmem
      rcases Multiset.mem_add.mp hmem with hnew | hold
      · rw [← hreport] at hnew
        exact hstep.remembers_retired hnew
      · obtain ⟨hold, hkept⟩ := Multiset.mem_filter.mp hold
        refine hstep.remembers ?_ (h.retired asked hold)
        rintro sessionId rfl owner howner hsame
        rw [← hreport] at hkept
        simp [BoardAction.report, Report.keepsRetired, howner, hsame] at hkept

omit [Inhabited σ] [DecidableEq δ] in
theorem Audited.new (epoch : String) : (new epoch : AuditedRuntime σ δ).Audited where
  held := .new epoch
  sound := by
    refine ⟨?_, Interactions.answered_fresh⟩
    intro id a ha
    cases ha
  asked := rfl
  flows := rfl
  retired := by
    intro asked h
    cases h

/-- After every run of calls that the bridge makes: each interaction that was opened either waits,
or was resolved, or had its responder cancelled, as often as it was opened; the same holds of the
flows; no URL is registered twice; what was resolved or sealed is not pending while its
session is not opened anew, and answering it again changes nothing; and a response that
began stays the one in progress. -/
theorem run_answered_once (env : RuntimeEnv σ δ) (epoch : String) (ops : List RuntimeOp)
    (hcalls : Along (step env) Calls (new epoch) ops) :
    let w : AuditedRuntime σ δ := run (step env) (new epoch) ops
    w.log.opened = w.registry.board.asked + w.log.resolved + cancelled w.effects ∧
      w.log.accepted = w.registry.board.waiting + w.log.settled + aborted w.effects ∧
      w.registry.board.urlIds.Nodup ∧
      (∀ asked ∈ w.log.retired, w.registry.board.pendingAt asked = none ∧
        ∀ op : RuntimeOp, op.answersTo = some asked → op.step env w.registry = w.registry) ∧
      ∀ (op : RuntimeOp) (asked : Asked) (i i' : PendingInteraction) (operationId : String),
        w.registry.board.pendingAt asked = some i →
        i.respondingOperationId = some operationId →
        (w.step env op).registry.board.pendingAt asked = some i' →
        i'.respondingOperationId = some operationId := by
  intro w
  have h : w.Audited :=
    run_invariant_along (P := Audited) (fun w op hw hop => hw.step env op hop) (Audited.new epoch)
      hcalls
  refine ⟨h.asked, h.flows, h.held.urlIds, ?_, ?_⟩
  · intro asked hmem
    have hknown := h.retired asked hmem
    exact ⟨hknown.pendingAt h.sound, fun op hop => op.step_answered env h.sound hknown hop⟩
  · intro op asked i i' operationId hi ho hi'
    by_cases hop : op = .takeEffects
    · subst hop
      cases hi.symm.trans hi'
      exact ho
    obtain ⟨action, -, hstep⟩ := op.stepFor env w.registry hop h.held.keyed
    exact hstep.keeps hi ho hi'

/-- A permission that was answered is retired, and answering it again changes nothing. -/
theorem run_answered_once_permission :
    let env : RuntimeEnv Unit String :=
      ⟨id, fun validation _ => (.ok (), validation), fun _ terminal => terminal⟩
    let ops : List RuntimeOp :=
      [.openNewWithReplay "epoch" "s" "/" .null [], .upsertPermission "epoch" "s" 1 "p" .null,
        .beginPermissionResponse "epoch" "s" 1 "p" "answer",
        .completePermissionResponse "epoch" "s" 1 "p" "answer"]
    let w : AuditedRuntime Unit String := run (step env) (new "epoch") ops
    let asked : Asked := ⟨some ("s", 1), .permission, "p"⟩
    (w.log.opened = {asked} ∧ w.log.resolved = {asked}) ∧
      w.registry.board.pendingAt asked = none ∧
        (RuntimeOp.beginPermissionResponse "epoch" "s" 1 "p" "again").step env w.registry =
          w.registry := by
  intro env ops w asked
  obtain ⟨-, -, -, hretired, -⟩ := run_answered_once env "epoch" ops (by decide)
  have hmem : asked ∈ w.log.retired := by decide
  exact ⟨by decide, (hretired asked hmem).1, (hretired asked hmem).2 _ rfl⟩

end AuditedRuntime

end Runs

end Attyd.Session
