import Attyd.Session.HeldIds

/-!
# Accounts of interactions and flows

Every interaction that was opened still waits, or was resolved, or its responder was
cancelled; and every flow that was registered still waits, or was settled, or was
aborted. A step moves interactions between these accounts and loses none.

## Implementation notes

A session that is closed, or that an accepted delete is removing, has nothing that waits,
so nothing is lost when its live side is dropped or replaced.
-/

namespace Attyd.Session

open Json (Value)
open History

/-- An interaction by its scope, its kind and its id. -/
structure Asked where
  scope : Scope
  kind : InteractionKind
  interactionId : String
  deriving DecidableEq

/-- A flow by its scope, its URL and its registration. -/
structure FlowKey where
  scope : Scope
  elicitationId : String
  registrationId : String
  deriving DecidableEq

section Accounts

def askedIn (pending : Table String PendingInteraction) (scope : Scope) (kind : InteractionKind) :
    Multiset Asked :=
  Table.collect (fun id _ => ⟨scope, kind, id⟩) pending

/-- The interactions of a scope that wait. -/
def Interactions.asked (d : Interactions) (scope : Scope) : Multiset Asked :=
  askedIn d.permissions.pending scope .permission + askedIn d.elicitations.pending scope .elicitation

def waitingFlows (flows : Table String UrlFlow) (scope : Scope) : Multiset FlowKey :=
  Table.collect (fun id flow => ⟨scope, id, flow.registrationId⟩)
    (flows.retain fun _ flow => flow.status = .waiting)

/-- The flows of a scope that wait. -/
def Interactions.waiting (d : Interactions) (scope : Scope) : Multiset FlowKey :=
  waitingFlows d.urlFlows scope

def Face.asked (a : Face) : Multiset Asked :=
  a.live.elim 0 fun live => live.interactions.asked (some (a.sessionId, a.incarnation))

def Face.waiting (a : Face) : Multiset FlowKey :=
  a.live.elim 0 fun live => live.interactions.waiting (some (a.sessionId, a.incarnation))

def Board.asked (b : Board) : Multiset Asked :=
  Table.sum Face.asked b.faces + b.connection.asked none

def Board.waiting (b : Board) : Multiset FlowKey :=
  Table.sum Face.waiting b.faces + b.connection.waiting none

/-- The interaction whose responder an effect cancels. -/
def RuntimeEffect.cancels : RuntimeEffect → Option Asked
  | .cancelPermissionResponder sessionId incarnation interactionId =>
      some ⟨some (sessionId, incarnation), .permission, interactionId⟩
  | .cancelElicitationResponder scope interactionId => some ⟨scope, .elicitation, interactionId⟩
  | _ => none

/-- The flow that an effect aborts. -/
def RuntimeEffect.aborts : RuntimeEffect → Option FlowKey
  | .abortUrlFlow scope elicitationId registrationId =>
      some ⟨scope, elicitationId, registrationId⟩
  | _ => none

def cancelled (effects : Multiset RuntimeEffect) : Multiset Asked :=
  effects.filterMap RuntimeEffect.cancels

def aborted (effects : Multiset RuntimeEffect) : Multiset FlowKey :=
  effects.filterMap RuntimeEffect.aborts

namespace Report

def opened : Report → Multiset Asked
  | .interacts scope (.opens kind interactionId) => {⟨scope, kind, interactionId⟩}
  | _ => 0

def resolved : Report → Multiset Asked
  | .interacts scope (.resolves kind interactionId _) => {⟨scope, kind, interactionId⟩}
  | _ => 0

def accepted : Report → Multiset FlowKey
  | .interacts scope (.resolves _ interactionId (some elicitationId)) =>
      {⟨scope, elicitationId, interactionId⟩}
  | _ => 0

def settled : Report → Multiset FlowKey
  | .interacts scope (.settles elicitationId registrationId) =>
      {⟨scope, elicitationId, registrationId⟩}
  | _ => 0

end Report

end Accounts

section Effects

theorem cancelled_add (e f : Multiset RuntimeEffect) :
    cancelled (e + f) = cancelled e + cancelled f := Multiset.filterMap_add _ _ _

theorem aborted_add (e f : Multiset RuntimeEffect) : aborted (e + f) = aborted e + aborted f :=
  Multiset.filterMap_add _ _ _

/-- Effects that are collected from a table tell what is collected from it. -/
theorem filterMap_collect {α β γ : Type*} {f : String → α → β} {g : β → Option γ}
    {h : String → α → γ} (hg : ∀ id a, g (f id a) = some (h id a)) (t : Table String α) :
    (Table.collect f t).filterMap g = Table.collect h t := by
  rw [Table.collect, Table.collect, Multiset.filterMap_map]
  have hsome : (g ∘ fun e : Σ _ : String, α => f e.1 e.2) = fun e => some (h e.1 e.2) :=
    funext fun e => hg e.1 e.2
  rw [hsome]
  exact Multiset.filterMap_eq_map _ ▸ rfl

theorem filterMap_collect_none {α β γ : Type*} {f : String → α → β} {g : β → Option γ}
    (hg : ∀ id a, g (f id a) = none) (t : Table String α) :
    (Table.collect f t).filterMap g = 0 := by
  refine Multiset.eq_zero_of_forall_notMem fun c hc => ?_
  obtain ⟨b, hb, hbc⟩ := (Multiset.mem_filterMap _ _).mp hc
  obtain ⟨id, a, -, rfl⟩ := Table.mem_collect.mp hb
  rw [hg] at hbc
  cases hbc

variable (sessionId : String) (incarnation : Nat)

theorem cancelled_cancelPermissions (pending : Table String PendingInteraction) :
    cancelled (cancelPermissions sessionId incarnation pending) =
      askedIn pending (some (sessionId, incarnation)) .permission :=
  @filterMap_collect _ _ _ _ RuntimeEffect.cancels _ (fun _ _ => rfl) pending

theorem cancelled_cancelElicitations (pending : Table String PendingInteraction) :
    cancelled (cancelElicitations sessionId incarnation pending) =
      askedIn pending (some (sessionId, incarnation)) .elicitation :=
  @filterMap_collect _ _ _ _ RuntimeEffect.cancels _ (fun _ _ => rfl) pending

theorem aborted_cancelPermissions (pending : Table String PendingInteraction) :
    aborted (cancelPermissions sessionId incarnation pending) = 0 :=
  filterMap_collect_none (fun _ _ => rfl) pending

theorem aborted_cancelElicitations (pending : Table String PendingInteraction) :
    aborted (cancelElicitations sessionId incarnation pending) = 0 :=
  filterMap_collect_none (fun _ _ => rfl) pending

variable (d : Interactions)

/-- When a scope ends, the responders of all interactions that wait are cancelled. -/
theorem cancelled_effects :
    cancelled (d.effects sessionId incarnation) = d.asked (some (sessionId, incarnation)) := by
  have hflows : cancelled (abortUrlFlows sessionId incarnation d.urlFlows) = 0 :=
    filterMap_collect_none (fun _ _ => rfl) _
  rw [Interactions.effects, cancelled_add, cancelled_add, hflows, add_zero,
    cancelled_cancelPermissions, cancelled_cancelElicitations]
  rfl

/-- When a scope ends, all flows that wait are aborted. -/
theorem aborted_effects :
    aborted (d.effects sessionId incarnation) = d.waiting (some (sessionId, incarnation)) := by
  rw [Interactions.effects, aborted_add, aborted_add, aborted_cancelPermissions,
    aborted_cancelElicitations, zero_add, zero_add]
  have hcollect := @filterMap_collect UrlFlow RuntimeEffect FlowKey
    (fun id flow => .abortUrlFlow (some (sessionId, incarnation)) id flow.registrationId)
    RuntimeEffect.aborts (fun id flow => ⟨some (sessionId, incarnation), id, flow.registrationId⟩)
    fun _ _ => rfl
  exact hcollect _

theorem askedIn_sealTurn (ledger : Ledger) (operationId : String) (scope : Scope)
    (kind : InteractionKind) :
    askedIn (ledger.openedBy operationId) scope kind +
        askedIn (ledger.sealTurn operationId).pending scope kind =
      askedIn ledger.pending scope kind := by
  have hsplit := Table.collect_retain (fun id _ => (⟨scope, kind, id⟩ : Asked)) ledger.pending
    fun _ interaction => decide (interaction.operationId = some operationId)
  simp only [← decide_not] at hsplit
  exact hsplit.symm

/-- When a turn is sealed, the responders of its interactions are cancelled. -/
theorem cancelled_sealEffects (operationId : String) :
    cancelled (d.sealEffects sessionId incarnation operationId) +
        (d.sealed operationId).asked (some (sessionId, incarnation)) =
      d.asked (some (sessionId, incarnation)) := by
  rw [Interactions.sealEffects, cancelled_add, cancelled_cancelPermissions,
    cancelled_cancelElicitations, Interactions.asked, Interactions.asked, add_add_add_comm,
    ← askedIn_sealTurn d.permissions operationId, ← askedIn_sealTurn d.elicitations operationId]
  rfl

theorem aborted_sealEffects (operationId : String) :
    aborted (d.sealEffects sessionId incarnation operationId) = 0 := by
  rw [Interactions.sealEffects, aborted_add, aborted_cancelPermissions,
    aborted_cancelElicitations, zero_add]

end Effects

section Interactions

variable {used urlUsed : String → Prop} {active : Option String} {action : InteractionAction}
  {d d' : Interactions} {scope : Scope}

theorem asked_ledger (d : Interactions) (scope : Scope) (kind : InteractionKind) :
    ∃ rest, d.asked scope = askedIn (d.ledger kind).pending scope kind + rest ∧
      ∀ ledger, (d.withLedger kind ledger).asked scope =
        askedIn ledger.pending scope kind + rest := by
  cases kind with
  | permission => exact ⟨_, rfl, fun _ => rfl⟩
  | elicitation =>
      refine ⟨askedIn d.permissions.pending scope .permission, add_comm _ _, fun ledger => ?_⟩
      exact add_comm (askedIn d.permissions.pending scope .permission) _

theorem asked_accepted (d : Interactions) (interactionId : String) (request : Value)
    (url : Option String) (scope : Scope) :
    (d.accepted interactionId request url).asked scope = d.asked scope := by
  cases url <;> rfl

/-- An interaction that waits already may be written again. -/
theorem askedIn_insert {pending : Table String PendingInteraction} {interactionId : String}
    {i : PendingInteraction} (j : PendingInteraction) (h : pending.lookup interactionId = some i)
    (scope : Scope) (kind : InteractionKind) :
    askedIn (pending.insert interactionId j) scope kind = askedIn pending scope kind :=
  Table.collect_insert_of_lookup _ j h rfl

/-- An interaction that is opened waits, and one that is resolved waited. -/
theorem Interactions.Step.asked_add (h : d.Step used urlUsed active action d') (scope : Scope) :
    d'.asked scope + (Report.interacts scope action).resolved =
      d.asked scope + (Report.interacts scope action).opened := by
  cases h with
  | opens kind interactionId request hnew hfree =>
      obtain ⟨rest, hold, hwritten⟩ := asked_ledger d scope kind
      rw [hwritten, hold, askedIn, Table.collect_insert_of_lookup_none _ _ hfree]
      change _ + rest + 0 = _ + rest + {⟨scope, kind, interactionId⟩}
      rw [add_zero, ← Multiset.singleton_add, add_assoc, add_comm]
      rfl
  | responds kind interactionId operationId hpending =>
      obtain ⟨rest, hold, hwritten⟩ := asked_ledger d scope kind
      rw [hwritten, hold]
      exact congrArg (· + rest + 0) (askedIn_insert _ hpending scope kind)
  | resolves kind interactionId acceptedUrlId hpending =>
      obtain ⟨rest, hold, hwritten⟩ := asked_ledger d scope kind
      rw [asked_accepted, hwritten, hold, askedIn, askedIn, Table.collect_erase _ hpending]
      change _ + rest + {⟨scope, kind, interactionId⟩} = _ + rest + 0
      rw [add_zero, Multiset.cons_add, add_comm]
      exact Multiset.singleton_add _ _
  | settles => rfl
  | discards => rfl

theorem waiting_withLedger (d : Interactions) (kind : InteractionKind) (ledger : Ledger)
    (scope : Scope) : (d.withLedger kind ledger).waiting scope = d.waiting scope := by
  cases kind <;> rfl

theorem urlFlows_withLedger (d : Interactions) (kind : InteractionKind) (ledger : Ledger) :
    (d.withLedger kind ledger).urlFlows = d.urlFlows := by
  cases kind <;> rfl

/-- A flow that is registered waits, and one that is settled waited. -/
theorem Interactions.Step.waiting_add (h : d.Step used urlUsed active action d')
    (hurls : ∀ url ∈ d.urlIds, urlUsed url) (scope : Scope) :
    d'.waiting scope + (Report.interacts scope action).settled =
      d.waiting scope + (Report.interacts scope action).accepted := by
  cases h with
  | opens kind => exact congrArg (· + 0) (waiting_withLedger ..)
  | responds kind => exact congrArg (· + 0) (waiting_withLedger ..)
  | resolves kind interactionId acceptedUrlId hpending hnew hurl =>
      cases acceptedUrlId with
      | none => exact congrArg (· + 0) (waiting_withLedger ..)
      | some url =>
          have hfree : d.urlFlows.lookup url = none := by
            cases hflow : d.urlFlows.lookup url with
            | none => rfl
            | some flow =>
                have hmem : url ∈ d.urlIds := Table.mem_collect.mpr ⟨url, flow, hflow, rfl⟩
                exact absurd (hurls url hmem) (hurl url rfl).2
          change waitingFlows (Finmap.insert url _ (d.withLedger kind _).urlFlows) scope + 0 =
            waitingFlows d.urlFlows scope + {⟨scope, url, interactionId⟩}
          have hkept : (d.urlFlows.retain fun _ flow => decide (flow.status = .waiting)).lookup
              url = none := by
            rw [Table.lookup_retain, hfree]
            rfl
          rw [urlFlows_withLedger, waitingFlows, Table.retain_insert rfl,
            Table.collect_insert_of_lookup_none _ _ hkept, add_zero, ← Multiset.singleton_add,
            add_comm]
          rfl
  | settles elicitationId registrationId hflow hregistration hwaiting =>
      change waitingFlows (d.urlFlows.erase elicitationId) scope +
        {⟨scope, elicitationId, registrationId⟩} = waitingFlows d.urlFlows scope + 0
      have hkept : (d.urlFlows.retain fun _ flow => decide (flow.status = .waiting)).lookup
          elicitationId = some _ := Table.lookup_retain_eq_some.mpr
            ⟨hflow, decide_eq_true hwaiting⟩
      rw [waitingFlows, waitingFlows, Table.retain_erase, Table.collect_erase _ hkept,
        hregistration, add_zero, add_comm, Multiset.singleton_add]
  | discards elicitationId hflow hwaiting =>
      change waitingFlows (d.urlFlows.erase elicitationId) scope + 0 =
        waitingFlows d.urlFlows scope + 0
      rw [waitingFlows, waitingFlows, Table.retain_erase, Table.erase_of_lookup_none]
      rw [Table.lookup_retain, hflow, Option.filter_some, if_neg (by simpa using hwaiting)]

end Interactions

end Attyd.Session
