import Attyd.Dispatch.Handoffs
import Attyd.Library.Machine

/-!
# What the waiting tasks receive

Tasks register, bind, wait and go, and completions come out of the queues, in any
order and with owners and request ids used again. A registration receives at most
one completion, the one it is bound to, and every guard is in one place or
released.

## Implementation notes

The world keeps the turns the tasks hold and numbers the guards it hands over.
Two logs that no call reads note which registrations were bound to which request
and which turns they received.
-/

namespace Attyd.Dispatch

inductive HandoffCall (ρ : Type*) where
  | register (owner : RequestOwner)
  | bind (allocation : Nat) (requestId : ρ)
  | handoff (owner : RequestOwner) (requestId : ρ)
  | discard (owner : RequestOwner) (requestId : ρ)
  | discardSession (epoch sessionId : String) (incarnation : Nat)
  | close
  | wait (allocation : Nat)
  | dropRegistration (allocation : Nat)
  | dropTurn (turn : CompletionTurn ρ)

structure Waiters (ρ : Type*) where
  handoff : CompletionHandoff ρ
  nextGuard : Nat
  held : Multiset (CompletionTurn ρ)
  bindings : List (Nat × RequestOwner × ρ)
  received : List (Nat × CompletionTurn ρ)

namespace Waiters

variable {ρ : Type*}

def new : Waiters ρ := ⟨.new, 0, 0, [], []⟩

/-- One call; whoever waits holds the turn it gets until it drops it. -/
def step [DecidableEq ρ] (w : Waiters ρ) : HandoffCall ρ → Waiters ρ
  | .register owner => { w with handoff := (w.handoff.register owner).2 }
  | .bind allocation requestId =>
      match w.handoff.registrations.lookup allocation, w.handoff.bind allocation requestId with
      | some registration, (.ok _, handoff) =>
          { w with
            handoff
            bindings := w.bindings ++ [(allocation, registration.owner, requestId)] }
      | _, (_, handoff) => { w with handoff }
  | .handoff owner requestId =>
      { w with
        handoff := (w.handoff.handoff ⟨owner, requestId, w.nextGuard⟩).2
        nextGuard := w.nextGuard + 1 }
  | .discard owner requestId => { w with handoff := (w.handoff.discard owner requestId).2 }
  | .discardSession epoch sessionId incarnation =>
      { w with handoff := w.handoff.discardSession epoch sessionId incarnation }
  | .close => { w with handoff := w.handoff.close }
  | .wait allocation =>
      match w.handoff.wait allocation with
      | (.turn turn, handoff) =>
          { w with
            handoff
            held := turn ::ₘ w.held
            received := w.received ++ [(allocation, turn)] }
      | (_, handoff) => { w with handoff }
  | .dropRegistration allocation =>
      { w with handoff := w.handoff.dropRegistration allocation }
  | .dropTurn turn =>
      if turn ∈ w.held then
        { w with
          handoff := w.handoff.release {turn}
          held := w.held.erase turn }
      else w

/-- What holds of the waiting tasks between two calls. -/
structure Orderly (w : Waiters ρ) : Prop where
  handed : w.handoff.WellHanded
  guards : (w.handoff.places + w.held).map (·.guard) = Multiset.range w.nextGuard
  once : (w.bindings.map (·.1)).Nodup
  bindings : ∀ b ∈ w.bindings, b.1 < w.handoff.nextAllocation ∧
    ∀ registration, w.handoff.registrations.lookup b.1 = some registration →
      registration.bound = true
  entries : ∀ {owner entry requestId}, w.handoff.entries.lookup owner = some entry →
    entry.requestId = some requestId → (entry.allocation, owner, requestId) ∈ w.bindings
  buffered : ∀ {allocation registration turn},
    w.handoff.registrations.lookup allocation = some registration →
    registration.received = some turn → (allocation, turn.owner, turn.requestId) ∈ w.bindings
  receivedOnce : (w.received.map (·.1)).Nodup
  received : ∀ p ∈ w.received, p.1 < w.handoff.nextAllocation ∧
    w.handoff.registrations.lookup p.1 = none ∧ (p.1, p.2.owner, p.2.requestId) ∈ w.bindings

theorem orderly_new : (new : Waiters ρ).Orderly where
  handed := CompletionHandoff.wellHanded_new
  guards := rfl
  once := List.nodup_nil
  bindings b h := by cases h
  entries h := by cases h
  buffered h := by cases h
  receivedOnce := List.nodup_nil
  received p h := by cases h

variable {w : Waiters ρ}

/-- A change that binds nothing, sends nothing and takes nothing. -/
theorem Orderly.narrow (h : w.Orderly) {handoff : CompletionHandoff ρ} {nextGuard : Nat}
    {held : Multiset (CompletionTurn ρ)} (handed : handoff.WellHanded)
    (guards : (handoff.places + held).map (·.guard) = Multiset.range nextGuard)
    (next : w.handoff.nextAllocation ≤ handoff.nextAllocation)
    (entries : ∀ {owner entry requestId}, handoff.entries.lookup owner = some entry →
      entry.requestId = some requestId → w.handoff.entries.lookup owner = some entry)
    (registrations : ∀ {allocation registration},
      handoff.registrations.lookup allocation = some registration →
      w.handoff.registrations.lookup allocation = some registration ∨
        (w.handoff.nextAllocation ≤ allocation ∧ registration.received = none)) :
    ({ w with handoff, nextGuard, held } : Waiters ρ).Orderly where
  handed := handed
  guards := guards
  once := h.once
  bindings b hb := by
    obtain ⟨hlt, hbound⟩ := h.bindings b hb
    refine ⟨hlt.trans_le next, ?_⟩
    intro registration hr
    rcases registrations hr with hr | ⟨hle, -⟩
    · exact hbound registration hr
    · exact absurd hlt (Nat.not_lt.mpr hle)
  entries hl hid := h.entries (entries hl hid) hid
  buffered hr ht := by
    rcases registrations hr with hr | ⟨-, hn⟩
    · exact h.buffered hr ht
    · cases hn.symm.trans ht
  receivedOnce := h.receivedOnce
  received p hp := by
    obtain ⟨hlt, hnone, hmem⟩ := h.received p hp
    refine ⟨hlt.trans_le next, ?_, hmem⟩
    cases hr : handoff.registrations.lookup p.1 with
    | none => rfl
    | some registration =>
        rcases registrations hr with hr | ⟨hle, -⟩
        · cases hnone.symm.trans hr
        · exact absurd hlt (Nat.not_lt.mpr hle)

/-- A change of the table that keeps all its turns. -/
theorem Orderly.kept (h : w.Orderly) {handoff : CompletionHandoff ρ}
    (places : handoff.places = w.handoff.places) :
    (handoff.places + w.held).map (·.guard) = Multiset.range w.nextGuard := by
  rw [places]
  exact h.guards

/-- A change of one registration, which is bound or gets its turn. -/
theorem Orderly.rebind (h : w.Orderly) {handoff : CompletionHandoff ρ} {nextGuard : Nat}
    {allocation : Nat} {registration registration' : CompletionRegistration ρ}
    {bindings : List (Nat × RequestOwner × ρ)} (handed : handoff.WellHanded)
    (guards : (handoff.places + w.held).map (·.guard) = Multiset.range nextGuard)
    (next : handoff.nextAllocation = w.handoff.nextAllocation)
    (hr : w.handoff.registrations.lookup allocation = some registration)
    (hregistrations : handoff.registrations =
      w.handoff.registrations.insert allocation registration')
    (hbound : registration'.bound = true) (more : ∀ b ∈ w.bindings, b ∈ bindings)
    (once : (bindings.map (·.1)).Nodup)
    (own : ∀ b ∈ bindings, b ∈ w.bindings ∨ b.1 = allocation)
    (entries : ∀ {owner entry requestId}, handoff.entries.lookup owner = some entry →
      entry.requestId = some requestId → (entry.allocation, owner, requestId) ∈ bindings)
    (buffered : ∀ turn, registration'.received = some turn →
      (allocation, turn.owner, turn.requestId) ∈ bindings) :
    ({ w with handoff, nextGuard, bindings } : Waiters ρ).Orderly := by
  have hcases : ∀ {other found}, handoff.registrations.lookup other = some found →
      (other = allocation ∧ found = registration') ∨
        (other ≠ allocation ∧ w.handoff.registrations.lookup other = some found) := by
    intro other found hfound
    rw [hregistrations] at hfound
    by_cases ho : other = allocation
    · rw [ho, Finmap.lookup_insert] at hfound
      exact .inl ⟨ho, (Option.some.inj hfound).symm⟩
    · rw [Finmap.lookup_insert_of_ne _ ho] at hfound
      exact .inr ⟨ho, hfound⟩
  refine ⟨handed, guards, once, ?_, entries, ?_, h.receivedOnce, ?_⟩
  · intro b hb
    constructor
    · change b.1 < handoff.nextAllocation
      rw [next]
      rcases own b hb with hold | heq
      · exact (h.bindings b hold).1
      · exact heq ▸ h.handed.allocated hr
    · intro found hfound
      rcases hcases hfound with ⟨-, rfl⟩ | ⟨hne, hold⟩
      · exact hbound
      · rcases own b hb with hb | heq
        · exact (h.bindings b hb).2 found hold
        · exact absurd heq hne
  · intro other found turn hfound ht
    rcases hcases hfound with ⟨rfl, rfl⟩ | ⟨-, hold⟩
    · exact buffered turn ht
    · exact more _ (h.buffered hold ht)
  · intro p hp
    obtain ⟨hlt, hnone, hmem⟩ := h.received p hp
    refine ⟨hlt.trans_eq next.symm, ?_, more _ hmem⟩
    have hne : p.1 ≠ allocation := by
      rintro heq
      rw [heq, hr] at hnone
      cases hnone
    change handoff.registrations.lookup p.1 = none
    rw [hregistrations, Finmap.lookup_insert_of_ne _ hne]
    exact hnone

variable [DecidableEq ρ]

omit [DecidableEq ρ] in
/-- The turn of a new guard. -/
theorem Orderly.more (h : w.Orderly) {handoff : CompletionHandoff ρ} (turn : CompletionTurn ρ)
    (hguard : turn.guard = w.nextGuard) (places : handoff.places = {turn} + w.handoff.places) :
    (handoff.places + w.held).map (·.guard) = Multiset.range (w.nextGuard + 1) := by
  rw [places, add_assoc, Multiset.map_add, h.guards, Multiset.map_singleton, hguard,
    Multiset.range_succ]
  exact Multiset.singleton_add _ _

theorem Orderly.register (h : w.Orderly) (owner : RequestOwner) :
    (w.step (.register owner)).Orderly := by
  rcases w.handoff.register_cases owner with ⟨error, hr⟩ | ⟨hn, hr⟩
  · simp only [step, hr]
    exact h
  · simp only [step, hr]
    refine h.narrow (h.handed.opened owner) (h.kept (h.handed.places_opened hn))
      (Nat.le_succ _) ?_ ?_
    · intro other entry requestId hl hid
      rcases CompletionHandoff.lookup_opened hl with ⟨-, rfl⟩ | hold
      · cases hid
      · exact hold
    · intro allocation registration hl
      rcases CompletionHandoff.registration_opened hl with ⟨rfl, rfl⟩ | hold
      · exact .inr ⟨Nat.le_refl _, rfl⟩
      · exact .inl hold

theorem Orderly.handoff (h : w.Orderly) (owner : RequestOwner) (requestId : ρ) :
    (w.step (.handoff owner requestId)).Orderly := by
  simp only [step]
  rcases h.handed.handoff_cases ⟨owner, requestId, w.nextGuard⟩ with
    hr | ⟨entry, hl, hid, he, hd, hr⟩ | ⟨entry, registration, hl, hid, hreg, hr⟩
  · rw [hr]
    exact h.narrow (h.handed.release _)
      (h.more ⟨owner, requestId, w.nextGuard⟩ rfl (CompletionHandoff.places_release _))
      (Nat.le_refl _) (fun hl _ => hl) .inl
  · rw [hr]
    refine h.narrow ?_ (h.more ⟨owner, requestId, w.nextGuard⟩ rfl ?_) (Nat.le_refl _) ?_ .inl
    · refine h.handed.setEntry _ hl rfl hid hid ?_ (.inr hd)
      intro turn ht
      cases ht
      rfl
    · have hp := CompletionHandoff.places_insert hl
        { entry with early := some ⟨owner, requestId, w.nextGuard⟩ }
      rw [he, CompletionHandoff.turns_none, zero_add] at hp
      exact hp
    · intro other found found' hfound hfid
      by_cases ho : other = owner
      · rw [ho, Finmap.lookup_insert] at hfound
        cases hfound
        cases hid.symm.trans hfid
      · rw [Finmap.lookup_insert_of_ne _ ho] at hfound
        exact hfound
  · rw [hr]
    obtain ⟨registration', hreg', -, hbound, hnone⟩ := h.handed.owned hl
    cases hreg.symm.trans hreg'
    rw [hid] at hbound
    have hearly := (h.handed.settled hl (hid ▸ rfl)).1
    refine h.rebind ?_ (h.more ⟨owner, requestId, w.nextGuard⟩ rfl ?_) rfl hreg rfl hbound
      (fun b hb => hb) h.once
      (fun b hb => .inl hb) ?_ ?_
    · exact (h.handed.erased owner).setRegistrations (h.handed.free hl)
        (fun other ho => Finmap.lookup_insert_of_ne _ ho) fun _ => h.handed.allocated hreg
    · have hplaces := CompletionHandoff.places_delivered hl hreg hnone
        { registration with received := some ⟨owner, requestId, w.nextGuard⟩ } rfl
      rw [hearly, CompletionHandoff.turns_none, zero_add] at hplaces
      exact hplaces
    · intro other found found' hfound hfid
      exact h.entries (CompletionHandoff.lookup_of_erase hfound).2 hfid
    · intro turn ht
      cases ht
      exact h.entries hl hid

theorem Orderly.discard (h : w.Orderly) (owner : RequestOwner) (requestId : ρ) :
    (w.step (.discard owner requestId)).Orderly := by
  simp only [step]
  rcases w.handoff.discard_cases owner requestId with hr | ⟨entry, hl, hr | ⟨hid, hr⟩⟩
  · rw [hr]
    exact h
  · rw [hr]
    exact h.narrow (h.handed.withdrawn owner entry)
      (h.kept (CompletionHandoff.places_withdrawn hl)) (Nat.le_refl _)
      (fun hl _ => (CompletionHandoff.lookup_of_erase hl).2) .inl
  · rw [hr]
    refine h.narrow (CompletionHandoff.WellHanded.release ?_ _) (h.kept ?_) (Nat.le_refl _) ?_
      .inl
    · exact h.handed.setEntry ⟨entry.allocation, entry.requestId, none, some requestId⟩ hl rfl hid
        hid (fun turn ht => nomatch ht) (.inl rfl)
    · refine (CompletionHandoff.places_release _).trans ?_
      refine (CompletionHandoff.places_insert hl _).trans ?_
      exact zero_add _
    · intro other found found' hfound hfid
      change (w.handoff.entries.insert owner _).lookup other = some found at hfound
      by_cases ho : other = owner
      · rw [ho, Finmap.lookup_insert] at hfound
        cases hfound
        cases hid.symm.trans hfid
      · rw [Finmap.lookup_insert_of_ne _ ho] at hfound
        exact hfound

omit [DecidableEq ρ] in
theorem Orderly.dropEntries (h : w.Orderly) (drops : RequestOwner → Bool) {closed : Bool} :
    ({ w with handoff := { w.handoff with closed }.dropEntries drops } : Waiters ρ).Orderly := by
  have hclosed : ({ w.handoff with closed } : CompletionHandoff ρ).WellHanded :=
    ⟨h.handed.owned, h.handed.early, h.handed.single, h.handed.settled, h.handed.allocated,
      h.handed.woken⟩
  exact h.narrow (hclosed.dropEntries drops)
    (h.kept (CompletionHandoff.places_dropEntries drops)) (Nat.le_refl _)
    (fun hl _ => (Table.lookup_retain_eq_some.mp hl).1) .inl

omit [DecidableEq ρ] in
theorem lookup_of_dropRegistration {allocation other : Nat}
    {registration : CompletionRegistration ρ}
    (hl : (w.handoff.dropRegistration allocation).registrations.lookup other =
      some registration) : w.handoff.registrations.lookup other = some registration := by
  by_cases ho : other = allocation
  · rw [ho, CompletionHandoff.lookup_dropRegistration] at hl
    cases hl
  · rw [CompletionHandoff.lookup_dropRegistration_of_ne ho] at hl
    exact hl

omit [DecidableEq ρ] in
theorem Orderly.dropRegistration (h : w.Orderly) (allocation : Nat) :
    ({ w with handoff := w.handoff.dropRegistration allocation } : Waiters ρ).Orderly :=
  h.narrow (h.handed.dropRegistration allocation)
    (h.kept (CompletionHandoff.places_dropRegistration allocation))
    (CompletionHandoff.nextAllocation_dropRegistration allocation).ge
    (fun hl _ => ((h.handed.entries_dropRegistration allocation _ _).mp hl).1)
    (fun hl => .inl (lookup_of_dropRegistration hl))

theorem Orderly.bind (h : w.Orderly) (allocation : Nat) (requestId : ρ) :
    (w.step (.bind allocation requestId)).Orderly := by
  rcases w.handoff.bind_cases allocation requestId with
    ⟨error, hb⟩ | ⟨registration, entry, hr, hunbound, hl, rfl, disposition, handoff, hb, hbinds⟩
  · have hsame : w.step (.bind allocation requestId) = w := by
      simp only [step, hb]
      cases w.handoff.registrations.lookup allocation with
      | none => rfl
      | some registration => rfl
    rw [hsame]
    exact h
  · simp only [step, hr, hb]
    obtain ⟨registration', hr', -, -, hnone⟩ := h.handed.owned hl
    cases hr.symm.trans hr'
    have hfresh : ∀ b ∈ w.bindings, b.1 ≠ entry.allocation := by
      intro b hmem heq
      have hbound := (h.bindings b hmem).2 registration (heq ▸ hr)
      exact absurd (hunbound.symm.trans hbound) Bool.false_ne_true
    have honce : ((w.bindings ++ [(entry.allocation, registration.owner, requestId)]).map
        (·.1)).Nodup := by
      rw [List.map_append]
      refine List.nodup_append.mpr ⟨h.once, List.nodup_singleton _, ?_⟩
      intro a ha b hmem
      obtain ⟨p, hp, rfl⟩ := List.mem_map.mp ha
      rw [List.mem_singleton.mp hmem]
      exact hfresh p hp
    have hown : ∀ b ∈ w.bindings ++ [(entry.allocation, registration.owner, requestId)],
        b ∈ w.bindings ∨ b.1 = entry.allocation := by
      intro b hmem
      rcases List.mem_append.mp hmem with hmem | hmem
      · exact .inl hmem
      · rw [List.mem_singleton.mp hmem]
        exact .inr rfl
    have hself : (entry.allocation, registration.owner, requestId) ∈
        w.bindings ++ [(entry.allocation, registration.owner, requestId)] :=
      List.mem_append_right _ (List.mem_singleton_self _)
    have herased : ∀ {other found found'},
        (w.handoff.entries.erase registration.owner).lookup other = some found →
        found.requestId = some found' → (found.allocation, other, found') ∈
          w.bindings ++ [(entry.allocation, registration.owner, requestId)] := by
      intro other found found' hfound hfid
      exact List.mem_append_left _
        (h.entries (CompletionHandoff.lookup_of_erase hfound).2 hfid)
    cases hbinds with
    | discarded =>
        refine h.rebind ?_ (h.kept ?_) rfl hr rfl rfl (fun b => List.mem_append_left _) honce
          hown herased ?_
        · refine CompletionHandoff.WellHanded.release ?_ _
          exact (h.handed.erased _).setRegistrations (h.handed.free hl)
            (fun other ho => Finmap.lookup_insert_of_ne _ ho) fun _ => h.handed.allocated hr
        · refine (CompletionHandoff.places_release _).trans ?_
          refine (CompletionHandoff.places_erase ?_).trans (CompletionHandoff.places_marked hr)
          exact hl
        · intro turn ht
          cases hnone.symm.trans ht
    | delivered turn early matching =>
        refine h.rebind ?_ (h.kept ?_) rfl hr rfl rfl (fun b => List.mem_append_left _) honce
          hown herased ?_
        · exact (h.handed.erased _).setRegistrations (h.handed.free hl)
            (fun other ho => Finmap.lookup_insert_of_ne _ ho) fun _ => h.handed.allocated hr
        · have hplaces := CompletionHandoff.places_delivered hl hr hnone
            ⟨registration.owner, true, some turn⟩ rfl
          rw [early, CompletionHandoff.turns_some] at hplaces
          exact add_left_cancel hplaces
        · intro turn' ht
          cases ht
          rw [h.handed.early hl _ early, matching]
          exact hself
    | awaiting mark =>
        refine h.rebind ?_ (h.kept ?_) rfl hr rfl rfl (fun b => List.mem_append_left _) honce
          hown ?_ ?_
        · exact (h.handed.bound hl hr requestId).release _
        · refine (CompletionHandoff.places_release _).trans ?_
          have hplaces := CompletionHandoff.places_insert
            (d := { w.handoff with
              registrations := w.handoff.registrations.insert entry.allocation
                { registration with bound := true } }) hl
            ⟨entry.allocation, some requestId, none, none⟩
          rw [CompletionHandoff.places_marked hr] at hplaces
          exact hplaces.trans (zero_add _)
        · intro other found found' hfound hfid
          change (w.handoff.entries.insert registration.owner _).lookup other = _ at hfound
          by_cases ho : other = registration.owner
          · rw [ho, Finmap.lookup_insert] at hfound
            cases hfound
            cases hfid
            rw [ho]
            exact hself
          · rw [Finmap.lookup_insert_of_ne _ ho] at hfound
            exact List.mem_append_left _ (h.entries hfound hfid)
        · intro turn ht
          cases hnone.symm.trans ht

/-- What a wait answers, and the registration it uses up. -/
theorem wait_cases (w : Waiters ρ) (allocation : Nat) :
    w.step (.wait allocation) = w ∨
      w.step (.wait allocation) =
        { w with handoff := w.handoff.dropRegistration allocation } ∨
      ∃ registration turn, w.handoff.registrations.lookup allocation = some registration ∧
        registration.received = some turn ∧ w.step (.wait allocation) =
          { w with
            handoff :=
              { w.handoff with
                registrations := w.handoff.registrations.insert allocation
                  { registration with received := none } }.dropRegistration allocation
            held := turn ::ₘ w.held
            received := w.received ++ [(allocation, turn)] } := by
  simp only [step, CompletionHandoff.wait]
  cases hr : w.handoff.registrations.lookup allocation with
  | none => exact .inl rfl
  | some registration =>
      rcases registration with ⟨owner, bound, received⟩
      cases bound with
      | false => exact .inr (.inl rfl)
      | true =>
          cases received with
          | some turn => exact .inr (.inr ⟨_, turn, rfl, rfl, rfl⟩)
          | none =>
              simp only [Bool.not_true, Bool.false_eq_true, if_false]
              cases (w.handoff.entries.lookup owner).any (·.allocation = allocation) with
              | true => exact .inl rfl
              | false => exact .inr (.inl rfl)

theorem Orderly.wait (h : w.Orderly) (allocation : Nat) :
    (w.step (.wait allocation)).Orderly := by
  rcases w.wait_cases allocation with hs | hs | ⟨registration, turn, hr, ht, hs⟩
  · rw [hs]
    exact h
  · rw [hs]
    exact h.dropRegistration allocation
  · rw [hs]
    let emptied : CompletionHandoff ρ :=
      { w.handoff with
        registrations := w.handoff.registrations.insert allocation
          { registration with received := none } }
    have hfree : ∀ {owner entry}, w.handoff.entries.lookup owner = some entry →
        entry.allocation ≠ allocation := by
      rintro owner entry hl rfl
      obtain ⟨registration', hr', -, -, hnone⟩ := h.handed.owned hl
      cases hr.symm.trans hr'
      cases hnone.symm.trans ht
    have hemptied : emptied.WellHanded :=
      h.handed.setRegistrations hfree (fun other ho => Finmap.lookup_insert_of_ne _ ho)
        fun _ => h.handed.allocated hr
    have hplaces : turn ::ₘ emptied.places = w.handoff.places := by
      have hemptying := CompletionHandoff.places_registration hr
        { registration with received := none }
      rw [ht, CompletionHandoff.turns_some, CompletionHandoff.turns_none, zero_add] at hemptying
      exact hemptying
    have hlookup : ∀ {other found},
        (emptied.dropRegistration allocation).registrations.lookup other = some found →
        w.handoff.registrations.lookup other = some found := by
      intro other found hfound
      by_cases ho : other = allocation
      · rw [ho, CompletionHandoff.lookup_dropRegistration] at hfound
        cases hfound
      · rw [CompletionHandoff.lookup_dropRegistration_of_ne ho] at hfound
        exact (Finmap.lookup_insert_of_ne _ ho).symm.trans hfound
    have hnext := CompletionHandoff.nextAllocation_dropRegistration (d := emptied) allocation
    have hnarrow : ({ w with
        handoff := emptied.dropRegistration allocation
        held := turn ::ₘ w.held } : Waiters ρ).Orderly := by
      refine h.narrow (hemptied.dropRegistration allocation) ?_ hnext.ge ?_ ?_
      · rw [CompletionHandoff.places_dropRegistration, ← h.guards, ← hplaces,
          Multiset.add_cons, Multiset.cons_add]
      · intro owner entry requestId hl hid
        exact ((hemptied.entries_dropRegistration allocation _ _).mp hl).1
      · exact fun hl => .inl (hlookup hl)
    refine ⟨hnarrow.handed, hnarrow.guards, hnarrow.once, hnarrow.bindings, hnarrow.entries,
      hnarrow.buffered, ?_, ?_⟩
    · rw [List.map_append]
      refine List.nodup_append.mpr ⟨h.receivedOnce, List.nodup_singleton _, ?_⟩
      intro a ha b hb heq
      obtain ⟨p, hp, rfl⟩ := List.mem_map.mp ha
      have hnone := (h.received p hp).2.1
      rw [heq, List.mem_singleton.mp hb, hr] at hnone
      cases hnone
    · intro p hp
      rcases List.mem_append.mp hp with hp | hp
      · exact hnarrow.received p hp
      · rw [List.mem_singleton.mp hp]
        exact ⟨(h.handed.allocated hr).trans_eq hnext.symm,
          CompletionHandoff.lookup_dropRegistration allocation, h.buffered hr ht⟩

theorem Orderly.dropTurn (h : w.Orderly) (turn : CompletionTurn ρ) :
    (w.step (.dropTurn turn)).Orderly := by
  simp only [step]
  by_cases hm : turn ∈ w.held
  · rw [if_pos hm]
    refine h.narrow (h.handed.release _) ?_ (Nat.le_refl _) (fun hl _ => hl) .inl
    rw [CompletionHandoff.places_release, ← h.guards, add_right_comm, add_comm,
      Multiset.singleton_add, Multiset.cons_erase hm]
  · rw [if_neg hm]
    exact h

theorem Orderly.step (h : w.Orderly) (call : HandoffCall ρ) : (w.step call).Orderly := by
  cases call with
  | register owner => exact h.register owner
  | bind allocation requestId => exact h.bind allocation requestId
  | handoff owner requestId => exact h.handoff owner requestId
  | discard owner requestId => exact h.discard owner requestId
  | discardSession epoch sessionId incarnation => exact h.dropEntries _
  | close => exact h.dropEntries _
  | wait allocation => exact h.wait allocation
  | dropRegistration allocation => exact h.dropRegistration allocation
  | dropTurn turn => exact h.dropTurn turn

theorem orderly_run (calls : List (HandoffCall ρ)) : (run step new calls : Waiters ρ).Orderly :=
  run_invariant (fun _ call h => h.step call) orderly_new calls

end Waiters

namespace CompletionHandoff

variable {ρ : Type*} [DecidableEq ρ]

/-- A change that concerns one registration and the entry that belongs to it. -/
def KeepsOthers (allocation : Nat) (d d' : CompletionHandoff ρ) : Prop :=
  (∀ owner entry, entry.allocation ≠ allocation →
      (d'.entries.lookup owner = some entry ↔ d.entries.lookup owner = some entry)) ∧
    ∀ other, other ≠ allocation →
      d'.registrations.lookup other = d.registrations.lookup other

omit [DecidableEq ρ] in
theorem WellHanded.keepsOthers_dropRegistration {d : CompletionHandoff ρ} (h : d.WellHanded)
    (allocation : Nat) : KeepsOthers allocation d (d.dropRegistration allocation) := by
  refine ⟨fun owner entry ha => ?_, fun other ho => lookup_dropRegistration_of_ne ho⟩
  rw [h.entries_dropRegistration]
  exact and_iff_left ha

theorem keepsOthers_bind (d : CompletionHandoff ρ) (allocation : Nat) (requestId : ρ) :
    KeepsOthers allocation d (d.bind allocation requestId).2 := by
  rcases d.bind_cases allocation requestId with
    ⟨error, hb⟩ | ⟨registration, entry, hr, hunbound, hl, rfl, disposition, d', hb, hbinds⟩
  · rw [hb]
    exact ⟨fun _ _ _ => Iff.rfl, fun _ _ => rfl⟩
  · rw [hb]
    have herased : ∀ owner found, found.allocation ≠ entry.allocation →
        ((d.entries.erase registration.owner).lookup owner = some found ↔
          d.entries.lookup owner = some found) := by
      intro owner found ha
      refine ⟨fun he => (lookup_of_erase he).2, fun he => ?_⟩
      have hne : owner ≠ registration.owner := by
        rintro rfl
        cases hl.symm.trans he
        exact ha rfl
      rw [Finmap.lookup_erase_ne hne]
      exact he
    have hregistrations : ∀ registration' other, other ≠ entry.allocation →
        (d.registrations.insert entry.allocation registration').lookup other =
          d.registrations.lookup other := fun _ other ho => Finmap.lookup_insert_of_ne _ ho
    cases hbinds with
    | discarded => exact ⟨herased, hregistrations _⟩
    | delivered turn early matching => exact ⟨herased, hregistrations _⟩
    | awaiting mark =>
        refine ⟨fun owner found ha => ?_, hregistrations _⟩
        change (d.entries.insert registration.owner _).lookup owner = _ ↔ _
        by_cases ho : owner = registration.owner
        · rw [ho, Finmap.lookup_insert, hl]
          constructor
          · intro he
            cases he
            exact absurd rfl ha
          · intro he
            cases he
            exact absurd rfl ha
        · rw [Finmap.lookup_insert_of_ne _ ho]

theorem bind_ne_unreachable (d : CompletionHandoff ρ) (allocation : Nat) (requestId : ρ) :
    (d.bind allocation requestId).1 ≠ .ok .unreachable := by
  rcases d.bind_cases allocation requestId with
    ⟨error, hb⟩ | ⟨registration, entry, -, -, -, -, disposition, d', hb, hbinds⟩
  · rw [hb]
    intro h
    cases h
  · rw [hb]
    rintro ⟨⟩
    cases hbinds

end CompletionHandoff

namespace Waiters

variable {ρ : Type*} [DecidableEq ρ]

/-- Whatever the callers do, a registration receives at most one completion, of the
owner and request it is bound to; every guard is in one place or released with a
wake-up; and a call on a registration leaves the others alone. -/
theorem handoff_reaches_its_waiter (calls : List (HandoffCall ρ)) :
    let w := run step (new : Waiters ρ) calls
    (w.bindings.map (·.1)).Nodup ∧ (w.received.map (·.1)).Nodup ∧
      (∀ p ∈ w.received, (p.1, p.2.owner, p.2.requestId) ∈ w.bindings ∧
        w.handoff.registrations.lookup p.1 = none) ∧
      (∀ allocation registration turn,
        w.handoff.registrations.lookup allocation = some registration →
        registration.received = some turn →
          (allocation, turn.owner, turn.requestId) ∈ w.bindings) ∧
      (w.handoff.parked + w.handoff.buffered + w.handoff.released + w.held).map (·.guard) =
        Multiset.range w.nextGuard ∧
      w.handoff.wakes = w.handoff.released.card ∧
      (∀ owner entry, w.handoff.entries.lookup owner = some entry →
        entry.early = none ∨ entry.discardedEarly = none) ∧
      ∀ allocation, CompletionHandoff.KeepsOthers allocation w.handoff
          (w.handoff.dropRegistration allocation) ∧
        ∀ requestId, (w.handoff.bind allocation requestId).1 ≠ .ok .unreachable ∧
          CompletionHandoff.KeepsOthers allocation w.handoff
            (w.handoff.bind allocation requestId).2 := by
  intro w
  have h : w.Orderly := orderly_run calls
  refine ⟨h.once, h.receivedOnce, ?_, fun _ _ _ => h.buffered, h.guards, h.handed.woken,
    fun _ _ => h.handed.single, ?_⟩
  · intro p hp
    obtain ⟨-, hnone, hmem⟩ := h.received p hp
    exact ⟨hmem, hnone⟩
  · intro allocation
    refine ⟨h.handed.keepsOthers_dropRegistration allocation, fun requestId => ?_⟩
    exact ⟨w.handoff.bind_ne_unreachable allocation requestId,
      w.handoff.keepsOthers_bind allocation requestId⟩

end Waiters

end Attyd.Dispatch
