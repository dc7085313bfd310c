import Attyd.Dispatch.CompletionHandoff
import Mathlib.Tactic.Abel

/-!
# What the table of registrations holds

Every entry belongs to a live registration of its owner that has received
nothing. The turns in the hands of the table are parked in its entries, buffered
for a waiter, or released.
-/

namespace Attyd.Dispatch.CompletionHandoff

variable {ρ : Type*}

@[simp] theorem turns_none : turns (none : Option (CompletionTurn ρ)) = 0 := rfl

@[simp] theorem turns_some (turn : CompletionTurn ρ) : turns (some turn) = {turn} := rfl

/-- The turns parked until their registration is bound. -/
def parked (d : CompletionHandoff ρ) : Multiset (CompletionTurn ρ) :=
  Table.sum (fun entry : HandoffEntry ρ => turns entry.early) d.entries

/-- The turns sent to a registration and not yet taken. -/
def buffered (d : CompletionHandoff ρ) : Multiset (CompletionTurn ρ) :=
  Table.sum (fun registration : CompletionRegistration ρ => turns registration.received)
    d.registrations

def places (d : CompletionHandoff ρ) : Multiset (CompletionTurn ρ) :=
  d.parked + d.buffered + d.released

structure WellHanded (d : CompletionHandoff ρ) : Prop where
  owned : ∀ {owner entry}, d.entries.lookup owner = some entry →
    ∃ registration, d.registrations.lookup entry.allocation = some registration ∧
      registration.owner = owner ∧ registration.bound = entry.requestId.isSome ∧
      registration.received = none
  early : ∀ {owner entry}, d.entries.lookup owner = some entry →
    ∀ turn, entry.early = some turn → turn.owner = owner
  single : ∀ {owner entry}, d.entries.lookup owner = some entry →
    entry.early = none ∨ entry.discardedEarly = none
  settled : ∀ {owner entry}, d.entries.lookup owner = some entry →
    entry.requestId.isSome → entry.early = none ∧ entry.discardedEarly = none
  allocated : ∀ {allocation registration},
    d.registrations.lookup allocation = some registration → allocation < d.nextAllocation
  woken : d.wakes = d.released.card

theorem wellHanded_new : (new : CompletionHandoff ρ).WellHanded where
  owned h := by cases h
  early h := by cases h
  single h := by cases h
  settled h := by cases h
  allocated h := by cases h
  woken := rfl

variable {d : CompletionHandoff ρ}

section WellHanded

theorem WellHanded.release (h : d.WellHanded) (dropped : Multiset (CompletionTurn ρ)) :
    (d.release dropped).WellHanded where
  owned := h.owned
  early := h.early
  single := h.single
  settled := h.settled
  allocated := h.allocated
  woken := by
    change d.wakes + dropped.card = (dropped + d.released).card
    rw [Multiset.card_add, h.woken, add_comm]

/-- Entries may go. -/
theorem WellHanded.fewer (h : d.WellHanded) {entries : Table RequestOwner (HandoffEntry ρ)}
    (hsub : ∀ {owner entry}, entries.lookup owner = some entry →
      d.entries.lookup owner = some entry) :
    ({ d with entries } : CompletionHandoff ρ).WellHanded where
  owned hl := h.owned (hsub hl)
  early hl := h.early (hsub hl)
  single hl := h.single (hsub hl)
  settled hl := h.settled (hsub hl)
  allocated := h.allocated
  woken := h.woken

theorem lookup_of_erase {entries : Table RequestOwner (HandoffEntry ρ)}
    {owner other : RequestOwner} {entry : HandoffEntry ρ}
    (h : (entries.erase owner).lookup other = some entry) :
    other ≠ owner ∧ entries.lookup other = some entry := by
  by_cases ho : other = owner
  · rw [ho, Finmap.lookup_erase] at h
    cases h
  · rw [Finmap.lookup_erase_ne ho] at h
    exact ⟨ho, h⟩

theorem WellHanded.erased (h : d.WellHanded) (owner : RequestOwner) :
    ({ d with entries := d.entries.erase owner } : CompletionHandoff ρ).WellHanded :=
  h.fewer fun hl => (lookup_of_erase hl).2

/-- An entry that is not bound may park a turn of its owner or take a mark. -/
theorem WellHanded.setEntry (h : d.WellHanded) {owner : RequestOwner}
    {entry : HandoffEntry ρ} (entry' : HandoffEntry ρ)
    (hl : d.entries.lookup owner = some entry)
    (hallocation : entry'.allocation = entry.allocation) (hunbound : entry.requestId = none)
    (hunbound' : entry'.requestId = none)
    (hearly : ∀ turn, entry'.early = some turn → turn.owner = owner)
    (hsingle : entry'.early = none ∨ entry'.discardedEarly = none) :
    ({ d with entries := d.entries.insert owner entry' } :
      CompletionHandoff ρ).WellHanded := by
  have hcases : ∀ {other found}, (d.entries.insert owner entry').lookup other = some found →
      (other = owner ∧ found = entry') ∨ d.entries.lookup other = some found := by
    intro other found hfound
    by_cases ho : other = owner
    · rw [ho, Finmap.lookup_insert] at hfound
      exact .inl ⟨ho, (Option.some.inj hfound).symm⟩
    · rw [Finmap.lookup_insert_of_ne _ ho] at hfound
      exact .inr hfound
  refine ⟨?_, ?_, ?_, ?_, h.allocated, h.woken⟩
  · intro other found hfound
    rcases hcases hfound with ⟨rfl, rfl⟩ | hold
    · obtain ⟨registration, hr, ho, hb, hn⟩ := h.owned hl
      refine ⟨registration, hallocation ▸ hr, ho, ?_, hn⟩
      rw [hb, hunbound, hunbound']
    · exact h.owned hold
  · intro other found hfound
    rcases hcases hfound with ⟨rfl, rfl⟩ | hold
    · exact hearly
    · exact h.early hold
  · intro other found hfound
    rcases hcases hfound with ⟨rfl, rfl⟩ | hold
    · exact hsingle
    · exact h.single hold
  · intro other found hfound
    rcases hcases hfound with ⟨rfl, rfl⟩ | hold
    · intro hbound
      rw [hunbound'] at hbound
      cases hbound
    · exact h.settled hold

/-- A registration that no entry belongs to may change, and may go. -/
theorem WellHanded.setRegistrations (h : d.WellHanded) {allocation : Nat}
    {registrations : Table Nat (CompletionRegistration ρ)}
    (hfree : ∀ {owner entry}, d.entries.lookup owner = some entry →
      entry.allocation ≠ allocation)
    (hother : ∀ other, other ≠ allocation →
      registrations.lookup other = d.registrations.lookup other)
    (hallocated : registrations.lookup allocation ≠ none → allocation < d.nextAllocation) :
    ({ d with registrations } : CompletionHandoff ρ).WellHanded where
  owned hl := by
    obtain ⟨registration, hr, hrest⟩ := h.owned hl
    exact ⟨registration, (hother _ (hfree hl)).trans hr, hrest⟩
  early := h.early
  single := h.single
  settled := h.settled
  allocated := by
    intro other registration hr
    by_cases ho : other = allocation
    · subst ho
      exact hallocated fun hn => nomatch hn.symm.trans hr
    · exact h.allocated ((hother other ho).symm.trans hr)
  woken := h.woken

/-- Two entries do not share a registration. -/
theorem WellHanded.same_owner (h : d.WellHanded) {owner other : RequestOwner}
    {entry found : HandoffEntry ρ} (hl : d.entries.lookup owner = some entry)
    (hf : d.entries.lookup other = some found) (ha : found.allocation = entry.allocation) :
    other = owner := by
  obtain ⟨registration, hr, ho, -⟩ := h.owned hl
  obtain ⟨registration', hr', ho', -⟩ := h.owned hf
  rw [ha, hr] at hr'
  cases hr'
  exact ho'.symm.trans ho

/-- With its entry gone no other belongs to a registration. -/
theorem WellHanded.free (h : d.WellHanded) {owner : RequestOwner} {entry : HandoffEntry ρ}
    (hl : d.entries.lookup owner = some entry) {other : RequestOwner}
    {found : HandoffEntry ρ} (hf : (d.entries.erase owner).lookup other = some found) :
    found.allocation ≠ entry.allocation := by
  obtain ⟨hne, hold⟩ := lookup_of_erase hf
  exact fun ha => hne (h.same_owner hl hold ha)

/-- A registration is bound with its entry. -/
theorem WellHanded.bound (h : d.WellHanded) {registration : CompletionRegistration ρ}
    {entry : HandoffEntry ρ} (hl : d.entries.lookup registration.owner = some entry)
    (hr : d.registrations.lookup entry.allocation = some registration) (requestId : ρ) :
    ({ d with
      entries := d.entries.insert registration.owner ⟨entry.allocation, some requestId, none, none⟩
      registrations := d.registrations.insert entry.allocation
        { registration with bound := true } } : CompletionHandoff ρ).WellHanded := by
  have hcases : ∀ {other found}, (d.entries.insert registration.owner
      ⟨entry.allocation, some requestId, none, none⟩).lookup other = some found →
      (other = registration.owner ∧ found = ⟨entry.allocation, some requestId, none, none⟩) ∨
        (other ≠ registration.owner ∧ d.entries.lookup other = some found) := by
    intro other found hfound
    by_cases ho : other = registration.owner
    · rw [ho, Finmap.lookup_insert] at hfound
      exact .inl ⟨ho, (Option.some.inj hfound).symm⟩
    · rw [Finmap.lookup_insert_of_ne _ ho] at hfound
      exact .inr ⟨ho, hfound⟩
  refine ⟨?_, ?_, ?_, ?_, ?_, h.woken⟩
  · intro other found hfound
    rcases hcases hfound with ⟨rfl, rfl⟩ | ⟨hne, hold⟩
    · obtain ⟨registration', hr', -, -, hnone⟩ := h.owned hl
      cases hr.symm.trans hr'
      exact ⟨_, Finmap.lookup_insert _, rfl, rfl, hnone⟩
    · obtain ⟨registration', hr', hrest⟩ := h.owned hold
      refine ⟨registration', ?_, hrest⟩
      change (d.registrations.insert entry.allocation _).lookup found.allocation = _
      rw [Finmap.lookup_insert_of_ne _ fun ha => hne (h.same_owner hl hold ha), hr']
  · intro other found hfound
    rcases hcases hfound with ⟨rfl, rfl⟩ | ⟨-, hold⟩
    · intro turn ht
      cases ht
    · exact h.early hold
  · intro other found hfound
    rcases hcases hfound with ⟨rfl, rfl⟩ | ⟨-, hold⟩
    · exact .inl rfl
    · exact h.single hold
  · intro other found hfound
    rcases hcases hfound with ⟨rfl, rfl⟩ | ⟨-, hold⟩
    · exact fun _ => ⟨rfl, rfl⟩
    · exact h.settled hold
  · intro allocation found hfound
    by_cases ha : allocation = entry.allocation
    · rw [ha]
      exact h.allocated hr
    · change (d.registrations.insert entry.allocation _).lookup allocation = _ at hfound
      rw [Finmap.lookup_insert_of_ne _ ha] at hfound
      exact h.allocated hfound

end WellHanded

section Places

theorem places_release (dropped : Multiset (CompletionTurn ρ)) :
    (d.release dropped).places = dropped + d.places := by
  change d.parked + d.buffered + (dropped + d.released) = _
  rw [places]
  abel

/-- An entry that goes gives its parked turn back. -/
theorem places_erase {owner : RequestOwner} {entry : HandoffEntry ρ}
    (hl : d.entries.lookup owner = some entry) :
    turns entry.early +
      ({ d with entries := d.entries.erase owner } : CompletionHandoff ρ).places =
      d.places := by
  change _ + (Table.sum _ (d.entries.erase owner) + d.buffered + d.released) = _
  rw [places, parked, Table.sum_erase _ hl]
  abel

theorem places_insert {owner : RequestOwner} {entry : HandoffEntry ρ}
    (hl : d.entries.lookup owner = some entry) (entry' : HandoffEntry ρ) :
    turns entry.early +
      ({ d with entries := d.entries.insert owner entry' } : CompletionHandoff ρ).places =
      turns entry'.early + d.places := by
  change _ + (Table.sum _ (d.entries.insert owner entry') + d.buffered + d.released) = _
  rw [places, parked, Table.sum_erase _ hl, Table.sum_insert]
  abel

theorem places_registration {allocation : Nat} {registration : CompletionRegistration ρ}
    (hr : d.registrations.lookup allocation = some registration)
    (registration' : CompletionRegistration ρ) :
    turns registration.received +
      ({ d with registrations := d.registrations.insert allocation registration' } :
        CompletionHandoff ρ).places =
      turns registration'.received + d.places := by
  change _ + (d.parked + Table.sum _ (d.registrations.insert allocation registration') +
    d.released) = _
  rw [places, buffered, Table.sum_erase _ hr, Table.sum_insert]
  abel

theorem places_dropped {allocation : Nat} {registration : CompletionRegistration ρ}
    (hr : d.registrations.lookup allocation = some registration) :
    turns registration.received +
      ({ d with registrations := d.registrations.erase allocation } :
        CompletionHandoff ρ).places =
      d.places := by
  change _ + (d.parked + Table.sum _ (d.registrations.erase allocation) +
    d.released) = _
  rw [places, buffered, Table.sum_erase _ hr]
  abel

theorem places_marked {allocation : Nat} {registration : CompletionRegistration ρ}
    (hr : d.registrations.lookup allocation = some registration) :
    ({ d with
      registrations := d.registrations.insert allocation { registration with bound := true } } :
        CompletionHandoff ρ).places = d.places :=
  add_left_cancel (places_registration hr { registration with bound := true })

/-- A registration of an entry without a turn gets one. -/
theorem places_delivered {owner : RequestOwner} {entry : HandoffEntry ρ} {allocation : Nat}
    {registration : CompletionRegistration ρ} {turn : CompletionTurn ρ}
    (hl : d.entries.lookup owner = some entry)
    (hr : d.registrations.lookup allocation = some registration)
    (hnone : registration.received = none) (registration' : CompletionRegistration ρ)
    (hsome : registration'.received = some turn) :
    turns entry.early +
      ({ d with
        entries := d.entries.erase owner
        registrations := d.registrations.insert allocation registration' } :
          CompletionHandoff ρ).places = {turn} + d.places := by
  have hplaces := places_registration (d := { d with entries := d.entries.erase owner }) hr
    registration'
  rw [hnone, hsome, turns_none, zero_add, turns_some] at hplaces
  rw [hplaces, add_left_comm, places_erase hl]

end Places

section Operations

/-- An entry goes and the turn parked in it is dropped. -/
theorem WellHanded.withdrawn (h : d.WellHanded) (owner : RequestOwner) (entry : HandoffEntry ρ) :
    ({ d with entries := d.entries.erase owner }.release (turns entry.early)).WellHanded :=
  (h.erased owner).release _

theorem places_withdrawn {owner : RequestOwner} {entry : HandoffEntry ρ}
    (hl : d.entries.lookup owner = some entry) :
    ({ d with entries := d.entries.erase owner }.release (turns entry.early)).places =
      d.places :=
  (places_release _).trans (places_erase hl)

theorem WellHanded.dropEntries (h : d.WellHanded) (drops : RequestOwner → Bool) :
    (d.dropEntries drops).WellHanded :=
  (h.fewer fun hl => (Table.lookup_retain_eq_some.mp hl).1).release _

theorem places_dropEntries (drops : RequestOwner → Bool) :
    (d.dropEntries drops).places = d.places := by
  refine (places_release _).trans ?_
  change _ + (Table.sum _ (d.entries.retain fun owner _ => !drops owner) + d.buffered +
    d.released) = _
  rw [places, parked, Table.sum_retain _ d.entries fun owner _ => !drops owner]
  simp only [Bool.not_not]
  abel

/-- What is bound to a registration, if it still has its entry. -/
theorem filter_eq_some {owner : RequestOwner} {allocation : Nat} {entry : HandoffEntry ρ}
    (h : (d.entries.lookup owner).filter (·.allocation = allocation) = some entry) :
    d.entries.lookup owner = some entry ∧ entry.allocation = allocation := by
  obtain ⟨hl, ha⟩ := Option.filter_eq_some_iff.mp h
  exact ⟨hl, of_decide_eq_true ha⟩

theorem WellHanded.unowned (h : d.WellHanded) {allocation : Nat}
    {registration : CompletionRegistration ρ}
    (hr : d.registrations.lookup allocation = some registration)
    (hn : (d.entries.lookup registration.owner).filter (·.allocation = allocation) = none)
    {owner : RequestOwner} {entry : HandoffEntry ρ} (hl : d.entries.lookup owner = some entry) :
    entry.allocation ≠ allocation := by
  intro ha
  obtain ⟨registration', hr', ho, -⟩ := h.owned hl
  rw [ha, hr] at hr'
  cases hr'
  rw [ho, hl] at hn
  simp [ha] at hn

theorem WellHanded.dropRegistration (h : d.WellHanded) (allocation : Nat) :
    (d.dropRegistration allocation).WellHanded := by
  rw [CompletionHandoff.dropRegistration]
  cases hr : d.registrations.lookup allocation with
  | none => exact h
  | some registration =>
      dsimp only
      refine WellHanded.release ?_ _
      have hgone : ∀ e : CompletionHandoff ρ, e.registrations = d.registrations →
          e.WellHanded → (∀ {owner entry}, e.entries.lookup owner = some entry →
            entry.allocation ≠ allocation) →
          ({ e with registrations := d.registrations.erase allocation } :
            CompletionHandoff ρ).WellHanded := by
        intro e he hwell hfree
        refine hwell.setRegistrations hfree ?_ ?_
        · intro other ho
          rw [he, Finmap.lookup_erase_ne ho]
        · intro hn
          exact absurd (Finmap.lookup_erase allocation d.registrations) hn
      cases hf : (d.entries.lookup registration.owner).filter (·.allocation = allocation) with
      | none => exact hgone d rfl h (h.unowned hr hf)
      | some entry =>
          obtain ⟨hl, rfl⟩ := filter_eq_some hf
          exact hgone _ rfl (h.withdrawn registration.owner entry) (h.free hl)

theorem places_dropRegistration (allocation : Nat) :
    (d.dropRegistration allocation).places = d.places := by
  rw [CompletionHandoff.dropRegistration]
  cases hr : d.registrations.lookup allocation with
  | none => rfl
  | some registration =>
      dsimp only
      rw [places_release]
      have hgone : ∀ e : CompletionHandoff ρ, e.registrations = d.registrations →
          e.places = d.places → turns registration.received +
            ({ e with registrations := d.registrations.erase allocation } :
              CompletionHandoff ρ).places = d.places := by
        intro e he hp
        rw [← hp, ← places_dropped (d := e) (he ▸ hr), he]
      cases hf : (d.entries.lookup registration.owner).filter (·.allocation = allocation) with
      | none => exact hgone d rfl rfl
      | some entry => exact hgone _ rfl (places_withdrawn (filter_eq_some hf).1)

theorem lookup_dropRegistration (allocation : Nat) :
    (d.dropRegistration allocation).registrations.lookup allocation = none := by
  rw [dropRegistration]
  cases hr : d.registrations.lookup allocation with
  | none => exact hr
  | some registration => exact Finmap.lookup_erase allocation d.registrations

/-- The other registrations stay. -/
theorem lookup_dropRegistration_of_ne {allocation other : Nat} (ho : other ≠ allocation) :
    (d.dropRegistration allocation).registrations.lookup other =
      d.registrations.lookup other := by
  rw [dropRegistration]
  cases hr : d.registrations.lookup allocation with
  | none => rfl
  | some registration => exact Finmap.lookup_erase_ne ho

/-- Only the entry of a registration goes with it. -/
theorem WellHanded.entries_dropRegistration (h : d.WellHanded) (allocation : Nat)
    (owner : RequestOwner) (entry : HandoffEntry ρ) :
    (d.dropRegistration allocation).entries.lookup owner = some entry ↔
      d.entries.lookup owner = some entry ∧ entry.allocation ≠ allocation := by
  rw [CompletionHandoff.dropRegistration]
  cases hr : d.registrations.lookup allocation with
  | none =>
      refine ⟨fun hl => ⟨hl, ?_⟩, And.left⟩
      intro ha
      obtain ⟨registration, hr', -⟩ := h.owned hl
      rw [ha, hr] at hr'
      cases hr'
  | some registration =>
      dsimp only
      cases hf : (d.entries.lookup registration.owner).filter (·.allocation = allocation) with
      | none => exact ⟨fun hl => ⟨hl, h.unowned hr hf hl⟩, And.left⟩
      | some own =>
          obtain ⟨hl, rfl⟩ := filter_eq_some hf
          change (d.entries.erase registration.owner).lookup owner = some entry ↔ _
          constructor
          · exact fun he => ⟨(lookup_of_erase he).2, h.free hl he⟩
          · rintro ⟨he, ha⟩
            have hne : owner ≠ registration.owner := by
              rintro rfl
              rw [hl] at he
              exact ha (congrArg HandoffEntry.allocation (Option.some.inj he)).symm
            rw [Finmap.lookup_erase_ne hne]
            exact he

theorem nextAllocation_dropRegistration (allocation : Nat) :
    (d.dropRegistration allocation).nextAllocation = d.nextAllocation := by
  rw [dropRegistration]
  cases d.registrations.lookup allocation with
  | none => rfl
  | some registration =>
      dsimp only
      cases (d.entries.lookup registration.owner).filter (·.allocation = allocation) with
      | none => rfl
      | some entry => rfl

theorem WellHanded.fresh (h : d.WellHanded) : d.registrations.lookup d.nextAllocation = none := by
  cases hl : d.registrations.lookup d.nextAllocation with
  | none => rfl
  | some registration => exact absurd (h.allocated hl) (Nat.lt_irrefl _)

/-- The table with a new registration. -/
def opened (d : CompletionHandoff ρ) (owner : RequestOwner) : CompletionHandoff ρ :=
  { d with
    nextAllocation := d.nextAllocation + 1
    entries := d.entries.insert owner ⟨d.nextAllocation, none, none, none⟩
    registrations := d.registrations.insert d.nextAllocation ⟨owner, false, none⟩ }

theorem lookup_opened {owner other : RequestOwner} {entry : HandoffEntry ρ}
    (h : (d.opened owner).entries.lookup other = some entry) :
    (other = owner ∧ entry = ⟨d.nextAllocation, none, none, none⟩) ∨
      d.entries.lookup other = some entry := by
  by_cases ho : other = owner
  · rw [ho, opened, Finmap.lookup_insert] at h
    exact .inl ⟨ho, (Option.some.inj h).symm⟩
  · rw [opened, Finmap.lookup_insert_of_ne _ ho] at h
    exact .inr h

theorem registration_opened {owner : RequestOwner} {allocation : Nat}
    {registration : CompletionRegistration ρ}
    (h : (d.opened owner).registrations.lookup allocation = some registration) :
    (allocation = d.nextAllocation ∧ registration = ⟨owner, false, none⟩) ∨
      d.registrations.lookup allocation = some registration := by
  by_cases ha : allocation = d.nextAllocation
  · rw [ha, opened, Finmap.lookup_insert] at h
    exact .inl ⟨ha, (Option.some.inj h).symm⟩
  · rw [opened, Finmap.lookup_insert_of_ne _ ha] at h
    exact .inr h

theorem WellHanded.opened (h : d.WellHanded) (owner : RequestOwner) :
    (d.opened owner).WellHanded := by
  refine ⟨?_, ?_, ?_, ?_, ?_, h.woken⟩
  · intro other entry hl
    rcases lookup_opened hl with ⟨rfl, rfl⟩ | hold
    · exact ⟨_, Finmap.lookup_insert _, rfl, rfl, rfl⟩
    · obtain ⟨registration, hr, hrest⟩ := h.owned hold
      refine ⟨registration, ?_, hrest⟩
      rw [CompletionHandoff.opened, Finmap.lookup_insert_of_ne _ (h.allocated hr).ne, hr]
  · intro other entry hl
    rcases lookup_opened hl with ⟨rfl, rfl⟩ | hold
    · intro turn ht
      cases ht
    · exact h.early hold
  · intro other entry hl
    rcases lookup_opened hl with ⟨rfl, rfl⟩ | hold
    · exact .inl rfl
    · exact h.single hold
  · intro other entry hl
    rcases lookup_opened hl with ⟨rfl, rfl⟩ | hold
    · exact fun _ => ⟨rfl, rfl⟩
    · exact h.settled hold
  · intro allocation registration hr
    rcases registration_opened hr with ⟨rfl, -⟩ | hold
    · exact Nat.lt_succ_self _
    · exact (h.allocated hold).trans (Nat.lt_succ_self _)

theorem WellHanded.places_opened (h : d.WellHanded) {owner : RequestOwner}
    (hn : d.entries.lookup owner = none) : (d.opened owner).places = d.places := by
  change Table.sum _ (d.entries.insert owner _) +
    Table.sum _ (d.registrations.insert d.nextAllocation _) + d.released = _
  rw [Table.sum_insert_of_lookup_none _ _ hn, Table.sum_insert_of_lookup_none _ _ h.fresh]
  change 0 + d.parked + (0 + d.buffered) + d.released = _
  rw [zero_add, zero_add]
  rfl

end Operations

section Answers

variable [DecidableEq ρ]

omit [DecidableEq ρ] in
theorem register_cases (d : CompletionHandoff ρ) (owner : RequestOwner) :
    (∃ error, d.register owner = (.error error, d)) ∨
      (d.entries.lookup owner = none ∧ d.register owner =
        (.ok d.nextAllocation, d.opened owner)) := by
  rw [register]
  by_cases hc : d.closed = true
  · rw [if_pos hc]
    exact .inl ⟨_, rfl⟩
  · rw [if_neg hc]
    cases hl : d.entries.lookup owner with
    | some entry => exact .inl ⟨_, rfl⟩
    | none => exact .inr ⟨rfl, rfl⟩

/-- A completion is dropped, parked in an entry that is not bound, or sent to the
registration bound to it. -/
theorem WellHanded.handoff_cases (h : d.WellHanded) (turn : CompletionTurn ρ) :
    (d.handoff turn).2 = d.release {turn} ∨
      (∃ entry, d.entries.lookup turn.owner = some entry ∧ entry.requestId = none ∧
        entry.early = none ∧ entry.discardedEarly = none ∧ (d.handoff turn).2 =
          { d with entries := d.entries.insert turn.owner { entry with early := some turn } }) ∨
      ∃ entry registration, d.entries.lookup turn.owner = some entry ∧
        entry.requestId = some turn.requestId ∧
        d.registrations.lookup entry.allocation = some registration ∧ (d.handoff turn).2 =
          { d with
            entries := d.entries.erase turn.owner
            registrations := d.registrations.insert entry.allocation
              { registration with received := some turn } } := by
  rw [handoff]
  cases d.closed with
  | true => exact .inl rfl
  | false =>
      rw [if_neg Bool.false_ne_true]
      cases hl : d.entries.lookup turn.owner with
      | none => exact .inl rfl
      | some entry =>
          rcases entry with ⟨allocation, bound, early, mark⟩
          cases bound with
          | none =>
              cases early with
              | some parked => exact .inl rfl
              | none =>
                  cases mark with
                  | some requestId => exact .inl rfl
                  | none => exact .inr (.inl ⟨_, rfl, rfl, rfl, rfl, rfl⟩)
          | some requestId =>
              by_cases hid : requestId = turn.requestId
              · obtain ⟨registration, hr, -⟩ := h.owned hl
                refine .inr (.inr ⟨_, registration, rfl, congrArg some hid, hr, ?_⟩)
                dsimp only at hr ⊢
                rw [if_neg (not_not.mpr hid), send, hr]
              · refine .inl ?_
                dsimp only
                rw [if_pos hid]

/-- A discard changes nothing, withdraws a bound entry, or leaves a mark. -/
theorem discard_cases (d : CompletionHandoff ρ) (owner : RequestOwner) (requestId : ρ) :
    (d.discard owner requestId).2 = d ∨
      ∃ entry, d.entries.lookup owner = some entry ∧
        ((d.discard owner requestId).2 =
            { d with entries := d.entries.erase owner }.release (turns entry.early) ∨
          (entry.requestId = none ∧ (d.discard owner requestId).2 =
            { d with
              entries := d.entries.insert owner
                { entry with
                  discardedEarly := some requestId
                  early := none } }.release (turns entry.early))) := by
  rw [discard]
  cases hl : d.entries.lookup owner with
  | none => exact .inl rfl
  | some entry =>
      rcases entry with ⟨allocation, bound, early, mark⟩
      cases bound with
      | some bound =>
          dsimp only
          split
          · exact .inl rfl
          · exact .inr ⟨_, rfl, .inl rfl⟩
      | none =>
          dsimp only
          split
          · exact .inl rfl
          · exact .inr ⟨_, rfl, .inr ⟨rfl, rfl⟩⟩

/-- What a successful bind does with the entry of its registration. -/
inductive Binds (d : CompletionHandoff ρ) (allocation : Nat) (requestId : ρ)
    (registration : CompletionRegistration ρ) (entry : HandoffEntry ρ) :
    BindDisposition ρ → CompletionHandoff ρ → Prop
  | discarded :
      Binds d allocation requestId registration entry .discarded
        ({ d with
          entries := d.entries.erase registration.owner
          registrations := d.registrations.insert allocation { registration with bound := true } }.release
            (turns entry.early))
  | delivered (turn : CompletionTurn ρ) (early : entry.early = some turn)
      (matching : turn.requestId = requestId) :
      Binds d allocation requestId registration entry .delivered
        { d with
          entries := d.entries.erase registration.owner
          registrations := d.registrations.insert allocation
            { registration with
              bound := true
              received := some turn } }
  | awaiting (mark : Option ρ) :
      Binds d allocation requestId registration entry (.awaitingCompletion mark)
        ({ d with
          entries := d.entries.insert registration.owner
            { entry with
              requestId := some requestId
              early := none
              discardedEarly := none }
          registrations := d.registrations.insert allocation { registration with bound := true } }.release
            (turns entry.early))

theorem bind_cases (d : CompletionHandoff ρ) (allocation : Nat) (requestId : ρ) :
    (∃ error, d.bind allocation requestId = (.error error, d)) ∨
      ∃ registration entry, d.registrations.lookup allocation = some registration ∧
        registration.bound = false ∧ d.entries.lookup registration.owner = some entry ∧
        entry.allocation = allocation ∧
        ∃ disposition d', d.bind allocation requestId = (.ok disposition, d') ∧
          Binds d allocation requestId registration entry disposition d' := by
  rw [bind]
  cases hr : d.registrations.lookup allocation with
  | none => exact .inl ⟨_, rfl⟩
  | some registration =>
      dsimp only
      by_cases hb : registration.bound = true
      · rw [if_pos hb]
        exact .inl ⟨_, rfl⟩
      rw [if_neg hb]
      by_cases hc : d.closed = true
      · rw [if_pos hc]
        exact .inl ⟨_, rfl⟩
      rw [if_neg hc]
      cases hf : (d.entries.lookup registration.owner).filter (·.allocation = allocation) with
      | none => exact .inl ⟨_, rfl⟩
      | some entry =>
          obtain ⟨hl, ha⟩ := filter_eq_some hf
          refine .inr ⟨registration, entry, rfl, Bool.eq_false_iff.mpr hb, hl, ha, ?_⟩
          rcases entry with ⟨own, bound, early, mark⟩
          dsimp only
          by_cases hm : mark = some requestId
          · simp only [hm, decide_true, Bool.true_or, if_true]
            exact ⟨_, _, rfl, .discarded⟩
          · simp only [hm, decide_false, Bool.false_or, if_false]
            cases early with
            | none => exact ⟨_, _, rfl, .awaiting _⟩
            | some turn =>
                by_cases hid : turn.requestId = requestId
                · simp only [Option.any_some, hid, decide_true, if_true, send,
                    Finmap.lookup_insert, Finmap.insert_insert]
                  exact ⟨_, _, rfl, .delivered turn rfl hid⟩
                · simp only [Option.any_some, hid, decide_false, Bool.false_eq_true, if_false]
                  exact ⟨_, _, rfl, .awaiting _⟩

end Answers

end Attyd.Dispatch.CompletionHandoff
