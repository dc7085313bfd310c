import Attyd.Bridge.CreationSteps
import Attyd.Library.Machine

/-!
# Creations side by side

Several sessions are created at the same time. The updates, the responses and the
ends of their handlers come in any order. What is staged for one of them depends on
its own updates only, as long as no creation fails and leaves staged updates behind
while another one is in flight.

## Implementation notes

A creation is known by the session id that the agent announces for it. The world
notes which creations are in flight, the updates between the two sections of
their handler, and for each creation the updates whose handler is done.
-/

namespace Attyd.Bridge

inductive CreationCall (ν : Type*) where
  | begin (sessionId : String)
  | admitUpdate (sessionId : String) (notification : ν)
  | stage (index : Nat)
  | respond (sessionId : String) (response : CreationResponse)
  /-- The request ends without a ticket for its completion. -/
  | lose (sessionId : String)
  | retire (sessionId : String)

structure CreationWorld (ν τ : Type*) where
  state : BridgeState ν τ
  inFlight : List String
  announced : List String
  inHand : List (String × Nat × ν)
  handled : String → List ν

variable {ν τ : Type*}

namespace CreationWorld

def new : CreationWorld ν τ := ⟨.new, [], [], [], fun _ => []⟩

def step (semantics : Semantics ν τ) (w : CreationWorld ν τ) :
    CreationCall ν → CreationWorld ν τ
  | .begin sessionId =>
      { w with
        state := { w.state with pendingCreations := w.state.pendingCreations + 1 }
        inFlight := sessionId :: w.inFlight
        announced := sessionId :: w.announced }
  | .admitUpdate sessionId notification =>
      match w.state.admitUpdate semantics sessionId with
      | (.staged allocation, state) =>
          { w with
            state
            inHand := w.inHand ++ [(sessionId, allocation, notification)] }
      | (_, state) => { w with state }
  | .stage index =>
      match w.inHand[index]? with
      | none => w
      | some (sessionId, allocation, notification) =>
          { w with
            state := w.state.stage semantics sessionId allocation notification
            inHand := w.inHand.eraseIdx index
            handled := Function.update w.handled sessionId
              (w.handled sessionId ++ [notification]) }
  | .respond sessionId response =>
      { w with
        state := (w.state.respond semantics response).2
        inFlight := w.inFlight.erase sessionId }
  | .lose sessionId => { w with inFlight := w.inFlight.erase sessionId }
  | .retire sessionId => { w with state := w.state.retireEntry sessionId }

/-- What is staged for a creation follows from its own updates, and each update of a
creation in flight has a place there. -/
structure Independent (semantics : Semantics ν τ) (w : CreationWorld ν τ) : Prop where
  admitted : ∀ sessionId ∈ w.inFlight,
    ∃ allocation, (w.state.admitUpdate semantics sessionId).1 = .staged allocation
  inHand : ∀ update ∈ w.inHand, update.1 ∈ w.inFlight →
    ∃ staging, w.state.creationStaging.lookup update.1 = some staging ∧
      staging.validation.allocation = update.2.1
  staged : ∀ sessionId ∈ w.inFlight, ∀ staging,
    w.state.creationStaging.lookup sessionId = some staging →
      staging = (w.handled sessionId).foldl (·.push semantics ·)
        (.new semantics staging.validation.allocation)
  unstaged : ∀ sessionId ∈ w.inFlight,
    w.state.creationStaging.lookup sessionId = none → w.handled sessionId = []
  pending : w.state.pendingCreations = w.inFlight.length
  count : w.state.earlyUpdateCount =
    Table.sum (fun staging : CreationStaging ν τ => staging.earlyNotifications.length)
      w.state.creationStaging
  bytes : w.state.earlyUpdateBytes =
    Table.sum (fun staging : CreationStaging ν τ => staging.bytes) w.state.creationStaging

/-- The response ends a creation and leaves what is staged for its session. -/
def Leaves (w : CreationWorld ν τ) (sessionId : String) : CreationResponse → Prop
  | .error => True
  | .session target acceptable modes _ =>
      w.state.refusesResponse target acceptable = true ∨
        ∃ staging, w.state.creationStaging.lookup sessionId = some staging ∧
          staging.rejects modes = true

/-- The response names the session the agent announced, unless it is refused at once. -/
def Names (w : CreationWorld ν τ) (sessionId : String) : CreationResponse → Prop
  | .error => True
  | .session target acceptable _ _ =>
      w.state.refusesResponse target acceptable = false → target = sessionId

/-- The agent announces an id for one creation, sends updates of it before its
response, and names it in the response unless the response is refused at once. The
request gets its completion. A creation that fails while another is in flight has
nothing staged. -/
def Clean (w : CreationWorld ν τ) : CreationCall ν → Prop
  | .begin sessionId =>
      sessionId ≠ "" ∧ sessionId ∉ w.announced ∧ w.state.live.lookup sessionId = none ∧
        sessionId ∉ w.state.retired
  | .admitUpdate sessionId _ => sessionId ∈ w.inFlight
  | .stage _ => True
  | .respond sessionId response =>
      sessionId ∈ w.inFlight ∧
        w.Names sessionId response ∧
        (w.Leaves sessionId response →
          w.inFlight.length = 1 ∨ w.state.creationStaging.lookup sessionId = none)
  | .lose _ => False
  | .retire _ => True

variable {semantics : Semantics ν τ} {w : CreationWorld ν τ}

/-- Each staged session is the one of a creation in flight. -/
structure Isolated (semantics : Semantics ν τ) (w : CreationWorld ν τ) : Prop where
  counted : w.state.Counted
  nodup : w.inFlight.Nodup
  free : ∀ sessionId ∈ w.inFlight, sessionId ≠ "" ∧ sessionId ∈ w.announced ∧
    w.state.live.lookup sessionId = none ∧ sessionId ∉ w.state.retired
  owned : ∀ sessionId staging, w.state.creationStaging.lookup sessionId = some staging →
    sessionId ∈ w.inFlight
  inHand : ∀ update ∈ w.inHand, update.1 ∈ w.announced ∧ (update.1 ∈ w.inFlight →
    ∃ staging, w.state.creationStaging.lookup update.1 = some staging ∧
      staging.validation.allocation = update.2.1)
  staged : ∀ sessionId ∈ w.inFlight, ∀ staging,
    w.state.creationStaging.lookup sessionId = some staging →
      staging = (w.handled sessionId).foldl (·.push semantics ·)
        (.new semantics staging.validation.allocation)
  unstaged : ∀ sessionId ∈ w.inFlight,
    w.state.creationStaging.lookup sessionId = none → w.handled sessionId = []
  unannounced : ∀ sessionId, sessionId ∉ w.announced → w.handled sessionId = []
  pending : w.state.pendingCreations = w.inFlight.length

theorem isolated_new : (new : CreationWorld ν τ).Isolated semantics where
  counted := BridgeState.counted_new
  nodup := List.nodup_nil
  free _ h := by cases h
  owned _ _ h := by cases h
  inHand _ h := by cases h
  staged _ h := by cases h
  unstaged _ h := by cases h
  unannounced _ _ := rfl
  pending := rfl

/-- A creation that has nothing staged leaves room for its first update. -/
theorem Isolated.room (h : w.Isolated semantics) {sessionId : String}
    (hm : sessionId ∈ w.inFlight) (hl : w.state.creationStaging.lookup sessionId = none) :
    w.state.creationStaging.entries.card < w.state.pendingCreations := by
  have hsub : w.state.creationStaging.keys ⊆ (w.inFlight.erase sessionId).toFinset := by
    intro other ho
    obtain ⟨staging, hs⟩ := Finmap.mem_iff.mp (Finmap.mem_keys.mp ho)
    have hne : other ≠ sessionId := by
      rintro rfl
      cases hl.symm.trans hs
    rw [List.mem_toFinset, List.mem_erase_of_ne hne]
    exact h.owned other staging hs
  have hcard := Finset.card_le_card hsub
  have hkeys : w.state.creationStaging.keys.card = w.state.creationStaging.entries.card :=
    Multiset.card_map _ _
  have hlist := List.toFinset_card_le (w.inFlight.erase sessionId)
  have hpos := List.length_pos_of_mem hm
  rw [List.length_erase_of_mem hm] at hlist
  rw [h.pending]
  omega

/-- The first section takes an update of a creation in flight. -/
theorem Isolated.admit_cases (h : w.Isolated semantics) {sessionId : String}
    (hm : sessionId ∈ w.inFlight) :
    (∃ staging, w.state.creationStaging.lookup sessionId = some staging ∧
      w.state.admitUpdate semantics sessionId = (.staged staging.validation.allocation, w.state)) ∨
    (w.state.creationStaging.lookup sessionId = none ∧
      w.state.admitUpdate semantics sessionId =
        (.staged w.state.nextAllocation,
          { w.state with
            nextAllocation := w.state.nextAllocation + 1
            creationStaging := w.state.creationStaging.insert sessionId
              (.new semantics w.state.nextAllocation) })) := by
  obtain ⟨hempty, -, hlive, hretired⟩ := h.free sessionId hm
  have hpos : 0 < w.state.pendingCreations := by
    rw [h.pending]
    exact List.length_pos_of_mem hm
  rw [BridgeState.admitUpdate, hlive, if_neg (by simp), if_pos hpos, if_neg hretired,
    if_neg (by simpa using hempty)]
  cases hl : w.state.creationStaging.lookup sessionId with
  | some staging => exact .inl ⟨staging, rfl, rfl⟩
  | none =>
      dsimp only
      rw [if_neg (Nat.not_le.mpr (h.room hm hl))]
      exact .inr ⟨rfl, rfl⟩

theorem Isolated.independent (h : w.Isolated semantics) : w.Independent semantics where
  admitted sessionId hm := by
    rcases h.admit_cases hm with ⟨staging, -, ha⟩ | ⟨-, ha⟩
    · exact ⟨_, congrArg Prod.fst ha⟩
    · exact ⟨_, congrArg Prod.fst ha⟩
  inHand update hu := (h.inHand update hu).2
  staged := h.staged
  unstaged := h.unstaged
  pending := h.pending
  count := h.counted.count
  bytes := h.counted.bytes

theorem Isolated.begin (h : w.Isolated semantics) {sessionId : String}
    (hc : w.Clean (.begin sessionId)) :
    (w.step semantics (.begin sessionId : CreationCall ν)).Isolated semantics := by
  obtain ⟨hempty, hfresh, hlive, hretired⟩ := hc
  have hout : sessionId ∉ w.inFlight := fun hm => hfresh (h.free sessionId hm).2.1
  have hnone : w.state.creationStaging.lookup sessionId = none := by
    cases hl : w.state.creationStaging.lookup sessionId with
    | none => rfl
    | some staging => exact absurd (h.owned sessionId staging hl) hout
  refine ⟨⟨h.counted.count, h.counted.bytes⟩, List.nodup_cons.mpr ⟨hout, h.nodup⟩, ?_, ?_, ?_, ?_,
    ?_, ?_, ?_⟩
  · intro other ho
    rcases List.mem_cons.mp ho with rfl | ho
    · exact ⟨hempty, List.mem_cons_self, hlive, hretired⟩
    · obtain ⟨ha, hb, hrest⟩ := h.free other ho
      exact ⟨ha, List.mem_cons_of_mem _ hb, hrest⟩
  · intro other staging hl
    exact List.mem_cons_of_mem _ (h.owned other staging hl)
  · intro update hu
    obtain ⟨ha, hs⟩ := h.inHand update hu
    refine ⟨List.mem_cons_of_mem _ ha, fun hm => ?_⟩
    rcases List.mem_cons.mp hm with heq | hm
    · rw [heq] at ha
      exact absurd ha hfresh
    · exact hs hm
  · intro other ho staging hl
    rcases List.mem_cons.mp ho with rfl | ho
    · cases hnone.symm.trans hl
    · exact h.staged other ho staging hl
  · intro other ho hl
    rcases List.mem_cons.mp ho with rfl | ho
    · exact h.unannounced other hfresh
    · exact h.unstaged other ho hl
  · intro other ho
    exact h.unannounced other fun hm => ho (List.mem_cons_of_mem _ hm)
  · exact congrArg (· + 1) h.pending

theorem Isolated.admitUpdate (h : w.Isolated semantics) {sessionId : String} {notification : ν}
    (hc : w.Clean (.admitUpdate sessionId notification)) :
    (w.step semantics (.admitUpdate sessionId notification)).Isolated semantics := by
  have hm : sessionId ∈ w.inFlight := hc
  have hannounced := (h.free sessionId hm).2.1
  rcases h.admit_cases hm with ⟨staging, hl, ha⟩ | ⟨hl, ha⟩
  · simp only [step, ha]
    refine ⟨h.counted, h.nodup, h.free, h.owned, ?_, h.staged, h.unstaged, h.unannounced,
      h.pending⟩
    intro update hu
    rcases List.mem_append.mp hu with hu | hu
    · exact h.inHand update hu
    · rw [List.mem_singleton.mp hu]
      exact ⟨hannounced, fun _ => ⟨staging, hl, rfl⟩⟩
  · have hcounted := h.counted.admitUpdate semantics sessionId
    simp only [step, ha]
    rw [ha] at hcounted
    refine ⟨hcounted, h.nodup, h.free, ?_, ?_, ?_, ?_, h.unannounced, h.pending⟩
    · intro other staging ho
      change (w.state.creationStaging.insert sessionId _).lookup other = _ at ho
      by_cases heq : other = sessionId
      · exact heq ▸ hm
      · rw [Finmap.lookup_insert_of_ne _ heq] at ho
        exact h.owned other staging ho
    · intro update hu
      rcases List.mem_append.mp hu with hu | hu
      · obtain ⟨hmem, hs⟩ := h.inHand update hu
        refine ⟨hmem, fun hflight => ?_⟩
        obtain ⟨staging, hs, halloc⟩ := hs hflight
        have hne : update.1 ≠ sessionId := by
          intro heq
          rw [heq, hl] at hs
          cases hs
        exact ⟨staging, (Finmap.lookup_insert_of_ne _ hne).trans hs, halloc⟩
      · rw [List.mem_singleton.mp hu]
        exact ⟨hannounced, fun _ => ⟨_, Finmap.lookup_insert _, rfl⟩⟩
    · intro other ho staging hs
      change (w.state.creationStaging.insert sessionId _).lookup other = _ at hs
      by_cases heq : other = sessionId
      · rw [heq, Finmap.lookup_insert] at hs
        cases hs
        change _ = (w.handled other).foldl _ _
        rw [heq, h.unstaged sessionId hm hl]
        rfl
      · rw [Finmap.lookup_insert_of_ne _ heq] at hs
        exact h.staged other ho staging hs
    · intro other ho hs
      change (w.state.creationStaging.insert sessionId _).lookup other = _ at hs
      by_cases heq : other = sessionId
      · rw [heq, Finmap.lookup_insert] at hs
        cases hs
      · rw [Finmap.lookup_insert_of_ne _ heq] at hs
        exact h.unstaged other ho hs

theorem Isolated.stage (h : w.Isolated semantics) (index : Nat) :
    (w.step semantics (.stage index)).Isolated semantics := by
  simp only [step]
  cases hi : w.inHand[index]? with
  | none => exact h
  | some update =>
      obtain ⟨sessionId, allocation, notification⟩ := update
      obtain ⟨hannounced, hplace⟩ := h.inHand _ (List.mem_of_getElem? hi)
      have hcounted := h.counted.stage semantics sessionId allocation notification
      have hunannounced : ∀ other, other ∉ w.announced →
          Function.update w.handled sessionId (w.handled sessionId ++ [notification]) other =
            [] := by
        intro other ho
        have hne : other ≠ sessionId := by
          rintro rfl
          exact ho hannounced
        rw [Function.update_of_ne hne]
        exact h.unannounced other ho
      by_cases hm : sessionId ∈ w.inFlight
      · obtain ⟨staging, hl, rfl⟩ := hplace hm
        obtain ⟨-, -, hlive, hretired⟩ := h.free sessionId hm
        have hpos : w.state.pendingCreations ≠ 0 := by
          rw [h.pending]
          exact (List.length_pos_of_mem hm).ne'
        obtain ⟨hstaged, hsame, hret, hpend⟩ :=
          w.state.stage_eq semantics notification hl hlive hpos hretired
        have hlookup : ∀ other, other ≠ sessionId →
            (w.state.stage semantics sessionId staging.validation.allocation
              notification).creationStaging.lookup other =
              w.state.creationStaging.lookup other := by
          intro other ho
          rw [hstaged, Finmap.lookup_insert_of_ne _ ho]
        have hself : (w.state.stage semantics sessionId staging.validation.allocation
            notification).creationStaging.lookup sessionId =
              some (staging.push semantics notification) := by
          rw [hstaged, Finmap.lookup_insert]
        refine ⟨hcounted, h.nodup, ?_, ?_, ?_, ?_, ?_, hunannounced, hpend.trans h.pending⟩
        · intro other ho
          obtain ⟨ha, hb, hc, hd⟩ := h.free other ho
          exact ⟨ha, hb, hsame ▸ hc, hret ▸ hd⟩
        · intro other found hf
          by_cases ho : other = sessionId
          · exact ho ▸ hm
          · exact h.owned other found ((hlookup other ho).symm.trans hf)
        · intro update hu
          obtain ⟨hmem, hs⟩ := h.inHand update (List.mem_of_mem_eraseIdx hu)
          refine ⟨hmem, fun hflight => ?_⟩
          obtain ⟨found, hf, halloc⟩ := hs hflight
          by_cases ho : update.1 = sessionId
          · rw [ho] at hf ⊢
            cases hl.symm.trans hf
            exact ⟨_, hself, by rw [CreationStaging.allocation_push, halloc]⟩
          · exact ⟨found, (hlookup _ ho).trans hf, halloc⟩
        · intro other ho found hf
          by_cases heq : other = sessionId
          · subst heq
            rw [hself] at hf
            cases hf
            dsimp only at hl ⊢
            rw [Function.update_self, List.foldl_append, CreationStaging.allocation_push,
              ← h.staged other ho staging hl]
            rfl
          · dsimp only
            rw [Function.update_of_ne heq]
            exact h.staged other ho found ((hlookup other heq).symm.trans hf)
        · intro other ho hf
          by_cases heq : other = sessionId
          · rw [heq, hself] at hf
            cases hf
          · dsimp only
            rw [Function.update_of_ne heq]
            exact h.unstaged other ho ((hlookup other heq).symm.trans hf)
      · have hnone : w.state.creationStaging.lookup sessionId = none := by
          cases hl : w.state.creationStaging.lookup sessionId with
          | none => rfl
          | some staging => exact absurd (h.owned sessionId staging hl) hm
        have hne : ∀ other ∈ w.inFlight, other ≠ sessionId := by
          rintro other ho rfl
          exact hm ho
        dsimp only
        rw [BridgeState.stage_of_lookup_none semantics hnone]
        refine ⟨h.counted, h.nodup, h.free, h.owned, ?_, ?_, ?_, hunannounced, h.pending⟩
        · intro update hu
          exact h.inHand update (List.mem_of_mem_eraseIdx hu)
        · intro other ho
          dsimp only
          rw [Function.update_of_ne (hne other ho)]
          exact h.staged other ho
        · intro other ho
          dsimp only
          rw [Function.update_of_ne (hne other ho)]
          exact h.unstaged other ho

theorem Isolated.respond (h : w.Isolated semantics) {sessionId : String}
    {response : CreationResponse} (hc : w.Clean (.respond sessionId response : CreationCall ν)) :
    (w.step semantics (.respond sessionId response)).Isolated semantics := by
  obtain ⟨hm, hnames, hleaves⟩ := hc
  have hends : w.state.Ends sessionId (w.state.respond semantics response).2 := by
    have hone : w.Leaves sessionId response → w.state.pendingCreations = 1 ∨
        w.state.creationStaging.lookup sessionId = none := by
      rw [h.pending]
      exact hleaves
    refine w.state.respond_ends semantics response ?_ ?_ ?_ ?_
    · rintro target acceptable modes opens rfl
      exact hnames
    · rintro rfl
      exact hone trivial
    · rintro target acceptable modes opens rfl hr
      exact hone (.inl hr)
    · rintro target acceptable modes opens staging rfl hl hj
      rcases hone (.inr ⟨staging, hl, hj⟩) with hlast | hnone
      · exact hlast
      · cases hnone.symm.trans hl
  have hmem : ∀ {other}, other ∈ w.inFlight.erase sessionId →
      other ≠ sessionId ∧ other ∈ w.inFlight := by
    intro other ho
    exact h.nodup.mem_erase_iff.mp ho
  have hsame : ∀ {other}, other ∈ w.inFlight.erase sessionId →
      (w.state.respond semantics response).2.creationStaging.lookup other =
        w.state.creationStaging.lookup other := by
    intro other ho
    obtain ⟨hne, hin⟩ := hmem ho
    refine hends.others other hne ?_
    have hpos := List.length_pos_of_mem ho
    rw [List.length_erase_of_mem hm] at hpos
    rw [h.pending]
    omega
  refine ⟨h.counted.respond response, h.nodup.erase _, ?_, ?_, ?_, ?_, ?_, h.unannounced, ?_⟩
  · intro other ho
    obtain ⟨hne, hin⟩ := hmem ho
    obtain ⟨ha, hb, hlive, hretired⟩ := h.free other hin
    exact ⟨ha, hb, (hends.live other hne).trans hlive, hends.retired ▸ hretired⟩
  · intro other staging hl
    have hne : other ≠ sessionId := by
      rintro rfl
      cases hends.gone.symm.trans hl
    exact h.nodup.mem_erase_iff.mpr ⟨hne, h.owned other staging (hends.staged other staging hl)⟩
  · intro update hu
    obtain ⟨ha, hs⟩ := h.inHand update hu
    refine ⟨ha, fun ho => ?_⟩
    obtain ⟨staging, hl, halloc⟩ := hs (hmem ho).2
    exact ⟨staging, (hsame ho).trans hl, halloc⟩
  · intro other ho staging hl
    exact h.staged other (hmem ho).2 staging ((hsame ho).symm.trans hl)
  · intro other ho hl
    exact h.unstaged other (hmem ho).2 ((hsame ho).symm.trans hl)
  · change (w.state.respond semantics response).2.pendingCreations =
      (w.inFlight.erase sessionId).length
    rw [hends.pending, h.pending, List.length_erase_of_mem hm]

theorem Isolated.retire (h : w.Isolated semantics) (sessionId : String) :
    (w.step semantics (.retire sessionId : CreationCall ν)).Isolated semantics := by
  have hcounted := h.counted.retireEntry sessionId
  simp only [step]
  rw [BridgeState.retireEntry] at hcounted ⊢
  cases hl : w.state.live.lookup sessionId with
  | none => exact h
  | some allocation =>
      rw [hl] at hcounted
      refine ⟨hcounted, h.nodup, ?_, h.owned, h.inHand, h.staged, h.unstaged, h.unannounced,
        h.pending⟩
      intro other ho
      obtain ⟨ha, hb, hlive, hretired⟩ := h.free other ho
      have hne : other ≠ sessionId := by
        rintro rfl
        cases hl.symm.trans hlive
      refine ⟨ha, hb, (Finmap.lookup_erase_ne hne).trans hlive, ?_⟩
      exact fun hin => (Finset.mem_insert.mp hin).elim hne hretired

theorem Isolated.step (h : w.Isolated semantics) {call : CreationCall ν} (hc : w.Clean call) :
    (w.step semantics call).Isolated semantics := by
  cases call with
  | begin sessionId => exact h.begin hc
  | admitUpdate sessionId notification => exact h.admitUpdate hc
  | stage index => exact h.stage index
  | respond sessionId response => exact h.respond hc
  | lose sessionId => exact hc.elim
  | retire sessionId => exact h.retire sessionId

/-- In a run of clean calls what is staged for a creation follows from its own updates,
and no update of a creation in flight is refused or lost. -/
theorem run_independent (semantics : Semantics ν τ) {calls : List (CreationCall ν)}
    (h : Along (step semantics) Clean new calls) :
    (run (step semantics) new calls).Independent semantics := by
  have hrun : (run (step semantics) new calls).Isolated semantics :=
    run_invariant_along (fun _ _ hw hc => hw.step hc) isolated_new h
  exact hrun.independent

instance (w : CreationWorld ν τ) (sessionId : String) (response : CreationResponse) :
    Decidable (w.Names sessionId response) :=
  match response with
  | .error => isTrue trivial
  | .session target acceptable _ _ =>
      inferInstanceAs (Decidable (w.state.refusesResponse target acceptable = false →
        target = sessionId))

instance (w : CreationWorld ν τ) (sessionId : String) (response : CreationResponse) :
    Decidable (w.Leaves sessionId response) :=
  match response with
  | .error => isTrue trivial
  | .session target acceptable modes _ =>
      decidable_of_iff
        (w.state.refusesResponse target acceptable = true ∨
          (w.state.creationStaging.lookup sessionId).any (·.rejects modes) = true)
        (or_congr Iff.rfl (Option.any_eq_true _ _))

instance (w : CreationWorld ν τ) (sessionId : String) :
    Decidable (w.state.creationStaging.lookup sessionId = none) :=
  decidable_of_iff _ Option.isNone_iff_eq_none

instance (w : CreationWorld ν τ) (call : CreationCall ν) : Decidable (w.Clean call) :=
  match call with
  | .begin sessionId =>
      inferInstanceAs (Decidable (sessionId ≠ "" ∧ sessionId ∉ w.announced ∧
        w.state.live.lookup sessionId = none ∧ sessionId ∉ w.state.retired))
  | .admitUpdate sessionId _ => inferInstanceAs (Decidable (sessionId ∈ w.inFlight))
  | .stage _ => isTrue trivial
  | .respond sessionId response =>
      inferInstanceAs (Decidable (sessionId ∈ w.inFlight ∧ w.Names sessionId response ∧
        (w.Leaves sessionId response →
          w.inFlight.length = 1 ∨ w.state.creationStaging.lookup sessionId = none)))
  | .lose _ => isFalse id
  | .retire _ => isTrue trivial

/-- Updates that name no mode and are all valid. -/
def plain : Semantics String Unit := ⟨(), fun _ => none, fun tracked _ => .ok tracked, String.length⟩

/-- Two sessions are created side by side; the first gets its update and is opened. -/
theorem run_independent_two :
    (run (step plain) new [.begin "a", .begin "b", .admitUpdate "a" "x", .stage 0, .admitUpdate "b" "y",
      .respond "a" (.session "a" true [] true), .stage 0, .respond "b" .error] :
        CreationWorld String Unit).Independent plain :=
  run_independent plain (by decide +kernel)

/-- The creation of one session is rejected after its update was staged; the first update
of the other one, still pending, is refused. -/
theorem admitUpdate_refused_after_rejection :
    let w : CreationWorld String Unit := run (step plain) new
      [.begin "a", .begin "b", .admitUpdate "a" "x", .stage 0,
        .respond "a" (.session "a" false [] true)]
    "b" ∈ w.inFlight ∧ "b" ∉ w.state.retired ∧ w.state.live.lookup "b" = none ∧
      w.state.creationStaging.lookup "b" = none ∧
      (w.state.admitUpdate plain "b").1 =
        .refused "Agent sent updates for more session IDs than pending session creations" ∧
      ((run (step plain) new [.begin "a", .begin "b", .admitUpdate "a" "x", .stage 0] :
        CreationWorld String Unit).state.admitUpdate plain "b").1 = .staged 1 := by
  decide +kernel

end CreationWorld

end Attyd.Bridge
