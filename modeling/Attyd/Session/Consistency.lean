import Attyd.Session.Runs

/-!
# Phase, turn, load and history agree

What a session knows about itself is spread over its phase, its turn with the
digest of its prompt, its load attempt, the candidate table of the cache and the
published history. Every transition keeps these in agreement, but for one kind: a
turn that is blocked or committed from memory while a load of its session is
under way forgets the attempt and leaves its candidate behind.

## Implementation notes

A load that fails returns to the phase it began in, so the invariant also says
where a load may have begun.
-/

namespace Attyd.Session

open Json (Value)
open History

variable {σ δ : Type} [Inhabited σ] [DecidableEq δ]

section Local

omit [DecidableEq δ]

/-- What the phase of a session says about its turn and its load. -/
def PhaseOk (s : SessionState δ) : Prop :=
  match s.phase with
  | .cold | .ready => s.activeTurn = none ∧ s.loadAttempt = none
  | .loading => s.activeTurn = none ∧ s.loadOrigin ≠ some .reconciling
  | .running => (∃ turn, s.activeTurn = some turn ∧ turn.terminal = none) ∧ s.loadAttempt = none
  | .reconciling =>
      (∃ turn, s.activeTurn = some turn ∧ turn.terminal.isSome) ∧
        ∀ origin, s.loadOrigin = some origin → origin = .reconciling ∨ origin = .blocked
  | .blocked => s.loadAttempt = none

/-- A session agrees with itself and with its published history. -/
structure SessionOk (s : SessionState δ) (baseline : Option HistorySnapshot) : Prop where
  phase : PhaseOk s
  digest : s.activePayloadDigest.isSome = s.activeTurn.isSome
  origin : s.loadOrigin.isSome = s.loadAttempt.isSome
  revision : s.phase = .ready ∨ s.phase = .running ∨ s.loadOrigin = some .ready →
    ∃ snapshot, baseline = some snapshot ∧ s.historyRevision = some snapshot.revision

variable {a b : SessionState δ} {baseline : Option HistorySnapshot}

theorem SessionOk.cold (sessionId : String) (incarnation : Nat)
    (baseline : Option HistorySnapshot) :
    SessionOk (.cold sessionId incarnation : SessionState δ) baseline :=
  ⟨⟨rfl, rfl⟩, rfl, rfl, by simp [SessionState.cold]⟩

theorem SessionOk.ready (sessionId : String) (incarnation : Nat) (snapshot : HistorySnapshot) :
    SessionOk (.ready sessionId incarnation snapshot.revision : SessionState δ) (some snapshot) :=
  ⟨⟨rfl, rfl⟩, rfl, rfl, fun _ => ⟨snapshot, rfl, rfl⟩⟩

theorem Touched.phaseOk (h : Touched a b) (ha : PhaseOk a) : PhaseOk b := by
  obtain ⟨execution, hturn⟩ := h.turn
  unfold PhaseOk at ha ⊢
  rw [h.phase, hturn, h.loadAttempt, h.loadOrigin]
  cases hp : a.phase <;> simp only [hp] at ha ⊢
  case running =>
    obtain ⟨⟨turn, ht, hterminal⟩, hload⟩ := ha
    exact ⟨⟨{ turn with execution := execution turn }, by rw [ht]; rfl, hterminal⟩, hload⟩
  case reconciling =>
    obtain ⟨⟨turn, ht, hterminal⟩, horigin⟩ := ha
    exact ⟨⟨{ turn with execution := execution turn }, by rw [ht]; rfl, hterminal⟩, horigin⟩
  case blocked => exact ha
  case loading => exact ⟨by rw [ha.1]; rfl, ha.2⟩
  all_goals exact ⟨by rw [ha.1]; rfl, ha.2⟩

theorem SessionOk.touched (ha : SessionOk a baseline) (h : Touched a b) :
    SessionOk b baseline := by
  obtain ⟨execution, hturn⟩ := h.turn
  refine ⟨h.phaseOk ha.phase, ?_, ?_, ?_⟩
  · rw [h.digest, hturn, Option.isSome_map]
    exact ha.digest
  · rw [h.loadOrigin, h.loadAttempt]
    exact ha.origin
  · rw [h.phase, h.loadOrigin, h.historyRevision]
    exact ha.revision

/-- A load begins with a completed turn or with none. -/
theorem SessionOk.loadBegun {attemptId : String} (ha : SessionOk a baseline)
    (hm : SessionRegistry.mayLoad a attemptId = true) :
    SessionOk (SessionRegistry.loadBegun a attemptId) baseline := by
  simp only [SessionRegistry.mayLoad, Bool.and_eq_true, decide_eq_true_eq,
    Option.isNone_iff_eq_none] at hm
  obtain ⟨⟨⟨hrunning, hload⟩, hterminal⟩, -⟩ := hm
  have hphase := ha.phase
  unfold PhaseOk at hphase
  refine ⟨?_, ha.digest, rfl, ?_⟩
  · unfold PhaseOk
    cases hp : a.phase <;> simp only [hp, SessionRegistry.loadBegun, SessionState.advanceRevision]
      at hphase ⊢
    case running => exact absurd hp hrunning
    case reconciling => exact ⟨hphase.1, by simp⟩
    case blocked =>
      cases ht : a.activeTurn with
      | none => simp
      | some turn =>
          have hdone : turn.terminal.isSome = true := by simpa [ht] using hterminal
          simpa using hdone
    all_goals exact ⟨hphase.1, by simp⟩
  · intro h
    have hready : a.phase = .ready := by
      cases hp : a.phase <;>
        simp only [hp, SessionRegistry.loadBegun, SessionState.advanceRevision] at h hrunning ⊢
      case blocked =>
        cases ht : a.activeTurn <;> simp [ht] at h
      all_goals simp at h hrunning
    exact ha.revision (.inl hready)

/-- A failed load returns to where it began, or blocks the session. -/
theorem SessionOk.loadFailed {attemptId message : String} {retryable : Bool}
    (ha : SessionOk a baseline) (hload : a.loadAttempt = some attemptId) :
    SessionOk { a with
      loadOrigin := none
      loadAttempt := none
      syncError := some message
      phase := SessionRegistry.phaseAfterFailure a.loadOrigin retryable }.advanceRevision
      baseline := by
  have hphase := ha.phase
  have horigin : a.loadOrigin.isSome = true := by rw [ha.origin, hload]; rfl
  obtain ⟨origin, ho⟩ := Option.isSome_iff_exists.mp horigin
  unfold PhaseOk at hphase
  rw [hload, ho] at hphase
  refine ⟨?_, ha.digest, rfl, ?_⟩
  · cases retryable with
    | false => exact rfl
    | true =>
        unfold PhaseOk
        cases hp : a.phase <;>
          simp only [hp, reduceCtorEq, and_false, Option.some.injEq, forall_eq'] at hphase
        case loading =>
          cases origin <;> simp_all [SessionRegistry.phaseAfterFailure,
            SessionState.advanceRevision]
        case reconciling =>
          rcases hphase.2 with rfl | rfl <;>
            simp_all [SessionRegistry.phaseAfterFailure, SessionState.advanceRevision]
  · intro h
    refine ha.revision (.inr (.inr ?_))
    cases retryable with
    | false => simp [SessionRegistry.phaseAfterFailure, SessionState.advanceRevision] at h
    | true =>
        rw [ho] at h ⊢
        cases origin <;>
          simp [SessionRegistry.phaseAfterFailure, SessionState.advanceRevision] at h ⊢

theorem SessionOk.cooled (ha : SessionOk a baseline) (hturn : a.activeTurn = none)
    (hload : a.loadAttempt = none) : SessionOk { a with phase := .cold } baseline := by
  have horigin : a.loadOrigin = none := by
    rw [← Option.not_isSome_iff_eq_none, ha.origin, hload]
    simp
  exact ⟨⟨hturn, hload⟩, ha.digest, ha.origin, by simp [horigin]⟩

/-- A commit leaves a ready session that knows the published revision. -/
theorem SessionOk.historyCommitted (a : SessionState δ) (snapshot : HistorySnapshot)
    (afterUpdate : Nat) (replaceOutcomes : Bool) :
    SessionOk (a.historyCommitted snapshot.revision afterUpdate replaceOutcomes)
      (some snapshot) :=
  ⟨⟨rfl, rfl⟩, rfl, rfl, fun _ => ⟨snapshot, rfl, rfl⟩⟩

theorem SessionOk.gathered {update : Value} (ha : SessionOk a baseline)
    (hb : a.foldOverlayUpdate update = .ok b) : SessionOk b baseline := by
  obtain ⟨turn, updates, hturn, -, rfl⟩ := SessionState.foldOverlayUpdate_eq_ok hb
  refine ⟨?_, ?_, ha.origin, ha.revision⟩
  · have hphase := ha.phase
    unfold PhaseOk SessionState.advanceRevision at *
    rw [hturn] at hphase
    cases hp : a.phase <;> simp_all
  · have hdigest := ha.digest
    rw [hturn] at hdigest
    exact hdigest

theorem SessionOk.completed {operationId : String} {terminal : Value} (ha : SessionOk a baseline)
    (hb : a.completeTurn operationId terminal = .ok b) : SessionOk b baseline := by
  obtain ⟨turn, hp, hturn, -, -, rfl⟩ := SessionState.completeTurn_eq_ok hb
  have hphase := ha.phase
  unfold PhaseOk at hphase
  simp only [hp] at hphase
  have horigin : a.loadOrigin = none := by
    rw [← Option.not_isSome_iff_eq_none, ha.origin, hphase.2]
    simp
  have hdigest := ha.digest
  rw [hturn] at hdigest
  refine ⟨⟨⟨_, rfl, rfl⟩, ?_⟩, hdigest, ha.origin, ?_⟩
  · intro origin h
    rw [SessionState.advanceRevision, horigin] at h
    cases h
  · simp [SessionState.advanceRevision, horigin]

theorem SessionOk.blocked {operationId message : String} (ha : SessionOk a baseline)
    (hb : a.blockTurn operationId message = .ok b) : SessionOk b baseline := by
  obtain ⟨-, -, rfl⟩ := SessionState.blockTurn_eq_ok hb
  exact ⟨rfl, ha.digest, rfl, by simp [SessionState.advanceRevision]⟩

end Local

/-- A new turn starts in a ready session without load, and knows its digest. -/
theorem SessionOk.turnBegun {sha256 : String → δ} {a : SessionState δ}
    {baseline : Option HistorySnapshot} {expectedHistoryRevision clientIntentId : String}
    {prompt : Prompt} (operationId : String) (ha : SessionOk a baseline)
    (hc : a.checkTurnAdmission sha256 expectedHistoryRevision clientIntentId prompt = .ok none) :
    SessionOk (a.turnBegun sha256 operationId clientIntentId prompt) baseline := by
  obtain ⟨hready, -, hload, -, -⟩ := SessionState.checkTurnAdmission_eq_none hc
  exact ⟨⟨⟨_, rfl, rfl⟩, hload⟩, rfl, ha.origin, fun _ => ha.revision (.inl hready)⟩

section Slices

omit [DecidableEq δ]

/-- The slice of a session agrees with itself: its session does, and its current
attempt is the candidate of its incarnation. -/
structure Slice.Consistent (s : Slice δ) : Prop where
  session : ∀ a, s.session = some a → SessionOk a (s.baseline a.incarnation)
  loads : ∀ incarnation, s.attempt incarnation =
    s.session.bind fun a => if a.incarnation = incarnation then a.loadAttempt else none

namespace Slice.Consistent

variable {s : Slice δ} {a b : SessionState δ}

/-- The attempts of a slice are those of a session that replaces its own. -/
private theorem loads_update {f : Nat → Option String} {x : Option String}
    (hf : ∀ incarnation, f incarnation = if a.incarnation = incarnation then a.loadAttempt else none)
    (hi : b.incarnation = a.incarnation) (hx : b.loadAttempt = x) (incarnation : Nat) :
    Function.update f a.incarnation x incarnation =
      if b.incarnation = incarnation then b.loadAttempt else none := by
  rw [Function.update_apply, hi, hx]
  by_cases h : incarnation = a.incarnation
  · rw [if_pos h, if_pos h.symm]
  · rw [if_neg h, if_neg (Ne.symm h), hf, if_neg (Ne.symm h)]

/-- A step that writes the session and the attempt of its incarnation. -/
theorem loads_write (h : s.Consistent) (ha : s.session = some a) {s' : Slice δ}
    (hb : s'.session = some b) (hi : b.incarnation = a.incarnation)
    (hattempt : s'.attempt = Function.update s.attempt a.incarnation b.loadAttempt)
    (incarnation : Nat) : s'.attempt incarnation =
      s'.session.bind fun b => if b.incarnation = incarnation then b.loadAttempt else none := by
  have hloads := h.loads
  simp only [ha, Option.bind_some] at hloads
  rw [hattempt, hb]
  exact loads_update hloads hi rfl incarnation

/-- A step that keeps the attempt. -/
theorem loads_keep (h : s.Consistent) (ha : s.session = some a) {s' : Slice δ}
    (hb : s'.session = some b) (hi : b.incarnation = a.incarnation)
    (hload : b.loadAttempt = a.loadAttempt) (hattempt : s'.attempt = s.attempt)
    (incarnation : Nat) : s'.attempt incarnation =
      s'.session.bind fun b => if b.incarnation = incarnation then b.loadAttempt else none := by
  refine h.loads_write ha hb hi ?_ incarnation
  have hown := h.loads a.incarnation
  rw [ha, Option.bind_some, if_pos rfl] at hown
  rw [hattempt, hload, ← hown, Function.update_eq_self]

end Slice.Consistent

end Slices

section Runs

/-- Every transition keeps the session of a slice in agreement with itself. -/
theorem Transition.sessionOk {sha256 : String → δ} {sessionId : String} {kind : Action}
    {s s' : Slice δ} (ht : Transition sha256 sessionId kind s s')
    (h : ∀ a, s.session = some a → SessionOk a (s.baseline a.incarnation)) :
    ∀ b, s'.session = some b → SessionOk b (s'.baseline b.incarnation) := by
  intro b hb
  cases ht with
  | elapsed => exact h b hb
  | @touched _ a c ha hc =>
      cases hb
      rw [hc.incarnation]
      exact (h a ha).touched hc
  | created hs incarnation =>
      cases hb
      exact .cold sessionId incarnation _
  | @registered s c incarnation hs hc =>
      cases hb
      have hi : b.incarnation = incarnation := by
        rcases hc with hc | hc <;> exact hc.incarnation
      rw [hi]
      change SessionOk b (Function.update s.baseline incarnation _ incarnation)
      rw [Function.update_self]
      rcases hc with hc | hc
      · exact (SessionOk.cold sessionId incarnation _).touched hc
      · exact (SessionOk.ready sessionId incarnation ⟨_, [], 2⟩).touched hc
  | @cleared s a c ha hc =>
      cases hb
      exact (SessionOk.cold sessionId a.incarnation _).touched hc
  | retired => cases hb
  | @begun s a attemptId ha hm hfree =>
      cases hb
      exact (h a ha).loadBegun hm
  | @failed s a c attemptId message retryable ha hload hc =>
      cases hb
      subst hc
      exact (h a ha).loadFailed hload
  | @cooled s a ha hturn hload =>
      cases hb
      exact (h a ha).cooled hturn hload
  | @loaded s a attemptId updates bytes ha hload hphase hdigest =>
      cases hb
      change SessionOk _ (Function.update s.baseline a.incarnation _ a.incarnation)
      rw [Function.update_self]
      exact SessionOk.historyCommitted a ⟨_, updates, bytes⟩ updates.length _
  | @admitted s a revision intent prompt ha hc =>
      cases hb
      exact (h a ha).turnBegun _ hc
  | @gathered s a c update ha hphase hc =>
      cases hb
      have hok := (h a ha).gathered hc
      obtain ⟨turn, updates, -, -, rfl⟩ := SessionState.foldOverlayUpdate_eq_ok hc
      exact hok
  | @completed s a c operationId terminal ha hc =>
      cases hb
      have hok := (h a ha).completed hc
      obtain ⟨turn, -, -, -, -, rfl⟩ := SessionState.completeTurn_eq_ok hc
      exact hok
  | @appended s a prior update updates bytes ha hload hphase hprior hfold =>
      cases hb
      have hok := h a ha
      change SessionOk _ (Function.update s.baseline a.incarnation _ a.incarnation)
      rw [Function.update_self]
      exact ⟨hok.phase, hok.digest, hok.origin, fun _ => ⟨_, rfl, rfl⟩⟩
  | @remembered s a prior turn operationId updates bytes ha hturn hprior hfold =>
      cases hb
      change SessionOk _ (Function.update s.baseline a.incarnation _ a.incarnation)
      rw [Function.update_self]
      exact SessionOk.historyCommitted a ⟨_, updates, bytes⟩ updates.length _
  | @blocked s a c operationId message ha hc =>
      cases hb
      have hok := (h a ha).blocked hc
      obtain ⟨-, -, rfl⟩ := SessionState.blockTurn_eq_ok hc
      exact hok

/-- Every transition keeps a slice consistent, unless it closes a turn while a
load is under way. -/
theorem Slice.Consistent.transition {sha256 : String → δ} {sessionId : String} {kind : Action}
    {s s' : Slice δ} (h : s.Consistent) (ht : Transition sha256 sessionId kind s s')
    (hclose : kind = .blocked ∨ kind = .remembered →
      ∀ a, s.session = some a → a.loadAttempt = none) : s'.Consistent := by
  refine ⟨ht.sessionOk h.session, ?_⟩
  cases ht with
  | elapsed => exact h.loads
  | touched ha hb => exact h.loads_keep ha rfl hb.incarnation hb.loadAttempt rfl
  | created hs incarnation =>
      intro other
      have hfree := h.loads other
      rw [hs] at hfree
      change s.attempt other = if incarnation = other then none else none
      rw [hfree, ite_self]
      rfl
  | @registered s b incarnation hs hb =>
      have hfree : ∀ other, s.attempt other = none := by
        intro other
        rw [h.loads other]
        cases ha : s.session with
        | none => rfl
        | some a =>
            obtain ⟨-, hload⟩ := hs a ha
            simp [hload]
      have hload : b.loadAttempt = none := by
        rcases hb with hb | hb <;> exact hb.loadAttempt
      intro other
      change s.attempt other = if b.incarnation = other then b.loadAttempt else none
      rw [hfree, hload, ite_self]
  | @cleared s a b ha hb =>
      refine h.loads_write ha rfl hb.incarnation ?_
      rw [show b.loadAttempt = none from hb.loadAttempt]
  | @retired s a ha hload =>
      intro incarnation
      change s.attempt incarnation = none
      rw [h.loads, ha]
      simp [hload]
  | begun attemptId ha hm hfree => exact h.loads_write ha rfl rfl rfl
  | failed attemptId message retryable ha hload hb =>
      subst hb
      exact h.loads_write ha rfl rfl rfl
  | cooled ha hturn hload => exact h.loads_keep ha rfl rfl rfl rfl
  | loaded attemptId updates bytes ha hload hphase hdigest => exact h.loads_write ha rfl rfl rfl
  | admitted revision intent prompt ha hc => exact h.loads_keep ha rfl rfl rfl rfl
  | gathered update ha hphase hb =>
      obtain ⟨turn, updates, -, -, rfl⟩ := SessionState.foldOverlayUpdate_eq_ok hb
      exact h.loads_keep ha rfl rfl rfl rfl
  | completed operationId terminal ha hb =>
      obtain ⟨turn, -, -, -, -, rfl⟩ := SessionState.completeTurn_eq_ok hb
      exact h.loads_keep ha rfl rfl rfl rfl
  | appended update updates bytes ha hload hphase hprior hfold =>
      exact h.loads_keep ha rfl rfl rfl rfl
  | @remembered s a prior turn operationId updates bytes ha hturn hprior hfold =>
      exact h.loads_keep ha rfl rfl (hclose (.inr rfl) a ha).symm rfl
  | blocked operationId message ha hb =>
      have hload := hclose (.inl rfl) _ ha
      obtain ⟨-, -, rfl⟩ := SessionState.blockTurn_eq_ok hb
      exact h.loads_keep ha rfl rfl hload.symm rfl

/-- A turn that an operation closes without a replay. -/
structure ClosedTurn where
  sessionId : String
  incarnation : Nat
  operationId : String

def RegistryOp.closes : RegistryOp → Option ClosedTurn
  | .blockTurn sessionId incarnation operationId _
  | .commitCompletedTurnFromMemory sessionId incarnation operationId =>
      some ⟨sessionId, incarnation, operationId⟩
  | _ => none

/-- A turn is blocked or committed from memory only while its session has no load
under way. -/
def ClosesWithoutLoad (r : SessionRegistry σ δ) (op : RegistryOp) : Prop :=
  ∀ closed ∈ op.closes, ∀ a ∈ r.state closed.sessionId,
    a.incarnation = closed.incarnation → a.phase = .reconciling →
    (a.activeTurn.any fun turn => turn.operationId = closed.operationId) = true →
    a.loadAttempt = none

instance (r : SessionRegistry σ δ) (op : RegistryOp) : Decidable (ClosesWithoutLoad r op) :=
  inferInstanceAs (Decidable (∀ closed ∈ op.closes, ∀ a ∈ r.state closed.sessionId,
    a.incarnation = closed.incarnation → a.phase = .reconciling →
    (a.activeTurn.any fun turn => turn.operationId = closed.operationId) = true →
    a.loadAttempt = none))

/-- Every slice of a registry is consistent. -/
def Consistent (r : SessionRegistry σ δ) : Prop := ∀ sessionId, (r.slice sessionId).Consistent

variable {sha256 : String → δ} {r : SessionRegistry σ δ} {sessionId : String}

/-- Transitions of all kinds but two need no more than consistency. -/
theorem Slice.Consistent.moves {kinds : List Action} {s s' : Slice δ} (h : s.Consistent)
    (hm : Moves sha256 sessionId kinds s s')
    (hkinds : ∀ kind ∈ kinds, kind ≠ .blocked ∧ kind ≠ .remembered) : s'.Consistent := by
  refine hm.preserves ?_ h
  intro kind hk t t' ht hc
  obtain ⟨hb, hr⟩ := hkinds kind hk
  exact hc.transition ht (by simp [hb, hr])

omit [Inhabited σ] in
theorem Slice.Consistent.blockTurn (h : (r.slice sessionId).Consistent) (sha256 : String → δ)
    (incarnation : Nat) (operationId message : String)
    (hclose : ClosesWithoutLoad r (.blockTurn sessionId incarnation operationId message)) :
    ((r.blockTurn sessionId incarnation operationId message).2.slice sessionId).Consistent := by
  unfold SessionRegistry.blockTurn
  rcases stateStep_cases r sessionId incarnation (·.blockTurn operationId message) with
    ⟨error, hr⟩ | ⟨a, b, ha, hi, hb, hr⟩
  · rw [hr]
    exact h
  · rw [hr, (written_putState ha b).slice]
    have ht : Transition sha256 sessionId .blocked (r.slice sessionId) _ := .blocked operationId message ha hb
    refine h.transition ht ?_
    rintro - c hc
    cases ha.symm.trans hc
    have hphase := (h.session a ha).phase
    obtain ⟨hp | hp, ⟨turn, hturn, hid⟩, -⟩ := SessionState.blockTurn_eq_ok hb
    · unfold PhaseOk at hphase
      simp only [hp] at hphase
      exact hphase.2
    · exact hclose _ rfl a ha hi hp (by simpa [hturn] using hid)

omit [Inhabited σ] in
theorem Slice.Consistent.commitCompletedTurnFromMemory (h : (r.slice sessionId).Consistent)
    (sha256 : String → δ) (incarnation : Nat) (operationId : String)
    (hclose : ClosesWithoutLoad r (.commitCompletedTurnFromMemory sessionId incarnation operationId)) :
    ((r.commitCompletedTurnFromMemory sessionId incarnation operationId).2.slice sessionId).Consistent := by
  rcases commitCompletedTurnFromMemory_cases r sessionId incarnation operationId with
    ⟨error, hr⟩ | ⟨a, turn, prior, updates, ha, rfl, ht, hprior, hf, hr⟩
  · rw [hr]
    exact h
  · rw [hr, (written_turnRemembered ha updates).slice, Slice.of_publish]
    have hstep : Transition sha256 sessionId .remembered (r.slice sessionId) _ :=
      .remembered operationId updates (Value.array updates).bytes ha ht hprior hf
    refine h.transition hstep ?_
    rintro - c hc
    cases ha.symm.trans hc
    obtain ⟨hp, hturn, hid, -⟩ := completedTurn_eq_ok ht
    exact hclose _ rfl a ha rfl hp (by simpa [hturn] using hid)

/-- An operation that closes no turn under a load keeps all slices consistent. -/
theorem Consistent.step (h : Consistent r) (validate : ValidateHistoryUpdate σ)
    (op : RegistryOp) (hclose : ClosesWithoutLoad r op) :
    Consistent (op.step sha256 validate r) := by
  intro sessionId
  rcases RegistryOp.step_moves sha256 validate r op sessionId with ⟨ho, hm⟩ | ⟨-, hm⟩
  · cases op with
    | blockTurn _ incarnation operationId message =>
        cases ho
        exact (h sessionId).blockTurn sha256 incarnation operationId message hclose
    | commitCompletedTurnFromMemory _ incarnation operationId =>
        cases ho
        exact (h sessionId).commitCompletedTurnFromMemory sha256 incarnation operationId hclose
    | _ => exact (h sessionId).moves hm (by simp [RegistryOp.kinds])
  · exact (h sessionId).moves hm (by simp)

omit [Inhabited σ] [DecidableEq δ] in
theorem consistent_new (epoch : String) : Consistent (.new epoch : SessionRegistry σ δ) :=
  fun _ => ⟨by simp [SessionRegistry.slice, Slice.of, SessionRegistry.state, SessionRegistry.new],
    fun _ => rfl⟩

theorem consistent_run (validate : ValidateHistoryUpdate σ) (epoch : String)
    (ops : List RegistryOp)
    (h : Along (RegistryOp.step sha256 validate) ClosesWithoutLoad (.new epoch) ops) :
    Consistent (run (RegistryOp.step sha256 validate) (.new epoch) ops) :=
  run_invariant_along (fun _ op hc hgood => hc.step validate op hgood) (consistent_new epoch) h

/-- In every run that closes no turn under a load, each session agrees with itself
and with the cache. -/
theorem session_states_agree (sha256 : String → δ) (validate : ValidateHistoryUpdate σ)
    (epoch : String) (ops : List RegistryOp)
    (h : Along (RegistryOp.step sha256 validate) ClosesWithoutLoad (.new epoch) ops) :
    let r := run (RegistryOp.step sha256 validate) (.new epoch) ops
    ∀ sessionId s, r.state sessionId = some s →
      (s.phase = .running → ∃ turn, s.activeTurn = some turn ∧ turn.terminal = none) ∧
      (∀ turn, s.activeTurn = some turn → turn.terminal = none →
        s.phase = .running ∨ s.phase = .blocked) ∧
      (s.phase = .reconciling → ∃ turn, s.activeTurn = some turn ∧ turn.terminal.isSome) ∧
      (s.phase = .ready ∨ s.phase = .cold ∨ s.phase = .loading → s.activeTurn = none) ∧
      (∀ attemptId, s.loadAttempt = some attemptId ↔
        ∃ replay, r.history.candidates.lookup ⟨sessionId, s.incarnation⟩ =
          some ⟨attemptId, replay⟩) ∧
      (s.activePayloadDigest.isSome ↔ s.activeTurn.isSome) ∧
      (s.phase = .ready ∨ s.phase = .running →
        ∃ snapshot, r.history.peek ⟨sessionId, s.incarnation⟩ = some snapshot ∧
          s.historyRevision = some snapshot.revision) := by
  intro r sessionId s hs
  have hslice := consistent_run validate epoch ops h sessionId
  have hok := hslice.session s hs
  have hphase := hok.phase
  have hattempt : (r.history.candidates.lookup ⟨sessionId, s.incarnation⟩).map (·.attemptId) =
      s.loadAttempt := by
    have hown := hslice.loads s.incarnation
    rw [show (r.slice sessionId).session = some s from hs, Option.bind_some, if_pos rfl] at hown
    exact hown
  unfold PhaseOk at hphase
  refine ⟨?_, ?_, ?_, ?_, ?_, ?_, ?_⟩
  · intro hp
    simp only [hp] at hphase
    exact hphase.1
  · intro turn hturn hterminal
    cases hp : s.phase <;> simp [hp, hturn, hterminal] at hphase ⊢
  · intro hp
    simp only [hp] at hphase
    exact hphase.1
  · rintro (hp | hp | hp) <;>
    · simp only [hp] at hphase
      exact hphase.1
  · intro attemptId
    rw [← hattempt, Option.map_eq_some_iff]
    constructor
    · rintro ⟨⟨current, replay⟩, hc, rfl⟩
      exact ⟨replay, hc⟩
    · rintro ⟨replay, hc⟩
      exact ⟨_, hc, rfl⟩
  · rw [hok.digest]
  · rintro (hp | hp)
    · exact hok.revision (.inl hp)
    · exact hok.revision (.inr (.inl hp))

/-- A turn that ends blocked, with a load before and after it. -/
theorem session_states_agree_blocked_turn :
    let ops : List RegistryOp :=
      [.registerNew "s" 1, .beginLoad "s" 1 "load", .commitLoad "s" 1 "load",
        .startTurn "s" 1 "epoch:1:2" "intent" ⟨[], "[]"⟩, .blockTurn "s" 1 "epoch:1" "lost"]
    let r := run (RegistryOp.step id fun validation _ => (.ok (), validation))
      (.new "epoch" : SessionRegistry Unit String) ops
    (∃ s, r.state "s" = some s ∧ s.phase = .blocked ∧ s.activeTurn.isSome) ∧
      ∀ sessionId s, r.state sessionId = some s →
        (s.activePayloadDigest.isSome ↔ s.activeTurn.isSome) := by
  intro ops r
  have hgood : Along (RegistryOp.step id fun validation _ => (.ok (), validation))
      ClosesWithoutLoad (.new "epoch" : SessionRegistry Unit String) ops := by decide
  refine ⟨?_, ?_⟩
  · have hstate : ((r.state "s").any fun s =>
        s.phase = .blocked && s.activeTurn.isSome) = true := by decide
    obtain ⟨s, hs, hp⟩ := (Option.any_eq_true _ _).mp hstate
    exact ⟨s, hs, by simpa using hp⟩
  · intro sessionId s hs
    obtain ⟨-, -, -, -, -, hdigest, -⟩ := session_states_agree id
      (fun validation _ => (.ok (), validation)) "epoch" ops hgood sessionId s hs
    exact hdigest

/-- A completed turn that is blocked while its replay loads leaves the candidate of
the replay behind, and every later load of the session is refused. -/
theorem blockTurn_leaves_candidate :
    let r := run (RegistryOp.step id fun validation _ => (.ok (), validation))
      (.new "epoch" : SessionRegistry Unit String)
      [.registerNew "s" 1, .startTurn "s" 1 "epoch:1:1" "intent" ⟨[], "[]"⟩,
        .completeTurn "s" 1 "epoch:1" .null, .beginLoad "s" 1 "load",
        .blockTurn "s" 1 "epoch:1" "lost"]
    (r.state "s").map (·.loadAttempt) = some none ∧
      (r.history.candidates.lookup ⟨"s", 1⟩).map (·.attemptId) = some "load" ∧
      (r.beginLoad "s" 1 "again").1 = .error (.history .candidateExists) := by
  decide

end Runs

end Attyd.Session
