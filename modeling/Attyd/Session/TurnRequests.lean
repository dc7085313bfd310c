import Attyd.Session.Admission

/-!
# The answers to turn requests

The log of a run holds every turn request to one incarnation with its answer.
While the incarnation is neither replaced nor removed, any later request of an
accepted intent is a duplicate of it or an error, and no two accepted requests
share an intent, a revision or an operation.
-/

namespace Attyd.Session

open Json (Value)
open History

variable {σ δ : Type} [Inhabited σ] [DecidableEq δ]

/-- A turn request with its answer. -/
abbrev AnsweredRequest := TurnRequest × Except MirrorError TurnAdmission

namespace RegistryOp

/-- Whether an operation registers over an incarnation, clears it or removes it. -/
def replaces (sessionId : String) (incarnation : Nat) : RegistryOp → Bool
  | registerCold id _ | registerNew id _ => id = sessionId
  | clearHistoryForReplacement id i | remove id i => id = sessionId && i = incarnation
  | installLive id i _ => id = sessionId && i ≠ incarnation
  | _ => false

/-- The turn request an operation makes to an incarnation, with its answer. -/
def answers (sha256 : String → δ) (sessionId : String) (incarnation : Nat)
    (r : SessionRegistry σ δ) : RegistryOp → List AnsweredRequest
  | startTurn id i expectedHistoryRevision clientIntentId prompt =>
      if id = sessionId ∧ i = incarnation then
        [(⟨expectedHistoryRevision, clientIntentId, prompt⟩,
          (r.startTurn sha256 id i expectedHistoryRevision clientIntentId prompt).1)]
      else []
  | _ => []

end RegistryOp

/-- The turn requests to an incarnation and their answers, along a run. -/
def turnLog (sha256 : String → δ) (validate : ValidateHistoryUpdate σ) (sessionId : String)
    (incarnation : Nat) : SessionRegistry σ δ → List RegistryOp → List AnsweredRequest
  | _, [] => []
  | r, op :: ops =>
      op.answers sha256 sessionId incarnation r ++
        turnLog sha256 validate sessionId incarnation (op.step sha256 validate r) ops

/-- The accepted requests with their operations. -/
def acceptedOf (log : List AnsweredRequest) : List (TurnRequest × String) :=
  log.filterMap fun entry =>
    match entry.2 with
    | .ok (.accepted operationId) => some (entry.1, operationId)
    | _ => none

theorem mem_acceptedOf {log : List AnsweredRequest} {request : TurnRequest}
    {operationId : String} :
    (request, operationId) ∈ acceptedOf log ↔ (request, .ok (.accepted operationId)) ∈ log := by
  simp only [acceptedOf, List.mem_filterMap]
  constructor
  · rintro ⟨⟨request', answer⟩, hmem, hanswer⟩
    split at hanswer
    case h_1 id hid =>
      cases hanswer
      dsimp only at hid
      rwa [hid] at hmem
    case h_2 => cases hanswer
  · intro hmem
    exact ⟨_, hmem, rfl⟩

/-- The second of two requests is no new turn for the intent, the revision or the
operation of the first, when the first was accepted. -/
def AnsweredOnce (sha256 : String → δ) (x y : AnsweredRequest) : Prop :=
  ∀ operationId, x.2 = .ok (.accepted operationId) →
    (∀ other, y.2 = .ok (.accepted other) → y.1.clientIntentId ≠ x.1.clientIntentId ∧
      y.1.expectedHistoryRevision ≠ x.1.expectedHistoryRevision ∧ other ≠ operationId) ∧
    (y.1.clientIntentId = x.1.clientIntentId →
      (∃ error, y.2 = .error error) ∨
        sha256 x.1.prompt.text = sha256 y.1.prompt.text ∧ y.2 = .ok (.duplicate operationId))

section Step

variable {sha256 : String → δ} {log : List AnsweredRequest} {r : SessionRegistry σ δ}
  {sessionId : String} {incarnation : Nat}

omit [Inhabited σ] in
/-- A new turn is accepted on a revision and for an intent no turn was accepted on,
and gets an operation of its own. -/
theorem Keeps.accepts {accepted : List (TurnRequest × String)} {s : Slice δ} {a : SessionState δ}
    (h : Keeps sha256 accepted s a) (request : TurnRequest)
    (hc : a.checkTurnAdmission sha256 request.expectedHistoryRevision request.clientIntentId
      request.prompt = .ok none) (hops : s.operations + 1 < 2 ^ 64) :
    (∀ old operationId, (old, operationId) ∈ accepted →
      request.clientIntentId ≠ old.clientIntentId ∧
      request.expectedHistoryRevision ≠ old.expectedHistoryRevision ∧
      s.nextOperationId ≠ operationId) ∧
    Keeps sha256 (accepted ++ [(request, s.nextOperationId)])
      { s with operations := nextCounter s.operations }
      (a.turnBegun sha256 s.nextOperationId request.clientIntentId request.prompt) := by
  obtain ⟨-, hturn, -, hfree, hrevision⟩ := SessionState.checkTurnAdmission_eq_none hc
  have hnext := nextCounter_of_lt hops
  refine ⟨?_, ?_, ?_, ?_, ?_, ?_, ?_⟩
  · intro old operationId hmem
    refine ⟨?_, ?_, ?_⟩
    · intro heq
      rw [heq] at hc
      rcases (h.remembers old operationId hmem).answer h.fresh request.expectedHistoryRevision
        request.prompt with ⟨error, he⟩ | ⟨-, he⟩
      · rw [hc] at he
        cases he
      · rw [hc] at he
        cases he
    · intro heq
      exact (h.consumed old operationId hmem).2 hturn (by rw [hrevision, heq])
    · intro heq
      obtain ⟨n, hn, hid⟩ := h.numbered old operationId hmem
      rw [hid] at heq
      unfold Slice.nextOperationId at heq
      have := toString_injective (String.append_right_inj _ |>.mp heq)
      omega
  · intro old operationId hmem
    rcases List.mem_append.mp hmem with hmem | hmem
    · refine .inr ?_
      rcases h.remembers old operationId hmem with ⟨turn, ht, -⟩ | hlast
      · rw [hturn] at ht
        cases ht
      · exact hlast
    · cases List.mem_singleton.mp hmem
      exact .inl ⟨_, rfl, rfl, rfl, rfl⟩
  · intro old operationId hmem
    rcases List.mem_append.mp hmem with hmem | hmem
    · obtain ⟨n, hn, hid⟩ := h.numbered old operationId hmem
      exact ⟨n, by dsimp only; omega, hid⟩
    · cases List.mem_singleton.mp hmem
      exact ⟨_, le_rfl, rfl⟩
  · intro old operationId hmem
    refine ⟨?_, fun hnone => by cases hnone⟩
    rcases List.mem_append.mp hmem with hmem | hmem
    · exact (h.consumed old operationId hmem).1
    · cases List.mem_singleton.mp hmem
      exact h.known _ hrevision
  · exact h.known
  · intro turn ht
    cases ht
    exact hfree
  · intro _
    exact Option.isSome_iff_exists.mpr ⟨_, hrevision⟩

omit [Inhabited σ] in
/-- A turn request to the incarnation: its answer, and what the session keeps of it. -/
theorem Serves.startTurn
    (h : Serves sha256 (acceptedOf log) incarnation (r.slice sessionId))
    (request : TurnRequest) (hops : r.nextOperation + 1 < 2 ^ 64) :
    let result := r.startTurn sha256 sessionId incarnation request.expectedHistoryRevision
      request.clientIntentId request.prompt
    (∀ x ∈ log, AnsweredOnce sha256 x (request, result.1)) ∧
      Serves sha256 (acceptedOf (log ++ [(request, result.1)])) incarnation
        (result.2.slice sessionId) ∧
      (result.2.slice sessionId).operations ≤ r.nextOperation + 1 ∧
      (result.2.slice sessionId).generations = (r.slice sessionId).generations := by
  obtain ⟨a, ha, hi, hkeeps⟩ := h
  have hnext := nextCounter_of_lt hops
  have hquiet : ∀ answer, (∀ id, answer ≠ .ok (.accepted id)) →
      acceptedOf (log ++ [(request, answer)]) = acceptedOf log := by
    intro answer hanswer
    unfold acceptedOf
    rw [List.filterMap_append]
    cases answer with
    | error error => simp
    | ok admission =>
        cases admission with
        | accepted id => exact absurd rfl (hanswer id)
        | duplicate id => simp
  rcases startTurn_cases sha256 r sessionId incarnation request.expectedHistoryRevision
    request.clientIntentId request.prompt with
    ⟨error, hr⟩ | ⟨b, hb, -, ⟨id, hc, hr⟩ | ⟨hc, hr⟩⟩
  · rw [hr]
    refine ⟨?_, ?_, Nat.le_succ _, rfl⟩
    · intro x _ operationId _
      exact ⟨by simp, fun _ => .inl ⟨error, rfl⟩⟩
    · rw [hquiet _ (by simp)]
      exact ⟨a, ha, hi, hkeeps⟩
  · cases (show r.state sessionId = some a from ha).symm.trans hb
    rw [hr]
    have hslice : (r.putOverlay sessionId a a).slice sessionId = r.slice sessionId := by
      rw [(written_putOverlay hb a).slice, ← hb]
      rfl
    dsimp only
    rw [hslice]
    refine ⟨?_, ?_, Nat.le_succ _, rfl⟩
    · intro x hx operationId hanswer
      refine ⟨by simp, ?_⟩
      intro hintent
      have hmem : (x.1, operationId) ∈ acceptedOf log :=
        mem_acceptedOf.mpr (by rw [← hanswer]; exact hx)
      rw [hintent] at hc
      rcases (hkeeps.remembers _ _ hmem).answer hkeeps.fresh request.expectedHistoryRevision
        request.prompt with ⟨error, he⟩ | ⟨hdigest, he⟩
      · rw [hc] at he
        cases he
      · rw [hc] at he
        cases he
        exact .inr ⟨hdigest, rfl⟩
    · rw [hquiet _ (by simp)]
      exact ⟨a, ha, hi, hkeeps⟩
  · cases (show r.state sessionId = some a from ha).symm.trans hb
    rw [hr]
    obtain ⟨hnew, hkept⟩ := hkeeps.accepts request hc hops
    have hw := (written_putOverlay hb (a.turnBegun sha256 (r.slice sessionId).nextOperationId
      request.clientIntentId request.prompt)).counted (nextCounter r.nextOperation)
    dsimp only
    rw [hw.slice]
    refine ⟨?_, ?_, hnext.le, rfl⟩
    · intro x hx operationId hanswer
      have hmem : (x.1, operationId) ∈ acceptedOf log :=
        mem_acceptedOf.mpr (by rw [← hanswer]; exact hx)
      obtain ⟨hintent, hrevision, hid⟩ := hnew _ _ hmem
      refine ⟨?_, fun heq => absurd heq hintent⟩
      intro other hother
      cases hother
      exact ⟨hintent, hrevision, hid⟩
    · have hlog : acceptedOf (log ++ [(request, .ok (.accepted (r.slice sessionId).nextOperationId))])
          = acceptedOf log ++ [(request, (r.slice sessionId).nextOperationId)] := by
        simp [acceptedOf]
      rw [hlog]
      refine ⟨_, rfl, hi, ⟨hkept.remembers, hkept.numbered, hkept.consumed, hkept.known,
        hkept.fresh, hkept.based⟩⟩

/-- Any other operation takes the incarnation through transitions of its own that start no turn, or
lets time elapse. -/
theorem step_stays (validate : ValidateHistoryUpdate σ) {op : RegistryOp} {a : SessionState δ}
    (h : r.state sessionId = some a) (hi : a.incarnation = incarnation)
    (hreplaces : op.replaces sessionId incarnation = false)
    (hanswers : op.answers sha256 sessionId incarnation r = []) :
    ∃ kinds, Moves sha256 sessionId kinds (r.slice sessionId)
        ((op.step sha256 validate r).slice sessionId) ∧
      (∀ kind ∈ kinds, kind.stays = true) ∧ kinds.countP Action.counts ≤ 1 ∧
      ∀ kind ∈ kinds, kind = .elapsed ∨ kind ∈ op.kinds := by
  subst hi
  have hsame : op.step sha256 validate r = r →
      ∃ kinds, Moves sha256 sessionId kinds (r.slice sessionId)
          ((op.step sha256 validate r).slice sessionId) ∧
        (∀ kind ∈ kinds, kind.stays = true) ∧ kinds.countP Action.counts ≤ 1 ∧
        ∀ kind ∈ kinds, kind = .elapsed ∨ kind ∈ op.kinds := by
    intro heq
    rw [heq]
    exact ⟨[], .done, by simp, by simp, by simp⟩
  rcases RegistryOp.step_moves sha256 validate r op sessionId with ⟨ho, hm⟩ | ⟨-, hm⟩
  · cases op with
    | registerCold => cases ho; simp [RegistryOp.replaces] at hreplaces
    | registerNew => cases ho; simp [RegistryOp.replaces] at hreplaces
    | clearHistoryForReplacement _ incarnation =>
        cases ho
        refine hsame (clearHistoryForReplacement_of_ne h ?_)
        simpa [RegistryOp.replaces, eq_comm] using hreplaces
    | remove _ incarnation =>
        cases ho
        refine hsame (remove_of_ne h ?_)
        simpa [RegistryOp.replaces, eq_comm] using hreplaces
    | installLive _ incarnation live =>
        cases ho
        have hown : incarnation = a.incarnation := by
          simpa [RegistryOp.replaces] using hreplaces
        subst hown
        exact ⟨_, (installLive_own sha256 h live).self, by simp [Action.stays, Action.quiet],
          by simp [Action.counts], by simp [RegistryOp.kinds]⟩
    | startTurn _ incarnation revision intent prompt =>
        cases ho
        have hother : a.incarnation ≠ incarnation := by
          rintro rfl
          simp [RegistryOp.answers] at hanswers
        rcases startTurn_cases sha256 r sessionId incarnation revision intent prompt with
          ⟨error, hr⟩ | ⟨b, hb, hb', -⟩
        · refine hsame ?_
          simp only [RegistryOp.step, hr]
        · cases h.symm.trans hb
          exact absurd hb' hother
    | _ =>
        exact ⟨_, hm, by simp [RegistryOp.kinds, Action.stays, Action.quiet],
          RegistryOp.countP_kinds _, fun _ hmem => .inr hmem⟩
  · exact ⟨_, hm, by simp [Action.stays], by simp [Action.counts], by simp⟩

/-- One operation: its turn request is answered once, and the accepted requests are kept. -/
theorem Serves.step (validate : ValidateHistoryUpdate σ) {op : RegistryOp}
    (h : Serves sha256 (acceptedOf log) incarnation (r.slice sessionId))
    (hreplaces : op.replaces sessionId incarnation = false)
    (hops : r.nextOperation + 2 < 2 ^ 64) (hgens : r.history.nextGeneration + 2 < 2 ^ 64) :
    let r' := op.step sha256 validate r
    (∀ x ∈ log, ∀ y ∈ op.answers sha256 sessionId incarnation r, AnsweredOnce sha256 x y) ∧
      (op.answers sha256 sessionId incarnation r).length ≤ 1 ∧
      Serves sha256 (acceptedOf (log ++ op.answers sha256 sessionId incarnation r)) incarnation
        (r'.slice sessionId) ∧
      r'.nextOperation ≤ r.nextOperation + 1 ∧
      r'.history.nextGeneration ≤ r.history.nextGeneration + 1 := by
  cases hanswers : op.answers sha256 sessionId incarnation r with
  | nil =>
      have hserves := h
      obtain ⟨a, ha, hi, -⟩ := hserves
      obtain ⟨kinds, hm, hstays, hcount, -⟩ := step_stays validate ha hi hreplaces hanswers
      have hopsBound : (r.slice sessionId).operations + kinds.countP Action.counts + 1 < 2 ^ 64 := by
        change r.nextOperation + _ + 1 < _
        omega
      have hgensBound :
          (r.slice sessionId).generations + kinds.countP Action.counts + 1 < 2 ^ 64 := by
        change r.history.nextGeneration + _ + 1 < _
        omega
      obtain ⟨hserves, hops', hgens'⟩ := h.moves hm hstays hopsBound hgensBound
      refine ⟨by simp, by simp, by rwa [List.append_nil], ?_, ?_⟩
      · exact hops'.trans (Nat.add_le_add_left hcount _)
      · exact hgens'.trans (Nat.add_le_add_left hcount _)
  | cons answered rest =>
      cases op with
      | startTurn id i revision intent prompt =>
          simp only [RegistryOp.answers] at hanswers
          split at hanswers
          case isFalse => cases hanswers
          case isTrue hown =>
            obtain ⟨rfl, rfl⟩ := hown
            cases hanswers
            obtain ⟨honce, hserves, hops', hgens'⟩ :=
              h.startTurn ⟨revision, intent, prompt⟩ (by omega)
            refine ⟨?_, by simp, hserves, hops', hgens'.le.trans (Nat.le_succ _)⟩
            intro x hx y hy
            cases List.mem_singleton.mp hy
            exact honce x hx
      | _ => cases hanswers

end Step

section Runs

variable {sha256 : String → δ} {sessionId : String} {incarnation : Nat}

/-- Along a run every two requests are answered once. -/
theorem turnLog_answeredOnce (validate : ValidateHistoryUpdate σ) (ops : List RegistryOp)
    (r : SessionRegistry σ δ) (log : List AnsweredRequest)
    (h : Serves sha256 (acceptedOf log) incarnation (r.slice sessionId))
    (hlog : log.Pairwise (AnsweredOnce sha256))
    (hreplaces : ∀ op ∈ ops, op.replaces sessionId incarnation = false)
    (hops : r.nextOperation + ops.length + 1 < 2 ^ 64)
    (hgens : r.history.nextGeneration + ops.length + 1 < 2 ^ 64) :
    (log ++ turnLog sha256 validate sessionId incarnation r ops).Pairwise
      (AnsweredOnce sha256) := by
  induction ops generalizing r log with
  | nil => rwa [turnLog, List.append_nil]
  | cons op ops ih =>
      rw [List.length_cons] at hops hgens
      obtain ⟨honce, hlength, hserves, hops', hgens'⟩ :=
        h.step validate (hreplaces op List.mem_cons_self) (by omega) (by omega)
      rw [turnLog, ← List.append_assoc]
      refine ih _ _ hserves ?_ (fun op hop => hreplaces op (List.mem_cons_of_mem _ hop))
        (by omega) (by omega)
      refine List.pairwise_append.mpr ⟨hlog, ?_, honce⟩
      -- One operation makes at most one request.
      match hanswers : op.answers sha256 sessionId incarnation r, hlength with
      | [], _ => exact List.Pairwise.nil
      | [answered], _ => exact List.pairwise_singleton _ _

omit [DecidableEq δ] in
/-- A registered incarnation has accepted nothing. -/
theorem serves_registered (r : SessionRegistry σ δ) (ready : Bool) :
    Serves sha256 [] incarnation
      ((r.registerHistory sessionId incarnation ready).slice sessionId) := by
  obtain ⟨b, hb, htouched⟩ := registerHistory_state r sessionId incarnation ready
  have hempty : b.incarnation = incarnation ∧ b.activeTurn = none := by
    rcases htouched with ht | ht <;> obtain ⟨execution, hturn⟩ := ht.turn
    · exact ⟨ht.incarnation, hturn⟩
    · exact ⟨ht.incarnation, hturn⟩
  refine ⟨b, hb, hempty.1, by simp, by simp, by simp, ?_, by simp [hempty.2], by simp [hempty.2]⟩
  intro revision hrevision
  rcases htouched with ht | ht
  · rw [ht.historyRevision] at hrevision
    cases hrevision
  · rw [ht.historyRevision] at hrevision
    cases hrevision
    exact ⟨_, le_rfl, by rw [hempty.1]; rfl⟩

/-- From its registration until it is replaced or removed, an incarnation accepts
each intent once, on a revision no other turn was accepted on, with an operation
of its own. A later request of an accepted intent is answered with that operation
or with an error, and with an error if its prompt is another. -/
theorem turn_requests_answered_once (sha256 : String → δ) (validate : ValidateHistoryUpdate σ)
    (registry : SessionRegistry σ δ) (sessionId : String) (incarnation : Nat) (ready : Bool)
    (ops : List RegistryOp) :
    let r := registry.registerHistory sessionId incarnation ready
    let log := turnLog sha256 validate sessionId incarnation r ops
    (∀ op ∈ ops, op.replaces sessionId incarnation = false) →
    r.nextOperation + ops.length + 1 < 2 ^ 64 →
    r.history.nextGeneration + ops.length + 1 < 2 ^ 64 →
    (∀ x ∈ log, ∀ y ∈ log, sha256 x.1.prompt.text = sha256 y.1.prompt.text →
      x.1.prompt = y.1.prompt) →
    log.Pairwise fun x y => ∀ operationId, x.2 = .ok (.accepted operationId) →
      (∀ other, y.2 = .ok (.accepted other) → y.1.clientIntentId ≠ x.1.clientIntentId ∧
        y.1.expectedHistoryRevision ≠ x.1.expectedHistoryRevision ∧ other ≠ operationId) ∧
      (y.1.clientIntentId = x.1.clientIntentId →
        y.2 = .ok (.duplicate operationId) ∨ ∃ error, y.2 = .error error) ∧
      (y.1.clientIntentId = x.1.clientIntentId → y.1.prompt ≠ x.1.prompt →
        ∃ error, y.2 = .error error) := by
  intro r log hreplaces hops hgens hdigest
  have honce : log.Pairwise (AnsweredOnce sha256) :=
    turnLog_answeredOnce validate ops r [] (serves_registered registry ready) .nil hreplaces
      hops hgens
  refine List.Pairwise.imp_of_mem ?_ honce
  intro x y hx hy h operationId haccepted
  obtain ⟨hnew, hagain⟩ := h operationId haccepted
  refine ⟨hnew, ?_, ?_⟩
  · intro hintent
    rcases hagain hintent with herror | ⟨-, hduplicate⟩
    · exact .inr herror
    · exact .inl hduplicate
  · intro hintent hprompt
    rcases hagain hintent with herror | ⟨hsame, -⟩
    · exact herror
    · exact absurd (hdigest x hx y hy hsame).symm hprompt

/-- Two turns, the first asked for again while it runs, with another prompt, and
after it has passed into history. -/
theorem turn_requests_answered_once_two_turns :
    let first : Prompt := ⟨[.ofFields [("type", .string "image")]], "first prompt"⟩
    let second : Prompt := ⟨[.ofFields [("type", .string "audio")]], "second prompt"⟩
    let ops : List RegistryOp :=
      [.startTurn "s" 1 "epoch:1:1" "first" first, .startTurn "s" 1 "epoch:1:1" "first" first,
        .startTurn "s" 1 "epoch:1:1" "first" second, .completeTurn "s" 1 "epoch:1" .null,
        .commitCompletedTurnFromMemory "s" 1 "epoch:1",
        .startTurn "s" 1 "epoch:1:2" "first" first, .startTurn "s" 1 "epoch:1:2" "second" second]
    let log := turnLog id (fun validation _ => (.ok (), validation)) "s" 1
      ((.new "epoch" : SessionRegistry Unit String).registerHistory "s" 1 true) ops
    log.map (·.2) =
        [.ok (.accepted "epoch:1"), .ok (.duplicate "epoch:1"), .error .idempotencyConflict,
          .ok (.duplicate "epoch:1"), .ok (.accepted "epoch:2")] ∧
      log.Pairwise fun x y => ∀ operationId, x.2 = .ok (.accepted operationId) →
        (∀ other, y.2 = .ok (.accepted other) → y.1.clientIntentId ≠ x.1.clientIntentId ∧
          y.1.expectedHistoryRevision ≠ x.1.expectedHistoryRevision ∧ other ≠ operationId) ∧
        (y.1.clientIntentId = x.1.clientIntentId →
          y.2 = .ok (.duplicate operationId) ∨ ∃ error, y.2 = .error error) ∧
        (y.1.clientIntentId = x.1.clientIntentId → y.1.prompt ≠ x.1.prompt →
          ∃ error, y.2 = .error error) := by
  intro first second ops log
  refine ⟨by decide, ?_⟩
  exact turn_requests_answered_once id _ (.new "epoch") "s" 1 true ops (by decide) (by decide)
    (by decide) (by decide)

end Runs

end Attyd.Session
