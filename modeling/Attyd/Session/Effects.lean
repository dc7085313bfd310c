import Attyd.History.Published
import Attyd.Session.Slice

/-!
# The effect of each operation

An operation on one session moves the slice of that session along transitions of
known kinds. The slice of every other session sees at most the counters advance,
and the cache stays folded.
-/

namespace Attyd.Session

open Json (Value)
open History

variable {σ δ : Type} [DecidableEq δ]

section Slices

omit [DecidableEq δ] in
/-- A slice from its parts. -/
def Slice.of (session : Option (SessionState δ)) (view : CacheView) (epoch : String)
    (operations : Nat) (sessionId : String) : Slice δ where
  session
  baseline := fun incarnation => view.peek ⟨sessionId, incarnation⟩
  attempt := fun incarnation => view.attempt ⟨sessionId, incarnation⟩
  epoch
  historyEpoch := view.epoch
  operations
  generations := view.generations

/-- The slice of a session. -/
def SessionRegistry.slice (r : SessionRegistry σ δ) (sessionId : String) : Slice δ :=
  .of (r.state sessionId) r.history.view r.epoch r.nextOperation sessionId

variable {session : Option (SessionState δ)} {view : CacheView} {epoch : String}
  {operations : Nat} {sessionId other : String} {incarnation : Nat}

/-- The keys of a session are its incarnations. -/
private theorem update_key {α : Type} (f : SessionKey → α) (a : α) :
    (fun i => Function.update f ⟨sessionId, incarnation⟩ a ⟨sessionId, i⟩) =
      Function.update (fun i => f ⟨sessionId, i⟩) incarnation a := by
  funext i
  simp only [Function.update_apply, SessionKey.mk.injEq, true_and]

private theorem update_other {α : Type} (f : SessionKey → α) (a : α) (h : other ≠ sessionId) :
    (fun i => Function.update f ⟨sessionId, incarnation⟩ a ⟨other, i⟩) = fun i => f ⟨other, i⟩ := by
  funext i
  refine Function.update_of_ne ?_ _ _
  intro he
  exact h (congrArg SessionKey.sessionId he)

omit [DecidableEq δ]

theorem Slice.of_publish (updates : List Value) (bytes : Nat) :
    Slice.of session (view.publish ⟨sessionId, incarnation⟩ updates bytes) epoch operations
        sessionId =
      (Slice.of session view epoch operations sessionId).publish incarnation updates bytes := by
  simp only [Slice.of, Slice.publish, CacheView.publish, update_key]
  rfl

theorem Slice.of_publish_of_ne (updates : List Value) (bytes : Nat) (h : other ≠ sessionId) :
    Slice.of session (view.publish ⟨sessionId, incarnation⟩ updates bytes) epoch operations other =
      { Slice.of session view epoch operations other with
        generations := nextCounter view.generations } := by
  simp only [Slice.of, CacheView.publish, update_other _ _ h]

theorem Slice.of_setAttempt (attempt : Option String) :
    Slice.of session (view.setAttempt ⟨sessionId, incarnation⟩ attempt) epoch operations
        sessionId =
      (Slice.of session view epoch operations sessionId).setAttempt incarnation attempt := by
  simp only [Slice.of, Slice.setAttempt, CacheView.setAttempt, update_key]

theorem Slice.of_setAttempt_of_ne (attempt : Option String) (h : other ≠ sessionId) :
    Slice.of session (view.setAttempt ⟨sessionId, incarnation⟩ attempt) epoch operations other =
      Slice.of session view epoch operations other := by
  simp only [Slice.of, CacheView.setAttempt, update_other _ _ h]

theorem Slice.of_forget :
    Slice.of session (view.forget ⟨sessionId, incarnation⟩) epoch operations sessionId =
      { Slice.of session view epoch operations sessionId with
        baseline := Function.update
          (Slice.of session view epoch operations sessionId).baseline incarnation none
        attempt := Function.update
          (Slice.of session view epoch operations sessionId).attempt incarnation none } := by
  simp only [Slice.of, CacheView.forget, update_key]

theorem Slice.of_forget_of_ne (h : other ≠ sessionId) :
    Slice.of session (view.forget ⟨sessionId, incarnation⟩) epoch operations other =
      Slice.of session view epoch operations other := by
  simp only [Slice.of, CacheView.forget, update_other _ _ h]

end Slices

section Written

/-- What an operation on one session writes: that session, the cache as it is
seen, and the operation counter. -/
structure Written (r r' : SessionRegistry σ δ) (sessionId : String)
    (session : Option (SessionState δ)) (view : CacheView) (operations : Nat) : Prop where
  state : r'.state sessionId = session
  states : ∀ other, other ≠ sessionId → r'.state other = r.state other
  view : r'.history.view = view
  epoch : r'.epoch = r.epoch
  operations : r'.nextOperation = operations

variable {r r' : SessionRegistry σ δ} {sessionId other : String}
  {session : Option (SessionState δ)} {view : CacheView} {operations : Nat}

omit [DecidableEq δ]

theorem Written.slice (h : Written r r' sessionId session view operations) :
    r'.slice sessionId = .of session view r.epoch operations sessionId := by
  rw [SessionRegistry.slice, h.state, h.view, h.epoch, h.operations]

theorem Written.slice_of_ne (h : Written r r' sessionId session view operations)
    (ho : other ≠ sessionId) :
    r'.slice other = .of (r.state other) view r.epoch operations other := by
  rw [SessionRegistry.slice, h.states other ho, h.view, h.epoch, h.operations]

/-- A session that is registered can be written. -/
theorem written_putState {a : SessionState δ} (h : r.state sessionId = some a)
    (b : SessionState δ) :
    Written r (r.putState sessionId b) sessionId (some b) r.history.view r.nextOperation := by
  obtain ⟨entry, he, -⟩ := Option.map_eq_some_iff.mp h
  simp only [SessionRegistry.putState, he]
  refine ⟨?_, ?_, rfl, rfl, rfl⟩
  · simp [SessionRegistry.state]
  · intro other ho
    simp [SessionRegistry.state, Finmap.lookup_insert_of_ne _ ho]

/-- The same with another cache. -/
theorem written_putState_history {a : SessionState δ} (h : r.state sessionId = some a)
    (history : HistoryCache σ) (b : SessionState δ) :
    Written r (SessionRegistry.putState { r with history } sessionId b) sessionId (some b)
      history.view r.nextOperation := by
  have hw := written_putState (r := { r with history }) h b
  exact ⟨hw.state, hw.states, hw.view, hw.epoch, hw.operations⟩

/-- The accounts of overlays and terminals are no part of what is written. -/
theorem Written.congr {r'' : SessionRegistry σ δ}
    (h : Written r r' sessionId session view operations) (hsessions : r''.sessions = r'.sessions)
    (hhistory : r''.history = r'.history) (hepoch : r''.epoch = r'.epoch)
    (hops : r''.nextOperation = r'.nextOperation) :
    Written r r'' sessionId session view operations := by
  have hstate : ∀ id, r''.state id = r'.state id := by
    intro id
    rw [SessionRegistry.state, hsessions]
    rfl
  constructor
  · rw [hstate, h.state]
  · intro other ho
    rw [hstate, h.states other ho]
  · rw [hhistory, h.view]
  · rw [hepoch, h.epoch]
  · rw [hops, h.operations]

theorem written_putOverlay {a : SessionState δ} (h : r.state sessionId = some a)
    (b : SessionState δ) :
    Written r (r.putOverlay sessionId a b) sessionId (some b) r.history.view r.nextOperation :=
  (written_putState h b).congr rfl rfl rfl rfl

theorem Written.counted (h : Written r r' sessionId session view operations) (n : Nat) :
    Written r { r' with nextOperation := n } sessionId session view n :=
  ⟨h.state, h.states, h.view, h.epoch, rfl⟩

omit sessionId in
theorem history_putState (r : SessionRegistry σ δ) (sessionId : String) (b : SessionState δ) :
    (r.putState sessionId b).history = r.history := by
  unfold SessionRegistry.putState
  cases r.sessions.lookup sessionId <;> rfl

omit sessionId in
theorem history_putOverlay (r : SessionRegistry σ δ) (sessionId : String) (a b : SessionState δ) :
    (r.putOverlay sessionId a b).history = r.history := by
  unfold SessionRegistry.putOverlay
  exact history_putState r sessionId b

theorem requireState_eq_ok {incarnation : Nat} {a : SessionState δ} :
    r.requireState sessionId incarnation = .ok a ↔
      r.state sessionId = some a ∧ a.incarnation = incarnation := by
  unfold SessionRegistry.requireState
  cases r.state sessionId with
  | none => simp
  | some session =>
      by_cases hi : session.incarnation = incarnation
      · simp only [hi, if_true, Except.ok.injEq, Option.some.injEq]
        constructor
        · rintro rfl
          exact ⟨rfl, hi⟩
        · exact And.left
      · simp only [hi, if_false, Option.some.injEq]
        constructor
        · intro h
          cases h
        · rintro ⟨rfl, ha⟩
          exact absurd ha hi

end Written

section Effect

/-- What other sessions see of transitions of the given kinds. -/
def elapses (kinds : List Action) : List Action :=
  (kinds.filter Action.counts).map fun _ => .elapsed

/-- An operation moves its own session along transitions of the given kinds, lets
the others see at most the counters advance, and keeps the cache folded. -/
structure Effect (sha256 : String → δ) (sessionId : String) (kinds : List Action)
    (r r' : SessionRegistry σ δ) : Prop where
  self : Moves sha256 sessionId kinds (r.slice sessionId) (r'.slice sessionId)
  other : ∀ other, other ≠ sessionId →
    Moves sha256 other (elapses kinds) (r.slice other) (r'.slice other)
  folded : r.history.Folded → r'.history.Folded

variable {sha256 : String → δ} {sessionId : String} {kinds kinds' : List Action}
  {r r' r'' : SessionRegistry σ δ}

namespace Effect

theorem refl (r : SessionRegistry σ δ) : Effect sha256 sessionId kinds r r :=
  ⟨.refl _ _, fun _ _ => .refl _ _, id⟩

theorem trans (h : Effect sha256 sessionId kinds r r')
    (h' : Effect sha256 sessionId kinds' r' r'') :
    Effect sha256 sessionId (kinds ++ kinds') r r'' := by
  refine ⟨h.self.append h'.self, ?_, h'.folded ∘ h.folded⟩
  intro other ho
  rw [elapses, List.filter_append, List.map_append]
  exact (h.other other ho).append (h'.other other ho)

theorem mono (h : Effect sha256 sessionId kinds r r') (hsub : kinds.Sublist kinds') :
    Effect sha256 sessionId kinds' r r' :=
  ⟨h.self.mono hsub, fun other ho => (h.other other ho).mono ((hsub.filter _).map _), h.folded⟩

/-- Retained terminals are seen by no slice. -/
theorem of_terminals {retainedTerminals : Table SessionKey (Table String Value)}
    {retainedTerminalBytes : Nat}
    (h : Effect sha256 sessionId kinds { r with retainedTerminals, retainedTerminalBytes } r') :
    Effect sha256 sessionId kinds r r' :=
  ⟨h.self, h.other, h.folded⟩

/-- The effect of an operation, from what it writes. -/
theorem of_written {session : Option (SessionState δ)} {view : CacheView} {operations : Nat}
    (hw : Written r r' sessionId session view operations)
    (ht : Moves sha256 sessionId kinds (r.slice sessionId)
      (.of session view r.epoch operations sessionId))
    (ho : ∀ other, other ≠ sessionId → Moves sha256 other (elapses kinds) (r.slice other)
      (.of (r.state other) view r.epoch operations other))
    (hf : r.history.Folded → r'.history.Folded) : Effect sha256 sessionId kinds r r' := by
  refine ⟨?_, ?_, hf⟩
  · rw [hw.slice]
    exact ht
  · intro other hne
    rw [hw.slice_of_ne hne]
    exact ho other hne

/-- An operation that writes one session only. -/
theorem of_session {kind : Action} {b : SessionState δ}
    (hw : Written r r' sessionId (some b) r.history.view r.nextOperation)
    (ht : Transition sha256 sessionId kind (r.slice sessionId)
      ((r.slice sessionId).setSession b))
    (hf : r.history.Folded → r'.history.Folded) : Effect sha256 sessionId [kind] r r' :=
  of_written hw (.single ht) (fun _ _ => .refl _ _) hf

/-- An operation that writes one session and opens or closes one of its attempts. -/
theorem of_setAttempt {kind : Action} {b : SessionState δ} {incarnation : Nat}
    {attempt : Option String}
    (hw : Written r r' sessionId (some b)
      (r.history.view.setAttempt ⟨sessionId, incarnation⟩ attempt) r.nextOperation)
    (ht : Transition sha256 sessionId kind (r.slice sessionId)
      (((r.slice sessionId).setAttempt incarnation attempt).setSession b))
    (hf : r.history.Folded → r'.history.Folded) : Effect sha256 sessionId [kind] r r' := by
  refine of_written hw (.single ?_) ?_ hf
  · rw [Slice.of_setAttempt]
    exact ht
  · intro other ho
    rw [Slice.of_setAttempt_of_ne _ ho]
    exact .refl _ _

/-- An operation that writes one session and publishes under one of its keys. -/
theorem of_publish {kind : Action} {b : SessionState δ} {view : CacheView} {incarnation : Nat}
    {updates : List Value} {bytes : Nat}
    (hw : Written r r' sessionId (some b)
      (view.publish ⟨sessionId, incarnation⟩ updates bytes) r.nextOperation)
    (hview : ∀ other, other ≠ sessionId →
      Slice.of (r.state other) view r.epoch r.nextOperation other = r.slice other)
    (ht : Transition sha256 sessionId kind (r.slice sessionId)
      (((Slice.of (r.state sessionId) view r.epoch r.nextOperation sessionId).publish incarnation
        updates bytes).setSession b))
    (hcounts : kind.counts = true) (hf : r.history.Folded → r'.history.Folded) :
    Effect sha256 sessionId [kind] r r' := by
  refine of_written hw (.single ?_) ?_ hf
  · rw [Slice.of_publish]
    exact ht
  · intro other ho
    rw [Slice.of_publish_of_ne _ _ ho, hview other ho, elapses, List.filter_cons_of_pos hcounts]
    refine .single (.elapsed (.inl rfl) (.inr ?_))
    have hgen := congrArg Slice.generations (hview other ho)
    exact congrArg nextCounter hgen

/-- An operation that shows every session what it saw before. -/
theorem of_view (hstate : ∀ sessionId, r'.state sessionId = r.state sessionId)
    (hview : r'.history.view = r.history.view) (hepoch : r'.epoch = r.epoch)
    (hops : r'.nextOperation = r.nextOperation) (hf : r.history.Folded → r'.history.Folded) :
    Effect sha256 sessionId kinds r r' := by
  have hslice : ∀ sessionId, r'.slice sessionId = r.slice sessionId := by
    intro sessionId
    rw [SessionRegistry.slice, SessionRegistry.slice, hstate, hview, hepoch, hops]
  refine ⟨?_, ?_, hf⟩
  · rw [hslice]
    exact .refl _ _
  · intro other _
    rw [hslice]
    exact .refl _ _

end Effect

end Effect

end Attyd.Session
