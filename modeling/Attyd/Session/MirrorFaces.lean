import Attyd.Session.ConnectionFrame

/-!
# The operations on the history, seen on faces

An operation on the history leaves the faces of all sessions as they are, except that
a turn that passes into history or is given up loses its execution. The others register
a session, remove one, or reserve and release it.
-/

namespace Attyd.Session

open Json (Value)
open History

variable {σ δ : Type} [Inhabited σ] [DecidableEq δ]

/-- A face that is the same, or has lost its execution. -/
def Face.RestsAs (a b : Face) : Prop :=
  ∃ execution, (execution = a.execution ∨ execution = none) ∧ b = { a with execution }

theorem Face.RestsAs.refl (a : Face) : a.RestsAs a := ⟨a.execution, .inl rfl, rfl⟩

theorem Face.RestsAs.trans {a b c : Face} (h : a.RestsAs b) (h' : b.RestsAs c) : a.RestsAs c := by
  obtain ⟨x, hx, rfl⟩ := h
  obtain ⟨y, hy, rfl⟩ := h'
  refine ⟨y, ?_, rfl⟩
  rcases hy with rfl | rfl
  · exact hx
  · exact .inr rfl

/-- A session that is still absent, or rests. -/
def restsFrom (a b : Option Face) : Prop :=
  match a with
  | none => b = none
  | some a => ∃ b', b = some b' ∧ a.RestsAs b'

theorem restsFrom.refl (a : Option Face) : restsFrom a a := by
  cases a with
  | none => rfl
  | some a => exact ⟨a, rfl, .refl a⟩

theorem restsFrom.trans {a b c : Option Face} (h : restsFrom a b) (h' : restsFrom b c) :
    restsFrom a c := by
  cases a with
  | none =>
      cases h
      exact h'
  | some a =>
      obtain ⟨b, rfl, hb⟩ := h
      obtain ⟨c, rfl, hc⟩ := h'
      exact ⟨c, rfl, hb.trans hc⟩

section Slices

/-- The face a slice shows. -/
def Slice.face (s : Slice δ) : Option Face := s.session.map (·.face)

/-- The kinds of change that leave the face of a session at rest. -/
def Action.rests : Action → Bool
  | .touched | .created | .registered | .cleared | .retired | .admitted => false
  | _ => true

omit [Inhabited σ] [DecidableEq δ] in
private theorem face_gathered {a b : SessionState δ} {update : Value}
    (h : a.foldOverlayUpdate update = .ok b) : b.face = a.face := by
  obtain ⟨turn, updates, hturn, -, rfl⟩ := SessionState.foldOverlayUpdate_eq_ok h
  simp [SessionState.face, SessionState.turnExecution, SessionState.advanceRevision, hturn]

omit [Inhabited σ] [DecidableEq δ] in
private theorem face_completed {a b : SessionState δ} {operationId : String} {terminal : Value}
    (h : a.completeTurn operationId terminal = .ok b) :
    b.face = { a.face with execution := none } := by
  obtain ⟨turn, -, -, -, -, rfl⟩ := SessionState.completeTurn_eq_ok h
  rfl

omit [Inhabited σ] [DecidableEq δ] in
private theorem face_blocked {a b : SessionState δ} {operationId message : String}
    (h : a.blockTurn operationId message = .ok b) : b.face = a.face := by
  obtain ⟨-, -, rfl⟩ := SessionState.blockTurn_eq_ok h
  rfl

omit [Inhabited σ] in
theorem Transition.rests {sha256 : String → δ} {sessionId : String} {kind : Action}
    {s s' : Slice δ} (h : Transition sha256 sessionId kind s s') (hk : kind.rests = true) :
    restsFrom s.face s'.face := by
  have same {a b : SessionState δ} (ha : s.session = some a) (hb : s'.session = some b)
      (hface : a.face.RestsAs b.face) : restsFrom s.face s'.face := by
    rw [Slice.face, ha, Slice.face, hb]
    exact ⟨b.face, rfl, hface⟩
  cases h with
  | elapsed => exact .refl _
  | begun attemptId h => exact same h rfl (.refl _)
  | failed attemptId message retryable h hload hb => exact same h rfl (hb ▸ .refl _)
  | cooled h => exact same h rfl (.refl _)
  | loaded attemptId updates bytes h => exact same h rfl ⟨none, .inr rfl, rfl⟩
  | gathered update h hphase hb => exact same h rfl (face_gathered hb ▸ .refl _)
  | completed operationId terminal h hb =>
      exact same h rfl (face_completed hb ▸ ⟨none, .inr rfl, rfl⟩)
  | appended update updates bytes h => exact same h rfl (.refl _)
  | remembered operationId updates bytes h => exact same h rfl ⟨none, .inr rfl, rfl⟩
  | blocked operationId message h hb => exact same h rfl (face_blocked hb ▸ .refl _)
  | _ => cases hk

omit [Inhabited σ] in
theorem Moves.rests {sha256 : String → δ} {sessionId : String} {kinds : List Action}
    {s s' : Slice δ} (h : Moves sha256 sessionId kinds s s')
    (hk : ∀ kind ∈ kinds, kind.rests = true) : restsFrom s.face s'.face :=
  h.preserves (P := fun t => restsFrom s.face t.face)
    (fun kind hkind _ _ ht hs => hs.trans (ht.rests (hk kind hkind))) (.refl _)

omit [Inhabited σ] in
/-- While only counters advance, a session stays what it is. -/
theorem Moves.elapsed_session {sha256 : String → δ} {sessionId : String} {s s' : Slice δ}
    (h : Moves sha256 sessionId [.elapsed] s s') : s'.session = s.session := by
  refine h.preserves (P := fun t => t.session = s.session) ?_ rfl
  rintro kind hkind t t' ht hs
  rw [List.mem_singleton] at hkind
  subst hkind
  cases ht with
  | elapsed => exact hs

end Slices

end Attyd.Session
