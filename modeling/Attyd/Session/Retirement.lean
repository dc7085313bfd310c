import Attyd.Session.BoardAccounts

/-!
# Sessions that are closed or deleted

A session whose close is confirmed keeps a live side at most until it is cleaned up. While it
does, it is closed or its delete goes on, no turn runs in it, and no operation but a delete
holds it. The operation that cleans it up is its cleaner: it comes when the close or the
delete is confirmed, and goes when the cleanup is done.
-/

namespace Attyd.Session

/-- Whether an operation deletes a closed session again, and has only been reserved. -/
def reservesDelete (operation : SessionOperationState) : Prop :=
  operation.kind = .delete ∧ operation.stage = "reserved"

/-- Nothing is left of a session but its cleanup or its delete. -/
def Face.Retired (a : Face) : Prop :=
  ∀ live, a.live = some live → a.execution = none ∧
    (live.lifecycle = .closed ∧
        (∀ o, a.operation = some o → o.stage = "cleanup" ∨ reservesDelete o) ∨
      live.lifecycle = .deleting ∧ deletesClosed a.operation)

/-- A session that is cleaned up is closed, if it is still live. -/
def Face.CleansClosed (a : Face) : Prop :=
  a.Cleaning → ∀ live, a.live = some live → live.lifecycle = .closed

/-- The operation that cleans a session up. -/
structure Cleaner where
  sessionId : String
  incarnation : Nat
  operationId : String
  deriving DecidableEq

def Face.cleaners (a : Face) : Multiset Cleaner :=
  a.operation.elim 0 fun o =>
    if o.stage = "cleanup" then {⟨a.sessionId, a.incarnation, o.operationId⟩} else 0

def Board.cleaners (b : Board) : Multiset Cleaner := Table.sum Face.cleaners b.faces

namespace Report

/-- The cleaner that comes with a confirmed close or delete. -/
def owed : Report → Multiset Cleaner
  | .closes sessionId incarnation operationId => {⟨sessionId, incarnation, operationId⟩}
  | _ => 0

/-- The cleaner that leaves when it is done. -/
def released : Report → Multiset Cleaner
  | .cleans sessionId incarnation operationId => {⟨sessionId, incarnation, operationId⟩}
  | _ => 0

/-- The session whose close or delete is confirmed. -/
def confirmed : Report → Option String
  | .confirms sessionId | .closes sessionId _ _ => some sessionId
  | _ => none

/-- The session that is opened anew or lost. -/
def revived : Report → Option String
  | .opens sessionId | .doubts sessionId => some sessionId
  | _ => none

end Report

section Faces

variable {called : Caller} {used urlUsed : String → Prop} {sessionId : String}
  {action : FaceAction} {effects : Multiset RuntimeEffect} {a a' : Face}

theorem Face.cleaners_of_none (h : a.operation = none) : a.cleaners = 0 := by
  rw [Face.cleaners, h, Option.elim_none]

theorem Face.cleaners_of_some {o : SessionOperationState} (h : a.operation = some o) :
    a.cleaners = if o.stage = "cleanup" then {⟨a.sessionId, a.incarnation, o.operationId⟩} else 0 := by
  rw [Face.cleaners, h, Option.elim_some]

/-- A session whose operations answer has no cleaner. -/
theorem Face.Answers.cleaners (h : a.Answers) : a.cleaners = 0 := by
  cases ho : a.operation with
  | none => exact Face.cleaners_of_none ho
  | some o => rw [Face.cleaners_of_some ho, if_neg (h o ho)]

/-- A retired session stays retired, unless it is lost. -/
theorem Face.Step.retired (h : Face.Step called used urlUsed sessionId action effects a a')
    (hserves : called.serves) (horderly : called.orderly)
    (hkept : ∀ operationId, action ≠ .drains operationId .uncertain) (ha : a.Retired) :
    a'.Retired := by
  intro live' hlive
  cases h with
  | rests execution hexecution =>
      obtain ⟨hidle, hends⟩ := ha live' hlive
      refine ⟨?_, hends⟩
      rcases hexecution with rfl | rfl
      · exact hidle
      · rfl
  | executes operationId hunused hidle hfree hl hactive =>
      obtain ⟨-, ⟨hclosed, -⟩ | ⟨hdeleting, -⟩⟩ := ha _ hl
      · rw [hclosed] at hactive
        cases hactive
      · rw [hdeleting] at hactive
        cases hactive
  | starts operation live hid hstage hsame hlifecycle hdeleting hclosed =>
      change live = some live' at hlive
      rw [hlive, Option.map_some] at hsame
      obtain ⟨old, hold, -⟩ := Option.map_eq_some_iff.mp hsame.symm
      obtain ⟨hidle, hends⟩ := ha old hold
      refine ⟨hidle, ?_⟩
      rcases hends with ⟨hold', -⟩ | ⟨-, o, ho, -, hs⟩
      · obtain ⟨hdelete, ⟨hreserved, hlive'⟩ | hgoes⟩ := hclosed hserves horderly old hold hold'
        · rw [hlive', hold] at hlive
          cases hlive
          refine .inl ⟨hold', ?_⟩
          rintro o ⟨⟩
          exact .inr ⟨hdelete, hreserved⟩
        · have hdeletes : deletesClosed (some operation) := ⟨operation, rfl, hdelete, hgoes⟩
          exact .inr ⟨(hdeleting hserves hdeletes).2 live' hlive, hdeletes⟩
      · rcases hid with ⟨hnone, -⟩ | ⟨reserved, hreserved, -, hr⟩
        · rw [hnone] at ho
          cases ho
        · cases ho.symm.trans hreserved
          rw [hs] at hr
          simp at hr
  | @ends _ operation live hid hstage hsame hlifecycle hclosed =>
      change live = some live' at hlive
      rw [hlive, Option.map_some] at hsame
      obtain ⟨old, hold, -⟩ := Option.map_eq_some_iff.mp hsame.symm
      obtain ⟨hidle, hends⟩ := ha old hold
      refine ⟨hidle, .inl ⟨?_, by simp⟩⟩
      refine hclosed horderly old hold ?_ live' hlive
      rcases hends with ⟨hold', -⟩ | ⟨-, hdeletes⟩
      · exact .inl hold'
      · exact .inr (hid ▸ hdeletes)
  | drains next execution lifecycle hid hnext hexecution hl hanswers hlifecycle hcleanup
      hconfirmed hdeleting =>
      cases hlive
      have hlost : lifecycle ≠ .uncertain := by
        rintro rfl
        exact hkept _ rfl
      refine ⟨hconfirmed hlost, ?_⟩
      simp only [List.mem_cons, List.not_mem_nil, or_false] at hlifecycle
      rcases hlifecycle with rfl | rfl | rfl
      · exact .inr ⟨rfl, hdeleting rfl⟩
      · refine .inl ⟨rfl, ?_⟩
        rintro o ⟨⟩
        exact .inl (hcleanup.mpr rfl)
      · exact absurd rfl hlost
  | retires => cases hlive
  | finishes => cases hlive
  | seals operationId lifecycle hid hl =>
      rw [(ha _ hl).1] at hid
      cases hid
  | interacts hl hanswers hstep =>
      cases hlive
      obtain ⟨hidle, hends⟩ := ha _ hl
      exact ⟨hidle, hends⟩

/-- Whatever a session was, it is retired once its close or its delete is confirmed. -/
theorem Face.Step.confirmed (h : Face.Step called used urlUsed sessionId action effects a a')
    {incarnation : Nat} {id : String}
    (hconfirmed : (BoardAction.face sessionId incarnation action).report.confirmed = some id) :
    id = sessionId ∧ a'.Retired := by
  cases h with
  | @drains _ operation _ next execution lifecycle hid hnext hexecution hl hanswers hlifecycle
      hcleanup hnone hdeleting =>
      simp only [List.mem_cons, List.not_mem_nil, or_false] at hlifecycle
      rcases hlifecycle with rfl | rfl | rfl
      · refine ⟨(Option.some.inj hconfirmed).symm, ?_⟩
        rintro live ⟨⟩
        exact ⟨hnone (by simp), .inr ⟨rfl, hdeleting rfl⟩⟩
      · refine ⟨(Option.some.inj hconfirmed).symm, ?_⟩
        rintro live ⟨⟩
        refine ⟨hnone (by simp), .inl ⟨rfl, ?_⟩⟩
        rintro o ⟨⟩
        exact .inl (hcleanup.mpr rfl)
      · cases hconfirmed
  | retires next execution cleans =>
      cases cleans with
      | false => cases hconfirmed
      | true =>
          refine ⟨(Option.some.inj hconfirmed).symm, ?_⟩
          rintro live ⟨⟩
  | @finishes _ operation =>
      by_cases hs : operation.stage = "cleanup" <;>
        simp [BoardAction.report, hs, Report.confirmed] at hconfirmed
  | @interacts _ _ interaction =>
      cases interaction <;> cases hconfirmed
  | _ => cases hconfirmed

/-- A session that is cleaned up stays closed. -/
theorem Face.Step.cleansClosed (h : Face.Step called used urlUsed sessionId action effects a a')
    (hserves : called.serves) (ha : a.CleansClosed) : a'.CleansClosed := by
  rintro ⟨o, ho, hs⟩ live' hlive
  cases h with
  | rests => exact ha ⟨o, ho, hs⟩ live' hlive
  | executes => exact ha ⟨o, ho, hs⟩ live' hlive
  | starts operation live hid hstage =>
      cases ho
      exact absurd hs (hstage hserves)
  | ends => cases ho
  | drains next execution lifecycle hid hnext hexecution hl hanswers hlifecycle hcleanup =>
      cases ho
      cases hlive
      exact hcleanup.mp hs
  | retires => cases hlive
  | finishes => cases hlive
  | seals operationId lifecycle hid hl hanswers => exact absurd hs (hanswers o ho)
  | interacts hl hanswers => exact absurd hs (hanswers o ho)

/-- The account of the cleaners of one session. -/
theorem Face.Step.cleaners_add (h : Face.Step called used urlUsed sessionId action effects a a')
    (hserves : called.serves) (hid : a.sessionId = sessionId) :
    a'.cleaners + (BoardAction.face sessionId a.incarnation action).report.released =
      a.cleaners + (BoardAction.face sessionId a.incarnation action).report.owed := by
  subst hid
  cases h with
  | rests => rfl
  | executes => rfl
  | starts operation live hid hstage =>
      have hnew : ({ a with operation := some operation, live } : Face).cleaners = 0 := by
        rw [Face.cleaners_of_some rfl, if_neg (hstage hserves)]
      have hold : a.cleaners = 0 := by
        rcases hid with ⟨hnone, -⟩ | ⟨reserved, hreserved, -, hs⟩
        · exact Face.cleaners_of_none hnone
        · rw [Face.cleaners_of_some hreserved, if_neg (by simp [hs])]
      rw [hnew, hold]
      rfl
  | @ends _ operation live hid hstage =>
      rw [Face.cleaners_of_none (a := { a with operation := none, live }) rfl,
        Face.cleaners_of_some hid, if_neg (hstage hserves)]
      rfl
  | @drains _ operation live next execution lifecycle hid hnext hexecution hl hanswers hlifecycle
      hcleanup =>
      rw [hanswers.cleaners, Face.cleaners_of_some rfl]
      simp only [List.mem_cons, List.not_mem_nil, or_false] at hlifecycle
      rcases hlifecycle with rfl | rfl | rfl
      · rw [if_neg fun hs => by cases hcleanup.mp hs]
        rfl
      · rw [if_pos (hcleanup.mpr rfl), hnext]
        rfl
      · rw [if_neg fun hs => by cases hcleanup.mp hs]
        rfl
  | @retires _ operation live next execution cleans hid hnext hexecution hl hanswers hcleans =>
      rw [hanswers.cleaners]
      cases cleans with
      | false =>
          have hnone : Face.cleaners { a with execution, operation := next, live := none } = 0 := by
            refine Face.Answers.cleaners fun o ho hs => ?_
            exact absurd (hcleans.mpr ⟨o, ho, hs⟩) Bool.false_ne_true
          rw [hnone]
          rfl
      | true =>
          obtain ⟨o, rfl, hs⟩ := hcleans.mp rfl
          rw [Face.cleaners_of_some rfl, if_pos hs, hnext o rfl]
          rfl
  | @finishes _ operation hid =>
      rw [Face.cleaners_of_none (a := { a with operation := none, live := none }) rfl,
        Face.cleaners_of_some hid]
      by_cases hs : operation.stage = "cleanup"
      · simp [hs, BoardAction.report, Report.released, Report.owed]
      · simp [hs, BoardAction.report, Report.released, Report.owed]
  | seals => rfl
  | @interacts _ live interaction =>
      cases interaction <;> rfl

end Faces

section Boards

variable {called : Caller} {action : BoardAction} {b b' : Board}

/-- The session is retired, or not known. -/
def Board.Retired (b : Board) (sessionId : String) : Prop :=
  ∀ a, b.faces.lookup sessionId = some a → a.Retired

/-- A retired session stays retired until it is opened anew or lost. -/
theorem Board.Step.retired (h : Board.Step called action b b') (hserves : called.serves)
    (horderly : called.orderly) {id : String} (hkept : action.report.revived ≠ some id)
    (hb : b.Retired id) : b'.Retired id := by
  have hset : ∀ sessionId (face : Face), (sessionId = id → face.Retired) →
      ∀ a, (b.faces.insert sessionId face).lookup id = some a → a.Retired := by
    intro sessionId face hface a ha
    by_cases ho : id = sessionId
    · subst ho
      cases (Finmap.lookup_insert _).symm.trans ha
      exact hface rfl
    · exact hb a ((Finmap.lookup_insert_of_ne _ ho).symm.trans ha)
  cases h with
  | rests => exact hb
  | @face _ a a' faceAction effects sessionId ha hstep =>
      refine hset sessionId a' ?_
      rintro rfl
      refine hstep.retired hserves horderly ?_ (hb a ha)
      rintro operationId rfl
      exact hkept rfl
  | connection => exact hb
  | installs sessionId face =>
      refine hset sessionId face ?_
      rintro rfl
      exact absurd rfl hkept
  | registers sessionId incarnation =>
      refine hset sessionId _ ?_
      rintro - live ⟨⟩
  | removes sessionId =>
      intro a ha
      by_cases ho : id = sessionId
      · subst ho
        cases (Finmap.lookup_erase _ _).symm.trans ha
      · exact hb a ((Finmap.lookup_erase_ne ho).symm.trans ha)

theorem Board.Step.confirmed (h : Board.Step called action b b') {id : String}
    (hconfirmed : action.report.confirmed = some id) : b'.Retired id := by
  cases h with
  | face sessionId ha hstep =>
      obtain ⟨rfl, hretired⟩ := hstep.confirmed hconfirmed
      intro c hc
      cases (Finmap.lookup_insert _).symm.trans hc
      exact hretired
  | @connection _ interaction => cases interaction <;> cases hconfirmed
  | _ => cases hconfirmed

/-- Every session that is cleaned up is closed. -/
def Board.CleansClosed (b : Board) : Prop :=
  ∀ id a, b.faces.lookup id = some a → a.CleansClosed

theorem Board.Step.cleansClosed (h : Board.Step called action b b') (hserves : called.serves)
    (hb : b.CleansClosed) : b'.CleansClosed := by
  cases h with
  | rests => exact hb
  | face sessionId ha hstep => exact forall_setFace hb (hstep.cleansClosed hserves (hb _ _ ha))
  | connection => exact hb
  | installs sessionId face lifecycle hid hfree hexecution hoperation =>
      refine forall_setFace hb ?_
      rintro ⟨o, ho, hs⟩
      rw [(hoperation o ho).2] at hs
      simp at hs
  | registers sessionId incarnation =>
      refine forall_setFace hb ?_
      rintro ⟨o, ⟨⟩, -⟩
  | removes sessionId =>
      intro id a ha
      by_cases ho : id = sessionId
      · subst ho
        cases (Finmap.lookup_erase _ _).symm.trans ha
      · exact hb id a ((Finmap.lookup_erase_ne ho).symm.trans ha)

/-- The account of the cleaners: each comes with a confirmed end, and leaves when it is done. -/
theorem Board.Step.cleaners_add (h : Board.Step called action b b') (hserves : called.serves)
    (hkeyed : b.Keyed) :
    b'.cleaners + action.report.released = b.cleaners + action.report.owed := by
  cases h with
  | rests => rfl
  | face sessionId ha hstep =>
      refine sum_setFace Face.cleaners ?_
      rw [ha]
      exact hstep.cleaners_add hserves (hkeyed _ _ ha)
  | @connection _ interaction => cases interaction <;> rfl
  | installs sessionId face lifecycle hid hfree hexecution hoperation =>
      refine sum_setFace Face.cleaners ?_
      have hnew : face.cleaners = 0 := by
        refine Face.Answers.cleaners fun o ho hs => ?_
        rw [(hoperation o ho).2] at hs
        simp at hs
      have hold : (b.faces.lookup sessionId).elim 0 Face.cleaners = 0 := by
        cases ha : b.faces.lookup sessionId with
        | none => rfl
        | some a => exact Face.cleaners_of_none (hfree a ha).1
      rw [hnew, hold]
      rfl
  | registers sessionId incarnation hnew =>
      have hsum := Table.sum_insert_of_lookup_none Face.cleaners
        ⟨sessionId, incarnation, none, none, none⟩ (hnew hserves)
      exact congrArg (· + 0) (hsum.trans (zero_add _))
  | removes sessionId ha hlive hfree =>
      have hsum := Table.sum_erase Face.cleaners ha
      rw [Face.cleaners_of_none hfree, zero_add] at hsum
      exact congrArg (· + 0) hsum.symm

end Boards

end Attyd.Session
