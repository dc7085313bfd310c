import Attyd.Elicitation.Requests

/-!
# When the validation of an elicitation panics

A request or an answer panics the validation exactly when a field of it is a date-time that is cut
inside a character and every check before that one passes.

## Implementation notes

`checked_bind` says when two checks in a row panic; every other lemma follows the checks of one
validator by it.
-/

namespace Attyd.Elicitation

open Json (Value)

/-! ## Checks in a row -/

/-- The validation panics. -/
def Panics {α : Type} (check : Checked α) : Prop := check.run = none

instance {α : Type} (check : Checked α) : Decidable (Panics check) :=
  decidable_of_iff (check.run.isNone = true) Option.isNone_iff_eq_none

/-- The validation returns and finds nothing wrong. -/
def Accepts (check : Checked Unit) : Prop := check.run = some (.ok ())

section Checks

variable {α β : Type}

@[simp] theorem not_panics_result (result : ValidationResult α) :
    ¬Panics (liftM result : Checked α) := Option.some_ne_none _

@[simp] theorem not_panics_throw (message : String) : ¬Panics (throw message : Checked α) :=
  Option.some_ne_none _

@[simp] theorem not_panics_pure (value : α) : ¬Panics (pure value : Checked α) :=
  Option.some_ne_none _

/-- A result that is used panics where its use does. -/
theorem panics_result_bind {result : ValidationResult α} {next : α → Checked β} :
    Panics (liftM result >>= next) ↔ ∃ value, result = .ok value ∧ Panics (next value) := by
  cases result with
  | error message =>
      constructor
      · exact fun h => absurd h (Option.some_ne_none _)
      · rintro ⟨_, h, -⟩
        cases h
  | ok value =>
      constructor
      · exact fun h => ⟨value, rfl, h⟩
      · rintro ⟨_, h, hnext⟩
        cases h
        exact hnext

theorem panics_lift_bind {option : Option α} {next : α → Checked β} :
    Panics (ExceptT.lift option >>= next) ↔
      option = none ∨ ∃ value, option = some value ∧ Panics (next value) := by
  cases option with
  | none => exact iff_of_true rfl (.inl rfl)
  | some value =>
      constructor
      · exact fun h => .inr ⟨value, rfl, h⟩
      · rintro (h | ⟨_, h, hnext⟩)
        · cases h
        · cases h
          exact hnext

/-- Two checks in a row panic at the first one or, if that one accepts, at the second one. -/
theorem panics_seq {check : Checked Unit} {next : Unit → Checked β} :
    Panics (check >>= next) ↔ Panics check ∨ Accepts check ∧ Panics (next ()) := by
  rcases hcheck : check.run with _ | message | _
  · obtain rfl : check = ExceptT.mk none := hcheck
    exact iff_of_true rfl (.inl rfl)
  · obtain rfl : check = ExceptT.mk (some (.error message)) := hcheck
    refine iff_of_false (Option.some_ne_none _) ?_
    rintro (h | ⟨h, -⟩)
    · cases h
    · cases h
  · obtain rfl : check = ExceptT.mk (some (.ok ())) := hcheck
    constructor
    · exact fun h => .inr ⟨rfl, h⟩
    · rintro (h | ⟨-, h⟩)
      · cases h
      · exact h

/-- Checks in a row panic at the first one that does not accept. -/
theorem panics_forM {checks : List α} {check : α → Checked Unit} :
    Panics (checks.forM check) ↔ ∃ earlier item later, checks = earlier ++ item :: later ∧
      (∀ item ∈ earlier, Accepts (check item)) ∧ Panics (check item) := by
  induction checks with
  | nil => exact iff_of_false (Option.some_ne_none _) (by simp)
  | cons first checks ih =>
      change Panics (check first >>= fun _ => checks.forM check) ↔ _
      rw [panics_seq, ih]
      constructor
      · rintro (hfirst | ⟨hfirst, earlier, item, later, rfl, hearlier, hitem⟩)
        · exact ⟨[], first, checks, rfl, by simp, hfirst⟩
        · refine ⟨first :: earlier, item, later, rfl, ?_, hitem⟩
          exact List.forall_mem_cons.mpr ⟨hfirst, hearlier⟩
      · rintro ⟨_ | ⟨_, earlier⟩, item, later, hchecks, hearlier, hitem⟩
        · cases hchecks
          exact .inl hitem
        · cases hchecks
          obtain ⟨hfirst, hearlier⟩ := List.forall_mem_cons.mp hearlier
          exact .inr ⟨hfirst, earlier, item, later, rfl, hearlier, hitem⟩

end Checks

/-! ## The fields that panic -/

/-- A text field whose length and pattern are right, with a date-time that is cut inside a
character. -/
def FieldCuts (readers : Readers) (name : String) (value schema : Value) : Prop :=
  schema.getStr "type" = some "string" ∧
    ∃ text, textBeforeFormat readers name value schema = .ok text ∧
      schema.getStr "format" = some "date-time" ∧ CutsCharacter text.toList

theorem matchesFormat_eq_none {readers : Readers} {value format : String} :
    matchesFormat readers value format = none ↔
      format = "date-time" ∧ CutsCharacter value.toList := by
  unfold matchesFormat
  split <;> simp_all [validDateTime_eq_none]

theorem checkFormat_panics {readers : Readers} {name text : String} {schema : Value} :
    Panics (checkFormat readers name text schema) ↔
      schema.getStr "format" = some "date-time" ∧ CutsCharacter text.toList := by
  unfold checkFormat
  cases hformat : schema.getStr "format" with
  | none => simp
  | some format =>
      simp only [Option.some.injEq]
      rw [panics_lift_bind, ← matchesFormat_eq_none]
      refine or_iff_left ?_
      rintro ⟨_ | _, -, h⟩
      · exact not_panics_throw _ h
      · exact not_panics_pure _ h

theorem validateText_panics {readers : Readers} {name : String} {value schema : Value} :
    Panics (validateText readers name value schema) ↔
      ∃ text, textBeforeFormat readers name value schema = .ok text ∧
        schema.getStr "format" = some "date-time" ∧ CutsCharacter text.toList := by
  unfold validateText
  rw [panics_result_bind]
  refine exists_congr fun text => and_congr_right fun _ => ?_
  rw [panics_seq, checkFormat_panics]
  simp

/-- Of the fields, only texts can panic. -/
theorem validateField_panics {readers : Readers} {name : String} {value schema : Value} :
    Panics (validateField readers name value schema) ↔ FieldCuts readers name value schema := by
  unfold validateField FieldCuts
  split
  · next htype => simp [validateText_panics, htype]
  · simp_all
  · simp_all
  · split <;> simp_all
  · simp_all
  · simp_all
  · simp_all

/-- A property whose default value panics. -/
def PropertyCuts (readers : Readers) (name : String) (schema : Value) : Prop :=
  validateKnownSchema readers name schema = .ok true ∧
    ∃ default, (schema.get "default").filter (!·.isNull) = some default ∧
      FieldCuts readers name default schema

theorem validatePropertySchema_panics {readers : Readers} {name : String} {schema : Value} :
    Panics (validatePropertySchema readers name schema) ↔ PropertyCuts readers name schema := by
  unfold validatePropertySchema PropertyCuts
  rw [panics_result_bind]
  constructor
  · rintro ⟨known, hknown, h⟩
    cases known with
    | false => exact absurd h (not_panics_pure _)
    | true =>
        refine ⟨hknown, ?_⟩
        cases hdefault : (schema.get "default").filter (!·.isNull) with
        | none =>
            rw [hdefault] at h
            exact absurd h (not_panics_pure _)
        | some default =>
            rw [hdefault] at h
            exact ⟨default, rfl, validateField_panics.mp h⟩
  · rintro ⟨hknown, default, hdefault, h⟩
    refine ⟨true, hknown, ?_⟩
    rw [hdefault]
    exact validateField_panics.mpr h

/-- A schema whose properties are checked, the first of them that is not accepted with a default
value that panics. -/
def SchemaCuts (readers : Readers) (schema : Value) : Prop :=
  ∃ properties required, schemaProperties schema = .ok properties ∧
    stringArray (schema.get "required") "Elicitation schema required" = .ok required ∧
    validateRequired properties [] required = .ok () ∧
    ∃ earlier name property later,
      members readers properties = earlier ++ (name, property) :: later ∧
      (∀ property ∈ earlier, Accepts (validateProperty readers property)) ∧
      name ≠ "" ∧ PropertyCuts readers name property

theorem validateProperty_panics {readers : Readers} {name : String} {schema : Value} :
    Panics (validateProperty readers (name, schema)) ↔
      name ≠ "" ∧ PropertyCuts readers name schema := by
  unfold validateProperty
  split
  · next hname => simp_all
  · next hname => rw [validatePropertySchema_panics]; exact (and_iff_right hname).symm

theorem validateSchema_panics {readers : Readers} {schema : Value} :
    Panics (validateSchema readers schema) ↔ SchemaCuts readers schema := by
  unfold validateSchema SchemaCuts
  rw [panics_result_bind]
  constructor
  · rintro ⟨properties, hproperties, h⟩
    obtain ⟨required, hrequired, h⟩ := panics_result_bind.mp h
    obtain ⟨_, hknown, h⟩ := panics_result_bind.mp h
    obtain ⟨earlier, ⟨name, property⟩, later, hmembers, hearlier, h⟩ := panics_forM.mp h
    obtain ⟨hname, hcuts⟩ := validateProperty_panics.mp h
    exact ⟨properties, required, hproperties, hrequired, hknown, earlier, name, property, later,
      hmembers, hearlier, hname, hcuts⟩
  · rintro ⟨properties, required, hproperties, hrequired, hknown, earlier, name, property, later,
      hmembers, hearlier, hname, hcuts⟩
    refine ⟨properties, hproperties, panics_result_bind.mpr ⟨required, hrequired, ?_⟩⟩
    refine panics_result_bind.mpr ⟨(), hknown, panics_forM.mpr ?_⟩
    exact ⟨earlier, (name, property), later, hmembers, hearlier,
      validateProperty_panics.mpr ⟨hname, hcuts⟩⟩

/-! ## The requests and the answers that panic -/

/-- A form request whose schema panics, with nothing wrong before it. -/
def RequestCuts (readers : Readers) (request : Value) : Prop :=
  validateHeader readers request = .ok () ∧ request.getStr "mode" = some "form" ∧
    ∃ schema, request.get "requestedSchema" = some schema ∧ SchemaCuts readers schema

/-- An accepted answer, the first field of which that is not accepted panics. -/
def ResponseCuts (readers : Readers) (request response : Value) : Prop :=
  ∃ properties content, acceptedContent request response = .ok (some (properties, content)) ∧
    ∃ earlier name value later schema,
      members readers content = earlier ++ (name, value) :: later ∧
      (∀ answer ∈ earlier, Accepts (validateAnswer readers properties answer)) ∧
      properties.get name = some schema ∧ FieldCuts readers name value schema

theorem okOr_eq_ok {α : Type} {message : String} {option : Option α} {value : α} :
    okOr message option = .ok value ↔ option = some value := by
  cases option <;> simp [okOr]

theorem validateElicitationRequestValue_panics {readers : Readers} {request : Value} :
    Panics (validateElicitationRequestValue readers request) ↔ RequestCuts readers request := by
  unfold validateElicitationRequestValue RequestCuts
  rw [panics_result_bind]
  constructor
  · rintro ⟨_, hheader, h⟩
    refine ⟨hheader, ?_⟩
    split at h
    · exact absurd h (not_panics_result _)
    · next hmode =>
        obtain ⟨schema, hschema, h⟩ := panics_result_bind.mp h
        exact ⟨hmode, schema, okOr_eq_ok.mp hschema, validateSchema_panics.mp h⟩
    · exact absurd h (not_panics_throw _)
    · exact absurd h (not_panics_throw _)
  · rintro ⟨hheader, hmode, schema, hschema, h⟩
    refine ⟨(), hheader, ?_⟩
    rw [hmode]
    exact panics_result_bind.mpr ⟨schema, okOr_eq_ok.mpr hschema, validateSchema_panics.mpr h⟩

theorem validateAnswer_panics {readers : Readers} {properties value : Value} {name : String} :
    Panics (validateAnswer readers properties (name, value)) ↔
      ∃ schema, properties.get name = some schema ∧ FieldCuts readers name value schema := by
  unfold validateAnswer
  rw [panics_result_bind]
  refine exists_congr fun schema => ?_
  rw [okOr_eq_ok, validateField_panics]

theorem validateElicitationResponseValue_panics {readers : Readers} {request response : Value} :
    Panics (validateElicitationResponseValue readers request response) ↔
      ResponseCuts readers request response := by
  unfold validateElicitationResponseValue ResponseCuts
  rw [panics_result_bind]
  constructor
  · rintro ⟨_ | ⟨properties, content⟩, hcontent, h⟩
    · exact absurd h (not_panics_pure _)
    · obtain ⟨earlier, ⟨name, value⟩, later, hmembers, hearlier, h⟩ := panics_forM.mp h
      obtain ⟨schema, hschema, hcuts⟩ := validateAnswer_panics.mp h
      exact ⟨properties, content, hcontent, earlier, name, value, later, schema, hmembers,
        hearlier, hschema, hcuts⟩
  · rintro ⟨properties, content, hcontent, earlier, name, value, later, schema, hmembers,
      hearlier, hschema, hcuts⟩
    refine ⟨some (properties, content), hcontent, panics_forM.mpr ?_⟩
    exact ⟨earlier, (name, value), later, hmembers, hearlier,
      validateAnswer_panics.mpr ⟨schema, hschema, hcuts⟩⟩

/-- The validation of a request, and of an answer to it, returns unless a date-time is reached that
is cut inside a character. -/
theorem validation_returns_iff (readers : Readers) (request response : Value) :
    (¬Panics (validateElicitationRequestValue readers request) ↔ ¬RequestCuts readers request) ∧
      (¬Panics (validateElicitationResponseValue readers request response) ↔
        ¬ResponseCuts readers request response) :=
  ⟨not_congr validateElicitationRequestValue_panics,
    not_congr validateElicitationResponseValue_panics⟩

/-- A form with one field for a date-time. -/
def scheduleRequest : Value :=
  .ofFields [("sessionId", .string "s"), ("mode", .string "form"), ("message", .string "When?"),
    ("requestedSchema", .ofFields [("type", .string "object"), ("properties", .ofFields
      [("when", .ofFields [("type", .string "string"), ("format", .string "date-time")])])])]

/-- An answer whose last six bytes begin inside a character. -/
def scheduleResponse : Value :=
  .ofFields [("action", .string "accept"),
    ("content", .ofFields [("when", .string "2024-01-01Té12345")])]

/-- A library without patterns and URLs, which lists the one field of the answer. -/
def plainReaders : Readers := ⟨fun _ => none, fun _ => none, fun _ => 0, fun _ => ["when"]⟩

theorem schedule_panics :
    ¬Panics (validateElicitationRequestValue plainReaders scheduleRequest) ∧
      Panics (validateElicitationResponseValue plainReaders scheduleRequest scheduleResponse) := by
  decide +kernel

end Attyd.Elicitation
