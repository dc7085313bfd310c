import Attyd.Elicitation.Panics
import Attyd.Library.Machine
import Mathlib.Data.Finset.Sort
import Mathlib.Data.String.Basic

/-!
# What accepted schemas and answers promise

A schema is checked when it is requested, and the answer to it when it arrives. `FieldFits` says
what a field's schema asks of a value, member by member. The defaults of an accepted schema pass
the check of an answer, and an accepted answer gives the required fields, no other than the
declared ones, and to each of them a value that fits.

## Implementation notes

A check of an answer reads the choices under either of two names, the first one if both are there.
That a schema offers choices under one name only is known from the check of the schema.
-/

namespace Attyd.Elicitation

open Json (Value)

/-! ## What a schema asks for -/

section Constraints

variable (readers : Readers)

/-- The schema declares a number under a key. -/
def Declares (schema : Value) (key : String) (bound : Rat) : Prop :=
  ∃ n, schema.get key = some (.number n) ∧ readers.f64 n = bound

/-- The choices of a schema: texts, or the constants of objects. An empty list offers none. -/
inductive Offers (schema : Value) (objects : String) (choices : List String) : Prop where
  | texts (hne : choices ≠ []) (h : schema.get "enum" = some (.array (choices.map .string)))
  | constants {items : List Value} (hne : choices ≠ [])
      (h : schema.get objects = some (.array items))
      (hitems : items.map (·.getStr "const") = choices.map some)

structure LengthFits (schema : Value) (minimum maximum : String) (length : Nat) : Prop where
  minimum : ∀ bound : Nat, Declares readers schema minimum bound → bound ≤ length
  maximum : ∀ bound : Nat, Declares readers schema maximum bound → length ≤ bound

structure TextFits (schema : Value) (text : String) : Prop where
  length : LengthFits readers schema "minLength" "maxLength" text.length
  pattern : ∀ pattern, schema.getStr "pattern" = some pattern →
    ∃ isMatch, readers.regex pattern = some isMatch ∧ isMatch text = true
  format : ∀ format, schema.getStr "format" = some format →
    matchesFormat readers text format = some true
  choices : ∀ choices, Offers schema "oneOf" choices → text ∈ choices

structure NumberFits (schema : Value) (number : Rat) : Prop where
  minimum : ∀ bound, Declares readers schema "minimum" bound → bound ≤ number
  maximum : ∀ bound, Declares readers schema "maximum" bound → number ≤ bound

structure SelectionsFit (schema : Value) (selections : List String) : Prop where
  distinct : selections.Nodup
  count : LengthFits readers schema "minItems" "maxItems" selections.length
  choices : ∀ items choices, schema.get "items" = some items → Offers items "anyOf" choices →
    ∀ selection ∈ selections, selection ∈ choices

/-- The value is of the type of the field and meets its constraints. -/
inductive FieldFits (schema : Value) : Value → Prop where
  | text (htype : schema.getStr "type" = some "string") {text : String}
      (h : TextFits readers schema text) : FieldFits schema (.string text)
  | number (htype : schema.getStr "type" = some "number") {n : Json.Number}
      (h : NumberFits readers schema (readers.f64 n)) : FieldFits schema (.number n)
  | integer (htype : schema.getStr "type" = some "integer") {n : Json.Number}
      (hwhole : (readers.f64 n).den = 1) (h : NumberFits readers schema (readers.f64 n)) :
      FieldFits schema (.number n)
  | flag (htype : schema.getStr "type" = some "boolean") (b : Bool) : FieldFits schema (.bool b)
  | selections (htype : schema.getStr "type" = some "array") {selections : List String}
      (h : SelectionsFit readers schema selections) :
      FieldFits schema (.array (selections.map .string))

end Constraints

/-! ## Bounds and choices as they are read -/

variable {readers : Readers}

private theorem guard_eq_ok {β : Type} {c : Prop} {d : Decidable c} {message : String}
    {next : Unit → ValidationResult β} {b : β}
    (h : (if c then (throw message : ValidationResult Unit) >>= next else next ()) = .ok b) :
    ¬c ∧ next () = .ok b := by
  split at h
  · cases h
  · next hc => exact ⟨hc, h⟩

theorem asF64_eq_some {value : Value} {number : Rat} :
    asF64 readers value = some number ↔ ∃ n, value = .number n ∧ readers.f64 n = number := by
  cases value <;> simp [asF64]

/-- A declared bound is the one that is read, unless the reading fails. -/
theorem optionalSafeLength_of_declares {schema : Value} {key : String} {bound : Nat}
    {length : Option Nat} (h : optionalSafeLength readers (schema.get key) = .ok length)
    (hbound : Declares readers schema key bound) : length = some bound := by
  obtain ⟨n, hkey, hn⟩ := hbound
  rw [optionalSafeLength, hkey] at h
  have hnumber : asF64 readers (.number n) = some (bound : Rat) := asF64_eq_some.mpr ⟨n, rfl, hn⟩
  simp only [Option.filter_some, Value.isNull, Bool.not_false, if_true, hnumber] at h
  split at h
  · next read hread =>
      obtain ⟨-, heq⟩ := Option.ite_none_right_eq_some.mp hread
      cases heq
      cases h
      rw [Rat.num_natCast, Int.toNat_natCast]
  · cases h

theorem optionalFiniteNumber_of_declares {schema : Value} {key name label : String} {bound : Rat}
    {number : Option Rat}
    (h : optionalFiniteNumber readers (schema.get key) name label = .ok number)
    (hbound : Declares readers schema key bound) : number = some bound := by
  obtain ⟨n, hkey, hn⟩ := hbound
  have hnumber : asF64 readers (.number n) = some bound := asF64_eq_some.mpr ⟨n, rfl, hn⟩
  rw [optionalFiniteNumber, hkey] at h
  simp only [Option.filter_some, Value.isNull, Bool.not_false, if_true, hnumber, okOr] at h
  cases h
  rfl

theorem mapM_okOr {read : Value → Option String} {message : String} {items : List Value}
    {texts : List String} (h : items.map read = texts.map some) :
    (items.mapM fun item => okOr message (read item)) = .ok texts := by
  induction items generalizing texts with
  | nil =>
      obtain rfl := List.map_eq_nil_iff.mp h.symm
      rfl
  | cons item items ih =>
      obtain ⟨text, texts, rfl, htext, htexts⟩ := List.map_eq_cons_iff.mp h.symm
      rw [List.mapM_cons, ih htexts.symm, ← htext]
      rfl

/-- Choices that are offered are read. -/
theorem nonEmptyChoices_of_texts {read : Value → Option String} {message : String}
    {items : List Value} {choices : List String} (hne : choices ≠ [])
    (hitems : items.map read = choices.map some) :
    nonEmptyChoices read message (some (.array items)) = .ok (some choices) := by
  have hnonempty : items ≠ [] := by
    rintro rfl
    exact hne (List.map_eq_nil_iff.mp hitems.symm)
  rw [nonEmptyChoices]
  simp only [Option.filter_some, Value.isNull, Bool.not_false, if_true, Value.asArray]
  rw [mapM_okOr hitems]
  rfl

/-- The schema lists its choices under one name at most. -/
def OneSource (schema : Value) (objects : String) : Prop :=
  ∀ enumValues others, allowedChoices schema objects = .ok (enumValues, others) →
    ¬(enumValues.isSome && others.isSome) = true

/-- Of a schema with one list of choices, the choices that are read are those it offers. -/
theorem allowedChoices_of_offers {schema : Value} {objects : String} {choices : List String}
    {enumValues others : Option (List String)}
    (h : allowedChoices schema objects = .ok (enumValues, others))
    (hsource : OneSource schema objects) (hoffers : Offers schema objects choices) :
    (enumValues <|> others) = some choices := by
  have hone := hsource enumValues others h
  unfold allowedChoices at h
  obtain ⟨texts, htexts, h⟩ := bind_eq_ok.mp h
  obtain ⟨constants, hconstants, h⟩ := bind_eq_ok.mp h
  cases h
  cases hoffers with
  | texts hne henum =>
      rw [nonEmptyStringChoices, henum, nonEmptyChoices_of_texts hne (by simp [Value.asStr])]
        at htexts
      cases htexts
      rfl
  | constants hne hobjects hitems =>
      rw [nonEmptyObjectChoices, hobjects, nonEmptyChoices_of_texts hne hitems] at hconstants
      cases hconstants
      cases enumValues with
      | none => rfl
      | some _ => exact absurd rfl hone

/-! ## Checks that accept -/

instance (check : Checked Unit) : Decidable (Accepts check) :=
  inferInstanceAs (Decidable (check.run = some (.ok ())))

section Checks

variable {α : Type}

theorem accepts_result_bind {result : ValidationResult α} {next : α → Checked Unit} :
    Accepts (liftM result >>= next) ↔ ∃ value, result = .ok value ∧ Accepts (next value) := by
  cases result with
  | error message =>
      constructor
      · exact fun h => nomatch Option.some.inj h
      · rintro ⟨_, h, -⟩
        cases h
  | ok value =>
      constructor
      · exact fun h => ⟨value, rfl, h⟩
      · rintro ⟨_, h, hnext⟩
        cases h
        exact hnext

theorem accepts_result {result : ValidationResult Unit} :
    Accepts (liftM result) ↔ result = .ok () := by
  cases result with
  | error message => exact iff_of_false (fun h => nomatch Option.some.inj h) (fun h => nomatch h)
  | ok value => exact iff_of_true rfl rfl

@[simp] theorem not_accepts_throw (message : String) : ¬Accepts (throw message) :=
  fun h => nomatch Option.some.inj h

theorem accepts_seq {check : Checked Unit} {next : Unit → Checked Unit} :
    Accepts (check >>= next) ↔ Accepts check ∧ Accepts (next ()) := by
  rcases hcheck : check.run with _ | message | _
  · obtain rfl : check = ExceptT.mk none := hcheck
    exact iff_of_false (fun h => nomatch h) (fun h => nomatch h.1)
  · obtain rfl : check = ExceptT.mk (some (.error message)) := hcheck
    exact iff_of_false (fun h => nomatch Option.some.inj h) (fun h => nomatch Option.some.inj h.1)
  · obtain rfl : check = ExceptT.mk (some (.ok ())) := hcheck
    exact ⟨fun h => ⟨rfl, h⟩, fun h => h.2⟩

/-- Checks in a row accept when all of them do. -/
theorem accepts_forM {checks : List α} {check : α → Checked Unit} :
    Accepts (checks.forM check) ↔ ∀ item ∈ checks, Accepts (check item) := by
  induction checks with
  | nil => exact iff_of_true rfl (by simp)
  | cons first checks ih =>
      change Accepts (check first >>= fun _ => checks.forM check) ↔ _
      rw [accepts_seq, ih, List.forall_mem_cons]

end Checks

/-! ## Values that are accepted fit -/

section Values

variable {name : String} {value schema : Value}

theorem eq_string_of_asStr {text : String} (h : value.asStr = some text) :
    value = .string text := by
  cases value with
  | string => rw [Value.asStr, Option.some.injEq] at h; rw [h]
  | _ => cases h

theorem eq_array_of_asArray {values : List Value} (h : value.asArray = some values) :
    value = .array values := by
  cases value with
  | array => rw [Value.asArray, Option.some.injEq] at h; rw [h]
  | _ => cases h

theorem textBeforeFormat_fits {text : String}
    (h : textBeforeFormat readers name value schema = .ok text) :
    value = .string text ∧
      LengthFits readers schema "minLength" "maxLength" text.length ∧
      ∀ pattern, schema.getStr "pattern" = some pattern →
        ∃ isMatch, readers.regex pattern = some isMatch ∧ isMatch text = true := by
  unfold textBeforeFormat at h
  obtain ⟨read, hread, h⟩ := bind_eq_ok.mp h
  obtain ⟨minimum, hminimum, h⟩ := bind_eq_ok.mp h
  extract_lets finish afterMaximum afterMinimum at h
  obtain ⟨hshort, h⟩ : (∀ bound ∈ minimum, bound ≤ read.length) ∧ afterMinimum () = .ok text := by
    cases minimum with
    | none => exact ⟨by simp, h⟩
    | some bound =>
        obtain ⟨hshort, h⟩ := guard_eq_ok h
        exact ⟨by simpa using hshort, h⟩
  obtain ⟨maximum, hmaximum, h⟩ := bind_eq_ok.mp h
  obtain ⟨hlong, h⟩ : (∀ bound ∈ maximum, read.length ≤ bound) ∧ afterMaximum () = .ok text := by
    cases maximum with
    | none => exact ⟨by simp, h⟩
    | some bound =>
        obtain ⟨hlong, h⟩ := guard_eq_ok h
        exact ⟨by simpa using hlong, h⟩
  obtain ⟨hpattern, h⟩ : (∀ pattern, schema.getStr "pattern" = some pattern →
      ∃ isMatch, readers.regex pattern = some isMatch ∧ isMatch read = true) ∧
        finish () = .ok text := by
    dsimp -zeta only [afterMaximum] at h
    split at h
    · next pattern hpattern =>
        rw [hpattern]
        extract_lets afterSize at h
        obtain ⟨-, h⟩ := guard_eq_ok h
        obtain ⟨isMatch, hregex, h⟩ := bind_eq_ok.mp h
        obtain ⟨hmatch, h⟩ := guard_eq_ok h
        refine ⟨?_, h⟩
        rintro _ ⟨⟩
        exact ⟨isMatch, okOr_eq_ok.mp hregex, by simpa using hmatch⟩
    · next hnone => exact ⟨fun pattern hpattern => absurd hpattern (hnone pattern), h⟩
  obtain rfl : read = text := Except.ok.inj h
  exact ⟨eq_string_of_asStr (okOr_eq_ok.mp hread),
    ⟨fun bound hbound => hshort bound (optionalSafeLength_of_declares hminimum hbound),
      fun bound hbound => hlong bound (optionalSafeLength_of_declares hmaximum hbound)⟩, hpattern⟩

theorem validateNumber_fits {kind : String}
    (h : validateNumber readers name kind value schema = .ok ()) :
    ∃ n, value = .number n ∧ (kind = "integer" → (readers.f64 n).den = 1) ∧
      NumberFits readers schema (readers.f64 n) := by
  unfold validateNumber at h
  obtain ⟨number, hnumber, h⟩ := bind_eq_ok.mp h
  extract_lets afterMinimum afterKind at h
  obtain ⟨hkind, h⟩ := guard_eq_ok h
  obtain ⟨minimum, hminimum, h⟩ := bind_eq_ok.mp h
  obtain ⟨hlow, h⟩ : (∀ bound ∈ minimum, bound ≤ number) ∧ afterMinimum () = .ok () := by
    cases minimum with
    | none => exact ⟨by simp, h⟩
    | some bound =>
        obtain ⟨hlow, h⟩ := guard_eq_ok h
        exact ⟨by simpa using Rat.not_lt.mp hlow, h⟩
  obtain ⟨maximum, hmaximum, h⟩ := bind_eq_ok.mp h
  have hhigh : ∀ bound ∈ maximum, number ≤ bound := by
    rintro bound rfl
    refine Rat.not_lt.mp fun hlt => ?_
    simp only [if_pos hlt] at h
    cases h
  obtain ⟨n, rfl, rfl⟩ := asF64_eq_some.mp (okOr_eq_ok.mp hnumber)
  refine ⟨n, rfl, fun hinteger => ?_, fun bound hbound => ?_, fun bound hbound => ?_⟩
  · simpa [hinteger] using hkind
  · exact hlow bound (optionalFiniteNumber_of_declares hminimum hbound)
  · exact hhigh bound (optionalFiniteNumber_of_declares hmaximum hbound)

theorem eq_map_string {values : List Value} (h : values.all (·.isString) = true) :
    values = (values.filterMap Value.asStr).map .string := by
  induction values with
  | nil => rfl
  | cons value values ih =>
      obtain ⟨hvalue, hvalues⟩ := Bool.and_eq_true_iff.mp h
      obtain ⟨text, rfl⟩ : ∃ text, value = .string text := by
        cases value with
        | string text => exact ⟨text, rfl⟩
        | _ => cases hvalue
      change .string text :: values =
        .string text :: (values.filterMap Value.asStr).map .string
      rw [← ih hvalues]

theorem validateSelections_fits (hsource : ∀ items, schema.get "items" = some items →
      OneSource items "anyOf") (h : validateSelections readers name value schema = .ok ()) :
    ∃ selections, value = .array (selections.map .string) ∧
      SelectionsFit readers schema selections := by
  unfold validateSelections at h
  obtain ⟨values, hvalues, h⟩ := bind_eq_ok.mp h
  extract_lets strings afterMaximum afterMinimum afterDistinct at h
  obtain ⟨hdistinct, h⟩ := guard_eq_ok h
  obtain ⟨minimum, hminimum, h⟩ := bind_eq_ok.mp h
  obtain ⟨hfew, h⟩ : (∀ bound ∈ minimum, bound ≤ strings.length) ∧
      afterMinimum () = .ok () := by
    cases minimum with
    | none => exact ⟨by simp, h⟩
    | some bound =>
        obtain ⟨hfew, h⟩ := guard_eq_ok h
        exact ⟨by simpa using hfew, h⟩
  obtain ⟨maximum, hmaximum, h⟩ := bind_eq_ok.mp h
  obtain ⟨hmany, h⟩ : (∀ bound ∈ maximum, strings.length ≤ bound) ∧
      afterMaximum () = .ok () := by
    cases maximum with
    | none => exact ⟨by simp, h⟩
    | some bound =>
        obtain ⟨hmany, h⟩ := guard_eq_ok h
        exact ⟨by simpa using hmany, h⟩
  obtain ⟨items, hitems, h⟩ := bind_eq_ok.mp h
  obtain ⟨⟨enumValues, anyOf⟩, hallowed, h⟩ := bind_eq_ok.mp h
  have hknown : ¬((enumValues <|> anyOf).any fun allowed =>
      strings.any fun value => value ∉ allowed) = true := by
    intro hunknown
    simp only [if_pos hunknown] at h
    cases h
  obtain ⟨harray, hstrings⟩ := Option.filter_eq_some_iff.mp (okOr_eq_ok.mp hvalues)
  have hvalue : value = .array (strings.map .string) := by
    rw [eq_array_of_asArray harray]
    exact congrArg _ (eq_map_string hstrings)
  refine ⟨strings, hvalue, Decidable.not_not.mp hdistinct, ⟨fun bound hbound => ?_,
    fun bound hbound => ?_⟩, fun items' choices hitems' hoffers selection hselection => ?_⟩
  · exact hfew bound (optionalSafeLength_of_declares hminimum hbound)
  · exact hmany bound (optionalSafeLength_of_declares hmaximum hbound)
  · obtain rfl : items = items' := by
      rw [okOr_eq_ok.mp hitems] at hitems'
      exact Option.some.inj hitems'
    rw [allowedChoices_of_offers hallowed (hsource items hitems') hoffers] at hknown
    simp only [Option.any_some, List.any_eq_true, decide_eq_true_eq, not_exists, not_and,
      Decidable.not_not] at hknown
    exact hknown selection hselection

/-- A schema of a known type that passed its check. -/
def SchemaChecked (readers : Readers) (schema : Value) : Prop :=
  ∃ name, validateKnownSchema readers name schema = .ok true

theorem ok_of_map {α β : Type} {result : ValidationResult α} {f : α → β} {b : β}
    (h : result.map f = .ok b) : ∃ a, result = .ok a ∧ f a = b := by
  cases result with
  | error => cases h
  | ok a => exact ⟨a, rfl, Except.ok.inj h⟩

/-- The two lists of choices of a schema are read as its check read them. -/
theorem oneSource_of_allowedChoices {objects : String}
    {enumValues others : Option (List String)}
    (h : allowedChoices schema objects = .ok (enumValues, others))
    (hone : ¬(enumValues.isSome && others.isSome) = true) : OneSource schema objects := by
  intro enumValues' others' h'
  rw [h] at h'
  cases h'
  exact hone

theorem oneSource_of_text (hschema : SchemaChecked readers schema)
    (htype : schema.getStr "type" = some "string") : OneSource schema "oneOf" := by
  obtain ⟨name, h⟩ := hschema
  rw [validateKnownSchema, htype] at h
  obtain ⟨checked, htext, -⟩ := ok_of_map h
  unfold validateTextSchema at htext
  obtain ⟨_, -, h⟩ := bind_eq_ok.mp htext
  extract_lets afterPattern at h
  replace h : afterPattern () = .ok checked := by
    split at h
    · obtain ⟨_, -, h⟩ := bind_eq_ok.mp h
      exact h
    · exact h
  obtain ⟨⟨enumValues, oneOf⟩, hallowed, h⟩ := bind_eq_ok.mp h
  exact oneSource_of_allowedChoices hallowed (guard_eq_ok h).1

theorem oneSource_of_selections (hschema : SchemaChecked readers schema)
    (htype : schema.getStr "type" = some "array") {items : Value}
    (hitems : schema.get "items" = some items) : OneSource items "anyOf" := by
  obtain ⟨name, h⟩ := hschema
  rw [validateKnownSchema, htype] at h
  obtain ⟨_, hselections, -⟩ := ok_of_map h
  unfold validateSelectionsSchema at hselections
  obtain ⟨_, -, h⟩ := bind_eq_ok.mp hselections
  obtain ⟨items', hitems', h⟩ := bind_eq_ok.mp h
  obtain ⟨⟨enumValues, anyOf⟩, hallowed, h⟩ := bind_eq_ok.mp h
  obtain rfl : items' = items := by
    rw [okOr_eq_ok.mp hitems'] at hitems
    exact Option.some.inj hitems
  exact oneSource_of_allowedChoices hallowed (guard_eq_ok h).1

theorem checkFormat_fits {text : String} (h : Accepts (checkFormat readers name text schema)) :
    ∀ format, schema.getStr "format" = some format →
      matchesFormat readers text format = some true := by
  intro format hformat
  rw [checkFormat, hformat] at h
  cases hmatch : matchesFormat readers text format with
  | none =>
      simp only [hmatch] at h
      cases h
  | some isMatch =>
      cases isMatch with
      | true => rfl
      | false =>
          simp only [hmatch] at h
          exact absurd h (not_accepts_throw _)

theorem checkAllowed_fits {text : String} (hsource : OneSource schema "oneOf")
    (h : checkAllowed name text schema = .ok ()) :
    ∀ choices, Offers schema "oneOf" choices → text ∈ choices := by
  intro choices hoffers
  unfold checkAllowed at h
  obtain ⟨⟨enumValues, oneOf⟩, hallowed, h⟩ := bind_eq_ok.mp h
  simp only [allowedChoices_of_offers hallowed hsource hoffers, Option.any_some,
    decide_eq_true_eq] at h
  by_contra hnot
  rw [if_pos hnot] at h
  cases h

/-- A value that a checked field accepts fits the field. -/
theorem validateField_fits (hschema : SchemaChecked readers schema)
    (h : Accepts (validateField readers name value schema)) :
    FieldFits readers schema value := by
  unfold validateField at h
  split at h
  · next htype =>
      obtain ⟨text, htext, h⟩ := accepts_result_bind.mp h
      obtain ⟨hformat, hallowed⟩ := accepts_seq.mp h
      obtain ⟨rfl, hlength, hpattern⟩ := textBeforeFormat_fits htext
      exact .text htype ⟨hlength, hpattern, checkFormat_fits hformat,
        checkAllowed_fits (oneSource_of_text hschema htype) (accepts_result.mp hallowed)⟩
  · next htype =>
      obtain ⟨n, rfl, -, hnumber⟩ := validateNumber_fits (accepts_result.mp h)
      exact .number htype hnumber
  · next htype =>
      obtain ⟨n, rfl, hwhole, hnumber⟩ := validateNumber_fits (accepts_result.mp h)
      exact .integer htype (hwhole rfl) hnumber
  · next htype =>
      split at h
      · next hbool =>
          obtain ⟨b, hb⟩ := Option.isSome_iff_exists.mp hbool
          cases value with
          | bool b => exact .flag htype b
          | _ => cases hb
      · exact absurd h (not_accepts_throw _)
  · next htype =>
      obtain ⟨selections, rfl, hselections⟩ := validateSelections_fits
        (fun items => oneSource_of_selections hschema htype) (accepts_result.mp h)
      exact .selections htype hselections
  · exact absurd h (not_accepts_throw _)
  · exact absurd h (not_accepts_throw _)

end Values

/-! ## Forms and the answers to them -/

/-- The schema of a form declares a field. -/
def HasField (schema : Value) (name : String) (field : Value) : Prop :=
  ∃ properties, schema.get "properties" = some properties ∧ properties.get name = some field

/-- The types a field may have. -/
def fieldTypes : List String := ["string", "number", "integer", "boolean", "array"]

/-- An answer gives a field a value. -/
def Gives (response : Value) (name : String) (value : Value) : Prop :=
  ∃ content, response.get "content" = some content ∧ content.get name = some value

/-- What an accepted answer to a form promises. -/
structure AnswerFits (readers : Readers) (schema response : Value) : Prop where
  required : ∀ required : List String, schema.get "required" = some (.array (required.map .string)) →
    ∀ name ∈ required, ∃ value, Gives response name value
  fits : ∀ name value, Gives response name value →
    ∃ field, HasField schema name field ∧ FieldFits readers field value

variable {schema request response : Value}

theorem mem_members (horder : ∀ object key, (object.get key).isSome = true →
      key ∈ readers.order object) {object value : Value} {key : String}
    (h : object.get key = some value) : (key, value) ∈ members readers object := by
  refine List.mem_filterMap.mpr ⟨key, horder object key (by rw [h]; rfl), ?_⟩
  rw [h]
  rfl

theorem schemaProperties_get {properties field : Value} {name : String}
    (h : schemaProperties schema = .ok properties) :
    properties.get name = some field ↔ HasField schema name field := by
  have hnull {value : Value} (hvalue : value.isNull = true) : value.get name = none := by
    cases value <;> first | rfl | cases hvalue
  unfold schemaProperties at h
  split at h
  · next hnone =>
      cases h
      refine iff_of_false (by simp) ?_
      rintro ⟨value, hvalue, hget⟩
      rw [hvalue, Option.filter_some] at hnone
      split at hnone
      · cases hnone
      · next hvalue' =>
          rw [hnull (by simpa using hvalue')] at hget
          cases hget
  · next value hsome =>
      obtain ⟨hvalue, -⟩ := Option.filter_eq_some_iff.mp hsome
      split at h
      · cases h
        exact ⟨fun hget => ⟨_, hvalue, hget⟩, fun ⟨other, hother, hget⟩ =>
          Option.some.inj (hvalue.symm.trans hother) ▸ hget⟩
      · cases h

/-- Every field of an accepted schema that a value can be given to was checked. -/
theorem validateSchema_checked (horder : ∀ object key, (object.get key).isSome = true →
      key ∈ readers.order object) (h : Accepts (validateSchema readers schema)) {name : String}
    {field : Value} (hfield : HasField schema name field) :
    Accepts (validatePropertySchema readers name field) := by
  obtain ⟨properties, hproperties, h⟩ := accepts_result_bind.mp h
  obtain ⟨_, -, h⟩ := accepts_result_bind.mp h
  obtain ⟨_, -, h⟩ := accepts_result_bind.mp h
  have hget := (schemaProperties_get hproperties).mpr hfield
  have hproperty := accepts_forM.mp h (name, field) (mem_members horder hget)
  unfold validateProperty at hproperty
  split at hproperty
  · exact absurd hproperty (not_accepts_throw _)
  · exact hproperty

theorem stringArray_of_texts {subject : String} {texts : List String}
    (h : schema.get "required" = some (.array (texts.map .string))) :
    stringArray (schema.get "required") subject = .ok texts := by
  rw [stringArray, h]
  simp only [Option.filter_some, Value.isNull, Bool.not_false, if_true, Value.asArray]
  exact mapM_okOr (by simp [Value.asStr])

/-- A loop that throws at a missing name ends only if no name is missing. -/
theorem forIn_required {content : Value} {message : String → String} {required : List String}
    {s : PUnit} (h : (forIn required PUnit.unit fun name _ =>
      if (content.get name).isNone = true then do
        (throw (message name) : ValidationResult Unit)
        pure (ForInStep.yield PUnit.unit)
      else pure (ForInStep.yield PUnit.unit)) = Except.ok s) :
    ∀ name ∈ required, ∃ value, content.get name = some value := by
  induction required with
  | nil => simp
  | cons name required ih =>
      rw [List.forIn_cons] at h
      obtain ⟨step, hstep, h⟩ := bind_eq_ok.mp h
      split at hstep
      · cases hstep
      · next hname =>
          cases hstep
          refine List.forall_mem_cons.mpr ⟨?_, ih h⟩
          exact Option.ne_none_iff_exists'.mp (by simpa using hname)

/-- The content of a response is read as the object it is, or as an empty one. -/
theorem get_content {content : Value}
    (h : content = ((response.get "content").filter (!·.isNull)).getD .empty) (name : String)
    (value : Value) : content.get name = some value ↔ Gives response name value := by
  unfold Gives
  subst h
  cases hcontent : response.get "content" with
  | none => simp
  | some object =>
      rw [Option.filter_some]
      split
      · simp
      · next hnull =>
          have hget : object.get name = none := by
            cases object <;> first | rfl | exact absurd rfl hnull
          simp [hget]

/-- What is checked of the answer to a form before its fields. -/
theorem acceptedContent_eq_ok (hform : request.getStr "mode" = some "form")
    {result : Option (Value × Value)} (h : acceptedContent request response = .ok result) :
    (response.getStr "action" ∈ [some "decline", some "cancel"] ∧
      (∀ name value, ¬Gives response name value) ∧ result = none) ∨
    response.getStr "action" = some "accept" ∧ ∃ schema properties content required,
      request.get "requestedSchema" = some schema ∧ schemaProperties schema = .ok properties ∧
      (∀ name value, content.get name = some value ↔ Gives response name value) ∧
      stringArray (schema.get "required") "Elicitation schema required" = .ok required ∧
      (∀ name ∈ required, ∃ value, content.get name = some value) ∧
      result = some (properties, content) := by
  unfold acceptedContent at h
  obtain ⟨action, haction, h⟩ := bind_eq_ok.mp h
  replace haction : response.getStr "action" = some action := okOr_eq_ok.mp haction
  extract_lets content declined visited afterAction at h
  obtain ⟨hknown, h⟩ := guard_eq_ok h
  change (if _ then _ else _) = _ at h
  split at h
  · next hother =>
      left
      obtain ⟨hcontent, h⟩ := guard_eq_ok h
      refine ⟨?_, fun name value hgives => ?_, (Except.ok.inj h).symm⟩
      · rw [haction]
        simp only [List.mem_cons, List.not_mem_nil, or_false, not_not] at hknown
        simpa [hother] using hknown
      · have hnone : content = none := by simpa using hcontent
        have hget := (get_content rfl name value).mpr hgives
        rw [show (response.get "content").filter (!·.isNull) = none from hnone] at hget
        simp at hget
  · next haccept =>
      right
      have heq : action = "accept" := by simpa using haccept
      rw [hform, if_neg (by decide)] at h
      obtain ⟨schema, hschema, h⟩ := bind_eq_ok.mp h
      obtain ⟨properties, hproperties, h⟩ := bind_eq_ok.mp h
      extract_lets afterContent at h
      have h : afterContent (content.getD .empty) = .ok result := by
        obtain ⟨read, hread⟩ : ∃ read, read = content := ⟨_, rfl⟩
        rw [← hread] at h ⊢
        cases read with
        | none => exact h
        | some value =>
            change (if _ then _ else _) = _ at h
            split at h
            · exact h
            · cases h
      obtain ⟨required, hrequired, h⟩ := bind_eq_ok.mp h
      obtain ⟨_, hloop, h⟩ := bind_eq_ok.mp h
      exact ⟨heq ▸ haction, schema, properties, _, required, okOr_eq_ok.mp hschema, hproperties,
        get_content rfl, hrequired, forIn_required hloop, (Except.ok.inj h).symm⟩

theorem known_of_type {name kind : String} {field : Value} {known : Bool}
    (hkind : kind ∈ fieldTypes) (htype : field.getStr "type" = some kind)
    (h : validateKnownSchema readers name field = .ok known) : known = true := by
  rw [validateKnownSchema, htype] at h
  simp only [fieldTypes, List.mem_cons, List.not_mem_nil, or_false] at hkind
  rcases hkind with rfl | rfl | rfl | rfl | rfl
  · exact (ok_of_map h).choose_spec.2.symm
  · exact (ok_of_map h).choose_spec.2.symm
  · exact (ok_of_map h).choose_spec.2.symm
  · exact (Except.ok.inj h).symm
  · exact (ok_of_map h).choose_spec.2.symm

/-- Only fields of a known type accept values. -/
theorem type_of_accepts {name : String} {field value : Value}
    (h : Accepts (validateField readers name value field)) :
    ∃ kind ∈ fieldTypes, field.getStr "type" = some kind := by
  unfold validateField at h
  split at h
  · next htype => exact ⟨_, by simp [fieldTypes], htype⟩
  · next htype => exact ⟨_, by simp [fieldTypes], htype⟩
  · next htype => exact ⟨_, by simp [fieldTypes], htype⟩
  · next htype => exact ⟨_, by simp [fieldTypes], htype⟩
  · next htype => exact ⟨_, by simp [fieldTypes], htype⟩
  · exact absurd h (not_accepts_throw _)
  · exact absurd h (not_accepts_throw _)

/-- A field of an unknown type is declared but accepts no value. -/
theorem schemaChecked_of_accepts {name : String} {field value : Value}
    (hchecked : Accepts (validatePropertySchema readers name field))
    (h : Accepts (validateField readers name value field)) : SchemaChecked readers field := by
  obtain ⟨known, hknown, -⟩ := accepts_result_bind.mp hchecked
  obtain ⟨kind, hkind, htype⟩ := type_of_accepts h
  obtain rfl : known = true := known_of_type hkind htype hknown
  exact ⟨name, hknown⟩

/-- For an accepted form every default passes the check of an answer to its field, and an accepted
answer gives every required field, no field that is not declared, and values that fit. A `null`
declares no default. -/
theorem accepted_form_answers (readers : Readers)
    (horder : ∀ object key, (object.get key).isSome = true → key ∈ readers.order object)
    (request : Value) (haccepts : Accepts (validateElicitationRequestValue readers request))
    (hform : request.getStr "mode" = some "form") :
    ∃ schema, request.get "requestedSchema" = some schema ∧
      (∀ name field default, HasField schema name field →
        (∃ kind ∈ fieldTypes, field.getStr "type" = some kind) →
        field.get "default" = some default → default ≠ .null →
        Accepts (validateField readers name default field)) ∧
      ∀ response, Accepts (validateElicitationResponseValue readers request response) →
        (response.getStr "action" = some "accept" ∧ AnswerFits readers schema response) ∨
        (response.getStr "action" ∈ [some "decline", some "cancel"] ∧
          ∀ name value, ¬Gives response name value) := by
  obtain ⟨_, -, haccepts⟩ := accepts_result_bind.mp haccepts
  rw [hform] at haccepts
  obtain ⟨schema, hschema, haccepts⟩ := accepts_result_bind.mp haccepts
  refine ⟨schema, okOr_eq_ok.mp hschema, fun name field default hfield hkind hdefault hne => ?_,
    fun response hresponse => ?_⟩
  · obtain ⟨kind, hkind, htype⟩ := hkind
    obtain ⟨known, hknown, h⟩ := accepts_result_bind.mp
      (validateSchema_checked horder haccepts hfield)
    obtain rfl : known = true := known_of_type hkind htype hknown
    have hpresent : (field.get "default").filter (!·.isNull) = some default := by
      rw [hdefault, Option.filter_some, if_pos]
      cases default <;> first | rfl | exact absurd rfl hne
    rw [hpresent] at h
    exact h
  · obtain ⟨checked, hchecked, hfields⟩ := accepts_result_bind.mp hresponse
    rcases acceptedContent_eq_ok hform hchecked with ⟨hother, hnone, rfl⟩ |
      ⟨haccept, schema', properties, content, required, hschema', hproperties, hgives, hrequired,
        hpresent, rfl⟩
    · exact .inr ⟨hother, hnone⟩
    obtain rfl : schema = schema' :=
      Option.some.inj ((okOr_eq_ok.mp hschema).symm.trans hschema')
    refine .inl ⟨haccept, fun texts htexts name hname => ?_, fun name value hvalue => ?_⟩
    · rw [stringArray_of_texts htexts] at hrequired
      obtain ⟨value, hvalue⟩ := hpresent name (Except.ok.inj hrequired ▸ hname)
      exact ⟨value, (hgives name value).mp hvalue⟩
    · have hget := (hgives name value).mpr hvalue
      have hanswer := accepts_forM.mp hfields (name, value) (mem_members horder hget)
      obtain ⟨field, hfield, h⟩ := accepts_result_bind.mp hanswer
      have hhas := (schemaProperties_get hproperties).mp (okOr_eq_ok.mp hfield)
      exact ⟨field, hhas, validateField_fits
        (schemaChecked_of_accepts (validateSchema_checked horder haccepts hhas) h) h⟩

/-- How many seats, and two by default. -/
def seatsField : Value :=
  .ofFields [("type", .string "integer"), ("minimum", .ofNat 1), ("maximum", .ofNat 4),
    ("default", .ofNat 2)]

/-- A form that asks for a consent, a name, a number of seats and the meals. -/
def consentRequest : Value :=
  .ofFields [("sessionId", .string "s"), ("mode", .string "form"), ("message", .string "Agree?"),
    ("requestedSchema", .ofFields [("type", .string "object"),
      ("properties", .ofFields
        [("agree", .ofFields [("type", .string "boolean"), ("default", .bool true)]),
          ("name", .ofFields [("type", .string "string"), ("minLength", .ofNat 1),
            ("maxLength", .ofNat 8)]),
          ("seats", seatsField),
          ("meals", .ofFields [("type", .string "array"), ("maxItems", .ofNat 2),
            ("items", .ofFields [("type", .string "string"),
              ("enum", .array [.string "soup", .string "fish", .string "cake"])])])]),
      ("required", .array [.string "agree", .string "name"])])]

def consentResponse : Value :=
  .ofFields [("action", .string "accept"),
    ("content", .ofFields [("agree", .bool true), ("name", .string "Ada"), ("seats", .ofNat 4),
      ("meals", .array [.string "cake", .string "soup"])])]

/-- Names in order, by a sort that runs by structural recursion. -/
def sortedNames (names : Finset String) : List String :=
  Quotient.liftOn names.val (List.insertionSort (· ≤ ·)) fun a b hab =>
    ((List.perm_insertionSort (· ≤ ·) a).trans
      (hab.trans (List.perm_insertionSort (· ≤ ·) b).symm)).eq_of_sortedLE
        List.sortedLE_insertionSort List.sortedLE_insertionSort

theorem mem_sortedNames {names : Finset String} {name : String} :
    name ∈ sortedNames names ↔ name ∈ names := by
  obtain ⟨names, hnames⟩ := names
  induction names using Quotient.inductionOn with
  | h names => exact List.mem_insertionSort (· ≤ ·)

/-- A library without patterns and URLs, which reads whole numbers and lists the members of objects
by name. -/
def sortingReaders : Readers where
  regex _ := none
  url _ := none
  f64
    | .int n => n
    | .float _ => 0
  order object := sortedNames object.keys

theorem mem_order_sortingReaders (object : Value) (key : String)
    (h : (object.get key).isSome = true) : key ∈ sortingReaders.order object := by
  refine mem_sortedNames.mpr ?_
  cases object with
  | object keys field =>
      obtain ⟨value, hvalue⟩ := Option.isSome_iff_exists.mp h
      exact Value.mem_keys_of_get hvalue
  | _ => cases h

/-- The default of the seats is an answer, and an answer with every field fits. -/
theorem accepted_form_answers_consent :
    Accepts (validateField sortingReaders "seats" (.ofNat 2) seatsField) ∧
      ∃ schema, consentRequest.get "requestedSchema" = some schema ∧
        AnswerFits sortingReaders schema consentResponse := by
  obtain ⟨schema, hschema, hdefaults, hanswers⟩ := accepted_form_answers sortingReaders
    mem_order_sortingReaders consentRequest (by decide +kernel) (by decide +kernel)
  have hfield : HasField schema "seats" seatsField := by
    obtain rfl := Option.some.inj hschema
    exact ⟨_, rfl, by decide +kernel⟩
  refine ⟨hdefaults "seats" seatsField (.ofNat 2) hfield ⟨"integer", by decide, by decide +kernel⟩
    (by decide +kernel) (by decide +kernel), schema, hschema, ?_⟩
  rcases hanswers consentResponse (by decide +kernel) with ⟨-, hfits⟩ | ⟨hother, -⟩
  · exact hfits
  · exact absurd hother (by decide +kernel)

end Attyd.Elicitation
