import Attyd.Elicitation.Formats

/-!
# The validation of elicitations

An elicitation request is validated before it is shown, and the answer against the request. A
field of a form has a schema; a default value is checked as an answer would be.

## Implementation notes

`Checked` is a validation that may panic: `none` is a panic, and a validation that returns has
accepted or has an error text. Validators that cut no text are plain results.
-/

namespace Attyd.Elicitation

open Json (Value)

abbrev ValidationResult := Except String

abbrev Checked := ExceptT String Option

/-- The value, or the error text for none. -/
def okOr {α : Type} (message : String) : Option α → ValidationResult α
  | some value => .ok value
  | none => .error message

def maxSafeInteger : Rat := 9007199254740991

/-- The number of UTF-16 code units of a text. -/
def jsLen (value : String) : Nat :=
  (value.toList.map fun c => if c.toNat < 0x10000 then 1 else 2).sum

/-- White space as Unicode defines it. -/
def isWhitespace (c : Char) : Bool :=
  let n := c.toNat
  (9 ≤ n && n ≤ 13) || n == 0x20 || n == 0x85 || n == 0xa0 || n == 0x1680 ||
    (0x2000 ≤ n && n ≤ 0x200a) || n == 0x2028 || n == 0x2029 || n == 0x202f || n == 0x205f ||
    n == 0x3000

section Members

variable (readers : Readers)

def asF64 : Value → Option Rat
  | .number n => some (readers.f64 n)
  | _ => none

/-- The members of an object in order. -/
def members (value : Value) : List (String × Value) :=
  (readers.order value).filterMap fun key => (value.get key).map fun member => (key, member)

def optionalFiniteNumber (value : Option Value) (name label : String) :
    ValidationResult (Option Rat) :=
  match value.filter (!·.isNull) with
  | none => .ok none
  | some value =>
      (okOr s!"Elicitation field {name} has a non-finite {label}" (asF64 readers value)).map some

def optionalSafeLength (value : Option Value) : ValidationResult (Option Nat) :=
  match value.filter (!·.isNull) with
  | none => .ok none
  | some value =>
      match (asF64 readers value).filter fun length =>
          0 ≤ length && length.den == 1 && length ≤ maxSafeInteger with
      | some length => .ok (some length.num.toNat)
      | none => .error "invalid non-negative safe integer"

end Members

def invalidType (name expected : String) : String :=
  s!"Elicitation field {name} must be {expected}"

def requiredString (value : Value) (field subject : String) : ValidationResult String :=
  okOr s!"{subject} is missing {field}" (value.getStr field)

def stringArray (value : Option Value) (subject : String) : ValidationResult (List String) :=
  match value.filter (!·.isNull) with
  | none => .ok []
  | some value =>
      match value.asArray with
      | none => .error s!"{subject} must be an array"
      | some items =>
          items.mapM fun item => okOr s!"{subject} must contain strings" item.asStr

/-- The texts of a list of choices; an empty list offers none. -/
def nonEmptyChoices (read : Value → Option String) (message : String) (value : Option Value) :
    ValidationResult (Option (List String)) :=
  match value.filter (!·.isNull) with
  | none => .ok none
  | some value =>
      match value.asArray with
      | none => .error "Elicitation choices must be an array"
      | some [] => .ok none
      | some items => (items.mapM fun item => okOr message (read item)).map some

def nonEmptyStringChoices (value : Option Value) : ValidationResult (Option (List String)) :=
  nonEmptyChoices Value.asStr "Elicitation choices must be strings" value

def nonEmptyObjectChoices (value : Option Value) (field : String) :
    ValidationResult (Option (List String)) :=
  nonEmptyChoices (·.getStr field) "Elicitation choices must contain string constants" value

def validateChoices (name : String) : Option (List String) → ValidationResult Unit
  | none => .ok ()
  | some choices =>
      if choices.Nodup then .ok ()
      else .error s!"Elicitation field {name} has duplicate choices"

def validateLengthBounds (readers : Readers) (name : String) (minimum maximum : Option Value) :
    ValidationResult Unit := do
  let minimum ← (optionalSafeLength readers minimum).mapError fun _ =>
    s!"Elicitation field {name} has an invalid minimum length"
  let maximum ← (optionalSafeLength readers maximum).mapError fun _ =>
    s!"Elicitation field {name} has an invalid maximum length"
  match minimum, maximum with
  | some minimum, some maximum =>
      if maximum < minimum then throw s!"Elicitation field {name} has inverted length bounds"
  | _, _ => pure ()

/-! ## Patterns -/

def hasBackReference : List Char → Bool
  | c :: d :: source => (c = '\\' && '1' ≤ d && d ≤ '9') || hasBackReference (d :: source)
  | _ => false

/-- Where the scan of a pattern stands: the open groups, innermost first, each complex or not,
whether it is in a class or behind a backslash, and the group that was just closed. -/
structure PatternScan where
  stack : List Bool
  inClass : Bool
  escaped : Bool
  closedGroup : Option Bool

def PatternScan.markComplex (scan : PatternScan) : PatternScan :=
  match scan.stack with
  | _ :: stack => { scan with stack := true :: stack }
  | [] => scan

/-- The scan of a pattern from a character on. -/
def scanPattern (scan : PatternScan) : List Char → Bool
  | [] => false
  | c :: later =>
      if scan.escaped then scanPattern { scan with escaped := false, closedGroup := none } later
      else if c = '\\' then
        scanPattern { scan with escaped := true, closedGroup := none } later
      else if c = '[' && !scan.inClass then
        scanPattern { scan with inClass := true, closedGroup := none } later
      else if c = ']' && scan.inClass then scanPattern { scan with inClass := false } later
      else if scan.inClass then scanPattern scan later
      else if c = '(' && later[0]? = some '?' && later[1]? ≠ some ':' then true
      else if c = '(' then
        scanPattern { scan with stack := false :: scan.stack, closedGroup := none } later
      else
        match decide (c = ')'), scan.stack with
        | true, group :: parent :: stack =>
            scanPattern
              { scan with stack := (parent || group) :: stack, closedGroup := some group } later
        | _, _ =>
            if c = '*' || c = '+' || c = '{' then
              if scan.closedGroup = some true then true
              else scanPattern { scan.markComplex with closedGroup := none } later
            else
              let scan := if c = '|' then scan.markComplex else scan
              scanPattern
                (if isWhitespace c then scan else { scan with closedGroup := none }) later

def hasUnsafeQuantifiedGroup (source : List Char) : Bool :=
  scanPattern ⟨[false], false, false, none⟩ source

def validateSafePattern (readers : Readers) (name source : String) : ValidationResult Unit :=
  if (readers.regex source).isNone then
    .error s!"Elicitation field {name} has an invalid schema pattern"
  else if hasBackReference source.toList || hasUnsafeQuantifiedGroup source.toList then
    .error s!"Elicitation field {name} has an unsafe schema pattern"
  else .ok ()

/-! ## Fields -/

/-- What a text is held against before its format: its length and its pattern. -/
def textBeforeFormat (readers : Readers) (name : String) (value schema : Value) :
    ValidationResult String := do
  let text ← okOr (invalidType name "string") value.asStr
  if let some minimum ← optionalSafeLength readers (schema.get "minLength") then
    if text.length < minimum then
      throw s!"Elicitation field {name} is shorter than minLength"
  if let some maximum ← optionalSafeLength readers (schema.get "maxLength") then
    if maximum < text.length then
      throw s!"Elicitation field {name} is longer than maxLength"
  if let some pattern := schema.getStr "pattern" then
    if 10000 < jsLen text then
      throw s!"Elicitation field {name} is too long for pattern validation"
    let isMatch ← okOr s!"Elicitation field {name} has an invalid schema pattern"
      (readers.regex pattern)
    if !isMatch text then
      throw s!"Elicitation field {name} does not match pattern"
  return text

/-- The choices of a schema, under either of two names. -/
def allowedChoices (schema : Value) (objects : String) :
    ValidationResult (Option (List String) × Option (List String)) := do
  let enumValues ← nonEmptyStringChoices (schema.get "enum")
  let others ← nonEmptyObjectChoices (schema.get objects) "const"
  return (enumValues, others)

def checkFormat (readers : Readers) (name text : String) (schema : Value) : Checked Unit :=
  match schema.getStr "format" with
  | some format => do
      let isMatch ← ExceptT.lift (matchesFormat readers text format)
      if isMatch then pure () else throw s!"Elicitation field {name} is not a valid {format}"
  | none => pure ()

def checkAllowed (name text : String) (schema : Value) : ValidationResult Unit := do
  let (enumValues, oneOf) ← allowedChoices schema "oneOf"
  if (enumValues <|> oneOf).any fun allowed => text ∉ allowed then
    throw s!"Elicitation field {name} is not an allowed value"

def validateText (readers : Readers) (name : String) (value schema : Value) : Checked Unit := do
  let text ← textBeforeFormat readers name value schema
  checkFormat readers name text schema
  checkAllowed name text schema

def validateNumber (readers : Readers) (name kind : String) (value schema : Value) :
    ValidationResult Unit := do
  let number ← okOr (invalidType name kind) (asF64 readers value)
  if kind = "integer" && number.den != 1 then
    throw (invalidType name "integer")
  if let some minimum ← optionalFiniteNumber readers (schema.get "minimum") name "minimum" then
    if number < minimum then
      throw s!"Elicitation field {name} is below minimum"
  if let some maximum ← optionalFiniteNumber readers (schema.get "maximum") name "maximum" then
    if maximum < number then
      throw s!"Elicitation field {name} is above maximum"

def validateSelections (readers : Readers) (name : String) (value schema : Value) :
    ValidationResult Unit := do
  let values ← okOr (invalidType name "string array")
    (value.asArray.filter fun values => values.all (·.isString))
  let strings := values.filterMap Value.asStr
  if ¬strings.Nodup then
    throw s!"Elicitation field {name} contains duplicate selections"
  if let some minimum ← optionalSafeLength readers (schema.get "minItems") then
    if strings.length < minimum then
      throw s!"Elicitation field {name} has too few selections"
  if let some maximum ← optionalSafeLength readers (schema.get "maxItems") then
    if maximum < strings.length then
      throw s!"Elicitation field {name} has too many selections"
  let items ← okOr s!"Elicitation field {name} is missing items" (schema.get "items")
  let (enumValues, anyOf) ← allowedChoices items "anyOf"
  if (enumValues <|> anyOf).any fun allowed => strings.any fun value => value ∉ allowed then
    throw s!"Elicitation field {name} contains an unknown selection"

def validateField (readers : Readers) (name : String) (value schema : Value) : Checked Unit :=
  match schema.getStr "type" with
  | some "string" => validateText readers name value schema
  | some "number" => validateNumber readers name "number" value schema
  | some "integer" => validateNumber readers name "integer" value schema
  | some "boolean" =>
      if value.asBool.isSome then pure () else throw (invalidType name "boolean")
  | some "array" => validateSelections readers name value schema
  | some kind => throw s!"Unsupported elicitation field type for {name}: {kind}"
  | none => throw s!"Unsupported elicitation field type for {name}: missing"

/-! ## Schemas -/

def validateTextSchema (readers : Readers) (name : String) (schema : Value) :
    ValidationResult Unit := do
  validateLengthBounds readers name (schema.get "minLength") (schema.get "maxLength")
  if let some pattern := schema.getStr "pattern" then
    validateSafePattern readers name pattern
  let (enumValues, oneOf) ← allowedChoices schema "oneOf"
  if enumValues.isSome && oneOf.isSome then
    throw s!"Elicitation field {name} defines both enum and oneOf"
  validateChoices name (enumValues <|> oneOf)

def validateNumberSchema (readers : Readers) (name : String) (schema : Value) :
    ValidationResult Unit := do
  let minimum ← optionalFiniteNumber readers (schema.get "minimum") name "minimum"
  let maximum ← optionalFiniteNumber readers (schema.get "maximum") name "maximum"
  match minimum, maximum with
  | some minimum, some maximum =>
      if maximum < minimum then
        throw s!"Elicitation field {name} has inverted numeric bounds"
  | _, _ => pure ()

def validateSelectionsSchema (readers : Readers) (name : String) (schema : Value) :
    ValidationResult Unit := do
  validateLengthBounds readers name (schema.get "minItems") (schema.get "maxItems")
  let items ← okOr s!"Elicitation field {name} is missing items" (schema.get "items")
  let (enumValues, anyOf) ← allowedChoices items "anyOf"
  if enumValues.isSome && anyOf.isSome then
    throw s!"Elicitation field {name} defines both enum and anyOf"
  validateChoices name (enumValues <|> anyOf)

/-- Whether a schema is of a known type, whose default value is checked next. -/
def validateKnownSchema (readers : Readers) (name : String) (schema : Value) :
    ValidationResult Bool :=
  match schema.getStr "type" with
  | some "string" => (validateTextSchema readers name schema).map fun _ => true
  | some "number" | some "integer" =>
      (validateNumberSchema readers name schema).map fun _ => true
  | some "array" => (validateSelectionsSchema readers name schema).map fun _ => true
  | some "boolean" => .ok true
  | _ => .ok false

def validatePropertySchema (readers : Readers) (name : String) (schema : Value) :
    Checked Unit := do
  if ← validateKnownSchema readers name schema then
    if let some default := (schema.get "default").filter (!·.isNull) then
      validateField readers name default schema

/-- The properties of a schema; a schema without any has none. -/
def schemaProperties (schema : Value) : ValidationResult Value :=
  match (schema.get "properties").filter (!·.isNull) with
  | none => .ok .empty
  | some value =>
      if value.isObject then .ok value
      else .error "Form elicitation schema properties must be an object"

/-- The required fields, after those that were seen, are distinct properties. -/
def validateRequired (properties : Value) : List String → List String → ValidationResult Unit
  | _, [] => .ok ()
  | unique, name :: required =>
      if name ∈ unique then .error "Elicitation schema contains duplicate required fields"
      else if (properties.get name).isNone then
        .error s!"Elicitation schema requires an unknown field: {name}"
      else validateRequired properties (name :: unique) required

def validateProperty (readers : Readers) (property : String × Value) : Checked Unit :=
  if property.1 = "" then throw "Elicitation schema contains an invalid field name"
  else validatePropertySchema readers property.1 property.2

def validateSchema (readers : Readers) (schema : Value) : Checked Unit := do
  let properties ← schemaProperties schema
  let required ← stringArray (schema.get "required") "Elicitation schema required"
  validateRequired properties [] required
  (members readers properties).forM (validateProperty readers)

end Attyd.Elicitation
