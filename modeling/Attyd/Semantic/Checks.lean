import Attyd.Elicitation.Validation
import Attyd.Library.Base64

/-!
# The checks of session updates

Each field of an update is checked by itself: content blocks, paths, commands, controls, usage.
None of these checks reads or changes what is tracked of a session.

## Implementation notes

Media types, URLs and the doubles of numbers are read by parameters; a double read from JSON is
finite. The serialization of a JSON tree cannot fail.
-/

namespace Attyd.Semantic

open Json (Value)
open Elicitation (ValidationResult okOr jsLen)

/-- How the libraries read formats: a media type as its family and subtype, whether a text is a
URL, and a number as its double. -/
structure Formats where
  mime : String → Option (String × String)
  url : String → Bool
  f64 : Json.Number → Rat

def maxSafeInteger : Nat := 9007199254740991

def maxToolLocationLine : Nat := 2 ^ 32 - 1

def requiredString (value : Value) (field subject : String) : ValidationResult String :=
  okOr s!"{subject} {field} must be a string" (value.getStr field)

def optionalString (value : Value) (field subject : String) :
    ValidationResult (Option String) :=
  match value.get field with
  | none | some .null => .ok none
  | some (.string text) => .ok (some text)
  | some _ => .error s!"{subject} {field} must be a string or null"

def validateIdentifier (value label : String) : ValidationResult Unit :=
  if value = "" then .error s!"{label} must not be empty" else .ok ()

/-- A named member that must be a text and not empty. -/
def requiredIdentifier (value : Value) (field subject label : String) :
    ValidationResult String := do
  let id ← requiredString value field subject
  validateIdentifier id label
  pure id

def validateNonEmptyLabel (value label : String) : ValidationResult Unit :=
  validateIdentifier value label

/-- An array, walked item by item. -/
def requiredArray (value : Option Value) (message : String) : ValidationResult (List Value) :=
  okOr message (value.bind Value.asArray)

section Content

variable (formats : Formats)

def asF64 : Value → Option Rat
  | .number n => some (formats.f64 n)
  | _ => none

def validateAnnotations (annotations : Option Value) (subject : String) :
    ValidationResult Unit := do
  match annotations.filter (!·.isNull) with
  | none => pure ()
  | some annotations =>
      if !annotations.isObject then throw s!"{subject} must be an object"
      match (annotations.get "priority").filter (!·.isNull) with
      | some priority =>
          if (asF64 formats priority).isNone then throw s!"{subject} priority must be finite"
      | none => pure ()
      match (annotations.get "lastModified").filter (!·.isNull) with
      | some timestamp =>
          if !timestamp.isString then
            throw s!"{subject} last-modified timestamp must be a string"
      | none => pure ()

def validateBase64 (value subject : String) : ValidationResult Unit :=
  if value.utf8ByteSize % 4 = 0 ∧ (Base64.decode value).map Base64.encode = some value then .ok ()
  else .error s!"{subject} must be canonical base64"

def eqIgnoreAsciiCase (a b : String) : Bool :=
  a.toList.map Char.toLower = b.toList.map Char.toLower

def validateMimeType (value subject : String) (expectedFamily : Option String) :
    ValidationResult Unit :=
  match formats.mime value with
  | none => .error s!"{subject} is invalid"
  | some (family, _) =>
      match expectedFamily with
      | none => .ok ()
      | some expected =>
          if eqIgnoreAsciiCase family expected then .ok ()
          else .error s!"{subject} must use the {expected}/* family"

def validateUri (value subject : String) : ValidationResult Unit :=
  if value = "" then .error s!"{subject} must not be empty"
  else if formats.url value then .ok ()
  else .error s!"{subject} is invalid"

def validateResourceLink (block : Value) (subject : String) : ValidationResult Unit := do
  validateUri formats (← requiredString block "uri" subject) s!"{subject} resource URI"
  let _ ← requiredString block "name" subject
  let _ ← optionalString block "title" subject
  let _ ← optionalString block "description" subject
  match ← optionalString block "mimeType" subject with
  | some mimeType =>
      validateMimeType formats mimeType s!"{subject} resource MIME type" none
  | none => pure ()
  match (block.get "size").filter (!·.isNull) with
  | some size =>
      if !size.asU64.any (· ≤ maxSafeInteger) then
        throw s!"{subject} resource size must be a non-negative safe integer"
  | none => pure ()

def validateResource (block : Value) (subject : String) : ValidationResult Unit := do
  let resource ← okOr s!"{subject} embedded resource must be an object"
    ((block.get "resource").filter Value.isObject)
  validateUri formats (← okOr s!"{subject} embedded resource URI is missing"
    (resource.getStr "uri")) s!"{subject} embedded resource URI"
  match resource.getStr "mimeType" with
  | some mimeType =>
      validateMimeType formats mimeType s!"{subject} embedded resource MIME type" none
  | none => pure ()
  match resource.getStr "blob" with
  | some blob => validateBase64 blob s!"{subject} embedded resource blob"
  | none => pure ()

def validateContentBlock (block : Value) (subject : String) : ValidationResult Unit := do
  if !block.isObject then throw s!"{subject} must be an object"
  validateAnnotations formats (block.get "annotations") s!"{subject} annotations"
  match block.getStr "type" with
  | some "text" => pure ()
  | some "image" => do
      validateBase64 (← requiredString block "data" subject) s!"{subject} image data"
      validateMimeType formats (← requiredString block "mimeType" subject)
        s!"{subject} image MIME type" (some "image")
      match ← optionalString block "uri" subject with
      | some uri => validateUri formats uri s!"{subject} image URI"
      | none => pure ()
  | some "audio" => do
      validateBase64 (← requiredString block "data" subject) s!"{subject} audio data"
      validateMimeType formats (← requiredString block "mimeType" subject)
        s!"{subject} audio MIME type" (some "audio")
  | some "resource_link" => validateResourceLink formats block subject
  | some "resource" => validateResource formats block subject
  | some kind => throw s!"unsupported {subject} type: {kind}"
  | none => throw s!"{subject} type is missing"

end Content

section Tools

/-- A leading slash, two leading backslashes, or a drive letter with a colon and a separator. -/
def isPortableAbsolutePath : List Char → Bool
  | '/' :: _ => true
  | '\\' :: '\\' :: _ => true
  | drive :: ':' :: separator :: _ =>
      drive.isAlpha && (separator = '/' || separator = '\\')
  | _ => false

def validateAbsolutePath (path subject : String) : ValidationResult Unit :=
  if path = "" ∨ path.toList.contains '\x00' ∨ !isPortableAbsolutePath path.toList then
    .error s!"{subject} must be an absolute path without NUL bytes"
  else .ok ()

def validateToolContent (formats : Formats) (item : Value) : ValidationResult Unit := do
  match item.getStr "type" with
  | some "content" =>
      validateContentBlock formats
        (← okOr "Agent tool content block is missing" (item.get "content")) "Agent tool content"
  | some "diff" =>
      validateAbsolutePath (← requiredString item "path" "tool diff") "Agent tool diff path"
  | some "terminal" =>
      validateIdentifier (← requiredString item "terminalId" "tool terminal")
        "Agent terminal reference ID"
  | some other => throw s!"unsupported Agent tool content: {other}"
  | none => throw "Agent tool content type is missing"

def validateToolLocation (location : Value) : ValidationResult Unit := do
  validateAbsolutePath (← requiredString location "path" "tool location")
    "Agent tool location path"
  match (location.get "line").filter (!·.isNull) with
  | some line =>
      if !line.asU64.any (· ≤ maxToolLocationLine) then
        throw s!"Agent tool location line must be an integer between 0 and {maxToolLocationLine}"
  | none => pure ()

/-- Everything a tool update is checked for between its id and its status. -/
def validateToolPayload (formats : Formats) (update : Value) : ValidationResult Unit := do
  let _ ← optionalString update "title" "tool update"
  let _ ← optionalString update "name" "tool update"
  match (update.get "content").filter (!·.isNull) with
  | some content =>
      (← okOr "Agent tool content must be an array" content.asArray).forM
        (validateToolContent formats)
  | none => pure ()
  match (update.get "locations").filter (!·.isNull) with
  | some locations =>
      (← okOr "Agent tool locations must be an array" locations.asArray).forM
        validateToolLocation
  | none => pure ()

end Tools

section Controls

def validateAvailableCommands (update : Value) : ValidationResult Unit := do
  let commands ← requiredArray (update.get "availableCommands")
    "Agent available commands must be an array"
  let _ ← commands.foldlM (fun (names : Finset String) command => do
    let name ← requiredString command "name" "available command"
    validateIdentifier name "Agent available command name"
    if name ∈ names then throw s!"Agent returned duplicate available command: {name}"
    let _ ← requiredString command "description" "available command"
    pure (insert name names)) ∅

def validatePlanEntries (entries : Option Value) : ValidationResult Unit := do
  let _ ← requiredArray entries "Agent plan entries must be an array"

/-- Whether a member is a number that is not negative. -/
def nonNegative (formats : Formats) (value : Option Value) : Bool :=
  (value.bind (asF64 formats)).any (0 ≤ ·)

def validateUsageUpdate (formats : Formats) (update : Value) : ValidationResult Unit := do
  if !(nonNegative formats (update.get "used") && nonNegative formats (update.get "size")) then
    throw "Agent returned invalid context usage values"
  match (update.get "cost").filter (!·.isNull) with
  | some cost =>
      if !nonNegative formats (cost.get "amount") then
        throw "Agent returned an invalid cumulative cost"
      let currency := (cost.getStr "currency").getD ""
      if currency = "" ∨ 32 < jsLen currency then
        throw "Agent returned an invalid cost currency label"
  | none => pure ()

def validateSessionMetadata (title updatedAt : Option Value) (subject : String) :
    ValidationResult Unit := do
  if (title.filter (!·.isNull)).any (!·.isString) then
    throw s!"{subject} title must be a string or null"
  if (updatedAt.filter (!·.isNull)).any (!·.isString) then
    throw s!"{subject} updatedAt must be a string or null"

def validateSessionModes (modes : Value) : ValidationResult Unit := do
  let available ← requiredArray (modes.get "availableModes")
    "Agent session modes are missing availableModes"
  if available.isEmpty then
    throw "Agent session modes must contain at least one available mode"
  let ids ← available.foldlM (fun (ids : Finset String) mode => do
    let id ← requiredString mode "id" "session mode"
    let name ← requiredString mode "name" "session mode"
    validateIdentifier id "session mode ID"
    validateNonEmptyLabel name "session mode name"
    if id ∈ ids then throw s!"Agent returned duplicate session mode ID: {id}"
    pure (insert id ids)) ∅
  let current ← requiredString modes "currentModeId" "session modes"
  if current ∉ ids then
    throw s!"Agent current mode was not included in available modes: {current}"

def addSelectValue (configId : String) (values : Finset String) (option : Value) :
    ValidationResult (Finset String) := do
  let value ← requiredString option "value" "config option value"
  let name ← requiredString option "name" "config option value"
  validateIdentifier value s!"config option {configId} value"
  validateNonEmptyLabel name s!"config option {configId} value name"
  if value ∈ values then throw s!"Agent config option {configId} has duplicate value: {value}"
  pure (insert value values)

/-- One item of a selection, a value or a group of values, after the values and groups before. -/
def addSelectItem (configId : String) (seen : Finset String × Finset String) (item : Value) :
    ValidationResult (Finset String × Finset String) := do
  match (item.get "options").bind Value.asArray with
  | some nested =>
      let group ← requiredString item "group" "config option group"
      let name ← requiredString item "name" "config option group"
      validateIdentifier group s!"config option {configId} group ID"
      validateNonEmptyLabel name s!"config option {configId} group name"
      if group ∈ seen.2 then
        throw s!"Agent config option {configId} has duplicate group ID: {group}"
      if nested.isEmpty then
        throw s!"Agent config option {configId} contains an empty option group"
      let values ← nested.foldlM (addSelectValue configId) seen.1
      pure (values, insert group seen.2)
  | none =>
      let values ← addSelectValue configId seen.1 item
      pure (values, seen.2)

def validateSelectOption (option : Value) (configId : String) : ValidationResult Unit := do
  let options ← requiredArray (option.get "options")
    s!"Agent config option {configId} is missing selectable values"
  if options.isEmpty then throw s!"Agent config option {configId} has no selectable values"
  let seen ← options.foldlM (addSelectItem configId) (∅, ∅)
  let current ← requiredString option "currentValue" "select config option"
  if current ∉ seen.1 then
    throw s!"Agent config option {configId} current value was not included in its selectable values"

def validateSessionConfigOptions (options : Value) : ValidationResult Unit := do
  let options ← okOr "Agent config options must be an array" options.asArray
  let _ ← options.foldlM (fun (ids : Finset String) option => do
    let id ← requiredString option "id" "config option"
    let name ← requiredString option "name" "config option"
    validateIdentifier id "config option ID"
    validateNonEmptyLabel name "config option name"
    if id ∈ ids then throw s!"Agent returned duplicate config option ID: {id}"
    if option.getStr "type" = some "select" then validateSelectOption option id
    pure (insert id ids)) ∅

def validateSessionControls (modes configOptions : Option Value) : ValidationResult Unit := do
  match modes.filter (!·.isNull) with
  | some modes => validateSessionModes modes
  | none => pure ()
  match configOptions.filter (!·.isNull) with
  | some options => validateSessionConfigOptions options
  | none => pure ()

end Controls

end Attyd.Semantic
