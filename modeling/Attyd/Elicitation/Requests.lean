import Attyd.Elicitation.Validation

/-!
# Elicitation requests and the answers to them

A request is scoped to a session or to a request and asks for a URL to be opened or for a form to be
filled in. Only an accepted form carries fields, each of which is checked against its schema.

## Implementation notes

What is checked before any field is a plain result; only the checks of fields may panic.
-/

namespace Attyd.Elicitation

open Json (Value)

def validateScope (readers : Readers) (request : Value) : ValidationResult Unit :=
  let hasSession := (request.get "sessionId").any (!·.isNull)
  let hasRequest := (request.get "requestId").isSome
  if hasSession = hasRequest then
    .error "Elicitation must have exactly one session or request scope"
  else if hasSession then
    let sessionId := (request.getStr "sessionId").getD ""
    if sessionId = "" || 1024 < jsLen sessionId then
      .error "Elicitation contains an invalid session scope"
    else .ok ()
  else
    match request.get "requestId" with
    | none => .error "Elicitation is missing its request scope"
    | some requestId =>
        if requestId.isNull || requestId.asStr.any (jsLen · ≤ 1024) ||
            (asF64 readers requestId).any fun value =>
              value.den == 1 && -maxSafeInteger ≤ value && value ≤ maxSafeInteger then
          .ok ()
        else .error "Elicitation contains an invalid request scope"

def validateUrl (readers : Readers) (request : Value) : ValidationResult Unit := do
  let rawUrl ← requiredString request "url" "URL elicitation"
  let scheme ← okOr "URL elicitation contains an invalid URL" (readers.url rawUrl)
  if scheme ≠ "http" && scheme ≠ "https" then
    throw "URL elicitation must use HTTP or HTTPS"

/-- What is checked of a request before its mode. -/
def validateHeader (readers : Readers) (request : Value) : ValidationResult Unit := do
  let message ← requiredString request "message" "Elicitation"
  if message = "" then
    throw "Elicitation message is empty"
  validateScope readers request

def requestedSchema (request : Value) : ValidationResult Value :=
  okOr "Form elicitation is missing requestedSchema" (request.get "requestedSchema")

def validateElicitationRequestValue (readers : Readers) (request : Value) : Checked Unit := do
  validateHeader readers request
  match request.getStr "mode" with
  | some "url" => validateUrl readers request
  | some "form" => do
      let schema ← requestedSchema request
      validateSchema readers schema
  | some mode => throw s!"Agent requested an unadvertised elicitation mode: {mode}"
  | none => throw "Agent requested an unadvertised elicitation mode"

/-- The properties of a form and the fields of an accepted answer to it; nothing where no field is
checked. -/
def acceptedContent (request response : Value) : ValidationResult (Option (Value × Value)) := do
  let action ← requiredString response "action" "Elicitation response"
  if action ∉ ["accept", "decline", "cancel"] then
    throw s!"Unsupported elicitation response action: {action}"
  let content := (response.get "content").filter (!·.isNull)
  if action ≠ "accept" then
    if content.isSome then
      throw "Only accepted elicitation responses may contain content"
    return none
  if request.getStr "mode" = some "url" then
    if content.isSome then
      throw "URL elicitation responses must not contain content"
    return none
  let schema ← requestedSchema request
  let properties ← schemaProperties schema
  let content ← match content with
    | none => pure Value.empty
    | some value =>
        if value.isObject then pure value
        else throw "Form elicitation content must be an object"
  let required ← stringArray (schema.get "required") "Elicitation schema required"
  for name in required do
    if (content.get name).isNone then
      throw s!"Elicitation response is missing required field: {name}"
  return some (properties, content)

def validateAnswer (readers : Readers) (properties : Value) (answer : String × Value) :
    Checked Unit := do
  let schema ← okOr s!"Unknown elicitation response field: {answer.1}" (properties.get answer.1)
  validateField readers answer.1 answer.2 schema

def validateElicitationResponseValue (readers : Readers) (request response : Value) :
    Checked Unit := do
  if let some (properties, content) ← acceptedContent request response then
    (members readers content).forM (validateAnswer readers properties)

end Attyd.Elicitation
