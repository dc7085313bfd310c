import Attyd.Library.Attempt
import Attyd.Library.Counter
import Attyd.Library.Machine
import Attyd.Library.Table
import Attyd.Semantic.Checks

/-!
# What is tracked of a session

A session update or a permission request is validated against what the session reported before,
and what it reports is recorded: the status of compactions and tool calls, the messages and the
plans. An update is validated on a copy, a permission request in place.

## Implementation notes

The validators are computations of `EStateM`, where a failure keeps the changes made before it, as
a function with a mutable argument does. Every validator of a single update records last. The
identity of a validation is left out, no validator reads it.
-/

namespace Attyd.Semantic

open Json (Value)
open Elicitation (ValidationResult okOr)
open Attempt

structure TrackedCompaction where
  status : String
  summaryBytes : Nat
  deriving DecidableEq

structure SessionUpdateSemanticState where
  compactions : Table String TrackedCompaction
  toolCalls : Table String (Option String)
  messages : Table String String
  plans : Table String String
  updateCount : Nat
  updateBytes : Nat
  currentModeId : Option String
  invalidReason : Option String
  deriving DecidableEq

namespace SessionUpdateSemanticState

/-- Nothing is tracked yet. -/
def default : SessionUpdateSemanticState := ⟨∅, ∅, ∅, ∅, 0, 0, none, none⟩

/-- The counts of a turn start again; what the session reported stays. -/
def retireTurn (self : SessionUpdateSemanticState) : SessionUpdateSemanticState :=
  { self with updateCount := 0, updateBytes := 0, invalidReason := none }

/-- The status of a tool call, when one was reported. -/
def toolStatus (self : SessionUpdateSemanticState) (toolId : String) : Option String :=
  (self.toolCalls.lookup toolId).join

/-- The status of a compaction. -/
def compactionStatus (self : SessionUpdateSemanticState) (id : String) : Option String :=
  (self.compactions.lookup id).map (·.status)

/-- Record a report of a tool call; one without a status keeps the status before. -/
def recordTool (self : SessionUpdateSemanticState) (toolId : String) (status : Option String) :
    SessionUpdateSemanticState :=
  { self with toolCalls := self.toolCalls.insert toolId (status.or (self.toolStatus toolId)) }

end SessionUpdateSemanticState

/-- A validation that records what it validates. -/
abbrev Tracking := EStateM String SessionUpdateSemanticState

section Validators

variable (formats : Formats)

/-- The checks of a tool update; the answer is the id of the call and the status reported. -/
def validateToolFields (update : Value) : ValidationResult (String × Option String) := do
  let toolId ← requiredIdentifier update "toolCallId" "tool update" "Agent tool call ID"
  validateToolPayload formats update
  let status ← optionalString update "status" "tool update"
  pure (toolId, status)

def validateToolUpdate (update : Value) : Tracking Unit := do
  let (toolId, status) ← check (validateToolFields formats update)
  modify (·.recordTool toolId status)

def isTerminalCompactionStatus (status : String) : Bool :=
  status = "completed" || status = "failed" || status = "cancelled"

/-- The size of the summary of a compaction update, where it has one; a summary with content needs
a completed compaction and an error a failed one. -/
def validateSummary (update : Value) (status : String) : ValidationResult (Option Nat) := do
  let summary := (update.get "summary").filter (!·.isNull)
  if (summary.bind Value.asArray).any (· ≠ []) ∧ status ≠ "completed" then
    throw "A non-empty compaction summary is only valid with completed status"
  if (update.get "error").any (!·.isNull) ∧ status ≠ "failed" then
    throw "A compaction error is only valid with failed status"
  match summary with
  | none => pure none
  | some summary =>
      let blocks ← okOr "Agent compaction summary must be an array" summary.asArray
      blocks.forM fun block =>
        validateContentBlock formats block "Agent compaction summary content"
      pure (some summary.bytes)

/-- The checks of a compaction update that look at the update alone. -/
def validateCompactionFields (update : Value) :
    ValidationResult (String × String × Option Nat) := do
  let id ← requiredIdentifier update "compactionId" "compaction update" "Agent compaction ID"
  let status ← requiredString update "status" "compaction update"
  let bytes ← validateSummary formats update status
  pure (id, status, bytes)

def validateCompactionUpdate (update : Value) : Tracking Unit := do
  let (id, status, bytes) ← check (validateCompactionFields formats update)
  let state ← get
  let tracked := state.compactions.lookup id
  if tracked.any fun tracked => isTerminalCompactionStatus tracked.status then
    throw s!"Compaction is already terminal: {id}"
  let summaryBytes := bytes.getD ((tracked.map (·.summaryBytes)).getD 0)
  set { state with compactions := state.compactions.insert id ⟨status, summaryBytes⟩ }

/-- The content of a summary chunk. -/
def validateChunkContent (update : Value) : ValidationResult Value := do
  let content ← okOr "Agent compaction chunk content is missing" (update.get "content")
  validateContentBlock formats content "Agent compaction summary content"
  pure content

/-- The checks of a summary chunk that look at the chunk alone. -/
def validateChunkFields (update : Value) : ValidationResult (String × Value) := do
  let id ← requiredIdentifier update "compactionId" "compaction chunk" "Agent compaction ID"
  let content ← validateChunkContent formats update
  pure (id, content)

def validateCompactionChunk (update : Value) : Tracking Unit := do
  let (id, content) ← check (validateChunkFields formats update)
  let state ← get
  match state.compactions.lookup id with
  | none => throw s!"Compaction summary chunks require an in-progress compaction: {id}"
  | some tracked =>
      if tracked.status ≠ "in_progress" then
        throw s!"Compaction summary chunks require an in-progress compaction: {id}"
      let summaryBytes := saturatingAdd tracked.summaryBytes content.bytes
      set { state with
        compactions := state.compactions.insert id { tracked with summaryBytes } }

/-- The id of a message, where the chunk has one. -/
def validateMessageFields (update : Value) : ValidationResult (Option String) := do
  validateContentBlock formats
    (← okOr "Agent message content is missing" (update.get "content")) "Agent message content"
  match ← optionalString update "messageId" "session update" with
  | none => pure none
  | some messageId =>
      validateIdentifier messageId "Agent message ID"
      pure (some messageId)

def validateMessageChunk (kind : String) (update : Value) : Tracking Unit := do
  match ← check (validateMessageFields formats update) with
  | none => pure ()
  | some messageId =>
      modify fun state => { state with messages := state.messages.insert messageId kind }

def trackPlan (planId value : String) : Tracking Unit :=
  modify fun state => { state with plans := state.plans.insert planId value }

/-- The id of an updated plan. -/
def validatePlanFields (update : Value) : ValidationResult String := do
  let plan ← okOr "Agent plan update is missing plan" (update.get "plan")
  let planId ← requiredString plan "planId" "plan update"
  validateIdentifier planId "Agent plan ID"
  if plan.getStr "type" = some "items" then validatePlanEntries (plan.get "entries")
  pure planId

def validateSessionUpdatePayload (update : Value) : Tracking Unit := do
  match ← check (requiredString update "sessionUpdate" "session update") with
  | "user_message_chunk" => validateMessageChunk formats "user_message_chunk" update
  | "agent_message_chunk" => validateMessageChunk formats "agent_message_chunk" update
  | "agent_thought_chunk" => validateMessageChunk formats "agent_thought_chunk" update
  | "tool_call" | "tool_call_update" => validateToolUpdate formats update
  | "plan" => check (validatePlanEntries (update.get "entries"))
  | "plan_update" => trackPlan (← check (validatePlanFields update)) "active"
  | "plan_removed" =>
      let planId ← check (requiredIdentifier update "planId" "plan removal" "Agent plan ID")
      trackPlan planId "removed"
  | "available_commands_update" => check (validateAvailableCommands update)
  | "current_mode_update" =>
      let modeId ← check (requiredIdentifier update "currentModeId" "mode update" "Agent mode ID")
      modify fun state => { state with currentModeId := some modeId }
  | "config_option_update" => check (validateSessionControls none (update.get "configOptions"))
  | "session_info_update" =>
      check (validateSessionMetadata (update.get "title") (update.get "updatedAt") "Agent session")
  | "usage_update" => check (validateUsageUpdate formats update)
  | "compaction_update" => validateCompactionUpdate formats update
  | "compaction_summary_chunk" => validateCompactionChunk formats update
  | other => throw s!"unsupported ACP session update: {other}"

/-- Count an update that was validated. -/
def countUpdate (update : Value) : Tracking Unit :=
  modify fun state =>
    { state with
      updateCount := saturatingAdd state.updateCount 1
      updateBytes := saturatingAdd state.updateBytes update.bytes }

def validateAndTrackSessionUpdate (update : Value) : Tracking Unit :=
  transaction do
    validateSessionUpdatePayload formats update
    countUpdate update

/-- One more option of a permission request after the ids before it. -/
def addPermissionOption (ids : Finset String) (option : Value) :
    ValidationResult (Finset String) := do
  let id ← requiredString option "optionId" "permission option"
  if id = "" then throw "Agent returned an invalid permission option ID"
  if id ∈ ids then throw s!"Agent returned duplicate permission option ID: {id}"
  let name ← requiredString option "name" "permission option"
  if name = "" then throw s!"Agent returned an invalid permission option name: {id}"
  pure (insert id ids)

/-- The checks of the options of a permission request; the answer is their ids. -/
def validatePermissionOptions (request : Value) : ValidationResult (Finset String) := do
  let options ← requiredArray (request.get "options") "Agent permission options must be an array"
  if options.isEmpty then throw "Agent permission request must contain at least one option"
  options.foldlM addPermissionOption ∅

def validatePermissionRequest (request : Value) : Tracking (Finset String) := do
  let toolCall ← check
    (okOr "Agent permission request is missing its tool call" (request.get "toolCall"))
  validateToolUpdate formats toolCall
  check (validatePermissionOptions request)

end Validators

end Attyd.Semantic
