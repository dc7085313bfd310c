import Attyd.Library.Json
import Attyd.Library.ListEdit

/-!
# The folds of session updates

The fold of one turn keeps streamed text in one entry per shape, one entry for
each tool call and one for each plan. The fold of a whole history looks for
tools in the entire session and for everything else behind the last user chunk.

## Implementation notes

An update is a bare JSON value, as the agent sends it. `readUpdate` holds the
checks the fold makes before it looks at the retained list, `activeTurnEdit`
the one change it then makes to its copy. The fold of shared values and the
fold of plain values are the same function here, since sharing is not observed.
-/

namespace Attyd.History

open Json (Value)

inductive RuntimeStateError where
  | epochMismatch
  | unknownSession
  | staleIncarnation
  | busySession
  | noActiveTurn
  | operationMismatch
  | unknownInteraction
  | sessionNotActive
  | operationCollision
  | interactionCollision
  deriving DecidableEq

/-- The texts of `sessionUpdate` the folds tell apart. -/
inductive UpdateKind where
  | userMessageChunk
  | agentMessageChunk
  | agentThoughtChunk
  | toolCall
  | toolCallUpdate
  | plan
  | planUpdate
  | planRemoved
  | other
  deriving DecidableEq

namespace UpdateKind

def ofText : Option String → UpdateKind
  | some "user_message_chunk" => userMessageChunk
  | some "agent_message_chunk" => agentMessageChunk
  | some "agent_thought_chunk" => agentThoughtChunk
  | some "tool_call" => toolCall
  | some "tool_call_update" => toolCallUpdate
  | some "plan" => plan
  | some "plan_update" => planUpdate
  | some "plan_removed" => planRemoved
  | _ => other

def isTextChunk : UpdateKind → Bool
  | userMessageChunk | agentMessageChunk | agentThoughtChunk => true
  | _ => false

def isTool : UpdateKind → Bool
  | toolCall | toolCallUpdate => true
  | _ => false

end UpdateKind

def updateKind (update : Value) : UpdateKind := .ofText (update.getStr "sessionUpdate")

/-- A missing or mistyped field is an operation mismatch. -/
def okOr {α : Type*} : Option α → Except RuntimeStateError α
  | some a => .ok a
  | none => .error .operationMismatch

def requiredFoldString (value : Value) (field : String) : Except RuntimeStateError String :=
  okOr ((value.getStr field).filter (· ≠ ""))

/-- `update["content"]["text"] = text`. -/
def setText (update : Value) (text : String) : Value :=
  update.set "content" ((update.index "content").set "text" (.string text))

/-- The update with its text emptied and a `null` message id dropped, together
with the text; nothing for an update that is not a text chunk. -/
def textChunkShape (update : Value) : Except RuntimeStateError (Option (Value × String)) :=
  if (updateKind update).isTextChunk then do
    let content ← okOr ((update.get "content").filter (·.isObject))
    let contentType ← okOr (content.getStr "type")
    if (update.get "messageId").any (fun messageId => !messageId.isNull && !messageId.isString) then
      .error .operationMismatch
    else if contentType ≠ "text" then
      .ok none
    else do
      let text ← okOr (content.getStr "text")
      let shape :=
        if (update.get "messageId").any (·.isNull) then update.remove "messageId" else update
      .ok (some (setText shape "", text))
  else .ok none

def isUserChunk (candidate : Value) : Bool := updateKind candidate = .userMessageChunk

def isToolOf (toolCallId : String) (candidate : Value) : Bool :=
  (updateKind candidate).isTool && candidate.getStr "toolCallId" = some toolCallId

def isPlan (candidate : Value) : Bool := updateKind candidate = .plan

/-- The plan id of a `plan_update`, under `plan.planId`. -/
def planIdOf (candidate : Value) : Option String :=
  (candidate.get "plan").bind (·.getStr "planId")

def isPlanUpdateOf (planId : String) (candidate : Value) : Bool :=
  updateKind candidate = .planUpdate && planIdOf candidate = some planId

def replaceToolFields (target patch : Value) : Except RuntimeStateError Value :=
  if target.isObject && patch.isObject then .ok (target.patch patch)
  else .error .operationMismatch

/-- Patch a retained tool entry; a full `tool_call` makes it a `tool_call`. -/
def patchTool (target update : Value) (toolCallId : String) : Except RuntimeStateError Value := do
  let retainedKind := target.index "sessionUpdate"
  let patched ← replaceToolFields target update
  let kind := if updateKind update = .toolCall then .string "tool_call" else retainedKind
  .ok ((patched.set "sessionUpdate" kind).set "toolCallId" (.string toolCallId))

/-- What an update asks for, once its own fields have been checked. -/
inductive Reading where
  | entry
  | chunk (shape : Value) (text : String)
  | tool (toolCallId : String)
  | plan
  | planUpdate (planId : String)
  | planRemoved (planId : String)

/-- The checks the fold makes on the update alone. -/
def readUpdate (update : Value) : Except RuntimeStateError Reading :=
  match updateKind update with
  | .userMessageChunk | .agentMessageChunk | .agentThoughtChunk => do
      match ← textChunkShape update with
      | some (shape, text) => .ok (.chunk shape text)
      | none => .ok .entry
  | .toolCall | .toolCallUpdate => do
      let toolCallId ← requiredFoldString update "toolCallId"
      .ok (.tool toolCallId)
  | .plan =>
      if (update.get "entries").any (·.isArray) then .ok .plan else .error .operationMismatch
  | .planUpdate => do
      let plan ← okOr ((update.get "plan").filter (·.isObject))
      let planId ← requiredFoldString plan "planId"
      if plan.getStr "type" = some "items" && !(plan.get "entries").any (·.isArray) then
        .error .operationMismatch
      else .ok (.planUpdate planId)
  | .planRemoved => do
      let planId ← requiredFoldString update "planId"
      .ok (.planRemoved planId)
  | .other => .ok .entry

/-- A chunk joins the last entry when the shapes agree. -/
def chunkEdit (retained : List Value) (update shape : Value) (text : String) :
    Except RuntimeStateError (Edit Value) :=
  match retained.getLast? with
  | none => .ok (.push update)
  | some previous => do
      match ← textChunkShape previous with
      | some (previousShape, _) =>
          if previousShape.alike shape then do
            let previousText ← okOr ((previous.get "content").bind (·.getStr "text"))
            .ok (.put (retained.length - 1) (setText previous (previousText ++ text)))
          else .ok (.push update)
      | none => .ok (.push update)

def replaceSharedFoldSlot (retained : List Value) (matchesSlot : Value → Bool) (update : Value) :
    Edit Value :=
  match retained.findIdx? matchesSlot with
  | some position => .put position update
  | none => .push update

/-- The one change the fold makes to its copy of the retained list. -/
def activeTurnEdit (retained : List Value) (update : Value) :
    Except RuntimeStateError (Edit Value) := do
  match ← readUpdate update with
  | .entry => .ok (.push update)
  | .chunk shape text => chunkEdit retained update shape text
  | .tool toolCallId =>
      match retained.findIdx? (isToolOf toolCallId) with
      | some position => do
          let patched ← patchTool (retained.getD position .null) update toolCallId
          .ok (.put position patched)
      | none => .ok (.push update)
  | .plan => .ok (replaceSharedFoldSlot retained isPlan update)
  | .planUpdate planId => .ok (replaceSharedFoldSlot retained (isPlanUpdateOf planId) update)
  | .planRemoved planId =>
      match retained.findIdx? (isPlanUpdateOf planId) with
      | some position => .ok (.erase position)
      | none => .ok .keep

def foldSharedActiveTurnUpdate (retained : List Value) (update : Value) :
    Except RuntimeStateError (List Value) := do
  let edit ← activeTurnEdit retained update
  .ok (edit.apply retained)

def foldActiveTurnUpdate (retained : List Value) (update : Value) :
    Except RuntimeStateError (List Value) :=
  foldSharedActiveTurnUpdate retained update

/-- Where the last turn begins: at its user chunk, or at the front. -/
def turnStart (retained : List Value) : Nat := (lastIdx? isUserChunk retained).getD 0

/-- The retained tool entry of a `tool_call_update`, anywhere in the session. -/
def sessionToolPosition (retained : List Value) (update : Value) : Option Nat :=
  if updateKind update = .toolCallUpdate then
    lastIdx? (fun candidate => (updateKind candidate).isTool &&
      candidate.get "toolCallId" = update.get "toolCallId") retained
  else none

def foldHistoryUpdate (retained : List Value) (update : Value) :
    Except RuntimeStateError (List Value) :=
  match sessionToolPosition retained update with
  | some position => do
      let target := retained.getD position .null
      let folded ← foldActiveTurnUpdate [target] update
      .ok (retained.set position (folded.headD target))
  | none => do
      let folded ← foldActiveTurnUpdate (retained.drop (turnStart retained)) update
      .ok (retained.take (turnStart retained) ++ folded)

def normalizeHistoryUpdates (updates : List Value) : Except RuntimeStateError (List Value) :=
  updates.foldlM foldHistoryUpdate []

end Attyd.History
