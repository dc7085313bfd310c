import Attyd.Library.Json
import Attyd.Library.ListEdit
import Attyd.Library.Table

/-!
# The entries of a turn

The updates of a completed turn are gathered into entries: the states of one tool, of one plan and
of one compaction, and the chunks of one message. An entry is shown by the updates it is
materialized to.

## Implementation notes

An entry is never empty, so its first and last updates are there. Materializing fails where the
source panics: a chunk that follows a summary which is no array.
-/

namespace Attyd.Presentation

open Json (Value)

def kind (update : Value) : String := (update.getStr "sessionUpdate").getD ""

def promptOperation (update : Value) : Option String :=
  (update.pointer ["_meta", "attyd", "turnOperationId"]).bind Value.asStr

/-- The kinds that change the controls of a session and are no part of its turns. -/
def control (kind : String) : Bool :=
  kind = "current_mode_update" || kind = "config_option_update" ||
    kind = "available_commands_update" || kind = "session_info_update" || kind = "usage_update"

def isTool (kind : String) : Bool := kind = "tool_call" || kind = "tool_call_update"

def isPlan (kind : String) : Bool :=
  kind = "plan" || kind = "plan_update" || kind = "plan_removed"

def isCompaction (kind : String) : Bool :=
  kind = "compaction_update" || kind = "compaction_summary_chunk"

def isMessage (kind : String) : Bool :=
  kind = "user_message_chunk" || kind = "agent_message_chunk" || kind = "agent_thought_chunk"

/-- Updates that are gathered together, with the kind of the first of them. -/
structure Entry where
  kind : String
  updates : List Value
  nonempty : updates ≠ []

namespace Entry

def isPrompt (self : Entry) : Bool := self.kind = "user_message_chunk"

def single (update : Value) : Entry := ⟨Presentation.kind update, [update], by simp⟩

def push (update : Value) (self : Entry) : Entry :=
  { self with updates := self.updates ++ [update], nonempty := by simp }

def first (self : Entry) : Value := self.updates.head self.nonempty

def last (self : Entry) : Value := self.updates.getLast self.nonempty

/-- The card the browser shows for an update whose tool call is missing. -/
def recoveredCard (toolCallId : Value) : Value :=
  .ofFields
    [("sessionUpdate", .string "tool_call"), ("toolCallId", toolCallId),
      ("title", .string "Tool call not found"), ("kind", .string "other"),
      ("status", .string "failed"),
      ("content", .array [.ofFields
        [("type", .string "content"),
          ("content", .ofFields
            [("type", .string "text"),
              ("text", .string
                "The Agent updated a tool call that was not introduced earlier.")])]])]

/-- The later states of a tool are written over its first one. -/
def mergedTool (self : Entry) : Value :=
  let card := if Presentation.kind self.first = "tool_call_update" then
    recoveredCard (self.first.index "toolCallId") else self.first
  self.updates.tail.foldl (fun merged update => merged.patch (update.remove "sessionUpdate")) card

/-- A removed plan is shown behind the update that introduced it. -/
def shownPlan (self : Entry) : List Value :=
  match self.updates.reverse.find? (Presentation.kind · = "plan_update") with
  | some introduction =>
      if Presentation.kind self.last = "plan_removed" then [introduction, self.last]
      else [self.last]
  | none => [self.last]

/-- Text joins the text before it when the two blocks agree in everything else. -/
def appendBlock (blocks : List Value) (incoming : Value) : List Value :=
  match blocks.getLast? with
  | none => blocks ++ [incoming]
  | some previous =>
      if previous.index "type" = .string "text" && incoming.index "type" = .string "text" &&
          (previous.set "text" (.string "")).alike (incoming.set "text" (.string "")) then
        match (previous.index "text").asStr, (incoming.index "text").asStr with
        | some old, some new => blocks.dropLast ++ [previous.set "text" (.string (old ++ new))]
        | _, _ => blocks ++ [incoming]
      else blocks ++ [incoming]

/-- One field of a compaction state; a `null` summary empties the summary. -/
def writeCompaction (update result : Value) (field : String) : Value :=
  match update.get field with
  | some value => result.set field (if field = "summary" && value.isNull then .array [] else value)
  | none => result

/-- One update of a compaction is written into its state. -/
def compact (result update : Value) : Option Value :=
  if Presentation.kind update = "compaction_summary_chunk" then
    (result.index "summary").asArray.map fun summary =>
      result.set "summary" (.array (appendBlock summary (update.index "content")))
  else some (["status", "summary", "error"].foldl (writeCompaction update) result)

def mergedCompaction (self : Entry) : Option Value :=
  self.updates.foldlM compact (.ofFields
    [("sessionUpdate", .string "compaction_update"),
      ("compactionId", self.first.index "compactionId"), ("status", .string "in_progress"),
      ("summary", .array [])])

def materialize (self : Entry) : Option (List Value) :=
  if isTool self.kind then some [self.mergedTool]
  else if isPlan self.kind then some self.shownPlan
  else if isCompaction self.kind then self.mergedCompaction.map ([·])
  else some self.updates

/-- A plan without an id whose last state has no entries. -/
def cleared (self : Entry) : Bool :=
  self.kind = "plan" && (self.last.index "entries").asArray = some []

end Entry

/-- What an update is gathered by, if it names anything. -/
def entryKey (update : Value) : Option (String × String) :=
  if isTool (kind update) then (update.getStr "toolCallId").map (("tool", ·))
  else if kind update = "plan" then some ("plan", "")
  else if kind update = "plan_update" then
    ((update.pointer ["plan", "planId"]).bind Value.asStr).map (("plan", ·))
  else if kind update = "plan_removed" then (update.getStr "planId").map (("plan", ·))
  else if isCompaction (kind update) then
    (update.getStr "compactionId").map (("compaction", ·))
  else if isMessage (kind update) then (update.getStr "messageId").map ((kind update, ·))
  else none

/-- The entries so far, and the entry that was last written under each key. -/
structure Grouping where
  entries : List Entry
  named : Table (String × String) Nat

namespace Grouping

def empty : Grouping := ⟨[], ∅⟩

/-- A chunk joins the last entry when that is of its kind and no two message ids differ. -/
def continues (self : Grouping) (update : Value) : Option Nat :=
  (self.entries.getLast?.filter fun entry =>
    entry.kind = kind update &&
      (let old := entry.updates.findSome? (·.getStr "messageId")
       let new := update.getStr "messageId"
       old.isNone || new.isNone || old = new)).map fun _ => self.entries.length - 1

def existing (self : Grouping) (update : Value) : Option Nat :=
  (entryKey update).bind self.named.lookup <|>
    if isMessage (kind update) then self.continues update else none

def admitUpdate (self : Grouping) (update : Value) : Grouping :=
  if control (kind update) then self
  else
    let index := (self.existing update).getD self.entries.length
    { entries := match self.existing update with
        | some index => self.entries.modify index (.push update)
        | none => self.entries ++ [.single update]
      named := match entryKey update with
        | some key => self.named.insert key index
        | none => self.named }

end Grouping

def group (updates : List Value) : Grouping := updates.foldl Grouping.admitUpdate .empty

def entries (updates : List Value) : List Entry :=
  (group updates).entries.filter (!·.cleared)

end Attyd.Presentation
