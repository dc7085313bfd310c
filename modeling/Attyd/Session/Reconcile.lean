import Attyd.History.Placement

/-!
# Comparing a replay with a completed turn

A replay that ends a turn has to extend the known history by that turn. Message
ids and the borders of streamed chunks may change from one load to the next, so
both sides are normalized before they are compared.
-/

namespace Attyd.Session

open Json (Value)
open Json.Value (alikeList)
open History

/-- An update without its message id. -/
def historyUpdateIdentity (update : Value) : Value := update.remove "messageId"

/-- Add a prompt block, joining a text to a last text of the same other fields. -/
def normalizePromptBlock (normalized : List Value) (block : Value) : List Value :=
  match (block.getStr "text").filter (fun _ => block.getStr "type" = some "text") with
  | none => normalized ++ [block]
  | some text =>
      match normalized.getLast? with
      | none => normalized ++ [block]
      | some previous =>
          if previous.getStr "type" = some "text" &&
              (block.set "text" .null).alike (previous.set "text" .null) then
            let previousText := (previous.getStr "text").getD ""
            normalized.dropLast ++ [previous.set "text" (.string (previousText ++ text))]
          else normalized ++ [block]

def normalizePromptBlocks (blocks : List Value) : List Value :=
  blocks.foldl normalizePromptBlock []

/-- Whether the leading user chunks say the prompt. -/
def replaySuffixStartsWithPrompt (updates prompt : List Value) : Bool :=
  alikeList (normalizePromptBlocks ((updates.takeWhile isUserChunk).filterMap (·.get "content")))
    (normalizePromptBlocks prompt)

/-- Fold the candidate until the fold equals `prior`; where that is. -/
def prefixSearch (prior : List Value) : (candidate folded : List Value) → Nat → Option Nat
  | [], _, _ => none
  | update :: candidate, folded, index =>
      match foldHistoryUpdate folded (historyUpdateIdentity update) with
      | .error _ => none
      | .ok folded =>
          if alikeList folded prior then some (index + 1)
          else prefixSearch prior candidate folded (index + 1)

/-- The shortest prefix of the candidate that folds to the prior history. -/
def historyPrefixEnd (candidate prior : List Value) : Option Nat :=
  match normalizeHistoryUpdates (prior.map historyUpdateIdentity) with
  | .error _ => none
  | .ok prior => if prior.isEmpty then some 0 else prefixSearch prior candidate [] 0

/-- The updates whose loss a replay cannot excuse. -/
def durable (update : Value) : Bool :=
  match updateKind update with
  | .agentMessageChunk | .toolCall | .toolCallUpdate => true
  | _ => false

/-- The durable updates without message ids, folded among themselves. -/
def durableUpdates (updates : List Value) : Except RuntimeStateError (List Value) := do
  let folded ← normalizeHistoryUpdates ((updates.filter durable).map historyUpdateIdentity)
  .ok (folded.map historyUpdateIdentity)

/-- Whether the durable live updates occur in the replay in their order. -/
def replayContainsCompletedTurn (replay liveUpdates : List Value) : Bool :=
  match durableUpdates replay, durableUpdates liveUpdates with
  | .ok replay, .ok live => (live.map Value.unsigned).isSublist (replay.map Value.unsigned)
  | _, _ => false

end Attyd.Session
