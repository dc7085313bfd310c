import Attyd.Library.Layout
import Attyd.Presentation.Turns

/-!
# The compact view and the pages of a process

The compact view of a session shows the prompts and the last message of each turn; what lies
between is its process, shown only for the turns that are asked for and otherwise read in pages.

## Implementation notes

The view is a JSON tree, as the server holds it. The loop over the turns is a run of `emit`, which
shows one turn with or without its process. A missing result is a panic of the source.
-/

namespace Attyd.Presentation

open Json (Value)

def processPageSize : Nat := 10

inductive PageError where
  | staleHistory
  | turnNotFound
  | invalidOffset
  deriving DecidableEq

/-- Whether an entry of a turn belongs to its process. -/
def Turn.isProcess (self : Turn) (index : Nat) (entry : Entry) : Bool :=
  !entry.isPrompt && some index ≠ self.outputIndex

/-- What a compact view says about one of its turns. -/
structure CollapsedTurn where
  turnId : String
  operationId : Option String
  visibleRanges : Option (List Layout.Range)
  beforeUpdate : Nat
  afterUpdate : Nat
  processCount : Nat
  processIncluded : Option Bool
  historyRevision : Value
  outcomes : List Value

def rangeValue (range : Layout.Range) : Value :=
  .ofFields [("start", .ofNat range.start), ("end", .ofNat range.stop)]

def CollapsedTurn.toValue (self : CollapsedTurn) : Value :=
  .ofFields
    ([("turnId", .string self.turnId), ("beforeUpdate", .ofNat self.beforeUpdate),
      ("afterUpdate", .ofNat self.afterUpdate), ("processCount", .ofNat self.processCount),
      ("historyRevision", self.historyRevision), ("outcomes", .array self.outcomes)] ++
    (self.visibleRanges.map fun rs => ("visibleRanges", .array (rs.map rangeValue))).toList ++
    (self.operationId.map fun id => ("operationId", .string id)).toList ++
    (self.processIncluded.map fun flag => ("processIncluded", .bool flag)).toList)

/-- The outcome as it stands at an offset of the compact timeline. -/
def moveOutcome (offset : Nat) (outcome : Value) : Value :=
  outcome.set "afterUpdate" (.ofNat offset)

/-- What has been shown of a turn. -/
structure Emission where
  timeline : List Value
  processCount : Nat
  visibleRanges : List Layout.Range

def Emission.admitEntry (turn : Turn) (processIncluded : Bool) (self : Emission)
    (item : Entry × Nat) : Option Emission := do
  let process := turn.isProcess item.2 item.1
  let emission : Emission :=
    if process then { self with processCount := self.processCount + 1 } else self
  if !process || processIncluded then do
    let updates ← item.1.materialize
    let timeline := self.timeline ++ updates
    some { emission with
      timeline
      visibleRanges :=
        if process then self.visibleRanges
        else self.visibleRanges ++ [⟨self.timeline.length, timeline.length⟩] }
  else some emission

/-- The compact view as far as the turns have been shown. -/
structure Compaction where
  timeline : List Value
  descriptors : List CollapsedTurn
  outcomes : List Value
  observedSuffix : Bool

namespace Compaction

def new : Compaction := ⟨[], [], [], false⟩

/-- One turn is shown, with its process or without. -/
def emit (historyRevision : Value) (turn : Turn) (processIncluded : Bool) (self : Compaction) :
    Option Compaction := do
  let emission ← turn.entries.zipIdx.foldlM (Emission.admitEntry turn processIncluded)
    ⟨self.timeline, 0, []⟩
  let outcomes := turn.outcomes.map (moveOutcome emission.timeline.length)
  some { self with
    timeline := emission.timeline
    outcomes := self.outcomes ++ outcomes
    descriptors := self.descriptors ++ [{
      turnId := turn.id
      operationId := turn.operation
      visibleRanges := some emission.visibleRanges
      beforeUpdate := self.timeline.length
      afterUpdate := emission.timeline.length
      processCount := emission.processCount
      processIncluded := if processIncluded then some true else none
      historyRevision
      outcomes }] }

/-- The turns from the named one on are observed; a turn that is excluded keeps its process
hidden. -/
def turn (historyRevision : Value) (includeProcessFrom : Option String)
    (excludedOperations : List String) (self : Compaction) (turn : Turn) : Option Compaction :=
  let observedSuffix := self.observedSuffix ||
    includeProcessFrom.any fun operationId => turn.matchesOperation (· = operationId)
  let processIncluded := observedSuffix && !turn.matchesOperation (excludedOperations.contains ·)
  { self with observedSuffix }.emit historyRevision turn processIncluded

end Compaction

mutual

/-- The terminals that a tree refers to. -/
def terminalReferences : Value → Finset String
  | .array values => listTerminalReferences values
  | .object keys field =>
      ((Value.object keys field).getStr "terminalId").elim ∅ ({·}) ∪
        Finset.univ.biUnion fun k : {k // k ∈ keys} => terminalReferences (field k)
  | _ => ∅

def listTerminalReferences : List Value → Finset String
  | [] => ∅
  | value :: values => terminalReferences value ∪ listTerminalReferences values

end

/-- The loop over the turns. -/
def compactTurns (historyRevision : Value) (includeProcessFrom : Option String)
    (excludeProcessFor : List String) (turns : List Turn) : Option Compaction :=
  turns.foldlM (Compaction.turn historyRevision includeProcessFrom excludeProcessFor) .new

/-- The view with its turns shown as they have been. -/
def Compaction.install (view : Value) (liveTerminals : Option Value) (self : Compaction) : Value :=
  let shown := ((view.set "timeline" (.array self.timeline)).set "collapsedTurns"
    (.array (self.descriptors.map (·.toValue)))).set "turnOutcomes" (.array self.outcomes)
  let retained := listTerminalReferences
    (["timeline", "activeTurn", "interactions"].map shown.index) ∪ liveTerminals.elim ∅ (·.keys)
  shown.set "terminals" ((shown.index "terminals").retainKeys (· ∈ retained))

def compactViewFrom (view : Value) (liveTerminals : Option Value)
    (includeProcessFrom : Option String) (excludeProcessFor : List String) : Option Value :=
  (compactTurns (view.index "historyRevision") includeProcessFrom excludeProcessFor
    (turns view)).map (·.install view liveTerminals)

/-- The entries of a turn that its pages show. -/
def Turn.process (self : Turn) : List Entry :=
  (self.entries.zipIdx.filter fun item => self.isProcess item.2 item.1).map (·.1)

/-- One page of the process of a turn. -/
structure ProcessPage where
  bridgeEpoch : Value
  sessionId : Value
  sessionIncarnation : Value
  turnId : String
  historyRevision : String
  offset : Nat
  total : Nat
  nextOffset : Option Nat
  items : List (List Value)
  terminals : Value
  response : Option Value

def ProcessPage.itemsValue (self : ProcessPage) : Value := .array (self.items.map .array)

def ProcessPage.toValue (self : ProcessPage) : Value :=
  .ofFields
    [("bridgeEpoch", self.bridgeEpoch), ("sessionId", self.sessionId),
      ("sessionIncarnation", self.sessionIncarnation), ("turnId", .string self.turnId),
      ("historyRevision", .string self.historyRevision), ("offset", .ofNat self.offset),
      ("total", .ofNat self.total), ("nextOffset", .ofOption (self.nextOffset.map .ofNat)),
      ("items", self.itemsValue), ("terminals", self.terminals),
      ("response", .ofOption self.response)]

/-- The page of a turn from an offset on; an offset and a page are far below 64 bits. -/
def Turn.page (self : Turn) (view : Value) (revision : String) (offset : Nat) :
    Option ProcessPage := do
  let stop := min (offset + processPageSize) self.process.length
  let items ← (Layout.page processPageSize self.process offset).mapM (·.materialize)
  let referenced := terminalReferences (.array (items.map .array))
  some {
    bridgeEpoch := view.index "bridgeEpoch"
    sessionId := view.index "sessionId"
    sessionIncarnation := view.index "sessionIncarnation"
    turnId := self.id
    historyRevision := revision
    offset
    total := self.process.length
    nextOffset := if stop < self.process.length then some stop else none
    items
    terminals := (Value.mergeFields .empty (view.index "terminals")).retainKeys (· ∈ referenced)
    response := self.outcomes.getLast?.bind (·.get "response") }

def processPage (view : Value) (turnId revision : String) (offset : Nat) :
    Except PageError (Option ProcessPage) :=
  if view.getStr "historyRevision" ≠ some revision then .error .staleHistory
  else
    match (turns view).find? (·.id = turnId) with
    | none => .error .turnNotFound
    | some turn =>
        if turn.process.length < offset ∨ offset % processPageSize ≠ 0 then .error .invalidOffset
        else .ok (turn.page view revision offset)

end Attyd.Presentation
