import Attyd.Library.Base64
import Attyd.Library.Json
import Attyd.Library.Utf8

/-!
# Published terminal snapshots and their fold

A publication carries the bytes read since the one before, or the whole buffer, and how many
bytes the terminal manager retains. Folding a publication into the snapshot before it gives the
snapshot a session keeps: its bytes, and the text they show.

## Implementation notes

`Publication` is what the manager puts into a snapshot; `Publication.value` is the snapshot as it
travels. The fold reads the snapshot back field by field, and `foldTerminalSnapshot_value` says
what it finds there.
-/

namespace Attyd.Terminals

open Json (Value)

/-- How a command ended, as it is written into a snapshot. -/
structure TerminalExitStatus where
  value : Value
  isObject : value.isObject = true

/-- What one snapshot says. -/
structure Publication where
  output : List UInt8
  append : Bool
  retainedBytes : ℕ
  truncated : Bool
  exitStatus : Option TerminalExitStatus
  released : Bool
  /-- A byte count fits 64 bits. -/
  retainedBytes_lt : retainedBytes < 2 ^ 64

/-- A character's text is its bytes decoded, each ill-formed sequence replaced. -/
def fromUtf8Lossy (bytes : List UInt8) : String := .ofList (Utf8.lossy bytes)

namespace Publication

/-- The snapshot as it is published. -/
def value (sessionId terminalId : String) (self : Publication) : Value :=
  .ofFields
    [("sessionId", .string sessionId),
      ("terminalId", .string terminalId),
      ("output", .string (fromUtf8Lossy self.output)),
      ("outputBytes", .string (Base64.encode self.output)),
      ("outputAppend", .bool self.append),
      ("retainedBytes", .number (.int self.retainedBytes)),
      ("truncated", .bool self.truncated),
      ("exitStatus", self.exitStatus.elim .null (·.value)),
      ("released", .bool self.released)]

/-- Whether the command still runs and its terminal is not released. -/
def running (self : Publication) : Bool := self.exitStatus.isNone && !self.released

/-- The snapshot that registers a terminal which was just created. -/
def created : Publication where
  output := []
  append := true
  retainedBytes := 0
  truncated := false
  exitStatus := none
  released := false
  retainedBytes_lt := by decide

end Publication

/-- The bytes of a snapshot: the encoded ones, or those of its text. -/
def outputBytes (value : Value) : List UInt8 :=
  (((value.get "outputBytes").bind Value.asStr).bind Base64.decode).getD
    (Utf8.encode (((value.get "output").bind Value.asStr).getD "").toList)

/-- Keep the last bytes, as many as the limit allows, from the start of a character on. -/
def retain (output : List UInt8) (limit : ℕ) : List UInt8 :=
  let output := if output.length > limit then output.drop (output.length - limit) else output
  output.dropWhile Utf8.isContinuation

/-- The bytes that are shown: while the command runs, a sequence cut at the end is held back if
nothing before it is ill-formed. -/
def visible (running : Bool) (output : List UInt8) : List UInt8 :=
  if running then
    match Utf8.firstError output with
    | some (validUpTo, none) => output.take validUpTo
    | _ => output
  else output

/-- The bytes of a snapshot after the one before it. -/
def foldedBytes (previous : Option Value) (incoming : Value) : List UInt8 :=
  let append := (incoming.get "outputAppend").bind Value.asBool = some true
  let output := (if append then (previous.map outputBytes).getD [] else []) ++ outputBytes incoming
  retain output (((incoming.get "retainedBytes").bind Value.asU64).getD output.length)

/-- Fold a published snapshot into the one before it. -/
def foldTerminalSnapshot (previous : Option Value) (incoming : Value) : Value :=
  let output := foldedBytes previous incoming
  let running := (incoming.get "exitStatus").all Value.isNull &&
    decide ((incoming.get "released").bind Value.asBool ≠ some true)
  let snapshot := incoming.set "output" (.string (fromUtf8Lossy (visible running output)))
  let snapshot := snapshot.set "outputBytes" (.string (Base64.encode output))
  (snapshot.remove "outputAppend").remove "retainedBytes"

theorem get_retainedBytes_foldTerminalSnapshot (previous : Option Value) (incoming : Value) :
    (foldTerminalSnapshot previous incoming).get "retainedBytes" = none := by
  rw [foldTerminalSnapshot, Value.get_remove, if_pos rfl]

section Fields

variable (sessionId terminalId : String) (self : Publication)

theorem isObject_value : (self.value sessionId terminalId).isObject = true := by
  simp [Publication.value, Value.ofFields]

theorem get_value_terminalId :
    (self.value sessionId terminalId).get "terminalId" = some (.string terminalId) := by
  simp [Publication.value, Value.ofFields, Value.get_set]

theorem get_value_output :
    (self.value sessionId terminalId).get "outputBytes" =
      some (.string (Base64.encode self.output)) := by
  simp [Publication.value, Value.ofFields, Value.get_set]

theorem get_value_append :
    (self.value sessionId terminalId).get "outputAppend" = some (.bool self.append) := by
  simp [Publication.value, Value.ofFields, Value.get_set]

theorem get_value_retainedBytes : (self.value sessionId terminalId).get "retainedBytes" =
    some (.number (.int self.retainedBytes)) := by
  simp [Publication.value, Value.ofFields, Value.get_set]

theorem get_value_exitStatus : (self.value sessionId terminalId).get "exitStatus" =
    some (self.exitStatus.elim .null (·.value)) := by
  simp [Publication.value, Value.ofFields, Value.get_set]

theorem get_value_released :
    (self.value sessionId terminalId).get "released" = some (.bool self.released) := by
  simp [Publication.value, Value.ofFields, Value.get_set]

/-- The bytes of a published snapshot are those it was made of. -/
@[simp] theorem outputBytes_value :
    outputBytes (self.value sessionId terminalId) = self.output := by
  simp [outputBytes, get_value_output, Value.asStr]

theorem asU64_retainedBytes :
    (Value.number (.int self.retainedBytes)).asU64 = some self.retainedBytes := by
  have hlt := self.retainedBytes_lt
  rw [Value.asU64, if_pos ⟨by omega, by omega⟩, Int.toNat_natCast]

theorem foldedBytes_value (previous : Option Value) :
    foldedBytes previous (self.value sessionId terminalId) =
      retain ((if self.append then (previous.map outputBytes).getD [] else []) ++ self.output)
        self.retainedBytes := by
  rw [foldedBytes, get_value_append, get_value_retainedBytes, outputBytes_value, Option.bind_some,
    Option.bind_some, asU64_retainedBytes]
  simp only [Value.asBool, Option.some.injEq, Option.getD_some]

theorem get_outputBytes_foldTerminalSnapshot (previous : Option Value) :
    (foldTerminalSnapshot previous (self.value sessionId terminalId)).get "outputBytes" =
      some (.string (Base64.encode (foldedBytes previous (self.value sessionId terminalId)))) := by
  rw [foldTerminalSnapshot]
  generalize foldedBytes previous (self.value sessionId terminalId) = output
  simp [Value.get_remove, Value.get_set, isObject_value]

theorem get_terminalId_foldTerminalSnapshot (previous : Option Value) :
    (foldTerminalSnapshot previous (self.value sessionId terminalId)).get "terminalId" =
      some (.string terminalId) := by
  rw [foldTerminalSnapshot]
  generalize foldedBytes previous (self.value sessionId terminalId) = output
  simp [Value.get_remove, get_value_terminalId]

theorem get_released_foldTerminalSnapshot (previous : Option Value) :
    (foldTerminalSnapshot previous (self.value sessionId terminalId)).get "released" =
      some (.bool self.released) := by
  rw [foldTerminalSnapshot]
  generalize foldedBytes previous (self.value sessionId terminalId) = output
  simp [Value.get_remove, get_value_released]

/-- The bytes of a folded snapshot are what the fold kept. -/
@[simp] theorem outputBytes_foldTerminalSnapshot (previous : Option Value) :
    outputBytes (foldTerminalSnapshot previous (self.value sessionId terminalId)) =
      foldedBytes previous (self.value sessionId terminalId) := by
  rw [outputBytes, get_outputBytes_foldTerminalSnapshot, Option.bind_some, Value.asStr,
    Option.bind_some, Base64.decode_encode, Option.getD_some]

/-- The text of a folded snapshot is what is visible of its bytes. -/
theorem get_output_foldTerminalSnapshot (previous : Option Value) :
    (foldTerminalSnapshot previous (self.value sessionId terminalId)).get "output" =
      some (.string (fromUtf8Lossy
        (visible self.running (foldedBytes previous (self.value sessionId terminalId))))) := by
  have hrunning : ((self.exitStatus.elim Value.null (·.value)).isNull && !self.released) =
      self.running := by
    rw [Publication.running]
    cases hexit : self.exitStatus with
    | none => rfl
    | some status =>
        have hobject := status.isObject
        cases hvalue : status.value <;> simp_all [Value.isNull, Value.isObject]
  have hasBool : decide (Value.asBool (.bool self.released) ≠ some true) = !self.released := by
    cases self.released <;> rfl
  rw [foldTerminalSnapshot]
  generalize foldedBytes previous (self.value sessionId terminalId) = output
  simp only [get_value_exitStatus, get_value_released, Option.all_some, Option.bind_some, hasBool,
    hrunning]
  simp [Value.get_remove, Value.get_set, isObject_value]

end Fields

end Attyd.Terminals
