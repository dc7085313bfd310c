import Attyd.Library.Utf8
import Attyd.Library.Walk

/-!
# Attachments in session views

A content block with inline content is shown to a browser as a link to it. The link names the
block by the hash of its text and the session it belongs to; the view itself keeps the block, so
the block is found again by walking over the view.

## Implementation notes

The hash is a parameter: the lower-case digits of the SHA-256 of a block as it is printed. A
block is printed with its keys in the order of their insertion, which a tree does not record. The
hash of a tree is that of the block as the view keeps it: links are made from that block and looked
up in copies of it, and a copy keeps the order. So blocks with one tree are taken to print alike.
-/

namespace Attyd.Attachments

open Json (Value Walk Path)

def referenceKey : String := "attyd/attachment"

structure SessionResourceOwner where
  epoch : String
  sessionId : String
  incarnation : Nat
  deriving DecidableEq

structure AttachmentReference where
  id : String
  sessionId : String
  bridgeEpoch : String
  sessionIncarnation : Nat
  deriving DecidableEq

namespace AttachmentReference

def owner (self : AttachmentReference) : SessionResourceOwner :=
  ⟨self.bridgeEpoch, self.sessionId, self.sessionIncarnation⟩

def toValue (self : AttachmentReference) : Value :=
  .ofFields
    [("id", .string self.id), ("sessionId", .string self.sessionId),
      ("bridgeEpoch", .string self.bridgeEpoch),
      ("sessionIncarnation", .ofNat self.sessionIncarnation)]

/-- A reference is read from an object without other fields, or from its fields in order. -/
def ofValue : Value → Option AttachmentReference
  | .object keys field => do
      guard (keys ⊆ {"id", "sessionId", "bridgeEpoch", "sessionIncarnation"})
      let id ← (Value.object keys field).getStr "id"
      let sessionId ← (Value.object keys field).getStr "sessionId"
      let bridgeEpoch ← (Value.object keys field).getStr "bridgeEpoch"
      let sessionIncarnation ←
        ((Value.object keys field).get "sessionIncarnation").bind Value.asU64
      some ⟨id, sessionId, bridgeEpoch, sessionIncarnation⟩
  | .array [id, sessionId, bridgeEpoch, sessionIncarnation] => do
      some ⟨← id.asStr, ← sessionId.asStr, ← bridgeEpoch.asStr, ← sessionIncarnation.asU64⟩
  | _ => none

end AttachmentReference

/-- The reference that a link carries. -/
def reference (block : Value) : Option AttachmentReference :=
  if block.index "type" = .string "resource_link" then
    (block.pointer ["_meta", referenceKey]).bind AttachmentReference.ofValue
  else none

/-- What holds the content of a block with inline content. -/
def resource (block : Value) : Option Value :=
  match (block.index "type").asStr with
  | some "image" | some "audio" => some block
  | some "resource" => block.get "resource"
  | _ => none

def mimeType (resource : Value) : String :=
  (resource.getStr "mimeType").getD
    (if (resource.index "text").isString then "text/plain" else "application/octet-stream")

section Name

def isControl (c : Char) : Bool := c.toNat < 0x20 || (0x7f ≤ c.toNat && c.toNat ≤ 0x9f)

def hexDigit (b : UInt8) : Option Nat :=
  let n := b.toNat
  if 48 ≤ n ∧ n ≤ 57 then some (n - 48)
  else if 65 ≤ n ∧ n ≤ 70 then some (n - 55)
  else if 97 ≤ n ∧ n ≤ 102 then some (n - 87)
  else none

/-- A percent sign stands for itself unless two digits follow it. -/
def percentDecode : List UInt8 → List UInt8
  | b :: high :: low :: rest =>
      match if b = 37 then (hexDigit high).bind fun x => (hexDigit low).map (x * 16 + ·) else none with
      | some n => .ofNat n :: percentDecode rest
      | none => b :: percentDecode (high :: low :: rest)
  | bytes => bytes

/-- The separators of a form are written as percent codes. -/
def protect (c : Char) : List Char :=
  if c = '+' then ['%', '2', 'B'] else if c = '&' then ['%', '2', '6'] else [c]

/-- A path segment read as the value of a form. -/
def formDecode (segment : List Char) : List Char :=
  Utf8.lossy (percentDecode (Utf8.encode (segment.flatMap protect)))

/-- The last part of the path of a URI that is not empty. -/
def lastSegment (uri : String) : Option (List Char) :=
  ((uri.toList.takeWhile fun c => c ≠ '?' && c ≠ '#').splitOn '/').reverse.find? (!·.isEmpty)

def uriName (uri : String) : Option String :=
  ((lastSegment uri).map fun segment =>
    String.ofList ((formDecode segment).map fun c =>
      if isControl c || c = '/' || c = '\\' then '_' else c)).filter
    fun name => !(name = "" || name = "." || name = "..")

def subtype (mime : String) : String :=
  String.ofList ((((mime.toList.takeWhile (· ≠ ';')).splitOn '/')[1]?).getD [])

def name (resource : Value) : String :=
  ((resource.getStr "uri").bind uriName).getD
    (let kind := subtype (mimeType resource)
     if kind ≠ "" ∧ kind ≠ "octet-stream" ∧ kind.toList.all fun c => c.isAlphanum then
       "attachment." ++ kind
     else "attachment")

end Name

section Projection

variable (hash : Value → String)

/-- The text under `data`, or else under `blob`. -/
def encodedData (resource : Value) : Option String :=
  resource.getStr "data" <|> resource.getStr "blob"

/-- How many bytes the content has; of encoded data, by the length of the text. -/
def size (resource : Value) : Nat :=
  match resource.getStr "text" with
  | some text => text.utf8ByteSize
  | none =>
      let data := (encodedData resource).getD ""
      data.utf8ByteSize / 4 * 3 - (data.toList.reverse.takeWhile (· = '=')).length

/-- A block with inline content is replaced by a link to it. -/
def projectBlock (owner : SessionResourceOwner) (block : Value) : Value :=
  match resource block with
  | none => block
  | some resource =>
      let reference : AttachmentReference :=
        ⟨hash block, owner.sessionId, owner.epoch, owner.incarnation⟩
      let projected := Value.ofFields
        [("type", .string "resource_link"), ("name", .string (name resource)),
          ("size", .ofNat (size resource)),
          ("uri", .string ((resource.getStr "uri").getD ("attyd://attachment/" ++ reference.id))),
          ("mimeType", .string (mimeType resource)),
          ("_meta", .ofFields [(referenceKey, reference.toValue)])]
      match block.get "annotations" with
      | some annotations => projected.set "annotations" annotations
      | none => projected

end Projection

section Walks

open Json.Walk

/-- A walk through another field leaves a tag alone. -/
theorem index_modify_key {tag field : String} (h : tag ≠ field) (walk : Walk)
    (f : Value → Value) (v : Value) : ((walk.key field).modify f v).index tag = v.index tag := by
  simp only [key, Value.index]
  cases hv : v.get field with
  | none => rfl
  | some part => rw [Option.elim_some, Value.get_set_of_ne h]

/-- The blocks of an item in the content of a tool call. -/
def contentBlocks (content : Value) : Walk :=
  if content.index "type" = .string "content" then here.key "content" else nothing

theorem contentBlocks_stable (f : Value → Value) (v : Value) :
    contentBlocks ((contentBlocks v).modify f v) = contentBlocks v := by
  by_cases h : v.index "type" = .string "content"
  · have hblocks : contentBlocks v = here.key "content" := if_pos h
    rw [hblocks]
    exact if_pos ((index_modify_key (by decide) here f v).trans h)
  · have hblocks : contentBlocks v = nothing := if_neg h
    rw [hblocks]
    exact hblocks

def toolBlocks : Walk := (items (choose contentBlocks contentBlocks_stable)).key "content"

/-- The blocks of an update, by the kind it has. -/
def blocksOfKind : Option String → Walk
  | some "user_message_chunk" | some "agent_message_chunk" | some "agent_thought_chunk"
  | some "compaction_summary_chunk" => here.key "content"
  | some "tool_call" | some "tool_call_update" => toolBlocks
  | _ => nothing

theorem blocksOfKind_cases (kind : Option String) :
    blocksOfKind kind = here.key "content" ∨ blocksOfKind kind = toolBlocks ∨
      blocksOfKind kind = nothing := by
  unfold blocksOfKind
  split <;> simp

theorem blocksOfKind_stable (f : Value → Value) (v : Value) :
    blocksOfKind (((blocksOfKind (v.index "sessionUpdate").asStr).modify f v).index
      "sessionUpdate").asStr = blocksOfKind (v.index "sessionUpdate").asStr := by
  rcases blocksOfKind_cases (v.index "sessionUpdate").asStr with h | h | h
  · rw [h, index_modify_key (by decide), h]
  · rw [h, toolBlocks, index_modify_key (by decide), ← toolBlocks, h]
  · rw [h]
    exact h

def updateBlocks : Walk :=
  choose (fun update => blocksOfKind (update.index "sessionUpdate").asStr) blocksOfKind_stable

/-- The places of a view, a page or an event that hold content blocks. Tool input and output
and the data of extensions are no such places. -/
def places : List (List String × Walk) :=
  [(["timeline"], items updateBlocks), (["activeTurn", "updates"], items updateBlocks),
    (["baseline", "updates"], items updateBlocks),
    (["session", "activeTurn", "updates"], items updateBlocks),
    (["prompt"], items here), (["activeTurn", "prompt"], items here),
    (["session", "activeTurn", "prompt"], items here),
    (["items"], items (items updateBlocks)), (["change", "update"], updateBlocks),
    (["interactions", "permissions"], members (toolBlocks.pointer ["request", "toolCall"])),
    (["live", "permissions"], members (toolBlocks.pointer ["request", "toolCall"])),
    (["change", "interaction", "request", "toolCall"], toolBlocks)]

def blocks : Walk := fields places (by decide)

/-- The session that a view, a page or an event belongs to. -/
def ownerOf (value : Value) : Option SessionResourceOwner := do
  let epoch ← (value.index "bridgeEpoch").asStr
  let sessionId ← (value.index "sessionId").asStr
  let incarnation ← (value.index "sessionIncarnation").asU64
  some ⟨epoch, sessionId, incarnation⟩

def project (hash : Value → String) (value : Value) : Value :=
  match ownerOf value with
  | some owner => blocks.modify (projectBlock hash owner) value
  | none => value

/-- The first block with inline content that has an id. -/
def find (hash : Value → String) (view : Value) (attachmentId : String) : Option Value :=
  (blocks.parts view).find? fun block => (resource block).isSome && hash block = attachmentId

end Walks

end Attyd.Attachments
