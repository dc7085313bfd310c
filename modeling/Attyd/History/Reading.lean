import Attyd.Library.Machine
import Attyd.History.Fold

/-!
# What a session update reads as

The kind of an update decides which of its fields are checked. Each reading is
characterized by those fields, and the two edits that build a new entry from an
old one, joining text and patching a tool, are given by what they read as.
-/

namespace Attyd.History

open Json (Value)

@[simp] theorem okOr_eq_ok {α : Type*} {o : Option α} {a : α} : okOr o = .ok a ↔ o = some a := by
  cases o <;> simp [okOr]

@[simp] theorem okOr_some {α : Type*} (a : α) : okOr (some a) = .ok a := rfl

theorem requiredFoldString_eq_ok {value : Value} {field text : String} :
    requiredFoldString value field = .ok text ↔ value.getStr field = some text ∧ text ≠ "" := by
  simp [requiredFoldString, Option.filter_eq_some_iff]

section Kind

theorem updateKind_congr {v w : Value} (h : v.get "sessionUpdate" = w.get "sessionUpdate") :
    updateKind v = updateKind w := by
  simp [updateKind, Value.getStr, h]

@[simp] theorem updateKind_setText (update : Value) (text : String) :
    updateKind (setText update text) = updateKind update :=
  updateKind_congr (by simp [setText])

@[simp] theorem updateKind_remove_messageId (update : Value) :
    updateKind (update.remove "messageId") = updateKind update :=
  updateKind_congr (by simp [Value.get_remove])

end Kind

section Text

/-- The part of a text chunk that has to agree for two chunks to join. -/
def shapeOf (update : Value) : Value :=
  setText (if (update.get "messageId").any (·.isNull) then update.remove "messageId" else update) ""

/-- A text chunk with well-formed fields and the given text. -/
structure IsTextChunk (update : Value) (text : String) : Prop where
  kind : (updateKind update).isTextChunk = true
  content : ∃ content, update.get "content" = some content ∧
    content.getStr "type" = some "text" ∧ content.getStr "text" = some text
  messageId : (update.get "messageId").any
    (fun messageId => !messageId.isNull && !messageId.isString) = false

theorem textChunkShape_eq_some {update shape : Value} {text : String} :
    textChunkShape update = .ok (some (shape, text)) ↔
      IsTextChunk update text ∧ shape = shapeOf update := by
  constructor
  · intro h
    unfold textChunkShape at h
    split at h
    case isFalse => cases h
    case isTrue hk =>
      obtain ⟨content, hc, h⟩ := bind_eq_ok.mp h
      obtain ⟨contentType, ht, h⟩ := bind_eq_ok.mp h
      obtain ⟨hc, -⟩ := Option.filter_eq_some_iff.mp (okOr_eq_ok.mp hc)
      split at h
      case isTrue => cases h
      case isFalse hm =>
        split at h
        case isTrue => cases h
        case isFalse hty =>
          obtain ⟨text', htx, h⟩ := bind_eq_ok.mp h
          cases h
          have hty : contentType = "text" := by simpa using hty
          subst hty
          exact ⟨⟨hk, ⟨content, hc, okOr_eq_ok.mp ht, okOr_eq_ok.mp htx⟩, by simpa using hm⟩, rfl⟩
  · rintro ⟨⟨hk, ⟨content, hc, hty, htx⟩, hm⟩, rfl⟩
    have ho := Value.isObject_of_getStr hty
    simp [textChunkShape, hk, hc, hty, htx, hm, ho, shapeOf, Option.filter]

theorem textChunkShape_of_not_textChunk {update : Value}
    (h : (updateKind update).isTextChunk = false) : textChunkShape update = .ok none := by
  simp [textChunkShape, h]

theorem IsTextChunk.isObject {update : Value} {text : String} (h : IsTextChunk update text) :
    update.isObject = true := by
  obtain ⟨content, hc, -, -⟩ := h.content
  exact Value.isObject_of_get hc

theorem IsTextChunk.setText {update : Value} {s : String} (h : IsTextChunk update s) (t : String) :
    IsTextChunk (setText update t) t := by
  obtain ⟨content, hc, hty, htx⟩ := h.content
  have ho := Value.isObject_of_getStr hty
  refine ⟨by simpa using h.kind, ⟨content.set "text" (.string t), ?_, ?_, ?_⟩, ?_⟩
  · simp [History.setText, Value.get_set_self h.isObject, Value.index, hc]
  · rw [Value.getStr_set_of_ne (by decide), hty]
  · simp [Value.getStr_set_self ho, Value.asStr]
  · simpa [History.setText] using h.messageId

/-- Chunks of the same shape are of the same kind. -/
theorem updateKind_eq_of_alike {v w : Value} (h : (shapeOf v).alike (shapeOf w) = true) :
    updateKind v = updateKind w := by
  have hk (x : Value) : updateKind (shapeOf x) = updateKind x := by
    unfold shapeOf
    split <;> simp
  rw [← hk v, ← hk w, updateKind, updateKind, Value.getStr_of_alike h]

end Text

section Tool

/-- A retained entry of the given tool. -/
theorem isToolOf_iff {toolCallId : String} {candidate : Value} :
    isToolOf toolCallId candidate = true ↔
      (updateKind candidate).isTool = true ∧ candidate.getStr "toolCallId" = some toolCallId := by
  simp [isToolOf]

/-- The patched entry of a tool, when both sides are objects. -/
def patchedTool (target update : Value) (toolCallId : String) : Value :=
  ((target.patch update).set "sessionUpdate"
    (if updateKind update = .toolCall then .string "tool_call" else target.index "sessionUpdate")).set
    "toolCallId" (.string toolCallId)

theorem patchTool_eq_ok {target update : Value} (ht : target.isObject = true)
    (hu : update.isObject = true) (toolCallId : String) :
    patchTool target update toolCallId = .ok (patchedTool target update toolCallId) := by
  simp [patchTool, replaceToolFields, ht, hu, patchedTool]

theorem get_patchedTool {target update : Value} (ht : target.isObject = true)
    (hu : update.isObject = true) (toolCallId k : String) :
    (patchedTool target update toolCallId).get k =
      if k = "toolCallId" then some (.string toolCallId)
      else if k = "sessionUpdate" then
        some (if updateKind update = .toolCall then .string "tool_call"
          else target.index "sessionUpdate")
      else ((update.get k).filter (!·.isNull) <|> target.get k) := by
  rw [patchedTool, Value.get_set (by simp [ht]), Value.get_set (by simp [ht]), Value.get_patch ht hu]

@[simp] theorem getStr_patchedTool_toolCallId {target update : Value} (ht : target.isObject = true)
    (hu : update.isObject = true) (toolCallId : String) :
    (patchedTool target update toolCallId).getStr "toolCallId" = some toolCallId := by
  simp [Value.getStr, get_patchedTool ht hu, Value.asStr]

/-- A full call decides the kind of the patched entry; a patch leaves it. -/
theorem updateKind_patchedTool {target update : Value} (ht : target.isObject = true)
    (hu : update.isObject = true) (toolCallId : String) :
    updateKind (patchedTool target update toolCallId) =
      if updateKind update = .toolCall then .toolCall else updateKind target := by
  have hget : (patchedTool target update toolCallId).get "sessionUpdate" =
      some (if updateKind update = .toolCall then .string "tool_call"
        else target.index "sessionUpdate") := by
    rw [get_patchedTool ht hu]
    simp
  rw [updateKind, Value.getStr, hget]
  split
  · rfl
  · cases htk : target.get "sessionUpdate" <;>
      simp [updateKind, Value.index, Value.getStr, Value.asStr, htk]

theorem isToolOf_patchedTool {target update : Value} {toolCallId : String}
    (ht : isToolOf toolCallId target = true) (hu : update.isObject = true) :
    isToolOf toolCallId (patchedTool target update toolCallId) = true := by
  have ⟨hk, hid⟩ := isToolOf_iff.mp ht
  have ho := Value.isObject_of_getStr hid
  refine isToolOf_iff.mpr ⟨?_, getStr_patchedTool_toolCallId ho hu toolCallId⟩
  rw [updateKind_patchedTool ho hu]
  split
  · rfl
  · exact hk

end Tool

section Reading

/-- The fields behind each reading of an update. -/
inductive Reads (update : Value) : Reading → Prop where
  | other (kind : updateKind update = .other) : Reads update .entry
  | content (kind : (updateKind update).isTextChunk = true)
      (shape : textChunkShape update = .ok none) : Reads update .entry
  | chunk {text : String} (chunk : IsTextChunk update text) :
      Reads update (.chunk (shapeOf update) text)
  | tool {toolCallId : String} (kind : (updateKind update).isTool = true)
      (id : update.getStr "toolCallId" = some toolCallId) (nonempty : toolCallId ≠ "") :
      Reads update (.tool toolCallId)
  | plan (kind : updateKind update = .plan)
      (entries : (update.get "entries").any (·.isArray) = true) : Reads update .plan
  | planUpdate {planId : String} {plan : Value} (kind : updateKind update = .planUpdate)
      (found : update.get "plan" = some plan) (id : plan.getStr "planId" = some planId)
      (nonempty : planId ≠ "")
      (items : (plan.getStr "type" = some "items" && !(plan.get "entries").any (·.isArray)) = false) :
      Reads update (.planUpdate planId)
  | planRemoved {planId : String} (kind : updateKind update = .planRemoved)
      (id : update.getStr "planId" = some planId) (nonempty : planId ≠ "") :
      Reads update (.planRemoved planId)

private theorem readUpdate_textChunk {update : Value}
    (h : (updateKind update).isTextChunk = true) :
    readUpdate update = textChunkShape update >>= fun read =>
      match read with
      | some (shape, text) => .ok (.chunk shape text)
      | none => .ok .entry := by
  unfold readUpdate
  split <;> first | rfl | simp_all [UpdateKind.isTextChunk]

private theorem readUpdate_tool {update : Value} (h : (updateKind update).isTool = true) :
    readUpdate update =
      requiredFoldString update "toolCallId" >>= fun toolCallId => .ok (.tool toolCallId) := by
  unfold readUpdate
  split <;> first | rfl | simp_all [UpdateKind.isTool]

/-- Reading an update is checking the fields its kind asks for. -/
theorem readUpdate_eq_ok {update : Value} {reading : Reading} :
    readUpdate update = .ok reading ↔ Reads update reading := by
  constructor
  · intro h
    cases hk : updateKind update with
    | userMessageChunk | agentMessageChunk | agentThoughtChunk =>
        have hc : (updateKind update).isTextChunk = true := by rw [hk]; rfl
        rw [readUpdate_textChunk hc] at h
        obtain ⟨shape, hs, h⟩ := bind_eq_ok.mp h
        cases shape with
        | none => cases h; exact .content hc hs
        | some s =>
            cases h
            obtain ⟨ht, hshape⟩ := textChunkShape_eq_some.mp hs
            rw [hshape]
            exact .chunk ht
    | toolCall | toolCallUpdate =>
        have ht : (updateKind update).isTool = true := by rw [hk]; rfl
        rw [readUpdate_tool ht] at h
        obtain ⟨toolCallId, hid, h⟩ := bind_eq_ok.mp h
        cases h
        obtain ⟨hid, hne⟩ := requiredFoldString_eq_ok.mp hid
        exact .tool ht hid hne
    | plan =>
        simp only [readUpdate, hk] at h
        split at h
        case isTrue he => cases h; exact .plan hk he
        case isFalse => cases h
    | planUpdate =>
        simp only [readUpdate, hk] at h
        obtain ⟨plan, hp, h⟩ := bind_eq_ok.mp h
        obtain ⟨planId, hid, h⟩ := bind_eq_ok.mp h
        obtain ⟨hp, -⟩ := Option.filter_eq_some_iff.mp (okOr_eq_ok.mp hp)
        obtain ⟨hid, hne⟩ := requiredFoldString_eq_ok.mp hid
        split at h
        case isTrue => cases h
        case isFalse hi => cases h; exact .planUpdate hk hp hid hne (by simpa using hi)
    | planRemoved =>
        simp only [readUpdate, hk] at h
        obtain ⟨planId, hid, h⟩ := bind_eq_ok.mp h
        cases h
        obtain ⟨hid, hne⟩ := requiredFoldString_eq_ok.mp hid
        exact .planRemoved hk hid hne
    | other =>
        simp only [readUpdate, hk] at h
        cases h
        exact .other hk
  · intro h
    cases h with
    | other kind => simp [readUpdate, kind]
    | content kind shape => simp [readUpdate_textChunk kind, shape]
    | chunk chunk =>
        rw [readUpdate_textChunk chunk.kind, textChunkShape_eq_some.mpr ⟨chunk, rfl⟩]
        rfl
    | tool kind id nonempty =>
        rw [readUpdate_tool kind, requiredFoldString_eq_ok.mpr ⟨id, nonempty⟩]
        rfl
    | plan kind entries => simp [readUpdate, kind, entries]
    | planUpdate kind found id nonempty items =>
        have ho := Value.isObject_of_getStr id
        simp only [readUpdate, kind, found, Option.filter_some, ho, if_true, okOr_some, ok_bind,
          requiredFoldString_eq_ok.mpr ⟨id, nonempty⟩, items]
        rfl
    | planRemoved kind id nonempty =>
        simp only [readUpdate, kind, requiredFoldString_eq_ok.mpr ⟨id, nonempty⟩, ok_bind]

theorem Reads.tool_of_kind {update : Value} {reading : Reading} (h : Reads update reading)
    (hk : (updateKind update).isTool = true) : ∃ toolCallId, reading = .tool toolCallId := by
  cases h with
  | tool => exact ⟨_, rfl⟩
  | other kind | plan kind | planUpdate kind | planRemoved kind => simp [kind, UpdateKind.isTool] at hk
  | content kind | chunk chunk =>
      have hc : (updateKind update).isTextChunk = true := by first | exact kind | exact chunk.kind
      revert hk hc
      cases updateKind update <;> simp [UpdateKind.isTool, UpdateKind.isTextChunk]

/-- An update whose own fields pass the checks. -/
def Valid (update : Value) : Prop := ∃ reading, Reads update reading

/-- The shape of a valid entry can be read. -/
theorem Valid.shape_ok {update : Value} (h : Valid update) :
    ∃ shape, textChunkShape update = .ok shape := by
  obtain ⟨reading, h⟩ := h
  cases h with
  | content kind shape => exact ⟨none, shape⟩
  | chunk chunk => exact ⟨_, textChunkShape_eq_some.mpr ⟨chunk, rfl⟩⟩
  | other kind | plan kind | planUpdate kind | planRemoved kind =>
      exact ⟨none, textChunkShape_of_not_textChunk (by rw [kind]; rfl)⟩
  | tool kind =>
      refine ⟨none, textChunkShape_of_not_textChunk ?_⟩
      revert kind
      cases updateKind update <;> simp [UpdateKind.isTool, UpdateKind.isTextChunk]

theorem Valid.of_setText {update : Value} {s : String} (h : IsTextChunk update s) (t : String) :
    Valid (setText update t) :=
  ⟨_, .chunk (h.setText t)⟩

theorem Valid.of_patchedTool {target update : Value} {toolCallId : String}
    (ht : isToolOf toolCallId target = true) (hu : update.isObject = true)
    (hne : toolCallId ≠ "") : Valid (patchedTool target update toolCallId) := by
  obtain ⟨hk, hid⟩ := isToolOf_iff.mp (isToolOf_patchedTool ht hu)
  exact ⟨_, .tool hk hid hne⟩

end Reading

end Attyd.History
