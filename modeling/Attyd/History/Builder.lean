import Mathlib.Logic.Function.Basic
import Attyd.History.Roles

/-!
# The incremental history builder

A replay folds into a builder that looks only at the slot an update touches. It
keeps the start of the last turn, the last position of every tool and the length
of the serialized list beside the list. `Indexed` gives each of them in closed
form; an append keeps it and makes the placement of the plain fold.
-/

namespace Attyd.History

open Json (Value)

structure HistoryBuilder where
  updates : List Value
  bytes : Nat
  turnStart : Nat
  tools : String → Option Nat

namespace HistoryBuilder

def default : HistoryBuilder := ⟨[], 0, 0, fun _ => none⟩

/-- The slot an update may change. -/
def position (self : HistoryBuilder) (update : Value) : Option Nat :=
  match updateKind update with
  | .userMessageChunk | .agentMessageChunk | .agentThoughtChunk =>
      if self.updates.length = 0 then none else some (self.updates.length - 1)
  | .toolCall | .toolCallUpdate =>
      ((update.getStr "toolCallId").bind self.tools).filter fun position =>
        updateKind update = .toolCallUpdate || self.turnStart ≤ position
  | .plan =>
      ((self.updates.drop self.turnStart).findIdx? isPlan).map (· + self.turnStart)
  | .planUpdate =>
      ((self.updates.drop self.turnStart).findIdx? fun candidate =>
        updateKind candidate = .planUpdate &&
          (candidate.index "plan").index "planId" = (update.index "plan").index "planId").map
        (· + self.turnStart)
  | .planRemoved =>
      ((self.updates.drop self.turnStart).findIdx? fun candidate =>
        updateKind candidate = .planUpdate &&
          (candidate.index "plan").index "planId" = update.index "planId").map
        (· + self.turnStart)
  | .other => none

def removeAt (self : HistoryBuilder) (position : Nat) : HistoryBuilder :=
  let updates := self.updates.eraseIdx position
  let bytes := self.bytes - (self.updates.getD position .null).bytes
  { updates
    bytes := bytes - if updates.isEmpty then 0 else 1
    turnStart := self.turnStart
    tools := fun id => (self.tools id).map fun slot => if position < slot then slot - 1 else slot }

def replaceAt (self : HistoryBuilder) (position : Nat) (replacement : Value) : HistoryBuilder :=
  { self with
    updates := self.updates.set position replacement
    bytes := self.bytes - (self.updates.getD position .null).bytes + replacement.bytes }

def pushEntry (self : HistoryBuilder) (entry : Value) : HistoryBuilder :=
  let position := self.updates.length
  { updates := self.updates ++ [entry]
    bytes := (if self.updates.isEmpty then 2 else self.bytes + 1) + entry.bytes
    turnStart := if isUserChunk entry then position else self.turnStart
    tools :=
      if (updateKind entry).isTool then
        match entry.getStr "toolCallId" with
        | some id => Function.update self.tools id (some position)
        | none => self.tools
      else self.tools }

/-- Store the folded slot, then whatever the fold put behind it. -/
def absorb (self : HistoryBuilder) (position : Option Nat) (folded : List Value) :
    HistoryBuilder :=
  match position, folded with
  | some position, [] => self.removeAt position
  | some position, replacement :: rest =>
      rest.foldl pushEntry (self.replaceAt position replacement)
  | none, folded => folded.foldl pushEntry self

/-- Append one update; the answer comes with the builder as it is left. -/
def append (self : HistoryBuilder) (update : Value) :
    Except RuntimeStateError Unit × HistoryBuilder :=
  let position := self.position update
  let retained := (position.map fun position => self.updates.getD position .null).toList
  match foldActiveTurnUpdate retained update with
  | .error e => (.error e, self)
  | .ok folded => (.ok (), self.absorb position folded)

/-- The lookup indexes and the byte count say what the list says. -/
structure Indexed (b : HistoryBuilder) : Prop where
  valid : ValidHistory b.updates
  start : b.turnStart = History.turnStart b.updates
  tools : ∀ id, b.tools id = lastIdx? (isToolOf id) b.updates
  single : ∀ id, (b.updates.drop (History.turnStart b.updates)).countP (isToolOf id) ≤ 1
  bytes : b.updates ≠ [] → b.bytes = (Value.array b.updates).bytes
  empty : b.updates = [] → b.bytes ≤ 2

theorem indexed_default : Indexed default where
  valid := by simp [default, ValidHistory]
  start := rfl
  tools := fun _ => rfl
  single := by simp [default]
  bytes := fun h => absurd rfl h
  empty := by simp [default]

theorem Indexed.max_bytes {b : HistoryBuilder} (h : Indexed b) :
    max b.bytes 2 = (Value.array b.updates).bytes := by
  by_cases he : b.updates = []
  · have := h.empty he
    rw [he]
    simp only [Value.bytes, Value.listBytes, List.length_nil]
    omega
  · rw [h.bytes he]
    simp only [Value.bytes]
    omega

section Replace

variable {pre post : List Value} {old new : Value}

theorem turnStart_replace (h : SameRole old new) :
    History.turnStart (pre ++ new :: post) = History.turnStart (pre ++ old :: post) := by
  rw [History.turnStart, lastIdx?_replace h.user, History.turnStart]

/-- An entry behind the last user chunk is no part of where the turn starts. -/
theorem turnStart_remove (huser : isUserChunk old = false)
    (hturn : History.turnStart (pre ++ old :: post) ≤ pre.length) :
    History.turnStart (pre ++ post) = History.turnStart (pre ++ old :: post) := by
  unfold History.turnStart at hturn ⊢
  rw [lastIdx?_remove huser]
  cases hl : lastIdx? isUserChunk (pre ++ old :: post) with
  | none => rfl
  | some j =>
      have hj : ¬ pre.length < j := by simpa [hl] using hturn
      simp [hj]

theorem countP_drop_replace {p : Value → Bool} (h : p new = p old) (n : Nat) :
    ((pre ++ new :: post).drop n).countP p = ((pre ++ old :: post).drop n).countP p := by
  rw [List.drop_append, List.drop_append]
  cases n - pre.length <;> simp [List.countP_append, List.countP_cons, h]

theorem bytes_replace :
    (Value.array (pre ++ new :: post)).bytes + old.bytes =
      (Value.array (pre ++ old :: post)).bytes + new.bytes := by
  simp only [Value.bytes, Value.listBytes_append, Value.listBytes, List.length_append,
    List.length_cons]
  omega

theorem bytes_remove (h : pre ++ post ≠ []) :
    (Value.array (pre ++ old :: post)).bytes =
      (Value.array (pre ++ post)).bytes + old.bytes + 1 := by
  have hlen : 0 < pre.length + post.length := by
    rw [← List.length_append]
    exact List.length_pos_iff.mpr h
  simp only [Value.bytes, Value.listBytes_append, Value.listBytes, List.length_append,
    List.length_cons]
  omega

theorem updates_replaceAt {b : HistoryBuilder} (hs : b.updates = pre ++ old :: post) :
    (b.replaceAt pre.length new).updates = pre ++ new :: post := by
  simp [replaceAt, hs]

/-- Storing a slot keeps every index. -/
theorem Indexed.replaceAt {b : HistoryBuilder} (h : Indexed b)
    (hs : b.updates = pre ++ old :: post) (hv : Valid new) (hr : SameRole old new) :
    Indexed (b.replaceAt pre.length new) := by
  have hu : (b.replaceAt pre.length new).updates = pre ++ new :: post :=
    updates_replaceAt hs
  constructor
  · rw [hu]
    intro entry he
    have hold := h.valid entry
    rw [hs] at hold
    rcases List.mem_append.mp he with he | he
    · exact hold (List.mem_append_left _ he)
    · rcases List.mem_cons.mp he with rfl | he
      · exact hv
      · exact hold (List.mem_append_right _ (List.mem_cons_of_mem _ he))
  · rw [hu, turnStart_replace hr, ← hs]
    exact h.start
  · intro id
    rw [hu, lastIdx?_replace (hr.tool id), ← hs]
    exact h.tools id
  · intro id
    rw [hu, turnStart_replace hr, countP_drop_replace (hr.tool id), ← hs]
    exact h.single id
  · intro _
    have hb := h.bytes (by simp [hs])
    have hsum : (Value.array (pre ++ new :: post)).bytes + old.bytes =
        (Value.array (pre ++ old :: post)).bytes + new.bytes := bytes_replace
    rw [hu]
    simp only [HistoryBuilder.replaceAt, hb, hs]
    have hget : (pre ++ old :: post).getD pre.length .null = old := by simp
    have hle : old.bytes ≤ (Value.array (pre ++ old :: post)).bytes := by
      simp only [Value.bytes, Value.listBytes_append, Value.listBytes]
      omega
    rw [hget]
    omega
  · intro he
    simp [hu] at he

/-- Dropping a plan of the last turn moves the later tool positions down. -/
theorem Indexed.removeAt {b : HistoryBuilder} {planId : String} (h : Indexed b)
    (hs : b.updates = pre ++ old :: post) (hp : isPlanUpdateOf planId old = true)
    (hturn : History.turnStart b.updates ≤ pre.length) :
    Indexed (b.removeAt pre.length) ∧ (b.removeAt pre.length).updates = pre ++ post := by
  have hk := (isPlanUpdateOf_iff.mp hp).1
  have huser : isUserChunk old = false := by simp [isUserChunk, hk]
  have htool (id : String) : isToolOf id old = false := by simp [isToolOf, hk, UpdateKind.isTool]
  have hu : (b.removeAt pre.length).updates = pre ++ post := by
    change b.updates.eraseIdx pre.length = pre ++ post
    rw [hs, List.eraseIdx_append_of_length_le (Nat.le_refl _), Nat.sub_self, List.eraseIdx_cons_zero]
  have hget : b.updates.getD pre.length .null = old := by simp [hs]
  have hstart : History.turnStart (pre ++ post) = History.turnStart b.updates := by
    rw [hs] at hturn ⊢
    exact turnStart_remove huser hturn
  refine ⟨?_, hu⟩
  constructor
  · rw [hu]
    intro entry he
    apply h.valid entry
    rw [hs]
    rcases List.mem_append.mp he with he | he
    · exact List.mem_append_left _ he
    · exact List.mem_append_right _ (List.mem_cons_of_mem _ he)
  · rw [hu, hstart]
    exact h.start
  · intro id
    rw [hu, lastIdx?_remove (htool id), ← hs, ← h.tools id]
    rfl
  · intro id
    have hsingle := h.single id
    rw [hu, hstart]
    generalize History.turnStart b.updates = n at hturn hsingle ⊢
    rw [hs, List.drop_append_of_le_length hturn, List.countP_append, List.countP_cons, htool id]
      at hsingle
    rw [List.drop_append_of_le_length hturn, List.countP_append]
    simpa using hsingle
  · intro hne
    rw [hu] at hne
    have hb := h.bytes (by simp [hs])
    have hrem : (Value.array (pre ++ old :: post)).bytes =
        (Value.array (pre ++ post)).bytes + old.bytes + 1 := bytes_remove hne
    have hempty : (pre ++ post).isEmpty = false := by simpa using hne
    have heq : (b.removeAt pre.length).bytes = b.bytes - old.bytes - 1 := by
      change b.bytes - (b.updates.getD pre.length .null).bytes -
        (if (b.updates.eraseIdx pre.length).isEmpty then 0 else 1) = _
      rw [hget, show b.updates.eraseIdx pre.length = pre ++ post from hu, hempty]
      rfl
    rw [heq, hu, hb, hs]
    omega
  · intro he
    rw [hu] at he
    have hb := h.bytes (by simp [hs])
    obtain ⟨rfl, rfl⟩ := List.append_eq_nil_iff.mp he
    have hle : (b.removeAt ([] : List Value).length).bytes ≤ b.bytes - old.bytes := by
      change b.bytes - (b.updates.getD ([] : List Value).length .null).bytes - _ ≤ _
      rw [hget]
      exact Nat.sub_le _ _
    rw [hb, hs] at hle
    simp only [Value.bytes, List.nil_append, Value.listBytes, List.length_singleton] at hle
    omega

end Replace

section Push

/-- A new tool entry is the last of its tool. -/
theorem tools_pushEntry {b : HistoryBuilder} (h : Indexed b) (entry : Value) (id : String) :
    (b.pushEntry entry).tools id = lastIdx? (isToolOf id) (b.updates ++ [entry]) := by
  rw [lastIdx?_snoc, ← h.tools id]
  unfold pushEntry isToolOf
  cases hk : (updateKind entry).isTool with
  | false => simp
  | true =>
      cases hid : entry.getStr "toolCallId" with
      | none => simp
      | some toolCallId =>
          by_cases he : id = toolCallId
          · subst he
            simp
          · simp [Function.update_of_ne he, Ne.symm he]

theorem turnStart_snoc (xs : List Value) (entry : Value) :
    History.turnStart (xs ++ [entry]) =
      if isUserChunk entry then xs.length else History.turnStart xs := by
  unfold History.turnStart
  rw [lastIdx?_snoc]
  split <;> rfl

/-- Adding an entry keeps every index, as long as the last turn has no entry of
the same tool yet. -/
theorem Indexed.pushEntry {b : HistoryBuilder} {entry : Value} (h : Indexed b)
    (hv : Valid entry)
    (hnew : ∀ id, isToolOf id entry = true →
      (b.updates.drop (History.turnStart b.updates)).countP (isToolOf id) = 0) :
    Indexed (b.pushEntry entry) := by
  have hu : (b.pushEntry entry).updates = b.updates ++ [entry] := rfl
  constructor
  · rw [hu]
    intro e he
    rcases List.mem_append.mp he with he | he
    · exact h.valid e he
    · rw [List.mem_singleton.mp he]
      exact hv
  · rw [hu, turnStart_snoc, ← h.start]
    rfl
  · intro id
    exact tools_pushEntry h entry id
  · intro id
    rw [hu, turnStart_snoc]
    split
    · rw [List.drop_left]
      exact List.countP_le_length
    · rw [List.drop_append_of_le_length (turnStart_le _), List.countP_append, List.countP_singleton]
      split
      case isTrue htool => rw [hnew id htool]
      case isFalse => exact h.single id
  · intro _
    rw [hu]
    by_cases he : b.updates = []
    · simp [HistoryBuilder.pushEntry, he, Value.bytes]
    · have hlen := List.length_pos_iff.mpr he
      have hempty : b.updates.isEmpty = false := by simpa using he
      have hb := h.bytes he
      simp only [HistoryBuilder.pushEntry, hempty, hb]
      simp only [Value.bytes, Value.listBytes_append, Value.listBytes_singleton, List.length_append,
        List.length_singleton]
      simp only [Bool.false_eq_true, if_false]
      omega
  · intro he
    simp [hu] at he

end Push

section Append

variable {b : HistoryBuilder} {update : Value} {pre post : List Value} {old new : Value}

/-- A replaced slot is all that changes when the fold returns one entry. -/
theorem absorb_put (h : Indexed b) (hs : b.updates = pre ++ old :: post) (hv : Valid new)
    (hr : SameRole old new) :
    Indexed (b.absorb (some pre.length) [new]) ∧
      (b.absorb (some pre.length) [new]).updates = b.updates.set pre.length new :=
  ⟨h.replaceAt hs hv hr, rfl⟩

/-- A fold that returns the slot and a new entry adds the entry at the end. -/
theorem absorb_push (h : Indexed b) (hs : b.updates = pre ++ old :: post) (hv : Valid update)
    (hnew : ∀ id, isToolOf id update = true →
      (b.updates.drop (History.turnStart b.updates)).countP (isToolOf id) = 0) :
    Indexed (b.absorb (some pre.length) [old, update]) ∧
      (b.absorb (some pre.length) [old, update]).updates = b.updates ++ [update] := by
  have hold : Valid old := h.valid old (by rw [hs]; exact List.mem_append_right _ List.mem_cons_self)
  have hsame : (b.replaceAt pre.length old).updates = b.updates := by
    rw [updates_replaceAt hs, hs]
  constructor
  · apply (h.replaceAt hs hold (.refl old)).pushEntry hv
    rw [hsame]
    exact hnew
  · change (b.replaceAt pre.length old).updates ++ [update] = _
    rw [hsame]

theorem append_eq {reading : Reading} (hr : Reads update reading) {p : Option Nat}
    (hp : b.position update = p) {retained : List Value}
    (hret : (p.map fun position => b.updates.getD position .null).toList = retained)
    (hv : ValidHistory retained) :
    b.append update =
      (.ok (), b.absorb p ((activePlace retained update reading).apply retained)) := by
  simp only [append, hp, hret, foldActiveTurnUpdate_eq hv, readUpdate_eq_ok.mpr hr, Except.map]

/-- What an append has to show: it answers, keeps the indexes and makes the
placement of the plain fold. -/
def Follows (b : HistoryBuilder) (update : Value) (reading : Reading) : Prop :=
  ∃ b', b.append update = (.ok (), b') ∧ Indexed b' ∧
    b'.updates = (historyPlace b.updates update reading).apply b.updates

theorem follows_push_fresh {reading : Reading} (h : Indexed b) (hr : Reads update reading)
    (hp : b.position update = none)
    (hnil : activePlace [] update reading = .push update)
    (hplace : historyPlace b.updates update reading = .push update)
    (hnew : ∀ id, isToolOf id update = true →
      (b.updates.drop (History.turnStart b.updates)).countP (isToolOf id) = 0) :
    Follows b update reading := by
  refine ⟨b.pushEntry update, ?_, h.pushEntry ⟨_, hr⟩ hnew, ?_⟩
  · rw [append_eq hr hp rfl (by simp [ValidHistory]), Option.map_none, Option.toList_none, hnil]
    rfl
  · rw [hplace]
    rfl

theorem getD_of_split (hs : b.updates = pre ++ old :: post) :
    ((some pre.length).map fun position => b.updates.getD position .null).toList = [old] := by
  simp [hs]

theorem valid_of_split (h : Indexed b) (hs : b.updates = pre ++ old :: post) :
    ValidHistory [old] := by
  intro entry he
  rw [List.mem_singleton.mp he]
  exact h.valid old (by rw [hs]; exact List.mem_append_right _ List.mem_cons_self)

theorem follows_push_at {reading : Reading} (h : Indexed b) (hr : Reads update reading)
    (hs : b.updates = pre ++ old :: post) (hp : b.position update = some pre.length)
    (hone : activePlace [old] update reading = .push update)
    (hplace : historyPlace b.updates update reading = .push update)
    (hnew : ∀ id, isToolOf id update = true →
      (b.updates.drop (History.turnStart b.updates)).countP (isToolOf id) = 0) :
    Follows b update reading := by
  obtain ⟨hi, hu⟩ := absorb_push h hs ⟨_, hr⟩ hnew
  refine ⟨_, append_eq hr hp (getD_of_split hs) (valid_of_split h hs), ?_, ?_⟩
  · rw [hone]
    exact hi
  · rw [hone, hplace]
    exact hu

theorem follows_put {reading : Reading} (h : Indexed b) (hr : Reads update reading)
    (hs : b.updates = pre ++ old :: post) (hp : b.position update = some pre.length)
    (hone : activePlace [old] update reading = .put 0 new)
    (hplace : historyPlace b.updates update reading = .put pre.length new)
    (hv : Valid new) (hrole : SameRole old new) : Follows b update reading := by
  obtain ⟨hi, hu⟩ := absorb_put h hs hv hrole
  refine ⟨_, append_eq hr hp (getD_of_split hs) (valid_of_split h hs), ?_, ?_⟩
  · rw [hone]
    exact hi
  · rw [hone, hplace]
    exact hu

theorem follows_erase {reading : Reading} {planId : String} (h : Indexed b)
    (hr : Reads update reading)
    (hs : b.updates = pre ++ old :: post) (hp : b.position update = some pre.length)
    (hone : activePlace [old] update reading = .erase 0)
    (hplace : historyPlace b.updates update reading = .erase pre.length)
    (hplan : isPlanUpdateOf planId old = true)
    (hturn : History.turnStart b.updates ≤ pre.length) : Follows b update reading := by
  obtain ⟨hi, -⟩ := h.removeAt hs hplan hturn
  refine ⟨_, append_eq hr hp (getD_of_split hs) (valid_of_split h hs), ?_, ?_⟩
  · rw [hone]
    exact hi
  · rw [hone, hplace]
    rfl

/-- An update that is no tool opens no tool slot. -/
theorem no_tool_of_kind (hk : (updateKind update).isTool = false) (xs : List Value) :
    ∀ id, isToolOf id update = true → xs.countP (isToolOf id) = 0 := by
  intro id hid
  have := (isToolOf_iff.mp hid).1
  rw [hk] at this
  cases this

theorem position_textChunk (hk : (updateKind update).isTextChunk = true) :
    b.position update =
      if b.updates.length = 0 then none else some (b.updates.length - 1) := by
  unfold position
  split <;> first | rfl | simp_all [UpdateKind.isTextChunk]

/-- Text looks at the last entry, if there is one. -/
theorem position_textChunk_snoc (hk : (updateKind update).isTextChunk = true)
    (hs : b.updates = pre ++ [old]) : b.position update = some pre.length := by
  rw [position_textChunk hk, hs]
  simp

theorem position_textChunk_nil (hk : (updateKind update).isTextChunk = true)
    (hs : b.updates = []) : b.position update = none := by
  rw [position_textChunk hk, hs]
  rfl

theorem follows_content (h : Indexed b) (hk : (updateKind update).isTextChunk = true)
    (hshape : textChunkShape update = .ok none) : Follows b update .entry := by
  have hr := Reads.content hk hshape
  have hnew := no_tool_of_kind (isTool_of_textChunk hk)
    (b.updates.drop (History.turnStart b.updates))
  have hplace := historyPlace_entry b.updates update
  rcases List.eq_nil_or_concat b.updates with hs | ⟨pre, last, hs⟩
  · exact follows_push_fresh h hr (position_textChunk_nil hk hs) rfl hplace hnew
  · rw [List.concat_eq_append] at hs
    exact follows_push_at h hr hs (position_textChunk_snoc hk hs) rfl hplace hnew

theorem follows_chunk {text : String} (h : Indexed b) (hc : IsTextChunk update text) :
    Follows b update (.chunk (shapeOf update) text) := by
  have hr := Reads.chunk hc
  have hnew := no_tool_of_kind (isTool_of_textChunk hc.kind)
    (b.updates.drop (History.turnStart b.updates))
  have hplace := historyPlace_chunk b.updates update (shapeOf update) text
  rcases List.eq_nil_or_concat b.updates with hs | ⟨pre, last, hs⟩
  · rw [hs] at hplace
    exact follows_push_fresh h hr (position_textChunk_nil hc.kind hs) rfl (hs ▸ hplace) hnew
  · rw [List.concat_eq_append] at hs
    have hp := position_textChunk_snoc hc.kind hs
    have hone := chunkPlace_snoc [] last update (shapeOf update) text
    rw [hs, chunkPlace_snoc, ← hs] at hplace
    cases hj : joins last (shapeOf update) with
    | none =>
        rw [hj] at hone hplace
        exact follows_push_at h hr hs hp hone hplace hnew
    | some lastText =>
        rw [hj] at hone hplace
        have hl := (joins_eq_some.mp hj).1
        exact follows_put h hr hs hp hone hplace (.of_setText hl _) (.of_setText hl _)

/-- The slot of a tool: its last entry, in this turn unless the update is a patch. -/
theorem position_tool {toolCallId : String} (h : Indexed b)
    (hr : Reads update (.tool toolCallId)) :
    b.position update = (lastIdx? (isToolOf toolCallId) b.updates).filter fun position =>
      updateKind update = .toolCallUpdate || History.turnStart b.updates ≤ position := by
  cases hr with
  | tool kind id =>
      unfold position
      split <;> simp_all [UpdateKind.isTool, h.tools, h.start]

theorem countP_tool_of_none {toolCallId : String} {xs : List Value}
    (hr : Reads update (.tool toolCallId)) (hnone : ∀ x ∈ xs, isToolOf toolCallId x = false) :
    ∀ id, isToolOf id update = true → xs.countP (isToolOf id) = 0 := by
  intro id hid
  have hsame : id = toolCallId := by
    have hmine := (isToolOf_iff.mp (isToolOf_of_reads hr)).2
    rw [(isToolOf_iff.mp hid).2] at hmine
    exact Option.some.inj hmine
  subst hsame
  exact List.countP_eq_zero.mpr fun x hx => by simp [hnone x hx]

theorem activePlace_tool_singleton {toolCallId : String} (htool : isToolOf toolCallId old = true) :
    activePlace [old] update (.tool toolCallId) =
      .put 0 (patchedTool old update toolCallId) := by
  simp [activePlace, List.findIdx?_cons, htool]

/-- A tool without an entry in the last turn gets a new one. -/
theorem activePlace_tool_none {toolCallId : String} {xs : List Value}
    (hnone : ∀ x ∈ xs, isToolOf toolCallId x = false) :
    activePlace xs update (.tool toolCallId) = .push update := by
  simp [activePlace, List.findIdx?_eq_none_iff.mpr hnone]

theorem follows_toolCallUpdate {toolCallId : String} (h : Indexed b)
    (hr : Reads update (.tool toolCallId)) (hk : updateKind update = .toolCallUpdate) :
    Follows b update (.tool toolCallId) := by
  have hp := position_tool h hr
  have hplace : historyPlace b.updates update (.tool toolCallId) = _ :=
    historyPlace_toolCallUpdate hr hk
  cases hl : lastIdx? (isToolOf toolCallId) b.updates with
  | none =>
      rw [hl] at hp hplace
      exact follows_push_fresh h hr hp rfl hplace (countP_tool_of_none hr fun x hx =>
        lastIdx?_eq_none.mp hl x (List.mem_of_mem_drop hx))
  | some position =>
      obtain ⟨pre, old, post, hs, rfl, hold, -⟩ := exists_split_of_lastIdx? hl
      have hget : b.updates.getD pre.length .null = old := by simp [hs]
      rw [hl] at hp hplace
      simp only [hget] at hplace
      have hu := isObject_of_reads_tool hr
      exact follows_put h hr hs (by simp [hp, hk]) (activePlace_tool_singleton hold) hplace
        (.of_patchedTool hold hu (ne_empty_of_reads_tool hr)) (.of_patchedTool hold hu)

/-- At most one entry passes the test, so the first that does is the last. -/
theorem none_before_of_countP_le_one {p : Value → Bool} {xs ys : List Value} {x : Value}
    (hx : p x = true) (h : (xs ++ x :: ys).countP p ≤ 1) : ∀ y ∈ xs, p y = false := by
  rw [List.countP_append, List.countP_cons_of_pos hx] at h
  have hzero : xs.countP p = 0 := by omega
  intro y hy
  simpa using List.countP_eq_zero.mp hzero y hy

theorem follows_toolCall {toolCallId : String} (h : Indexed b)
    (hr : Reads update (.tool toolCallId)) (hk : updateKind update ≠ .toolCallUpdate) :
    Follows b update (.tool toolCallId) := by
  have hp := position_tool h hr
  have hplace : historyPlace b.updates update (.tool toolCallId) = _ := historyPlace_of_kind hk
  have hfresh (hnone : ∀ x ∈ b.updates.drop (History.turnStart b.updates),
      isToolOf toolCallId x = false) (hp : b.position update = none) :
      Follows b update (.tool toolCallId) := by
    rw [activePlace_tool_none hnone] at hplace
    exact follows_push_fresh h hr hp rfl hplace (countP_tool_of_none hr hnone)
  cases hl : lastIdx? (isToolOf toolCallId) b.updates with
  | none =>
      rw [hl] at hp
      exact hfresh (fun x hx => lastIdx?_eq_none.mp hl x (List.mem_of_mem_drop hx)) hp
  | some position =>
      obtain ⟨pre, old, post, hs, rfl, hold, hpost⟩ := exists_split_of_lastIdx? hl
      rw [hl] at hp
      by_cases hturn : History.turnStart b.updates ≤ pre.length
      · have hsingle := h.single toolCallId
        generalize hn : History.turnStart b.updates = n at hturn hplace hsingle hp
        have hdrop : b.updates.drop n = pre.drop n ++ old :: post := by
          rw [hs, List.drop_append_of_le_length hturn]
        rw [hdrop] at hplace hsingle
        have hfirst := findIdx?_middle (none_before_of_countP_le_one hold hsingle) hold post
        have hget : (pre.drop n ++ old :: post).getD (pre.drop n).length .null = old := by simp
        simp only [activePlace, hfirst] at hplace
        rw [hget] at hplace
        simp only [Edit.shift, List.length_drop, Nat.add_sub_of_le hturn] at hplace
        have hu := isObject_of_reads_tool hr
        exact follows_put h hr hs (by simp [hp, hturn]) (activePlace_tool_singleton hold) hplace
          (.of_patchedTool hold hu (ne_empty_of_reads_tool hr)) (.of_patchedTool hold hu)
      · -- The last turn lies behind the last entry of the tool.
        have hturn := Nat.lt_of_not_le hturn
        refine hfresh ?_ (by simp [hp, hk, hturn])
        intro x hx
        generalize History.turnStart b.updates = n at hturn hx
        rw [hs, drop_middle_of_lt hturn] at hx
        exact hpost x (List.mem_of_mem_drop hx)

/-- A slot found behind the start of the turn, in the whole list. -/
theorem exists_split_of_segment {p : Value → Bool} {xs : List Value} {n i : Nat}
    (hn : n ≤ xs.length) (h : (xs.drop n).findIdx? p = some i) :
    ∃ pre old post, xs = pre ++ old :: post ∧ pre.length = i + n ∧ p old = true := by
  obtain ⟨pre, old, post, hs, rfl, hold, -⟩ := exists_split_of_findIdx? h
  refine ⟨xs.take n ++ pre, old, post, ?_, ?_, hold⟩
  · rw [List.append_assoc, ← hs, List.take_append_drop]
  · rw [List.length_append, List.length_take_of_le hn, Nat.add_comm]

/-- A slot of its own in the last turn: the builder searches as the fold does. -/
theorem follows_slot {reading : Reading} {slot : Value → Bool} (h : Indexed b)
    (hr : Reads update reading)
    (hp : b.position update = ((b.updates.drop (History.turnStart b.updates)).findIdx? slot).map
      (· + History.turnStart b.updates))
    (hactive : ∀ xs, activePlace xs update reading = replaceSharedFoldSlot xs slot update)
    (hk : (updateKind update).isTool = false)
    (hrole : ∀ old, slot old = true → SameRole old update) : Follows b update reading := by
  have hplace : historyPlace b.updates update reading =
      (replaceSharedFoldSlot (b.updates.drop (History.turnStart b.updates)) slot update).shift
        (History.turnStart b.updates) := by
    rw [historyPlace_of_kind (by intro he; rw [he] at hk; cases hk), hactive]
  unfold replaceSharedFoldSlot at hplace
  cases hf : (b.updates.drop (History.turnStart b.updates)).findIdx? slot with
  | none =>
      rw [hf] at hp hplace
      exact follows_push_fresh h hr hp (hactive []) hplace (no_tool_of_kind hk _)
  | some i =>
      obtain ⟨pre, old, post, hs, hlen, hold⟩ := exists_split_of_segment (turnStart_le _) hf
      rw [hf, Option.map_some, ← hlen] at hp
      rw [hf] at hplace
      simp only [Edit.shift, Nat.add_comm, ← hlen] at hplace
      have hone : activePlace [old] update reading = .put 0 update := by
        simp [hactive, replaceSharedFoldSlot, List.findIdx?_cons, hold]
      exact follows_put h hr hs hp hone hplace ⟨_, hr⟩ (hrole old hold)

theorem planIdOf_eq_some {candidate : Value} {planId : String} :
    planIdOf candidate = some planId ↔
      (candidate.index "plan").index "planId" = .string planId := by
  rw [Value.index_eq_string]
  cases hp : candidate.get "plan" with
  | none =>
      have hnull : Value.null.getStr "planId" = none := rfl
      simp [planIdOf, Value.index, hp, hnull]
  | some plan => simp [planIdOf, Value.index, hp]

theorem follows_plan (h : Indexed b) (hr : Reads update .plan) : Follows b update .plan := by
  have hk := isPlan_iff.mp (isPlan_of_reads hr)
  refine follows_slot h hr ?_ (fun _ => rfl) (by rw [hk]; rfl) fun old hold =>
    .of_plan hold (isPlan_of_reads hr)
  simp only [position, hk, h.start]

theorem follows_planUpdate {planId : String} (h : Indexed b)
    (hr : Reads update (.planUpdate planId)) : Follows b update (.planUpdate planId) := by
  obtain ⟨hk, hid⟩ := isPlanUpdateOf_iff.mp (isPlanUpdateOf_of_reads hr)
  refine follows_slot h hr ?_ (fun _ => rfl) (by rw [hk]; rfl) fun old hold =>
    .of_planUpdate hold (isPlanUpdateOf_of_reads hr)
  simp only [position, hk, h.start, planIdOf_eq_some.mp hid]
  congr 2
  funext candidate
  simp [isPlanUpdateOf, planIdOf_eq_some]

theorem follows_planRemoved {planId : String} (h : Indexed b)
    (hr : Reads update (.planRemoved planId)) : Follows b update (.planRemoved planId) := by
  obtain ⟨hk, hid⟩ : updateKind update = .planRemoved ∧ update.index "planId" = .string planId := by
    cases hr with
    | planRemoved kind id => exact ⟨kind, Value.index_eq_string.mpr id⟩
  have hp : b.position update = ((b.updates.drop (History.turnStart b.updates)).findIdx?
      (isPlanUpdateOf planId)).map (· + History.turnStart b.updates) := by
    simp only [position, hk, h.start, hid]
    congr 2
    funext candidate
    simp [isPlanUpdateOf, planIdOf_eq_some]
  have hplace : historyPlace b.updates update (.planRemoved planId) = _ :=
    historyPlace_of_kind (by rw [hk]; decide)
  simp only [activePlace] at hplace
  cases hf : (b.updates.drop (History.turnStart b.updates)).findIdx?
      (isPlanUpdateOf planId) with
  | none =>
      rw [hf] at hp hplace
      refine ⟨b, append_eq hr hp rfl (by simp [ValidHistory]), h, ?_⟩
      rw [hplace]
      rfl
  | some i =>
      obtain ⟨pre, old, post, hs, hlen, hold⟩ := exists_split_of_segment (turnStart_le _) hf
      rw [hf, Option.map_some, ← hlen] at hp
      rw [hf] at hplace
      simp only [Edit.shift, Nat.add_comm, ← hlen] at hplace
      have hone : activePlace [old] update (.planRemoved planId) = .erase 0 := by
        simp [activePlace, List.findIdx?_cons, hold]
      have hturn : History.turnStart b.updates ≤ pre.length := by
        rw [hlen]
        exact Nat.le_add_left _ _
      exact follows_erase h hr hs hp hone hplace hold hturn

/-- An update that reads is appended as the plain fold places it. -/
theorem follows {reading : Reading} (h : Indexed b) (hr : Reads update reading) :
    Follows b update reading := by
  cases hr with
  | other kind =>
      have htool : (updateKind update).isTool = false := by rw [kind]; rfl
      have hnew := no_tool_of_kind htool (b.updates.drop (History.turnStart b.updates))
      exact follows_push_fresh h (.other kind) (by simp [position, kind]) rfl
        (historyPlace_entry _ _) hnew
  | content kind shape => exact follows_content h kind shape
  | chunk chunk => exact follows_chunk h chunk
  | tool kind id nonempty =>
      by_cases hk : updateKind update = .toolCallUpdate
      · exact follows_toolCallUpdate h (.tool kind id nonempty) hk
      · exact follows_toolCall h (.tool kind id nonempty) hk
  | plan kind entries => exact follows_plan h (.plan kind entries)
  | planUpdate kind found id nonempty items =>
      exact follows_planUpdate h (.planUpdate kind found id nonempty items)
  | planRemoved kind id nonempty => exact follows_planRemoved h (.planRemoved kind id nonempty)

/-- An update that does not read leaves the builder as it is. -/
theorem append_of_error {e : RuntimeStateError} (h : readUpdate update = .error e) :
    b.append update = (.error e, b) := by
  simp only [append, foldActiveTurnUpdate_of_error h]

/-- One append answers as the plain fold does, and stays indexed. -/
theorem append_step (h : Indexed b) (update : Value) :
    match foldHistoryUpdate b.updates update with
    | .ok folded => (b.append update).1 = .ok () ∧ (b.append update).2.updates = folded ∧
        Indexed (b.append update).2
    | .error e => b.append update = (.error e, b) := by
  rw [foldHistoryUpdate_eq h.valid]
  cases hr : readUpdate update with
  | error e => exact append_of_error hr
  | ok reading =>
      obtain ⟨b', happ, hi, hu⟩ := follows h (readUpdate_eq_ok.mp hr)
      simp only [Except.map, happ]
      exact ⟨trivial, hu, hi⟩

end Append

/-- The builder after a sequence of appends; a rejected one is passed over. -/
def appendAll (b : HistoryBuilder) (updates : List Value) : HistoryBuilder :=
  updates.foldl (fun b update => (b.append update).2) b

/-- The plain fold of a sequence, passing over what it rejects. -/
def foldAccepted (retained updates : List Value) : List Value :=
  updates.foldl (fun retained update =>
    match foldHistoryUpdate retained update with
    | .ok folded => folded
    | .error _ => retained) retained

theorem appendAll_indexed {b : HistoryBuilder} (h : Indexed b) (updates : List Value) :
    Indexed (b.appendAll updates) ∧
      (b.appendAll updates).updates = foldAccepted b.updates updates := by
  induction updates generalizing b with
  | nil => exact ⟨h, rfl⟩
  | cons update rest ih =>
      have hstep := append_step h update
      change Indexed ((b.append update).2.appendAll rest) ∧
        ((b.append update).2.appendAll rest).updates = foldAccepted
          (match foldHistoryUpdate b.updates update with
            | .ok folded => folded
            | .error _ => b.updates) rest
      cases hf : foldHistoryUpdate b.updates update with
      | ok folded =>
          rw [hf] at hstep
          obtain ⟨-, hu, hi⟩ := hstep
          simpa only [hu] using ih hi
      | error e =>
          rw [hf] at hstep
          simp only [hstep]
          exact ih h

/-- The builder simulates the plain fold over every sequence of updates: an
append succeeds exactly when the fold does, it leaves the folded list and the
length of its serialization, and a rejected append changes nothing. -/
theorem append_simulates_foldHistoryUpdate (updates : List Value) (update : Value) :
    let b := default.appendAll updates
    b.updates = foldAccepted [] updates ∧
      ((b.append update).1 = .ok () ↔
        ∃ folded, foldHistoryUpdate (foldAccepted [] updates) update = .ok folded) ∧
      (∀ folded, foldHistoryUpdate (foldAccepted [] updates) update = .ok folded →
        (b.append update).2.updates = folded ∧
          max (b.append update).2.bytes 2 = (Value.array folded).bytes) ∧
      ∀ e, (b.append update).1 = .error e → (b.append update).2 = b := by
  obtain ⟨hi, hu⟩ := appendAll_indexed indexed_default updates
  have hstep := append_step hi update
  have hu : (default.appendAll updates).updates = foldAccepted [] updates := hu
  rw [hu] at hstep
  refine ⟨hu, ?_⟩
  cases hf : foldHistoryUpdate (foldAccepted [] updates) update with
  | ok folded =>
      rw [hf] at hstep
      obtain ⟨hok, hfolded, hi'⟩ := hstep
      refine ⟨by simp [hok], ?_, by simp [hok]⟩
      intro folded' he
      cases he
      refine ⟨hfolded, ?_⟩
      rw [hi'.max_bytes, hfolded]
  | error e =>
      rw [hf] at hstep
      simp [hstep]

end HistoryBuilder

end Attyd.History
