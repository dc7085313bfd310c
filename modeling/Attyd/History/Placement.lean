import Attyd.History.Reading

/-!
# Where the folds place an update

On a list of valid entries the folds fail only where the update itself does not
read. What they do otherwise is a total function of the list: `activePlace`
within one turn and `historyPlace` in a whole session.

## Implementation notes

The two folds are compared with these functions once, in
`foldActiveTurnUpdate_eq` and `foldHistoryUpdate_eq`; every later argument about
a fold is about the placement.
-/

namespace Attyd.History

open Json (Value)

/-- Every retained entry passes the checks of its own kind. -/
def ValidHistory (retained : List Value) : Prop := ∀ entry ∈ retained, Valid entry

theorem ValidHistory.drop {retained : List Value} (h : ValidHistory retained) (n : Nat) :
    ValidHistory (retained.drop n) := fun entry he => h entry (List.mem_of_mem_drop he)

/-- The shape and text of a retained text chunk. -/
def chunkOf (entry : Value) : Option (Value × String) :=
  match textChunkShape entry with
  | .ok read => read
  | .error _ => none

theorem chunkOf_eq_some {entry shape : Value} {text : String} :
    chunkOf entry = some (shape, text) ↔ IsTextChunk entry text ∧ shape = shapeOf entry := by
  rw [← textChunkShape_eq_some, chunkOf]
  cases textChunkShape entry <;> simp

theorem Valid.shape_eq {entry : Value} (h : Valid entry) :
    textChunkShape entry = .ok (chunkOf entry) := by
  obtain ⟨shape, hs⟩ := h.shape_ok
  rw [chunkOf, hs]

/-- The text of a retained chunk of the given shape. -/
def joins (previous shape : Value) : Option String :=
  match chunkOf previous with
  | some (previousShape, previousText) =>
      if previousShape.alike shape then some previousText else none
  | none => none

theorem joins_eq_some {previous shape : Value} {text : String} :
    joins previous shape = some text ↔
      IsTextChunk previous text ∧ (shapeOf previous).alike shape = true := by
  unfold joins
  constructor
  · intro h
    split at h
    case h_1 previousShape previousText hc =>
      obtain ⟨hchunk, rfl⟩ := chunkOf_eq_some.mp hc
      split at h
      case isTrue hs => cases h; exact ⟨hchunk, hs⟩
      case isFalse => cases h
    case h_2 => cases h
  · rintro ⟨hchunk, hshape⟩
    rw [chunkOf_eq_some.mpr ⟨hchunk, rfl⟩]
    exact if_pos hshape

/-- The change a text chunk makes: it joins a last entry of its shape. -/
def chunkPlace (retained : List Value) (update shape : Value) (text : String) : Edit Value :=
  match retained.getLast? with
  | some previous =>
      match joins previous shape with
      | some previousText => .put (retained.length - 1) (setText previous (previousText ++ text))
      | none => .push update
  | none => .push update

/-- The change an update makes to the entries of its own turn. -/
def activePlace (retained : List Value) (update : Value) : Reading → Edit Value
  | .entry => .push update
  | .chunk shape text => chunkPlace retained update shape text
  | .tool toolCallId =>
      match retained.findIdx? (isToolOf toolCallId) with
      | some position =>
          .put position (patchedTool (retained.getD position .null) update toolCallId)
      | none => .push update
  | .plan => replaceSharedFoldSlot retained isPlan update
  | .planUpdate planId => replaceSharedFoldSlot retained (isPlanUpdateOf planId) update
  | .planRemoved planId =>
      match retained.findIdx? (isPlanUpdateOf planId) with
      | some position => .erase position
      | none => .keep

/-- The entry a search from the left finds. -/
theorem getD_of_findIdx? {p : Value → Bool} {xs : List Value} {i : Nat}
    (h : xs.findIdx? p = some i) : p (xs.getD i .null) = true ∧ xs.getD i .null ∈ xs := by
  obtain ⟨pre, x, post, rfl, rfl, hx, -⟩ := exists_split_of_findIdx? h
  simp [hx]

theorem isObject_of_isToolOf {toolCallId : String} {entry : Value}
    (h : isToolOf toolCallId entry = true) : entry.isObject = true :=
  Value.isObject_of_getStr (isToolOf_iff.mp h).2

private theorem chunkEdit_eq {retained : List Value} (hv : ValidHistory retained)
    (update shape : Value) (text : String) :
    chunkEdit retained update shape text = .ok (chunkPlace retained update shape text) := by
  unfold chunkEdit chunkPlace
  cases hl : retained.getLast? with
  | none => rfl
  | some previous =>
      have hp : textChunkShape previous = .ok (chunkOf previous) :=
        (hv previous (List.mem_of_getLast? hl)).shape_eq
      simp only [hp, ok_bind, joins]
      cases hc : chunkOf previous with
      | none => rfl
      | some read =>
          obtain ⟨previousShape, previousText⟩ := read
          obtain ⟨content, hget, -, htext⟩ := (chunkOf_eq_some.mp hc).1.content
          simp only [hget, Option.bind_some, htext, okOr_some, ok_bind]
          split <;> rfl

/-- Among valid entries the fold of a turn only checks the update. -/
theorem activeTurnEdit_eq {retained : List Value} (hv : ValidHistory retained) (update : Value) :
    activeTurnEdit retained update =
      (readUpdate update).map (activePlace retained update) := by
  unfold activeTurnEdit
  cases hr : readUpdate update with
  | error e => rfl
  | ok reading =>
      simp only [ok_bind, Except.map]
      cases reading with
      | entry => rfl
      | chunk shape text => exact chunkEdit_eq hv update shape text
      | tool toolCallId =>
          simp only [activePlace]
          cases hf : retained.findIdx? (isToolOf toolCallId) with
          | none => rfl
          | some position =>
              have ht := isObject_of_isToolOf (getD_of_findIdx? hf).1
              have hu : update.isObject = true := by
                cases readUpdate_eq_ok.mp hr with
                | tool kind id => exact Value.isObject_of_getStr id
              simp only [patchTool_eq_ok ht hu, ok_bind]
      | plan => rfl
      | planUpdate planId => rfl
      | planRemoved planId =>
          simp only [activePlace]
          cases retained.findIdx? (isPlanUpdateOf planId) <;> rfl

theorem foldActiveTurnUpdate_eq {retained : List Value} (hv : ValidHistory retained)
    (update : Value) :
    foldActiveTurnUpdate retained update =
      (readUpdate update).map fun reading =>
        (activePlace retained update reading).apply retained := by
  rw [foldActiveTurnUpdate, foldSharedActiveTurnUpdate, activeTurnEdit_eq hv]
  cases readUpdate update <;> rfl

theorem foldActiveTurnUpdate_of_error {update : Value} {e : RuntimeStateError}
    (h : readUpdate update = .error e) (retained : List Value) :
    foldActiveTurnUpdate retained update = .error e := by
  simp [foldActiveTurnUpdate, foldSharedActiveTurnUpdate, activeTurnEdit, h]

/-- The change an update makes to the history of a session. -/
def historyPlace (retained : List Value) (update : Value) (reading : Reading) : Edit Value :=
  match sessionToolPosition retained update, reading with
  | some position, .tool toolCallId =>
      .put position (patchedTool (retained.getD position .null) update toolCallId)
  | _, reading =>
      (activePlace (retained.drop (turnStart retained)) update reading).shift (turnStart retained)

theorem turnStart_le (retained : List Value) : turnStart retained ≤ retained.length := by
  unfold turnStart
  cases h : lastIdx? isUserChunk retained with
  | none => exact Nat.zero_le _
  | some i => exact Nat.le_of_lt (lastIdx?_lt h)

/-- A patch of a tool looks for the last entry of that tool in the session. -/
theorem sessionToolPosition_of_reads {update : Value} {toolCallId : String}
    (h : Reads update (.tool toolCallId)) (retained : List Value) :
    sessionToolPosition retained update =
      if updateKind update = .toolCallUpdate then lastIdx? (isToolOf toolCallId) retained
      else none := by
  cases h with
  | tool kind id =>
      unfold sessionToolPosition
      have hget := Value.getStr_eq_some.mp id
      congr 2
      funext candidate
      rw [hget, isToolOf, Bool.eq_iff_iff]
      simp [Value.getStr_eq_some]

theorem sessionToolPosition_of_kind {update : Value} (h : updateKind update ≠ .toolCallUpdate)
    (retained : List Value) : sessionToolPosition retained update = none := by
  simp [sessionToolPosition, h]

theorem getD_of_lastIdx? {p : Value → Bool} {xs : List Value} {i : Nat}
    (h : lastIdx? p xs = some i) : p (xs.getD i .null) = true ∧ xs.getD i .null ∈ xs := by
  obtain ⟨pre, x, post, rfl, rfl, hx, -⟩ := exists_split_of_lastIdx? h
  simp [hx]

theorem kind_eq_of_sessionToolPosition {retained : List Value} {update : Value} {i : Nat}
    (h : sessionToolPosition retained update = some i) : updateKind update = .toolCallUpdate := by
  by_contra hk
  rw [sessionToolPosition_of_kind hk] at h
  cases h

/-- Among valid entries the fold of a history only checks the update. -/
theorem foldHistoryUpdate_eq {retained : List Value} (hv : ValidHistory retained)
    (update : Value) :
    foldHistoryUpdate retained update =
      (readUpdate update).map fun reading =>
        (historyPlace retained update reading).apply retained := by
  unfold foldHistoryUpdate
  cases hp : sessionToolPosition retained update with
  | none =>
      simp only [historyPlace, hp, foldActiveTurnUpdate_eq (hv.drop _)]
      cases readUpdate update with
      | error e => rfl
      | ok reading =>
          simp only [Except.map, ok_bind]
          rw [Edit.apply_shift_drop _ _ (turnStart_le retained)]
  | some position =>
      cases hr : readUpdate update with
      | error e => simp [foldActiveTurnUpdate_of_error hr, Except.map]
      | ok reading =>
          have hk := kind_eq_of_sessionToolPosition hp
          have hreads := readUpdate_eq_ok.mp hr
          obtain ⟨toolCallId, rfl⟩ := hreads.tool_of_kind (by rw [hk]; rfl)
          have hlast := sessionToolPosition_of_reads hreads retained
          rw [if_pos hk, hp] at hlast
          obtain ⟨htool, hmem⟩ := getD_of_lastIdx? hlast.symm
          have hsingle : ValidHistory [retained.getD position .null] := by
            intro entry he
            rw [List.mem_singleton.mp he]
            exact hv _ hmem
          simp only [foldActiveTurnUpdate_eq hsingle, hr, Except.map, ok_bind, historyPlace, hp,
            activePlace, List.findIdx?_cons, htool, if_true, Edit.apply_put]
          rfl

section ClosedForm

theorem turnStart_lt {retained : List Value} (h : retained ≠ []) :
    turnStart retained < retained.length := by
  unfold turnStart
  cases hl : lastIdx? isUserChunk retained with
  | none => exact List.length_pos_iff.mpr h
  | some i => exact lastIdx?_lt hl

theorem historyPlace_entry (retained : List Value) (update : Value) :
    historyPlace retained update .entry = .push update := by
  unfold historyPlace
  split
  · contradiction
  · rfl

theorem chunkPlace_snoc (pre : List Value) (last update shape : Value) (text : String) :
    chunkPlace (pre ++ [last]) update shape text =
      match joins last shape with
      | some lastText => .put pre.length (setText last (lastText ++ text))
      | none => .push update := by
  simp [chunkPlace]

/-- A text chunk looks at the last entry only, whatever turn that is in. -/
theorem historyPlace_chunk (retained : List Value) (update shape : Value) (text : String) :
    historyPlace retained update (.chunk shape text) = chunkPlace retained update shape text := by
  have hplace : historyPlace retained update (.chunk shape text) =
      (chunkPlace (retained.drop (turnStart retained)) update shape text).shift
        (turnStart retained) := by
    unfold historyPlace
    split
    · contradiction
    · rfl
  rw [hplace]
  cases retained using List.reverseRecOn with
  | nil => rfl
  | append_singleton pre last =>
      have hlt : turnStart (pre ++ [last]) ≤ pre.length := by
        have : turnStart (pre ++ [last]) < (pre ++ [last]).length := turnStart_lt (by simp)
        simp only [List.length_append, List.length_singleton] at this
        omega
      rw [List.drop_append_of_le_length hlt, chunkPlace_snoc, chunkPlace_snoc]
      cases joins last shape with
      | none => rfl
      | some lastText =>
          simp only [Edit.shift, List.length_drop]
          congr 1
          omega

/-- A patch of a tool goes to the last entry of the tool in the session. -/
theorem historyPlace_toolCallUpdate {retained : List Value} {update : Value} {toolCallId : String}
    (h : Reads update (.tool toolCallId)) (hk : updateKind update = .toolCallUpdate) :
    historyPlace retained update (.tool toolCallId) =
      match lastIdx? (isToolOf toolCallId) retained with
      | some position =>
          .put position (patchedTool (retained.getD position .null) update toolCallId)
      | none => .push update := by
  unfold historyPlace
  rw [sessionToolPosition_of_reads h, if_pos hk]
  cases hl : lastIdx? (isToolOf toolCallId) retained with
  | some position => rfl
  | none =>
      have hnone : (retained.drop (turnStart retained)).findIdx? (isToolOf toolCallId) = none :=
        List.findIdx?_eq_none_iff.mpr fun entry he =>
          lastIdx?_eq_none.mp hl entry (List.mem_of_mem_drop he)
      simp [activePlace, hnone, Edit.shift]

/-- Everything but a patch of a known tool is placed behind the last user chunk. -/
theorem historyPlace_of_kind {retained : List Value} {update : Value} {reading : Reading}
    (hk : updateKind update ≠ .toolCallUpdate) :
    historyPlace retained update reading =
      (activePlace (retained.drop (turnStart retained)) update reading).shift
        (turnStart retained) := by
  unfold historyPlace
  rw [sessionToolPosition_of_kind hk]

end ClosedForm

end Attyd.History
