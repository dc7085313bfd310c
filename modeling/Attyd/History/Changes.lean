import Attyd.History.Builder

/-!
# The changes of a fold, one by one

A fold opens an entry that no earlier entry of its segment answers for, lengthens the last text,
patches a tool, replaces a plan or drops one. `Changes` names these, with everything a later
argument needs of each, for the fold of a turn and for that of a history.

## Implementation notes

The segment is the part of the list a search looks at: all of it within a turn, and what stands
from the last user chunk on within a history.
-/

namespace Attyd.History

open Json (Value)

/-- Two text chunks that differ in their texts only, as the fold compares them. -/
def Joins (previous update : Value) : Prop :=
  ∃ s t, IsTextChunk previous s ∧ IsTextChunk update t ∧
    (shapeOf previous).alike (shapeOf update) = true

/-- No entry of the segment answers for the same tool or plan, and for a patch no entry at all. -/
structure Fresh (start : Nat) (retained : List Value) (entry : Value) : Prop where
  kind : updateKind entry ≠ .planRemoved
  tool : ∀ id, isToolOf id entry = true → (retained.drop start).countP (isToolOf id) = 0
  patch : ∀ id, isToolOf id entry = true → updateKind entry = .toolCallUpdate →
    retained.countP (isToolOf id) = 0
  plan : isPlan entry = true → (retained.drop start).countP isPlan = 0
  planUpdate : ∀ id, isPlanUpdateOf id entry = true →
    (retained.drop start).countP (isPlanUpdateOf id) = 0

/-- Two entries that take the same plan slot. -/
def SameSlot (old new : Value) : Prop :=
  isPlan old = true ∧ isPlan new = true ∨
    ∃ id, isPlanUpdateOf id old = true ∧ isPlanUpdateOf id new = true

theorem SameSlot.role {old new : Value} (h : SameSlot old new) : SameRole old new := by
  rcases h with ⟨hold, hnew⟩ | ⟨id, hold, hnew⟩
  · exact .of_plan hold hnew
  · exact .of_planUpdate hold hnew

/-- The changes of a fold whose searches begin at `start`. -/
inductive Changes (start : Nat) (retained : List Value) (update : Value) : Edit Value → Prop where
  | push (valid : Valid update) (fresh : Fresh start retained update)
      (apart : ∀ last ∈ retained.getLast?, ¬Joins last update) :
      Changes start retained update (.push update)
  | join {pre : List Value} {last : Value} {s t : String} (split : retained = pre ++ [last])
      (old : IsTextChunk last s) (new : IsTextChunk update t)
      (shape : (shapeOf last).alike (shapeOf update) = true) :
      Changes start retained update (.put pre.length (setText last (s ++ t)))
  | patch {pre post : List Value} {target : Value} {toolCallId : String}
      (split : retained = pre ++ target :: post) (tool : isToolOf toolCallId target = true)
      (reads : Reads update (.tool toolCallId))
      (inside : updateKind update = .toolCallUpdate ∨ start ≤ pre.length) :
      Changes start retained update (.put pre.length (patchedTool target update toolCallId))
  | slot {pre post : List Value} {old : Value} (split : retained = pre ++ old :: post)
      (behind : start ≤ pre.length) (same : SameSlot old update) (valid : Valid update) :
      Changes start retained update (.put pre.length update)
  | erase {pre post : List Value} {old : Value} {planId : String}
      (split : retained = pre ++ old :: post) (behind : start ≤ pre.length)
      (plan : isPlanUpdateOf planId old = true) (kind : updateKind update = .planRemoved) :
      Changes start retained update (.erase pre.length)
  | keep (kind : updateKind update = .planRemoved) : Changes start retained update .keep

section Fresh

variable {start : Nat} {retained : List Value} {update : Value}

/-- An entry without a role is fresh everywhere. -/
theorem Fresh.of_kind (hr : updateKind update ≠ .planRemoved)
    (ht : (updateKind update).isTool = false) (hp : updateKind update ≠ .plan)
    (hu : updateKind update ≠ .planUpdate) : Fresh start retained update where
  kind := hr
  tool id h := by simp [isToolOf, ht] at h
  patch id h := by simp [isToolOf, ht] at h
  plan h := by simp [isPlan, hp] at h
  planUpdate id h := by simp [isPlanUpdateOf, hu] at h

theorem Fresh.of_textChunk (h : (updateKind update).isTextChunk = true) :
    Fresh start retained update := by
  refine .of_kind ?_ (isTool_of_textChunk h) ?_ ?_ <;>
  · intro hk
    rw [hk] at h
    cases h

/-- A tool is fresh where its own id is. -/
theorem Fresh.of_tool {toolCallId : String} (h : Reads update (.tool toolCallId))
    (hsegment : (retained.drop start).countP (isToolOf toolCallId) = 0)
    (hpatch : updateKind update = .toolCallUpdate → retained.countP (isToolOf toolCallId) = 0) :
    Fresh start retained update := by
  have htool := isToolOf_of_reads h
  have hk := (isToolOf_iff.mp htool).1
  have hid : ∀ id, isToolOf id update = true → id = toolCallId := by
    intro id hid
    exact Option.some.inj ((isToolOf_iff.mp hid).2.symm.trans (isToolOf_iff.mp htool).2)
  refine ⟨?_, fun id h => hid id h ▸ hsegment, fun id h hkind => hid id h ▸ hpatch hkind, ?_, ?_⟩
  · intro hkind
    simp [hkind, UpdateKind.isTool] at hk
  · intro hplan
    simp [isPlan_iff.mp hplan, UpdateKind.isTool] at hk
  · intro id hplan
    simp [(isPlanUpdateOf_iff.mp hplan).1, UpdateKind.isTool] at hk

theorem Fresh.of_plan (h : updateKind update = .plan)
    (hsegment : (retained.drop start).countP isPlan = 0) : Fresh start retained update where
  kind := by rw [h]; decide
  tool id ht := by simp [isToolOf, h, UpdateKind.isTool] at ht
  patch id ht := by simp [isToolOf, h, UpdateKind.isTool] at ht
  plan _ := hsegment
  planUpdate id hp := by simp [isPlanUpdateOf, h] at hp

theorem Fresh.of_planUpdate {planId : String} (h : isPlanUpdateOf planId update = true)
    (hsegment : (retained.drop start).countP (isPlanUpdateOf planId) = 0) :
    Fresh start retained update := by
  obtain ⟨hk, hid⟩ := isPlanUpdateOf_iff.mp h
  refine ⟨by rw [hk]; decide, fun id ht => ?_, fun id ht => ?_, fun hp => ?_, fun id hp => ?_⟩
  · simp [isToolOf, hk, UpdateKind.isTool] at ht
  · simp [isToolOf, hk, UpdateKind.isTool] at ht
  · simp [isPlan, hk] at hp
  · obtain rfl := Option.some.inj ((isPlanUpdateOf_iff.mp hp).2.symm.trans hid)
    exact hsegment

/-- Only text chunks join. -/
theorem not_joins_of_kind (h : (updateKind update).isTextChunk = false) (last : Value) :
    ¬Joins last update := by
  rintro ⟨s, t, -, ht, -⟩
  rw [ht.kind] at h
  cases h

theorem countP_eq_zero_of_findIdx? {p : Value → Bool} {xs : List Value}
    (h : xs.findIdx? p = none) : xs.countP p = 0 := by
  rw [List.findIdx?_eq_none_iff] at h
  exact List.countP_eq_zero.mpr fun x hx => by simp [h x hx]

end Fresh

/-- A search of the segment that finds, in the whole list. -/
theorem exists_split_of_drop {p : Value → Bool} {retained : List Value} {start i : Nat}
    (hs : start ≤ retained.length) (h : (retained.drop start).findIdx? p = some i) :
    ∃ pre old post, retained = pre ++ old :: post ∧ start ≤ pre.length ∧ start + i = pre.length ∧
      p old = true := by
  obtain ⟨pre, old, post, hsplit, hlen, hold⟩ := HistoryBuilder.exists_split_of_segment hs h
  exact ⟨pre, old, post, hsplit, by omega, by omega, hold⟩

section Step

variable {start : Nat} {retained : List Value} {update : Value}

theorem chunkPlace_changes {text : String} (h : IsTextChunk update text) :
    Changes start retained update (chunkPlace retained update (shapeOf update) text) := by
  have hfresh : Fresh start retained update := .of_textChunk h.kind
  cases retained using List.reverseRecOn with
  | nil => exact .push ⟨_, .chunk h⟩ hfresh (by simp)
  | append_singleton pre last =>
      rw [chunkPlace_snoc]
      cases hj : joins last (shapeOf update) with
      | some lastText =>
          obtain ⟨hlast, hshape⟩ := joins_eq_some.mp hj
          exact .join rfl hlast h hshape
      | none =>
          refine .push ⟨_, .chunk h⟩ hfresh fun other hother => ?_
          obtain rfl : last = other := by simpa using hother
          rintro ⟨s, t, hs, -, hshape⟩
          rw [joins_eq_some.mpr ⟨hs, hshape⟩] at hj
          cases hj

/-- What a slot that is searched for in the segment changes. -/
theorem slot_changes {slot : Value → Bool} (hs : start ≤ retained.length) (hv : Valid update)
    (hchunk : (updateKind update).isTextChunk = false)
    (hsame : ∀ old, slot old = true → SameSlot old update)
    (hfresh : (retained.drop start).countP slot = 0 → Fresh start retained update) :
    Changes start retained update
      ((replaceSharedFoldSlot (retained.drop start) slot update).shift start) := by
  unfold replaceSharedFoldSlot
  cases hf : (retained.drop start).findIdx? slot with
  | none =>
      exact .push hv (hfresh (countP_eq_zero_of_findIdx? hf)) fun last _ =>
        not_joins_of_kind hchunk last
  | some i =>
      obtain ⟨pre, old, post, hsplit, hbehind, hi, hold⟩ := exists_split_of_drop hs hf
      change Changes start retained update (.put (start + i) update)
      rw [hi]
      exact .slot hsplit hbehind (hsame old hold) hv

theorem isTextChunk_of_isTool {kind : UpdateKind} (h : kind.isTool = true) :
    kind.isTextChunk = false := by
  cases kind <;> first | rfl | cases h

/-- Whatever is placed in the segment, but a text chunk. -/
theorem segment_changes {reading : Reading} (hs : start ≤ retained.length)
    (h : Reads update reading) (hchunk : ∀ shape text, reading ≠ .chunk shape text)
    (hpatch : ∀ id, reading = .tool id → updateKind update = .toolCallUpdate →
      (retained.drop start).countP (isToolOf id) = 0 → retained.countP (isToolOf id) = 0) :
    Changes start retained update ((activePlace (retained.drop start) update reading).shift start) := by
  have hv : Valid update := ⟨_, h⟩
  cases h with
  | other kind =>
      refine .push hv (.of_kind ?_ ?_ ?_ ?_) fun last _ => not_joins_of_kind ?_ last <;>
        (rw [kind]; decide)
  | content kind shape =>
      refine .push hv (.of_textChunk kind) fun last _ hjoins => ?_
      obtain ⟨s, t, -, ht, -⟩ := hjoins
      rw [textChunkShape_eq_some.mpr ⟨ht, rfl⟩] at shape
      cases shape
  | chunk chunk => exact absurd rfl (hchunk _ _)
  | @tool toolCallId kind id nonempty =>
      have hreads := Reads.tool kind id nonempty
      simp only [activePlace]
      cases hf : (retained.drop start).findIdx? (isToolOf toolCallId) with
      | none =>
          have hzero := countP_eq_zero_of_findIdx? hf
          exact .push hv (.of_tool hreads hzero fun hk => hpatch _ rfl hk hzero) fun last _ =>
            not_joins_of_kind (isTextChunk_of_isTool kind) last
      | some i =>
          obtain ⟨pre, old, post, hsplit, hbehind, hi, hold⟩ := exists_split_of_drop hs hf
          have hget : (retained.drop start).getD i .null = old := by
            rw [List.getD_eq_getElem?_getD, List.getElem?_drop, hi, hsplit]
            simp
          simp only [Edit.shift, hget, hi]
          exact .patch hsplit hold hreads (.inr hbehind)
  | plan kind entries =>
      have hreads := Reads.plan kind entries
      exact slot_changes hs hv (by rw [kind]; rfl)
        (fun old hold => .inl ⟨hold, isPlan_of_reads hreads⟩) (.of_plan kind)
  | planUpdate kind found id nonempty items =>
      have hslot := isPlanUpdateOf_of_reads (.planUpdate kind found id nonempty items)
      exact slot_changes hs hv (by rw [kind]; rfl)
        (fun old hold => .inr ⟨_, hold, hslot⟩) (.of_planUpdate hslot)
  | @planRemoved planId kind id nonempty =>
      simp only [activePlace]
      cases hf : (retained.drop start).findIdx? (isPlanUpdateOf planId) with
      | none => exact .keep kind
      | some i =>
          obtain ⟨pre, old, post, hsplit, hbehind, hi, hold⟩ := exists_split_of_drop hs hf
          simp only [Edit.shift, hi]
          exact .erase hsplit hbehind hold kind

/-- What the fold of a turn changes. -/
theorem activePlace_changes {reading : Reading} (h : Reads update reading) :
    Changes 0 retained update (activePlace retained update reading) := by
  have hshift : ∀ e : Edit Value, e.shift 0 = e := by
    intro e
    cases e <;> simp [Edit.shift]
  by_cases hchunk : ∃ shape text, reading = .chunk shape text
  · obtain ⟨shape, text, rfl⟩ := hchunk
    cases h with
    | chunk chunk => exact chunkPlace_changes chunk
  · have hsegment := segment_changes (Nat.zero_le retained.length) h
      (fun shape text heq => hchunk ⟨shape, text, heq⟩) (fun _ _ _ hzero => hzero)
    rwa [hshift] at hsegment

/-- What the fold of a history changes. -/
theorem historyPlace_changes {reading : Reading} (h : Reads update reading) :
    Changes (turnStart retained) retained update (historyPlace retained update reading) := by
  by_cases hchunk : ∃ shape text, reading = .chunk shape text
  · obtain ⟨shape, text, rfl⟩ := hchunk
    rw [historyPlace_chunk]
    cases h with
    | chunk chunk => exact chunkPlace_changes chunk
  by_cases hk : updateKind update = .toolCallUpdate
  · obtain ⟨toolCallId, rfl⟩ := h.tool_of_kind (by rw [hk]; rfl)
    rw [historyPlace_toolCallUpdate h hk]
    cases hl : lastIdx? (isToolOf toolCallId) retained with
    | none =>
        have hnone : retained.countP (isToolOf toolCallId) = 0 :=
          List.countP_eq_zero.mpr fun x hx => by simp [lastIdx?_eq_none.mp hl x hx]
        have hzero : (retained.drop (turnStart retained)).countP (isToolOf toolCallId) = 0 :=
          Nat.le_zero.mp (hnone ▸ (List.drop_sublist _ _).countP_le)
        exact .push ⟨_, h⟩ (.of_tool h hzero fun _ => hnone) fun last _ =>
          not_joins_of_kind (by rw [hk]; rfl) last
    | some position =>
        obtain ⟨pre, old, post, rfl, rfl, hold, -⟩ := exists_split_of_lastIdx? hl
        have hget : (pre ++ old :: post).getD pre.length .null = old := by simp
        simp only [hget]
        exact .patch rfl hold h (.inl hk)
  · rw [historyPlace_of_kind hk]
    exact segment_changes (turnStart_le retained) h
      (fun shape text heq => hchunk ⟨shape, text, heq⟩) (fun _ _ hkind _ => absurd hkind hk)

/-- An accepted update makes one of the changes of a history. -/
theorem exists_changes_of_foldHistoryUpdate {folded : List Value} (hv : ValidHistory retained)
    (h : foldHistoryUpdate retained update = .ok folded) :
    ∃ reading, Reads update reading ∧
      Changes (turnStart retained) retained update (historyPlace retained update reading) ∧
      folded = (historyPlace retained update reading).apply retained := by
  rw [foldHistoryUpdate_eq hv] at h
  cases hr : readUpdate update with
  | error e => simp [hr, Except.map] at h
  | ok reading =>
      simp only [hr, Except.map, Except.ok.injEq] at h
      have hreads := readUpdate_eq_ok.mp hr
      exact ⟨reading, hreads, historyPlace_changes hreads, h.symm⟩

/-- An accepted update makes one of the changes of a turn. -/
theorem exists_changes_of_foldActiveTurnUpdate {folded : List Value} (hv : ValidHistory retained)
    (h : foldActiveTurnUpdate retained update = .ok folded) :
    ∃ edit, Changes 0 retained update edit ∧ folded = edit.apply retained := by
  rw [foldActiveTurnUpdate_eq hv] at h
  cases hr : readUpdate update with
  | error e => simp [hr, Except.map] at h
  | ok reading =>
      simp only [hr, Except.map, Except.ok.injEq] at h
      exact ⟨_, activePlace_changes (readUpdate_eq_ok.mp hr), h.symm⟩

end Step

end Attyd.History
