import Attyd.History.Placement

/-!
# What one placement can do to a history

The searches of the folds ask of an entry whether it is a user chunk, which tool
it belongs to and which plan. A placement adds a valid entry at the end,
replaces an entry by a valid one with the same answers, or drops a plan that
the update removes.
-/

namespace Attyd.History

open Json (Value)

/-- Two entries that every search of the folds answers alike. -/
structure SameRole (old new : Value) : Prop where
  user : isUserChunk new = isUserChunk old
  tool : ∀ toolCallId, isToolOf toolCallId new = isToolOf toolCallId old
  plan : isPlan new = isPlan old
  planUpdate : ∀ planId, isPlanUpdateOf planId new = isPlanUpdateOf planId old

theorem SameRole.refl (entry : Value) : SameRole entry entry :=
  ⟨rfl, fun _ => rfl, rfl, fun _ => rfl⟩

theorem isTool_of_textChunk {kind : UpdateKind} (h : kind.isTextChunk = true) :
    kind.isTool = false := by
  cases kind <;> first | rfl | cases h

/-- Entries of one text kind differ in nothing a search asks. -/
theorem SameRole.of_textChunk {old new : Value} (h : (updateKind old).isTextChunk = true)
    (hk : updateKind new = updateKind old) : SameRole old new := by
  have ht := isTool_of_textChunk h
  have hp : updateKind old ≠ .planUpdate := fun hp => by simp [hp, UpdateKind.isTextChunk] at h
  exact ⟨by simp [isUserChunk, hk], fun id => by simp [isToolOf, hk, ht], by simp [isPlan, hk],
    fun id => by simp [isPlanUpdateOf, hk, hp]⟩

theorem SameRole.of_setText {entry : Value} {text : String} (h : IsTextChunk entry text)
    (t : String) : SameRole entry (setText entry t) :=
  .of_textChunk h.kind (updateKind_setText entry t)

/-- Entries of one tool differ in nothing a search asks. -/
theorem SameRole.of_tool {old new : Value} {toolCallId : String}
    (ho : isToolOf toolCallId old = true) (hn : isToolOf toolCallId new = true) :
    SameRole old new := by
  obtain ⟨hko, hio⟩ := isToolOf_iff.mp ho
  obtain ⟨hkn, hin⟩ := isToolOf_iff.mp hn
  have hother : ∀ (kind : UpdateKind) {entry : Value}, (updateKind entry).isTool = true →
      kind.isTool = false → updateKind entry ≠ kind := by
    intro kind entry he hk heq
    rw [heq, hk] at he
    cases he
  constructor
  · simp [isUserChunk, hother .userMessageChunk hko rfl, hother .userMessageChunk hkn rfl]
  · intro id
    simp [isToolOf, hko, hkn, hio, hin]
  · simp [isPlan, hother .plan hko rfl, hother .plan hkn rfl]
  · intro id
    simp [isPlanUpdateOf, hother .planUpdate hko rfl, hother .planUpdate hkn rfl]

theorem SameRole.of_patchedTool {target update : Value} {toolCallId : String}
    (ht : isToolOf toolCallId target = true) (hu : update.isObject = true) :
    SameRole target (patchedTool target update toolCallId) :=
  .of_tool ht (isToolOf_patchedTool ht hu)

theorem isPlan_iff {entry : Value} : isPlan entry = true ↔ updateKind entry = .plan := by
  simp [isPlan]

theorem isPlanUpdateOf_iff {planId : String} {entry : Value} :
    isPlanUpdateOf planId entry = true ↔
      updateKind entry = .planUpdate ∧ planIdOf entry = some planId := by
  simp [isPlanUpdateOf]

theorem SameRole.of_plan {old new : Value} (ho : isPlan old = true) (hn : isPlan new = true) :
    SameRole old new := by
  have hko := isPlan_iff.mp ho
  have hkn := isPlan_iff.mp hn
  exact ⟨by simp [isUserChunk, hko, hkn], fun id => by simp [isToolOf, hko, hkn, UpdateKind.isTool],
    by simp [hn, ho], fun id => by simp [isPlanUpdateOf, hko, hkn]⟩

theorem SameRole.of_planUpdate {old new : Value} {planId : String}
    (ho : isPlanUpdateOf planId old = true) (hn : isPlanUpdateOf planId new = true) :
    SameRole old new := by
  obtain ⟨hko, hio⟩ := isPlanUpdateOf_iff.mp ho
  obtain ⟨hkn, hin⟩ := isPlanUpdateOf_iff.mp hn
  exact ⟨by simp [isUserChunk, hko, hkn], fun id => by simp [isToolOf, hko, hkn, UpdateKind.isTool],
    by simp [isPlan, hko, hkn], fun id => by simp [isPlanUpdateOf, hko, hkn, hio, hin]⟩

/-- A read plan update names its own slot. -/
theorem isPlanUpdateOf_of_reads {update : Value} {planId : String}
    (h : Reads update (.planUpdate planId)) : isPlanUpdateOf planId update = true := by
  cases h with
  | planUpdate kind found id =>
      exact isPlanUpdateOf_iff.mpr ⟨kind, by simp [planIdOf, found, id]⟩

theorem isPlan_of_reads {update : Value} (h : Reads update .plan) : isPlan update = true := by
  cases h with
  | plan kind => exact isPlan_iff.mpr kind

theorem isToolOf_of_reads {update : Value} {toolCallId : String}
    (h : Reads update (.tool toolCallId)) : isToolOf toolCallId update = true := by
  cases h with
  | tool kind id => exact isToolOf_iff.mpr ⟨kind, id⟩

theorem isObject_of_reads_tool {update : Value} {toolCallId : String}
    (h : Reads update (.tool toolCallId)) : update.isObject = true :=
  isObject_of_isToolOf (isToolOf_of_reads h)

theorem ne_empty_of_reads_tool {update : Value} {toolCallId : String}
    (h : Reads update (.tool toolCallId)) : toolCallId ≠ "" := by
  cases h with
  | tool kind id nonempty => exact nonempty

/-- The changes a placement can make. -/
inductive Placed (retained : List Value) (update : Value) : Edit Value → Prop where
  | keep (kind : updateKind update = .planRemoved) : Placed retained update .keep
  | push (kind : updateKind update ≠ .planRemoved) (valid : Valid update) :
      Placed retained update (.push update)
  | put {pre post : List Value} {old new : Value} (kind : updateKind update ≠ .planRemoved)
      (split : retained = pre ++ old :: post) (valid : Valid new) (role : SameRole old new) :
      Placed retained update (.put pre.length new)
  | erase {pre post : List Value} {old : Value} {planId : String}
      (kind : updateKind update = .planRemoved) (split : retained = pre ++ old :: post)
      (plan : isPlanUpdateOf planId old = true) : Placed retained update (.erase pre.length)

/-- A slot that is found is replaced, one that is missing is opened. -/
theorem replaceSharedFoldSlot_placed {retained : List Value} {update : Value}
    {slot : Value → Bool} (hv : Valid update)
    (hk : updateKind update ≠ .planRemoved)
    (hrole : ∀ old, slot old = true → SameRole old update) :
    Placed retained update (replaceSharedFoldSlot retained slot update) := by
  unfold replaceSharedFoldSlot
  cases hf : retained.findIdx? slot with
  | none => exact .push hk hv
  | some position =>
      obtain ⟨pre, old, post, hsplit, rfl, hold, -⟩ := exists_split_of_findIdx? hf
      exact .put hk hsplit hv (hrole old hold)

theorem chunkPlace_placed {retained : List Value} {update : Value} {text : String}
    (hc : IsTextChunk update text) :
    Placed retained update (chunkPlace retained update (shapeOf update) text) := by
  have hk : updateKind update ≠ .planRemoved := by
    intro h
    have := hc.kind
    simp [h, UpdateKind.isTextChunk] at this
  have hpush : Placed retained update (.push update) := .push hk ⟨_, .chunk hc⟩
  cases retained using List.reverseRecOn with
  | nil => exact hpush
  | append_singleton pre last =>
      rw [chunkPlace_snoc]
      cases hj : joins last (shapeOf update) with
      | none => exact hpush
      | some lastText =>
          have hl := (joins_eq_some.mp hj).1
          exact .put hk rfl (.of_setText hl _) (.of_setText hl _)

theorem activePlace_placed {retained : List Value} {update : Value} {reading : Reading}
    (h : Reads update reading) : Placed retained update (activePlace retained update reading) := by
  cases h with
  | other kind => exact .push (by rw [kind]; decide) ⟨_, .other kind⟩
  | content kind shape =>
      refine .push ?_ ⟨_, .content kind shape⟩
      intro h
      simp [h, UpdateKind.isTextChunk] at kind
  | chunk chunk => exact chunkPlace_placed chunk
  | @tool toolCallId kind id nonempty =>
      have hk : updateKind update ≠ .planRemoved := by
        intro h
        simp [h, UpdateKind.isTool] at kind
      simp only [activePlace]
      cases hf : retained.findIdx? (isToolOf toolCallId) with
      | none => exact .push hk ⟨_, .tool kind id nonempty⟩
      | some position =>
          obtain ⟨pre, old, post, rfl, rfl, hold, -⟩ := exists_split_of_findIdx? hf
          have hu := Value.isObject_of_getStr id
          have hget : (pre ++ old :: post).getD pre.length .null = old := by simp
          change Placed _ update (.put pre.length
            (patchedTool ((pre ++ old :: post).getD pre.length .null) update toolCallId))
          rw [hget]
          exact .put hk rfl (.of_patchedTool hold hu nonempty) (.of_patchedTool hold hu)
  | plan kind entries =>
      have hreads := Reads.plan kind entries
      exact replaceSharedFoldSlot_placed ⟨_, hreads⟩
        (by rw [kind]; decide) fun old hold => .of_plan hold (isPlan_of_reads hreads)
  | planUpdate kind found id nonempty items =>
      have hreads := Reads.planUpdate kind found id nonempty items
      have hslot := isPlanUpdateOf_of_reads hreads
      exact replaceSharedFoldSlot_placed ⟨_, hreads⟩
        (by rw [kind]; decide) fun old hold => .of_planUpdate hold hslot
  | @planRemoved planId kind id nonempty =>
      simp only [activePlace]
      cases hf : retained.findIdx? (isPlanUpdateOf planId) with
      | none => exact .keep kind
      | some position =>
          obtain ⟨pre, old, post, hsplit, rfl, hold, -⟩ := exists_split_of_findIdx? hf
          exact .erase kind hsplit hold

/-- A placement behind a prefix is a placement in the whole list. -/
theorem Placed.shift {retained : List Value} {update : Value} {e : Edit Value} {n : Nat}
    (hn : n ≤ retained.length) (h : Placed (retained.drop n) update e) :
    Placed retained update (e.shift n) := by
  have hlen : (retained.take n).length = n := List.length_take_of_le hn
  have hwhole : ∀ {pre : List Value}, n + pre.length = (retained.take n ++ pre).length := by
    intro pre
    rw [List.length_append, hlen]
  have happ : ∀ {pre post : List Value} {old : Value}, retained.drop n = pre ++ old :: post →
      retained = (retained.take n ++ pre) ++ old :: post := by
    intro pre post old hsplit
    rw [List.append_assoc, ← hsplit, List.take_append_drop]
  cases h with
  | keep kind => exact .keep kind
  | push kind valid => exact .push kind valid
  | put kind split valid role =>
      rw [Edit.shift, hwhole]
      exact .put kind (happ split) valid role
  | erase kind split plan =>
      rw [Edit.shift, hwhole]
      exact .erase kind (happ split) plan

/-- Everything one update can do to a history. -/
theorem historyPlace_placed {retained : List Value} {update : Value} {reading : Reading}
    (h : Reads update reading) : Placed retained update (historyPlace retained update reading) := by
  unfold historyPlace
  split
  case h_2 => exact (activePlace_placed h).shift (turnStart_le retained)
  case h_1 position toolCallId hp =>
    have hk := kind_eq_of_sessionToolPosition hp
    rw [sessionToolPosition_of_reads h, if_pos hk] at hp
    obtain ⟨pre, old, post, rfl, rfl, hold, -⟩ := exists_split_of_lastIdx? hp
    have hget : (pre ++ old :: post).getD pre.length .null = old := by simp
    rw [hget]
    cases h with
    | tool kind id nonempty =>
        have hu := Value.isObject_of_getStr id
        exact .put (by rw [hk]; decide) rfl (.of_patchedTool hold hu nonempty)
          (.of_patchedTool hold hu)

theorem Placed.validHistory {retained : List Value} {update : Value} {e : Edit Value}
    (h : Placed retained update e) (hv : ValidHistory retained) :
    ValidHistory (e.apply retained) := by
  cases h with
  | keep => exact hv
  | push kind valid =>
      intro entry he
      rcases List.mem_append.mp he with he | he
      · exact hv entry he
      · rw [List.mem_singleton.mp he]
        exact valid
  | put kind split valid role =>
      intro entry he
      rcases List.mem_or_eq_of_mem_set he with he | rfl
      · exact hv entry he
      · exact valid
  | erase kind split plan =>
      exact fun entry he => hv entry (List.mem_of_mem_eraseIdx he)

/-- A fold keeps a valid history valid. -/
theorem foldHistoryUpdate_valid {retained folded : List Value} {update : Value}
    (hv : ValidHistory retained) (h : foldHistoryUpdate retained update = .ok folded) :
    ValidHistory folded := by
  rw [foldHistoryUpdate_eq hv] at h
  cases hr : readUpdate update with
  | error e => simp [hr, Except.map] at h
  | ok reading =>
      simp only [hr, Except.map, Except.ok.injEq] at h
      rw [← h]
      exact (historyPlace_placed (readUpdate_eq_ok.mp hr)).validHistory hv

theorem foldActiveTurnUpdate_valid {retained folded : List Value} {update : Value}
    (hv : ValidHistory retained) (h : foldActiveTurnUpdate retained update = .ok folded) :
    ValidHistory folded := by
  rw [foldActiveTurnUpdate_eq hv] at h
  cases hr : readUpdate update with
  | error e => simp [hr, Except.map] at h
  | ok reading =>
      simp only [hr, Except.map, Except.ok.injEq] at h
      rw [← h]
      exact (activePlace_placed (readUpdate_eq_ok.mp hr)).validHistory hv

/-- Within a turn only an entry of a known kind is replaced, by one of a known kind. -/
theorem kind_of_activePlace_put {retained : List Value} {update new : Value} {reading : Reading}
    {i : Nat} (h : Reads update reading) (hp : activePlace retained update reading = .put i new) :
    updateKind new ≠ .other := by
  cases h with
  | other kind => cases hp
  | content kind shape => cases hp
  | @chunk text chunk =>
      simp only [activePlace, chunkPlace] at hp
      cases hl : retained.getLast? with
      | none => simp only [hl, reduceCtorEq] at hp
      | some previous =>
          simp only [hl] at hp
          cases hj : joins previous (shapeOf update) with
          | none => simp only [hj, reduceCtorEq] at hp
          | some previousText =>
              simp only [hj, Edit.put.injEq] at hp
              rw [← hp.2, updateKind_setText]
              intro hk
              have hkind := (joins_eq_some.mp hj).1.kind
              rw [hk] at hkind
              cases hkind
  | tool kind id nonempty =>
      simp only [activePlace] at hp
      split at hp
      case h_2 => cases hp
      case h_1 position hf =>
        simp only [Edit.put.injEq] at hp
        have htarget := (getD_of_findIdx? hf).1
        rw [← hp.2, updateKind_patchedTool (isObject_of_isToolOf htarget)
          (Value.isObject_of_getStr id)]
        intro hk
        split at hk
        case isTrue => cases hk
        case isFalse =>
          have htool := (isToolOf_iff.mp htarget).1
          rw [hk] at htool
          cases htool
  | plan kind entries =>
      simp only [activePlace, replaceSharedFoldSlot] at hp
      split at hp
      case h_2 => cases hp
      case h_1 =>
        simp only [Edit.put.injEq] at hp
        rw [← hp.2, kind]
        decide
  | planUpdate kind found id nonempty items =>
      simp only [activePlace, replaceSharedFoldSlot] at hp
      split at hp
      case h_2 => cases hp
      case h_1 =>
        simp only [Edit.put.injEq] at hp
        rw [← hp.2, kind]
        decide
  | planRemoved kind id nonempty =>
      simp only [activePlace] at hp
      split at hp <;> cases hp

/-- In a history only an entry of a known kind is replaced, by one of a known kind. -/
theorem kind_of_historyPlace_put {retained : List Value} {update new : Value} {reading : Reading}
    {i : Nat} (h : Reads update reading) (hp : historyPlace retained update reading = .put i new) :
    updateKind new ≠ .other := by
  unfold historyPlace at hp
  split at hp
  case h_1 position toolCallId hposition =>
    have hk := kind_eq_of_sessionToolPosition hposition
    rw [sessionToolPosition_of_reads h, if_pos hk] at hposition
    obtain ⟨pre, old, post, rfl, rfl, hold, -⟩ := exists_split_of_lastIdx? hposition
    cases h with
    | tool kind id nonempty =>
        have hget : (pre ++ old :: post).getD pre.length .null = old := by simp
        simp only [hget, Edit.put.injEq] at hp
        rw [← hp.2, updateKind_patchedTool (isObject_of_isToolOf hold)
          (Value.isObject_of_getStr id), hk]
        intro hother
        rw [if_neg (by decide)] at hother
        have htool := (isToolOf_iff.mp hold).1
        rw [hother] at htool
        cases htool
  case h_2 current _ _ _ =>
    cases hactive : activePlace (retained.drop (turnStart retained)) update current with
    | put j other =>
        rw [hactive] at hp
        cases hp
        exact kind_of_activePlace_put h hactive
    | keep | push value | erase j =>
        rw [hactive] at hp
        cases hp

end Attyd.History
