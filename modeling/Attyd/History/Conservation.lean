import Attyd.History.Refolding

/-!
# What folding conserves

Folding and committing updates neither loses, duplicates nor reorders message text, keeps every
chunk without text, and gathers the last value sent for each field of a tool in its one entry.

## Implementation notes

A reading of entries that joined chunks add up, and that tools and plans do not have, adds up over
every fold: `Additive` names these. A tool is followed by the list of its own entries.
-/

namespace Attyd.History

open Json (Value)

section Additive

variable {β : Type} {f : Value → List β} {start : Nat} {retained updates folded : List Value}
  {update : Value}

/-- A reading of text chunks that joining adds up and no other entry of a known kind has. -/
structure Additive (f : Value → List β) : Prop where
  join : ∀ {last update s t}, IsTextChunk last s → IsTextChunk update t →
    (shapeOf last).alike (shapeOf update) = true → f (setText last (s ++ t)) = f last ++ f update
  silent : ∀ {update}, updateKind update ≠ .other → (updateKind update).isTextChunk = false →
    f update = []

theorem Additive.tool (hf : Additive f) {entry : Value} {toolCallId : String}
    (h : isToolOf toolCallId entry = true) : f entry = [] := by
  have hk := (isToolOf_iff.mp h).1
  exact hf.silent (fun ho => by simp [ho, UpdateKind.isTool] at hk) (isTextChunk_of_isTool hk)

theorem Additive.slot (hf : Additive f) {old new : Value} (h : SameSlot old new) :
    f old = [] ∧ f new = [] := by
  have hkind : ∀ {entry}, updateKind entry = .plan ∨ updateKind entry = .planUpdate →
      f entry = [] := by
    intro entry hk
    exact hf.silent (by rcases hk with hk | hk <;> simp [hk])
      (by rcases hk with hk | hk <;> simp [hk, UpdateKind.isTextChunk])
  rcases h with ⟨hold, hnew⟩ | ⟨id, hold, hnew⟩
  · exact ⟨hkind (.inl (isPlan_iff.mp hold)), hkind (.inl (isPlan_iff.mp hnew))⟩
  · exact ⟨hkind (.inr (isPlanUpdateOf_iff.mp hold).1),
      hkind (.inr (isPlanUpdateOf_iff.mp hnew).1)⟩

/-- A change adds what the update reads. -/
theorem Changes.additive {e : Edit Value} (h : Changes start retained update e)
    (hf : Additive f) : (e.apply retained).flatMap f = retained.flatMap f ++ f update := by
  have hremoved : updateKind update = .planRemoved → f update = [] := fun hk =>
    hf.silent (by simp [hk]) (by simp [hk, UpdateKind.isTextChunk])
  cases h with
  | push => simp
  | join split old new shape =>
      subst split
      simp [hf.join old new shape]
  | patch split tool reads inside =>
      subst split
      have hpatched := hf.tool (isToolOf_patchedTool tool (isObject_of_reads_tool reads))
      simp [hpatched, hf.tool tool, hf.tool (isToolOf_of_reads reads)]
  | slot split behind same valid =>
      subst split
      simp [hf.slot same]
  | erase split behind plan kind =>
      subst split
      have hold : f _ = [] := (hf.slot (.inr ⟨_, plan, plan⟩)).1
      simp [List.eraseIdx_append_of_length_le, hold, hremoved kind]
  | keep kind => simp [hremoved kind]

/-- The fold of a turn adds what its updates read. -/
theorem foldActive_additive (hf : Additive f) (hv : ValidHistory retained)
    (h : updates.foldlM foldActiveTurnUpdate retained = .ok folded) :
    folded.flatMap f = retained.flatMap f ++ updates.flatMap f := by
  induction updates generalizing retained with
  | nil =>
      cases h
      simp
  | cons update updates ih =>
      obtain ⟨next, hnext, hrest⟩ := foldlM_cons_eq_ok.mp h
      obtain ⟨edit, hchanges, heq⟩ := exists_changes_of_foldActiveTurnUpdate hv hnext
      rw [ih (foldActiveTurnUpdate_valid hv hnext) hrest, heq, hchanges.additive hf,
        List.flatMap_cons, List.append_assoc]

/-- The fold of a history adds what its updates read. -/
theorem foldHistory_additive (hf : Additive f) (hv : ValidHistory retained)
    (h : updates.foldlM foldHistoryUpdate retained = .ok folded) :
    folded.flatMap f = retained.flatMap f ++ updates.flatMap f := by
  induction updates generalizing retained with
  | nil =>
      cases h
      simp
  | cons update updates ih =>
      obtain ⟨next, hnext, hrest⟩ := foldlM_cons_eq_ok.mp h
      obtain ⟨reading, -, hchanges, heq⟩ := exists_changes_of_foldHistoryUpdate hv hnext
      rw [ih (foldHistoryUpdate_valid hv hnext) hrest, heq, hchanges.additive hf,
        List.flatMap_cons, List.append_assoc]

end Additive

/-! ## Text and other content -/

/-- The text of a chunk of one kind. -/
def textOf (kind : UpdateKind) (update : Value) : List Char :=
  match chunkOf update with
  | some (_, text) => if updateKind update = kind then text.toList else []
  | none => []

/-- A chunk whose content is not text, as it is. -/
def contentOf (update : Value) : List Value :=
  if (updateKind update).isTextChunk && (chunkOf update).isNone then [update] else []

theorem IsTextChunk.chunkOf {update : Value} {text : String} (h : IsTextChunk update text) :
    History.chunkOf update = some (shapeOf update, text) :=
  chunkOf_eq_some.mpr ⟨h, rfl⟩

theorem chunkOf_of_kind {update : Value} (h : (updateKind update).isTextChunk = false) :
    chunkOf update = none := by
  simp [chunkOf, textChunkShape_of_not_textChunk h]

theorem additive_textOf (kind : UpdateKind) : Additive (textOf kind) where
  join := by
    intro last update s t hlast hupdate hshape
    have hkind := updateKind_eq_of_alike hshape
    simp only [textOf, (hlast.setText (s ++ t)).chunkOf, hlast.chunkOf, hupdate.chunkOf,
      updateKind_setText, ← hkind]
    split
    · exact String.toList_append
    · rfl
  silent := by
    intro update _ hchunk
    simp [textOf, chunkOf_of_kind hchunk]

theorem additive_contentOf : Additive contentOf where
  join := by
    intro last update s t hlast hupdate _
    simp [contentOf, (hlast.setText (s ++ t)).chunkOf, hlast.chunkOf, hupdate.chunkOf]
  silent := by
    intro update _ hchunk
    simp [contentOf, hchunk]

/-! ## The entry of a tool -/

/-- The entries and updates of one tool. -/
def entriesOf (toolCallId : String) (updates : List Value) : List Value :=
  updates.filter (isToolOf toolCallId)

@[simp] theorem entriesOf_nil (toolCallId : String) : entriesOf toolCallId [] = [] := rfl

@[simp] theorem entriesOf_append (toolCallId : String) (a b : List Value) :
    entriesOf toolCallId (a ++ b) = entriesOf toolCallId a ++ entriesOf toolCallId b :=
  List.filter_append ..

theorem entriesOf_cons_of_tool {toolCallId : String} {update : Value}
    (h : isToolOf toolCallId update = true) (updates : List Value) :
    entriesOf toolCallId (update :: updates) = update :: entriesOf toolCallId updates :=
  List.filter_cons_of_pos h

theorem entriesOf_cons_of_ne {toolCallId : String} {update : Value}
    (h : isToolOf toolCallId update = false) (updates : List Value) :
    entriesOf toolCallId (update :: updates) = entriesOf toolCallId updates :=
  List.filter_cons_of_neg (by simp [h])

/-- A field that is not `null`. -/
def valueOf (field : String) (update : Value) : Option Value :=
  (update.get field).filter (!·.isNull)

/-- The last value sent for a field. -/
def lastValue (field : String) (updates : List Value) : Option Value :=
  (updates.filterMap (valueOf field)).getLast?

@[simp] theorem lastValue_singleton (field : String) (update : Value) :
    lastValue field [update] = valueOf field update := by
  cases h : valueOf field update <;> simp [lastValue, h]

theorem lastValue_append (field : String) (a b : List Value) :
    lastValue field (a ++ b) = (lastValue field b <|> lastValue field a) := by
  simp [lastValue, List.filterMap_append, List.getLast?_append]

theorem valueOf_toolCallId {toolCallId : String} {entry : Value}
    (h : isToolOf toolCallId entry = true) :
    valueOf "toolCallId" entry = some (.string toolCallId) := by
  rw [valueOf, Value.getStr_eq_some.mp (isToolOf_iff.mp h).2]
  rfl

/-- A patched entry has the value of the patch where that has one. -/
theorem valueOf_patchedTool {target update : Value} {toolCallId field : String}
    (ht : isToolOf toolCallId target = true) (hu : isToolOf toolCallId update = true)
    (hf : field ≠ "sessionUpdate") :
    valueOf field (patchedTool target update toolCallId) =
      (valueOf field update <|> valueOf field target) := by
  have hobject := isObject_of_isToolOf hu
  rw [valueOf, get_patchedTool (isObject_of_isToolOf ht) hobject, if_neg hf]
  by_cases hk : field = "toolCallId"
  · subst hk
    rw [if_pos rfl, valueOf_toolCallId hu]
    rfl
  · rw [if_neg hk, valueOf]
    cases hget : (update.get field).filter (!·.isNull) with
    | none => rfl
    | some value =>
        have hvalue := (Option.filter_eq_some_iff.mp hget).2
        simp [Option.filter, hvalue]

/-- A tool holds what was sent for it: nothing, or one entry with the last value of each field. -/
def Carries (held sent : List Value) : Prop :=
  held = [] ∧ sent = [] ∨
    ∃ entry, held = [entry] ∧
      ∀ field, field ≠ "sessionUpdate" → valueOf field entry = lastValue field sent

section Entries

variable {start : Nat} {retained updates folded : List Value} {update : Value}
  {toolCallId : String}

theorem entriesOf_replace {pre post : List Value} {old new : Value} (role : SameRole old new)
    (h : isToolOf toolCallId old = false) :
    entriesOf toolCallId (pre ++ new :: post) = entriesOf toolCallId (pre ++ old :: post) := by
  have hnew : isToolOf toolCallId new = false := (role.tool toolCallId).trans h
  simp [entriesOf, h, hnew]

theorem isToolOf_eq_false_of_kind (h : (updateKind update).isTool = false) :
    isToolOf toolCallId update = false := by
  simp [isToolOf, h]

theorem isToolOf_eq_false_of_slot {old new : Value} (h : SameSlot old new) :
    isToolOf toolCallId old = false := by
  rcases h with ⟨hold, -⟩ | ⟨id, hold, -⟩
  · exact isToolOf_eq_false_of_kind (by rw [isPlan_iff.mp hold]; rfl)
  · exact isToolOf_eq_false_of_kind (by rw [(isPlanUpdateOf_iff.mp hold).1]; rfl)

/-- A tool is told apart by its id. -/
theorem isToolOf_unique {entry : Value} {id : String} (h : isToolOf toolCallId entry = true)
    (hid : isToolOf id entry = true) : id = toolCallId :=
  Option.some.inj ((isToolOf_iff.mp hid).2.symm.trans (isToolOf_iff.mp h).2)

/-- An update of something else leaves the entries of a tool. -/
theorem Changes.entriesOf_of_ne {e : Edit Value} (h : Changes start retained update e)
    (hne : isToolOf toolCallId update = false) :
    entriesOf toolCallId (e.apply retained) = entriesOf toolCallId retained := by
  cases h with
  | push => simp [entriesOf, hne]
  | @join pre last s t split old new shape =>
      subst split
      have hlast : isToolOf toolCallId last = false :=
        isToolOf_eq_false_of_kind (isTool_of_textChunk old.kind)
      rw [Edit.apply_put_middle]
      exact entriesOf_replace (.of_setText old _) hlast
  | @patch pre post target id split tool reads inside =>
      subst split
      have htarget : isToolOf toolCallId target = false := by
        by_contra hcontra
        have heq := isToolOf_unique tool (Bool.eq_true_of_not_eq_false hcontra)
        rw [heq, isToolOf_of_reads reads] at hne
        cases hne
      rw [Edit.apply_put_middle]
      exact entriesOf_replace (.of_patchedTool tool (isObject_of_reads_tool reads)) htarget
  | slot split behind same valid =>
      subst split
      rw [Edit.apply_put_middle]
      exact entriesOf_replace same.role (isToolOf_eq_false_of_slot same)
  | @erase pre post old planId split behind plan kind =>
      subst split
      have hold : isToolOf toolCallId old = false :=
        isToolOf_eq_false_of_slot (.inr ⟨planId, plan, plan⟩)
      rw [Edit.apply_erase_middle, entriesOf_append, entriesOf_append, entriesOf_cons_of_ne hold]
  | keep => rfl

/-- An update of a tool opens its entry or patches it. -/
theorem Changes.entriesOf_of_tool {e : Edit Value} (h : Changes start retained update e)
    (htool : isToolOf toolCallId update = true) :
    (entriesOf toolCallId retained = [] → entriesOf toolCallId (e.apply retained) = [update]) ∧
      ∀ entry, entriesOf toolCallId retained = [entry] →
        (start = 0 ∨ updateKind update = .toolCallUpdate) →
        entriesOf toolCallId (e.apply retained) = [patchedTool entry update toolCallId] := by
  have hkind := (isToolOf_iff.mp htool).1
  cases h with
  | push valid fresh apart =>
      refine ⟨fun hnone => ?_, fun entry hone hreach => ?_⟩
      · simpa [entriesOf, htool] using hnone
      · have hcount : retained.countP (isToolOf toolCallId) = 1 := by
          rw [List.countP_eq_length_filter]
          exact congrArg List.length hone
        rcases hreach with rfl | hk
        · have hzero := fresh.tool toolCallId htool
          rw [List.drop_zero, hcount] at hzero
          cases hzero
        · have hzero := fresh.patch toolCallId htool hk
          rw [hcount] at hzero
          cases hzero
  | join split old new shape =>
      rw [isTool_of_textChunk new.kind] at hkind
      cases hkind
  | @patch pre post target id split tool reads inside =>
      subst split
      obtain rfl := isToolOf_unique htool (isToolOf_of_reads reads)
      have hpatched := isToolOf_patchedTool tool (isObject_of_reads_tool reads)
      refine ⟨fun hnone => ?_, fun entry hone _ => ?_⟩
      · simp [entriesOf, tool] at hnone
      · have hsplit : entriesOf id pre ++ target :: entriesOf id post = [entry] := by
          simpa [entriesOf, tool] using hone
        obtain ⟨hpre, htarget, hpost⟩ : entriesOf id pre = [] ∧ target = entry ∧
            entriesOf id post = [] := by
          cases hp : entriesOf id pre with
          | nil => simpa [hp] using hsplit
          | cons first rest => simp [hp] at hsplit
        subst htarget
        rw [Edit.apply_put_middle, entriesOf_append, entriesOf_cons_of_tool hpatched, hpre, hpost]
        rfl
  | slot split behind same valid =>
      have hfalse : isToolOf toolCallId update = false := by
        rw [same.role.tool]
        exact isToolOf_eq_false_of_slot same
      rw [hfalse] at htool
      cases htool
  | erase split behind plan kind =>
      rw [kind] at hkind
      cases hkind
  | keep kind =>
      rw [kind] at hkind
      cases hkind

/-- What was sent for a tool, after one more of its updates. -/
theorem Changes.carries {e : Edit Value} (h : Changes start retained update e)
    (htool : isToolOf toolCallId update = true) {sent rep : List Value}
    (hcarries : Carries (entriesOf toolCallId retained) sent)
    (hreach : sent = [] ∨ start = 0 ∨ updateKind update = .toolCallUpdate)
    (hrep : ∀ field, field ≠ "sessionUpdate" → valueOf field update = lastValue field rep) :
    Carries (entriesOf toolCallId (e.apply retained)) (sent ++ rep) := by
  obtain ⟨hopen, hpatch⟩ := h.entriesOf_of_tool htool
  right
  rcases hcarries with ⟨hnone, rfl⟩ | ⟨entry, hone, hvalues⟩
  · exact ⟨update, hopen hnone, hrep⟩
  · have hentry : isToolOf toolCallId entry = true := by
      have hmem : entry ∈ entriesOf toolCallId retained := by
        rw [hone]
        exact List.mem_singleton_self entry
      exact (List.mem_filter.mp hmem).2
    rcases hreach with rfl | hreach
    · have hid := hvalues "toolCallId" (by decide)
      rw [valueOf_toolCallId hentry] at hid
      cases hid
    · refine ⟨_, hpatch entry hone hreach, fun field hf => ?_⟩
      rw [valueOf_patchedTool hentry htool hf, hrep field hf, hvalues field hf, lastValue_append]

/-- A turn carries what was sent for a tool, as a patch if only patches were sent. -/
theorem foldActive_carries (hv : ValidHistory retained) {sent : List Value}
    (hcarries : Carries (entriesOf toolCallId retained) sent)
    (h : updates.foldlM foldActiveTurnUpdate retained = .ok folded) :
    Carries (entriesOf toolCallId folded) (sent ++ entriesOf toolCallId updates) := by
  induction updates generalizing retained sent with
  | nil =>
      cases h
      rwa [entriesOf_nil, List.append_nil]
  | cons update updates ih =>
      obtain ⟨next, hnext, hrest⟩ := foldlM_cons_eq_ok.mp h
      obtain ⟨edit, hchanges, rfl⟩ := exists_changes_of_foldActiveTurnUpdate hv hnext
      have hv' := foldActiveTurnUpdate_valid hv hnext
      cases htool : isToolOf toolCallId update with
      | true =>
          have hstep := hchanges.carries htool hcarries (.inr (.inl rfl)) fun field _ =>
            (lastValue_singleton field update).symm
          have hfolded := ih hv' hstep hrest
          rwa [List.append_assoc, List.singleton_append, ← entriesOf_cons_of_tool htool] at hfolded
      | false =>
          have hsame := hchanges.entriesOf_of_ne htool
          rw [← hsame] at hcarries
          have hfolded := ih hv' hcarries hrest
          rwa [entriesOf_cons_of_ne htool]

/-- A turn that patches a tool only holds a patch of it. -/
theorem foldActive_patches (hv : ValidHistory retained) {sent : List Value}
    (hcarries : Carries (entriesOf toolCallId retained) sent)
    (hretained : ∀ entry ∈ entriesOf toolCallId retained, updateKind entry = .toolCallUpdate)
    (hupdates : ∀ update ∈ entriesOf toolCallId updates, updateKind update = .toolCallUpdate)
    (h : updates.foldlM foldActiveTurnUpdate retained = .ok folded) :
    ∀ entry ∈ entriesOf toolCallId folded, updateKind entry = .toolCallUpdate := by
  induction updates generalizing retained sent with
  | nil =>
      cases h
      exact hretained
  | cons update updates ih =>
      obtain ⟨next, hnext, hrest⟩ := foldlM_cons_eq_ok.mp h
      obtain ⟨edit, hchanges, rfl⟩ := exists_changes_of_foldActiveTurnUpdate hv hnext
      have hv' := foldActiveTurnUpdate_valid hv hnext
      cases htool : isToolOf toolCallId update with
      | true =>
          rw [entriesOf_cons_of_tool htool] at hupdates
          obtain ⟨hupdate, hlater⟩ := List.forall_mem_cons.mp hupdates
          have hstep := hchanges.carries htool hcarries (.inr (.inl rfl)) fun field _ =>
            (lastValue_singleton field update).symm
          refine ih hv' hstep ?_ hlater hrest
          obtain ⟨hopen, hpatch⟩ := hchanges.entriesOf_of_tool htool
          rcases hcarries with ⟨hnone, -⟩ | ⟨entry, hone, -⟩
          · rw [hopen hnone]
            exact List.forall_mem_singleton.mpr hupdate
          · have hentry : entry ∈ entriesOf toolCallId retained := by
              rw [hone]
              exact List.mem_singleton_self entry
            have hobject := isObject_of_isToolOf (List.mem_filter.mp hentry).2
            rw [hpatch entry hone (.inl rfl), List.forall_mem_singleton,
              updateKind_patchedTool hobject (isObject_of_isToolOf htool), hupdate]
            exact hretained entry hentry
      | false =>
          rw [entriesOf_cons_of_ne htool] at hupdates
          rw [← hchanges.entriesOf_of_ne htool] at hcarries hretained
          exact ih hv' hcarries hretained hupdates hrest

end Entries

end Attyd.History
