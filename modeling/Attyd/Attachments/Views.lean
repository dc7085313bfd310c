import Attyd.Attachments.Projection
import Attyd.Presentation.Rendering

/-!
# The blocks of the forms of a session view

A browser is sent a session view in full, in its compact form, or one page of a process. Each is
made from the raw view of the bridge, and a block with inline content in it is a block of the raw
view: gathering and materializing updates moves such blocks and changes none.
-/

namespace Attyd.Attachments

open Json (Value Walk Path)
open Json.Walk
open Presentation

/-- The view that a browser is sent, from the view of the bridge. -/
def businessSessionView (view : Value) : Option Value := do
  let session ← view.get "session"
  let live := (view.get "live").getD .null
  let terminals := ((view.get "terminals").filter (·.isObject)).getD .empty
  let terminals := (live.get "terminals").elim terminals terminals.mergeFields
  some (.ofFields
    [("bridgeEpoch", ← view.get "bridgeEpoch"), ("sessionId", ← session.get "sessionId"),
      ("sessionIncarnation", ← session.get "incarnation"),
      ("viewRevision", ← session.get "viewRevision"),
      ("historyRevision", session.index "historyRevision"), ("phase", ← session.get "phase"),
      ("syncError", session.index "syncError"), ("historyNotice", session.index "historyNotice"),
      ("timeline", (view.pointer ["baseline", "updates"]).getD (.array [])),
      ("turnOutcomes", (session.get "turnOutcomes").getD (.array [])),
      ("activeTurn", session.index "activeTurn"),
      ("workspace", .ofFields [("cwd", live.index "cwd"), ("session", live.index "session")]),
      ("controls", (live.get "controlState").getD .empty),
      ("interactions", .ofFields
        [("permissions", (live.get "permissions").getD .empty),
          ("elicitations", (live.get "elicitations").getD .empty),
          ("urlFlows", (live.get "urlFlows").getD .empty)]),
      ("operation", live.index "operation"), ("terminals", terminals)])

/-- A block with inline content in one view is one of the other view. -/
def Draws (shown raw : Value) : Prop :=
  ∀ b ∈ blocks.parts shown, (resource b).isSome = true → b ∈ blocks.parts raw

theorem Draws.trans {v w u : Value} (h : Draws v w) (h' : Draws w u) : Draws v u :=
  fun b hb hresource => h' b (h b hb hresource) hresource

section Materialize

variable {update b : Value}

theorem asStr_index (v : Value) (field : String) : (v.index field).asStr = v.getStr field := by
  rw [Value.index, Value.getStr]
  cases v.get field <;> rfl

theorem mem_updateBlocks : b ∈ updateBlocks.parts update ↔
    b ∈ (blocksOfKind (update.getStr "sessionUpdate")).parts update := by
  rw [← asStr_index]
  rfl

theorem getStr_of_isTool (h : isTool (kind update) = true) :
    blocksOfKind (update.getStr "sessionUpdate") = toolBlocks := by
  unfold kind isTool at h
  cases hs : update.getStr "sessionUpdate" with
  | none => simp [hs] at h
  | some s =>
      rw [hs, Option.getD_some, Bool.or_eq_true, decide_eq_true_iff, decide_eq_true_iff] at h
      rcases h with rfl | rfl <;> rfl

theorem mem_updateBlocks_tool (h : isTool (kind update) = true) :
    b ∈ updateBlocks.parts update ↔ ∃ content, update.get "content" = some content ∧
      b ∈ (items (choose contentBlocks contentBlocks_stable)).parts content := by
  rw [mem_updateBlocks, getStr_of_isTool h, toolBlocks, mem_parts_key]

/-- What the updates of a tool are written over keeps its kind, and has the content of the last
one that has any. -/
theorem foldl_patch {merged : Value} {updates : List Value} (hmerged : merged.isObject = true)
    (hupdates : ∀ update ∈ updates, update.isObject = true) {shown : Value}
    (hshown : shown = updates.foldl
      (fun merged update => merged.patch (update.remove "sessionUpdate")) merged) :
    shown.get "sessionUpdate" = merged.get "sessionUpdate" ∧
      ∀ content, shown.get "content" = some content →
        merged.get "content" = some content ∨ ∃ update ∈ updates, update.get "content" = some content := by
  induction updates generalizing merged with
  | nil => exact hshown ▸ ⟨rfl, fun content h => .inl h⟩
  | cons update updates ih =>
      obtain ⟨hupdate, hupdates⟩ := List.forall_mem_cons.mp hupdates
      have hremoved : (update.remove "sessionUpdate").isObject = true := by
        rw [Value.isObject_remove, hupdate]
      obtain ⟨hkind, hcontent⟩ := ih (by rw [Value.isObject_patch, hmerged]) hupdates hshown
      rw [Value.get_patch hmerged hremoved, Value.get_remove] at hkind
      refine ⟨by simpa using hkind, fun content h => ?_⟩
      rcases hcontent content h with hpatch | ⟨later, hlater, hc⟩
      · rw [Value.get_patch hmerged hremoved, Value.get_remove] at hpatch
        cases hget : update.get "content" with
        | none => exact .inl (by simpa [hget] using hpatch)
        | some own =>
            cases hnull : own.isNull with
            | true => exact .inl (by simpa [hget, hnull, Option.filter] using hpatch)
            | false =>
                have hown : own = content := by simpa [hget, hnull, Option.filter] using hpatch
                exact .inr ⟨update, List.mem_cons_self, hown ▸ hget⟩
      · exact .inr ⟨later, List.mem_cons_of_mem _ hlater, hc⟩

/-- The card for a missing tool call shows a text. -/
theorem resource_recoveredCard {toolCallId content : Value}
    (h : (Entry.recoveredCard toolCallId).get "content" = some content)
    (hb : b ∈ (items (choose contentBlocks contentBlocks_stable)).parts content) :
    resource b = none := by
  rw [Entry.recoveredCard, Value.get_ofFields] at h
  cases h
  obtain ⟨xs, hxs, x, hx, hb⟩ := mem_parts_items.mp hb
  cases hxs
  rw [List.mem_singleton] at hx
  subst hx
  have htype : (Value.ofFields [("type", .string "content"), ("content", .ofFields
      [("type", .string "text"), ("text", .string
        "The Agent updated a tool call that was not introduced earlier.")])]).index "type" =
      .string "content" := by
    rw [Value.index, Value.get_ofFields]
    rfl
  rw [mem_parts_choose, contentBlocks, if_pos htype, mem_parts_key] at hb
  obtain ⟨part, hpart, hb⟩ := hb
  rw [Value.get_ofFields] at hpart
  cases hpart
  rw [mem_parts_here] at hb
  subst hb
  rw [resource, Value.index, Value.get_ofFields]
  rfl

theorem isTool_of_uniform {entry : Entry} (h : entry.Uniform) (htool : isTool entry.kind = true)
    (hupdate : update ∈ entry.updates) : isTool (kind update) = true := by
  have hfamily := h update hupdate
  rw [family_tool htool] at hfamily
  exact isTool_of_family hfamily

theorem isObject_of_isTool (h : isTool (kind update) = true) : update.isObject = true := by
  cases update with
  | object => rfl
  | _ => cases h

/-- A block with inline content that the state of a tool shows is one of its updates'. -/
theorem draws_mergedTool {entry : Entry} (h : entry.Uniform) (htool : isTool entry.kind = true)
    (hb : b ∈ updateBlocks.parts entry.mergedTool) (hresource : (resource b).isSome = true) :
    ∃ update ∈ entry.updates, b ∈ updateBlocks.parts update := by
  have hall : ∀ update ∈ entry.updates, isTool (kind update) = true :=
    fun _ hupdate => isTool_of_uniform h htool hupdate
  have hfirst : entry.first ∈ entry.updates := List.head_mem entry.nonempty
  let card := if kind entry.first = "tool_call_update" then
    Entry.recoveredCard (entry.first.index "toolCallId") else entry.first
  have hcard : card.isObject = true := by
    unfold card
    split
    · rfl
    · exact isObject_of_isTool (hall _ hfirst)
  obtain ⟨hkind, hcontent⟩ := foldl_patch hcard
    (fun update hupdate => isObject_of_isTool (hall update (List.mem_of_mem_tail hupdate)))
    (show entry.mergedTool = _ from rfl)
  have htoolCard : isTool (kind card) = true := by
    unfold card
    split
    · rw [kind, Value.getStr, Entry.recoveredCard, Value.get_ofFields]
      rfl
    · exact hall _ hfirst
  have htoolShown : isTool (kind entry.mergedTool) = true := by
    rw [kind, Value.getStr, hkind]
    exact htoolCard
  obtain ⟨content, hget, hb⟩ := (mem_updateBlocks_tool htoolShown).mp hb
  rcases hcontent content hget with hown | ⟨update, hupdate, hown⟩
  · unfold card at hown
    split at hown
    · rw [resource_recoveredCard hown hb] at hresource
      cases hresource
    · exact ⟨entry.first, hfirst, (mem_updateBlocks_tool (hall _ hfirst)).mpr ⟨content, hown, hb⟩⟩
  · have hmem := List.mem_of_mem_tail hupdate
    exact ⟨update, hmem, (mem_updateBlocks_tool (hall _ hmem)).mpr ⟨content, hown, hb⟩⟩

theorem getStr_writeCompaction (update result : Value) {field : String}
    (h : field ≠ "sessionUpdate") :
    (Entry.writeCompaction update result field).getStr "sessionUpdate" =
      result.getStr "sessionUpdate" := by
  unfold Entry.writeCompaction
  cases update.get field with
  | none => rfl
  | some value => exact Value.getStr_set_of_ne h.symm _ _

/-- The state of a compaction shows no blocks. -/
theorem getStr_mergedCompaction {updates : List Value} {result shown : Value}
    (h : updates.foldlM Entry.compact result = some shown) :
    shown.getStr "sessionUpdate" = result.getStr "sessionUpdate" := by
  induction updates generalizing result with
  | nil =>
      cases h
      rfl
  | cons update updates ih =>
      rw [List.foldlM_cons, Option.bind_eq_bind, Option.bind_eq_some_iff] at h
      obtain ⟨middle, hmiddle, hrest⟩ := h
      rw [ih hrest]
      unfold Entry.compact at hmiddle
      split at hmiddle
      · obtain ⟨summary, -, rfl⟩ := Option.map_eq_some_iff.mp hmiddle
        exact Value.getStr_set_of_ne (by decide) _ _
      · cases hmiddle
        simp only [List.foldl_cons, List.foldl_nil]
        rw [getStr_writeCompaction _ _ (by decide), getStr_writeCompaction _ _ (by decide),
          getStr_writeCompaction _ _ (by decide)]

/-- A block with inline content that an entry shows is one of its updates'. -/
theorem draws_materialize {entry : Entry} (h : entry.Uniform) {shown : List Value}
    (hshown : entry.materialize = some shown) (hupdate : update ∈ shown)
    (hb : b ∈ updateBlocks.parts update) (hresource : (resource b).isSome = true) :
    ∃ update ∈ entry.updates, b ∈ updateBlocks.parts update := by
  unfold Entry.materialize at hshown
  split at hshown
  · next htool =>
      cases hshown
      rw [List.mem_singleton] at hupdate
      exact draws_mergedTool h htool (hupdate ▸ hb) hresource
  · split at hshown
    · cases hshown
      refine ⟨update, ?_, hb⟩
      have hlast : entry.last ∈ entry.updates := List.getLast_mem entry.nonempty
      unfold Entry.shownPlan at hupdate
      split at hupdate
      · next introduction hfound =>
          have hmem := List.mem_reverse.mp (List.mem_of_find?_eq_some hfound)
          split at hupdate
          · rcases List.mem_cons.mp hupdate with rfl | hupdate
            · exact hmem
            · exact List.mem_singleton.mp hupdate ▸ hlast
          · exact List.mem_singleton.mp hupdate ▸ hlast
      · exact List.mem_singleton.mp hupdate ▸ hlast
    · split at hshown
      · obtain ⟨merged, hmerged, rfl⟩ := Option.map_eq_some_iff.mp hshown
        rw [List.mem_singleton] at hupdate
        subst hupdate
        have hkind := getStr_mergedCompaction hmerged
        have hstart : (Value.ofFields [("sessionUpdate", .string "compaction_update"),
            ("compactionId", entry.first.index "compactionId"), ("status", .string "in_progress"),
            ("summary", .array [])]).getStr "sessionUpdate" = some "compaction_update" := by
          rw [Value.getStr, Value.get_ofFields]
          rfl
        rw [mem_updateBlocks, hkind, hstart] at hb
        exact absurd hb mem_parts_nothing
      · cases hshown
        exact ⟨update, hupdate, hb⟩

end Materialize

section Forms

variable {raw view shown b : Value}

theorem mem_blocks : b ∈ blocks.parts view ↔
    ∃ place ∈ places, ∃ part, view.pointer place.1 = some part ∧ b ∈ place.2.parts part :=
  mem_parts_fields

theorem pointer_cons (v : Value) (field : String) (path : List String) :
    v.pointer (field :: path) = (v.get field).bind fun part => part.pointer path := by
  rw [Value.pointer, List.foldlM_cons]
  rfl

theorem get_of_index {v part : Value} {field name : String}
    (h : (v.index field).get name = some part) :
    ∃ inner, v.get field = some inner ∧ inner.get name = some part := by
  rw [Value.index] at h
  cases hv : v.get field with
  | none =>
      rw [hv] at h
      cases h
  | some inner =>
      rw [hv] at h
      exact ⟨inner, rfl, h⟩

/-- The updates of a timeline that a turn shows draw their blocks from the timeline. -/
theorem draws_turns {turn : Turn} (hturn : turn ∈ turns view) {entry : Entry}
    (hentry : entry ∈ turn.entries) {updates : List Value} {update : Value}
    (hupdates : entry.materialize = some updates) (hupdate : update ∈ updates)
    (hb : b ∈ updateBlocks.parts update) (hresource : (resource b).isSome = true) :
    b ∈ blocks.parts view := by
  obtain ⟨huniform, hmem⟩ := (sound_turnsOf (viewItems view "timeline")
    (viewItems view "turnOutcomes")).1.forall_entries turn hturn entry hentry
  obtain ⟨own, hown, hb⟩ := draws_materialize huniform hupdates hupdate hb hresource
  have hitem := hmem own hown
  unfold viewItems at hitem
  cases htimeline : view.get "timeline" with
  | none => simp [Value.index, htimeline, Value.asArray] at hitem
  | some timeline =>
      cases hitems : timeline.asArray with
      | none => simp [Value.index, htimeline, hitems] at hitem
      | some xs =>
          rw [Value.index, htimeline, Option.getD_some, hitems, Option.getD_some] at hitem
          refine mem_blocks.mpr ⟨(["timeline"], items updateBlocks), List.mem_cons_self, timeline,
            ?_, mem_parts_items.mpr ⟨xs, hitems, own, hitem, hb⟩⟩
          rw [pointer_cons, htimeline]
          rfl

/-- What a compact timeline shows was materialized from an entry of a turn. -/
theorem emission_shows {turn : Turn} {processIncluded : Bool} {item : Entry × Nat}
    {s s' : Emission} (h : s.admitEntry turn processIncluded item = some s') :
    ∀ update ∈ s'.timeline, update ∈ s.timeline ∨
      ∃ updates, item.1.materialize = some updates ∧ update ∈ updates := by
  intro update hupdate
  unfold Emission.admitEntry at h
  dsimp only at h
  split at h
  · obtain ⟨updates, hupdates, h⟩ := Option.bind_eq_some_iff.mp h
    cases h
    rcases List.mem_append.mp hupdate with hupdate | hupdate
    · exact .inl hupdate
    · exact .inr ⟨updates, hupdates, hupdate⟩
  · cases h
    refine .inl ?_
    split at hupdate
    · exact hupdate
    · exact hupdate

theorem emissions_show {turn : Turn} {processIncluded : Bool} {list : List (Entry × Nat)}
    {s s' : Emission} (hlist : ∀ item ∈ list, item.1 ∈ turn.entries)
    (h : list.foldlM (Emission.admitEntry turn processIncluded) s = some s') :
    ∀ update ∈ s'.timeline, update ∈ s.timeline ∨
      ∃ entry ∈ turn.entries, ∃ updates, entry.materialize = some updates ∧ update ∈ updates := by
  induction list generalizing s with
  | nil =>
      cases h
      exact fun update hupdate => .inl hupdate
  | cons item list ih =>
      obtain ⟨hitem, hlist⟩ := List.forall_mem_cons.mp hlist
      rw [List.foldlM_cons, Option.bind_eq_bind, Option.bind_eq_some_iff] at h
      obtain ⟨middle, hmiddle, hrest⟩ := h
      intro update hupdate
      rcases ih hlist hrest update hupdate with hupdate | hupdate
      · rcases emission_shows hmiddle update hupdate with hupdate | ⟨updates, hupdates, hupdate⟩
        · exact .inl hupdate
        · exact .inr ⟨item.1, hitem, updates, hupdates, hupdate⟩
      · exact .inr hupdate

theorem compactTurns_show {historyRevision : Value} {includeProcessFrom : Option String}
    {excludeProcessFor : List String} {list : List Turn} {s s' : Compaction}
    (h : list.foldlM (Compaction.turn historyRevision includeProcessFrom excludeProcessFor) s =
      some s') :
    ∀ update ∈ s'.timeline, update ∈ s.timeline ∨ ∃ turn ∈ list, ∃ entry ∈ turn.entries,
      ∃ updates, entry.materialize = some updates ∧ update ∈ updates := by
  induction list generalizing s with
  | nil =>
      cases h
      exact fun update hupdate => .inl hupdate
  | cons turn list ih =>
      rw [List.foldlM_cons, Option.bind_eq_bind, Option.bind_eq_some_iff] at h
      obtain ⟨middle, hmiddle, hrest⟩ := h
      intro update hupdate
      rcases ih hrest update hupdate with hupdate | ⟨other, hother, hshown⟩
      · obtain ⟨emission, hemission, hmiddle⟩ := Option.bind_eq_some_iff.mp hmiddle
        cases hmiddle
        have hentries : ∀ item ∈ turn.entries.zipIdx, item.1 ∈ turn.entries := by
          rintro ⟨entry, i⟩ hitem
          exact List.mem_of_getElem? (List.mem_zipIdx_iff_getElem?.mp hitem)
        rcases emissions_show hentries hemission update hupdate with hupdate | hshown
        · exact .inl hupdate
        · exact .inr ⟨turn, List.mem_cons_self, hshown⟩
      · exact .inr ⟨other, List.mem_cons_of_mem _ hother, hshown⟩

/-- Apart from the timeline the compact form writes no place of blocks. -/
theorem places_cases {place : List String × Walk} (h : place ∈ places) :
    place = (["timeline"], items updateBlocks) ∨ ∃ field path, place.1 = field :: path ∧
      field ∉ ["timeline", "collapsedTurns", "turnOutcomes", "terminals"] := by
  rcases List.mem_cons.mp h with h | h
  · exact .inl h
  · right
    simp only [List.mem_cons, List.not_mem_nil, or_false] at h
    rcases h with rfl | rfl | rfl | rfl | rfl | rfl | rfl | rfl | rfl | rfl | rfl
    all_goals exact ⟨_, _, rfl, by decide⟩

/-- The compact form draws its blocks from the view. -/
theorem draws_compact {liveTerminals : Option Value} {includeProcessFrom : Option String}
    {excludeProcessFor : List String}
    (h : compactViewFrom view liveTerminals includeProcessFrom excludeProcessFor = some shown) :
    Draws shown view := by
  obtain ⟨compaction, hcompaction, rfl⟩ := Option.map_eq_some_iff.mp h
  intro b hb hresource
  obtain ⟨place, hplace, part, hpart, hb⟩ := mem_blocks.mp hb
  rcases places_cases hplace with rfl | ⟨field, path, hpath, hfield⟩
  · obtain ⟨xs, hxs, update, hupdate, hown⟩ := mem_parts_items.mp hb
    have hobject : view.isObject = true := by
      rw [pointer_cons] at hpart
      obtain ⟨timeline, htimeline, -⟩ := Option.bind_eq_some_iff.mp hpart
      simpa [Compaction.install] using Value.isObject_of_get htimeline
    have htimeline : (compaction.install view liveTerminals).get "timeline" =
        some (.array compaction.timeline) := by
      unfold Compaction.install
      rw [Value.get_set_of_ne (by decide), Value.get_set_of_ne (by decide),
        Value.get_set_of_ne (by decide), Value.get_set_self hobject]
    rw [pointer_cons, htimeline] at hpart
    cases hpart
    cases hxs
    rcases compactTurns_show hcompaction update hupdate with hnew | ⟨turn, hturn, entry, hentry,
      updates, hupdates, hupdate⟩
    · cases hnew
    · exact draws_turns hturn hentry hupdates hupdate hown hresource
  · refine mem_blocks.mpr ⟨place, hplace, part, ?_, hb⟩
    have hkept : (compaction.install view liveTerminals).get field = view.get field := by
      simp only [List.mem_cons, List.not_mem_nil, or_false, not_or] at hfield
      unfold Compaction.install
      rw [Value.get_set_of_ne hfield.2.2.2, Value.get_set_of_ne hfield.2.2.1,
        Value.get_set_of_ne hfield.2.1, Value.get_set_of_ne hfield.1]
    rw [hpath, pointer_cons] at hpart ⊢
    rw [← hkept]
    exact hpart

theorem mem_mapM {entries : List Entry} {rows : List (List Value)} {updates : List Value}
    (h : entries.mapM (·.materialize) = some rows) (hupdates : updates ∈ rows) :
    ∃ entry ∈ entries, entry.materialize = some updates := by
  induction entries generalizing rows with
  | nil =>
      cases h
      cases hupdates
  | cons entry entries ih =>
      rw [List.mapM_cons] at h
      obtain ⟨first, hfirst, h⟩ := Option.bind_eq_some_iff.mp h
      obtain ⟨rest, hrest, h⟩ := Option.bind_eq_some_iff.mp h
      cases h
      rcases List.mem_cons.mp hupdates with rfl | hupdates
      · exact ⟨entry, List.mem_cons_self, hfirst⟩
      · obtain ⟨other, hother, hshown⟩ := ih hrest hupdates
        exact ⟨other, List.mem_cons_of_mem _ hother, hshown⟩

/-- A page of a process draws its blocks from the view. -/
theorem draws_page {turnId revision : String} {offset : Nat} {page : ProcessPage}
    (h : processPage view turnId revision offset = .ok (some page)) : Draws page.toValue view := by
  intro b hb hresource
  obtain ⟨turn, hturn, hpage⟩ : ∃ turn ∈ turns view, turn.page view revision offset = some page := by
    unfold processPage at h
    split at h
    · cases h
    · split at h
      · cases h
      · next turn hfind =>
          split at h
          · cases h
          · exact ⟨turn, List.mem_of_find?_eq_some hfind, Except.ok.inj h⟩
  obtain ⟨pageItems, hitems, hpage⟩ := Option.bind_eq_some_iff.mp hpage
  cases hpage
  obtain ⟨place, hplace, part, hpart, hb⟩ := mem_blocks.mp hb
  simp only [places, List.mem_cons, List.not_mem_nil, or_false] at hplace
  rcases hplace with rfl | rfl | rfl | rfl | rfl | rfl | rfl | rfl | rfl | rfl | rfl | rfl
  case inr.inr.inr.inr.inr.inr.inr.inl =>
    rw [pointer_cons, ProcessPage.toValue, Value.get_ofFields] at hpart
    cases hpart
    obtain ⟨xs, hxs, row, hrow, hown⟩ := mem_parts_items.mp hb
    cases hxs
    obtain ⟨updates, hupdates, rfl⟩ := List.mem_map.mp hrow
    obtain ⟨ys, hys, update, hupdate, hown⟩ := mem_parts_items.mp hown
    cases hys
    obtain ⟨entry, hentry, hshown⟩ := mem_mapM hitems hupdates
    have hprocess : entry ∈ turn.process :=
      List.mem_of_mem_take (List.mem_of_mem_drop hentry)
    obtain ⟨⟨entry, i⟩, hitem, rfl⟩ := List.mem_map.mp hprocess
    have hmem : entry ∈ turn.entries :=
      List.mem_of_getElem? (List.mem_zipIdx_iff_getElem?.mp (List.mem_of_mem_filter hitem))
    exact draws_turns hturn hmem hshown hupdate hown hresource
  all_goals
    rw [pointer_cons, ProcessPage.toValue, Value.get_ofFields] at hpart
    cases hpart

/-- The places of blocks in the view that a browser is sent. -/
theorem get_business (h : businessSessionView raw = some view) : ∃ session,
    raw.get "session" = some session ∧
      view.get "timeline" = some ((raw.pointer ["baseline", "updates"]).getD (.array [])) ∧
      view.get "activeTurn" = some (session.index "activeTurn") ∧
      (∃ interactions, view.get "interactions" = some interactions ∧
        interactions.get "permissions" =
          some ((((raw.get "live").getD .null).get "permissions").getD .empty)) ∧
      ∀ field ∈ ["baseline", "session", "prompt", "items", "change", "live"],
        view.get field = none := by
  simp only [businessSessionView, Option.bind_eq_bind, Option.bind_eq_some_iff] at h
  obtain ⟨session, hsession, epoch, -, sessionId, -, incarnation, -, viewRevision, -, phase, -,
    hview⟩ := h
  let live := (raw.get "live").getD .null
  let interactions : Value := .ofFields
    [("permissions", (live.get "permissions").getD .empty),
      ("elicitations", (live.get "elicitations").getD .empty),
      ("urlFlows", (live.get "urlFlows").getD .empty)]
  refine ⟨session, hsession, ?_, ?_, ⟨interactions, ?_, ?_⟩, fun field hfield => ?_⟩
  · rw [← Option.some.inj hview, Value.get_ofFields]
    rfl
  · rw [← Option.some.inj hview, Value.get_ofFields]
    rfl
  · rw [← Option.some.inj hview, Value.get_ofFields]
    rfl
  · rw [Value.get_ofFields]
    rfl
  · rw [← Option.some.inj hview, Value.get_ofFields]
    simp only [List.mem_cons, List.not_mem_nil, or_false] at hfield
    rcases hfield with rfl | rfl | rfl | rfl | rfl | rfl
    all_goals rfl

/-- The view that a browser is sent draws its blocks from the raw view. -/
theorem draws_business (h : businessSessionView raw = some view) : Draws view raw := by
  obtain ⟨session, hsession, htimeline, hactive, ⟨interactions, hinteractions, hpermissions⟩,
    habsent⟩ := get_business h
  intro b hb hresource
  obtain ⟨place, hplace, part, hpart, hb⟩ := mem_blocks.mp hb
  have hdraws : ∀ place' ∈ places, place'.2 = place.2 → raw.pointer place'.1 = some part →
      b ∈ blocks.parts raw :=
    fun place' hplace' hwalk hpointer => mem_blocks.mpr ⟨place', hplace', part, hpointer,
      hwalk.symm ▸ hb⟩
  have hturn : ∀ name, view.pointer ["activeTurn", name] = some part →
      raw.pointer ["session", "activeTurn", name] = some part := by
    intro name hname
    rw [pointer_cons, hactive, Option.bind_some, pointer_cons] at hname
    obtain ⟨inner, hinner, hname⟩ := Option.bind_eq_some_iff.mp hname
    obtain ⟨turn, hturn, hinner⟩ := get_of_index hinner
    rw [pointer_cons, hsession, Option.bind_some, pointer_cons, hturn, Option.bind_some,
      pointer_cons, hinner]
    exact hname
  simp only [places, List.mem_cons, List.not_mem_nil, or_false] at hplace
  rcases hplace with rfl | rfl | rfl | rfl | rfl | rfl | rfl | rfl | rfl | rfl | rfl | rfl
  case inl =>
    rw [pointer_cons, htimeline, Option.bind_some] at hpart
    cases hbaseline : raw.pointer ["baseline", "updates"] with
    | none =>
        rw [hbaseline] at hpart
        cases hpart
        obtain ⟨xs, hxs, update, hupdate, -⟩ := mem_parts_items.mp hb
        cases hxs
        cases hupdate
    | some timeline =>
        rw [hbaseline] at hpart
        cases hpart
        exact hdraws (["baseline", "updates"], items updateBlocks) (by simp [places]) rfl hbaseline
  case inr.inl =>
    exact hdraws (["session", "activeTurn", "updates"], items updateBlocks) (by simp [places]) rfl
      (hturn "updates" hpart)
  case inr.inr.inr.inr.inr.inl =>
    exact hdraws (["session", "activeTurn", "prompt"], items here) (by simp [places]) rfl
      (hturn "prompt" hpart)
  case inr.inr.inr.inr.inr.inr.inr.inr.inr.inl =>
    rw [pointer_cons, hinteractions, Option.bind_some, pointer_cons, hpermissions,
      Option.bind_some] at hpart
    cases hlive : raw.get "live" with
    | none =>
        rw [hlive] at hpart
        cases hpart
        obtain ⟨name, x, hx, -⟩ := mem_parts_members.mp hb
        rw [show (((none : Option Value).getD .null).get "permissions").getD .empty = Value.empty
          from rfl, Value.get_empty] at hx
        cases hx
    | some live =>
        cases hown : live.get "permissions" with
        | none =>
            rw [hlive, Option.getD_some, hown] at hpart
            cases hpart
            obtain ⟨name, x, hx, -⟩ := mem_parts_members.mp hb
            rw [Option.getD_none, Value.get_empty] at hx
            cases hx
        | some permissions =>
            rw [hlive, Option.getD_some, hown] at hpart
            refine hdraws (["live", "permissions"], _) (by simp [places]) rfl ?_
            rw [pointer_cons, hlive, Option.bind_some, pointer_cons, hown]
            exact hpart
  all_goals
    rw [pointer_cons, habsent _ (by decide)] at hpart
    cases hpart

end Forms

end Attyd.Attachments
