import Attyd.History.Published
import Attyd.Session.CachedHistory

/-!
# The history of a forked session

A fork may send updates of its target before it answers. The bridge installs what
they say about the conversation as the first history of the target, or else what
the source had when the fork was admitted.

## Implementation notes

An update reaches the bridge in a notification, which names the session and holds
the update under `update`. The section of the handler modelled here begins where
the target is open and its early updates have been taken from the staging table.
-/

namespace Attyd.Bridge

open Json (Value)
open History Session

/-- A message of the agent about one session. -/
structure SessionNotification where
  sessionId : String
  update : Value
  meta? : Option Value

/-- The message as it goes over the wire. -/
def SessionNotification.toValue (notification : SessionNotification) : Value :=
  .ofFields ([("sessionId", .string notification.sessionId), ("update", notification.update)] ++
    notification.meta?.toList.map fun extra => ("_meta", extra))

def isConversationUpdateKind (kind : String) : Bool :=
  kind ∈ ["user_message_chunk", "agent_message_chunk", "agent_thought_chunk", "tool_call",
    "tool_call_update", "plan", "plan_update", "plan_removed", "compaction_update",
    "compaction_summary_chunk"]

def isConversationUpdate (update : Value) : Bool :=
  (update.getStr "sessionUpdate").any isConversationUpdateKind

def conversationNotificationValues (updates : List SessionNotification) : List Value :=
  (updates.map (·.toValue)).filter fun value =>
    isConversationUpdate ((value.get "update").getD .null)

def attachmentCacheNotice (updates : List Value) (notice : String) : String :=
  if updates.isEmpty then
    "Earlier messages are unavailable from the Agent and memory cache. You can continue this session."
  else notice

variable {σ δ : Type} [Inhabited σ]

/-- Register the target of a fork and install its first history. -/
def installForkHistory (sessions : SessionRegistry σ δ) (sessionId : String) (incarnation : Nat)
    (earlyUpdates : List SessionNotification) (sourceBaseline : List Value) :
    Except MirrorError Unit × SessionRegistry σ δ :=
  let targetReplay := conversationNotificationValues earlyUpdates
  let forkCache := if targetReplay.isEmpty then none else some targetReplay
  let cacheNotice :=
    if targetReplay.isEmpty then
      "Showing a snapshot of the source session from memory; branch history may differ."
    else
      "Only context received while forking is available; earlier branch history may be missing."
  let cachedUpdates := forkCache.getD sourceBaseline
  (sessions.registerCold sessionId incarnation).useCachedHistory sessionId incarnation
    cachedUpdates (attachmentCacheNotice cachedUpdates cacheNotice)

section Wrappers

theorem get_update_toValue (notification : SessionNotification) :
    notification.toValue.get "update" = some notification.update := by
  unfold SessionNotification.toValue
  cases notification.meta? <;> simp [Value.ofFields, Value.get_set]

/-- The kind of an update is not to be seen on its notification. -/
theorem getStr_sessionUpdate_toValue (notification : SessionNotification) :
    notification.toValue.getStr "sessionUpdate" = none := by
  have hget : notification.toValue.get "sessionUpdate" = none := by
    unfold SessionNotification.toValue
    cases notification.meta? <;> simp [Value.ofFields]
  rw [Value.getStr, hget]
  rfl

theorem conversationNotificationValues_eq (updates : List SessionNotification) :
    conversationNotificationValues updates =
      (updates.filter fun notification => isConversationUpdate notification.update).map
        (·.toValue) := by
  unfold conversationNotificationValues
  rw [List.filter_map]
  congr 2
  funext notification
  simp only [Function.comp, get_update_toValue, Option.getD_some]

/-- The fold keeps a notification as an entry of its own, whatever it holds. -/
theorem foldHistoryUpdate_notification {retained : List Value} (hv : ValidHistory retained)
    (notification : SessionNotification) :
    foldHistoryUpdate retained notification.toValue = .ok (retained ++ [notification.toValue]) := by
  have hkind : updateKind notification.toValue = .other := by
    rw [updateKind, getStr_sessionUpdate_toValue]
    rfl
  rw [foldHistoryUpdate_eq hv, readUpdate_eq_ok.mpr (.other hkind)]
  change Except.ok ((historyPlace retained notification.toValue .entry).apply retained) = _
  rw [historyPlace_entry, Edit.apply_push]

/-- So a list of notifications is its own fold. -/
theorem normalize_notifications (notifications : List SessionNotification) :
    normalizeHistoryUpdates (notifications.map (·.toValue)) =
      .ok (notifications.map (·.toValue)) := by
  induction notifications using List.reverseRecOn with
  | nil => rfl
  | append_singleton notifications notification ih =>
      have hv : ValidHistory (notifications.map (·.toValue)) :=
        IsFold.valid ⟨_, ih⟩
      rw [List.map_append, List.map_singleton, normalizeHistoryUpdates, List.foldlM_append]
      change normalizeHistoryUpdates _ >>= _ = _
      rw [ih]
      change [notification.toValue].foldlM foldHistoryUpdate _ = _
      rw [List.foldlM_cons, foldHistoryUpdate_notification hv]
      rfl

end Wrappers

section Kinds

/-- An entry of a history that carries its kind at the top level. -/
def HasKind (entry : Value) : Prop := (entry.getStr "sessionUpdate").isSome = true

theorem hasKind_of_known {entry : Value} (h : updateKind entry ≠ .other) : HasKind entry := by
  unfold HasKind
  cases hs : entry.getStr "sessionUpdate" with
  | some kind => rfl
  | none =>
      rw [updateKind, hs] at h
      exact absurd rfl h

theorem hasKind_of_conversation {update : Value} (h : isConversationUpdate update = true) :
    HasKind update := by
  obtain ⟨kind, hs, -⟩ := (Option.any_eq_true _ _).mp h
  rw [HasKind, hs]
  rfl

/-- One step of the fold keeps every entry's kind at the top level. -/
theorem foldHistoryUpdate_hasKind {retained folded : List Value} {update : Value}
    (hv : ValidHistory retained) (hk : ∀ entry ∈ retained, HasKind entry) (hu : HasKind update)
    (h : foldHistoryUpdate retained update = .ok folded) : ∀ entry ∈ folded, HasKind entry := by
  rw [foldHistoryUpdate_eq hv] at h
  cases hr : readUpdate update with
  | error e => simp [hr, Except.map] at h
  | ok reading =>
      simp only [hr, Except.map, Except.ok.injEq] at h
      rw [← h]
      have hreads := readUpdate_eq_ok.mp hr
      have hplaced : Placed retained update (historyPlace retained update reading) :=
        historyPlace_placed hreads
      cases hp : historyPlace retained update reading with
      | keep => exact hk
      | push value =>
          rw [hp] at hplaced
          cases hplaced
          intro entry he
          rcases List.mem_append.mp he with he | he
          · exact hk entry he
          · rw [List.mem_singleton.mp he]
            exact hu
      | put i new =>
          intro entry he
          rcases List.mem_or_eq_of_mem_set he with he | rfl
          · exact hk entry he
          · exact hasKind_of_known (kind_of_historyPlace_put hreads hp)
      | erase i =>
          intro entry he
          exact hk entry (List.mem_of_mem_eraseIdx he)

/-- A fold of updates with their kind at the top level has it in every entry. -/
theorem normalize_hasKind {updates folded : List Value} (hu : ∀ update ∈ updates, HasKind update)
    (h : normalizeHistoryUpdates updates = .ok folded) : ∀ entry ∈ folded, HasKind entry := by
  induction updates using List.reverseRecOn generalizing folded with
  | nil =>
      cases h
      intro entry he
      cases he
  | append_singleton updates update ih =>
      obtain ⟨retained, hprior, hlast⟩ := foldlM_snoc_eq_ok.mp h
      have hv : ValidHistory retained := IsFold.valid ⟨updates, hprior⟩
      have hk := ih (fun u hm => hu u (List.mem_append_left _ hm)) hprior
      exact foldHistoryUpdate_hasKind hv hk (hu update (by simp)) hlast

end Kinds

section Install

variable {r r' : SessionRegistry σ δ} {sessionId : String} {incarnation : Nat}
  {earlyUpdates : List SessionNotification} {sourceBaseline : List Value}

/-- With an early update of the conversation, the target starts with the
notifications themselves. -/
theorem installForkHistory_notifications
    (hconversation : ∃ notification ∈ earlyUpdates,
      isConversationUpdate notification.update = true)
    (hok : installForkHistory r sessionId incarnation earlyUpdates sourceBaseline =
      (.ok (), r')) :
    ∃ snapshot, r'.history.peek ⟨sessionId, incarnation⟩ = some snapshot ∧
      snapshot.updates = conversationNotificationValues earlyUpdates ∧ snapshot.updates ≠ [] := by
  obtain ⟨notification, hmem, hconv⟩ := hconversation
  have hne : conversationNotificationValues earlyUpdates ≠ [] := by
    rw [conversationNotificationValues_eq]
    exact List.ne_nil_of_mem
      (List.mem_map_of_mem (List.mem_filter.mpr ⟨hmem, hconv⟩))
  have hempty : (conversationNotificationValues earlyUpdates).isEmpty = false := by
    simpa using hne
  simp only [installForkHistory, hempty, Bool.false_eq_true, if_false, Option.getD_some] at hok
  obtain ⟨snapshot, hpeek, hfold⟩ := useCachedHistory_installs hok
  have hself : normalizeHistoryUpdates (conversationNotificationValues earlyUpdates) =
      .ok (conversationNotificationValues earlyUpdates) := by
    rw [conversationNotificationValues_eq]
    exact normalize_notifications _
  rw [hself] at hfold
  have hupdates := Except.ok.inj hfold
  exact ⟨snapshot, hpeek, hupdates.symm, hupdates ▸ hne⟩

/-- The first history of a forked session is never the fold of the updates its
notifications hold: it keeps the notifications around them. -/
theorem fork_history_keeps_notifications
    (hconversation : ∃ notification ∈ earlyUpdates,
      isConversationUpdate notification.update = true)
    (hok : installForkHistory r sessionId incarnation earlyUpdates sourceBaseline =
      (.ok (), r')) :
    ¬∃ snapshot, r'.history.peek ⟨sessionId, incarnation⟩ = some snapshot ∧
      normalizeHistoryUpdates ((earlyUpdates.map (·.update)).filter isConversationUpdate) =
        .ok snapshot.updates := by
  rintro ⟨snapshot, hpeek, hfold⟩
  obtain ⟨installed, hpeek', hupdates, hne⟩ :=
    installForkHistory_notifications hconversation hok
  obtain rfl : snapshot = installed := Option.some.inj (hpeek.symm.trans hpeek')
  obtain ⟨entry, hentry⟩ := List.exists_mem_of_ne_nil _ hne
  have hinner : ∀ update ∈ (earlyUpdates.map (·.update)).filter isConversationUpdate,
      HasKind update := fun update hu => hasKind_of_conversation (List.mem_filter.mp hu).2
  have hkind := normalize_hasKind hinner hfold entry hentry
  rw [hupdates, conversationNotificationValues_eq] at hentry
  obtain ⟨notification, -, rfl⟩ := List.mem_map.mp hentry
  rw [HasKind, getStr_sessionUpdate_toValue] at hkind
  cases hkind

/-- A fork whose target says one word before the answer. -/
theorem fork_history_keeps_notifications_one_chunk :
    let chunk : Value := .ofFields [("sessionUpdate", .string "agent_message_chunk"),
      ("content", .ofFields [("type", .string "text"), ("text", .string "hello")])]
    let result := installForkHistory (.new "epoch" : SessionRegistry Unit String) "target" 1
      [⟨"target", chunk, none⟩] []
    ¬∃ snapshot, result.2.history.peek ⟨"target", 1⟩ = some snapshot ∧
      normalizeHistoryUpdates (([⟨"target", chunk, none⟩] : List SessionNotification).map
        (·.update) |>.filter isConversationUpdate) = .ok snapshot.updates := by
  intro chunk result
  have hanswer : result.1 = .ok () := by decide
  have hok : installForkHistory (.new "epoch" : SessionRegistry Unit String) "target" 1
      [⟨"target", chunk, none⟩] [] = (.ok (), result.2) := Prod.ext hanswer rfl
  exact fork_history_keeps_notifications ⟨_, List.mem_singleton.mpr rfl, by decide⟩ hok

/-- The baseline such a fork installs, beside the fold of what was said. -/
theorem fork_history_of_one_chunk :
    let chunk : Value := .ofFields [("sessionUpdate", .string "agent_message_chunk"),
      ("content", .ofFields [("type", .string "text"), ("text", .string "hello")])]
    let result := installForkHistory (.new "epoch" : SessionRegistry Unit String) "target" 1
      [⟨"target", chunk, none⟩] []
    result.1 = .ok () ∧
      (result.2.history.peek ⟨"target", 1⟩).map (·.updates) =
        some [.ofFields [("sessionId", .string "target"), ("update", chunk)]] ∧
      (normalizeHistoryUpdates [chunk]).toOption = some [chunk] ∧
      (result.2.history.peek ⟨"target", 1⟩).map (·.updates) ≠
        (normalizeHistoryUpdates [chunk]).toOption := by
  decide

end Install

end Attyd.Bridge
