import Attyd.History.Conservation

/-!
# Committed histories conserve what was sent

A history grows by idle updates and by turns. A turn is folded on its own first; what it then adds
to the history is its prompt and its folded updates, each folded once more.

## Implementation notes

The prompt of a turn is the list of chunks that stand for it, empty where the agent echoed it.
-/

namespace Attyd.History

open Json (Value)

/-- What is added to a history at once. -/
inductive Addition where
  | idle (update : Value)
  | turn (prompt updates : List Value)

namespace Addition

/-- The updates as they were accepted. -/
def sent : Addition → List Value
  | idle update => [update]
  | turn prompt updates => prompt ++ updates

/-- The history with the addition folded in. -/
def commit (history : List Value) : Addition → Except RuntimeStateError (List Value)
  | idle update => foldHistoryUpdate history update
  | turn prompt updates => do
      let overlay ← updates.foldlM foldActiveTurnUpdate []
      (prompt ++ overlay).foldlM foldHistoryUpdate history

end Addition

theorem validHistory_nil : ValidHistory [] := by simp [ValidHistory]

theorem ValidHistory.foldHistory {retained updates folded : List Value} (hv : ValidHistory retained)
    (h : updates.foldlM foldHistoryUpdate retained = .ok folded) : ValidHistory folded :=
  foldlM_invariant (fun _ _ _ hs hf => foldHistoryUpdate_valid hs hf) hv h

section Carries

variable {history result sent : List Value} {toolCallId : String}

/-- Only the first of the updates of a tool opens it. -/
def Patches (sent : List Value) : Prop := ∀ update ∈ sent.tail, updateKind update = .toolCallUpdate

theorem Patches.append_left {a b : List Value} (h : Patches (a ++ b)) : Patches a := by
  intro update hu
  cases a with
  | nil => cases hu
  | cons first a => exact h update (List.mem_append_left b hu)

/-- What is sent later is the first update or only patches. -/
theorem Patches.later {a b : List Value} (h : Patches (a ++ b)) :
    a = [] ∨ ∀ update ∈ b, updateKind update = .toolCallUpdate := by
  cases a with
  | nil => exact .inl rfl
  | cons first a => exact .inr fun update hu => h update (List.mem_append_right a hu)

/-- One update of the tool, which stands for a list of updates of it. -/
theorem foldHistoryUpdate_carries {update : Value} (hv : ValidHistory history)
    (hcarries : Carries (entriesOf toolCallId history) sent) (htool : isToolOf toolCallId update = true)
    (hkind : sent = [] ∨ updateKind update = .toolCallUpdate) {rep : List Value}
    (hrep : ∀ field, field ≠ "sessionUpdate" → valueOf field update = lastValue field rep)
    (h : foldHistoryUpdate history update = .ok result) :
    Carries (entriesOf toolCallId result) (sent ++ rep) := by
  obtain ⟨reading, -, hchanges, rfl⟩ := exists_changes_of_foldHistoryUpdate hv h
  exact hchanges.carries htool hcarries (hkind.imp_right .inr) hrep

theorem foldHistory_carries {updates : List Value} (hv : ValidHistory history)
    (hcarries : Carries (entriesOf toolCallId history) sent)
    (hpatches : Patches (sent ++ entriesOf toolCallId updates))
    (h : updates.foldlM foldHistoryUpdate history = .ok result) :
    Carries (entriesOf toolCallId result) (sent ++ entriesOf toolCallId updates) := by
  induction updates generalizing history sent with
  | nil =>
      cases h
      rwa [entriesOf_nil, List.append_nil]
  | cons update updates ih =>
      obtain ⟨next, hnext, hrest⟩ := foldlM_cons_eq_ok.mp h
      have hv' := foldHistoryUpdate_valid hv hnext
      cases htool : isToolOf toolCallId update with
      | true =>
          rw [entriesOf_cons_of_tool htool, ← List.singleton_append, ← List.append_assoc]
            at hpatches ⊢
          have hkind := hpatches.append_left.later.imp_right
            fun hlater => hlater update (List.mem_singleton_self update)
          have hstep := foldHistoryUpdate_carries hv hcarries htool hkind
            (fun field _ => (lastValue_singleton field update).symm) hnext
          exact ih hv' hstep hpatches hrest
      | false =>
          rw [entriesOf_cons_of_ne htool] at hpatches ⊢
          obtain ⟨reading, -, hchanges, rfl⟩ := exists_changes_of_foldHistoryUpdate hv hnext
          rw [← hchanges.entriesOf_of_ne htool] at hcarries
          exact ih hv' hcarries hpatches hrest

/-- Updates that do not touch the tool. -/
theorem foldHistory_silent {updates : List Value} (hv : ValidHistory history)
    (hcarries : Carries (entriesOf toolCallId history) sent) (hpatches : Patches sent)
    (hsilent : entriesOf toolCallId updates = [])
    (h : updates.foldlM foldHistoryUpdate history = .ok result) :
    Carries (entriesOf toolCallId result) sent := by
  rw [← List.append_nil sent, ← hsilent] at hpatches
  have hfolded := foldHistory_carries hv hcarries hpatches h
  rwa [hsilent, List.append_nil] at hfolded

/-- An addition carries what it sends for the tool. -/
theorem Addition.carries {addition : Addition} (hv : ValidHistory history)
    (hcarries : Carries (entriesOf toolCallId history) sent)
    (hpatches : Patches (sent ++ entriesOf toolCallId addition.sent))
    (h : addition.commit history = .ok result) :
    Carries (entriesOf toolCallId result) (sent ++ entriesOf toolCallId addition.sent) := by
  cases addition with
  | idle update =>
      exact foldHistory_carries hv hcarries hpatches (foldlM_cons_eq_ok.mpr ⟨result, h, rfl⟩)
  | turn prompt updates =>
      obtain ⟨overlay, hoverlay, h⟩ := bind_eq_ok.mp h
      obtain ⟨prompted, hprompt, h⟩ := foldlM_append_eq_ok.mp h
      rw [Addition.sent, entriesOf_append, ← List.append_assoc] at hpatches ⊢
      have hprompted := foldHistory_carries hv hcarries hpatches.append_left hprompt
      have hv' := hv.foldHistory hprompt
      have hempty : Carries (entriesOf toolCallId []) [] := .inl ⟨rfl, rfl⟩
      have hheld := foldActive_carries validHistory_nil hempty hoverlay
      rw [List.nil_append] at hheld
      rcases hheld with ⟨hnone, hupdates⟩ | ⟨entry, hone, hvalues⟩
      · rw [hupdates, List.append_nil]
        exact foldHistory_silent hv' hprompted hpatches.append_left hnone h
      · have hkind : sent ++ entriesOf toolCallId prompt = [] ∨
            updateKind entry = .toolCallUpdate := by
          refine hpatches.later.imp_right fun hlater => ?_
          have hall := foldActive_patches validHistory_nil hempty (by simp) hlater hoverlay
          exact hall entry (by rw [hone]; exact List.mem_singleton_self entry)
        obtain ⟨before, after, rfl, hbefore, htool, hafter⟩ := List.filter_eq_cons_iff.mp hone
        have hsilent : entriesOf toolCallId before = [] := List.filter_eq_nil_iff.mpr hbefore
        obtain ⟨opened, hopened, h⟩ := foldlM_append_eq_ok.mp h
        obtain ⟨patched, hpatched, h⟩ := foldlM_cons_eq_ok.mp h
        have hv₁ := hv'.foldHistory hopened
        have hc₁ := foldHistory_silent hv' hprompted hpatches.append_left hsilent hopened
        have hc₂ := foldHistoryUpdate_carries hv₁ hc₁ htool hkind hvalues hpatched
        exact foldHistory_silent (foldHistoryUpdate_valid hv₁ hpatched) hc₂ hpatches hafter h

theorem Addition.valid {addition : Addition} (hv : ValidHistory history)
    (h : addition.commit history = .ok result) : ValidHistory result := by
  cases addition with
  | idle update => exact foldHistoryUpdate_valid hv h
  | turn prompt updates =>
      obtain ⟨overlay, -, h⟩ := bind_eq_ok.mp h
      exact hv.foldHistory h

theorem Addition.additive {β : Type} {f : Value → List β} {addition : Addition}
    (hf : Additive f) (hv : ValidHistory history) (h : addition.commit history = .ok result) :
    result.flatMap f = history.flatMap f ++ addition.sent.flatMap f := by
  cases addition with
  | idle update =>
      exact foldHistory_additive hf hv (foldlM_cons_eq_ok.mpr ⟨result, h, rfl⟩)
  | turn prompt updates =>
      obtain ⟨overlay, hoverlay, h⟩ := bind_eq_ok.mp h
      have hturn := foldActive_additive hf validHistory_nil hoverlay
      rw [foldHistory_additive hf hv h, Addition.sent, List.flatMap_append, List.flatMap_append,
        hturn]
      rfl

theorem commits_additive {β : Type} {f : Value → List β} {additions : List Addition}
    (hf : Additive f) (hv : ValidHistory history)
    (h : additions.foldlM Addition.commit history = .ok result) :
    result.flatMap f = history.flatMap f ++ (additions.flatMap Addition.sent).flatMap f := by
  induction additions generalizing history with
  | nil =>
      cases h
      simp
  | cons addition additions ih =>
      obtain ⟨next, hnext, hrest⟩ := foldlM_cons_eq_ok.mp h
      rw [ih (Addition.valid hv hnext) hrest, Addition.additive hf hv hnext, List.flatMap_cons,
        List.flatMap_append, List.append_assoc]

theorem commits_carry {additions : List Addition} (hv : ValidHistory history)
    (hcarries : Carries (entriesOf toolCallId history) sent)
    (hpatches : Patches (sent ++ entriesOf toolCallId (additions.flatMap Addition.sent)))
    (h : additions.foldlM Addition.commit history = .ok result) :
    Carries (entriesOf toolCallId result)
      (sent ++ entriesOf toolCallId (additions.flatMap Addition.sent)) := by
  induction additions generalizing history sent with
  | nil =>
      cases h
      rwa [List.flatMap_nil, entriesOf_nil, List.append_nil]
  | cons addition additions ih =>
      obtain ⟨next, hnext, hrest⟩ := foldlM_cons_eq_ok.mp h
      rw [List.flatMap_cons, entriesOf_append, ← List.append_assoc] at hpatches ⊢
      have hstep := Addition.carries hv hcarries hpatches.append_left hnext
      exact ih (Addition.valid hv hnext) hstep hpatches hrest

/-- In a folded history a patch stands for a tool that has no other entry. -/
theorem Settled.carries (h : Settled history)
    (hpatches : Patches (entriesOf toolCallId history)) :
    Carries (entriesOf toolCallId history) (entriesOf toolCallId history) := by
  rcases hentries : entriesOf toolCallId history with _ | ⟨first, _ | ⟨second, later⟩⟩
  · exact .inl ⟨rfl, rfl⟩
  · exact .inr ⟨first, rfl, fun field _ => (lastValue_singleton field first).symm⟩
  · have hkind : updateKind second = .toolCallUpdate :=
      hpatches second (by rw [hentries]; exact List.mem_cons_self)
    obtain ⟨pre, rest, rfl, -, hfirst, hrest⟩ := List.filter_eq_cons_iff.mp hentries
    obtain ⟨middle, post, rfl, -, hsecond, -⟩ := List.filter_eq_cons_iff.mp hrest
    have hfresh := h (pre ++ first :: middle) second ⟨post, by simp⟩
    have hzero := hfresh.patch toolCallId hsecond hkind
    rw [List.countP_append, List.countP_cons_of_pos hfirst] at hzero
    omega

end Carries

/-- Committing additions to a folded history appends the text they send, keeps every chunk without
text, and leaves one entry for a tool of which all updates but the first are patches: the entry
with the last value sent for each field. -/
theorem commits_conserve {baseline result : List Value} {additions : List Addition}
    (hbaseline : IsFold baseline) (h : additions.foldlM Addition.commit baseline = .ok result) :
    let sent := additions.flatMap Addition.sent
    (∀ kind, result.flatMap (textOf kind) =
        baseline.flatMap (textOf kind) ++ sent.flatMap (textOf kind)) ∧
      result.flatMap contentOf = baseline.flatMap contentOf ++ sent.flatMap contentOf ∧
      ∀ toolCallId first later,
        entriesOf toolCallId baseline ++ entriesOf toolCallId sent = first :: later →
        (∀ update ∈ later, updateKind update = .toolCallUpdate) →
        ∃ entry, entriesOf toolCallId result = [entry] ∧
          ∀ field value, field ≠ "sessionUpdate" → lastValue field (first :: later) = some value →
            entry.get field = some value := by
  intro sent
  have hv := hbaseline.valid
  refine ⟨fun kind => commits_additive (additive_textOf kind) hv h,
    commits_additive additive_contentOf hv h, ?_⟩
  intro toolCallId first later hown hlater
  have hpatches : Patches (entriesOf toolCallId baseline ++ entriesOf toolCallId sent) := by
    rw [hown]
    exact hlater
  have hcarries := commits_carry hv (hbaseline.settled.carries hpatches.append_left) hpatches h
  rw [hown] at hcarries
  rcases hcarries with ⟨-, hnil⟩ | ⟨entry, hone, hvalues⟩
  · cases hnil
  · refine ⟨entry, hone, fun field value hf hvalue => ?_⟩
    have hfield := hvalues field hf
    rw [hvalue] at hfield
    exact (Option.filter_eq_some_iff.mp hfield).1

/-- A turn that calls a tool, and a later one in which the tool is patched twice. -/
def patchedLater : List Addition :=
  let patch (status : Value) : Value := .ofFields [("sessionUpdate", .string "tool_call_update"),
    ("toolCallId", .string "t"), ("status", status)]
  [.turn [] [.ofFields [("sessionUpdate", .string "tool_call"), ("toolCallId", .string "t"),
      ("title", .string "build")]],
    .turn [] [patch (.string "completed"), patch .null]]

/-- The tool of the first turn has the status of the second one. -/
theorem commits_conserve_patchedLater :
    ∃ result, patchedLater.foldlM Addition.commit [] = .ok result ∧
      ∃ entry, entriesOf "t" result = [entry] ∧
        entry.get "title" = some (.string "build") ∧
        entry.get "status" = some (.string "completed") := by
  have hok : (patchedLater.foldlM Addition.commit []).isOk = true := by decide +kernel
  cases hresult : patchedLater.foldlM Addition.commit [] with
  | error e =>
      rw [hresult] at hok
      cases hok
  | ok result =>
      obtain ⟨-, -, htools⟩ := commits_conserve isFold_nil hresult
      obtain ⟨entry, hentry, hvalues⟩ := htools "t" _ _ rfl (by decide +kernel)
      exact ⟨result, rfl, entry, hentry, hvalues "title" _ (by decide) (by decide +kernel),
        hvalues "status" _ (by decide) (by decide +kernel)⟩

end Attyd.History
