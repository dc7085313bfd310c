import Attyd.Library.Upsert
import Attyd.Session.LiveSteps
import Attyd.Session.RuntimeOps

/-!
# One control state on all ways

The controls of a session are its mode, its configuration, its commands, its information and its
usage. The candidate of a load folds them into a list, an opened session extracts them from the
notifications that came before it, and a live session folds each as it comes. All of them arrive
at the same table, and the table says of each kind what the updates of that kind say.

## Implementation notes

What is held of one kind is a fold over the updates of that kind alone, so each way is compared
with that fold and not with the other ways.
-/

namespace Attyd.Session

open Json (Value)
open History

/-- The kinds of updates that carry a control. -/
inductive ControlKind where
  | mode
  | config
  | commands
  | info
  | usage
deriving DecidableEq

def ControlKind.text : ControlKind → String
  | mode => "current_mode_update"
  | config => "config_option_update"
  | commands => "available_commands_update"
  | info => "session_info_update"
  | usage => "usage_update"

/-- The updates of a kind are patches of what is known. -/
def ControlKind.patches (kind : ControlKind) : Bool := kind = .info || kind = .usage

theorem ControlKind.text_injective {kind other : ControlKind} :
    kind.text = other.text ↔ kind = other := by
  cases kind <;> cases other <;> decide

/-- An update of a kind, as it stands in a notification. -/
structure IsControl (kind : ControlKind) (value : Value) : Prop where
  kind : value.getStr "sessionUpdate" = some kind.text
  bare : value.get "update" = none

/-- A control as the agent sends it. -/
structure ControlUpdate where
  kind : ControlKind
  value : Value
  isControl : IsControl kind value

/-- The notification that carries a control. -/
def ControlUpdate.notification (sessionId : String) (update : ControlUpdate) : Value :=
  .ofFields [("sessionId", .string sessionId), ("update", update.value)]

section Fold

variable {kind : ControlKind} {previous update : Value}

theorem IsControl.isObject (h : IsControl kind update) : update.isObject = true :=
  Value.isObject_of_getStr h.kind

@[simp] theorem foldControlUpdate_none (update : Value) : foldControlUpdate none update = update := by
  simp [foldControlUpdate]

/-- Comparisons see the same fold where they see the same control before it. -/
theorem unsigned_foldControlUpdate {known known' : Option Value}
    (h : known.map Value.unsigned = known'.map Value.unsigned) (update : Value) :
    (foldControlUpdate known update).unsigned = (foldControlUpdate known' update).unsigned := by
  have hobject (known : Option Value) : (known.filter (·.isObject)).map Value.unsigned =
      (known.map Value.unsigned).filter (·.isObject) := by
    cases known with
    | none => rfl
    | some value => cases hvalue : value.isObject <;> simp [Option.filter, hvalue]
  have hfilter := (hobject known).trans ((congrArg _ h).trans (hobject known').symm)
  unfold foldControlUpdate
  dsimp only
  split
  · cases hknown : known.filter (·.isObject) with
    | none =>
        rw [hknown, Option.map_none, eq_comm, Option.map_eq_none_iff] at hfilter
        rw [hfilter]
    | some value =>
        rw [hknown, Option.map_some, eq_comm, Option.map_eq_some_iff] at hfilter
        obtain ⟨value', hvalue', hsame⟩ := hfilter
        rw [hvalue']
        simp only [Value.unsigned_mergeFields, hsame]
  · rfl

/-- A control that is no patch replaces the one before. -/
theorem foldControlUpdate_replaces (h : IsControl kind update) (hkind : kind.patches = false)
    (previous : Option Value) : foldControlUpdate previous update = update := by
  cases kind <;> simp_all [foldControlUpdate, h.kind, ControlKind.text, ControlKind.patches]

/-- A usage update without a new cost. -/
def KeepsCost (kind : ControlKind) (update : Value) : Prop :=
  kind = .usage ∧ update.get "cost" = some .null

instance (kind : ControlKind) (update : Value) : Decidable (KeepsCost kind update) :=
  inferInstanceAs (Decidable (_ ∧ _))

/-- A patch writes its members over those that are known, `null` included; a cost that is
`null` leaves the cost that is known. -/
theorem get_foldControlUpdate (h : IsControl kind update) (hkind : kind.patches = true)
    (hprevious : previous.isObject = true) (key : String) :
    (foldControlUpdate (some previous) update).get key =
      if key = "cost" ∧ KeepsCost kind update then previous.get key
      else (update.get key <|> previous.get key) := by
  have hpatch : update.getStr "sessionUpdate" = some "session_info_update" ∨
      update.getStr "sessionUpdate" = some "usage_update" := by
    rw [h.kind]
    cases kind <;> simp_all [ControlKind.text, ControlKind.patches]
  have husage : update.getStr "sessionUpdate" = some "usage_update" ↔ kind = .usage := by
    rw [h.kind, Option.some_inj]
    change kind.text = ControlKind.usage.text ↔ kind = .usage
    exact ControlKind.text_injective
  have hkeeps : (update.getStr "sessionUpdate" = some "usage_update" ∧
      update.get "cost" = some .null) ↔ KeepsCost kind update := and_congr_left' husage
  unfold foldControlUpdate
  simp only [if_pos hpatch, Option.filter_some, hprevious, if_true, hkeeps]
  by_cases hcost : KeepsCost kind update
  · rw [if_pos hcost, Value.get_mergeFields hprevious (by simpa using h.isObject),
      Value.get_remove]
    by_cases hkey : key = "cost"
    · simp [hkey, hcost]
    · simp [hkey]
  · rw [if_neg hcost, Value.get_mergeFields hprevious h.isObject]
    simp [hcost]

/-- What is folded of controls of one kind is one itself. -/
theorem IsControl.fold (h : IsControl kind update) {known : Option Value}
    (hknown : ∀ value, known = some value → IsControl kind value) :
    IsControl kind (foldControlUpdate known update) := by
  cases known with
  | none => rwa [foldControlUpdate_none]
  | some previous =>
      have hprevious := hknown previous rfl
      cases hkind : kind.patches with
      | false => rwa [foldControlUpdate_replaces h hkind]
      | true =>
          have hget := get_foldControlUpdate h hkind hprevious.isObject
          obtain ⟨value, hvalue, htext⟩ := Option.bind_eq_some_iff.1 h.kind
          constructor
          · rw [Value.getStr, hget, if_neg (by simp), hvalue]
            exact htext
          · rw [hget, if_neg (by simp), h.bare, hprevious.bare]
            rfl

/-- The kind of what is folded is that of the update. -/
theorem index_foldControlUpdate (known : Option Value) (update : Value) :
    (foldControlUpdate known update).index "sessionUpdate" = update.index "sessionUpdate" := by
  unfold foldControlUpdate
  dsimp only
  split
  · rename_i hpatch
    split
    · rfl
    · rename_i previous hprevious
      obtain ⟨-, hobject⟩ := Option.filter_eq_some_iff.1 hprevious
      have hupdate : update.isObject = true := by
        rcases hpatch with h | h <;> exact Value.isObject_of_getStr h
      obtain ⟨kind, hkind⟩ : ∃ value, update.get "sessionUpdate" = some value := by
        rcases hpatch with h | h <;>
          exact (Option.bind_eq_some_iff.1 h).imp fun _ hvalue => hvalue.1
      split
      · rw [Value.index, Value.get_mergeFields hobject (by simpa using hupdate),
          Value.get_remove, if_neg (by decide), Value.index, hkind]
        rfl
      · rw [Value.index, Value.get_mergeFields hobject hupdate, Value.index, hkind]
        rfl
  · rfl

end Fold

section Folded

/-- What the updates of one kind come to, one after the other. -/
def folded (values : List Value) : Option Value :=
  values.foldl (fun known update => some (foldControlUpdate known update)) none

@[simp] theorem folded_nil : folded [] = none := rfl

@[simp] theorem folded_concat (values : List Value) (update : Value) :
    folded (values ++ [update]) = some (foldControlUpdate (folded values) update) := by
  simp [folded]

variable {kind : ControlKind} {values : List Value}

theorem isControl_folded (h : ∀ value ∈ values, IsControl kind value) {value : Value}
    (hvalue : folded values = some value) : IsControl kind value := by
  induction values using List.reverseRecOn generalizing value with
  | nil => simp at hvalue
  | append_singleton values update ih =>
      rw [folded_concat] at hvalue
      obtain rfl := Option.some_inj.1 hvalue
      exact (h update (by simp)).fold fun previous hprevious =>
        ih (fun value hmem => h value (by simp [hmem])) hprevious

theorem folded_isSome : (folded values).isSome = !values.isEmpty := by
  induction values using List.reverseRecOn with
  | nil => rfl
  | append_singleton values update ih => simp

/-- Of a control that is no patch the last update is kept. -/
theorem folded_replaced (h : ∀ value ∈ values, IsControl kind value)
    (hkind : kind.patches = false) : folded values = values.getLast? := by
  induction values using List.reverseRecOn with
  | nil => rfl
  | append_singleton values update ih =>
      rw [folded_concat, foldControlUpdate_replaces (h update (by simp)) hkind]
      simp

/-- Of a patch each member is kept that was sent last, and a cost only if it is not `null`. -/
theorem get_folded (h : ∀ value ∈ values, IsControl kind value) (hkind : kind.patches = true)
    {value : Value} (hvalue : folded values = some value) (key : String)
    (hkey : kind = .usage → key ≠ "cost") :
    value.get key = values.reverse.findSome? fun update => update.get key := by
  induction values using List.reverseRecOn generalizing value with
  | nil => simp at hvalue
  | append_singleton values update ih =>
      rw [folded_concat] at hvalue
      obtain rfl := Option.some_inj.1 hvalue
      have hbefore : ∀ value ∈ values, IsControl kind value :=
        fun value hmem => h value (by simp [hmem])
      have hupdate := h update (by simp)
      rw [List.reverse_append, List.reverse_singleton, List.singleton_append,
        List.findSome?_cons]
      cases hknown : folded values with
      | none =>
          obtain rfl : values = [] := by
            have hnone := congrArg Option.isSome hknown
            rw [folded_isSome] at hnone
            simpa using hnone
          rw [foldControlUpdate_none]
          cases update.get key <;> rfl
      | some previous =>
          rw [get_foldControlUpdate hupdate hkind (isControl_folded hbefore hknown).isObject,
            if_neg (fun hcost => hkey hcost.2.1 hcost.1), ih hbefore hknown]
          cases update.get key <;> rfl

/-- Of the cost of a session the last is kept that is not `null`. -/
theorem cost_folded (h : ∀ value ∈ values, IsControl .usage value) {value : Value}
    (hvalue : folded values = some value) :
    (value.get "cost").filter (!·.isNull) =
      values.reverse.findSome? fun update => (update.get "cost").filter (!·.isNull) := by
  induction values using List.reverseRecOn generalizing value with
  | nil => simp at hvalue
  | append_singleton values update ih =>
      rw [folded_concat] at hvalue
      obtain rfl := Option.some_inj.1 hvalue
      have hbefore : ∀ value ∈ values, IsControl .usage value :=
        fun value hmem => h value (by simp [hmem])
      have hupdate := h update (by simp)
      rw [List.reverse_append, List.reverse_singleton, List.singleton_append,
        List.findSome?_cons]
      cases hknown : folded values with
      | none =>
          obtain rfl : values = [] := by
            have hnone := congrArg Option.isSome hknown
            rw [folded_isSome] at hnone
            simpa using hnone
          rw [foldControlUpdate_none]
          cases (update.get "cost").filter (!·.isNull) <;> rfl
      | some previous =>
          rw [get_foldControlUpdate hupdate rfl (isControl_folded hbefore hknown).isObject,
            ← ih hbefore hknown]
          by_cases hnull : update.get "cost" = some .null
          · rw [if_pos ⟨rfl, rfl, hnull⟩, hnull]
            rfl
          · rw [if_neg (fun hcost => hnull hcost.2.2)]
            cases hcost : update.get "cost" with
            | none => rfl
            | some cost =>
                have hcost' : cost.isNull = false := by
                  cases cost <;> simp_all [Value.isNull]
                simp [Option.filter_some, hcost']

@[simp] theorem folded_toList (known : Option Value) : folded known.toList = known := by
  cases known with
  | none => rfl
  | some value => simp [folded]

end Folded

section Tables

/-- The updates under one kind. -/
def valuesOf (key : String) (values : List Value) : List Value :=
  values.filter fun update => update.getStr "sessionUpdate" = some key

/-- Fold an update into the controls of a session. -/
def storeControl (controls : Table String Value) (update : ControlUpdate) : Table String Value :=
  controls.insert update.kind.text
    (foldControlUpdate (controls.lookup update.kind.text) update.value)

/-- The controls of a session after updates. -/
def controlsOf (updates : List ControlUpdate) : Table String Value := updates.foldl storeControl ∅

variable {updates : List ControlUpdate}

theorem valuesOf_concat (key : String) (updates : List ControlUpdate) (update : ControlUpdate) :
    valuesOf key ((updates ++ [update]).map (·.value)) =
      valuesOf key (updates.map (·.value)) ++
        if update.kind.text = key then [update.value] else [] := by
  by_cases hkey : update.kind.text = key <;>
    simp [valuesOf, List.filter_append, update.isControl.kind, hkey]

theorem isControl_valuesOf {kind : ControlKind} {value : Value}
    (h : value ∈ valuesOf kind.text (updates.map (·.value))) : IsControl kind value := by
  obtain ⟨hmem, hkind⟩ := List.mem_filter.1 h
  obtain ⟨update, -, rfl⟩ := List.mem_map.1 hmem
  rw [update.isControl.kind, decide_eq_true_iff, Option.some_inj,
    ControlKind.text_injective] at hkind
  exact hkind ▸ update.isControl

/-- The control of a kind is what the updates of that kind come to. -/
theorem lookup_controlsOf (updates : List ControlUpdate) (key : String) :
    (controlsOf updates).lookup key = folded (valuesOf key (updates.map (·.value))) := by
  induction updates using List.reverseRecOn with
  | nil => rfl
  | append_singleton updates update ih =>
      have hstore : controlsOf (updates ++ [update]) =
          storeControl (controlsOf updates) update := by
        simp [controlsOf]
      rw [hstore, storeControl, valuesOf_concat]
      by_cases hkey : update.kind.text = key
      · subst hkey
        rw [Finmap.lookup_insert, if_pos rfl, folded_concat, ih]
      · rw [Finmap.lookup_insert_of_ne _ (Ne.symm hkey), if_neg hkey, List.append_nil, ih]

theorem retainControlUpdate_of_isControl {kind : ControlKind} {value : Value}
    (h : IsControl kind value) : retainControlUpdate value = some value := by
  simp only [retainControlUpdate, h.bare, Option.getD_none, h.kind, Option.bind_some]
  cases kind <;> rfl

/-- What a notification carries is retained. -/
theorem retainControlUpdate_notification (sessionId : String) (update : ControlUpdate) :
    retainControlUpdate (update.notification sessionId) = some update.value := by
  have hupdate : (update.notification sessionId).get "update" = some update.value := by
    simp [ControlUpdate.notification, Value.ofFields, Value.get_set]
  simp only [retainControlUpdate, hupdate, Option.getD_some, update.isControl.kind,
    Option.bind_some]
  cases update.kind <;> rfl

/-- The controls that are extracted are those of the updates that are retained. -/
theorem extractControlState_eq {entries : List Value}
    (h : entries.filterMap retainControlUpdate = updates.map (·.value)) :
    extractControlState entries = controlsOf updates := by
  rw [extractControlState, h, List.foldl_map, controlsOf]
  congr 1
  funext controls update
  rw [storeControl, update.isControl.kind, Option.getD_some]

/-- Controls extracted from the notifications that came before a session opened. -/
theorem extractControlState_notifications (sessionId : String) (updates : List ControlUpdate) :
    extractControlState (updates.map (·.notification sessionId)) = controlsOf updates := by
  refine extractControlState_eq ?_
  rw [List.filterMap_map, ← List.filterMap_eq_map]
  congr 1
  funext update
  exact retainControlUpdate_notification sessionId update

end Tables

section Replay

variable {σ : Type} [Inhabited σ] (validate : ValidateHistoryUpdate σ)

/-- The candidate of a load after the controls that came in it. -/
def ingestAll (updates : List ControlUpdate) : ReplayData σ :=
  updates.foldl (fun data update => (data.ingest validate update.value false).2) .default

/-- The kind that a stored control is found by. -/
abbrev controlKey (value : Value) : Value := value.index "sessionUpdate"

omit [Inhabited σ] in
theorem ingestControl_controls (data : ReplayData σ) (update : Value) :
    (data.ingestControl update).controls =
      Keyed.upsert controlKey foldControlUpdate data.controls update := by
  unfold ReplayData.ingestControl Keyed.upsert
  dsimp only
  cases hposition : data.controls.findIdx? fun previous =>
      controlKey previous = controlKey update with
  | none => rfl
  | some i =>
      obtain ⟨hi, -⟩ := List.findIdx?_eq_some_iff_getElem.1 hposition
      simp [List.getD_eq_getElem?_getD, List.getElem?_eq_getElem hi]

omit [Inhabited σ] in
/-- What leaves a candidate valid found it valid. -/
theorem ingest_invalid {data : ReplayData σ} {update : Value}
    (h : (data.ingest validate update false).2.invalid = none) : data.invalid = none := by
  by_cases hclosed : (data.sealed || data.invalid.isSome) = true
  · rwa [ReplayData.ingest, if_pos hclosed] at h
  · simp only [Bool.or_eq_true, not_or, Bool.not_eq_true, Option.isSome_eq_false_iff,
      Option.isNone_iff_eq_none] at hclosed
    exact hclosed.2

omit [Inhabited σ] in
/-- A control that the candidate takes is written among its controls. -/
theorem ingest_control {data : ReplayData σ} {update : Value} (hopen : data.sealed = false)
    (h : (data.ingest validate update false).2.invalid = none) :
    (data.ingest validate update false).2.sealed = false ∧
      (data.ingest validate update false).2.controls =
        Keyed.upsert controlKey foldControlUpdate data.controls update := by
  have hinvalid := ingest_invalid validate h
  cases hvalid : validate data.validation update with
  | mk result validation =>
      cases result with
      | error message =>
          simp [ReplayData.ingest, ReplayData.ingestRecord, hopen, hinvalid, hvalid] at h
      | ok accepted =>
          have hingest : (data.ingest validate update false).2 =
              { data with validation }.ingestControl update := by
            simp [ReplayData.ingest, ReplayData.ingestRecord, hopen, hinvalid, hvalid]
          rw [hingest]
          exact ⟨hopen, ingestControl_controls _ update⟩

/-- What a candidate holds of the updates it took: one control of each kind. -/
structure Gathered (updates : List ControlUpdate) (controls : List Value) : Prop where
  nodup : (controls.map controlKey).Nodup
  held : ∀ key, Keyed.find controlKey (.string key) controls =
    folded (valuesOf key (updates.map (·.value)))
  named : ∀ value ∈ controls, ∃ kind, IsControl kind value

theorem index_eq_string_iff {value : Value} {key : String} :
    value.index "sessionUpdate" = .string key ↔ value.getStr "sessionUpdate" = some key := by
  rw [Value.index, Value.getStr]
  cases value.get "sessionUpdate" with
  | none => simp
  | some kind => cases kind <;> simp [Value.asStr]

theorem Gathered.write {controls : List Value} {updates : List ControlUpdate}
    (h : Gathered updates controls) (update : ControlUpdate) :
    Gathered (updates ++ [update])
      (Keyed.upsert controlKey foldControlUpdate controls update.value) := by
  have hkey : controlKey update.value = .string update.kind.text :=
    index_eq_string_iff.2 update.isControl.kind
  refine ⟨Keyed.nodup_upsert index_foldControlUpdate h.nodup update.value, fun key => ?_,
    fun value hvalue => ?_⟩
  · rw [Keyed.find_upsert index_foldControlUpdate, h.held, valuesOf_concat, hkey]
    by_cases hkind : update.kind.text = key
    · rw [if_pos (congrArg Value.string hkind), if_pos hkind, folded_concat]
    · rw [if_neg (fun heq => hkind (Value.string.inj heq)), if_neg hkind, List.append_nil]
  · rcases Keyed.mem_upsert hvalue with hvalue | rfl
    · exact h.named value hvalue
    · refine ⟨update.kind, update.isControl.fold fun known hknown => ?_⟩
      rw [hkey, h.held] at hknown
      exact isControl_folded (fun value => isControl_valuesOf) hknown

/-- The candidate of a load that took all updates holds what each kind comes to. -/
theorem gathered_ingestAll {updates : List ControlUpdate}
    (h : (ingestAll validate updates).invalid = none) :
    (ingestAll validate updates).sealed = false ∧
      Gathered updates (ingestAll validate updates).controls := by
  induction updates using List.reverseRecOn with
  | nil => exact ⟨rfl, List.nodup_nil, fun key => rfl, by simp [ingestAll, ReplayData.default]⟩
  | append_singleton updates update ih =>
      have hstep : ingestAll validate (updates ++ [update]) =
          ((ingestAll validate updates).ingest validate update.value false).2 := by
        simp [ingestAll]
      rw [hstep] at h ⊢
      obtain ⟨hopen, hgathered⟩ := ih (ingest_invalid validate h)
      obtain ⟨hsealed, hcontrols⟩ := ingest_control validate hopen h
      rw [hcontrols]
      exact ⟨hsealed, hgathered.write update⟩

/-- The controls that a gathered list holds, one of each kind, are those of its updates. -/
theorem Gathered.extract {controls : List Value} {updates : List ControlUpdate}
    (h : Gathered updates controls) : extractControlState controls = controlsOf updates := by
  obtain ⟨stored, hstored⟩ : ∃ stored : List ControlUpdate, stored.map (·.value) = controls := by
    exact ⟨controls.attach.map fun value => ⟨_, value.1, (h.named value.1 value.2).choose_spec⟩,
      by simp⟩
  have hretained : controls.filterMap retainControlUpdate = stored.map (·.value) := by
    rw [hstored]
    refine (List.filterMap_congr fun value hvalue => ?_).trans List.filterMap_some
    obtain ⟨kind, hkind⟩ := h.named value hvalue
    exact retainControlUpdate_of_isControl hkind
  rw [extractControlState_eq hretained]
  refine Finmap.ext_lookup fun key => ?_
  rw [lookup_controlsOf, lookup_controlsOf, hstored, ← h.held key, valuesOf]
  have hfilter := Keyed.filter_key h.nodup (.string key)
  simp only [index_eq_string_iff] at hfilter
  rw [hfilter, folded_toList]

end Replay

section Live

variable {σ δ : Type} [Inhabited σ] [DecidableEq δ] {r : SessionRegistry σ δ}
  {epoch sessionId : String} {incarnation : Nat} {controls : Table String Value}

/-- A live session that takes controls, and the controls it has, their numbers compared by value:
an update that is equal to what is there is not written. -/
def SessionState.HoldsControls (owner : SessionState δ) (incarnation : Nat)
    (controls : Table String Value) : Prop :=
  owner.incarnation = incarnation ∧ owner.stageIn ["cleanup"] = false ∧
    ∃ live, owner.live = some live ∧ SessionState.controllable live = true ∧
      live.controlState.map Value.unsigned = controls.map Value.unsigned

/-- The session of an incarnation takes controls, and the controls it has. -/
def HoldsControls (r : SessionRegistry σ δ) (epoch sessionId : String) (incarnation : Nat)
    (controls : Table String Value) : Prop :=
  epoch = r.epoch ∧
    ∃ owner, r.state sessionId = some owner ∧ owner.HoldsControls incarnation controls

/-- A live session takes its controls one at a time. -/
def updateControls (env : RuntimeEnv σ δ) (epoch sessionId : String) (incarnation : Nat)
    (r : SessionRegistry σ δ) (updates : List ControlUpdate) : SessionRegistry σ δ :=
  updates.foldl (fun r update => RuntimeOp.step env r
    (.updateControlState epoch sessionId incarnation update.kind.text update.value)) r

omit [DecidableEq δ] in
theorem SessionState.HoldsControls.commitLive {owner : SessionState δ}
    (h : owner.HoldsControls incarnation controls) :
    owner.commitLive.HoldsControls incarnation controls := by
  obtain ⟨hincarnation, hstage, live, hlive, htakes, hcontrols⟩ := h
  exact ⟨hincarnation, hstage, _, congrArg (Option.map _) hlive, htakes, hcontrols⟩

omit [DecidableEq δ] in
/-- A live session that takes controls folds the next one into what it has. -/
theorem SessionState.HoldsControls.update {owner : SessionState δ} {live : SessionLiveState}
    (h : owner.HoldsControls incarnation controls) (hlive : owner.live = some live)
    (update : ControlUpdate) :
    ∃ reduction,
      owner.updateControlState live update.kind.text update.value = .ok reduction ∧
        reduction.owner.HoldsControls incarnation (storeControl controls update) := by
  obtain ⟨hincarnation, hstage, live', hlive', htakes, hcontrols⟩ := h
  obtain rfl : live' = live := Option.some_inj.1 (hlive'.symm.trans hlive)
  have hknown (key : String) : (live'.controlState.lookup key).map Value.unsigned =
      (controls.lookup key).map Value.unsigned := by
    rw [← Table.lookup_map, hcontrols, Table.lookup_map]
  have hfold := unsigned_foldControlUpdate (hknown update.kind.text) update.value
  rw [updateControlState, htakes]
  by_cases hsame : (live'.controlState.lookup update.kind.text).any
      (·.alike (foldControlUpdate (live'.controlState.lookup update.kind.text) update.value)) =
        true
  · refine ⟨⟨owner, 0, false⟩, if_pos hsame, hincarnation, hstage, live', hlive, htakes, ?_⟩
    obtain ⟨known, hlookup, halike⟩ := (Option.any_eq_true _ _).1 hsame
    refine Finmap.ext_lookup fun key => ?_
    rw [Table.lookup_map, Table.lookup_map, storeControl]
    by_cases hkey : key = update.kind.text
    · rw [hkey, Finmap.lookup_insert, hlookup, Option.map_some, Value.alike_iff.1 halike, hfold]
      rfl
    · rw [Finmap.lookup_insert_of_ne _ hkey, hknown]
  · refine ⟨_, if_neg hsame, hincarnation, hstage, _, rfl, htakes, ?_⟩
    refine Finmap.ext_lookup fun key => ?_
    rw [Table.lookup_map, Table.lookup_map, storeControl]
    by_cases hkey : key = update.kind.text
    · rw [hkey, Finmap.lookup_insert, Finmap.lookup_insert, Option.map_some, hfold]
      rfl
    · rw [Finmap.lookup_insert_of_ne _ hkey, Finmap.lookup_insert_of_ne _ hkey, hknown]

theorem HoldsControls.step (h : HoldsControls r epoch sessionId incarnation controls)
    (env : RuntimeEnv σ δ) (update : ControlUpdate) :
    HoldsControls
      (RuntimeOp.step env r
        (.updateControlState epoch sessionId incarnation update.kind.text update.value))
      epoch sessionId incarnation (storeControl controls update) := by
  obtain ⟨rfl, owner, hstate, hbefore⟩ := h
  obtain ⟨hincarnation, hstage, live, hlive, -, -⟩ := id hbefore
  obtain ⟨reduction, hreduction, hholds⟩ := hbefore.update hlive update
  have howner : r.requireLiveOwner sessionId incarnation = .ok (owner, live) := by
    simp [SessionRegistry.requireLiveOwner, hstate, hincarnation, hlive, hstage]
  have hstep : RuntimeOp.step env r
      (.updateControlState r.epoch sessionId incarnation update.kind.text update.value) =
        r.applyReduction sessionId reduction := by
    simp only [RuntimeOp.step, SessionRegistry.liveStep, SessionRegistry.reduceLive,
      SessionRegistry.requireEpoch, if_pos, howner, ok_bind, hreduction]
  rw [hstep]
  have hwritten := written_putState hstate
    (if reduction.publishes then reduction.owner.commitLive else reduction.owner)
  refine ⟨hwritten.epoch.symm, _, hwritten.state, ?_⟩
  split
  · exact hholds.commitLive
  · exact hholds

/-- A live session that takes updates one at a time has what they come to behind what it had. -/
theorem HoldsControls.run (h : HoldsControls r epoch sessionId incarnation controls)
    (env : RuntimeEnv σ δ) (updates : List ControlUpdate) :
    HoldsControls (updateControls env epoch sessionId incarnation r updates) epoch sessionId
      incarnation (updates.foldl storeControl controls) := by
  induction updates generalizing r controls with
  | nil => exact h
  | cons update updates ih => exact ih (h.step env update)

end Live

section Agreement

/-- What a table says of each kind is what the updates of that kind say: of a mode, a
configuration and commands the last one; of information and usage each member as it was sent
last, `null` included; and of a usage the last cost that is not `null`. -/
structure FoldsByKind (updates : List ControlUpdate) (controls : Table String Value) : Prop where
  known : ∀ key, key ∈ controls ↔ ∃ update ∈ updates, update.kind.text = key
  replaced : ∀ kind : ControlKind, kind.patches = false →
    controls.lookup kind.text = (valuesOf kind.text (updates.map (·.value))).getLast?
  patched : ∀ (kind : ControlKind) (value : Value), kind.patches = true →
    controls.lookup kind.text = some value → ∀ key, (kind = .usage → key ≠ "cost") →
      value.get key = (valuesOf kind.text (updates.map (·.value))).reverse.findSome?
        fun update => update.get key
  cost : ∀ value : Value, controls.lookup ControlKind.usage.text = some value →
    (value.get "cost").filter (!·.isNull) =
      (valuesOf ControlKind.usage.text (updates.map (·.value))).reverse.findSome?
        fun update => (update.get "cost").filter (!·.isNull)

theorem foldsByKind_controlsOf (updates : List ControlUpdate) :
    FoldsByKind updates (controlsOf updates) where
  known key := by
    rw [← Finmap.lookup_isSome, lookup_controlsOf, folded_isSome, Bool.not_eq_true',
      List.isEmpty_eq_false_iff_exists_mem]
    constructor
    · rintro ⟨value, hvalue⟩
      obtain ⟨hmem, hkey⟩ := List.mem_filter.1 hvalue
      obtain ⟨update, hupdate, rfl⟩ := List.mem_map.1 hmem
      exact ⟨update, hupdate, by simpa [update.isControl.kind] using hkey⟩
    · rintro ⟨update, hupdate, rfl⟩
      exact ⟨update.value, List.mem_filter.2
        ⟨List.mem_map_of_mem hupdate, by simp [update.isControl.kind]⟩⟩
  replaced kind hkind := by
    rw [lookup_controlsOf]
    exact folded_replaced (fun value => isControl_valuesOf) hkind
  patched kind value hkind hvalue key hkey := by
    rw [lookup_controlsOf] at hvalue
    exact get_folded (fun value => isControl_valuesOf) hkind hvalue key hkey
  cost value hvalue := by
    rw [lookup_controlsOf] at hvalue
    exact cost_folded (fun value => isControl_valuesOf) hvalue

variable {σ δ : Type} [Inhabited σ]

/-- A session that is opened with notifications has the controls of their updates. -/
theorem openNewWithReplay_notifications (r : SessionRegistry σ δ)
    (epoch sessionId cwd : String) (session : Value) (updates : List ControlUpdate) :
    r.openNewWithReplay epoch sessionId cwd session (updates.map (·.notification sessionId)) =
      r.openSession epoch sessionId cwd session (controlsOf updates) := by
  rw [SessionRegistry.openNewWithReplay, extractControlState_notifications]

/-- Controls that a load took, controls extracted from notifications and controls that a live
session took one at a time are the same, and so is what a live session has after more of them;
of each kind it is what the updates of that kind say. -/
theorem controls_agree [DecidableEq δ] (validate : ValidateHistoryUpdate σ) (env : RuntimeEnv σ δ)
    (sessionId : String) (early late : List ControlUpdate)
    (hload : (ingestAll validate early).invalid = none) :
    extractControlState (ingestAll validate early).takeControls.1.2 = controlsOf early ∧
      extractControlState (early.map (·.notification sessionId)) = controlsOf early ∧
      (∀ (r : SessionRegistry σ δ) (epoch : String) (incarnation : Nat),
        HoldsControls r epoch sessionId incarnation ∅ →
          HoldsControls (updateControls env epoch sessionId incarnation r early) epoch sessionId
            incarnation (controlsOf early)) ∧
      (∀ (r : SessionRegistry σ δ) (epoch : String) (incarnation : Nat),
        HoldsControls r epoch sessionId incarnation (controlsOf early) →
          HoldsControls (updateControls env epoch sessionId incarnation r late) epoch sessionId
            incarnation (controlsOf (early ++ late))) ∧
      FoldsByKind (early ++ late) (controlsOf (early ++ late)) := by
  refine ⟨(gathered_ingestAll validate hload).2.extract,
    extractControlState_notifications sessionId early, fun r epoch incarnation h => h.run env early,
    fun r epoch incarnation h => ?_, foldsByKind_controlsOf _⟩
  rw [controlsOf, List.foldl_append]
  exact h.run env late

/-- A usage with a cost, one whose cost is `null`, and an information that clears the title. -/
def usageThenTitle : List ControlUpdate :=
  [⟨.usage, .ofFields [("sessionUpdate", .string "usage_update"), ("cost", .ofNat 2)],
      by decide +kernel, by decide +kernel⟩,
    ⟨.usage, .ofFields [("sessionUpdate", .string "usage_update"), ("cost", .null)],
      by decide +kernel, by decide +kernel⟩,
    ⟨.info, .ofFields [("sessionUpdate", .string "session_info_update"), ("title", .null)],
      by decide +kernel, by decide +kernel⟩]

/-- The first session that is opened has the controls of the notifications before it. -/
theorem holdsControls_opened (updates : List ControlUpdate) :
    HoldsControls ((SessionRegistry.new "e" : SessionRegistry Unit Unit).openNewWithReplay "e"
      "s" "/" Value.empty (updates.map (·.notification "s"))).2 "e" "s" 1 (controlsOf updates) := by
  rw [openNewWithReplay_notifications]
  exact ⟨rfl, _, rfl, rfl, rfl, _, rfl, rfl, rfl⟩

/-- A candidate that takes every update, and a session that takes them again once it is live. -/
theorem controls_agree_usageThenTitle :
    let validate : ValidateHistoryUpdate Unit := fun state _ => (.ok (), state)
    let opened : SessionRegistry Unit Unit :=
      ((SessionRegistry.new "e").openNewWithReplay "e" "s" "/" Value.empty
        (usageThenTitle.map (·.notification "s"))).2
    extractControlState (ingestAll validate usageThenTitle).takeControls.1.2 =
        controlsOf usageThenTitle ∧
      HoldsControls
        (updateControls ⟨fun _ => (), validate, fun _ value => value⟩ "e" "s" 1 opened
          usageThenTitle)
        "e" "s" 1 (controlsOf (usageThenTitle ++ usageThenTitle)) := by
  intro validate opened
  obtain ⟨hload, -, -, hlive, -⟩ := controls_agree validate
    ⟨fun _ => (), validate, fun _ value => value⟩ "s" usageThenTitle usageThenTitle
    (by decide +kernel)
  exact ⟨hload, hlive opened "e" 1 (holdsControls_opened usageThenTitle)⟩

end Agreement

end Attyd.Session
