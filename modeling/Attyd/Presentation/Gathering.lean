import Attyd.Library.Machine
import Attyd.Presentation.Entries

/-!
# Every update is in one entry

An update joins an entry of its own family or opens one, so the entries hold the updates that
change no control, each as often as it occurs.
-/

namespace Attyd.Presentation

open Json (Value)

/-- Updates of different families never share an entry. -/
inductive Family where
  | tool
  | plan
  | compaction
  | other (kind : String)

def family (kind : String) : Family :=
  if isTool kind then .tool
  else if isPlan kind then .plan
  else if isCompaction kind then .compaction
  else .other kind

/-- The family that a key names. -/
def keyFamily (name : String) : Family :=
  if name = "tool" then .tool
  else if name = "plan" then .plan
  else if name = "compaction" then .compaction
  else .other name

theorem family_tool {kind : String} (h : isTool kind = true) : family kind = .tool := if_pos h

theorem family_plan {kind : String} (h : isPlan kind = true) : family kind = .plan := by
  simp only [isPlan, Bool.or_eq_true, decide_eq_true_eq] at h
  rcases h with (rfl | rfl) | rfl <;> rfl

theorem family_compaction {kind : String} (h : isCompaction kind = true) :
    family kind = .compaction := by
  simp only [isCompaction, Bool.or_eq_true, decide_eq_true_eq] at h
  rcases h with rfl | rfl <;> rfl

theorem family_message {kind : String} (h : isMessage kind = true) :
    family kind = keyFamily kind := by
  simp only [isMessage, Bool.or_eq_true, decide_eq_true_eq] at h
  rcases h with (rfl | rfl) | rfl <;> rfl

/-- A kind of the family of tools is one of theirs. -/
theorem isTool_of_family {kind : String} (h : family kind = .tool) : isTool kind = true := by
  by_contra hn
  rw [family, if_neg hn] at h
  split at h
  · cases h
  · split at h <;> cases h

/-- A key names the family of what it gathers. -/
theorem entryKey_family {update : Value} {key : String × String} (h : entryKey update = some key) :
    family (kind update) = keyFamily key.1 := by
  rw [entryKey] at h
  split at h
  · next hkind =>
      obtain ⟨id, -, rfl⟩ := Option.map_eq_some_iff.mp h
      exact family_tool hkind
  · split at h
    · next hkind =>
        cases h
        exact family_plan (by simp [isPlan, hkind])
    · split at h
      · next hkind =>
          obtain ⟨id, -, rfl⟩ := Option.map_eq_some_iff.mp h
          exact family_plan (by simp [isPlan, hkind])
      · split at h
        · next hkind =>
            obtain ⟨id, -, rfl⟩ := Option.map_eq_some_iff.mp h
            exact family_plan (by simp [isPlan, hkind])
        · split at h
          · next hkind =>
              obtain ⟨id, -, rfl⟩ := Option.map_eq_some_iff.mp h
              exact family_compaction hkind
          · split at h
            · next hkind =>
                obtain ⟨id, -, rfl⟩ := Option.map_eq_some_iff.mp h
                exact family_message hkind
            · cases h

/-- The updates of an entry belong to its family. -/
def Entry.Uniform (self : Entry) : Prop :=
  ∀ update ∈ self.updates, family (Presentation.kind update) = family self.kind

theorem Entry.uniform_single (update : Value) : (Entry.single update).Uniform := by
  intro other hother
  rw [Entry.single, List.mem_singleton] at hother
  rw [hother]
  rfl

theorem Entry.Uniform.push {entry : Entry} (h : entry.Uniform) {update : Value}
    (hupdate : family (Presentation.kind update) = family entry.kind) :
    (entry.push update).Uniform := by
  intro other hother
  rcases List.mem_append.mp hother with hother | hother
  · exact h other hother
  · rw [List.mem_singleton.mp hother]
    exact hupdate

namespace Grouping

/-- Every name leads to an entry of its family, and every entry is of one family. -/
structure Sound (s : Grouping) : Prop where
  named : ∀ key index, s.named.lookup key = some index →
    ∃ entry, s.entries[index]? = some entry ∧ family entry.kind = keyFamily key.1
  uniform : ∀ entry ∈ s.entries, entry.Uniform

variable {s : Grouping} {update : Value} {index : Nat}

theorem sound_empty : Sound empty where
  named := by simp [empty]
  uniform := by simp [empty]

/-- An update joins an entry of its family. -/
theorem Sound.existing (h : s.Sound) (hindex : s.existing update = some index) :
    ∃ entry, s.entries[index]? = some entry ∧ family (kind update) = family entry.kind := by
  rw [Grouping.existing, Option.orElse_eq_some] at hindex
  rcases hindex with hnamed | ⟨-, hlast⟩
  · obtain ⟨key, hkey, hlookup⟩ := Option.bind_eq_some_iff.mp hnamed
    obtain ⟨entry, hentry, hfamily⟩ := h.named key index hlookup
    exact ⟨entry, hentry, (entryKey_family hkey).trans hfamily.symm⟩
  · split at hlast
    · obtain ⟨entry, hentry, rfl⟩ := Option.map_eq_some_iff.mp hlast
      obtain ⟨hget, hcontinues⟩ := Option.filter_eq_some_iff.mp hentry
      refine ⟨entry, ?_, ?_⟩
      · rw [← List.getLast?_eq_getElem?]
        exact hget
      · simp only [Bool.and_eq_true, decide_eq_true_eq] at hcontinues
        rw [hcontinues.1]
    · cases hlast

/-- What an entry is after an update joined the one at `index`. -/
theorem mem_modify {entries : List Entry} {entry : Entry}
    (h : entry ∈ entries.modify index (.push update)) :
    entry ∈ entries ∨ ∃ former, entries[index]? = some former ∧ entry = former.push update := by
  obtain ⟨i, hi⟩ := List.mem_iff_getElem?.mp h
  rw [List.getElem?_modify, Option.map_eq_map, Option.map_eq_some_iff] at hi
  obtain ⟨former, hformer, rfl⟩ := hi
  split
  · next heq =>
      subst heq
      exact .inr ⟨former, hformer, rfl⟩
  · exact .inl (List.mem_of_getElem? hformer)

/-- Every name leads where it led, or to the entry of the update. -/
theorem Sound.insert (h : s.Sound) {entries : List Entry}
    (hkept : ∀ (i : Nat) (entry : Entry), s.entries[i]? = some entry →
      ∃ entry' : Entry, entries[i]? = some entry' ∧ entry'.kind = entry.kind)
    (hindex : ∃ entry, entries[index]? = some entry ∧ family entry.kind = family (kind update))
    (huniform : ∀ entry ∈ entries, entry.Uniform) :
    Sound ⟨entries, match entryKey update with
      | some key => s.named.insert key index
      | none => s.named⟩ := by
  have hnamed : ∀ key i, s.named.lookup key = some i →
      ∃ entry : Entry, entries[i]? = some entry ∧ family entry.kind = keyFamily key.1 := by
    intro key i hlookup
    obtain ⟨entry, hentry, hfamily⟩ := h.named key i hlookup
    obtain ⟨entry', hentry', hkind⟩ := hkept i entry hentry
    exact ⟨entry', hentry', by rw [hkind, hfamily]⟩
  refine ⟨fun key i hlookup => ?_, huniform⟩
  cases hkey : entryKey update with
  | none =>
      simp only [hkey] at hlookup
      exact hnamed key i hlookup
  | some own =>
      simp only [hkey] at hlookup
      by_cases hown : key = own
      · subst hown
        rw [Finmap.lookup_insert, Option.some.injEq] at hlookup
        subst hlookup
        rw [← entryKey_family hkey]
        exact hindex
      · rw [Finmap.lookup_insert_of_ne _ hown] at hlookup
        exact hnamed key i hlookup

theorem Sound.admitUpdate (h : s.Sound) (update : Value) : (s.admitUpdate update).Sound := by
  rw [Grouping.admitUpdate]
  split
  · exact h
  · cases hindex : s.existing update with
    | some index =>
        obtain ⟨entry, hentry, hfamily⟩ := h.existing hindex
        refine h.insert (fun i former hformer => ?_) ?_ fun e he => ?_
        · refine ⟨if index = i then former.push update else former, ?_, ?_⟩
          · rw [List.getElem?_modify, hformer]
            rfl
          · split <;> rfl
        · refine ⟨entry.push update, ?_, hfamily.symm⟩
          rw [Option.getD_some, List.getElem?_modify, hentry]
          simp
        · rcases mem_modify he with he | ⟨former, hformer, rfl⟩
          · exact h.uniform e he
          · rw [hentry, Option.some.injEq] at hformer
            subst hformer
            exact (h.uniform entry (List.mem_of_getElem? hentry)).push hfamily
    | none =>
        refine h.insert (fun i former hformer => ⟨former, ?_, rfl⟩) ?_ fun e he => ?_
        · exact List.getElem?_append_left (List.getElem?_eq_some_iff.mp hformer).1 ▸ hformer
        · exact ⟨.single update, by simp, rfl⟩
        · rcases List.mem_append.mp he with he | he
          · exact h.uniform e he
          · rw [List.mem_singleton.mp he]
            exact Entry.uniform_single update

/-- The updates of all entries. -/
def updates (entries : List Entry) : List Value := entries.flatMap (·.updates)

@[simp] theorem updates_append (entries later : List Entry) :
    updates (entries ++ later) = updates entries ++ updates later :=
  List.flatMap_append

/-- An update that joins an entry is one more update. -/
theorem updates_modify {entries : List Entry} {entry : Entry} (h : entries[index]? = some entry) :
    (updates (entries.modify index (.push update))).Perm (updates entries ++ [update]) := by
  obtain ⟨hlt, rfl⟩ := List.getElem?_eq_some_iff.mp h
  have hsplit : entries = entries.take index ++ entries[index] :: entries.drop (index + 1) := by
    rw [List.cons_getElem_drop_succ, List.take_append_drop]
  rw [List.modify_eq_take_cons_drop hlt]
  conv => rhs; rw [hsplit]
  simp only [updates, List.flatMap_append, List.flatMap_cons, Entry.push, List.append_assoc]
  exact ((List.perm_append_comm.append_left _)).append_left _

/-- An update that is gathered is one more update of the entries. -/
theorem Sound.updates_admitUpdate (h : s.Sound) (update : Value) :
    (updates (s.admitUpdate update).entries).Perm
      (updates s.entries ++ [update].filter fun u => !control (kind u)) := by
  rw [Grouping.admitUpdate, List.filter_singleton]
  split
  · next hcontrol => simp [hcontrol]
  · next hcontrol =>
      have hkept : (!control (kind update)) = true := by simpa using hcontrol
      rw [hkept]
      cases hindex : s.existing update with
      | some index =>
          obtain ⟨entry, hentry, -⟩ := h.existing hindex
          exact updates_modify hentry
      | none => simp [updates, Entry.single]

end Grouping

theorem group_append (updates : List Value) (update : Value) :
    group (updates ++ [update]) = (group updates).admitUpdate update := by
  rw [group, List.foldl_append]
  rfl

theorem sound_group (updates : List Value) : (group updates).Sound :=
  run_invariant (P := Grouping.Sound) (fun _ update h => h.admitUpdate update) Grouping.sound_empty
    updates

/-- The entries hold the updates that change no control. -/
theorem group_updates (updates : List Value) :
    (Grouping.updates (group updates).entries).Perm
      (updates.filter fun update => !control (kind update)) := by
  induction updates using List.reverseRecOn with
  | nil => exact List.Perm.refl _
  | append_singleton updates update ih =>
      rw [group_append, List.filter_append]
      exact ((sound_group updates).updates_admitUpdate update).trans (ih.append_right _)

/-- Apart from the cleared plans the entries of a turn hold the updates that change no control. -/
theorem entries_updates (updates : List Value) :
    (Grouping.updates (entries updates) ++
      Grouping.updates ((group updates).entries.filter (·.cleared))).Perm
      (updates.filter fun update => !control (kind update)) := by
  rw [← Grouping.updates_append]
  have hsplit := List.filter_append_perm (fun entry : Entry => !entry.cleared)
    (group updates).entries
  simp only [Bool.not_not] at hsplit
  exact (hsplit.flatMap_right _).trans (group_updates updates)

theorem uniform_entries {updates : List Value} {entry : Entry} (h : entry ∈ entries updates) :
    entry.Uniform :=
  (sound_group updates).uniform entry (List.mem_of_mem_filter h)

/-- An entry holds updates of its turn. -/
theorem mem_of_mem_entries {updates : List Value} {entry : Entry} (h : entry ∈ entries updates)
    {update : Value} (hupdate : update ∈ entry.updates) : update ∈ updates := by
  have hmem : update ∈ Grouping.updates (group updates).entries :=
    List.mem_flatMap.mpr ⟨entry, List.mem_of_mem_filter h, hupdate⟩
  exact List.mem_of_mem_filter ((group_updates updates).mem_iff.mp hmem)

end Attyd.Presentation
