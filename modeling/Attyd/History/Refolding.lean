import Attyd.History.Changes
import Attyd.History.Published

/-!
# Folding a folded history again

Every entry of a folded history is one that no earlier entry answers for. So a second fold opens
each of them again, unless two text chunks stand side by side that the first fold never saw
together: it joins these.

## Implementation notes

`Settled` is kept by every change; it is read off prefix by prefix, as the second fold meets them.
-/

namespace Attyd.History

open Json (Value)
open HistoryBuilder (turnStart_replace turnStart_remove turnStart_snoc countP_drop_replace)

/-- Each entry is fresh behind the entries before it. -/
def Settled (updates : List Value) : Prop :=
  ∀ pre entry, pre ++ [entry] <+: updates → Fresh (turnStart pre) pre entry

theorem settled_nil : Settled [] := by
  intro pre entry h
  simp at h

theorem settled_snoc {updates : List Value} {entry : Value} :
    Settled (updates ++ [entry]) ↔ Settled updates ∧ Fresh (turnStart updates) updates entry := by
  constructor
  · intro h
    exact ⟨fun pre other hpre => h pre other (hpre.trans (List.prefix_append _ _)),
      h updates entry (List.prefix_refl _)⟩
  · rintro ⟨hsettled, hfresh⟩ pre other hpre
    rcases List.prefix_concat_iff.mp hpre with heq | hpre
    · obtain ⟨rfl, hentry⟩ := List.append_inj' heq rfl
      obtain rfl := List.singleton_inj.mp hentry
      exact hfresh
    · exact hsettled pre other hpre

section Replace

variable {pre post : List Value} {old new entry : Value}

/-- An entry of the same role is as fresh. -/
theorem Fresh.replace {start : Nat} {retained : List Value} (h : Fresh start retained old)
    (role : SameRole old new) (hkind : updateKind new ≠ .planRemoved)
    (hpatch : updateKind new = .toolCallUpdate → updateKind old = .toolCallUpdate) :
    Fresh start retained new where
  kind := hkind
  tool id ht := h.tool id ((role.tool id).symm.trans ht)
  patch id ht hk := h.patch id ((role.tool id).symm.trans ht) (hpatch hk)
  plan hp := h.plan (role.plan.symm.trans hp)
  planUpdate id hp := h.planUpdate id ((role.planUpdate id).symm.trans hp)

/-- An entry is as fresh behind an entry of the same role. -/
theorem Fresh.behind_replace
    (h : Fresh (turnStart (pre ++ old :: post)) (pre ++ old :: post) entry)
    (role : SameRole old new) :
    Fresh (turnStart (pre ++ new :: post)) (pre ++ new :: post) entry := by
  rw [turnStart_replace role]
  refine ⟨h.kind, fun id ht => ?_, fun id ht hk => ?_, fun hp => ?_, fun id hp => ?_⟩
  · rw [countP_drop_replace (role.tool id)]
    exact h.tool id ht
  · have hall := h.patch id ht hk
    rw [← List.drop_zero (l := pre ++ old :: post)] at hall
    rw [← List.drop_zero (l := pre ++ new :: post), countP_drop_replace (role.tool id)]
    exact hall
  · rw [countP_drop_replace role.plan]
    exact h.plan hp
  · rw [countP_drop_replace (role.planUpdate id)]
    exact h.planUpdate id hp

theorem Settled.replace (h : Settled (pre ++ old :: post)) (role : SameRole old new)
    (hkind : updateKind new ≠ .planRemoved)
    (hpatch : updateKind new = .toolCallUpdate → updateKind old = .toolCallUpdate) :
    Settled (pre ++ new :: post) := by
  induction post using List.reverseRecOn with
  | nil =>
      obtain ⟨hpre, hfresh⟩ := settled_snoc.mp h
      exact settled_snoc.mpr ⟨hpre, hfresh.replace role hkind hpatch⟩
  | append_singleton post entry ih =>
      rw [← List.cons_append, ← List.append_assoc] at h ⊢
      obtain ⟨hpre, hfresh⟩ := settled_snoc.mp h
      exact settled_snoc.mpr ⟨ih hpre, hfresh.behind_replace role⟩

/-- An entry is as fresh when a plan of the last turn before it is dropped. -/
theorem Fresh.behind_remove (huser : isUserChunk old = false)
    (h : Fresh (turnStart (pre ++ old :: post)) (pre ++ old :: post) entry)
    (hturn : turnStart (pre ++ old :: post) ≤ pre.length) :
    Fresh (turnStart (pre ++ post)) (pre ++ post) entry := by
  rw [turnStart_remove huser hturn]
  generalize turnStart (pre ++ old :: post) = n at h hturn
  have hnone : ∀ {p : Value → Bool} {m : Nat}, m ≤ pre.length →
      ((pre ++ old :: post).drop m).countP p = 0 → ((pre ++ post).drop m).countP p = 0 := by
    intro p m hm hzero
    rw [List.drop_append_of_le_length hm] at hzero ⊢
    have hsub : (pre.drop m ++ post).Sublist (pre.drop m ++ old :: post) :=
      (List.sublist_cons_self old post).append_left _
    exact Nat.le_zero.mp (hzero ▸ hsub.countP_le)
  refine ⟨h.kind, fun id ht => hnone hturn (h.tool id ht), fun id ht hk => ?_,
    fun hp => hnone hturn (h.plan hp), fun id hp => hnone hturn (h.planUpdate id hp)⟩
  exact hnone (Nat.zero_le _) (h.patch id ht hk)

theorem Settled.remove (h : Settled (pre ++ old :: post)) (huser : isUserChunk old = false)
    (hturn : turnStart (pre ++ old :: post) ≤ pre.length) : Settled (pre ++ post) := by
  induction post using List.reverseRecOn with
  | nil =>
      rw [List.append_nil]
      exact (settled_snoc.mp h).1
  | append_singleton post entry ih =>
      rw [← List.cons_append, ← List.append_assoc] at h hturn
      rw [← List.append_assoc]
      obtain ⟨hpre, hfresh⟩ := settled_snoc.mp h
      have hbefore : turnStart (pre ++ old :: post) ≤ pre.length := by
        rw [turnStart_snoc] at hturn
        split at hturn
        · simp only [List.length_append, List.length_cons] at hturn
          omega
        · exact hturn
      exact settled_snoc.mpr ⟨ih hpre hbefore, hfresh.behind_remove huser hbefore⟩

end Replace

/-! ## What a folded history is -/

section Fold

variable {retained updates folded : List Value} {update : Value}

/-- Every change keeps a history settled. -/
theorem Changes.settled {e : Edit Value} (h : Changes (turnStart retained) retained update e)
    (hs : Settled retained) : Settled (e.apply retained) := by
  cases h with
  | push valid fresh apart => exact settled_snoc.mpr ⟨hs, fresh⟩
  | @join pre last s t split old new shape =>
      subst split
      rw [Edit.apply_put_middle]
      refine hs.replace (.of_setText old _) ?_ ?_ <;>
      · rw [updateKind_setText]
        intro hk
        have htext := old.kind
        rw [hk] at htext
        cases htext
  | @patch pre post target toolCallId split tool reads inside =>
      subst split
      rw [Edit.apply_put_middle]
      have hu := isObject_of_reads_tool reads
      refine hs.replace (.of_patchedTool tool hu) ?_ ?_
      · intro hk
        have htool := (isToolOf_iff.mp (isToolOf_patchedTool tool hu)).1
        rw [hk] at htool
        cases htool
      · rw [updateKind_patchedTool (isObject_of_isToolOf tool) hu]
        split
        · intro hk
          cases hk
        · exact id
  | @slot pre post old split behind same valid =>
      subst split
      rw [Edit.apply_put_middle]
      refine hs.replace same.role ?_ ?_ <;>
      · rcases same with ⟨-, hplan⟩ | ⟨id, -, hplan⟩
        · rw [isPlan_iff.mp hplan]
          intro hk
          cases hk
        · rw [(isPlanUpdateOf_iff.mp hplan).1]
          intro hk
          cases hk
  | @erase pre post old planId split behind plan kind =>
      subst split
      rw [Edit.apply_erase_middle]
      refine hs.remove ?_ behind
      simp [isUserChunk, (isPlanUpdateOf_iff.mp plan).1]
  | keep kind => exact hs

theorem foldHistoryUpdate_settled (hv : ValidHistory retained) (hs : Settled retained)
    (h : foldHistoryUpdate retained update = .ok folded) : Settled folded := by
  obtain ⟨reading, -, hchanges, rfl⟩ := exists_changes_of_foldHistoryUpdate hv h
  exact hchanges.settled hs

theorem IsFold.settled (h : IsFold updates) : Settled updates := by
  obtain ⟨raw, hraw⟩ := h
  have hnil : ValidHistory [] ∧ Settled [] := ⟨by simp [ValidHistory], settled_nil⟩
  refine (foldlM_invariant (P := fun xs => ValidHistory xs ∧ Settled xs) ?_ hnil hraw).2
  intro retained update folded hs hf
  exact ⟨foldHistoryUpdate_valid hs.1 hf, foldHistoryUpdate_settled hs.1 hs.2 hf⟩

/-- A change adds an entry at most, and only by opening one. -/
theorem Changes.length_le {start : Nat} {e : Edit Value} (h : Changes start retained update e) :
    (e.apply retained).length ≤ retained.length ∨
      e = .push update ∧ ∀ last ∈ retained.getLast?, ¬Joins last update := by
  cases h with
  | push valid fresh apart => exact .inr ⟨rfl, apart⟩
  | join | patch | slot => exact .inl (by rw [Edit.apply_put, List.length_set])
  | erase => exact .inl (List.length_eraseIdx_le _ _)
  | keep => exact .inl (Nat.le_refl _)

private theorem countP_ne_zero {p : Value → Bool} {pre post : List Value} {old : Value}
    {start : Nat} (hbehind : start ≤ pre.length) (hold : p old = true) :
    ((pre ++ old :: post).drop start).countP p ≠ 0 := by
  rw [List.drop_append_of_le_length hbehind, List.countP_append, List.countP_cons_of_pos hold]
  omega

/-- A fresh entry that does not join the last one is opened again. -/
theorem Changes.eq_push {start : Nat} {e : Edit Value} (h : Changes start retained update e)
    (hfresh : Fresh start retained update)
    (hapart : ∀ last ∈ retained.getLast?, ¬Joins last update) : e = .push update := by
  cases h with
  | push => rfl
  | @join pre last s t split old new shape =>
      exact absurd ⟨s, t, old, new, shape⟩ (hapart last (by simp [split]))
  | patch split tool reads inside =>
      subst split
      have hupdate := isToolOf_of_reads reads
      rcases inside with hk | hbehind
      · exact absurd (hfresh.patch _ hupdate hk) (countP_ne_zero (Nat.zero_le _) tool)
      · exact absurd (hfresh.tool _ hupdate) (countP_ne_zero hbehind tool)
  | slot split behind same valid =>
      subst split
      rcases same with ⟨hold, hplan⟩ | ⟨id, hold, hplan⟩
      · exact absurd (hfresh.plan hplan) (countP_ne_zero behind hold)
      · exact absurd (hfresh.planUpdate id hplan) (countP_ne_zero behind hold)
  | erase split behind plan kind => exact absurd kind hfresh.kind
  | keep kind => exact absurd kind hfresh.kind

theorem length_normalizeHistoryUpdates_le {raw : List Value}
    (h : normalizeHistoryUpdates raw = .ok folded) : folded.length ≤ raw.length := by
  induction raw using List.reverseRecOn generalizing folded with
  | nil =>
      cases h
      exact Nat.le_refl _
  | append_singleton raw update ih =>
      obtain ⟨retained, hraw, hf⟩ := foldlM_snoc_eq_ok.mp h
      have hle := ih hraw
      obtain ⟨reading, -, hchanges, rfl⟩ :=
        exists_changes_of_foldHistoryUpdate (IsFold.valid ⟨raw, hraw⟩) hf
      rw [List.length_append, List.length_singleton]
      rcases hchanges.length_le with hlength | ⟨hpush, -⟩
      · omega
      · rw [hpush, Edit.apply_push, List.length_append, List.length_singleton]
        omega

/-- The last entry is given back where it does not join the one before it. -/
theorem normalizeHistoryUpdates_snoc {entry : Value} (hvalid : ValidHistory updates)
    (hentry : Valid entry) (hfresh : Fresh (turnStart updates) updates entry) :
    normalizeHistoryUpdates (updates ++ [entry]) = .ok (updates ++ [entry]) ↔
      normalizeHistoryUpdates updates = .ok updates ∧
        ∀ last ∈ updates.getLast?, ¬Joins last entry := by
  constructor
  · intro h
    obtain ⟨retained, hretained, hf⟩ := foldlM_snoc_eq_ok.mp h
    obtain ⟨reading, -, hchanges, hfolded⟩ :=
      exists_changes_of_foldHistoryUpdate (IsFold.valid ⟨updates, hretained⟩) hf
    have hle := length_normalizeHistoryUpdates_le hretained
    rcases hchanges.length_le with hlength | ⟨hpush, hapart⟩
    · rw [← hfolded, List.length_append, List.length_singleton] at hlength
      omega
    · rw [hpush, Edit.apply_push] at hfolded
      obtain rfl := (List.append_inj' hfolded rfl).1
      exact ⟨hretained, hapart⟩
  · rintro ⟨hupdates, hapart⟩
    refine foldlM_snoc_eq_ok.mpr ⟨updates, hupdates, ?_⟩
    obtain ⟨reading, hreads⟩ := hentry
    rw [foldHistoryUpdate_eq hvalid, readUpdate_eq_ok.mpr hreads]
    have hpush := (historyPlace_changes hreads).eq_push hfresh hapart
    simp only [Except.map, hpush, Edit.apply_push]

/-- A second fold gives a folded history back exactly where no two neighbours join. -/
theorem normalizeHistoryUpdates_self_iff (h : IsFold updates) :
    normalizeHistoryUpdates updates = .ok updates ↔
      updates.IsChain fun previous next => ¬Joins previous next := by
  have hvalid := h.valid
  have hsettled := h.settled
  clear h
  induction updates using List.reverseRecOn with
  | nil => exact iff_of_true rfl .nil
  | append_singleton updates entry ih =>
      obtain ⟨hbefore, hfresh⟩ := settled_snoc.mp hsettled
      have hvalid' : ValidHistory updates := fun x hx => hvalid x (List.mem_append_left _ hx)
      have hentry : Valid entry := hvalid entry (by simp)
      rw [normalizeHistoryUpdates_snoc hvalid' hentry hfresh, List.isChain_append]
      refine (and_congr_left' (ih hvalid' hbefore)).trans (and_congr_right' ?_)
      simp

end Fold

end Attyd.History
