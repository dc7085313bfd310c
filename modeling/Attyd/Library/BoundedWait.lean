import Attyd.Library.Machine

/-!
# Bounded waiting

A machine serves parties one after the other and logs whom it served. A party
waits at a rank. If no step raises the rank, and every service of another party
lowers it, then the party is served before its rank is used up, or it has gone.
-/

namespace Attyd

/-- Dropping others from a queue moves nobody back. -/
theorem idxOf_filter_le {α : Type*} [DecidableEq α] {a : α} {p : α → Bool} (ha : p a = true)
    (queue : List α) : (queue.filter p).idxOf a ≤ queue.idxOf a := by
  induction queue with
  | nil => exact Nat.le_refl _
  | cons b queue ih =>
      by_cases hb : b = a
      · rw [hb, List.filter_cons_of_pos ha, List.idxOf_cons_self]
        exact Nat.zero_le _
      · rw [List.idxOf_cons_ne _ hb]
        cases hp : p b with
        | true =>
            rw [List.filter_cons_of_pos hp, List.idxOf_cons_ne _ hb]
            exact Nat.succ_le_succ ih
        | false =>
            rw [List.filter_cons_of_neg (Bool.not_eq_true _ ▸ hp)]
            exact Nat.le_succ_of_le ih

/-- Sending the head of a queue, and those before it, to the back moves the others up. -/
theorem idxOf_rotate_lt {α : Type*} [DecidableEq α] {a b : α} {pre post : List α}
    (hpre : a ∉ pre) (hpost : a ∈ post) (hne : b ≠ a) (back : List α) :
    (post ++ back).idxOf a < (pre ++ b :: post).idxOf a := by
  rw [List.idxOf_append_of_mem hpost, List.idxOf_append_of_notMem hpre, List.idxOf_cons_ne _ hne]
  omega

variable {σ ι β : Type*}

/-- What a step does to a waiting party: it makes it go, leaves it at its rank or
lower, or serves it or serves another and lowers the rank. -/
structure BoundedWait (step : σ → ι → σ) (log : σ → List β) (served : β → Prop)
    (gone waiting : σ → Prop) (rank : σ → Nat) : Prop where
  stays : ∀ s i, gone s → gone (step s i)
  grows : ∀ s i, log s <+: log (step s i)
  step : ∀ s i, waiting s →
    gone (step s i) ∨
      (log (step s i) = log s ∧ waiting (step s i) ∧ rank (step s i) ≤ rank s) ∨
      ∃ b, log (step s i) = log s ++ [b] ∧
        (served b ∨ waiting (step s i) ∧ rank (step s i) < rank s)

namespace BoundedWait

variable {step : σ → ι → σ} {log : σ → List β} {served : β → Prop} {gone waiting : σ → Prop}
  {rank : σ → Nat}

theorem run_grows (h : BoundedWait step log served gone waiting rank) (s : σ)
    (inputs : List ι) : log s <+: log (run step s inputs) := by
  induction inputs generalizing s with
  | nil => exact List.prefix_rfl
  | cons i inputs ih => exact (h.grows s i).trans (ih (step s i))

/-- Over a run a waiting party is served among the first services that its rank counts,
or it has gone, or fewer services than that were made and it still waits. -/
theorem served_within (h : BoundedWait step log served gone waiting rank) {s : σ}
    (hs : waiting s) (inputs : List ι) :
    ∃ services, log (run step s inputs) = log s ++ services ∧
      ((∃ b ∈ services.take (rank s + 1), served b) ∨ gone (run step s inputs) ∨
        waiting (run step s inputs) ∧ services.length ≤ rank s) := by
  induction inputs generalizing s with
  | nil => exact ⟨[], (List.append_nil _).symm, .inr (.inr ⟨hs, Nat.zero_le _⟩)⟩
  | cons i inputs ih =>
      rw [run_cons]
      rcases h.step s i hs with hgone | ⟨hlog, hw, hle⟩ | ⟨b, hlog, hb⟩
      · -- Once gone, the party stays so to the end of the run.
        obtain ⟨services, hservices⟩ := (h.grows s i).trans (h.run_grows (step s i) inputs)
        exact ⟨services, hservices.symm,
          .inr (.inl (run_invariant (fun s i hs => h.stays s i hs) hgone inputs))⟩
      · obtain ⟨services, hservices, hout⟩ := ih hw
        refine ⟨services, by rw [hservices, hlog], ?_⟩
        rcases hout with ⟨b, hb, hserved⟩ | hgone | ⟨hwait, hlen⟩
        · exact .inl ⟨b, List.take_subset_take_left services (Nat.succ_le_succ hle) hb, hserved⟩
        · exact .inr (.inl hgone)
        · exact .inr (.inr ⟨hwait, Nat.le_trans hlen hle⟩)
      · obtain ⟨others, hothers⟩ := h.run_grows (step s i) inputs
        rcases hb with hserved | ⟨hw, hlt⟩
        · refine ⟨b :: others, by rw [← hothers, hlog, List.append_assoc]; rfl, .inl ⟨b, ?_, hserved⟩⟩
          rw [List.take_succ_cons]
          exact List.mem_cons_self
        · obtain ⟨services, hservices, hout⟩ := ih hw
          refine ⟨b :: services, by rw [hservices, hlog, List.append_assoc]; rfl, ?_⟩
          rcases hout with ⟨c, hc, hserved⟩ | hgone | ⟨hwait, hlen⟩
          · refine .inl ⟨c, ?_, hserved⟩
            rw [List.take_succ_cons]
            exact List.mem_cons_of_mem _ (List.take_subset_take_left services hlt hc)
          · exact .inr (.inl hgone)
          · exact .inr (.inr ⟨hwait, Nat.le_trans (Nat.succ_le_succ hlen) hlt⟩)

end BoundedWait

end Attyd
