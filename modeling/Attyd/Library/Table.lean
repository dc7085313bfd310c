import Mathlib.Algebra.BigOperators.Group.Multiset.Basic
import Mathlib.Data.Finmap

/-!
# Finite tables

A table is a finite map with values of one type, equal to another exactly when
all lookups agree. Lookups, insertion and removal are those of `Finmap`.
-/

namespace Attyd

/-- A finite map from keys to values of one type. -/
abbrev Table (κ α : Type*) := Finmap fun _ : κ => α

namespace Table

variable {κ α : Type*}

/-- The entries that pass a test. -/
def retain (keep : κ → α → Bool) (t : Table κ α) : Table κ α :=
  ⟨t.entries.filter fun e => keep e.1 e.2, by
    obtain ⟨entries, hn⟩ := t
    induction entries using Quotient.inductionOn with
    | h l => exact List.NodupKeys.sublist List.filter_sublist hn⟩

/-- The sum of a weight over all values. -/
def total (weight : α → Nat) (t : Table κ α) : Nat := (t.entries.map fun e => weight e.2).sum

variable {β : Type*} [DecidableEq κ]

/-- What a table shows of its values under each key. -/
def view (f : α → β) (t : Table κ α) : κ → Option β := fun key => (t.lookup key).map f

theorem view_insert (f : α → β) (t : Table κ α) (key : κ) (a : α) :
    view f (t.insert key a) = Function.update (view f t) key (some (f a)) := by
  funext other
  by_cases ho : other = key
  · subst ho
    simp [view]
  · simp [view, Finmap.lookup_insert_of_ne _ ho, Function.update_of_ne ho]

theorem view_erase (f : α → β) (t : Table κ α) (key : κ) :
    view f (t.erase key) = Function.update (view f t) key none := by
  funext other
  by_cases ho : other = key
  · subst ho
    simp [view]
  · simp [view, Finmap.lookup_erase_ne ho, Function.update_of_ne ho]

/-- A key that is absent can be erased. -/
theorem erase_of_lookup_none {t : Table κ α} {key : κ} (h : t.lookup key = none) :
    t.erase key = t := by
  refine Finmap.ext_lookup fun other => ?_
  by_cases ho : other = key
  · rw [ho, Finmap.lookup_erase, h]
  · rw [Finmap.lookup_erase_ne ho]

section Sum

variable {M : Type*} [AddCommMonoid M]

/-- The sum of what every value is worth. -/
def sum (worth : α → M) (t : Table κ α) : M := (t.entries.map fun e => worth e.2).sum

omit [DecidableEq κ] in
@[simp] theorem sum_empty (worth : α → M) : sum worth (∅ : Table κ α) = 0 := rfl

theorem sum_insert_of_lookup_none (worth : α → M) {t : Table κ α} {key : κ} (a : α)
    (h : t.lookup key = none) : sum worth (t.insert key a) = worth a + sum worth t := by
  have hmem : key ∉ t := Finmap.lookup_eq_none.mp h
  rw [sum, Finmap.entries_insert_of_notMem hmem, Multiset.map_cons, Multiset.sum_cons]
  rfl

/-- A table is one of its values and the rest. -/
theorem sum_erase (worth : α → M) {t : Table κ α} {key : κ} {a : α}
    (h : t.lookup key = some a) : sum worth t = worth a + sum worth (t.erase key) := by
  have hrest : (t.erase key).lookup key = none := Finmap.lookup_erase key t
  rw [← sum_insert_of_lookup_none worth a hrest]
  congr 1
  refine Finmap.ext_lookup fun other => ?_
  by_cases ho : other = key
  · subst ho
    rw [Finmap.lookup_insert, h]
  · rw [Finmap.lookup_insert_of_ne _ ho, Finmap.lookup_erase_ne ho]

/-- A table is what it has under a key, if anything, and the rest. -/
theorem sum_split (worth : α → M) (t : Table κ α) (key : κ) :
    sum worth t = (t.lookup key).elim 0 worth + sum worth (t.erase key) := by
  cases h : t.lookup key with
  | some a => exact sum_erase worth h
  | none => rw [erase_of_lookup_none h, Option.elim_none, zero_add]

/-- A value that is written counts beside the rest. -/
theorem sum_insert (worth : α → M) (t : Table κ α) (key : κ) (a : α) :
    sum worth (t.insert key a) = worth a + sum worth (t.erase key) := by
  rw [sum_erase worth (Finmap.lookup_insert t)]
  congr 2
  refine Finmap.ext_lookup fun other => ?_
  by_cases ho : other = key
  · subst ho
    rw [Finmap.lookup_erase, Finmap.lookup_erase]
  · rw [Finmap.lookup_erase_ne ho, Finmap.lookup_erase_ne ho, Finmap.lookup_insert_of_ne _ ho]

omit [DecidableEq κ] in
/-- The values that pass a test and the ones that fail it make up the whole. -/
theorem sum_retain (worth : α → M) (t : Table κ α) (keep : κ → α → Bool) :
    sum worth t = sum worth (t.retain fun key a => !keep key a) + sum worth (t.retain keep) := by
  have hall : t.entries =
      (t.retain fun key a => !keep key a).entries + (t.retain keep).entries := by
    change _ = t.entries.filter (fun e => (!keep e.1 e.2) = true) +
      t.entries.filter fun e => keep e.1 e.2 = true
    simp only [Bool.not_eq_true', ← Bool.not_eq_true]
    rw [add_comm, Multiset.filter_add_not]
  rw [sum, sum, sum, ← Multiset.sum_add, ← Multiset.map_add, ← hall]

end Sum

section Map

/-- The table of what its values show. -/
def map (f : α → β) (t : Table κ α) : Table κ β :=
  ⟨t.entries.map fun e => ⟨e.1, f e.2⟩, by
    obtain ⟨entries, hn⟩ := t
    induction entries using Quotient.inductionOn with
    | h l =>
        change ((l.map fun e : Σ _ : κ, α => (⟨e.1, f e.2⟩ : Σ _ : κ, β)).map Sigma.fst).Nodup
        rw [List.map_map]
        exact hn⟩

@[simp] theorem lookup_map (f : α → β) (t : Table κ α) (key : κ) :
    (map f t).lookup key = (t.lookup key).map f := by
  cases h : t.lookup key with
  | some a =>
      have hmem := Finmap.lookup_eq_some_iff.mp h
      exact Finmap.lookup_eq_some_iff.mpr (Multiset.mem_map.mpr ⟨_, hmem, rfl⟩)
  | none =>
      cases hb : (map f t).lookup key with
      | none => rfl
      | some b =>
          obtain ⟨e, he, heq⟩ := Multiset.mem_map.mp (Finmap.lookup_eq_some_iff.mp hb)
          have hkey : e.1 = key := congrArg Sigma.fst heq
          have hlookup : t.lookup e.1 = some e.2 := Finmap.lookup_eq_some_iff.mpr he
          rw [hkey, h] at hlookup
          cases hlookup

end Map

section Collect

/-- What a table says of each of its entries. -/
def collect (f : κ → α → β) (t : Table κ α) : Multiset β := t.entries.map fun e => f e.1 e.2

omit [DecidableEq κ] in
@[simp] theorem collect_empty (f : κ → α → β) : collect f (∅ : Table κ α) = 0 := rfl

theorem collect_insert_of_lookup_none (f : κ → α → β) {t : Table κ α} {key : κ} (a : α)
    (h : t.lookup key = none) : collect f (t.insert key a) = f key a ::ₘ collect f t := by
  have hmem : key ∉ t := Finmap.lookup_eq_none.mp h
  rw [collect, Finmap.entries_insert_of_notMem hmem, Multiset.map_cons]
  rfl

theorem insert_erase_of_lookup {t : Table κ α} {key : κ} {a : α} (h : t.lookup key = some a) :
    (t.erase key).insert key a = t := by
  refine Finmap.ext_lookup fun other => ?_
  by_cases ho : other = key
  · rw [ho, Finmap.lookup_insert, h]
  · rw [Finmap.lookup_insert_of_ne _ ho, Finmap.lookup_erase_ne ho]

theorem collect_erase (f : κ → α → β) {t : Table κ α} {key : κ} {a : α}
    (h : t.lookup key = some a) : collect f t = f key a ::ₘ collect f (t.erase key) := by
  rw [← collect_insert_of_lookup_none f a (Finmap.lookup_erase key t), insert_erase_of_lookup h]

theorem collect_erase_le (f : κ → α → β) {t : Table κ α} {key : κ} {a : α}
    (h : t.lookup key = some a) : collect f (t.erase key) ≤ collect f t := by
  rw [collect_erase f h]
  exact Multiset.le_cons_self _ _

/-- Writing a key again changes what is said of it alone. -/
theorem collect_insert_of_lookup (f : κ → α → β) {t : Table κ α} {key : κ} {a : α} (b : α)
    (h : t.lookup key = some a) (hf : f key b = f key a) :
    collect f (t.insert key b) = collect f t := by
  have herase : (t.insert key b).erase key = t.erase key := by
    refine Finmap.ext_lookup fun other => ?_
    by_cases ho : other = key
    · rw [ho, Finmap.lookup_erase, Finmap.lookup_erase]
    · rw [Finmap.lookup_erase_ne ho, Finmap.lookup_erase_ne ho, Finmap.lookup_insert_of_ne _ ho]
  rw [collect_erase f (Finmap.lookup_insert t), herase, hf, ← collect_erase f h]

omit [DecidableEq κ] in
theorem collect_retain (f : κ → α → β) (t : Table κ α) (keep : κ → α → Bool) :
    collect f t = collect f (t.retain keep) + collect f (t.retain fun key a => !keep key a) := by
  change t.entries.map _ = (t.entries.filter fun e => keep e.1 e.2 = true).map _ +
    (t.entries.filter fun e => (!keep e.1 e.2) = true).map _
  simp only [Bool.not_eq_true', ← Bool.not_eq_true]
  rw [← Multiset.map_add, Multiset.filter_add_not]

theorem mem_collect {f : κ → α → β} {t : Table κ α} {b : β} :
    b ∈ collect f t ↔ ∃ key a, t.lookup key = some a ∧ f key a = b := by
  constructor
  · intro h
    obtain ⟨e, he, hb⟩ := Multiset.mem_map.mp h
    exact ⟨e.1, e.2, Finmap.lookup_eq_some_iff.mpr he, hb⟩
  · rintro ⟨key, a, h, hb⟩
    exact Multiset.mem_map.mpr ⟨⟨key, a⟩, Finmap.lookup_eq_some_iff.mp h, hb⟩

end Collect

theorem lookup_retain_eq_some {t : Table κ α} {keep : κ → α → Bool} {key : κ} {a : α} :
    (t.retain keep).lookup key = some a ↔ t.lookup key = some a ∧ keep key a = true := by
  rw [Finmap.lookup_eq_some_iff, Finmap.lookup_eq_some_iff]
  exact Multiset.mem_filter

theorem lookup_retain (t : Table κ α) (keep : κ → α → Bool) (key : κ) :
    (t.retain keep).lookup key = (t.lookup key).filter (keep key) := by
  refine Option.ext fun a => ?_
  rw [lookup_retain_eq_some, Option.filter_eq_some_iff]

theorem retain_insert {t : Table κ α} {keep : κ → α → Bool} {key : κ} {a : α}
    (h : keep key a = true) : retain keep (t.insert key a) = (t.retain keep).insert key a := by
  refine Finmap.ext_lookup fun other => ?_
  by_cases ho : other = key
  · rw [ho, lookup_retain, Finmap.lookup_insert, Finmap.lookup_insert, Option.filter_some, if_pos h]
  · rw [lookup_retain, Finmap.lookup_insert_of_ne _ ho, Finmap.lookup_insert_of_ne _ ho,
      lookup_retain]

theorem retain_erase (t : Table κ α) (keep : κ → α → Bool) (key : κ) :
    retain keep (t.erase key) = (t.retain keep).erase key := by
  refine Finmap.ext_lookup fun other => ?_
  by_cases ho : other = key
  · rw [ho, lookup_retain, Finmap.lookup_erase, Finmap.lookup_erase, Option.filter_none]
  · rw [lookup_retain, Finmap.lookup_erase_ne ho, Finmap.lookup_erase_ne ho, lookup_retain]

/-- A sum of multisets has what one of the values has. -/
theorem mem_sum {β : Type*} {worth : α → Multiset β} {t : Table κ α} {b : β} :
    b ∈ sum worth t ↔ ∃ key a, t.lookup key = some a ∧ b ∈ worth a := by
  constructor
  · intro h
    obtain ⟨bs, hbs, hb⟩ := Multiset.mem_join.mp h
    obtain ⟨e, he, rfl⟩ := Multiset.mem_map.mp hbs
    exact ⟨e.1, e.2, Finmap.lookup_eq_some_iff.mpr he, hb⟩
  · rintro ⟨key, a, ha, hb⟩
    rw [sum_erase worth ha]
    exact Multiset.mem_add.mpr (.inl hb)

omit [DecidableEq κ] in
private theorem foldl_or (f : κ → α → Bool) (l : List (Σ _ : κ, α)) (b : Bool) :
    l.foldl (fun x e => x || f e.1 e.2) b = (b || l.any fun e => f e.1 e.2) := by
  induction l generalizing b with
  | nil => simp
  | cons e l ih => rw [List.foldl_cons, ih, List.any_cons, Bool.or_assoc]

theorem any_eq_true {t : Table κ α} {f : κ → α → Bool} :
    t.any f = true ↔ ∃ key a, t.lookup key = some a ∧ f key a = true := by
  have hany : t.any f = true ↔ ∃ e ∈ t.entries, f e.1 e.2 = true := by
    obtain ⟨entries, hn⟩ := t
    induction entries using Quotient.inductionOn with
    | h l =>
        change l.foldl (fun x e => x || f e.1 e.2) false = true ↔ _
        rw [foldl_or, Bool.false_or, List.any_eq_true]
        rfl
  rw [hany]
  constructor
  · rintro ⟨e, he, hf⟩
    exact ⟨e.1, e.2, Finmap.lookup_eq_some_iff.mpr he, hf⟩
  · rintro ⟨key, a, ha, hf⟩
    exact ⟨⟨key, a⟩, Finmap.lookup_eq_some_iff.mp ha, hf⟩

end Table

end Attyd
