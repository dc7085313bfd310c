import Attyd.Library.Paths
import Mathlib.Data.Finset.Sort
import Mathlib.Data.String.Basic

/-!
# Walks over the parts of a JSON tree

A walk visits some parts of a tree and may put others in their place. It knows the sites it
visits, which the replacement does not change, and leaves the tree as it is elsewhere. Walks are
put together from the walk to the root by going through fields, items and members, by choosing
on what the walk does not touch, and by walking apart one after the other.

## Implementation notes

The three laws determine what a walk makes of a tree (`eq_modify`), so everything else is
proved from them: replacing twice is replacing once, and only what the visited parts are
replaced by matters.
-/

namespace Attyd.Json

structure Walk where
  sites : Value → List Path
  modify : (Value → Value) → Value → Value
  sites_modify : ∀ f v, sites (modify f v) = sites v
  descend_site : ∀ f v p, p ∈ sites v → (modify f v).descend p = (v.descend p).map f
  frame : ∀ f v p, (∀ q ∈ sites v, ¬q <+: p) → (modify f v).outlineAt p = v.outlineAt p

namespace Walk

variable {v w : Value} {f g : Value → Value}

section Laws

variable (walk : Walk)

/-- The parts of a tree that the walk visits. -/
def parts (v : Value) : List Value := (walk.sites v).filterMap v.descend

theorem mem_parts {walk : Walk} {b : Value} :
    b ∈ walk.parts v ↔ ∃ p ∈ walk.sites v, v.descend p = some b := List.mem_filterMap

/-- Below a site the tree is the replaced part. -/
theorem outlineAt_below {p : Path} (hp : p ∈ walk.sites v) (q : Path) :
    (walk.modify f v).outlineAt (p ++ q) =
      ((v.descend p).map f).bind fun part => part.outlineAt q := by
  rw [Value.outlineAt_append, walk.descend_site f v p hp]

/-- A tree with the replaced parts at the sites and the old outline elsewhere is the one that
the walk makes. -/
theorem eq_modify (hsite : ∀ p ∈ walk.sites v, w.descend p = (v.descend p).map f)
    (hframe : ∀ p, (∀ q ∈ walk.sites v, ¬q <+: p) → w.outlineAt p = v.outlineAt p) :
    w = walk.modify f v := by
  refine Value.eq_of_outlineAt _ _ fun p => ?_
  by_cases h : ∃ q ∈ walk.sites v, q <+: p
  · obtain ⟨q, hq, r, rfl⟩ := h
    rw [walk.outlineAt_below hq, Value.outlineAt_append, hsite q hq]
  · have hnone : ∀ q ∈ walk.sites v, ¬q <+: p := fun q hq hle => h ⟨q, hq, hle⟩
    rw [hframe p hnone, walk.frame f v p hnone]

/-- Only what the visited parts are replaced by matters. -/
theorem modify_congr (h : ∀ b ∈ walk.parts v, f b = g b) : walk.modify f v = walk.modify g v := by
  refine walk.eq_modify (fun p hp => ?_) fun p hnone => walk.frame f v p hnone
  rw [walk.descend_site f v p hp]
  cases hb : v.descend p with
  | none => rfl
  | some b => exact congrArg some (h b (mem_parts.mpr ⟨p, hp, hb⟩))

/-- Replacing twice is replacing once. -/
theorem modify_modify : walk.modify g (walk.modify f v) = walk.modify (fun b => g (f b)) v := by
  refine walk.eq_modify (fun p hp => ?_) fun p hnone => ?_
  · rw [walk.descend_site g _ p (walk.sites_modify f v ▸ hp), walk.descend_site f v p hp,
      Option.map_map]
    rfl
  · rw [walk.frame g _ p fun q hq => hnone q (walk.sites_modify f v ▸ hq), walk.frame f v p hnone]

/-- Off the parts that are replaced by others the tree is as it was. -/
theorem outlineAt_modify {p : Path}
    (h : ∀ q ∈ walk.sites v, q <+: p → ∀ b, v.descend q = some b → f b = b) :
    (walk.modify f v).outlineAt p = v.outlineAt p := by
  by_cases hsite : ∃ q ∈ walk.sites v, q <+: p
  · obtain ⟨q, hq, r, rfl⟩ := hsite
    rw [walk.outlineAt_below hq, Value.outlineAt_append]
    cases hb : v.descend q with
    | none => rfl
    | some b => rw [Option.map_some, h q hq (List.prefix_append q r) b hb]
  · exact walk.frame f v p fun q hq hle => hsite ⟨q, hq, hle⟩

/-- What is neither in nor above a site is as it was. -/
theorem descend_of_apart {p : Path} (h : ∀ q ∈ walk.sites v, ¬q <+: p ∧ ¬p <+: q) :
    (walk.modify f v).descend p = v.descend p := by
  have hbelow : ∀ r, (walk.modify f v).outlineAt (p ++ r) = v.outlineAt (p ++ r) := by
    refine fun r => walk.frame f v _ fun q hq hle => ?_
    rcases List.prefix_or_prefix_of_prefix hle (List.prefix_append p r) with hle | hle
    · exact (h q hq).1 hle
    · exact (h q hq).2 hle
  simp only [Value.outlineAt_append] at hbelow
  cases hv : v.descend p with
  | none =>
      cases hw : (walk.modify f v).descend p with
      | none => rfl
      | some b => simpa [hv, hw] using hbelow []
  | some b =>
      cases hw : (walk.modify f v).descend p with
      | none => simpa [hv, hw] using hbelow []
      | some c =>
          rw [Value.eq_of_outlineAt c b fun r => by simpa [hv, hw] using hbelow r]

end Laws

section Basic

/-- The walk to the root. -/
def here : Walk where
  sites _ := [[]]
  modify f v := f v
  sites_modify _ _ := rfl
  descend_site f v p hp := by
    rw [List.mem_singleton] at hp
    simp [hp]
  frame f v p h := absurd List.nil_prefix (h [] (List.mem_singleton_self []))

/-- The walk that visits nothing. -/
def nothing : Walk where
  sites _ := []
  modify _ v := v
  sites_modify _ _ := rfl
  descend_site _ _ p hp := by cases hp
  frame _ _ _ _ := rfl

/-- The walk through a field. -/
def key (name : String) (walk : Walk) : Walk where
  sites v := (v.get name).elim [] fun part => (walk.sites part).map (.key name :: ·)
  modify f v := (v.get name).elim v fun part => v.set name (walk.modify f part)
  sites_modify f v := by
    cases h : v.get name with
    | none => simp [h]
    | some part =>
        simp only [Option.elim_some]
        rw [Value.get_set_self (Value.isObject_of_get h), Option.elim_some, walk.sites_modify]
  descend_site f v p hp := by
    cases h : v.get name with
    | none => simp [h] at hp
    | some part =>
        rw [h, Option.elim_some, List.mem_map] at hp
        obtain ⟨q, hq, rfl⟩ := hp
        rw [Option.elim_some, Value.descend_cons, Value.descend_cons, Value.child_key,
          Value.child_key, Value.get_set_self (Value.isObject_of_get h), h, Option.bind_some,
          Option.bind_some, walk.descend_site f part q hq]
  frame f v p hp := by
    cases h : v.get name with
    | none => rfl
    | some part =>
        rw [h, Option.elim_some] at hp
        rw [Option.elim_some]
        cases p with
        | nil => simp [Value.outline_set h]
        | cons step p =>
            rw [Value.outlineAt_cons, Value.outlineAt_cons]
            cases step with
            | index position =>
                rw [Value.child_index_of_get h, Value.child_index_of_get
                  (Value.get_set_self (Value.isObject_of_get h) name _)]
            | key other =>
                rw [Value.child_key, Value.child_key]
                by_cases ho : other = name
                · subst ho
                  rw [Value.get_set_self (Value.isObject_of_get h), h, Option.bind_some,
                    Option.bind_some]
                  refine walk.frame f part p fun q hq hle => ?_
                  exact hp (.key other :: q) (List.mem_map_of_mem hq)
                    ((List.prefix_cons_inj _).mpr hle)
                · rw [Value.get_set_of_ne ho]

/-- The walk through the items of an array. -/
def items (walk : Walk) : Walk where
  sites v := (v.asArray.getD []).zipIdx.flatMap fun item =>
    (walk.sites item.1).map (.index item.2 :: ·)
  modify f v := v.asArray.elim v fun items => .array (items.map (walk.modify f))
  sites_modify f v := by
    cases h : v.asArray with
    | none => rw [Option.elim_none, h]
    | some items =>
        simp only [Option.elim_some, Option.getD_some, Value.asArray, List.zipIdx_map,
          List.flatMap_map]
        exact List.flatMap_congr fun item _ => by rw [Prod.map_fst, walk.sites_modify]; rfl
  descend_site f v p hp := by
    cases v with
    | array items =>
        obtain ⟨⟨part, position⟩, hpart, hp⟩ := List.mem_flatMap.mp hp
        obtain ⟨q, hq, rfl⟩ := List.mem_map.mp hp
        have hget : items[position]? = some part := List.mem_zipIdx_iff_getElem?.mp hpart
        rw [Value.descend_cons, Value.descend_cons]
        simp only [Value.asArray, Option.elim_some, Value.child, List.getElem?_map, hget,
          Option.map_some, Option.bind_some]
        exact walk.descend_site f part q hq
    | _ => cases hp
  frame f v p hp := by
    cases v with
    | array items =>
        cases p with
        | nil => simp [Value.asArray, Value.outline]
        | cons step p =>
            rw [Value.outlineAt_cons, Value.outlineAt_cons]
            cases step with
            | key name => rfl
            | index position =>
                simp only [Value.asArray, Option.elim_some, Value.child, List.getElem?_map]
                cases hget : items[position]? with
                | none => rfl
                | some part =>
                    refine walk.frame f part p fun q hq hle => ?_
                    refine hp (.index position :: q) (List.mem_flatMap.mpr ⟨(part, position),
                      List.mem_zipIdx_iff_getElem?.mpr hget, List.mem_map_of_mem hq⟩) ?_
                    exact (List.prefix_cons_inj _).mpr hle
    | _ => rfl

theorem isTrans_names : IsTrans String (· ≤ ·) := inferInstance

theorem antisymm_names : Std.Antisymm (fun a b : String => a ≤ b) := inferInstance

/-- The names of the members of an object, in order. -/
def names (v : Value) : List String :=
  @Finset.sort String v.keys (· ≤ ·) _ isTrans_names antisymm_names _

theorem mem_names {name : String} : name ∈ names v ↔ name ∈ v.keys := Finset.mem_sort _

/-- The walk through the members of an object. -/
def members (walk : Walk) : Walk where
  sites v := (names v).flatMap fun name =>
    (v.get name).elim [] fun part => (walk.sites part).map (.key name :: ·)
  modify f
    | .object keys field => .object keys fun k => walk.modify f (field k)
    | v => v
  sites_modify f v := by
    cases v with
    | object keys field =>
        refine List.flatMap_congr fun name hname => ?_
        have hmem : name ∈ keys := mem_names.mp hname
        simp only [Value.get, dif_pos hmem, Option.elim_some, walk.sites_modify]
    | _ => rfl
  descend_site f v p hp := by
    obtain ⟨name, -, hp⟩ := List.mem_flatMap.mp hp
    cases v with
    | object keys field =>
        by_cases hmem : name ∈ keys
        · simp only [Value.get, dif_pos hmem, Option.elim_some] at hp
          obtain ⟨q, hq, rfl⟩ := List.mem_map.mp hp
          simp only [Value.descend_cons, Value.child, Value.get, dif_pos hmem, Option.bind_some]
          exact walk.descend_site f _ q hq
        · simp [Value.get, hmem] at hp
    | _ => cases hp
  frame f v p hp := by
    cases v with
    | object keys field =>
        cases p with
        | nil => rfl
        | cons step p =>
            rw [Value.outlineAt_cons, Value.outlineAt_cons]
            cases step with
            | index position => rfl
            | key name =>
                by_cases hmem : name ∈ keys
                · simp only [Value.child, Value.get, dif_pos hmem, Option.bind_some]
                  refine walk.frame f _ p fun q hq hle => ?_
                  refine hp (.key name :: q) (List.mem_flatMap.mpr ⟨name,
                    mem_names.mpr hmem, ?_⟩) ((List.prefix_cons_inj _).mpr hle)
                  simp only [Value.get, dif_pos hmem, Option.elim_some]
                  exact List.mem_map_of_mem hq
                · simp [Value.child, Value.get, hmem]
    | _ => rfl

/-- The walk that is chosen by what it leaves alone. -/
def choose (select : Value → Walk)
    (stable : ∀ f v, select ((select v).modify f v) = select v) : Walk where
  sites v := (select v).sites v
  modify f v := (select v).modify f v
  sites_modify f v := by rw [stable, (select v).sites_modify]
  descend_site f v := (select v).descend_site f v
  frame f v := (select v).frame f v

end Basic

section Apart

/-- Neither walk touches what the other one goes by or visits. -/
structure Apart (walk other : Walk) : Prop where
  keeps : ∀ f v, other.sites (walk.modify f v) = other.sites v
  kept : ∀ f v, walk.sites (other.modify f v) = walk.sites v
  beside : ∀ v, ∀ p ∈ walk.sites v, ∀ q ∈ other.sites v, ¬p <+: q ∧ ¬q <+: p

variable {walk other third : Walk}

theorem apart_nothing (walk : Walk) : Apart walk nothing where
  keeps _ _ := rfl
  kept _ _ := rfl
  beside _ _ _ _ hq := by cases hq

/-- One walk after the other. -/
def both (walk other : Walk) (h : Apart walk other) : Walk where
  sites v := walk.sites v ++ other.sites v
  modify f v := other.modify f (walk.modify f v)
  sites_modify f v := by
    rw [h.kept, walk.sites_modify, other.sites_modify, h.keeps]
  descend_site f v p hp := by
    rcases List.mem_append.mp hp with hp | hp
    · rw [other.descend_of_apart fun q hq => ?_, walk.descend_site f v p hp]
      rw [h.keeps] at hq
      exact (h.beside v p hp q hq).symm
    · rw [other.descend_site f _ p (by rw [h.keeps]; exact hp),
        walk.descend_of_apart fun q hq => h.beside v q hq p hp]
  frame f v p hp := by
    rw [other.frame f _ p fun q hq => ?_,
      walk.frame f v p fun q hq => hp q (List.mem_append_left _ hq)]
    rw [h.keeps] at hq
    exact hp q (List.mem_append_right _ hq)

theorem Apart.both (hother : Apart walk other) (hthird : Apart walk third)
    (h : Apart other third) : Apart walk (other.both third h) where
  keeps f v := by
    change other.sites _ ++ third.sites _ = other.sites v ++ third.sites v
    rw [hother.keeps, hthird.keeps]
  kept f v := by
    change walk.sites (third.modify f (other.modify f v)) = _
    rw [hthird.kept, hother.kept]
  beside v p hp q hq := by
    rcases List.mem_append.mp hq with hq | hq
    · exact hother.beside v p hp q hq
    · exact hthird.beside v p hp q hq

theorem sites_key_set {name other : String} (walk : Walk) (h : other ≠ name) (x : Value) :
    (walk.key other).sites (v.set name x) = (walk.key other).sites v := by
  simp only [key, Value.get_set_of_ne h]

theorem sites_key_modify {name other : String} (h : name ≠ other) (walk second : Walk)
    (f : Value → Value) (v : Value) :
    (second.key other).sites ((walk.key name).modify f v) = (second.key other).sites v := by
  cases hv : v.get name with
  | none => simp [key, hv]
  | some part =>
      have hmodify : (walk.key name).modify f v = v.set name (walk.modify f part) := by
        simp [key, hv]
      rw [hmodify, sites_key_set second h.symm]

theorem apart_key {name other : String} (h : name ≠ other) (walk second : Walk) :
    Apart (walk.key name) (second.key other) where
  keeps := sites_key_modify h walk second
  kept := sites_key_modify h.symm second walk
  beside v p hp q hq := by
    cases hv : v.get name with
    | none => simp [key, hv] at hp
    | some part =>
        cases hv' : v.get other with
        | none => simp [key, hv'] at hq
        | some part' =>
            simp only [key, hv, hv', Option.elim_some, List.mem_map] at hp hq
            obtain ⟨p, -, rfl⟩ := hp
            obtain ⟨q, -, rfl⟩ := hq
            simp [List.cons_prefix_cons, h, h.symm]

theorem sites_key_of_modify (name : String) {walk second : Walk}
    (h : ∀ f v, second.sites (walk.modify f v) = second.sites v) (f : Value → Value) (v : Value) :
    (second.key name).sites ((walk.key name).modify f v) = (second.key name).sites v := by
  cases hv : v.get name with
  | none => simp [key, hv]
  | some part =>
      simp only [key, hv, Option.elim_some]
      rw [Value.get_set_self (Value.isObject_of_get hv), Option.elim_some, h]

theorem Apart.key (h : Apart walk other) (name : String) :
    Apart (walk.key name) (other.key name) where
  keeps := sites_key_of_modify name h.keeps
  kept := sites_key_of_modify name h.kept
  beside v p hp q hq := by
    cases hv : v.get name with
    | none => simp [Walk.key, hv] at hp
    | some part =>
        simp only [Walk.key, hv, Option.elim_some, List.mem_map] at hp hq
        obtain ⟨p, hp, rfl⟩ := hp
        obtain ⟨q, hq, rfl⟩ := hq
        simpa [List.prefix_cons_inj] using h.beside part p hp q hq

end Apart

section Fields

/-- The walk through the fields of a pointer. -/
def pointer (path : List String) (walk : Walk) : Walk := path.foldr key walk

/-- Two pointers part at some field. -/
def Diverge : List String → List String → Prop
  | name :: path, other :: path' => name ≠ other ∨ Diverge path path'
  | _, _ => False

instance Diverge.decidable : ∀ path path' : List String, Decidable (Diverge path path')
  | name :: path, other :: path' =>
      have := Diverge.decidable path path'
      inferInstanceAs (Decidable (name ≠ other ∨ Diverge path path'))
  | [], _ => isFalse fun h => h
  | _ :: _, [] => isFalse fun h => h

/-- Walks past the point where two pointers part are apart. -/
theorem apart_pointer {path path' : List String} (h : Diverge path path') (walk other : Walk) :
    Apart (walk.pointer path) (other.pointer path') := by
  induction path generalizing path' with
  | nil => cases h
  | cons name path ih =>
      cases path' with
      | nil => cases h
      | cons name' path' =>
          by_cases hname : name = name'
          · subst hname
            exact (ih (h.resolve_left fun hne => hne rfl)).key name
          · exact apart_key hname _ _

/-- Walks behind pointers that part, one after the other, with what is apart from them. -/
def fieldsAux : (branches : List (List String × Walk)) →
    branches.Pairwise (fun a b => Diverge a.1 b.1) →
      {walk : Walk // ∀ path (other : Walk), (∀ branch ∈ branches, Diverge path branch.1) →
        Apart (other.pointer path) walk}
  | [], _ => ⟨nothing, fun _ _ _ => apart_nothing _⟩
  | branch :: branches, h =>
      let rest := fieldsAux branches (List.pairwise_cons.mp h).2
      have hrest : Apart (branch.2.pointer branch.1) rest.1 :=
        rest.2 branch.1 branch.2 (List.pairwise_cons.mp h).1
      ⟨(branch.2.pointer branch.1).both rest.1 hrest, fun path other hpath =>
        .both (apart_pointer (hpath branch List.mem_cons_self) other branch.2)
          (rest.2 path other fun b hb => hpath b (List.mem_cons_of_mem _ hb)) hrest⟩

/-- Walks behind pointers that part, one after the other. -/
def fields (branches : List (List String × Walk))
    (h : branches.Pairwise fun a b => Diverge a.1 b.1) : Walk := (fieldsAux branches h).1

theorem mem_sites_fields {branches : List (List String × Walk)}
    (h : branches.Pairwise fun a b => Diverge a.1 b.1) {p : Path} :
    p ∈ (fields branches h).sites v ↔
      ∃ branch ∈ branches, p ∈ (branch.2.pointer branch.1).sites v := by
  induction branches with
  | nil =>
      refine iff_of_false (fun hp => by cases hp) ?_
      rintro ⟨branch, hbranch, -⟩
      cases hbranch
  | cons branch branches ih =>
      refine List.mem_append.trans ?_
      rw [List.exists_mem_cons_iff]
      exact or_congr_right (ih (List.pairwise_cons.mp h).2)

end Fields

section Parts

variable {walk : Walk} {b : Value}

theorem mem_parts_here : b ∈ here.parts v ↔ b = v := by
  simp [parts, here]

theorem mem_parts_nothing : b ∉ nothing.parts v := by
  simp [parts, nothing]

theorem mem_parts_choose {select : Value → Walk}
    {stable : ∀ f v, select ((select v).modify f v) = select v} :
    b ∈ (choose select stable).parts v ↔ b ∈ (select v).parts v := Iff.rfl

theorem mem_parts_key {name : String} :
    b ∈ (walk.key name).parts v ↔ ∃ part, v.get name = some part ∧ b ∈ walk.parts part := by
  simp only [mem_parts, key]
  cases h : v.get name with
  | none => simp
  | some part =>
      simp only [Option.elim_some, List.mem_map, Option.some.injEq, exists_eq_left']
      constructor
      · rintro ⟨-, ⟨p, hp, rfl⟩, hb⟩
        exact ⟨p, hp, by simpa [Value.child_key, h] using hb⟩
      · rintro ⟨p, hp, hb⟩
        exact ⟨_, ⟨p, hp, rfl⟩, by simpa [Value.child_key, h] using hb⟩

theorem mem_parts_items :
    b ∈ walk.items.parts v ↔ ∃ xs, v.asArray = some xs ∧ ∃ x ∈ xs, b ∈ walk.parts x := by
  cases v with
  | array xs =>
      simp only [mem_parts, items, Value.asArray, Option.getD_some, Option.some.injEq,
        exists_eq_left', List.mem_flatMap, List.mem_map]
      constructor
      · rintro ⟨-, ⟨⟨x, i⟩, hx, p, hp, rfl⟩, hb⟩
        have hget : xs[i]? = some x := List.mem_zipIdx_iff_getElem?.mp hx
        exact ⟨x, List.mem_of_getElem? hget, p, hp, by simpa [Value.child, hget] using hb⟩
      · rintro ⟨x, hx, p, hp, hb⟩
        obtain ⟨i, hget⟩ := List.mem_iff_getElem?.mp hx
        exact ⟨_, ⟨(x, i), List.mem_zipIdx_iff_getElem?.mpr hget, p, hp, rfl⟩,
          by simpa [Value.child, hget] using hb⟩
  | _ => simp [mem_parts, items, Value.asArray]

theorem mem_parts_members :
    b ∈ walk.members.parts v ↔ ∃ name x, v.get name = some x ∧ b ∈ walk.parts x := by
  simp only [mem_parts, members, List.mem_flatMap]
  constructor
  · rintro ⟨p, ⟨name, -, hp⟩, hb⟩
    cases hx : v.get name with
    | none => simp [hx] at hp
    | some x =>
        rw [hx, Option.elim_some, List.mem_map] at hp
        obtain ⟨q, hq, rfl⟩ := hp
        exact ⟨name, x, hx, q, hq, by simpa [Value.child_key, hx] using hb⟩
  · rintro ⟨name, x, hx, q, hq, hb⟩
    refine ⟨.key name :: q, ⟨name, ?_, ?_⟩, by simpa [Value.child_key, hx] using hb⟩
    · cases v with
      | object keys field => exact mem_names.mpr (Value.mem_keys_of_get hx)
      | _ => cases hx
    · rw [hx, Option.elim_some]
      exact List.mem_map_of_mem hq

theorem mem_parts_pointer {path : List String} :
    b ∈ (walk.pointer path).parts v ↔
      ∃ part, v.pointer path = some part ∧ b ∈ walk.parts part := by
  induction path generalizing v with
  | nil => simp [pointer, Value.pointer]
  | cons name path ih =>
      change b ∈ ((walk.pointer path).key name).parts v ↔ _
      simp only [mem_parts_key, ih, Value.pointer, List.foldlM_cons, Option.bind_eq_bind,
        Option.bind_eq_some_iff]
      constructor
      · rintro ⟨x, hx, part, hpart, hb⟩
        exact ⟨part, ⟨x, hx, hpart⟩, hb⟩
      · rintro ⟨part, ⟨x, hx, hpart⟩, hb⟩
        exact ⟨x, hx, part, hpart, hb⟩

theorem mem_parts_fields {branches : List (List String × Walk)}
    {h : branches.Pairwise fun a b => Diverge a.1 b.1} :
    b ∈ (fields branches h).parts v ↔
      ∃ branch ∈ branches, ∃ part, v.pointer branch.1 = some part ∧ b ∈ branch.2.parts part := by
  calc b ∈ (fields branches h).parts v
      ↔ ∃ branch ∈ branches, b ∈ (branch.2.pointer branch.1).parts v := by
        simp only [mem_parts, mem_sites_fields]
        constructor
        · rintro ⟨p, ⟨branch, hbranch, hp⟩, hb⟩
          exact ⟨branch, hbranch, p, hp, hb⟩
        · rintro ⟨branch, hbranch, p, hp, hb⟩
          exact ⟨p, ⟨branch, hbranch, hp⟩, hb⟩
    _ ↔ _ := by simp only [mem_parts_pointer]

/-- A field that no branch goes through is left alone. -/
theorem get_modify_fields {branches : List (List String × Walk)}
    (h : branches.Pairwise fun a b => Diverge a.1 b.1) {name : String}
    (hname : ∀ branch ∈ branches, branch.1 ≠ [] ∧ branch.1.head? ≠ some name) :
    ((fields branches h).modify f v).get name = v.get name := by
  have hapart := (fields branches h).descend_of_apart (v := v) (f := f) (p := [.key name])
    fun q hq => ?_
  · simpa [Value.child_key] using hapart
  · obtain ⟨⟨path, walk⟩, hbranch, hq⟩ := (mem_sites_fields h).mp hq
    obtain ⟨hne, hhead⟩ := hname _ hbranch
    cases path with
    | nil => exact absurd rfl hne
    | cons other path =>
        have hother : other ≠ name := fun he => hhead (congrArg some he)
        change q ∈ ((walk.pointer path).key other).sites v at hq
        simp only [key] at hq
        cases hx : v.get other with
        | none => simp [hx] at hq
        | some x =>
            rw [hx, Option.elim_some, List.mem_map] at hq
            obtain ⟨q, -, rfl⟩ := hq
            simp [List.cons_prefix_cons, hother, hother.symm]

end Parts

end Walk

end Attyd.Json
