import Attyd.Attachments.Blocks

/-!
# What projection does to a view

A block with inline content becomes a link that names it, and a link is left alone, so
projecting twice is projecting once. The owner of a view is none of its blocks. A lookup finds
the block that a link names when no other visited block has its hash.
-/

namespace Attyd.Attachments

open Json (Value Walk Path)
open Json.Walk

section Blocks

variable {hash : Value → String} {owner : SessionResourceOwner} {block : Value}

/-- The fields of a link, with the annotations of the block it stands for. -/
theorem get_projectBlock {content : Value} (h : resource block = some content) {field : String}
    (hfield : field ≠ "annotations") :
    (projectBlock hash owner block).get field =
      (Value.ofFields
        [("type", .string "resource_link"), ("name", .string (name content)),
          ("size", .ofNat (size content)),
          ("uri", .string ((content.getStr "uri").getD ("attyd://attachment/" ++ hash block))),
          ("mimeType", .string (mimeType content)),
          ("_meta", .ofFields [(referenceKey, AttachmentReference.toValue
            ⟨hash block, owner.sessionId, owner.epoch, owner.incarnation⟩)])]).get field := by
  simp only [projectBlock, h]
  cases block.get "annotations" with
  | none => rfl
  | some annotations => exact Value.get_set_of_ne hfield _ _

theorem index_type_projectBlock {content : Value} (h : resource block = some content) :
    (projectBlock hash owner block).index "type" = .string "resource_link" := by
  rw [Value.index, get_projectBlock h (by decide), Value.get_ofFields]
  rfl

theorem resource_of_link (h : block.index "type" = .string "resource_link") :
    resource block = none := by
  simp [resource, h, Value.asStr]

/-- What a block is projected to has no inline content. -/
theorem resource_projectBlock (hash : Value → String) (owner : SessionResourceOwner)
    (block : Value) : resource (projectBlock hash owner block) = none := by
  cases h : resource block with
  | none => simp [projectBlock, h]
  | some content => exact resource_of_link (index_type_projectBlock h)

theorem projectBlock_of_none (h : resource block = none) :
    projectBlock hash owner block = block := by
  simp only [projectBlock, h]

/-- A reference is read back from the object it was written to. -/
theorem ofValue_toValue {ref : AttachmentReference} (h : ref.sessionIncarnation < 2 ^ 64) :
    AttachmentReference.ofValue ref.toValue = some ref := by
  have hkeys : ref.toValue.keys = {"sessionIncarnation", "bridgeEpoch", "sessionId", "id"} := rfl
  have hid : ref.toValue.getStr "id" = some ref.id := by
    rw [Value.getStr, AttachmentReference.toValue, Value.get_ofFields]
    rfl
  have hsession : ref.toValue.getStr "sessionId" = some ref.sessionId := by
    rw [Value.getStr, AttachmentReference.toValue, Value.get_ofFields]
    rfl
  have hepoch : ref.toValue.getStr "bridgeEpoch" = some ref.bridgeEpoch := by
    rw [Value.getStr, AttachmentReference.toValue, Value.get_ofFields]
    rfl
  have hincarnation : (ref.toValue.get "sessionIncarnation").bind Value.asU64 =
      some ref.sessionIncarnation := by
    have hget : ref.toValue.get "sessionIncarnation" = some (.ofNat ref.sessionIncarnation) := by
      rw [AttachmentReference.toValue, Value.get_ofFields]
      rfl
    rw [hget, Option.bind_some, Value.ofNat, Value.asU64, if_pos (by omega), Int.toNat_natCast]
  generalize ref.toValue = v at hkeys hid hsession hepoch hincarnation
  cases v with
  | object keys field =>
      obtain rfl : keys = _ := hkeys
      simp only [AttachmentReference.ofValue, hid, hsession, hepoch, hincarnation]
      rfl
  | _ => cases hid

/-- A link names the block it stands for, and its owner. -/
theorem reference_projectBlock (hash : Value → String) {content : Value}
    (h : resource block = some content)
    (howner : owner.incarnation < 2 ^ 64) :
    ∃ ref, reference (projectBlock hash owner block) = some ref ∧ ref.id = hash block ∧
      ref.owner = owner := by
  refine ⟨⟨hash block, owner.sessionId, owner.epoch, owner.incarnation⟩, ?_, rfl, rfl⟩
  have hmeta : (projectBlock hash owner block).pointer ["_meta", referenceKey] =
      some (AttachmentReference.toValue
        ⟨hash block, owner.sessionId, owner.epoch, owner.incarnation⟩) := by
    rw [Value.pointer, List.foldlM_cons, get_projectBlock h (by decide), Value.get_ofFields]
    simp only [List.reverse_cons, List.reverse_nil, List.nil_append, List.cons_append,
      List.lookup_cons_self, Option.bind_eq_bind, Option.bind_some, List.foldlM_cons,
      List.foldlM_nil, Value.get_ofFields]
    rfl
  rw [reference, if_pos (index_type_projectBlock h), hmeta, Option.bind_some]
  exact ofValue_toValue howner

end Blocks

section Views

variable {hash : Value → String} {v raw : Value}

/-- The owner of a view is none of its blocks. -/
theorem ownerOf_modify (f : Value → Value) (v : Value) :
    ownerOf (blocks.modify f v) = ownerOf v := by
  have hindex : ∀ field ∈ ["bridgeEpoch", "sessionId", "sessionIncarnation"],
      (blocks.modify f v).index field = v.index field := by
    intro field hfield
    rw [Value.index, Value.index, blocks, get_modify_fields]
    simp only [List.mem_cons, List.not_mem_nil, or_false] at hfield
    rcases hfield with rfl | rfl | rfl <;> simp [places]
  simp only [ownerOf, hindex _ (List.mem_cons_self), hindex "sessionId" (by simp),
    hindex "sessionIncarnation" (by simp)]

theorem incarnation_lt_of_ownerOf {owner : SessionResourceOwner} (h : ownerOf v = some owner) :
    owner.incarnation < 2 ^ 64 := by
  simp only [ownerOf, Option.bind_eq_bind, Option.bind_eq_some_iff] at h
  obtain ⟨epoch, -, sessionId, -, incarnation, hincarnation, howner⟩ := h
  cases howner
  unfold Value.asU64 at hincarnation
  split at hincarnation
  · split at hincarnation
    · cases hincarnation
      dsimp only
      omega
    · cases hincarnation
  · cases hincarnation

/-- Projecting what was projected changes nothing. -/
theorem project_project (hash : Value → String) (v : Value) :
    project hash (project hash v) = project hash v := by
  cases howner : ownerOf v with
  | none => simp only [project, howner]
  | some owner =>
      have hproject : project hash v = blocks.modify (projectBlock hash owner) v := by
        simp only [project, howner]
      calc project hash (project hash v)
          = blocks.modify (projectBlock hash owner) (blocks.modify (projectBlock hash owner) v) := by
            rw [hproject]
            simp only [project, ownerOf_modify, howner]
        _ = blocks.modify (projectBlock hash owner) v := by
            rw [blocks.modify_modify]
            exact blocks.modify_congr fun b _ =>
              projectBlock_of_none (resource_projectBlock hash owner b)
        _ = project hash v := hproject.symm

/-- Off the blocks with inline content a view is as it was. -/
theorem outlineAt_project {p : Path}
    (h : ∀ q ∈ blocks.sites v, q <+: p → ∀ b, v.descend q = some b → resource b = none) :
    (project hash v).outlineAt p = v.outlineAt p := by
  cases howner : ownerOf v with
  | none => simp only [project, howner]
  | some owner =>
      simp only [project, howner]
      exact blocks.outlineAt_modify fun q hq hle b hb => projectBlock_of_none (h q hq hle b hb)

/-- A view without an owner is not projected. -/
theorem project_of_none (h : ownerOf v = none) : project hash v = v := by
  simp only [project, h]

theorem descend_project {owner : SessionResourceOwner} (howner : ownerOf v = some owner) {p : Path}
    (hp : p ∈ blocks.sites v) {b : Value} (hb : v.descend p = some b) :
    (project hash v).descend p = some (projectBlock hash owner b) := by
  simp only [project, howner]
  rw [blocks.descend_site _ v p hp, hb, Option.map_some]

/-- No two blocks with inline content of a view have one hash. -/
def Distinguished (hash : Value → String) (raw : Value) : Prop :=
  ∀ b ∈ blocks.parts raw, ∀ b' ∈ blocks.parts raw, (resource b).isSome = true →
    (resource b').isSome = true → hash b = hash b' → b = b'

/-- A block of a view is found by its hash. -/
theorem find_hash (hraw : Distinguished hash raw) {b : Value} (hb : b ∈ blocks.parts raw)
    (hresource : (resource b).isSome = true) : find hash raw (hash b) = some b := by
  unfold find
  cases hfind : (blocks.parts raw).find? fun block =>
      (resource block).isSome && hash block = hash b with
  | none =>
      have hnone := List.find?_eq_none.mp hfind b hb
      simp [hresource] at hnone
  | some other =>
      have hother := List.find?_some hfind
      rw [Bool.and_eq_true, decide_eq_true_iff] at hother
      exact congrArg some
        (hraw other (List.mem_of_find?_eq_some hfind) b hb hother.1 hresource hother.2)

end Views

end Attyd.Attachments
