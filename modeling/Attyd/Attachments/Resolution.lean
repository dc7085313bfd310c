import Attyd.Attachments.Files

/-!
# Following the links of a session view

A link that a browser is shown, in the full view, in its compact form or in a page of a process,
is followed in the raw view of the same state. The shown view was folded, regrouped and cut into
pages before its blocks became links, and every one of these links leads to the block it stands
for.
-/

namespace Attyd.Attachments

open Json (Value Walk Path)
open Presentation

/-- The forms in which a browser is shown the session of a raw view. -/
inductive SessionForm (raw : Value) : Value → Prop
  | full {view : Value} (hview : businessSessionView raw = some view) : SessionForm raw view
  | compact {view shown : Value} (hview : businessSessionView raw = some view)
      (includeProcessFrom : Option String) (excludeProcessFor : List String)
      (hshown : compactViewFrom view (raw.pointer ["live", "terminals"]) includeProcessFrom
        excludeProcessFor = some shown) : SessionForm raw shown
  | page {view : Value} (hview : businessSessionView raw = some view)
      (turnId revision : String) (offset : Nat) {page : ProcessPage}
      (hpage : processPage view turnId revision offset = .ok (some page)) :
      SessionForm raw page.toValue

variable {hash : Value → String} {raw shown b : Value} {owner : SessionResourceOwner} {p : Path}

theorem SessionForm.draws (h : SessionForm raw shown) : Draws shown raw := by
  cases h with
  | full hview => exact draws_business hview
  | compact hview _ _ hshown => exact (draws_compact hshown).trans (draws_business hview)
  | page hview _ _ _ hpage => exact (draws_page hpage).trans (draws_business hview)

/-- The link shown at a place, and what a lookup finds under its id. -/
theorem SessionForm.link (h : SessionForm raw shown) (hraw : Distinguished hash raw)
    (hp : p ∈ blocks.sites shown) (hb : shown.descend p = some b)
    (hresource : (resource b).isSome = true) (howner : ownerOf shown = some owner) :
    ∃ link ref, (project hash shown).descend p = some link ∧ reference link = some ref ∧
      ref.id = hash b ∧ ref.owner = owner ∧ find hash raw ref.id = some b := by
  obtain ⟨content, hcontent⟩ := Option.isSome_iff_exists.mp hresource
  obtain ⟨ref, href, hid, hown⟩ :=
    reference_projectBlock hash hcontent (incarnation_lt_of_ownerOf howner)
  refine ⟨_, ref, descend_project howner hp hb, href, hid, hown, ?_⟩
  have hmem : b ∈ blocks.parts raw := h.draws b (Walk.mem_parts.mpr ⟨p, hp, hb⟩) hresource
  rw [hid]
  exact find_hash hraw hmem hresource

/-- Every link leads to the block it stands for, a projected view is not changed by projecting it
again, and off the blocks with inline content a view is as it was. -/
theorem references_resolve (hash : Value → String) (hform : SessionForm raw shown)
    (hraw : Distinguished hash raw) :
    (∀ p ∈ blocks.sites shown, ∀ b owner, shown.descend p = some b →
      (resource b).isSome = true → ownerOf shown = some owner →
        ∃ link ref, (project hash shown).descend p = some link ∧ reference link = some ref ∧
          ref.owner = owner ∧ find hash raw ref.id = some b) ∧
      project hash (project hash shown) = project hash shown ∧
      (ownerOf shown = none → project hash shown = shown) ∧
      ∀ p, (∀ q ∈ blocks.sites shown, q <+: p → ∀ b, shown.descend q = some b →
        resource b = none) → (project hash shown).outlineAt p = shown.outlineAt p := by
  refine ⟨fun p hp b owner hb hresource howner => ?_, project_project hash shown,
    project_of_none, fun p hp => outlineAt_project hp⟩
  obtain ⟨link, ref, hlink, href, -, hown, hfind⟩ := hform.link hraw hp hb hresource howner
  exact ⟨link, ref, hlink, href, hown, hfind⟩

section Picture

/-- The digits of the hash of the picture, as it is printed. -/
def pictureHash (block : Value) : String :=
  if block = picture then "59882330d1e8df0a11dd027373482853cbe361198f06b89c81dd2a45c4dac2d1" else ""

/-- A session whose history is one message with the picture. -/
def pictureView : Value :=
  .ofFields
    [("bridgeEpoch", .string "epoch"),
      ("session", .ofFields [("sessionId", .string "session"), ("incarnation", .ofNat 1),
        ("viewRevision", .ofNat 1), ("phase", .string "ready")]),
      ("baseline", .ofFields [("updates", .array [.ofFields
        [("sessionUpdate", .string "agent_message_chunk"), ("content", picture)]])])]

def pictureShown : Value := (businessSessionView pictureView).getD .null

def picturePath : Path := [.key "timeline", .index 0, .key "content"]

theorem picture_form : SessionForm pictureView pictureShown :=
  .full (by
    rw [pictureShown]
    rfl)

theorem picture_distinguished : Distinguished pictureHash pictureView := by
  have hparts : blocks.parts pictureView = [picture] := by decide +kernel
  intro b hb b' hb' _ _ _
  rw [hparts, List.mem_singleton] at hb hb'
  rw [hb, hb']

/-- The link to the picture leads to it. -/
theorem references_resolve_picture :
    ∃ link ref, (project pictureHash pictureShown).descend picturePath = some link ∧
      reference link = some ref ∧ ref.owner = ⟨"epoch", "session", 1⟩ ∧
      find pictureHash pictureView ref.id = some picture :=
  (references_resolve pictureHash picture_form picture_distinguished).1 picturePath
    (by decide +kernel) picture ⟨"epoch", "session", 1⟩ (by decide +kernel) (by decide +kernel)
    (by decide +kernel)

end Picture

end Attyd.Attachments
