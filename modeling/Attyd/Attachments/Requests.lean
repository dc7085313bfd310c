import Attyd.Attachments.Resolution
import Mathlib.Data.List.Forall2

/-!
# Links that come back to the server

A browser sends what it was shown: it follows a link to get the file behind it, and it puts links
into the prompt of a new turn. The server answers both from the raw view of the owner that the
link names. A prompt is sent on with the blocks in place of the links.

## Implementation notes

The view is asked for at most once for a prompt. It is kept with its owner, whom every later link
of the prompt must name.
-/

namespace Attyd.Attachments

open Json (Value Walk Path)

inductive PromptError where
  | invalidReference
  | foreignOwner
  | view (message : String)
  | unavailable
  deriving DecidableEq

section Resolve

variable (hash : Value → String) (viewOf : SessionResourceOwner → Except String Value)

/-- A block carries a reference, readable or not. -/
def carriesReference (block : Value) : Bool := (block.pointer ["_meta", referenceKey]).isSome

/-- The view a link is looked up in: the one of the links before it, or a new one. -/
def cachedView (cached : Option (SessionResourceOwner × Value)) (owner : SessionResourceOwner) :
    Except PromptError Value :=
  match cached with
  | some (_, view) => .ok view
  | none =>
      match viewOf owner with
      | .ok view => .ok view
      | .error message => .error (.view message)

/-- One block of a prompt, with the view that later blocks are looked up in. -/
def resolveBlock (sessionId : String) (cached : Option (SessionResourceOwner × Value))
    (block : Value) : Except PromptError (Value × Option (SessionResourceOwner × Value)) :=
  if carriesReference block then
    match reference block with
    | none => .error .invalidReference
    | some ref =>
        if ref.owner.sessionId ≠ sessionId ∨ cached.any fun known => known.1 ≠ ref.owner then
          .error .foreignOwner
        else
          (cachedView viewOf cached ref.owner).bind fun view =>
            match find hash view ref.id with
            | none => .error .unavailable
            | some original => .ok (original, some (ref.owner, view))
  else .ok (block, cached)

/-- The prompt that is sent on. -/
def resolvePrompt (sessionId : String) :
    Option (SessionResourceOwner × Value) → List Value → Except PromptError (List Value)
  | _, [] => .ok []
  | cached, block :: prompt =>
      (resolveBlock hash viewOf sessionId cached block).bind fun (original, cached) =>
        (resolvePrompt sessionId cached prompt).map (original :: ·)

end Resolve

section Requests

variable {hash : Value → String} {viewOf : SessionResourceOwner → Except String Value}
  {raw shown b : Value} {owner : SessionResourceOwner}

theorem carriesReference_projectBlock {content : Value} (h : resource b = some content)
    (howner : owner.incarnation < 2 ^ 64) :
    carriesReference (projectBlock hash owner b) = true := by
  obtain ⟨ref, href, -, -⟩ := reference_projectBlock hash h howner
  unfold reference at href
  split at href
  · obtain ⟨value, hvalue, -⟩ := Option.bind_eq_some_iff.mp href
    rw [carriesReference, hvalue, Option.isSome_some]
  · cases href

/-- What a browser puts into a prompt for a block of the view it is shown, or of its own. -/
inductive Sends (hash : Value → String) (shown : Value) (owner : SessionResourceOwner) :
    Value → Value → Prop
  | link {b : Value} (hb : b ∈ blocks.parts shown) (hresource : (resource b).isSome = true) :
      Sends hash shown owner (projectBlock hash owner b) b
  | own {b : Value} (hb : carriesReference b = false) : Sends hash shown owner b b

/-- The view kept for a prompt is the one of the owner. -/
def Keeps (owner : SessionResourceOwner) (raw : Value)
    (cached : Option (SessionResourceOwner × Value)) : Prop :=
  cached = none ∨ cached = some (owner, raw)

theorem cachedView_of_keeps {cached : Option (SessionResourceOwner × Value)}
    (hview : viewOf owner = .ok raw) (hcached : Keeps owner raw cached) :
    cachedView viewOf cached owner = .ok raw := by
  rcases hcached with rfl | rfl
  · simp only [cachedView, hview]
  · rfl

theorem resolveBlock_of_sends {sent meant : Value}
    {cached : Option (SessionResourceOwner × Value)} (hform : SessionForm raw shown)
    (hraw : Distinguished hash raw) (howner : ownerOf shown = some owner)
    (hview : viewOf owner = .ok raw) (hcached : Keeps owner raw cached)
    (h : Sends hash shown owner sent meant) :
    ∃ cached', resolveBlock hash viewOf owner.sessionId cached sent = .ok (meant, cached') ∧
      Keeps owner raw cached' := by
  cases h with
  | link hb hresource =>
      have hlt := incarnation_lt_of_ownerOf howner
      obtain ⟨content, hcontent⟩ := Option.isSome_iff_exists.mp hresource
      obtain ⟨ref, href, hid, hown⟩ := reference_projectBlock hash hcontent hlt
      have hfind : find hash raw ref.id = some meant := by
        rw [hid]
        exact find_hash hraw (hform.draws meant hb hresource) hresource
      have hsame : ¬(ref.owner.sessionId ≠ owner.sessionId ∨
          cached.any (fun known => known.1 ≠ ref.owner) = true) := by
        rw [hown]
        rcases hcached with rfl | rfl <;> simp
      refine ⟨some (owner, raw), ?_, .inr rfl⟩
      rw [resolveBlock, if_pos (carriesReference_projectBlock hcontent hlt)]
      simp only [href, if_neg hsame]
      rw [hown, cachedView_of_keeps hview hcached, Except.bind, hfind]
  | own hb =>
      refine ⟨cached, ?_, hcached⟩
      rw [resolveBlock, hb, if_neg Bool.false_ne_true]

/-- A prompt of links and blocks of its own reaches the agent with the blocks that the browser
was shown. -/
theorem resolvePrompt_of_sends {sent meant : List Value} (hform : SessionForm raw shown)
    (hraw : Distinguished hash raw) (howner : ownerOf shown = some owner)
    (hview : viewOf owner = .ok raw) (h : List.Forall₂ (Sends hash shown owner) sent meant) :
    resolvePrompt hash viewOf owner.sessionId none sent = .ok meant := by
  have hrun : ∀ cached, Keeps owner raw cached →
      resolvePrompt hash viewOf owner.sessionId cached sent = .ok meant := by
    induction h with
    | nil => exact fun _ _ => rfl
    | cons hsends _ ih =>
        intro cached hcached
        obtain ⟨cached', hblock, hcached'⟩ :=
          resolveBlock_of_sends hform hraw howner hview hcached hsends
        rw [resolvePrompt, hblock]
        change Except.map _ (resolvePrompt hash viewOf owner.sessionId cached' _) = _
        rw [ih cached' hcached', Except.map]
  exact hrun none (.inl rfl)

/-- The bridge answers the owner of the session. -/
def pictureBridge (owner : SessionResourceOwner) : Except String Value :=
  if owner = ⟨"epoch", "session", 1⟩ then .ok pictureView else .error "gone"

/-- A prompt of a link to the picture and a text. -/
def picturePrompt : List Value :=
  [projectBlock pictureHash ⟨"epoch", "session", 1⟩ picture,
    .ofFields [("type", .string "text"), ("text", .string "What is this?")]]

def pictureMeant : List Value :=
  [picture, .ofFields [("type", .string "text"), ("text", .string "What is this?")]]

theorem resolvePrompt_of_sends_picture :
    resolvePrompt pictureHash pictureBridge "session" none picturePrompt = .ok pictureMeant :=
  resolvePrompt_of_sends picture_form picture_distinguished
    (show ownerOf pictureShown = some ⟨"epoch", "session", 1⟩ by decide +kernel)
    (by decide +kernel)
    (.cons (.link (by decide +kernel) (by decide +kernel)) (.cons (.own (by decide +kernel)) .nil))

/-- What a block of a prompt is sent on as: itself, or the block of the known view that its
reference names. -/
def Resolves (hash : Value → String) (known : Option (SessionResourceOwner × Value))
    (sent meant : Value) : Prop :=
  (carriesReference sent = false ∧ meant = sent) ∨
    ∃ owner view ref, known = some (owner, view) ∧ reference sent = some ref ∧ ref.owner = owner ∧
      meant ∈ blocks.parts view ∧ (resource meant).isSome = true ∧ hash meant = ref.id

/-- A view is known when the owner of the session answered with it. -/
def Answered (viewOf : SessionResourceOwner → Except String Value) (sessionId : String)
    (known : Option (SessionResourceOwner × Value)) : Prop :=
  ∀ owner view, known = some (owner, view) → owner.sessionId = sessionId ∧ viewOf owner = .ok view

theorem find_sound {view meant : Value} {attachmentId : String}
    (h : find hash view attachmentId = some meant) :
    meant ∈ blocks.parts view ∧ (resource meant).isSome = true ∧ hash meant = attachmentId := by
  have hfound := List.find?_some h
  rw [Bool.and_eq_true, decide_eq_true_iff] at hfound
  exact ⟨List.mem_of_find?_eq_some h, hfound⟩

theorem cachedView_sound {sessionId : String} {view : Value}
    {cached : Option (SessionResourceOwner × Value)} (hcached : Answered viewOf sessionId cached)
    (hsame : cached.any (fun known => known.1 ≠ owner) = false)
    (h : cachedView viewOf cached owner = .ok view) :
    viewOf owner = .ok view ∧ (cached = none ∨ cached = some (owner, view)) := by
  cases cached with
  | none =>
      refine ⟨?_, .inl rfl⟩
      simp only [cachedView] at h
      split at h
      · next hview => exact hview.trans (congrArg Except.ok (Except.ok.inj h))
      · cases h
  | some known =>
      obtain ⟨other, answer⟩ := known
      obtain rfl : other = owner := by simpa using hsame
      obtain rfl : answer = view := Except.ok.inj h
      exact ⟨(hcached other answer rfl).2, .inr rfl⟩

theorem resolveBlock_sound {sessionId : String} {sent meant : Value}
    {cached known : Option (SessionResourceOwner × Value)}
    (hcached : Answered viewOf sessionId cached)
    (h : resolveBlock hash viewOf sessionId cached sent = .ok (meant, known)) :
    Answered viewOf sessionId known ∧ (cached = none ∨ known = cached) ∧
      Resolves hash known sent meant := by
  unfold resolveBlock at h
  split at h
  · split at h
    · cases h
    · next ref href =>
        split at h
        · cases h
        · next hsame =>
            obtain ⟨hsession, hsame⟩ := not_or.mp hsame
            cases hview : cachedView viewOf cached ref.owner with
            | error => simp [hview, Except.bind] at h
            | ok view =>
                rw [hview, Except.bind] at h
                split at h
                · cases h
                · next original hfind =>
                    obtain ⟨rfl, rfl⟩ := Prod.mk.inj (Except.ok.inj h)
                    obtain ⟨hanswer, hold⟩ :=
                      cachedView_sound hcached (Bool.eq_false_iff.mpr hsame) hview
                    refine ⟨?_, hold.imp_right Eq.symm, .inr ⟨_, _, ref, rfl, href, rfl,
                      find_sound hfind⟩⟩
                    intro owner view hknown
                    obtain ⟨rfl, rfl⟩ := Prod.mk.inj (Option.some.inj hknown)
                    exact ⟨not_not.mp hsession, hanswer⟩
  · next hown =>
      obtain ⟨rfl, rfl⟩ := Prod.mk.inj (Except.ok.inj h)
      exact ⟨hcached, .inr rfl, .inl ⟨Bool.eq_false_iff.mpr hown, rfl⟩⟩

theorem Resolves.mono {sent meant : Value} {known known' : Option (SessionResourceOwner × Value)}
    (hknown : known = none ∨ known' = known) (h : Resolves hash known sent meant) :
    Resolves hash known' sent meant := by
  rcases h with h | ⟨owner, view, ref, rfl, h⟩
  · exact .inl h
  · exact .inr ⟨owner, view, ref, hknown.resolve_left (by simp), h⟩

/-- A block that was resolved is no link of the server. -/
theorem Resolves.reference_eq_none {sent meant : Value}
    {known : Option (SessionResourceOwner × Value)} (h : Resolves hash known sent meant) :
    reference meant = none := by
  cases hlink : reference meant with
  | none => rfl
  | some ref =>
      unfold reference at hlink
      split at hlink
      · next htype =>
          obtain ⟨value, hvalue, -⟩ := Option.bind_eq_some_iff.mp hlink
          rcases h with ⟨hown, rfl⟩ | ⟨_, _, _, -, -, -, -, hresource, -⟩
          · simp [carriesReference, hvalue] at hown
          · simp [resource_of_link htype] at hresource
      · cases hlink

theorem resolvePrompt_resolves {sessionId : String} {sent meant : List Value}
    {cached : Option (SessionResourceOwner × Value)} (hcached : Answered viewOf sessionId cached)
    (h : resolvePrompt hash viewOf sessionId cached sent = .ok meant) :
    ∃ known, Answered viewOf sessionId known ∧ (cached = none ∨ known = cached) ∧
      List.Forall₂ (Resolves hash known) sent meant := by
  induction sent generalizing cached meant with
  | nil =>
      cases h
      exact ⟨cached, hcached, .inr rfl, .nil⟩
  | cons block prompt ih =>
      rw [resolvePrompt] at h
      cases hblock : resolveBlock hash viewOf sessionId cached block with
      | error => simp [hblock, Except.bind] at h
      | ok result =>
          obtain ⟨original, cached'⟩ := result
          rw [hblock] at h
          change Except.map _ (resolvePrompt hash viewOf sessionId cached' prompt) = _ at h
          cases hprompt : resolvePrompt hash viewOf sessionId cached' prompt with
          | error => simp [hprompt, Except.map] at h
          | ok rest =>
              rw [hprompt] at h
              cases h
              obtain ⟨hanswered, hkept, hresolves⟩ := resolveBlock_sound hcached hblock
              obtain ⟨known, hknown, hgrown, hrest⟩ := ih hanswered hprompt
              refine ⟨known, hknown, ?_, .cons (hresolves.mono hgrown) hrest⟩
              rcases hkept with hnone | rfl
              · exact .inl hnone
              · exact hgrown

/-- A prompt is sent on only with blocks as they were sent and with blocks of one view of the
session, which the owner named by every link answered with. None of them is a link of the
server. -/
theorem resolvePrompt_sound {sessionId : String} {sent meant : List Value}
    (h : resolvePrompt hash viewOf sessionId none sent = .ok meant) :
    ∃ known, Answered viewOf sessionId known ∧ List.Forall₂ (Resolves hash known) sent meant ∧
      ∀ b ∈ meant, reference b = none := by
  obtain ⟨known, hknown, -, hresolves⟩ :=
    resolvePrompt_resolves (fun _ _ hnone => by cases hnone) h
  refine ⟨known, hknown, hresolves, ?_⟩
  clear h
  induction hresolves with
  | nil => simp
  | cons hfirst _ ih => exact List.forall_mem_cons.mpr ⟨hfirst.reference_eq_none, ih⟩

theorem resolvePrompt_sound_picture : ∃ known, Answered pictureBridge "session" known ∧
    List.Forall₂ (Resolves pictureHash known) picturePrompt pictureMeant ∧
      ∀ b ∈ pictureMeant, reference b = none :=
  resolvePrompt_sound (by decide +kernel)

section Served

variable {parseMimeType : String → Option (String × List (String × String))} {p : Path}

/-- A browser that follows a link of a shown view is served the file of the block behind it, with
the name and the size that the link told, or is told that the block has none. -/
theorem getAttachment_link (hform : SessionForm raw shown) (hraw : Distinguished hash raw)
    (howner : ownerOf shown = some owner) (hview : viewOf owner = .ok raw)
    (hvalid : owner.sessionId ≠ "" ∧ owner.epoch ≠ "" ∧ owner.incarnation ≠ 0)
    (hdigest : ∀ b ∈ blocks.parts raw, (hash b).utf8ByteSize = 64 ∧ (hash b).toList.all isHexDigit)
    (hp : p ∈ blocks.sites shown) (hb : shown.descend p = some b)
    (hresource : (resource b).isSome = true) :
    ∃ link ref, (project hash shown).descend p = some link ∧ reference link = some ref ∧
      getAttachment parseMimeType hash viewOf ref.sessionId ref.id ref.bridgeEpoch
          ref.sessionIncarnation =
        (file parseMimeType b).elim (.error .unavailable) .ok ∧
      ∀ served, file parseMimeType b = some served →
        link.getStr "name" = some served.name ∧
          link.get "size" = some (.ofNat served.bytes.length) := by
  obtain ⟨link, ref, hlink, href, hid, hown, hfind⟩ := hform.link hraw hp hb hresource howner
  have hmem : b ∈ blocks.parts raw := hform.draws b (Walk.mem_parts.mpr ⟨p, hp, hb⟩) hresource
  refine ⟨link, ref, hlink, href, ?_, fun served hserved => ?_⟩
  · have hasked : (⟨ref.bridgeEpoch, ref.sessionId, ref.sessionIncarnation⟩ :
        SessionResourceOwner) = owner := hown
    obtain rfl := hasked
    obtain ⟨hsize, hdigits⟩ := hdigest b hmem
    have hvalid : ¬(ref.sessionId = "" ∨ ref.bridgeEpoch = "" ∨ ref.sessionIncarnation = 0 ∨
        ref.id.utf8ByteSize ≠ 64 ∨ (!ref.id.toList.all isHexDigit) = true) := by
      rw [hid]
      simp [hvalid, hsize, hdigits]
    rw [getAttachment, if_neg hvalid, hview]
    simp only [hfind, Option.bind_some]
  · obtain ⟨content, hcontent, hname, hlength⟩ := length_of_file parseMimeType hserved
    rw [descend_project howner hp hb] at hlink
    obtain rfl := Option.some.inj hlink
    refine ⟨?_, ?_⟩
    · rw [Value.getStr, get_projectBlock hcontent (by decide), Value.get_ofFields, hname]
      rfl
    · rw [get_projectBlock hcontent (by decide), Value.get_ofFields, hlength]
      rfl

theorem getAttachment_link_picture : ∃ link ref,
    (project pictureHash pictureShown).descend picturePath = some link ∧
      reference link = some ref ∧
      getAttachment pictureMime pictureHash pictureBridge ref.sessionId ref.id ref.bridgeEpoch
          ref.sessionIncarnation =
        (file pictureMime picture).elim (.error .unavailable) .ok ∧
      ∀ served, file pictureMime picture = some served →
        link.getStr "name" = some served.name ∧
          link.get "size" = some (.ofNat served.bytes.length) := by
  have howner : ownerOf pictureShown = some ⟨"epoch", "session", 1⟩ := by decide +kernel
  have hparts : blocks.parts pictureView = [picture] := by decide +kernel
  have hdigest : ∀ b ∈ blocks.parts pictureView, (pictureHash b).utf8ByteSize = 64 ∧
      (pictureHash b).toList.all isHexDigit = true := by
    rw [hparts]
    simp only [List.mem_singleton, forall_eq, pictureHash, if_true]
    decide +kernel
  exact getAttachment_link picture_form picture_distinguished howner (by decide +kernel)
    ⟨by decide, by decide, by decide⟩ hdigest (by decide +kernel) (by decide +kernel)
    (by decide +kernel)

end Served

end Requests

end Attyd.Attachments
