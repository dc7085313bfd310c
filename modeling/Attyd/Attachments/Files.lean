import Attyd.Attachments.Views
import Attyd.Semantic.Reports

/-!
# The files behind attachment links

A browser that follows a link asks for the block by its hash and is served the content of the
block as a file. The link told the name and the size of that file, computed without decoding it.

## Implementation notes

The reading of a media type is a parameter: its essence and its parameters in order, as they are
spelled. A session view is asked for by its owner; who answers is a parameter.
-/

namespace Attyd.Attachments

open Json (Value Path)
open Semantic

structure AttachmentFile where
  name : String
  mimeType : String
  bytes : List UInt8
  deriving DecidableEq

section File

variable (parseMimeType : String → Option (String × List (String × String)))

/-- A media type with UTF-8 in place of the character set it names. -/
def utf8Mime (mime : String) : Option String :=
  (parseMimeType mime).map fun (essence, parameters) =>
    (parameters.filter fun parameter => !eqIgnoreAsciiCase parameter.1 "charset").foldl
      (fun mime parameter => mime ++ s!";{parameter.1}={parameter.2}") essence ++ ";charset=utf-8"

/-- The file of a block with inline content. -/
def file (block : Value) : Option AttachmentFile := do
  let resource ← resource block
  match resource.getStr "text" with
  | some text =>
      let mime ← utf8Mime parseMimeType (mimeType resource)
      some ⟨name resource, mime, Utf8.encode text.toList⟩
  | none =>
      let bytes ← (encodedData resource).bind Base64.decode
      some ⟨name resource, mimeType resource, bytes⟩

/-- The size in a link, computed from the length of a text, is that of the decoded bytes. -/
theorem length_of_file {block : Value} {served : AttachmentFile}
    (h : file parseMimeType block = some served) :
    ∃ content, resource block = some content ∧ served.name = name content ∧
      served.bytes.length = size content := by
  simp only [file, Option.bind_eq_bind] at h
  obtain ⟨content, hcontent, h⟩ := Option.bind_eq_some_iff.mp h
  refine ⟨content, hcontent, ?_⟩
  cases htext : content.getStr "text" with
  | some text =>
      rw [htext] at h
      obtain ⟨mime, -, hserved⟩ := Option.bind_eq_some_iff.mp h
      cases hserved
      refine ⟨rfl, ?_⟩
      simp only [size, htext]
      exact Utf8.length_encode text
  | none =>
      rw [htext] at h
      obtain ⟨bytes, hbytes, hserved⟩ := Option.bind_eq_some_iff.mp h
      cases hserved
      obtain ⟨data, hdata, hdecode⟩ := Option.bind_eq_some_iff.mp hbytes
      obtain ⟨hlength, hascii⟩ := Base64.length_decodeChars hdecode
      refine ⟨rfl, ?_⟩
      simp only [size, htext, hdata, Option.getD_some]
      rw [Utf8.utf8ByteSize_of_ascii hascii]
      change bytes.length = data.toList.length / 4 * 3 - Base64.padding data.toList
      omega

end File

section Accepted

variable {formats : Formats} {parseMimeType : String → Option (String × List (String × String))}
  {block content : Value} {subject : String}

theorem decode_of_validateBase64 {value : String} (h : validateBase64 value subject = .ok ()) :
    (Base64.decode value).isSome = true := by
  unfold validateBase64 at h
  split at h
  · next hvalid =>
      obtain ⟨bytes, hbytes, -⟩ := Option.map_eq_some_iff.mp hvalid.2
      rw [hbytes, Option.isSome_some]
  · cases h

theorem mime_of_validateMimeType {value : String} {family : Option String}
    (h : validateMimeType formats value subject family = .ok ()) :
    (formats.mime value).isSome = true := by
  unfold validateMimeType at h
  split at h
  · cases h
  · next hmime => rw [hmime, Option.isSome_some]

/-- The fields that an accepted picture or sound has. -/
theorem media_of_accepted
    (htype : block.getStr "type" = some "image" ∨ block.getStr "type" = some "audio")
    (h : validateContentBlock formats block subject = .ok ()) :
    ∃ data mime, block.getStr "data" = some data ∧ (Base64.decode data).isSome = true ∧
      block.getStr "mimeType" = some mime ∧ (formats.mime mime).isSome = true := by
  unfold validateContentBlock at h
  rcases htype with htype | htype
  all_goals
    rw [htype] at h
    dsimp only at h
    split at h
    · cases h
    · obtain ⟨_, -, h⟩ := bind_eq_ok.mp h
      obtain ⟨data, hdata, h⟩ := bind_eq_ok.mp h
      obtain ⟨_, hbase, h⟩ := bind_eq_ok.mp h
      obtain ⟨mime, hmime, h⟩ := bind_eq_ok.mp h
      refine ⟨data, mime, requiredString_eq_ok hdata, decode_of_validateBase64 hbase,
        requiredString_eq_ok hmime, ?_⟩
      first
        | exact mime_of_validateMimeType h
        | obtain ⟨_, hvalid, -⟩ := bind_eq_ok.mp h
          exact mime_of_validateMimeType hvalid

/-- The fields that an accepted embedded resource has. -/
theorem embedded_of_accepted (htype : block.getStr "type" = some "resource")
    (h : validateContentBlock formats block subject = .ok ()) :
    ∃ content, block.get "resource" = some content ∧
      (∀ mime, content.getStr "mimeType" = some mime → (formats.mime mime).isSome = true) ∧
      ∀ blob, content.getStr "blob" = some blob → (Base64.decode blob).isSome = true := by
  unfold validateContentBlock at h
  rw [htype] at h
  dsimp only at h
  split at h
  · cases h
  · obtain ⟨_, -, h⟩ := bind_eq_ok.mp h
    unfold validateResource at h
    obtain ⟨content, hcontent, h⟩ := bind_eq_ok.mp h
    obtain ⟨_, -, h⟩ := bind_eq_ok.mp h
    obtain ⟨_, -, h⟩ := bind_eq_ok.mp h
    refine ⟨content, (Option.filter_eq_some_iff.mp (okOr_eq_ok hcontent)).1, fun mime hmime => ?_,
      fun blob hblob => ?_⟩
    · rw [hmime] at h
      dsimp only at h
      obtain ⟨_, hvalid, -⟩ := bind_eq_ok.mp h
      exact mime_of_validateMimeType hvalid
    · have hrest : validateBase64 blob s!"{subject} embedded resource blob" = .ok () := by
        rw [hblob] at h
        dsimp only at h
        split at h
        · obtain ⟨_, -, hrest⟩ := bind_eq_ok.mp h
          exact hrest
        · exact h
      exact decode_of_validateBase64 hrest

/-- Content is served when its media type is read for a text, and else when its bytes decode. -/
theorem file_isSome_iff (hcontent : resource block = some content)
    (htext : (content.getStr "text").isSome = true →
      (parseMimeType (mimeType content)).isSome = true) :
    (file parseMimeType block).isSome = true ↔ (content.getStr "text").isSome = true ∨
      ((encodedData content).bind Base64.decode).isSome = true := by
  simp only [file, hcontent, Option.bind_eq_bind, Option.bind_some]
  cases hcase : content.getStr "text" with
  | some text =>
      obtain ⟨parsed, hparsed⟩ := Option.isSome_iff_exists.mp (htext (by rw [hcase]; rfl))
      simp [utf8Mime, hparsed]
  | none =>
      cases hdecoded : (encodedData content).bind Base64.decode <;> simp

/-- An accepted picture or sound is served. An accepted embedded resource is exactly when it has a
text, or bytes: those under `data` if that is a text, which no check has read, or else those under
`blob`. -/
theorem file_isSome_iff_of_accepted
    (hread : ∀ mime, (formats.mime mime).isSome = true → (parseMimeType mime).isSome = true)
    (hplain : (parseMimeType "text/plain").isSome = true)
    (h : validateContentBlock formats block subject = .ok ())
    (hcontent : resource block = some content) :
    (file parseMimeType block).isSome = true ↔
      (block.getStr "type" = some "resource" → (content.getStr "text").isSome = true ∨
        (∃ data, content.getStr "data" = some data ∧ (Base64.decode data).isSome = true) ∨
        (content.getStr "data" = none ∧ (content.getStr "blob").isSome = true)) := by
  have hkind := hcontent
  unfold resource at hkind
  rw [asStr_index] at hkind
  split at hkind
  case h_1 | h_2 =>
    next htype =>
      obtain rfl := Option.some.inj hkind
      obtain ⟨data, mime, hdata, hdecode, hmime, hvalid⟩ :=
        media_of_accepted (by first | exact .inl htype | exact .inr htype) h
      have hserved : (file parseMimeType block).isSome = true := by
        refine (file_isSome_iff hcontent fun _ => ?_).mpr (.inr ?_)
        · rw [mimeType, hmime, Option.getD_some]
          exact hread mime hvalid
        · simpa [encodedData, hdata] using hdecode
      exact iff_of_true hserved fun hresource => by simp [htype] at hresource
  case h_3 htype =>
    obtain ⟨found, hfound, hmime, hblob⟩ := embedded_of_accepted htype h
    obtain rfl := Option.some.inj (hkind.symm.trans hfound)
    rw [file_isSome_iff hcontent fun htext => ?_]
    · simp only [htype, true_imp_iff, encodedData]
      refine or_congr_right ?_
      cases hdata : content.getStr "data" with
      | some data => simp
      | none =>
          cases hget : content.getStr "blob" with
          | none => simp
          | some blob => simp [hblob blob hget]
    · obtain ⟨text, htext⟩ := Option.isSome_iff_exists.mp htext
      cases hcase : content.getStr "mimeType" with
      | some mime =>
          rw [mimeType, hcase, Option.getD_some]
          exact hread mime (hmime mime hcase)
      | none =>
          have hstring : (content.index "text").isString = true := by
            rw [Value.index_eq_string.mpr htext]
            rfl
          rw [mimeType, hcase, Option.getD_none, if_pos hstring]
          exact hplain
  case h_4 => cases hkind

/-- A picture of three bytes. -/
def picture : Value :=
  .ofFields [("type", .string "image"), ("mimeType", .string "image/png"), ("data", .string "AQID")]

/-- Three bytes under `data`, where an embedded resource has no field of its own. -/
def embeddedData : Value :=
  .ofFields [("type", .string "resource"),
    ("resource", .ofFields [("uri", .string "file:///three"), ("data", .string "AQID")])]

/-- The media types of pictures and plain texts. -/
def pictureFormats : Formats where
  mime mime := if mime = "image/png" then some ("image", "png") else none
  url url := url = "file:///three"
  f64 _ := 0

def pictureMime (mime : String) : Option (String × List (String × String)) :=
  if mime = "image/png" ∨ mime = "text/plain" then some (mime, []) else none

/-- The resource is accepted, and its bytes are served. -/
theorem file_isSome_iff_of_accepted_embeddedData :
    validateContentBlock pictureFormats embeddedData "content" = .ok () ∧
      (file pictureMime embeddedData).isSome = true := by
  have haccepted : validateContentBlock pictureFormats embeddedData "content" = .ok () := by
    decide +kernel
  have hcontent : resource embeddedData = embeddedData.get "resource" := by decide +kernel
  have hdata : (((embeddedData.get "resource").bind (·.getStr "data")).bind
      Base64.decode).isSome = true := by decide +kernel
  obtain ⟨content, hget⟩ : ∃ content, embeddedData.get "resource" = some content :=
    Option.isSome_iff_exists.mp (by decide +kernel)
  rw [hget, Option.bind_some] at hdata
  refine ⟨haccepted, (file_isSome_iff_of_accepted (fun mime h => ?_) (by decide) haccepted
    (hcontent.trans hget)).mpr fun _ => .inr (.inl ?_)⟩
  · by_cases hmime : mime = "image/png"
    · simp [pictureMime, hmime]
    · simp [pictureFormats, hmime] at h
  · cases htext : content.getStr "data" with
    | none => simp [htext] at hdata
    | some data => exact ⟨data, rfl, by simpa [htext] using hdata⟩

end Accepted

section Request

inductive AttachmentError where
  | invalidReference
  | view (message : String)
  | unavailable
  deriving DecidableEq

def isHexDigit (c : Char) : Bool :=
  c.isDigit || ('a' ≤ c && c ≤ 'f') || ('A' ≤ c && c ≤ 'F')

variable (parseMimeType : String → Option (String × List (String × String)))
  (hash : Value → String) (viewOf : SessionResourceOwner → Except String Value)

/-- The answer to a browser that follows a link. -/
def getAttachment (sessionId attachmentId expectedEpoch : String) (expectedIncarnation : Nat) :
    Except AttachmentError AttachmentFile :=
  if sessionId = "" ∨ expectedEpoch = "" ∨ expectedIncarnation = 0 ∨
      attachmentId.utf8ByteSize ≠ 64 ∨ !attachmentId.toList.all isHexDigit then
    .error .invalidReference
  else
    match viewOf ⟨expectedEpoch, sessionId, expectedIncarnation⟩ with
    | .error message => .error (.view message)
    | .ok view =>
        ((find hash view attachmentId).bind (file parseMimeType)).elim (.error .unavailable) .ok

end Request

end Attyd.Attachments
