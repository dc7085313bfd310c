import Attyd.Library.Machine
import Attyd.Terminals.Snapshot
import Mathlib.Data.List.TakeWhile

/-!
# Terminal snapshots in the browser

The browser merges a published snapshot into the one its view holds, byte by byte as the server
folds it, and decodes the bytes. The list it shows keeps the decoded text once more within the
number of retained bytes.

## Implementation notes

`retainTerminalBytes` counts the bytes of the text, and `mergeTerminalSnapshot` hands it the number
of bytes before decoding. `retain_eq_iff` says for which bytes the text survives that.
-/

namespace Attyd.Terminals

open Json (Value)

namespace Browser

/-- A terminal snapshot as the browser types it; a missing member is `none` or `false`. -/
structure TerminalSnapshot where
  sessionId : String
  terminalId : String
  output : String
  outputBytes : Option String
  truncated : Bool
  exitStatus : Option Value
  released : Bool
  outputAppend : Bool
  retainedBytes : Option ℕ

/-- A snapshot as it arrives. -/
def TerminalSnapshot.ofValue (value : Value) : TerminalSnapshot where
  sessionId := (value.getStr "sessionId").getD ""
  terminalId := (value.getStr "terminalId").getD ""
  output := (value.getStr "output").getD ""
  outputBytes := value.getStr "outputBytes"
  truncated := ((value.get "truncated").bind Value.asBool).getD false
  exitStatus := (value.get "exitStatus").filter (!·.isNull)
  released := ((value.get "released").bind Value.asBool).getD false
  outputAppend := ((value.get "outputAppend").bind Value.asBool).getD false
  retainedBytes := (value.get "retainedBytes").bind Value.asU64

/-- Whether the command still runs and its terminal is not released. -/
def TerminalSnapshot.running (self : TerminalSnapshot) : Bool :=
  self.exitStatus.isNone && !self.released

/-- The characters that decoded bytes stand for, a byte order mark among them. -/
def characters (stream : Bool) (bytes : List UInt8) : List Char :=
  if stream then Utf8.partialText bytes else Utf8.lossy bytes

/-- A byte order mark at the start is no text. -/
def withoutMark (text : List Char) : List Char :=
  if text.head? = some '\uFEFF' then text.tail else text

/-- Decode bytes; a stream may go on. -/
def decode (stream : Bool) (bytes : List UInt8) : List Char :=
  withoutMark (characters stream bytes)

/-- The bytes of a snapshot. A text that is not base64 throws. -/
def terminalOutputBytes (snapshot : TerminalSnapshot) : Option (List UInt8) :=
  match snapshot.outputBytes with
  | none => some (Utf8.encode snapshot.output.toList)
  | some text => Base64.decode text

/-- The bytes of a snapshot, after those it is appended to. -/
def appendedBytes (previous : Option TerminalSnapshot) (incoming : TerminalSnapshot) :
    Option (List UInt8) := do
  let appended ← terminalOutputBytes incoming
  match incoming.outputAppend, previous with
  | true, some previous => do
      let stem ← terminalOutputBytes previous
      some (stem ++ appended)
  | _, _ => some appended

/-- Merge a snapshot into the one before it. -/
def mergeTerminalSnapshot (previous : Option TerminalSnapshot) (incoming : TerminalSnapshot) :
    Option TerminalSnapshot := do
  let bytes ← appendedBytes previous incoming
  let start := incoming.retainedBytes.elim 0 fun retainedBytes => bytes.length - retainedBytes
  let bytes := (bytes.drop start).dropWhile Utf8.isContinuation
  some
    { incoming with
      output := .ofList (decode incoming.running bytes)
      outputBytes := some (Base64.encode bytes)
      outputAppend := false
      retainedBytes := some bytes.length }

/-- Keep the last bytes of a text, from the start of a character on. -/
def retainTerminalBytes (output : String) (retainedBytes : Option ℕ) : String :=
  match retainedBytes with
  | none => output
  | some retainedBytes =>
      let bytes := Utf8.encode output.toList
      if bytes.length ≤ retainedBytes then output
      else .ofList
        (decode false ((bytes.drop (bytes.length - retainedBytes)).dropWhile Utf8.isContinuation))

/-- The list the browser shows, after a merged snapshot. -/
def upsertTerminalSnapshot (snapshots : List TerminalSnapshot) (incoming : TerminalSnapshot) :
    List TerminalSnapshot :=
  let previous := snapshots.find? (·.terminalId = incoming.terminalId)
  let output :=
    match incoming.outputAppend, previous with
    | true, some previous => previous.output ++ incoming.output
    | _, _ => incoming.output
  snapshots.filter (·.terminalId ≠ incoming.terminalId) ++
    [{ incoming with output := retainTerminalBytes output incoming.retainedBytes }]

/-- A snapshot that replaces the text of its terminal is shown once. -/
theorem find?_upsertTerminalSnapshot (snapshots : List TerminalSnapshot)
    {incoming : TerminalSnapshot} (h : incoming.outputAppend = false) :
    (upsertTerminalSnapshot snapshots incoming).find? (·.terminalId = incoming.terminalId) =
      some { incoming with
        output := retainTerminalBytes incoming.output incoming.retainedBytes } := by
  have hothers : (snapshots.filter (·.terminalId ≠ incoming.terminalId)).find?
      (·.terminalId = incoming.terminalId) = none := by
    simp [List.find?_eq_none]
  rw [upsertTerminalSnapshot, List.find?_append, hothers, Option.none_or, h]
  exact List.find?_cons_of_pos (decide_eq_true rfl)

end Browser

section Decoding

variable (bytes : List UInt8)

/-- The text of the bytes, but for a sequence cut at the end, is shorter than all of it by what
replaces that sequence. -/
theorem lossy_eq : Utf8.lossy bytes =
    Utf8.partialText bytes ++ (Utf8.run .start bytes).2.held.map Utf8.Piece.char := by
  rw [Utf8.lossy, Utf8.pieces, Utf8.partialText, List.map_append]

/-- Whether all that is complete is well-formed. -/
def WellFormed : Prop := ∀ piece ∈ (Utf8.run .start bytes).1, piece.isScalar = true

variable {bytes}

/-- While a command runs, a cut sequence is held back if what comes before it is well-formed. -/
theorem lossy_visible_of_wellFormed (h : WellFormed bytes) :
    Utf8.lossy (visible true bytes) = Utf8.partialText bytes := by
  have htake : (Utf8.pieces bytes).takeWhile Utf8.Piece.isScalar =
      (Utf8.run .start bytes).1 ++
        (Utf8.run .start bytes).2.held.takeWhile Utf8.Piece.isScalar := by
    rw [Utf8.pieces, List.takeWhile_append_of_pos h]
  have hdrop : (Utf8.pieces bytes).dropWhile Utf8.Piece.isScalar =
      (Utf8.run .start bytes).2.held.dropWhile Utf8.Piece.isScalar := by
    rw [Utf8.pieces, List.dropWhile_append_of_pos h]
  cases hstate : (Utf8.run .start bytes).2 with
  | start =>
      have herror : Utf8.firstError bytes = none := by
        rw [Utf8.firstError, hdrop, hstate]
        rfl
      rw [visible, if_pos rfl, herror, lossy_eq, hstate]
      exact List.append_nil _
  | within more seen low high code =>
      have herror : Utf8.firstError bytes =
          some ((((Utf8.pieces bytes).takeWhile Utf8.Piece.isScalar).map
            Utf8.Piece.length).sum, none) := by
        rw [Utf8.firstError, hdrop, hstate]
        rfl
      rw [visible, if_pos rfl, herror, Utf8.lossy, Utf8.pieces_take_valid, htake, hstate,
        Utf8.partialText]
      exact congrArg (List.map _) (List.append_nil _)

theorem lossy_visible_of_not_wellFormed (h : ¬WellFormed bytes) :
    Utf8.lossy (visible true bytes) = Utf8.lossy bytes := by
  have hne : (Utf8.run .start bytes).1.dropWhile Utf8.Piece.isScalar ≠ [] := by
    rwa [ne_eq, List.dropWhile_eq_nil_iff]
  cases hdrop : (Utf8.run .start bytes).1.dropWhile Utf8.Piece.isScalar with
  | nil => exact absurd hdrop hne
  | cons piece rest =>
      have hmem : piece ∈ (Utf8.run .start bytes).1 :=
        (List.dropWhile_suffix _).mem (hdrop ▸ List.mem_cons_self)
      have hcut := Utf8.isCut_run .start bytes piece hmem
      have herror : Utf8.firstError bytes =
          some ((((Utf8.pieces bytes).takeWhile Utf8.Piece.isScalar).map Utf8.Piece.length).sum,
            some piece.length) := by
        have hpieces : (Utf8.pieces bytes).dropWhile Utf8.Piece.isScalar =
            piece :: (rest ++ (Utf8.run .start bytes).2.held) := by
          rw [Utf8.pieces, List.dropWhile_append, hdrop]
          rfl
        rw [Utf8.firstError, hpieces]
        cases piece with
        | cut length => cases hcut
        | scalar c length => rfl
        | malformed length => rfl
      rw [visible, if_pos rfl, herror]

theorem withoutMark_suffix (text : List Char) : Browser.withoutMark text <:+ text := by
  rw [Browser.withoutMark]
  split
  · exact List.tail_suffix _
  · exact List.suffix_refl _

theorem withoutMark_eq_self_iff (text : List Char) :
    Browser.withoutMark text = text ↔ text.head? ≠ some '\uFEFF' := by
  rw [Browser.withoutMark]
  split
  · next h =>
      cases text with
      | nil => cases h
      | cons c text => simp [h]
  · next h => simp [h]

/-- What a limited text is of the whole one: its end, and all of it only within the limit. -/
theorem retainTerminalBytes_eq (text : List Char) (limit : ℕ) :
    ∃ kept, Browser.retainTerminalBytes (.ofList text) (some limit) = .ofList kept ∧
      kept <:+ text ∧ (kept = text ↔ (Utf8.encode text).length ≤ limit) := by
  by_cases hle : (Utf8.encode text).length ≤ limit
  · refine ⟨text, ?_, List.suffix_refl _, by simp [hle]⟩
    rw [Browser.retainTerminalBytes, String.toList_ofList, if_pos hle]
  · obtain ⟨kept, hkept, hdrop⟩ :=
      Utf8.dropWhile_drop_encode text ((Utf8.encode text).length - limit)
    have hsuffix : Browser.decode false (Utf8.encode kept) <:+ kept := by
      simpa [Browser.decode, Browser.characters] using withoutMark_suffix kept
    refine ⟨Browser.decode false (Utf8.encode kept), ?_, hsuffix.trans hkept, ?_⟩
    · rw [Browser.retainTerminalBytes, String.toList_ofList, if_neg hle, hdrop]
    · refine iff_of_false (fun heq => ?_) hle
      have hall : kept = text := by
        refine hkept.eq_of_length_le ?_
        rw [← heq]
        exact hsuffix.length_le
      have hlength := (List.dropWhile_suffix
        (l := (Utf8.encode text).drop ((Utf8.encode text).length - limit))
        Utf8.isContinuation).length_le
      rw [hdrop, hall, List.length_drop] at hlength
      omega

end Decoding

section Shown

/-- The bytes whose text the browser shows as the server does: they begin with no byte order mark,
and every ill-formed sequence is as long as its replacement. While the command runs, a sequence
cut at the end may have any length, but only well-formed text comes before it. -/
def Shown (running : Bool) (bytes : List UInt8) : Prop :=
  ((Utf8.pieces bytes).map Utf8.Piece.char).head? ≠ some '\uFEFF' ∧
    if running = true ∧ (Utf8.run .start bytes).2.held ≠ [] then WellFormed bytes
    else ∀ piece ∈ Utf8.pieces bytes, piece.isScalar = true ∨ piece.length = 3

variable (bytes : List UInt8)

/-- A sequence cut at the end is no byte order mark. -/
theorem head?_partialText : (Utf8.partialText bytes).head? ≠ some '\uFEFF' ↔
    (Utf8.lossy bytes).head? ≠ some '\uFEFF' := by
  rw [lossy_eq]
  cases Utf8.partialText bytes with
  | nil => cases (Utf8.run .start bytes).2 <;> simp [Utf8.State.held, Utf8.Piece.char]
  | cons c text => simp

/-- The text of bytes that end cut takes no more bytes, if it is well-formed. -/
theorem length_partialText_le (h : WellFormed bytes) :
    (Utf8.encode (Utf8.partialText bytes)).length ≤ bytes.length := by
  have hsound := (Utf8.State.Sound.run (show Utf8.State.start.Sound from trivial) bytes).1
  have hle := (Utf8.length_encode_char _ hsound).2.mpr fun piece hpiece => .inl (h piece hpiece)
  have hsum := Utf8.sum_length_pieces bytes
  rw [Utf8.pieces, List.map_append, List.sum_append] at hsum
  rw [Utf8.partialText]
  omega

theorem length_lossy_le_iff : (Utf8.encode (Utf8.lossy bytes)).length ≤ bytes.length ↔
    ∀ piece ∈ Utf8.pieces bytes, piece.isScalar = true ∨ piece.length = 3 := by
  have hiff := (Utf8.length_encode_char _ (Utf8.sound_pieces bytes)).2
  rwa [Utf8.sum_length_pieces, ← Utf8.lossy] at hiff

/-- What the server shows is what the browser decodes, unless the browser holds a sequence back
that the server replaces. -/
theorem lossy_visible (running : Bool) :
    (running = true ∧ (Utf8.run .start bytes).2.held ≠ [] ∧ ¬WellFormed bytes ∧
      Utf8.lossy (visible running bytes) = Utf8.lossy bytes) ∨
    (¬(running = true ∧ (Utf8.run .start bytes).2.held ≠ [] ∧ ¬WellFormed bytes) ∧
      Utf8.lossy (visible running bytes) = Browser.characters running bytes) := by
  cases running with
  | false => exact .inr ⟨by simp, rfl⟩
  | true =>
      by_cases hwell : WellFormed bytes
      · exact .inr ⟨by simp [hwell], lossy_visible_of_wellFormed hwell⟩
      · have hlossy := lossy_visible_of_not_wellFormed hwell
        by_cases hheld : (Utf8.run .start bytes).2.held = []
        · refine .inr ⟨by simp [hheld], ?_⟩
          rw [hlossy, lossy_eq, hheld]
          exact List.append_nil _
        · exact .inl ⟨rfl, hheld, hwell, hlossy⟩

/-- The text of bytes as the browser keeps it, and as the server does. -/
theorem retain_decode_eq_iff (running : Bool) :
    Browser.retainTerminalBytes (.ofList (Browser.decode running bytes)) (some bytes.length) =
      fromUtf8Lossy (visible running bytes) ↔ Shown running bytes := by
  obtain ⟨kept, hretain, hkept, hiff⟩ :=
    retainTerminalBytes_eq (Browser.decode running bytes) bytes.length
  have hdecode := withoutMark_suffix (Browser.characters running bytes)
  rw [hretain, fromUtf8Lossy, String.ofList_inj, Shown]
  rcases lossy_visible bytes running with ⟨rfl, hheld, hwell, hvisible⟩ | ⟨hnot, hvisible⟩
  · refine iff_of_false (fun heq => ?_) fun h => hwell ?_
    · -- The server shows one character more, for the sequence that the browser holds back.
      have hlength := (hkept.trans hdecode).length_le
      rw [heq, hvisible, lossy_eq, List.length_append, List.length_map] at hlength
      have hpos := List.length_pos_iff.mpr hheld
      simp only [Browser.characters, if_true] at hlength
      omega
    · simpa [hheld] using h.2
  · have hsame : kept = Browser.characters running bytes ↔
        kept = Browser.decode running bytes ∧
          Browser.decode running bytes = Browser.characters running bytes := by
      refine ⟨fun heq => ?_, fun h => h.1.trans h.2⟩
      have hlength := hkept.length_le
      rw [heq] at hkept hlength ⊢
      have hall := hdecode.eq_of_length_le hlength
      exact ⟨hall.symm, hall⟩
    rw [hvisible, hsame, hiff]
    have hmark : Browser.decode running bytes = Browser.characters running bytes ↔
        ((Utf8.pieces bytes).map Utf8.Piece.char).head? ≠ some '\uFEFF' := by
      rw [Browser.decode, withoutMark_eq_self_iff]
      cases running with
      | false => rfl
      | true => exact head?_partialText bytes
    rw [← hmark, and_comm]
    refine and_congr_right fun hall => ?_
    rw [hall]
    by_cases hcut : running = true ∧ (Utf8.run .start bytes).2.held ≠ []
    · obtain ⟨rfl, hheld⟩ := hcut
      have hwell : WellFormed bytes := by simpa [hheld] using hnot
      rw [if_pos ⟨rfl, hheld⟩]
      exact iff_of_true (length_partialText_le bytes hwell) hwell
    · rw [if_neg hcut, ← length_lossy_le_iff]
      have hcharacters : Browser.characters running bytes = Utf8.lossy bytes := by
        cases running with
        | false => rfl
        | true =>
            have hheld : (Utf8.run .start bytes).2.held = [] := by simpa using hcut
            rw [lossy_eq, hheld]
            exact (List.append_nil _).symm
      rw [hcharacters]

end Shown

end Attyd.Terminals
