import Attyd.Library.Slices
import Attyd.Terminals.Browser
import Attyd.Terminals.Manager

/-!
# The output that is asked for

A request for the output of a terminal answers with the end of its text, and the session view
shows the text of the same bytes. While the command runs both hold back a character that is not
complete at the end of the buffer. The request looks for it behind every ill-formed sequence, the
fold of the view only where there is none.

## Implementation notes

The text of a buffer that goes on is the text of the complete pieces; `completeLength` finds the
end of the last one by reading over the errors before it.
-/

namespace Attyd.Terminals

open Json (Value)

/-- How many bytes of a buffer come before a character that is cut at its end. -/
def completeLength (bytes : List UInt8) : ℕ :=
  match _ : Utf8.firstError bytes with
  | none => bytes.length
  | some (validUpTo, none) => validUpTo
  | some (validUpTo, some length) =>
      validUpTo + length + completeLength (bytes.drop (validUpTo + length))
termination_by bytes.length
decreasing_by
  rename_i herror
  have hlength := Utf8.firstError_length_pos herror
  have hbytes : bytes ≠ [] := by
    rintro rfl
    simp [Utf8.firstError, Utf8.pieces, Utf8.run, Utf8.State.held] at herror
  have hpos := List.length_pos_iff.mpr hbytes
  rw [List.length_drop]
  omega

/-- The first offset from `start` on that is between two characters. -/
def charBoundary (text : List Char) (start : ℕ) : ℕ :=
  if (splitAtByte start text).isSome then start
  else if start < byteLength text then charBoundary text (start + 1)
  else start
termination_by byteLength text - start

/-- The text of a terminal and whether some of it is missing. -/
def outputText (state : TerminalState) (limit : Option ℕ) : List Char × Bool :=
  let bytes :=
    if state.exitStatus.isNone && !state.released then
      state.output.take (completeLength state.output)
    else state.output
  let output := Utf8.lossy bytes
  let start := charBoundary output (limit.elim 0 fun limit => byteLength output - limit)
  (((splitAtByte start output).map (·.2)).getD [], state.truncated || decide (0 < start))

section Complete

variable {bytes : List UInt8}

/-- What comes before a character that is cut shows the text of the complete pieces. -/
theorem lossy_take_completeLength (bytes : List UInt8) :
    Utf8.lossy (bytes.take (completeLength bytes)) = Utf8.partialText bytes := by
  rcases Utf8.run_cases bytes with hscalars | ⟨valid, length, items, hvalid, hrun⟩
  · have hpartial := lossy_visible_of_wellFormed hscalars
    rw [visible, if_pos rfl] at hpartial
    rw [completeLength]
    split
    · rename_i herror
      rw [herror] at hpartial
      rwa [List.take_length]
    · rename_i validUpTo herror
      rwa [herror] at hpartial
    · rename_i validUpTo length herror
      exact absurd herror (Utf8.firstError_of_scalars hscalars validUpTo length)
  · have herror := Utf8.firstError_of_malformed hvalid hrun
    have hborders := Utf8.borders_of_scalars hvalid hrun
    have hpos := Utf8.firstError_length_pos herror
    have hcomplete : completeLength bytes =
        (valid.map Utf8.Piece.length).sum + length +
          completeLength (bytes.drop ((valid.map Utf8.Piece.length).sum + length)) := by
      rw [completeLength]
      split
      · rename_i hnone
        simp [hnone] at herror
      · rename_i validUpTo hcut
        simp [hcut] at herror
      · rename_i validUpTo found hfound
        obtain ⟨rfl, hlength⟩ := Prod.mk.inj (Option.some.inj (hfound.symm.trans herror))
        obtain rfl := Option.some.inj hlength
        rfl
    have hless : (bytes.drop ((valid.map Utf8.Piece.length).sum + length)).length <
        bytes.length := by
      have hbytes : bytes ≠ [] := by
        rintro rfl
        simp [Utf8.run] at hrun
      have hlength := List.length_pos_iff.mpr hbytes
      rw [List.length_drop]
      omega
    have hrest := lossy_take_completeLength
      (bytes.drop ((valid.map Utf8.Piece.length).sum + length))
    rw [hcomplete, List.take_add]
    generalize (valid.map Utf8.Piece.length).sum + length = border at hborders hrest hless
    conv_rhs => rw [← List.take_append_drop border bytes, Utf8.partialText_append hborders,
      ← hrest]
    by_cases hzero : completeLength (bytes.drop border) = 0
    · rw [hzero, List.take_zero, List.append_nil]
      exact (List.append_nil _).symm
    · exact Utf8.lossy_append (hborders.take (Nat.pos_of_ne_zero hzero))
termination_by bytes.length

end Complete

section Tail

/-- The offset that is found is between two characters, and none before it from `start` on is. -/
theorem charBoundary_spec (text : List Char) (start : ℕ) (h : start ≤ byteLength text) :
    ∃ before after, text = before ++ after ∧ charBoundary text start = byteLength before ∧
      start ≤ byteLength before ∧
      ∀ front back, text = front ++ back → start ≤ byteLength front →
        byteLength before ≤ byteLength front := by
  rw [charBoundary]
  cases hsplit : splitAtByte start text with
  | some parts =>
      obtain ⟨before, after⟩ := parts
      obtain ⟨htext, hlength⟩ := splitAtByte_eq_some.mp hsplit
      exact ⟨before, after, htext, hlength.symm, hlength.ge, fun front back _ hfront =>
        hlength.trans_le hfront⟩
  | none =>
      have hnone := splitAtByte_eq_none.mp hsplit
      have hless : start < byteLength text :=
        lt_of_le_of_ne h fun heq => hnone text [] (List.append_nil text).symm heq.symm
      obtain ⟨before, after, htext, hoffset, hstart, hfirst⟩ :=
        charBoundary_spec text (start + 1) hless
      rw [if_neg (by simp), if_pos hless]
      refine ⟨before, after, htext, hoffset, by omega, fun front back hfront hle => ?_⟩
      exact hfirst front back hfront (lt_of_le_of_ne hle (hnone front back hfront).symm)
termination_by byteLength text - start

/-- The decoded buffer: while the command runs, without a character cut at its end. -/
def decoded (state : TerminalState) : List Char :=
  if state.exitStatus.isNone && !state.released then Utf8.partialText state.output
  else Utf8.lossy state.output

/-- What is answered is the end of the decoded buffer, and whether bytes or text are missing. -/
theorem outputText_spec (state : TerminalState) (limit : Option ℕ) :
    IsTail limit (decoded state) (outputText state limit).1 ∧
      ((outputText state limit).2 = true ↔
        state.truncated = true ∨ (outputText state limit).1 ≠ decoded state) := by
  have hdecoded : Utf8.lossy
      (if state.exitStatus.isNone && !state.released then
        state.output.take (completeLength state.output)
      else state.output) = decoded state := by
    rw [decoded]
    split
    · exact lossy_take_completeLength state.output
    · rfl
  simp only [outputText, hdecoded]
  generalize decoded state = text
  obtain ⟨before, after, rfl, hoffset, hstart, hfirst⟩ := charBoundary_spec text
    (limit.elim 0 fun limit => byteLength text - limit) (by cases limit <;> simp)
  rw [hoffset, splitAtByte_byteLength]
  simp only [Option.map_some, Option.getD_some]
  refine ⟨⟨List.suffix_append before after, ?_, ?_⟩, ?_⟩
  · rintro count rfl
    simp only [Option.elim_some, byteLength_append] at hstart
    omega
  · rintro other ⟨front, hother⟩ hwithin
    refine suffix_of_byteLength_le hother.symm (hfirst front other hother.symm ?_)
    cases limit with
    | none => exact Nat.zero_le _
    | some count =>
        have hlength := congrArg byteLength hother
        have hcount := hwithin count rfl
        simp only [Option.elim_some, byteLength_append] at hlength ⊢
        omega
  · rw [Bool.or_eq_true, decide_eq_true_iff]
    refine or_congr_right ⟨fun hpos heq => ?_, fun hne => ?_⟩
    · have hlength := congrArg byteLength heq
      rw [byteLength_append] at hlength
      omega
    · exact byteLength_pos fun hempty => hne (by rw [hempty, List.nil_append])

end Tail

section Reads

variable {state : TerminalState} {limit : Option ℕ}

/-- A buffer that is cut shows an end of the text of the whole one. -/
theorem partialText_truncate (limit : Option ℕ) (output : List UInt8) :
    Utf8.partialText (TerminalState.truncate limit output) <:+ Utf8.partialText output := by
  cases limit with
  | none => exact List.suffix_refl _
  | some limit =>
      rw [TerminalState.truncate]
      split
      · obtain ⟨front, hfront⟩ := (List.dropWhile_suffix (l := output.drop (output.length - limit))
          Utf8.isContinuation).trans (List.drop_suffix _ _)
        cases hkept : (output.drop (output.length - limit)).dropWhile Utf8.isContinuation with
        | nil => exact List.nil_suffix
        | cons b rest =>
            have hb : Utf8.isContinuation b = false := by
              have hhead := List.head?_dropWhile_not Utf8.isContinuation
                (output.drop (output.length - limit))
              simpa [hkept] using hhead
            rw [hkept] at hfront
            rw [← hfront, Utf8.partialText_append (Utf8.borders_of_not_continuation front rest hb)]
            exact List.suffix_append _ _
      · exact List.suffix_refl _

/-- A chunk that a reader brings is taken, or the state stays. -/
theorem read_cases (limit : Option ℕ) (state : TerminalState) (chunk : List UInt8) :
    state.read limit chunk = state ∨
      state.released = false ∧ chunk ≠ [] ∧
        (state.read limit chunk).output = TerminalState.truncate limit (state.output ++ chunk) ∧
        (state.read limit chunk).truncated = (state.truncated ||
          limit.any fun limit => (state.output ++ chunk).length > limit) ∧
        (state.read limit chunk).exitStatus = state.exitStatus ∧
        (state.read limit chunk).released = state.released := by
  rw [TerminalState.read]
  split
  · exact .inl rfl
  · rename_i hgoes
    obtain ⟨hreleased, hchunk⟩ : state.released = false ∧ chunk ≠ [] := by simpa using hgoes
    split
    · exact .inr ⟨hreleased, hchunk, rfl, rfl, rfl, rfl⟩
    · exact .inl rfl

/-- While the command runs, more bytes add to the text that was answered; only its front may be
missing afterwards, and then it is reported. -/
theorem outputText_read (hrunning : state.exitStatus = none) (chunk : List UInt8) :
    state.read limit chunk = state ∨
      ∃ more, Utf8.partialText (state.output ++ chunk) = decoded state ++ more ∧
        (outputText (state.read limit chunk) limit).1 <:+ (outputText state limit).1 ++ more ∧
        ((outputText (state.read limit chunk) limit).2 = false →
          (outputText (state.read limit chunk) limit).1 = (outputText state limit).1 ++ more) := by
  rcases read_cases limit state chunk with hsame | ⟨hreleased, hchunk, houtput, htruncated, hexit,
    hstill⟩
  · exact .inl hsame
  · right
    have hbefore : decoded state = Utf8.partialText state.output := by
      simp [decoded, hrunning, hreleased]
    have hafter : decoded (state.read limit chunk) =
        Utf8.partialText (TerminalState.truncate limit (state.output ++ chunk)) := by
      simp [decoded, hexit, hstill, hrunning, hreleased, houtput]
    have hmore : ∃ more, Utf8.partialText (state.output ++ chunk) = decoded state ++ more := by
      rw [hbefore, Utf8.partialText, Utf8.run_append, List.map_append, ← Utf8.partialText]
      exact ⟨_, rfl⟩
    obtain ⟨more, hmore⟩ := hmore
    obtain ⟨htail, -⟩ := outputText_spec state limit
    obtain ⟨htail', hreported⟩ := outputText_spec (state.read limit chunk) limit
    have hsuffix : decoded (state.read limit chunk) <:+ decoded state ++ more := by
      rw [hafter, ← hmore]
      exact partialText_truncate limit _
    have hgrown := htail.grow htail' hsuffix
    refine ⟨more, hmore, hgrown, fun hwhole => hgrown.eq_of_length_le ?_⟩
    -- Nothing is missing: the buffer was not cut, and all of its text is answered.
    have hnone := mt hreported.mpr (by simp [hwhole])
    rw [not_or, not_not, htruncated, Bool.or_eq_true, not_or] at hnone
    obtain ⟨⟨-, hfits⟩, hall⟩ := hnone
    have huncut : TerminalState.truncate limit (state.output ++ chunk) = state.output ++ chunk := by
      cases limit with
      | none => rfl
      | some limit => exact if_neg (by simpa using hfits)
    rw [hall, hafter, huncut, hmore, List.length_append, List.length_append]
    exact Nat.add_le_add_right htail.suffix.length_le _

end Reads

end Attyd.Terminals
