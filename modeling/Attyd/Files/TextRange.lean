import Attyd.Library.FileTree
import Attyd.Library.Lines

/-!
# The lines of a text file

A request for part of a file is answered line by line. The reader hands out what it has in its
buffer, so a line, its ending and a character of it may be cut anywhere.

## Implementation notes

A reader is its remaining bytes and how many of them are in the buffer. No two requests for the
buffer find the same number of bytes left, so every way of filling it is a function of that
number.
-/

namespace Attyd.Files

/-- What a request answers when it fails. A write says at which stage it failed, and whether the
file may have changed by then. -/
inductive FsError where
  | invalidParams (data : String)
  | invalidRequest (data : String)
  | requestCancelled
  | io (error : IoError)
  | write (error : IoError) (path stage : String) (contentMayHaveChanged : Bool)
deriving DecidableEq

/-- What is left of a file, and how much of it the buffer has when a number of bytes is left. -/
structure Reader where
  bytes : List UInt8
  buffered : ℕ → ℕ
  fills : ∀ left, 0 < left → 0 < buffered left

namespace Reader

/-- The buffer; it is empty only at the end. -/
def fillBuf (self : Reader) : List UInt8 := self.bytes.take (self.buffered self.bytes.length)

def consume (self : Reader) (count : ℕ) : Reader := { self with bytes := self.bytes.drop count }

theorem fillBuf_eq_nil {self : Reader} : self.fillBuf = [] ↔ self.bytes = [] := by
  rw [fillBuf, List.take_eq_nil_iff]
  refine or_iff_right_of_imp fun h => ?_
  by_contra hne
  exact absurd h (Nat.ne_of_gt (self.fills _ (List.length_pos_iff.2 hne)))

end Reader

def newline : UInt8 := 10

/-- The next counter of lines, which stays at its greatest value. -/
def saturatingSucc (line : ℕ) : ℕ := min (line + 1) (2 ^ 32 - 1)

/-- How much of a buffer is taken: up to the end of the line in it, or all of it. -/
def takenCount (chunk : List UInt8) : ℕ :=
  (chunk.findIdx? (· = newline)).elim chunk.length (· + 1)

theorem takenCount_pos {chunk : List UInt8} (h : chunk ≠ []) : 0 < takenCount chunk := by
  unfold takenCount
  cases chunk.findIdx? (· = newline) with
  | none => exact List.length_pos_iff.2 h
  | some index => exact Nat.succ_pos index

/-- The loop of a range: the bytes that are put out in the end. -/
def rangeLoop (startLine : ℕ) (limit : Option ℕ) (reader : Reader) (output : List UInt8)
    (currentLine selected : ℕ) : List UInt8 :=
  let chunk := reader.fillBuf
  if hchunk : chunk = [] then output
  else
    let ends := (chunk.findIdx? (· = newline)).isSome
    let count := takenCount chunk
    let output := if startLine ≤ currentLine then output ++ chunk.take count else output
    let selected :=
      if startLine ≤ currentLine ∧ ends = true then (selected + 1) % 2 ^ 32 else selected
    if limit.any (· ≤ selected) then output
    else
      rangeLoop startLine limit (reader.consume count) output
        (if ends then saturatingSucc currentLine else currentLine) selected
termination_by reader.bytes.length
decreasing_by
  have hbytes : reader.bytes ≠ [] := fun h => hchunk (Reader.fillBuf_eq_nil.2 h)
  simp only [Reader.consume, List.length_drop]
  exact Nat.sub_lt (List.length_pos_iff.2 hbytes) (takenCount_pos hchunk)

/-- The text of bytes that are well-formed. -/
def fromUtf8 (bytes : List UInt8) : Option String := String.fromUTF8? bytes.toByteArray

def readTextRange (reader : Reader) (startLine : ℕ) (limit : Option ℕ) : Except FsError String :=
  if limit = some 0 then .ok ""
  else
    match fromUtf8 (rangeLoop startLine limit reader [] 1 0) with
    | some text => .ok text
    | none => .error (.invalidRequest "ACP file is not valid UTF-8 text")

/-! ## What is selected -/

/-- At most so many of the items. -/
def upTo {α : Type} (limit : Option ℕ) (items : List α) : List α :=
  match limit with
  | none => items
  | some count => items.take count

/-- The lines of a file from a line on, at most so many of them. -/
def selectLines (startLine : ℕ) (limit : Option ℕ) (bytes : List UInt8) : List UInt8 :=
  (upTo limit ((lines newline bytes).drop (startLine - 1))).flatten

variable {startLine currentLine selected : ℕ} {limit : Option ℕ}

/-- What the loop has still to put out: the bytes left begin in the current line. -/
def selectFrom (startLine : ℕ) (limit : Option ℕ) (currentLine selected : ℕ)
    (bytes : List UInt8) : List UInt8 :=
  (upTo (limit.map (· - selected)) ((lines newline bytes).drop (startLine - currentLine))).flatten

@[simp] theorem selectFrom_nil : selectFrom startLine limit currentLine selected [] = [] := by
  cases limit <;> simp [selectFrom, upTo]

/-- A buffer has the end of the line in it, and is taken up to there, or is taken whole. -/
theorem chunk_cases (chunk : List UInt8) :
    ((chunk.findIdx? (· = newline)).isSome = true ∧ ∃ line rest, newline ∉ line ∧
        chunk = line ++ newline :: rest ∧ takenCount chunk = (line ++ [newline]).length) ∨
      ((chunk.findIdx? (· = newline)).isSome = false ∧ newline ∉ chunk ∧
        takenCount chunk = chunk.length) := by
  cases hends : chunk.findIdx? (· = newline) with
  | none =>
      refine .inr ⟨rfl, fun hmem => ?_, by simp [takenCount, hends]⟩
      simpa using List.findIdx?_eq_none_iff.1 hends newline hmem
  | some index =>
      obtain ⟨hindex, hline, hbefore⟩ := List.findIdx?_eq_some_iff_getElem.1 hends
      refine .inl ⟨rfl, chunk.take index, chunk.drop (index + 1), fun hmem => ?_, ?_, ?_⟩
      · obtain ⟨j, hj, hget⟩ := List.mem_take_iff_getElem.1 hmem
        exact hbefore j (by omega) (by simpa using hget)
      · have hline : chunk[index] = newline := by simpa using hline
        rw [← hline, List.getElem_cons_drop, List.take_append_drop]
      · simp [takenCount, hends]
        omega

/-- A limit that is not reached lets one more item through. -/
theorem upTo_cons {α : Type} (hlimit : ∀ count, limit = some count → selected < count) (item : α)
    (items : List α) :
    upTo (limit.map (· - selected)) (item :: items) =
      item :: upTo (limit.map (· - (selected + 1))) items := by
  cases limit with
  | none => rfl
  | some count =>
      have hcount : count - selected = (count - (selected + 1)) + 1 := by
        have := hlimit count rfl
        omega
      simp only [Option.map_some, upTo, hcount, List.take_succ_cons]

/-- A whole line of the range is put out. -/
theorem selectFrom_line (hstart : startLine ≤ currentLine)
    (hlimit : ∀ count, limit = some count → selected < count) {line : List UInt8}
    (hline : newline ∉ line) (rest : List UInt8) :
    selectFrom startLine limit currentLine selected (line ++ newline :: rest) =
      (line ++ [newline]) ++
        selectFrom startLine limit (currentLine + 1) (selected + 1) rest := by
  have hnow : startLine - currentLine = 0 := Nat.sub_eq_zero_of_le hstart
  have hnext : startLine - (currentLine + 1) = 0 := by omega
  rw [selectFrom, selectFrom, lines_append_separator hline, hnow, hnext, List.drop_zero,
    List.drop_zero, upTo_cons hlimit, List.flatten_cons]

/-- A whole line before the range is skipped. -/
theorem selectFrom_skip_line (hstart : currentLine < startLine) {line : List UInt8}
    (hline : newline ∉ line) (rest : List UInt8) :
    selectFrom startLine limit currentLine selected (line ++ newline :: rest) =
      selectFrom startLine limit (currentLine + 1) selected rest := by
  have hnow : startLine - currentLine = (startLine - (currentLine + 1)) + 1 := by omega
  rw [selectFrom, selectFrom, lines_append_separator hline, hnow, List.drop_succ_cons]

/-- The front of a line of the range is put out, and the line goes on. -/
theorem selectFrom_part (hstart : startLine ≤ currentLine)
    (hlimit : ∀ count, limit = some count → selected < count) {front : List UInt8}
    (hfront : newline ∉ front) (hne : front ≠ []) (rest : List UInt8) :
    selectFrom startLine limit currentLine selected (front ++ rest) =
      front ++ selectFrom startLine limit currentLine selected rest := by
  have hnow : startLine - currentLine = 0 := Nat.sub_eq_zero_of_le hstart
  rw [selectFrom, selectFrom, lines_append hfront hne, hnow, List.drop_zero, List.drop_zero,
    upTo_cons hlimit, List.flatten_cons]
  cases lines newline rest with
  | nil => cases limit <;> simp [upTo]
  | cons line later => rw [upTo_cons hlimit, List.flatten_cons, List.headD_cons, List.tail_cons,
      List.append_assoc]

/-- The front of a line before the range is skipped. -/
theorem selectFrom_skip_part (hstart : currentLine < startLine) {front : List UInt8}
    (hfront : newline ∉ front) (hne : front ≠ []) (rest : List UInt8) :
    selectFrom startLine limit currentLine selected (front ++ rest) =
      selectFrom startLine limit currentLine selected rest := by
  have hnow : startLine - currentLine = (startLine - (currentLine + 1)) + 1 := by omega
  rw [selectFrom, selectFrom, lines_append hfront hne, hnow, List.drop_succ_cons]
  cases lines newline rest with
  | nil => simp
  | cons line later => rw [List.drop_succ_cons, List.tail_cons]

/-- A buffer ends the current line and is taken up to there, or is taken whole. -/
theorem fillBuf_cases {reader : Reader} (h : reader.fillBuf ≠ []) :
    (((reader.fillBuf.findIdx? (· = newline)).isSome = true ∧
        ∃ line, newline ∉ line ∧
          reader.fillBuf.take (takenCount reader.fillBuf) = line ++ [newline] ∧
          reader.bytes = line ++ newline :: (reader.consume (takenCount reader.fillBuf)).bytes) ∨
      ((reader.fillBuf.findIdx? (· = newline)).isSome = false ∧
        ∃ front, newline ∉ front ∧ front ≠ [] ∧
          reader.fillBuf.take (takenCount reader.fillBuf) = front ∧
          reader.bytes = front ++ (reader.consume (takenCount reader.fillBuf)).bytes)) := by
  obtain ⟨later, hbytes⟩ : ∃ later, reader.bytes = reader.fillBuf ++ later :=
    ⟨reader.bytes.drop (reader.buffered reader.bytes.length),
      (List.take_append_drop ..).symm⟩
  rcases chunk_cases reader.fillBuf with ⟨hends, line, rest, hline, hchunk, hcount⟩ |
    ⟨hends, hfront, hcount⟩
  · refine .inl ⟨hends, line, hline, ?_, ?_⟩
    · have hfront : reader.fillBuf = (line ++ [newline]) ++ rest := by simp [hchunk]
      rw [hcount, hfront, List.take_left]
    · have hrest : reader.bytes = (line ++ [newline]) ++ (rest ++ later) := by
        rw [hbytes, hchunk]
        simp
      rw [Reader.consume, hcount, hrest, List.drop_left, List.append_assoc,
        List.singleton_append]
  · refine .inr ⟨hends, reader.fillBuf, hfront, h, ?_, ?_⟩
    · rw [hcount, List.take_length]
    · rw [Reader.consume, hcount, hbytes]
      simp only
      rw [List.drop_left]

/-- The loop goes on exactly while the limit is not reached. -/
theorem not_reached_iff :
    ¬ limit.any (· ≤ selected) = true ↔ ∀ count, limit = some count → selected < count := by
  cases limit with
  | none => simp
  | some count => simp

/-- What is put out when the limit is looked at: nothing more once it is reached. -/
theorem selectFrom_of_reached (h : limit.any (· ≤ selected) = true) (bytes : List UInt8) :
    selectFrom startLine limit currentLine selected bytes = [] := by
  obtain ⟨count, rfl, hcount⟩ := (Option.any_eq_true ..).1 h
  simp [selectFrom, upTo, Nat.sub_eq_zero_of_le (of_decide_eq_true hcount)]

/-- The counters of lines are exact as long as so many lines can be counted. -/
def Countable (currentLine selected : ℕ) (bytes : List UInt8) : Prop :=
  selected ≤ currentLine ∧ currentLine + (lines newline bytes).length < 2 ^ 32

theorem Countable.line {line rest : List UInt8} (hline : newline ∉ line)
    (h : Countable currentLine selected (line ++ newline :: rest)) :
    saturatingSucc currentLine = currentLine + 1 ∧ (selected + 1) % 2 ^ 32 = selected + 1 ∧
      Countable (currentLine + 1) (selected + 1) rest ∧
      Countable (currentLine + 1) selected rest := by
  obtain ⟨hselected, hlines⟩ := h
  rw [lines_append_separator hline, List.length_cons] at hlines
  refine ⟨Nat.min_eq_left (by omega), Nat.mod_eq_of_lt (by omega), ⟨by omega, by omega⟩,
    by omega, by omega⟩

theorem Countable.part {front rest : List UInt8} (hfront : newline ∉ front) (hne : front ≠ [])
    (h : Countable currentLine selected (front ++ rest)) :
    Countable currentLine selected rest := by
  obtain ⟨hselected, hlines⟩ := h
  rw [lines_append hfront hne, List.length_cons, List.length_tail] at hlines
  exact ⟨hselected, by omega⟩

/-- The loop puts out the lines of the range, however the buffer is filled. -/
theorem rangeLoop_eq (reader : Reader) (output : List UInt8) (currentLine selected : ℕ)
    (hlimit : ∀ count, limit = some count → selected < count)
    (hcount : Countable currentLine selected reader.bytes) :
    rangeLoop startLine limit reader output currentLine selected =
      output ++ selectFrom startLine limit currentLine selected reader.bytes := by
  rw [rangeLoop]
  dsimp only
  by_cases hchunk : reader.fillBuf = []
  · rw [dif_pos hchunk, Reader.fillBuf_eq_nil.1 hchunk, selectFrom_nil, List.append_nil]
  · rw [dif_neg hchunk]
    rcases fillBuf_cases hchunk with ⟨hends, line, hline, htake, hbytes⟩ |
      ⟨hends, front, hfront, hne, htake, hbytes⟩
    · have hless : (reader.consume (takenCount reader.fillBuf)).bytes.length <
          reader.bytes.length := by
        have hlength := congrArg List.length hbytes
        rw [List.length_append, List.length_cons] at hlength
        omega
      rw [hbytes] at hcount
      obtain ⟨hsucc, hwrap, htaken, hskipped⟩ := hcount.line hline
      by_cases hstart : startLine ≤ currentLine
      · simp only [hends, htake, hstart, and_self, if_true, hwrap, hsucc]
        conv_rhs => rw [hbytes, selectFrom_line hstart hlimit hline, ← List.append_assoc]
        split
        · rename_i hreached
          rw [selectFrom_of_reached hreached, List.append_nil]
        · rename_i hreached
          exact rangeLoop_eq _ _ _ _ (not_reached_iff.1 hreached) htaken
      · simp only [hends, hstart, false_and, if_false, if_true, hsucc,
          not_reached_iff.2 hlimit, Bool.false_eq_true]
        conv_rhs => rw [hbytes, selectFrom_skip_line (by omega) hline]
        exact rangeLoop_eq _ _ _ _ hlimit hskipped
    · have hless : (reader.consume (takenCount reader.fillBuf)).bytes.length <
          reader.bytes.length := by
        have hlength := congrArg List.length hbytes
        have hpos := List.length_pos_iff.2 hne
        rw [List.length_append] at hlength
        omega
      rw [hbytes] at hcount
      have hpart := hcount.part hfront hne
      by_cases hstart : startLine ≤ currentLine
      · simp only [hends, htake, hstart, Bool.false_eq_true, and_false, if_false, if_true,
          not_reached_iff.2 hlimit]
        conv_rhs => rw [hbytes, selectFrom_part hstart hlimit hfront hne, ← List.append_assoc]
        exact rangeLoop_eq _ _ _ _ hlimit hpart
      · simp only [hends, hstart, Bool.false_eq_true, and_false, if_false,
          not_reached_iff.2 hlimit]
        conv_rhs => rw [hbytes, selectFrom_skip_part (by omega) hfront hne]
        exact rangeLoop_eq _ _ _ _ hlimit hpart
termination_by reader.bytes.length

/-- Bytes are the text of a string exactly if the string is written so. -/
theorem fromUtf8_eq_some {bytes : List UInt8} {text : String} :
    fromUtf8 bytes = some text ↔ text.toByteArray = bytes.toByteArray := by
  unfold fromUtf8 String.fromUTF8?
  constructor
  · intro h
    split at h
    · exact (Option.some_inj.1 h) ▸ rfl
    · simp at h
  · intro h
    rw [dif_pos (h ▸ text.isValidUTF8), Option.some_inj]
    exact String.toByteArray_inj.1 h.symm

/-- A range that is read is the text of its lines, with their endings, however the file is cut
into buffers. It fails exactly if these lines are no text, whatever stands around them. -/
theorem readTextRange_lines (reader : Reader) (startLine : ℕ) (limit : Option ℕ)
    (h : (lines newline reader.bytes).length < 2 ^ 32 - 1) :
    (∀ text : String, readTextRange reader startLine limit = .ok text ↔
        text.toByteArray = (selectLines startLine limit reader.bytes).toByteArray) ∧
      ((∀ text : String,
          text.toByteArray ≠ (selectLines startLine limit reader.bytes).toByteArray) →
        readTextRange reader startLine limit =
          .error (.invalidRequest "ACP file is not valid UTF-8 text")) := by
  have hread : readTextRange reader startLine limit =
      match fromUtf8 (selectLines startLine limit reader.bytes) with
      | some text => .ok text
      | none => .error (.invalidRequest "ACP file is not valid UTF-8 text") := by
    by_cases hzero : limit = some 0
    · subst hzero
      have hempty : selectLines startLine (some 0) reader.bytes = [] := by
        simp [selectLines, upTo]
      have htext : fromUtf8 [] = some "" := fromUtf8_eq_some.2 rfl
      rw [readTextRange, if_pos rfl, hempty, htext]
    · have hlimit : ∀ count, limit = some count → 0 < count := by
        rintro count rfl
        exact Nat.pos_of_ne_zero fun hcount => hzero (congrArg some hcount)
      have hselect : selectFrom startLine limit 1 0 reader.bytes =
          selectLines startLine limit reader.bytes := by
        cases limit <;> rfl
      rw [readTextRange, if_neg hzero, rangeLoop_eq reader [] 1 0 hlimit ⟨by omega, by omega⟩,
        List.nil_append, hselect]
  rw [hread]
  cases htext : fromUtf8 (selectLines startLine limit reader.bytes) with
  | some text =>
      have hbytes := fromUtf8_eq_some.1 htext
      refine ⟨fun other => ?_, fun hnone => absurd hbytes (hnone text)⟩
      rw [Except.ok.injEq, ← hbytes, String.toByteArray_inj]
      exact eq_comm
  | none =>
      refine ⟨fun text => ?_, fun _ => rfl⟩
      rw [← fromUtf8_eq_some, htext]
      simp

/-- One byte at a time, from within a character: the second of three lines is read. -/
theorem readTextRange_lines_bytewise :
    readTextRange ⟨[195, 10, 97, 13, 10, 255], fun _ => 1, fun _ _ => Nat.one_pos⟩ 2 (some 1) =
      .ok "a\r\n" :=
  ((readTextRange_lines _ 2 (some 1) (by decide)).1 "a\r\n").2 (by decide)

end Attyd.Files
