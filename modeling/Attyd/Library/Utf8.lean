import Mathlib.Algebra.GroupWithZero.Nat
import Mathlib.Data.List.Basic
import Mathlib.Data.List.TakeWhile

/-!
# Decoding UTF-8 that may be malformed or cut short

A decoder reads byte after byte and cuts the input into pieces: a scalar value, a malformed
sequence as long as the input still agreed with some scalar value, and at the end of the input a
sequence that was cut. A lossy decoder writes the replacement character for every piece that is
no scalar value; a streaming one holds the cut sequence back.

## Implementation notes

A piece records how many bytes it took. The pieces of an input then add up to its length, and the
text of the pieces is longer than the input only by what the replacement characters add.
-/

namespace Attyd.Utf8

/-- A piece of the input and the bytes it took. -/
inductive Piece where
  | scalar (c : Char) (length : ℕ)
  | malformed (length : ℕ)
  | cut (length : ℕ)
  deriving DecidableEq

/-- Between two pieces, or within one: `more` bytes follow the next one, which lies between `low`
and `high`. -/
inductive State where
  | start
  | within (more seen low high code : ℕ)

/-- The first byte of a piece. -/
def first (b : UInt8) : List Piece × State :=
  let n := b.toNat
  if n < 0x80 then ([.scalar (.ofNat n) 1], .start)
  else if 0xC2 ≤ n ∧ n ≤ 0xDF then ([], .within 0 1 0x80 0xBF (n - 0xC0))
  else if 0xE0 ≤ n ∧ n ≤ 0xEF then
    ([], .within 1 1 (if n = 0xE0 then 0xA0 else 0x80) (if n = 0xED then 0x9F else 0xBF) (n - 0xE0))
  else if 0xF0 ≤ n ∧ n ≤ 0xF4 then
    ([], .within 2 1 (if n = 0xF0 then 0x90 else 0x80) (if n = 0xF4 then 0x8F else 0xBF) (n - 0xF0))
  else ([.malformed 1], .start)

/-- One byte. A byte that does not continue the sequence ends it, and starts the next one. -/
def step : State → UInt8 → List Piece × State
  | .start, b => first b
  | .within more seen low high code, b =>
      let n := b.toNat
      if low ≤ n ∧ n ≤ high then
        match more with
        | 0 => ([.scalar (.ofNat (code * 64 + (n - 0x80))) (seen + 1)], .start)
        | more + 1 => ([], .within more (seen + 1) 0x80 0xBF (code * 64 + (n - 0x80)))
      else (.malformed seen :: (first b).1, (first b).2)

/-- The pieces that are complete, and where the decoder stands after them. -/
def run : State → List UInt8 → List Piece × State
  | state, [] => ([], state)
  | state, b :: bytes =>
      ((step state b).1 ++ (run (step state b).2 bytes).1, (run (step state b).2 bytes).2)

/-- What is left at the end of the input. -/
def State.held : State → List Piece
  | .start => []
  | .within _ seen _ _ _ => [.cut seen]

/-- The bytes taken for the piece that is not complete. -/
def State.seen : State → ℕ
  | .start => 0
  | .within _ seen _ _ _ => seen

@[simp] theorem State.seen_start : State.start.seen = 0 := rfl

@[simp] theorem State.seen_within (more seen low high code : ℕ) :
    (State.within more seen low high code).seen = seen := rfl

/-- The pieces of an input. -/
def pieces (bytes : List UInt8) : List Piece :=
  (run .start bytes).1 ++ (run .start bytes).2.held

namespace Piece

def length : Piece → ℕ
  | scalar _ length | malformed length | cut length => length

/-- A piece that is no scalar value is written as the replacement character. -/
def char : Piece → Char
  | scalar c _ => c
  | malformed _ | cut _ => '\uFFFD'

def isScalar : Piece → Bool
  | scalar _ _ => true
  | _ => false

def isCut : Piece → Bool
  | cut _ => true
  | _ => false

end Piece

/-- The text of an input, every ill-formed sequence replaced. -/
def lossy (bytes : List UInt8) : List Char := (pieces bytes).map Piece.char

/-- The text of an input that may go on: a sequence cut at the end is held back. -/
def partialText (bytes : List UInt8) : List Char := (run .start bytes).1.map Piece.char

/-- The first ill-formed sequence, if the input has one: the bytes before it, and its own length
unless it is cut by the end of the input. -/
def firstError (bytes : List UInt8) : Option (ℕ × Option ℕ) :=
  let valid := (pieces bytes).takeWhile Piece.isScalar
  match (pieces bytes).dropWhile Piece.isScalar with
  | [] => none
  | .cut _ :: _ => some ((valid.map Piece.length).sum, none)
  | piece :: _ => some ((valid.map Piece.length).sum, some piece.length)

def encode (text : List Char) : List UInt8 := text.flatMap String.utf8EncodeChar

/-- Whether a byte only continues a sequence. -/
def isContinuation (b : UInt8) : Bool := b &&& 0xc0 == 0x80

section Bytes

theorem isContinuation_iff (b : UInt8) : isContinuation b = true ↔ 0x80 ≤ b.toNat ∧ b.toNat < 0xC0 := by
  have hall : ∀ n : Fin 256, isContinuation (.ofNat n) = true ↔
      0x80 ≤ (UInt8.ofNat n).toNat ∧ (UInt8.ofNat n).toNat < 0xC0 := by decide +kernel
  simpa using hall ⟨b.toNat, b.toNat_lt⟩

theorem toNat_lt (c : Char) : c.val.toNat < 0x110000 := by
  have hvalid := c.valid
  simp only [UInt32.isValidChar, Nat.isValidChar] at hvalid
  omega

/-- The bytes of a character are one that starts it and some that continue it. -/
theorem utf8EncodeChar_eq (c : Char) : ∃ first rest, String.utf8EncodeChar c = first :: rest ∧
    isContinuation first = false ∧ ∀ b ∈ rest, isContinuation b = true := by
  have hlt := toNat_lt c
  have htail (n : ℕ) : isContinuation (.ofNat (n % 64 + 128)) = true := by
    rw [isContinuation_iff, UInt8.toNat_ofNat']
    omega
  have hhead (n : ℕ) (h : n < 128 ∨ 192 ≤ n ∧ n < 256) : isContinuation (.ofNat n) = false := by
    rw [← Bool.not_eq_true, isContinuation_iff, UInt8.toNat_ofNat']
    omega
  have hone (b : ℕ) : ∀ x ∈ [UInt8.ofNat (b % 64 + 128)], isContinuation x = true := by
    simp only [List.mem_singleton, forall_eq, htail]
  rw [String.utf8EncodeChar]
  split
  · exact ⟨_, _, rfl, hhead _ (.inl (by omega)), fun _ h => nomatch h⟩
  · split
    · exact ⟨_, _, rfl, hhead _ (.inr (by omega)), hone _⟩
    · split
      · exact ⟨_, _, rfl, hhead _ (.inr (by omega)),
          List.forall_mem_cons.mpr ⟨htail _, hone _⟩⟩
      · exact ⟨_, _, rfl, hhead _ (.inr (by omega)),
          List.forall_mem_cons.mpr ⟨htail _, List.forall_mem_cons.mpr ⟨htail _, hone _⟩⟩⟩

/-- Text does not begin within a character. -/
theorem dropWhile_encode (text : List Char) :
    (encode text).dropWhile isContinuation = encode text := by
  cases text with
  | nil => rfl
  | cons c text =>
      obtain ⟨first, rest, heq, hfirst, -⟩ := utf8EncodeChar_eq c
      simp [encode, heq, hfirst]

/-- Text that is cut within a character, and whose broken character is dropped, is text. -/
theorem dropWhile_drop_encode (text : List Char) (count : ℕ) :
    ∃ kept, kept <:+ text ∧ ((encode text).drop count).dropWhile isContinuation = encode kept := by
  induction text generalizing count with
  | nil => exact ⟨[], List.suffix_refl _, by simp [encode]⟩
  | cons c text ih =>
      obtain ⟨first, rest, heq, hfirst, hrest⟩ := utf8EncodeChar_eq c
      have hcons : encode (c :: text) = (first :: rest) ++ encode text := by
        simp [encode, heq]
      cases count with
      | zero => exact ⟨c :: text, List.suffix_refl _, dropWhile_encode _⟩
      | succ count =>
          by_cases hle : count ≤ rest.length
          · refine ⟨text, List.suffix_cons c text, ?_⟩
            rw [hcons, List.cons_append, List.drop_succ_cons, List.drop_append_of_le_length hle,
              List.dropWhile_append_of_pos fun b hb => hrest b (List.mem_of_mem_drop hb)]
            exact dropWhile_encode text
          · obtain ⟨kept, hkept, hdrop⟩ := ih (count - rest.length)
            refine ⟨kept, hkept.trans (List.suffix_cons c text), ?_⟩
            rw [hcons, List.cons_append, List.drop_succ_cons, List.drop_append,
              List.drop_eq_nil_of_le (by omega), List.nil_append, hdrop]

end Bytes

section Scan

theorem run_append (state : State) (a b : List UInt8) :
    run state (a ++ b) = ((run state a).1 ++ (run (run state a).2 b).1, (run (run state a).2 b).2) := by
  induction a generalizing state with
  | nil => rfl
  | cons x a ih => simp only [List.cons_append, run, ih, List.append_assoc]

private theorem toNat_ofNat_of_lt {n : ℕ} (h : n < 256) : (UInt8.ofNat n).toNat = n := by
  rw [UInt8.toNat_ofNat']
  omega

/-- A byte in the range a sequence expects continues it. -/
theorem step_within {more seen low high code n : ℕ} (hlow : low ≤ n) (hhigh : n ≤ high)
    (hlt : n < 256) :
    step (.within more seen low high code) (.ofNat n) =
      match more with
      | 0 => ([.scalar (.ofNat (code * 64 + (n - 0x80))) (seen + 1)], .start)
      | more + 1 => ([], .within more (seen + 1) 0x80 0xBF (code * 64 + (n - 0x80))) := by
  simp only [step, toNat_ofNat_of_lt hlt]
  rw [if_pos ⟨hlow, hhigh⟩]

theorem first_of_two {n : ℕ} (hlow : 0xC2 ≤ n) (hhigh : n ≤ 0xDF) :
    first (.ofNat n) = ([], .within 0 1 0x80 0xBF (n - 0xC0)) := by
  simp only [first, toNat_ofNat_of_lt (show n < 256 by omega)]
  rw [if_neg (by omega), if_pos ⟨hlow, hhigh⟩]

theorem first_of_three {n : ℕ} (hlow : 0xE0 ≤ n) (hhigh : n ≤ 0xEF) :
    first (.ofNat n) = ([], .within 1 1 (if n = 0xE0 then 0xA0 else 0x80)
      (if n = 0xED then 0x9F else 0xBF) (n - 0xE0)) := by
  simp only [first, toNat_ofNat_of_lt (show n < 256 by omega)]
  rw [if_neg (by omega), if_neg (by omega), if_pos ⟨hlow, hhigh⟩]

theorem first_of_four {n : ℕ} (hlow : 0xF0 ≤ n) (hhigh : n ≤ 0xF4) :
    first (.ofNat n) = ([], .within 2 1 (if n = 0xF0 then 0x90 else 0x80)
      (if n = 0xF4 then 0x8F else 0xBF) (n - 0xF0)) := by
  simp only [first, toNat_ofNat_of_lt (show n < 256 by omega)]
  rw [if_neg (by omega), if_neg (by omega), if_neg (by omega), if_pos ⟨hlow, hhigh⟩]

/-- A scalar value is read back from its own bytes. -/
theorem run_utf8EncodeChar (c : Char) :
    run .start (String.utf8EncodeChar c) = ([.scalar c c.utf8Size], .start) := by
  rw [← String.length_utf8EncodeChar]
  have hvalid : c.val.toNat < 0xD800 ∨ 0xDFFF < c.val.toNat ∧ c.val.toNat < 0x110000 := c.valid
  have hchar (n : ℕ) (h : n = c.val.toNat) : Char.ofNat n = c := by
    rw [h]
    exact Char.ofNat_toNat c
  rw [String.utf8EncodeChar]
  split
  · next h =>
      simp only [run, step, first, toNat_ofNat_of_lt (show c.val.toNat < 256 by omega)]
      rw [if_pos (by omega), hchar _ rfl]
      rfl
  · split
    · next h =>
        simp only [run]
        rw [step, first_of_two (by omega) (by omega),
          step_within (by omega) (by omega) (by omega), hchar _ (by omega)]
        rfl
    · split
      · next h =>
          simp only [run]
          rw [step, first_of_three (by omega) (by omega),
            step_within (by split <;> omega) (by split <;> omega) (by omega)]
          simp only
          rw [step_within (by omega) (by omega) (by omega), hchar _ (by omega)]
          rfl
      · next h =>
          simp only [run]
          rw [step, first_of_four (by omega) (by omega),
            step_within (by split <;> omega) (by split <;> omega) (by omega)]
          simp only
          rw [step_within (by omega) (by omega) (by omega)]
          simp only
          rw [step_within (by omega) (by omega) (by omega), hchar _ (by omega)]
          rfl

/-- Text is cut into its own characters. -/
theorem run_encode (text : List Char) :
    run .start (encode text) = (text.map fun c => .scalar c c.utf8Size, .start) := by
  induction text with
  | nil => rfl
  | cons c text ih =>
      rw [encode, List.flatMap_cons, run_append, run_utf8EncodeChar]
      change ([.scalar c c.utf8Size] ++ (run .start (encode text)).1,
        (run .start (encode text)).2) = _
      rw [ih]
      rfl

/-- Text is read back from its bytes. -/
@[simp] theorem lossy_encode (text : List Char) : lossy (encode text) = text := by
  rw [lossy, pieces, run_encode]
  simp [State.held, Piece.char, Function.comp_def]

end Scan

section Lengths

/-- Whatever bytes complete the sequence, it is as long as the scalar value it makes. -/
def Completes : ℕ → ℕ → ℕ → Prop
  | 0, seen, code => (Char.ofNat code).utf8Size = seen
  | more + 1, seen, code =>
      ∀ n, 0x80 ≤ n → n ≤ 0xBF → Completes more (seen + 1) (code * 64 + (n - 0x80))

/-- Where a decoder can stand. -/
def State.Sound : State → Prop
  | .start => True
  | .within more seen low high code => seen + more ≤ 3 ∧
      ∀ n, low ≤ n → n ≤ high → Completes more (seen + 1) (code * 64 + (n - 0x80))

/-- A scalar value takes its own bytes, and an ill-formed sequence no more than its replacement. -/
def Piece.Sound : Piece → Prop
  | .scalar c length => c.utf8Size = length
  | .malformed length | .cut length => length ≤ 3

theorem utf8Size_ofNat {n : ℕ} (h : n.isValidChar) : (Char.ofNat n).utf8Size =
    if n ≤ 0x7f then 1 else if n ≤ 0x7ff then 2 else if n ≤ 0xffff then 3 else 4 := by
  have hval : (Char.ofNat n).val.toNat = n := by
    rw [Char.ofNat, dif_pos h]
    rfl
  rw [← String.length_utf8EncodeChar, String.utf8EncodeChar, hval]
  split
  · rfl
  · split
    · rfl
    · split <;> rfl

theorem sound_first (b : UInt8) : (∀ piece ∈ (first b).1, piece.Sound) ∧ (first b).2.Sound := by
  have hb := b.toNat_lt
  rw [first]
  split
  · next h =>
      refine ⟨?_, trivial⟩
      simp only [List.mem_singleton, forall_eq, Piece.Sound]
      rw [utf8Size_ofNat (.inl (by omega)), if_pos (by omega)]
  · split
    · next h =>
        refine ⟨by simp, by omega, fun n hlow hhigh => ?_⟩
        rw [Completes, utf8Size_ofNat (.inl (by omega)), if_neg (by omega), if_pos (by omega)]
    · split
      · next h =>
          refine ⟨by simp, by omega, fun n hlow hhigh m hm hm' => ?_⟩
          rw [Completes, utf8Size_ofNat, if_neg, if_neg, if_pos]
          · split at hlow <;> split at hhigh <;> omega
          · split at hlow <;> split at hhigh <;> omega
          · split at hlow <;> split at hhigh <;> omega
          · rw [Nat.isValidChar]
            split at hlow <;> split at hhigh <;> omega
      · split
        · next h =>
            refine ⟨by simp, by omega, fun n hlow hhigh m hm hm' l hl hl' => ?_⟩
            rw [Completes, utf8Size_ofNat, if_neg, if_neg, if_neg]
            · split at hlow <;> split at hhigh <;> omega
            · split at hlow <;> split at hhigh <;> omega
            · split at hlow <;> split at hhigh <;> omega
            · rw [Nat.isValidChar]
              split at hlow <;> split at hhigh <;> omega
        · exact ⟨by simp [Piece.Sound], trivial⟩

theorem State.Sound.step {state : State} (h : state.Sound) (b : UInt8) :
    (∀ piece ∈ (Utf8.step state b).1, piece.Sound) ∧ (Utf8.step state b).2.Sound := by
  cases state with
  | start => exact sound_first b
  | within more seen low high code =>
      obtain ⟨hlength, hcompletes⟩ := h
      simp only [Utf8.step]
      split
      · next hrange =>
          have hnext := hcompletes _ hrange.1 hrange.2
          cases more with
          | zero => exact ⟨by simpa [Piece.Sound, Completes] using hnext, trivial⟩
          | succ more => exact ⟨by simp, by omega, hnext⟩
      · obtain ⟨hpieces, hstate⟩ := sound_first b
        exact ⟨List.forall_mem_cons.mpr ⟨Nat.le_of_add_right_le hlength, hpieces⟩, hstate⟩

theorem State.Sound.run {state : State} (h : state.Sound) (bytes : List UInt8) :
    (∀ piece ∈ (Utf8.run state bytes).1, piece.Sound) ∧ (Utf8.run state bytes).2.Sound := by
  induction bytes generalizing state with
  | nil => exact ⟨by simp [Utf8.run], h⟩
  | cons b bytes ih =>
      obtain ⟨hpieces, hstate⟩ := h.step b
      exact ⟨List.forall_mem_append.mpr ⟨hpieces, (ih hstate).1⟩, (ih hstate).2⟩

theorem sound_pieces (bytes : List UInt8) : ∀ piece ∈ pieces bytes, piece.Sound := by
  obtain ⟨hpieces, hstate⟩ := State.Sound.run (show State.start.Sound from trivial) bytes
  refine List.forall_mem_append.mpr ⟨hpieces, ?_⟩
  cases hlast : (run .start bytes).2 with
  | start => simp [State.held]
  | within more seen low high code =>
      rw [hlast] at hstate
      exact List.forall_mem_singleton.mpr (Nat.le_of_add_right_le hstate.1)

/-- A byte is taken for exactly one piece. -/
theorem length_first (b : UInt8) :
    ((first b).1.map Piece.length).sum + (first b).2.seen = 1 := by
  rw [first]
  split
  · rfl
  · split
    · rfl
    · split
      · rfl
      · split <;> rfl

theorem length_step (state : State) (b : UInt8) :
    ((step state b).1.map Piece.length).sum + (step state b).2.seen = state.seen + 1 := by
  cases state with
  | start => exact length_first b
  | within more seen low high code =>
      simp only [step]
      split
      · cases more with
        | zero => rfl
        | succ more => simp
      · have hfirst := length_first b
        simp only [List.map_cons, List.sum_cons, Piece.length, State.seen_within]
        omega

theorem length_run (state : State) (bytes : List UInt8) :
    ((run state bytes).1.map Piece.length).sum + (run state bytes).2.seen =
      state.seen + bytes.length := by
  induction bytes generalizing state with
  | nil => simp [run]
  | cons b bytes ih =>
      have hstep := length_step state b
      have hrest := ih (step state b).2
      simp only [run, List.map_append, List.sum_append, List.length_cons]
      omega

/-- The pieces add up to the input. -/
theorem sum_length_pieces (bytes : List UInt8) :
    ((pieces bytes).map Piece.length).sum = bytes.length := by
  have hrun := length_run .start bytes
  rw [pieces, List.map_append, List.sum_append]
  cases hstate : (run .start bytes).2 <;> simp_all [State.held, State.seen, Piece.length]

/-- The characters of some pieces take no fewer bytes than the pieces, and no more exactly when
every ill-formed piece is as long as its replacement. -/
theorem length_encode_char (items : List Piece) (h : ∀ piece ∈ items, piece.Sound) :
    (items.map Piece.length).sum ≤ (encode (items.map Piece.char)).length ∧
      ((encode (items.map Piece.char)).length ≤ (items.map Piece.length).sum ↔
        ∀ piece ∈ items, piece.isScalar = true ∨ piece.length = 3) := by
  induction items with
  | nil => simp [encode]
  | cons piece items ih =>
      obtain ⟨hpiece, hitems⟩ := List.forall_mem_cons.mp h
      obtain ⟨hle, hiff⟩ := ih hitems
      have hcons : (encode ((piece :: items).map Piece.char)).length =
          piece.char.utf8Size + (encode (items.map Piece.char)).length := by
        simp [encode]
      have hone : piece.length ≤ piece.char.utf8Size ∧
          (piece.char.utf8Size ≤ piece.length ↔ piece.isScalar = true ∨ piece.length = 3) := by
        cases piece with
        | scalar c length => simp_all [Piece.Sound, Piece.length, Piece.char, Piece.isScalar]
        | malformed length | cut length =>
            have hthree : ('\uFFFD' : Char).utf8Size = 3 := by decide
            simp only [Piece.Sound, Piece.length, Piece.char, Piece.isScalar, hthree,
              Bool.false_eq_true, false_or] at hpiece ⊢
            omega
      rw [hcons, List.map_cons, List.sum_cons, List.forall_mem_cons, ← hone.2, ← hiff]
      omega

end Lengths

section Errors

variable {c : Char} {length : ℕ} {items : List Piece}

/-- A byte goes on with the sequence, completes it, or shows that it is malformed. -/
theorem step_cases (state : State) (b : UInt8) :
    (∃ next, step state b = ([], next) ∧ next.seen = state.seen + 1) ∨
      (∃ c, step state b = ([.scalar c (state.seen + 1)], .start)) ∨
      ∃ n rest, (step state b).1 = .malformed n :: rest := by
  cases state with
  | start =>
      simp only [step, first]
      split
      · exact .inr (.inl ⟨_, rfl⟩)
      · split
        · exact .inl ⟨_, rfl, rfl⟩
        · split
          · exact .inl ⟨_, rfl, rfl⟩
          · split
            · exact .inl ⟨_, rfl, rfl⟩
            · exact .inr (.inr ⟨_, _, rfl⟩)
  | within more seen low high code =>
      simp only [step]
      split
      · cases more with
        | zero => exact .inr (.inl ⟨_, rfl⟩)
        | succ more => exact .inl ⟨_, rfl, rfl⟩
      · exact .inr (.inr ⟨_, _, rfl⟩)

/-- The first scalar value is all there is in its own bytes, and the rest follows them. -/
theorem run_of_scalar (state : State) (bytes : List UInt8)
    (h : (run state bytes).1 = .scalar c length :: items) :
    state.seen < length ∧
      run state (bytes.take (length - state.seen)) = ([.scalar c length], .start) ∧
      run .start (bytes.drop (length - state.seen)) = (items, (run state bytes).2) := by
  induction bytes generalizing state with
  | nil => cases h
  | cons b bytes ih =>
      simp only [run] at h ⊢
      rcases step_cases state b with ⟨next, hstep, hseen⟩ | ⟨c', hstep⟩ | ⟨n, rest, hstep⟩
      · rw [hstep] at h ⊢
        obtain ⟨hlt, htake, hdrop⟩ := ih next h
        have hlength : length - state.seen = (length - next.seen) + 1 := by omega
        refine ⟨by omega, ?_, ?_⟩
        · rw [hlength, List.take_succ_cons, run, hstep, htake]
          rfl
        · rw [hlength, List.drop_succ_cons, hdrop]
      · rw [hstep] at h ⊢
        obtain ⟨hhead, hitems⟩ := List.cons.inj h
        cases hhead
        have hone : state.seen + 1 - state.seen = 1 := by omega
        refine ⟨by omega, ?_, ?_⟩
        · rw [hone, List.take_succ_cons, List.take_zero, run, hstep]
          rfl
        · rw [hone, List.drop_succ_cons, List.drop_zero, ← hitems]
          rfl
      · rw [hstep] at h
        cases h

private theorem run_take_valid (items : List Piece) (state : State) (bytes : List UInt8)
    (hrun : run .start bytes = (items, state)) :
    run .start (bytes.take
      (((items ++ state.held).takeWhile Piece.isScalar).map Piece.length).sum) =
        ((items ++ state.held).takeWhile Piece.isScalar, .start) := by
  induction items generalizing bytes with
  | nil => cases state <;> rfl
  | cons piece items ih =>
      cases piece with
      | scalar c length =>
          obtain ⟨-, htake, hdrop⟩ := run_of_scalar .start bytes (by rw [hrun])
          rw [State.seen_start, Nat.sub_zero, hrun] at hdrop
          rw [State.seen_start, Nat.sub_zero] at htake
          have hrest := ih (bytes.drop length) hdrop
          simp only [List.cons_append, List.takeWhile_cons, Piece.isScalar, if_true, List.map_cons,
            List.sum_cons, Piece.length] at hrest ⊢
          rw [List.take_add, run_append, htake, hrest]
          rfl
      | malformed n => rfl
      | cut n => rfl

theorem isCut_step (state : State) (b : UInt8) :
    ∀ piece ∈ (step state b).1, piece.isCut = false := by
  have hfirst : ∀ piece ∈ (first b).1, piece.isCut = false := by
    rw [first]
    split
    · simp [Piece.isCut]
    · split
      · simp
      · split
        · simp
        · split <;> simp [Piece.isCut]
  cases state with
  | start => exact hfirst
  | within more seen low high code =>
      simp only [step]
      split
      · cases more <;> simp [Piece.isCut]
      · exact List.forall_mem_cons.mpr ⟨rfl, hfirst⟩

/-- The pieces that are complete are not cut. -/
theorem isCut_run (state : State) (bytes : List UInt8) :
    ∀ piece ∈ (run state bytes).1, piece.isCut = false := by
  induction bytes generalizing state with
  | nil => simp [run]
  | cons b bytes ih => exact List.forall_mem_append.mpr ⟨isCut_step state b, ih _⟩

/-- What comes before the first error is cut into the same pieces without the rest. -/
theorem pieces_take_valid (bytes : List UInt8) :
    pieces (bytes.take (((pieces bytes).takeWhile Piece.isScalar).map Piece.length).sum) =
      (pieces bytes).takeWhile Piece.isScalar := by
  have htake := run_take_valid _ _ bytes rfl
  rw [← pieces] at htake
  rw [pieces, htake, State.held, List.append_nil]

end Errors

section Borders

/-- Where a decoder stands: a sequence it is within has begun, and only bytes that continue one
go on with it. -/
def State.Begun : State → Prop
  | .start => True
  | .within _ seen low high _ => 0 < seen ∧ 0x80 ≤ low ∧ high ≤ 0xBF

theorem begun_first (b : UInt8) :
    (∀ piece ∈ (first b).1, 0 < piece.length) ∧ (first b).2.Begun := by
  rw [first]
  split
  · simp [State.Begun, Piece.length]
  · split
    · simp [State.Begun]
    · split
      · refine ⟨by simp, Nat.one_pos, ?_, ?_⟩
        · split <;> omega
        · split <;> omega
      · split
        · refine ⟨by simp, Nat.one_pos, ?_, ?_⟩
          · split <;> omega
          · split <;> omega
        · simp [State.Begun, Piece.length]

theorem State.begun_start : State.start.Begun := trivial

theorem State.Begun.step {state : State} (h : state.Begun) (b : UInt8) :
    (∀ piece ∈ (step state b).1, 0 < piece.length) ∧ (step state b).2.Begun := by
  cases state with
  | start => exact begun_first b
  | within more seen low high code =>
      simp only [Utf8.step]
      split
      · cases more with
        | zero => simp [State.Begun, Piece.length]
        | succ more => exact ⟨by simp, Nat.succ_pos seen, Nat.le_refl _, Nat.le_refl _⟩
      · refine ⟨List.forall_mem_cons.mpr ⟨h.1, (begun_first b).1⟩, (begun_first b).2⟩

theorem State.Begun.run {state : State} (h : state.Begun) (bytes : List UInt8) :
    (∀ piece ∈ (run state bytes).1, 0 < piece.length) ∧ (run state bytes).2.Begun := by
  induction bytes generalizing state with
  | nil => exact ⟨by simp [Utf8.run], h⟩
  | cons b bytes ih =>
      obtain ⟨hpieces, hnext⟩ := h.step b
      exact ⟨List.forall_mem_append.mpr ⟨hpieces, (ih hnext).1⟩, (ih hnext).2⟩

/-- Every piece takes a byte. -/
theorem length_pos {bytes : List UInt8} {piece : Piece} (h : piece ∈ pieces bytes) :
    0 < piece.length := by
  obtain ⟨hpieces, hstate⟩ := State.begun_start.run bytes
  rcases List.mem_append.mp h with h | h
  · exact hpieces piece h
  · cases hheld : (run .start bytes).2 with
    | start => simp [hheld, State.held] at h
    | within more seen low high code =>
        rw [hheld] at h hstate
        obtain rfl := List.mem_singleton.mp h
        exact hstate.1

/-- No sequence goes over into the bytes that follow: it has ended, or the next byte breaks it
off. -/
def State.Borders : State → List UInt8 → Prop
  | .start, _ => True
  | .within _ _ low high _, bytes =>
      ∃ b rest, bytes = b :: rest ∧ ¬(low ≤ b.toNat ∧ b.toNat ≤ high)

theorem State.Borders.take {state : State} {bytes : List UInt8} (h : state.Borders bytes)
    {count : ℕ} (hcount : 0 < count) : state.Borders (bytes.take count) := by
  cases state with
  | start => trivial
  | within more seen low high code =>
      obtain ⟨b, rest, rfl, hb⟩ := h
      obtain ⟨count, rfl⟩ := Nat.exists_eq_succ_of_ne_zero (Nat.ne_of_gt hcount)
      exact ⟨b, rest.take count, List.take_succ_cons, hb⟩

/-- What is broken off at a border. -/
def State.broken : State → List Piece
  | .start => []
  | .within _ seen _ _ _ => [.malformed seen]

theorem State.map_char_broken (state : State) :
    state.broken.map Piece.char = state.held.map Piece.char := by
  cases state <;> rfl

/-- Behind a border the decoder starts anew. -/
theorem run_of_borders {state : State} {bytes : List UInt8} (h : state.Borders bytes) :
    run state bytes = (state.broken ++ (run .start bytes).1, (run .start bytes).2) := by
  cases state with
  | start => rfl
  | within more seen low high code =>
      obtain ⟨b, rest, rfl, hb⟩ := h
      simp only [run, step, if_neg hb, State.broken, List.cons_append, List.nil_append]

theorem partialText_append {a b : List UInt8} (h : (run .start a).2.Borders b) :
    partialText (a ++ b) = lossy a ++ partialText b := by
  rw [partialText, run_append, run_of_borders h, lossy, pieces, partialText]
  simp only [List.map_append, State.map_char_broken, List.append_assoc]

theorem lossy_append {a b : List UInt8} (h : (run .start a).2.Borders b) :
    lossy (a ++ b) = lossy a ++ lossy b := by
  rw [lossy, pieces, run_append, run_of_borders h, lossy, pieces, lossy, pieces]
  simp only [List.map_append, State.map_char_broken, List.append_assoc]

/-- A byte that continues no sequence is behind a border. -/
theorem borders_of_not_continuation (a : List UInt8) {b : UInt8} (rest : List UInt8)
    (h : isContinuation b = false) : (run .start a).2.Borders (b :: rest) := by
  have hbegun := (State.begun_start.run a).2
  cases hstate : (run .start a).2 with
  | start => trivial
  | within more seen low high code =>
      rw [hstate] at hbegun
      refine ⟨b, rest, rfl, fun hb => ?_⟩
      obtain ⟨-, hlow, hhigh⟩ := hbegun
      rw [← Bool.not_eq_true, isContinuation_iff] at h
      omega

theorem first_malformed {b : UInt8} {length : ℕ} {items : List Piece}
    (h : (first b).1 = .malformed length :: items) : length = 1 ∧ (first b).2 = .start := by
  have hcases : (first b).1 = [] ∨ (∃ c, (first b).1 = [.scalar c 1]) ∨
      first b = ([.malformed 1], .start) := by
    rw [first]
    split
    · exact .inr (.inl ⟨_, rfl⟩)
    · split
      · exact .inl rfl
      · split
        · exact .inl rfl
        · split
          · exact .inl rfl
          · exact .inr (.inr rfl)
  rcases hcases with hnone | ⟨c, hscalar⟩ | hmalformed
  · simp [hnone] at h
  · simp [hscalar] at h
  · rw [hmalformed] at h ⊢
    obtain ⟨hlength, -⟩ := List.cons.inj h
    exact ⟨(Piece.malformed.inj hlength).symm, rfl⟩

/-- A byte shows a malformed sequence: it is one itself, or breaks one off. -/
theorem step_malformed {state : State} {b : UInt8} {length : ℕ} {items : List Piece}
    (h : (step state b).1 = .malformed length :: items) :
    (length = state.seen + 1 ∧ (step state b).2 = .start) ∨
      (length = state.seen ∧ ∀ bytes, state.Borders (b :: bytes)) := by
  cases state with
  | start =>
      obtain ⟨hone, hstart⟩ := first_malformed h
      exact .inl ⟨hone, hstart⟩
  | within more seen low high code =>
      by_cases hb : low ≤ b.toNat ∧ b.toNat ≤ high
      · cases more with
        | zero => simp [step, hb] at h
        | succ more => simp [step, hb] at h
      · simp only [step, if_neg hb, List.cons.injEq, Piece.malformed.injEq] at h
        exact .inr ⟨h.1.symm, fun bytes => ⟨b, bytes, rfl, hb⟩⟩

/-- A continuation byte between two pieces is malformed. -/
theorem partialText_cons_continuation {b : UInt8} (h : isContinuation b = true)
    (bytes : List UInt8) : partialText (b :: bytes) = '\uFFFD' :: partialText bytes := by
  have hrange := (isContinuation_iff b).mp h
  have hfirst : first b = ([.malformed 1], .start) := by
    rw [first, if_neg (by omega), if_neg (by omega), if_neg (by omega), if_neg (by omega)]
  rw [partialText, run, step, hfirst]
  rfl

/-- A malformed sequence ends at a border. -/
theorem borders_of_malformed {length : ℕ} {items : List Piece} (state : State)
    (bytes : List UInt8) (h : (run state bytes).1 = .malformed length :: items) :
    state.seen ≤ length ∧
      (run state (bytes.take (length - state.seen))).2.Borders
        (bytes.drop (length - state.seen)) := by
  induction bytes generalizing state with
  | nil => cases h
  | cons b bytes ih =>
      simp only [run] at h
      rcases step_cases state b with ⟨next, hstep, hseen⟩ | ⟨c, hstep⟩ | ⟨n, rest, hstep⟩
      · rw [hstep] at h
        obtain ⟨hle, hborders⟩ := ih next h
        have hlength : length - state.seen = (length - next.seen) + 1 := by omega
        rw [hlength, List.take_succ_cons, List.drop_succ_cons, run, hstep]
        exact ⟨by omega, hborders⟩
      · rw [hstep] at h
        cases h
      · rw [hstep] at h
        obtain ⟨hlength, -⟩ := List.cons.inj h
        obtain rfl := Piece.malformed.inj hlength
        rcases step_malformed hstep with ⟨hone, hstart⟩ | ⟨hseen, hborders⟩
        · have htake : n - state.seen = 1 := by omega
          rw [htake, List.take_succ_cons, List.take_zero, run, run, hstart]
          exact ⟨by omega, trivial⟩
        · have htake : n - state.seen = 0 := by omega
          rw [htake]
          exact ⟨by omega, hborders bytes⟩

/-- The same behind scalar values. -/
theorem borders_of_scalars {length : ℕ} {valid items : List Piece} {bytes : List UInt8}
    (hvalid : ∀ piece ∈ valid, piece.isScalar = true)
    (h : (run .start bytes).1 = valid ++ .malformed length :: items) :
    (run .start (bytes.take ((valid.map Piece.length).sum + length))).2.Borders
      (bytes.drop ((valid.map Piece.length).sum + length)) := by
  induction valid generalizing bytes with
  | nil => simpa using (borders_of_malformed .start bytes h).2
  | cons piece valid ih =>
      obtain ⟨hpiece, hrestValid⟩ := List.forall_mem_cons.mp hvalid
      cases piece with
      | scalar c n =>
          obtain ⟨-, htake, hdrop⟩ := run_of_scalar .start bytes h
          rw [State.seen_start, Nat.sub_zero] at htake hdrop
          have hitems : (run .start (bytes.drop n)).1 = valid ++ .malformed length :: items := by
            rw [hdrop]
            rfl
          have hrest := ih hrestValid hitems
          have hsum : ((Piece.scalar c n :: valid).map Piece.length).sum + length =
              n + ((valid.map Piece.length).sum + length) := by
            simp only [List.map_cons, List.sum_cons, Piece.length]
            omega
          rw [hsum, List.take_add, run_append, htake, ← List.drop_drop]
          exact hrest
      | malformed n => cases hpiece
      | cut n => cases hpiece

/-- What is complete are scalar values, or scalar values and a malformed sequence behind them. -/
theorem run_cases (bytes : List UInt8) :
    (∀ piece ∈ (run .start bytes).1, piece.isScalar = true) ∨
      ∃ valid length items, (∀ piece ∈ valid, piece.isScalar = true) ∧
        (run .start bytes).1 = valid ++ .malformed length :: items := by
  cases hdrop : (run .start bytes).1.dropWhile Piece.isScalar with
  | nil => exact .inl (by simpa [List.dropWhile_eq_nil_iff] using hdrop)
  | cons piece items =>
      have hsplit := List.takeWhile_append_dropWhile (p := Piece.isScalar)
        (l := (run .start bytes).1)
      rw [hdrop] at hsplit
      have hmem : piece ∈ (run .start bytes).1 := hsplit ▸ by simp
      have hcut := isCut_run .start bytes piece hmem
      have hscalar : piece.isScalar = false := by
        have hhead := List.head?_dropWhile_not Piece.isScalar (run .start bytes).1
        simpa [hdrop] using hhead
      cases piece with
      | malformed length =>
          exact .inr ⟨_, length, items, fun _ => List.mem_takeWhile_imp, hsplit.symm⟩
      | scalar c length => cases hscalar
      | cut length => cases hcut

/-- A malformed sequence behind scalar values is the first error. -/
theorem firstError_of_malformed {bytes : List UInt8} {length : ℕ} {valid items : List Piece}
    (hvalid : ∀ piece ∈ valid, piece.isScalar = true)
    (h : (run .start bytes).1 = valid ++ .malformed length :: items) :
    firstError bytes = some ((valid.map Piece.length).sum, some length) := by
  have hpieces : pieces bytes =
      valid ++ .malformed length :: (items ++ (run .start bytes).2.held) := by
    rw [pieces, h, List.append_assoc, List.cons_append]
  rw [firstError, hpieces, List.takeWhile_append_of_pos hvalid,
    List.dropWhile_append_of_pos hvalid]
  simp [Piece.isScalar, Piece.length]

/-- Scalar values alone have no error but at the end of the input. -/
theorem firstError_of_scalars {bytes : List UInt8}
    (h : ∀ piece ∈ (run .start bytes).1, piece.isScalar = true) :
    ∀ valid length, firstError bytes ≠ some (valid, some length) := by
  intro valid length
  rw [firstError, pieces, List.dropWhile_append_of_pos h]
  cases (run .start bytes).2 <;> simp [State.held, Piece.isScalar]

/-- A malformed sequence takes a byte. -/
theorem firstError_length_pos {bytes : List UInt8} {valid length : ℕ}
    (h : firstError bytes = some (valid, some length)) : 0 < length := by
  rcases run_cases bytes with hscalars | ⟨before, n, items, hbefore, hrun⟩
  · exact absurd h (firstError_of_scalars hscalars valid length)
  · rw [firstError_of_malformed hbefore hrun] at h
    obtain ⟨-, hlength⟩ := Prod.mk.inj (Option.some.inj h)
    obtain rfl := Option.some.inj hlength
    have hmem : .malformed n ∈ pieces bytes := by simp [pieces, hrun]
    exact length_pos hmem

end Borders

/-- A text is as long as its bytes. -/
theorem length_encode (text : String) : (encode text.toList).length = text.utf8ByteSize := by
  rw [← String.size_toByteArray, ← String.utf8Encode_toList, List.utf8Encode, encode,
    List.size_toByteArray]

theorem utf8ByteSize_of_ascii {text : String} (h : ∀ c ∈ text.toList, c.toNat < 128) :
    text.utf8ByteSize = text.toList.length := by
  rw [← length_encode, encode, List.length_flatMap]
  have hsize : ∀ c ∈ text.toList, (String.utf8EncodeChar c).length = 1 := fun c hc => by
    rw [String.length_utf8EncodeChar, Char.utf8Size, if_pos]
    have := h c hc
    rw [UInt32.le_iff_toNat_le]
    exact Nat.le_of_lt_succ this
  rw [List.map_congr_left hsize, List.map_const', List.sum_replicate_nat, Nat.mul_one]

end Attyd.Utf8
