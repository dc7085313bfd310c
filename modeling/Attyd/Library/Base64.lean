import Mathlib.Data.Nat.Notation

/-!
# Base64 with the standard alphabet and padding

Three bytes become four characters; what is left over at the end is padded, and its unused bits
are zero. The decoder accepts exactly such texts, so `decode_encode` is the round trip a reader
of encoded bytes relies on.
-/

namespace Attyd.Base64

/-- The character of a six-bit digit. -/
def digit (n : ℕ) : Char :=
  if n < 26 then Char.ofNat (n + 65)
  else if n < 52 then Char.ofNat (n + 71)
  else if n < 62 then Char.ofNat (n - 4)
  else if n = 62 then '+'
  else '/'

/-- The digit a character stands for. -/
def value (c : Char) : Option ℕ :=
  let n := c.toNat
  if 65 ≤ n ∧ n ≤ 90 then some (n - 65)
  else if 97 ≤ n ∧ n ≤ 122 then some (n - 71)
  else if 48 ≤ n ∧ n ≤ 57 then some (n + 4)
  else if c = '+' then some 62
  else if c = '/' then some 63
  else none

theorem value_digit {n : ℕ} (h : n < 64) : value (digit n) = some n := by
  have hall : ∀ n : Fin 64, value (digit n) = some n.1 := by decide
  exact hall ⟨n, h⟩

theorem digit_ne_pad {n : ℕ} (h : n < 64) : digit n ≠ '=' := by
  have hall : ∀ n : Fin 64, digit n ≠ '=' := by decide
  exact hall ⟨n, h⟩

/-- The text of a list of bytes. -/
def encodeChars : List UInt8 → List Char
  | [] => []
  | [a] => [digit (a.toNat / 4), digit (a.toNat % 4 * 16), '=', '=']
  | [a, b] =>
      [digit (a.toNat / 4), digit (a.toNat % 4 * 16 + b.toNat / 16), digit (b.toNat % 16 * 4), '=']
  | a :: b :: c :: rest =>
      digit (a.toNat / 4) :: digit (a.toNat % 4 * 16 + b.toNat / 16) ::
        digit (b.toNat % 16 * 4 + c.toNat / 64) :: digit (c.toNat % 64) :: encodeChars rest

/-- The bytes of a text, when it is one an encoder writes. -/
def decodeChars : List Char → Option (List UInt8)
  | [] => some []
  | p :: q :: r :: s :: rest => do
      let x ← value p
      let y ← value q
      if s = '=' then
        if rest ≠ [] then none
        else if r = '=' then
          if y % 16 = 0 then some [.ofNat (x * 4 + y / 16)] else none
        else
          let z ← value r
          if z % 4 = 0 then some [.ofNat (x * 4 + y / 16), .ofNat (y % 16 * 16 + z / 4)] else none
      else
        let z ← value r
        let w ← value s
        let bytes ← decodeChars rest
        some (.ofNat (x * 4 + y / 16) :: .ofNat (y % 16 * 16 + z / 4) :: .ofNat (z % 4 * 64 + w) ::
          bytes)
  | _ => none

/-- A byte is found again from the digits it was split into. -/
private theorem ofNat_eq (a : UInt8) {n : ℕ} (h : n = a.toNat) : UInt8.ofNat n = a := by
  rw [h, UInt8.ofNat_toNat]

theorem decodeChars_encodeChars (bytes : List UInt8) :
    decodeChars (encodeChars bytes) = some bytes := by
  induction bytes using encodeChars.induct with
  | case1 => rfl
  | case2 a =>
      have ha := a.toNat_lt
      rw [encodeChars, decodeChars, value_digit (by omega), value_digit (by omega)]
      simp only [Option.bind_eq_bind, Option.bind_some, ne_eq, not_true_eq_false, if_false, if_true]
      rw [if_pos (by omega), ofNat_eq a (by omega)]
  | case3 a b =>
      have ha := a.toNat_lt
      have hb := b.toNat_lt
      rw [encodeChars, decodeChars, value_digit (by omega), value_digit (by omega),
        value_digit (by omega)]
      simp only [Option.bind_eq_bind, Option.bind_some, ne_eq, not_true_eq_false, if_false, if_true]
      rw [if_neg (digit_ne_pad (by omega)), if_pos (by omega), ofNat_eq a (by omega),
        ofNat_eq b (by omega)]
  | case4 a b c rest ih =>
      have ha := a.toNat_lt
      have hb := b.toNat_lt
      have hc := c.toNat_lt
      rw [encodeChars, decodeChars, value_digit (by omega), value_digit (by omega),
        value_digit (by omega), value_digit (by omega), ih]
      simp only [Option.bind_eq_bind, Option.bind_some]
      rw [if_neg (digit_ne_pad (by omega)), ofNat_eq a (by omega), ofNat_eq b (by omega),
        ofNat_eq c (by omega)]

def encode (bytes : List UInt8) : String := .ofList (encodeChars bytes)

def decode (text : String) : Option (List UInt8) := decodeChars text.toList

/-- What was encoded is decoded. -/
@[simp] theorem decode_encode (bytes : List UInt8) : decode (encode bytes) = some bytes := by
  rw [decode, encode, String.toList_ofList, decodeChars_encodeChars]

example : encode [72, 105] = "SGk=" := by decide

theorem lt_of_value {c : Char} {n : ℕ} (h : value c = some n) : c.toNat < 128 := by
  simp only [value] at h
  split at h
  · omega
  · split at h
    · omega
    · split at h
      · omega
      · split at h
        · next hc => exact hc ▸ (by decide)
        · split at h
          · next hc => exact hc ▸ (by decide)
          · cases h

/-- How many characters of a text pad it. -/
def padding (text : List Char) : ℕ := (text.reverse.takeWhile (· = '=')).length

theorem padding_append {text : List Char} {c : Char} (hc : c ≠ '=') (front : List Char) :
    padding (front ++ c :: text) = padding text := by
  unfold padding
  rw [List.reverse_append, List.reverse_cons, List.append_assoc, List.takeWhile_append]
  have hstop : List.takeWhile (· = '=') ([c] ++ front.reverse) = [] := by simp [hc]
  split
  · next hall =>
      rw [hstop, List.append_nil, ← hall]
  · rfl

theorem ne_pad_of_value {c : Char} {n : ℕ} (h : value c = some n) : c ≠ '=' := by
  rintro rfl
  cases h

/-- The bytes of a text and its padding make up three for each four characters. -/
theorem length_decodeChars {text : List Char} {bytes : List UInt8}
    (h : decodeChars text = some bytes) :
    bytes.length + padding text = text.length / 4 * 3 ∧ ∀ c ∈ text, c.toNat < 128 := by
  induction text using decodeChars.induct generalizing bytes with
  | case1 =>
      cases h
      exact ⟨rfl, by simp⟩
  | case2 p q r s rest ih =>
      simp only [decodeChars, Option.bind_eq_bind, Option.bind_eq_some_iff] at h
      obtain ⟨x, hx, y, hy, h⟩ := h
      have hp := lt_of_value hx
      have hq := lt_of_value hy
      split at h
      · next hs =>
          subst hs
          split at h
          · cases h
          · next hrest =>
              obtain rfl := Decidable.not_not.mp hrest
              split at h
              · next hr =>
                  subst hr
                  split at h
                  · cases h
                    refine ⟨?_, by simp [hp, hq]⟩
                    rw [show [p, q, '=', '='] = [p] ++ q :: ['=', '='] from rfl,
                      padding_append (ne_pad_of_value hy)]
                    simp [show padding ['=', '='] = 2 by decide]
                  · cases h
              · obtain ⟨z, hz, h⟩ := Option.bind_eq_some_iff.mp h
                split at h
                · cases h
                  have hr := lt_of_value hz
                  refine ⟨?_, by simp [hp, hq, hr]⟩
                  rw [show [p, q, r, '='] = [p, q] ++ r :: ['='] from rfl,
                    padding_append (ne_pad_of_value hz)]
                  simp [show padding ['='] = 1 by decide]
                · cases h
      · simp only [Option.bind_eq_some_iff] at h
        obtain ⟨z, hz, w, hw, more, hmore, h⟩ := h
        cases h
        obtain ⟨hlength, hrest⟩ := ih hmore
        have hr := lt_of_value hz
        have hs := lt_of_value hw
        refine ⟨?_, by simpa [hp, hq, hr, hs] using hrest⟩
        rw [show p :: q :: r :: s :: rest = [p, q, r] ++ s :: rest from rfl,
          padding_append (ne_pad_of_value hw)]
        simp only [List.length_cons, List.length_append, List.length_nil]
        omega
  | case3 text hnil hfour =>
      rw [decodeChars] at h
      · cases h
      · exact fun hc => hnil hc
      · exact fun p q r s rest hc => hfour p q r s rest hc

end Attyd.Base64
