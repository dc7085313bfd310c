import Attyd.Elicitation.Formats
import Attyd.Library.Splits
import Mathlib.Tactic.IntervalCases

/-!
# The dates and date-times that are accepted

`FullDate` and `DateTime` are the texts that RFC 3339 calls so, with capital letters. The
validators read a part that begins with a plus sign as a number, and of a fraction they read what
follows its last dot. So a text is accepted that becomes a date once a zero is written for each
such sign and the earlier dots are dropped.

## Implementation notes

A text is taken apart into its parts, `plain` rewrites the parts, and a validator accepts the texts
whose plain parts are valid. The parts have fixed lengths, so a text has at most one such reading.
-/

namespace Attyd.Elicitation

/-! ## Numbers and days -/

/-- The number that digits denote. -/
def decimal (digits : List Char) : Nat :=
  digits.foldl (fun number digit => number * 10 + (digit.toNat - '0'.toNat)) 0

def Digits (width : Nat) (part : List Char) : Prop :=
  part.length = width ∧ part.all Char.isDigit = true

instance (width : Nat) (part : List Char) : Decidable (Digits width part) :=
  inferInstanceAs (Decidable (_ ∧ _))

/-- A zero for the plus sign that a part begins with. -/
def plainPart : List Char → List Char
  | '+' :: digits => '0' :: digits
  | part => part

def IsLeapYear (year : Nat) : Prop := 4 ∣ year ∧ (100 ∣ year → 400 ∣ year)

instance (year : Nat) : Decidable (IsLeapYear year) := inferInstanceAs (Decidable (_ ∧ _))

/-- The lengths of the months of a year, from January on. -/
def monthLengths (year : Nat) : List Nat :=
  [31, if IsLeapYear year then 29 else 28, 31, 30, 31, 30, 31, 31, 30, 31, 30, 31]

/-- The day exists in the Gregorian calendar. -/
def DayExists (year month day : Nat) : Prop :=
  1 ≤ month ∧ 1 ≤ day ∧ ∃ length, (monthLengths year)[month - 1]? = some length ∧ day ≤ length

theorem length_plainPart (part : List Char) : (plainPart part).length = part.length := by
  unfold plainPart
  split <;> rfl

/-- Digits begin with no sign. -/
theorem plainPart_of_digits {width : Nat} {part : List Char} (h : Digits width part) :
    plainPart part = part := by
  unfold plainPart
  split
  · have hdigits := h.2
    simp at hdigits
  · rfl

theorem Digits.length_eq {width : Nat} {part : List Char} (h : Digits width (plainPart part)) :
    part.length = width := by
  rw [← length_plainPart]
  exact h.1

/-- A part that becomes digits holds digits, and a sign at most. -/
theorem Digits.mem {width : Nat} {part : List Char} (h : Digits width (plainPart part)) {c : Char}
    (hc : c ∈ part) : c.isDigit = true ∨ c = '+' := by
  unfold plainPart at h
  split at h
  · rcases List.mem_cons.mp hc with rfl | hc
    · exact .inr rfl
    · exact .inl (List.all_eq_true.mp h.2 c (List.mem_cons_of_mem _ hc))
  · exact .inl (List.all_eq_true.mp h.2 c hc)

theorem byteLength_of_ascii {text : List Char} (h : ∀ c ∈ text, c.utf8Size = 1) :
    byteLength text = text.length := by
  induction text with
  | nil => rfl
  | cons c text ih =>
      rw [byteLength_cons, List.length_cons, h c (List.mem_cons_self ..),
        ih fun d hd => h d (List.mem_cons_of_mem _ hd), Nat.add_comm]

theorem utf8Size_of_isDigit {c : Char} (h : c.isDigit = true) : c.utf8Size = 1 := by
  rw [Char.utf8Size_eq_one_iff]
  simp only [Char.isDigit, ge_iff_le, Bool.and_eq_true, decide_eq_true_eq] at h
  exact UInt32.le_trans h.2 (by decide)

theorem byteLength_digits {digits : List Char} (h : digits.all Char.isDigit = true) :
    byteLength digits = digits.length :=
  byteLength_of_ascii fun _ hc => utf8Size_of_isDigit (List.all_eq_true.mp h _ hc)

theorem decimal_lt {digits : List Char} (h : digits.all Char.isDigit = true) :
    decimal digits < 10 ^ digits.length := by
  induction digits using List.reverseRecOn with
  | nil => exact Nat.one_pos
  | append_singleton digits d ih =>
      rw [List.all_append, Bool.and_eq_true] at h
      have hdigits := ih h.1
      have hd : d.toNat ≤ '9'.toNat := by
        simp only [List.all_cons, List.all_nil, Bool.and_true, Char.isDigit, ge_iff_le,
          Bool.and_eq_true, decide_eq_true_eq] at h
        exact UInt32.le_iff_toNat_le.mp h.2.2
      have hlast : decimal (digits ++ [d]) = decimal digits * 10 + (d.toNat - '0'.toNat) := by
        simp [decimal]
      have hnine : d.toNat - '0'.toNat ≤ 9 := by
        have hvalues : '9'.toNat = 57 ∧ '0'.toNat = 48 := ⟨rfl, rfl⟩
        omega
      rw [hlast, List.length_append, List.length_singleton, Nat.pow_succ]
      omega

/-- What is read as a number in so many bytes becomes as many digits, which denote the number. -/
theorem parseU32_eq_some {width number : Nat} {part : List Char} (hwidth : 2 ≤ width)
    (hwidth' : width ≤ 4) :
    byteLength part = width ∧ parseU32 part = some number ↔
      Digits width (plainPart part) ∧ decimal (plainPart part) = number := by
  have hfits {digits : List Char} (hdigits : digits.all Char.isDigit = true)
      (hlength : digits.length ≤ 4) : decimal digits < 2 ^ 32 := by
    calc decimal digits < 10 ^ digits.length := decimal_lt hdigits
      _ ≤ 10 ^ 4 := Nat.pow_le_pow_right (by decide) hlength
      _ < 2 ^ 32 := by decide
  have hparse (digits : List Char) (hunsigned : unsignedDigits part = digits) :
      parseU32 part = some number ↔
        digits ≠ [] ∧ digits.all Char.isDigit = true ∧ decimal digits < 2 ^ 32 ∧
          decimal digits = number := by
    rw [parseU32, hunsigned]
    simp only [Option.ite_none_right_eq_some, Option.some.injEq, and_assoc]
    rfl
  by_cases hsign : ∃ digits, part = '+' :: digits
  · obtain ⟨digits, rfl⟩ := hsign
    rw [hparse digits rfl]
    change _ ↔ Digits width ('0' :: digits) ∧ decimal digits = number
    rw [Digits, byteLength_cons, List.length_cons, List.all_cons]
    constructor
    · rintro ⟨hbytes, -, hdigits, -, hnumber⟩
      rw [byteLength_digits hdigits] at hbytes
      have hsize : '+'.utf8Size = 1 := rfl
      exact ⟨⟨by omega, by rw [hdigits]; rfl⟩, hnumber⟩
    · rintro ⟨⟨hlength, hdigits⟩, hnumber⟩
      have hdigits' : digits.all Char.isDigit = true := by simpa using hdigits
      refine ⟨?_, ?_, hdigits', hfits hdigits' (by omega), hnumber⟩
      · rw [byteLength_digits hdigits', Nat.add_comm]
        exact hlength
      · rintro rfl
        simp only [List.length_nil] at hlength
        omega
  · have hplain : plainPart part = part := by
      unfold plainPart
      split
      · exact absurd ⟨_, rfl⟩ hsign
      · rfl
    have hunsigned : unsignedDigits part = part := by
      unfold unsignedDigits
      split
      · exact absurd ⟨_, rfl⟩ hsign
      · rfl
    rw [hparse part hunsigned, hplain, Digits]
    constructor
    · rintro ⟨hbytes, -, hdigits, -, hnumber⟩
      exact ⟨⟨byteLength_digits hdigits ▸ hbytes, hdigits⟩, hnumber⟩
    · rintro ⟨⟨hlength, hdigits⟩, hnumber⟩
      refine ⟨byteLength_digits hdigits ▸ hlength, ?_, hdigits, hfits hdigits (by omega), hnumber⟩
      rintro rfl
      simp only [List.length_nil] at hlength
      omega

theorem daysInMonth_eq_some {year month length : Nat} :
    daysInMonth year month = some length ↔
      1 ≤ month ∧ (monthLengths year)[month - 1]? = some length := by
  have hleap : (year % 4 = 0 ∧ (year % 100 ≠ 0 ∨ year % 400 = 0)) ↔ IsLeapYear year := by
    rw [IsLeapYear]
    omega
  by_cases hmonth : month ≤ 12
  · unfold daysInMonth monthLengths
    simp only [hleap]
    interval_cases month <;> simp
  · have hnone : daysInMonth year month = none := by
      unfold daysInMonth
      simp only [List.mem_cons, List.not_mem_nil, or_false]
      split_ifs <;> first | rfl | omega
    rw [hnone, List.getElem?_eq_none (by simp [monthLengths]; omega)]
    simp

/-! ## Dates -/

/-- A date text taken apart at its hyphens. -/
structure DateText where
  year : List Char
  month : List Char
  day : List Char

namespace DateText

def text (d : DateText) : List Char := d.year ++ '-' :: (d.month ++ '-' :: d.day)

def plain (d : DateText) : DateText := ⟨plainPart d.year, plainPart d.month, plainPart d.day⟩

structure Valid (d : DateText) : Prop where
  year : Digits 4 d.year
  month : Digits 2 d.month
  day : Digits 2 d.day
  dayExists : DayExists (decimal d.year) (decimal d.month) (decimal d.day)

theorem plain_of_valid {d : DateText} (h : d.Valid) : d.plain = d := by
  rw [plain, plainPart_of_digits h.year, plainPart_of_digits h.month, plainPart_of_digits h.day]

theorem length_text {d : DateText} (h : d.plain.Valid) : d.text.length = 10 := by
  have hyear : d.year.length = 4 := h.year.length_eq
  have hmonth : d.month.length = 2 := h.month.length_eq
  have hday : d.day.length = 2 := h.day.length_eq
  simp [text, hyear, hmonth, hday]

/-- The lengths of the parts leave one way to take a date apart. -/
theorem text_injective {d e : DateText} (hd : d.plain.Valid) (he : e.plain.Valid)
    (h : d.text = e.text) : d = e := by
  obtain ⟨hyear, h⟩ := List.append_inj h (hd.year.length_eq.trans he.year.length_eq.symm)
  obtain ⟨hmonth, h⟩ :=
    List.append_inj (List.cons.inj h).2 (hd.month.length_eq.trans he.month.length_eq.symm)
  cases d
  cases e
  simp_all

theorem mem_text {d : DateText} (h : d.plain.Valid) {c : Char} (hc : c ∈ d.text) :
    c.isDigit = true ∨ c = '+' ∨ c = '-' := by
  have hpart {width : Nat} {part : List Char} (hdigits : Digits width (plainPart part))
      (hc : c ∈ part) : c.isDigit = true ∨ c = '+' ∨ c = '-' :=
    (hdigits.mem hc).imp_right .inl
  simp only [text, List.mem_append, List.mem_cons] at hc
  rcases hc with hc | rfl | hc | rfl | hc
  · exact hpart h.year hc
  · exact .inr (.inr rfl)
  · exact hpart h.month hc
  · exact .inr (.inr rfl)
  · exact hpart h.day hc

end DateText

/-- An RFC 3339 full-date. -/
def FullDate (text : List Char) : Prop := ∃ d : DateText, d.text = text ∧ d.Valid

/-- A full-date, except that a plus sign stands for the leading zero of one of its parts. -/
def SignedDate (text : List Char) : Prop :=
  ∃ d : DateText, d.text = text ∧ d.plain.Valid ∧ d.plain ≠ d

theorem validDate_iff {text : List Char} :
    validDate text = true ↔ ∃ d : DateText, d.text = text ∧ d.plain.Valid := by
  constructor
  · intro h
    unfold validDate at h
    split at h
    · next year month day hparts =>
        obtain ⟨-, rest, rfl, hrest⟩ := (splitOn_eq_cons_iff (by simp)).mp hparts
        obtain ⟨-, last, rfl, hlast⟩ := (splitOn_eq_cons_iff (by simp)).mp hrest
        obtain ⟨rfl, -⟩ := splitOn_eq_singleton_iff.mp hlast
        split at h
        · next hlengths =>
            split at h
            · next y m n hy hm hn =>
                obtain ⟨hyear, rfl⟩ := (parseU32_eq_some (by decide) (by decide)).mp
                  ⟨hlengths.1, hy⟩
                obtain ⟨hmonth, rfl⟩ := (parseU32_eq_some (by decide) (by decide)).mp
                  ⟨hlengths.2.1, hm⟩
                obtain ⟨hday, rfl⟩ := (parseU32_eq_some (by decide) (by decide)).mp
                  ⟨hlengths.2.2, hn⟩
                split at h
                · next maximum hmaximum =>
                    rw [Bool.and_eq_true, decide_eq_true_eq, decide_eq_true_eq] at h
                    obtain ⟨hone, hlength⟩ := daysInMonth_eq_some.mp hmaximum
                    exact ⟨⟨year, month, last⟩, rfl,
                      ⟨hyear, hmonth, hday, hone, h.1, maximum, hlength, h.2⟩⟩
                · cases h
            · cases h
        · cases h
    · cases h
  · rintro ⟨d, rfl, h⟩
    have hplain {width : Nat} {part : List Char} (hdigits : Digits width (plainPart part)) :
        '-' ∉ part := by
      intro hmem
      rcases hdigits.mem hmem with hdigit | hsign
      · exact absurd hdigit (by decide)
      · exact absurd hsign (by decide)
    have hparts : d.text.splitOn '-' = [d.year, d.month, d.day] := by
      rw [DateText.text, List.splitOn_append_cons_self_of_not_mem (hplain h.year),
        List.splitOn_append_cons_self_of_not_mem (hplain h.month),
        List.splitOn_eq_singleton (hplain h.day)]
    obtain ⟨hyear, hy⟩ := (parseU32_eq_some (by decide) (by decide)).mpr ⟨h.year, rfl⟩
    obtain ⟨hmonth, hm⟩ := (parseU32_eq_some (by decide) (by decide)).mpr ⟨h.month, rfl⟩
    obtain ⟨hday, hn⟩ := (parseU32_eq_some (by decide) (by decide)).mpr ⟨h.day, rfl⟩
    obtain ⟨hone, hfirst, maximum, hlength, hlast⟩ := h.dayExists
    have hmaximum : daysInMonth (decimal (plainPart d.year)) (decimal (plainPart d.month)) =
        some maximum := daysInMonth_eq_some.mpr ⟨hone, hlength⟩
    have hday' : 1 ≤ decimal (plainPart d.day) ∧ decimal (plainPart d.day) ≤ maximum :=
      ⟨hfirst, hlast⟩
    unfold validDate
    simp only [hparts, hyear, hmonth, hday, hy, hm, hn, and_self, if_true, hmaximum,
      Bool.and_eq_true, decide_eq_true_eq]
    exact hday'

/-! ## Times -/

/-- Two digits up to a bound. -/
def Within (maximum : Nat) (part : List Char) : Prop := Digits 2 part ∧ decimal part ≤ maximum

/-- Nothing, or a dot and digits. -/
def IsFraction (fraction : List Char) : Prop :=
  fraction = [] ∨ ∃ digits, fraction = '.' :: digits ∧ digits ≠ [] ∧ digits.all Char.isDigit = true

/-- What follows the last dot, after one dot. -/
def plainFraction : List Char → List Char
  | '.' :: rest => '.' :: rest.rtakeWhile (· ≠ '.')
  | fraction => fraction

/-- A clock text taken apart at its colons and its first dot. -/
structure ClockText where
  hour : List Char
  minute : List Char
  second : List Char
  fraction : List Char

inductive ZoneText where
  | utc
  | offset (sign : Char) (hour minute : List Char)

namespace ZoneText

def text : ZoneText → List Char
  | utc => ['Z']
  | offset sign hour minute => sign :: (hour ++ ':' :: minute)

def plain : ZoneText → ZoneText
  | utc => utc
  | offset sign hour minute => offset sign (plainPart hour) (plainPart minute)

def Valid : ZoneText → Prop
  | utc => True
  | offset sign hour minute => (sign = '+' ∨ sign = '-') ∧ Within 23 hour ∧ Within 59 minute

end ZoneText

namespace ClockText

def text (t : ClockText) : List Char :=
  t.hour ++ ':' :: (t.minute ++ ':' :: t.second) ++ t.fraction

def plain (t : ClockText) : ClockText :=
  ⟨plainPart t.hour, plainPart t.minute, plainPart t.second, plainFraction t.fraction⟩

structure Valid (t : ClockText) : Prop where
  hour : Within 23 t.hour
  minute : Within 59 t.minute
  second : Within 59 t.second
  fraction : IsFraction t.fraction

end ClockText

/-- Digits behind one dot are what follows the last dot. -/
theorem plainFraction_of_isFraction {fraction : List Char} (h : IsFraction fraction) :
    plainFraction fraction = fraction := by
  rcases h with rfl | ⟨digits, rfl, -, hdigits⟩
  · rfl
  · rw [plainFraction, List.rtakeWhile_eq_self_iff.mpr]
    intro c hc
    refine decide_eq_true ?_
    rintro rfl
    exact absurd (List.all_eq_true.mp hdigits _ hc) (by decide)

theorem ClockText.plain_of_valid {t : ClockText} (h : t.Valid) : t.plain = t := by
  rw [plain, plainPart_of_digits h.hour.1, plainPart_of_digits h.minute.1,
    plainPart_of_digits h.second.1, plainFraction_of_isFraction h.fraction]

theorem ZoneText.plain_of_valid {z : ZoneText} (h : z.Valid) : z.plain = z := by
  cases z with
  | utc => rfl
  | offset sign hour minute =>
      rw [plain, plainPart_of_digits h.2.1.1, plainPart_of_digits h.2.2.1]

theorem validPart_iff {maximum : Nat} {part : List Char} :
    byteLength part = 2 ∧ validPart maximum part = true ↔ Within maximum (plainPart part) := by
  rw [validPart, Option.any_eq_true, Within]
  constructor
  · rintro ⟨hlength, number, hnumber, hle⟩
    obtain ⟨hdigits, rfl⟩ := (parseU32_eq_some (by decide) (by decide)).mp ⟨hlength, hnumber⟩
    exact ⟨hdigits, of_decide_eq_true hle⟩
  · rintro ⟨hdigits, hle⟩
    obtain ⟨hlength, hnumber⟩ := (parseU32_eq_some (by decide) (by decide)).mpr ⟨hdigits, rfl⟩
    exact ⟨hlength, _, hnumber, decide_eq_true hle⟩

/-- A part holds digits and at most a sign, so no other separator. -/
theorem Within.notMem {maximum : Nat} {part : List Char} (h : Within maximum (plainPart part))
    {c : Char} (hdigit : c.isDigit = false) (hsign : c ≠ '+') : c ∉ part := by
  intro hc
  rcases h.1.mem hc with hc | hc
  · exact absurd hc (by rw [hdigit]; decide)
  · exact hsign hc

theorem splitOnce_append {separator : Char} {before : List Char} (h : separator ∉ before)
    (after : List Char) :
    splitOnce separator (before ++ separator :: after) = some (before, after) := by
  induction before with
  | nil => simp [splitOnce]
  | cons c before ih =>
      have hc : c ≠ separator := fun hc => h (hc ▸ List.mem_cons_self ..)
      rw [List.cons_append, splitOnce, if_neg hc, ih fun hmem => h (List.mem_cons_of_mem _ hmem)]
      rfl

theorem splitOnce_eq_some {separator : Char} {text before after : List Char}
    (h : splitOnce separator text = some (before, after)) :
    text = before ++ separator :: after := by
  induction text generalizing before with
  | nil => cases h
  | cons c text ih =>
      rw [splitOnce] at h
      split at h
      · next hc =>
          cases h
          rw [hc]
          rfl
      · obtain ⟨parts, hparts, hcons⟩ := Option.map_eq_some_iff.mp h
        cases hcons
        rw [ih hparts]
        rfl

/-- What follows the last separator. -/
theorem afterLast_append {separator : Char} (before after : List Char) :
    afterLast separator (before ++ separator :: after) =
      some (after.rtakeWhile (· ≠ separator)) := by
  have hmem : separator ∈ (before ++ separator :: after).reverse := by simp
  obtain ⟨last, rest, hreverse, hlast⟩ := List.eq_append_cons_of_mem hmem
  rw [afterLast, ← rtakeWhile_append_separator before after, List.rtakeWhile, hreverse,
    splitOnce_append hlast, takeWhile_append_separator hlast]
  rfl

/-- A clock is cut at its first dot, and its fraction at the last one. -/
theorem validClock_append {base fraction : List Char} (hbase : '.' ∉ base)
    (hfraction : fraction = [] ∨ ∃ rest, fraction = '.' :: rest) :
    validClock (base ++ fraction) = true ↔
      (∃ hour minute second, base = hour ++ ':' :: (minute ++ ':' :: second) ∧
        Within 23 (plainPart hour) ∧ Within 59 (plainPart minute) ∧
        Within 59 (plainPart second)) ∧ IsFraction (plainFraction fraction) := by
  have hfirst : ((base ++ fraction).splitOn '.').headD [] = base := by
    rw [headD_splitOn]
    rcases hfraction with rfl | ⟨rest, rfl⟩
    · rw [List.append_nil, List.takeWhile_eq_self_iff]
      exact fun c hc => decide_eq_true fun heq => hbase (heq ▸ hc)
    · exact takeWhile_append_separator hbase rest
  have hdigits : (!(base ++ fraction).contains '.' ||
      (afterLast '.' (base ++ fraction)).any fun fraction =>
        fraction ≠ [] && fraction.all Char.isDigit) = true ↔
      IsFraction (plainFraction fraction) := by
    rcases hfraction with rfl | ⟨rest, rfl⟩
    · have hnone : (base ++ []).contains '.' = false := by simpa using hbase
      rw [hnone]
      exact iff_of_true rfl (.inl rfl)
    · have hsome : (base ++ '.' :: rest).contains '.' = true := by simp
      rw [hsome, afterLast_append, plainFraction, IsFraction]
      simp
  constructor
  · intro h
    unfold validClock at h
    rw [hfirst] at h
    split at h
    · next hour minute second hparts =>
        obtain ⟨-, rest, rfl, hrest⟩ := (splitOn_eq_cons_iff (by simp)).mp hparts
        obtain ⟨-, last, rfl, hlast⟩ := (splitOn_eq_cons_iff (by simp)).mp hrest
        obtain ⟨rfl, -⟩ := splitOn_eq_singleton_iff.mp hlast
        simp only [Bool.and_eq_true, decide_eq_true_eq] at h
        obtain ⟨⟨⟨⟨⟨⟨hh, hm⟩, hs⟩, hour'⟩, minute'⟩, second'⟩, hf⟩ := h
        exact ⟨⟨hour, minute, last, rfl, validPart_iff.mp ⟨hh, hour'⟩,
          validPart_iff.mp ⟨hm, minute'⟩, validPart_iff.mp ⟨hs, second'⟩⟩, hdigits.mp hf⟩
    · cases h
  · rintro ⟨⟨hour, minute, second, hparts, hh, hm, hs⟩, hf⟩
    have hsplit : base.splitOn ':' = [hour, minute, second] := by
      rw [hparts, List.splitOn_append_cons_self_of_not_mem (hh.notMem rfl (by decide)),
        List.splitOn_append_cons_self_of_not_mem (hm.notMem rfl (by decide)),
        List.splitOn_eq_singleton (hs.notMem rfl (by decide))]
    obtain ⟨hh, hour'⟩ := validPart_iff.mpr hh
    obtain ⟨hm, minute'⟩ := validPart_iff.mpr hm
    obtain ⟨hs, second'⟩ := validPart_iff.mpr hs
    unfold validClock
    rw [hfirst, hsplit]
    simp only [hh, hm, hs, hour', minute', second', Bool.and_self, Bool.true_and, decide_true]
    exact hdigits.mpr hf

theorem validClock_iff {clock : List Char} :
    validClock clock = true ↔ ∃ t : ClockText, t.text = clock ∧ t.plain.Valid := by
  constructor
  · intro h
    obtain ⟨base, fraction, rfl, hbase, hfraction⟩ := exists_first_cut '.' clock
    rw [validClock_append hbase hfraction] at h
    obtain ⟨⟨hour, minute, second, hparts, hh, hm, hs⟩, hf⟩ := h
    refine ⟨⟨hour, minute, second, fraction⟩, ?_, ⟨hh, hm, hs, hf⟩⟩
    rw [ClockText.text, ← hparts]
  · rintro ⟨t, rfl, h⟩
    have hbase : '.' ∉ t.hour ++ ':' :: (t.minute ++ ':' :: t.second) := by
      have hhour := h.hour.notMem (c := '.') rfl (by decide)
      have hminute := h.minute.notMem (c := '.') rfl (by decide)
      have hsecond := h.second.notMem (c := '.') rfl (by decide)
      simp [hhour, hminute, hsecond]
    have hfraction : t.fraction = [] ∨ ∃ rest, t.fraction = '.' :: rest := by
      have hf := h.fraction
      change IsFraction (plainFraction t.fraction) at hf
      unfold plainFraction at hf
      split at hf
      · next rest heq => exact .inr ⟨rest, heq⟩
      · rcases hf with hnil | ⟨digits, heq, -⟩
        · exact .inl hnil
        · exact .inr ⟨digits, heq⟩
    exact (validClock_append hbase hfraction).mpr
      ⟨⟨t.hour, t.minute, t.second, rfl, h.hour, h.minute, h.second⟩, h.fraction⟩

/-- The zone of a time that does not end in `Z`. -/
theorem validZone_offset {sign : Char} {rest : List Char} (hsign : sign = '+' ∨ sign = '-') :
    validZone (sign :: rest) = some true ↔
      ∃ hour minute, rest = hour ++ ':' :: minute ∧ Within 23 (plainPart hour) ∧
        Within 59 (plainPart minute) := by
  have hzulu : sign :: rest ≠ ['Z'] := by
    rcases hsign with rfl | rfl <;> simp
  have hsize : byteLength [sign] = 1 := by
    rcases hsign with rfl | rfl <;> rfl
  have hsplit : splitAtByte 1 (sign :: rest) = some ([sign], rest) :=
    splitAtByte_eq_some.mpr ⟨rfl, hsize⟩
  rw [validZone, if_neg hzulu, hsplit]
  simp only [Option.map_some, Option.some.injEq]
  constructor
  · intro h
    split at h
    · next hour minute hparts =>
        obtain ⟨-, last, rfl, hlast⟩ := (splitOn_eq_cons_iff (by simp)).mp hparts
        obtain ⟨rfl, -⟩ := splitOn_eq_singleton_iff.mp hlast
        simp only [Bool.and_eq_true, decide_eq_true_eq] at h
        exact ⟨hour, last, rfl, validPart_iff.mp ⟨h.1.1.1, h.1.2⟩,
          validPart_iff.mp ⟨h.1.1.2, h.2⟩⟩
    · cases h
  · rintro ⟨hour, minute, rfl, hh, hm⟩
    have hparts : (hour ++ ':' :: minute).splitOn ':' = [hour, minute] := by
      rw [List.splitOn_append_cons_self_of_not_mem (hh.notMem rfl (by decide)),
        List.splitOn_eq_singleton (hm.notMem rfl (by decide))]
    obtain ⟨hh, hour'⟩ := validPart_iff.mpr hh
    obtain ⟨hm, minute'⟩ := validPart_iff.mpr hm
    simp [hparts, hh, hm, hour', minute']

theorem Within.byteLength_eq {maximum : Nat} {part : List Char}
    (h : Within maximum (plainPart part)) : byteLength part = 2 :=
  (validPart_iff.mpr h).1

theorem byteLength_offset {sign : Char} {hour minute : List Char}
    (h : (ZoneText.offset sign hour minute).plain.Valid) :
    byteLength (ZoneText.offset sign hour minute).text = 6 := by
  obtain ⟨hsign, hh, hm⟩ := h
  have hsize : sign.utf8Size = 1 := by
    rcases hsign with rfl | rfl <;> rfl
  have hcolon : ':'.utf8Size = 1 := rfl
  simp [ZoneText.text, hh.byteLength_eq, hm.byteLength_eq, hsize, hcolon]

/-- A time ends in its zone, so that it ends in `Z` only if the zone is `Z`. -/
theorem getLast?_offset {sign : Char} {hour minute : List Char}
    (h : (ZoneText.offset sign hour minute).plain.Valid) (clock : List Char) :
    (clock ++ (ZoneText.offset sign hour minute).text).getLast? ≠ some 'Z' := by
  intro hlast
  obtain ⟨-, -, hm⟩ := h
  have hmem : 'Z' ∈ minute := by
    have hne : minute ≠ [] := by
      rintro rfl
      exact absurd hm.1.length_eq (by decide)
    have htext : clock ++ (ZoneText.offset sign hour minute).text =
        (clock ++ sign :: (hour ++ [':'])) ++ minute := by simp [ZoneText.text]
    rw [htext, List.getLast?_append, List.getLast?_eq_some_getLast hne, Option.some_or,
      Option.some.injEq] at hlast
    exact hlast ▸ List.getLast_mem hne
  exact hm.notMem rfl (by decide) hmem

/-- What stands before a zone and the zone can be told apart. -/
theorem ZoneText.append_text_injective {z w : ZoneText} {before before' : List Char}
    (hz : z.plain.Valid) (hw : w.plain.Valid) (h : before ++ z.text = before' ++ w.text) :
    before = before' ∧ z = w := by
  cases z with
  | utc =>
      cases w with
      | utc => exact ⟨List.append_cancel_right h, rfl⟩
      | offset sign hour minute =>
          have hlast := getLast?_offset hw before'
          rw [← h] at hlast
          simp [text] at hlast
  | offset sign hour minute =>
      cases w with
      | utc =>
          have hlast := getLast?_offset hz before
          rw [h] at hlast
          simp [text] at hlast
      | offset sign' hour' minute' =>
          have hhour := hz.2.1.1.length_eq.trans hw.2.1.1.length_eq.symm
          have hminute := hz.2.2.1.length_eq.trans hw.2.2.1.length_eq.symm
          obtain ⟨hbefore, htext⟩ := List.append_inj' h (by simp [text, hhour, hminute])
          obtain ⟨hsign, hrest⟩ := List.cons.inj htext
          obtain ⟨hour_eq, hrest⟩ := List.append_inj hrest hhour
          exact ⟨hbefore, by rw [hsign, hour_eq, (List.cons.inj hrest).2]⟩

theorem splitZone_eq_some {time clock zone : List Char} :
    splitZone time = some (some (clock, zone)) ↔ time = clock ++ zone ∧
      (zone = ['Z'] ∨ time.getLast? ≠ some 'Z' ∧ byteLength zone = 6 ∧
        ∃ sign rest, zone = sign :: rest ∧ (sign = '+' ∨ sign = '-')) := by
  unfold splitZone stripSuffix
  by_cases hzulu : time.getLast? = some 'Z'
  · rw [if_pos hzulu]
    obtain ⟨before, rfl⟩ := List.getLast?_eq_some_iff.mp hzulu
    simp only [List.dropLast_concat, Option.some.injEq, Prod.mk.injEq]
    constructor
    · rintro ⟨rfl, rfl⟩
      exact ⟨rfl, .inl rfl⟩
    · rintro ⟨htime, rfl | ⟨hnot, -⟩⟩
      · exact ⟨List.append_cancel_right htime, rfl⟩
      · exact absurd hzulu hnot
  · rw [if_neg hzulu]
    constructor
    · intro h
      split at h
      · next heq => cases heq
      split at h
      · next hlong =>
          obtain ⟨⟨before, cut⟩, hcut, hparts⟩ := Option.map_eq_some_iff.mp h
          obtain ⟨rfl, hlength⟩ := splitAtByte_eq_some.mp hcut
          simp only at hparts
          split at hparts
          · next hsign =>
              obtain ⟨rfl, rfl⟩ := Prod.mk.inj (Option.some.inj hparts)
              rw [byteLength_append] at hlength hlong
              refine ⟨rfl, .inr ⟨hzulu, by omega, ?_⟩⟩
              rcases hsign with hsign | hsign
              · obtain ⟨rest, hrest⟩ := List.head?_eq_some_iff.mp hsign
                exact ⟨'+', rest, hrest, .inl rfl⟩
              · obtain ⟨rest, hrest⟩ := List.head?_eq_some_iff.mp hsign
                exact ⟨'-', rest, hrest, .inr rfl⟩
          · cases hparts
      · cases h
    · rintro ⟨rfl, rfl | ⟨-, hlength, sign, rest, rfl, hsign⟩⟩
      · simp at hzulu
      · have hsplit : splitAtByte (byteLength (clock ++ sign :: rest) - 6) (clock ++ sign :: rest) =
            some (clock, sign :: rest) := by
          refine splitAtByte_eq_some.mpr ⟨rfl, ?_⟩
          rw [byteLength_append, hlength, Nat.add_sub_cancel]
        have hlong : 6 ≤ byteLength (clock ++ sign :: rest) := by
          rw [byteLength_append, hlength]
          exact Nat.le_add_left _ _
        simp only [if_pos hlong, hsplit, Option.map_some, List.head?_cons, Option.some.injEq,
          if_pos hsign]

/-- What is accepted behind the date. -/
def acceptsTime (time : List Char) : Option Bool :=
  (splitZone time).bind fun
    | none => some false
    | some (clock, zone) => if validClock clock then validZone zone else some false

theorem acceptsTime_iff {time : List Char} :
    acceptsTime time = some true ↔
      ∃ (t : ClockText) (z : ZoneText), t.text ++ z.text = time ∧ t.plain.Valid ∧ z.plain.Valid := by
  constructor
  · intro h
    obtain ⟨split, hsplit, hzone⟩ := Option.bind_eq_some_iff.mp h
    obtain _ | ⟨clock, zone⟩ := split
    · cases hzone
    simp only at hzone
    split at hzone
    · next hclock =>
        obtain ⟨t, rfl, ht⟩ := validClock_iff.mp hclock
        obtain ⟨rfl, rfl | ⟨-, -, sign, rest, rfl, hsign⟩⟩ := splitZone_eq_some.mp hsplit
        · exact ⟨t, .utc, rfl, ht, trivial⟩
        · obtain ⟨hour, minute, rfl, hh, hm⟩ := (validZone_offset hsign).mp hzone
          exact ⟨t, .offset sign hour minute, rfl, ht, hsign, hh, hm⟩
    · cases hzone
  · rintro ⟨t, z, rfl, ht, hz⟩
    have hclock : validClock t.text = true := validClock_iff.mpr ⟨t, rfl, ht⟩
    cases z with
    | utc =>
        have hsplit : splitZone (t.text ++ ['Z']) = some (some (t.text, ['Z'])) :=
          splitZone_eq_some.mpr ⟨rfl, .inl rfl⟩
        rw [acceptsTime, ZoneText.text, hsplit, Option.bind_some]
        simp only [hclock, if_true]
        rfl
    | offset sign hour minute =>
        have hsplit := splitZone_eq_some.mpr ⟨rfl, .inr ⟨getLast?_offset hz t.text,
          byteLength_offset hz, sign, hour ++ ':' :: minute, rfl, hz.1⟩⟩
        rw [acceptsTime, hsplit, Option.bind_some]
        simp only [hclock, if_true]
        exact (validZone_offset hz.1).mpr ⟨hour, minute, rfl, hz.2⟩

namespace ClockText

theorem text_append_injective {t u : ClockText} {z w : ZoneText} (ht : t.plain.Valid)
    (hu : u.plain.Valid) (hz : z.plain.Valid) (hw : w.plain.Valid)
    (h : t.text ++ z.text = u.text ++ w.text) : t = u ∧ z = w := by
  have hparts (c : ClockText) (zone : ZoneText) : c.text ++ zone.text =
      c.hour ++ ':' :: (c.minute ++ ':' :: (c.second ++ (c.fraction ++ zone.text))) := by
    simp [text]
  rw [hparts, hparts] at h
  obtain ⟨hhour, h⟩ := List.append_inj h (ht.hour.1.length_eq.trans hu.hour.1.length_eq.symm)
  obtain ⟨hminute, h⟩ := List.append_inj (List.cons.inj h).2
    (ht.minute.1.length_eq.trans hu.minute.1.length_eq.symm)
  obtain ⟨hsecond, h⟩ := List.append_inj (List.cons.inj h).2
    (ht.second.1.length_eq.trans hu.second.1.length_eq.symm)
  obtain ⟨hfraction, hzone⟩ := ZoneText.append_text_injective hz hw h
  refine ⟨?_, hzone⟩
  cases t
  cases u
  simp_all

end ClockText

/-! ## Date-times -/

/-- A date-time text taken apart. -/
structure DateTimeText where
  date : DateText
  clock : ClockText
  zone : ZoneText

namespace DateTimeText

def text (d : DateTimeText) : List Char := d.date.text ++ 'T' :: (d.clock.text ++ d.zone.text)

def plain (d : DateTimeText) : DateTimeText := ⟨d.date.plain, d.clock.plain, d.zone.plain⟩

structure Valid (d : DateTimeText) : Prop where
  date : d.date.Valid
  clock : d.clock.Valid
  zone : d.zone.Valid

theorem plain_of_valid {d : DateTimeText} (h : d.Valid) : d.plain = d := by
  rw [plain, DateText.plain_of_valid h.date, ClockText.plain_of_valid h.clock,
    ZoneText.plain_of_valid h.zone]

/-- The lengths of the parts leave one way to take a date-time apart. -/
theorem text_injective {d e : DateTimeText} (hd : d.plain.Valid) (he : e.plain.Valid)
    (h : d.text = e.text) : d = e := by
  obtain ⟨hdate, h⟩ := List.append_inj h
    ((DateText.length_text hd.date).trans (DateText.length_text he.date).symm)
  obtain ⟨hclock, hzone⟩ := ClockText.text_append_injective hd.clock he.clock hd.zone he.zone
    (List.cons.inj h).2
  have hdate := DateText.text_injective hd.date he.date hdate
  cases d
  cases e
  simp_all

end DateTimeText

/-- An RFC 3339 date-time, in capital letters. -/
def DateTime (text : List Char) : Prop := ∃ d : DateTimeText, d.text = text ∧ d.Valid

/-- A date-time, except that a plus sign stands for the leading zero of one of its parts or that
its fraction has a second dot, with anything or nothing between its two dots. -/
def LooseDateTime (text : List Char) : Prop :=
  ∃ d : DateTimeText, d.text = text ∧ d.plain.Valid ∧ d.plain ≠ d

theorem validDateTime_iff {text : List Char} :
    validDateTime text = some true ↔ ∃ d : DateTimeText, d.text = text ∧ d.plain.Valid := by
  have htime (date time : List Char) (hsplit : splitOnce 'T' text = some (date, time)) :
      validDateTime text = if !validDate date then some false else acceptsTime time := by
    rw [validDateTime, hsplit]
    rfl
  constructor
  · intro h
    cases hsplit : splitOnce 'T' text with
    | none =>
        rw [validDateTime, hsplit] at h
        cases h
    | some parts =>
        obtain ⟨date, time⟩ := parts
        rw [htime date time hsplit] at h
        split at h
        · cases h
        · next hdate =>
            rw [Bool.not_eq_true, Bool.not_eq_false'] at hdate
            obtain ⟨d, rfl, hd⟩ := validDate_iff.mp hdate
            obtain ⟨t, z, rfl, ht, hz⟩ := acceptsTime_iff.mp h
            exact ⟨⟨d, t, z⟩, (splitOnce_eq_some hsplit).symm, hd, ht, hz⟩
  · rintro ⟨d, rfl, h⟩
    have hmark : 'T' ∉ d.date.text := by
      intro hmem
      rcases DateText.mem_text h.date hmem with hc | hc | hc
      · exact absurd hc (by decide)
      · exact absurd hc (by decide)
      · exact absurd hc (by decide)
    have hdate : validDate d.date.text = true := validDate_iff.mpr ⟨d.date, rfl, h.date⟩
    rw [htime d.date.text (d.clock.text ++ d.zone.text) (splitOnce_append hmark _), hdate]
    exact acceptsTime_iff.mpr ⟨d.clock, d.zone, rfl, h.clock, h.zone⟩

/-! ## Which texts are read as RFC 3339 reads them -/

/-- A recogniser that takes a text for its plain form errs on the texts that are not plain. -/
private theorem exact_iff {Parts : Type} {text : Parts → List Char} {plain : Parts → Parts}
    {Valid : Parts → Prop} {accepted : Prop} {value : List Char}
    (haccepted : accepted ↔ ∃ d, text d = value ∧ Valid (plain d))
    (hplain : ∀ d, Valid d → plain d = d)
    (hunique : ∀ d e, Valid (plain d) → Valid (plain e) → text d = text e → d = e) :
    ((accepted ↔ ∃ d, text d = value ∧ Valid d) ↔
      ¬∃ d, text d = value ∧ Valid (plain d) ∧ plain d ≠ d) := by
  constructor
  · rintro hexact ⟨d, hd, hvalid, hne⟩
    obtain ⟨e, he, hvalid'⟩ := hexact.mp (haccepted.mpr ⟨d, hd, hvalid⟩)
    have hsame : d = e :=
      hunique d e hvalid ((hplain e hvalid').symm ▸ hvalid') (hd.trans he.symm)
    exact hne (hsame ▸ hplain e hvalid')
  · intro hnone
    rw [haccepted]
    constructor
    · rintro ⟨d, hd, hvalid⟩
      have hsame : plain d = d := by
        by_contra hne
        exact hnone ⟨d, hd, hvalid, hne⟩
      exact ⟨d, hd, hsame ▸ hvalid⟩
    · rintro ⟨d, hd, hvalid⟩
      exact ⟨d, hd, (hplain d hvalid).symm ▸ hvalid⟩

/-- The date validator accepts exactly the full-dates, and the date-time validator exactly the
date-times, but for the texts that are dates with a plus sign in place of a part's leading zero or
date-times with a second dot in the fraction. -/
theorem validators_exact_iff (text : List Char) :
    ((validDate text = true ↔ FullDate text) ↔ ¬SignedDate text) ∧
      ((validDateTime text = some true ↔ DateTime text) ↔ ¬LooseDateTime text) :=
  ⟨exact_iff validDate_iff (fun _ => DateText.plain_of_valid) fun _ _ => DateText.text_injective,
    exact_iff validDateTime_iff (fun _ => DateTimeText.plain_of_valid)
      fun _ _ => DateTimeText.text_injective⟩

/-- A plus sign passes for the leading zero of a year. -/
theorem signed_date_accepted :
    ¬∀ text, (validDate text = true ↔ FullDate text) ∧
      (validDateTime text ≠ none → (validDateTime text = some true ↔ DateTime text)) := by
  intro h
  obtain ⟨d, htext, hvalid⟩ := (h "+024-01-01".toList).1.mp (by decide +kernel)
  have hsame : d = ⟨"+024".toList, "01".toList, "01".toList⟩ := by
    refine DateText.text_injective ((DateText.plain_of_valid hvalid).symm ▸ hvalid) ?_ htext
    exact ⟨by decide, by decide, by decide, by decide, by decide, 31, by decide, by decide⟩
  have hdigits := hvalid.year.2
  rw [hsame] at hdigits
  exact absurd hdigits (by decide)

end Attyd.Elicitation
