import Attyd.Library.Json
import Attyd.Library.Slices

/-!
# The formats of elicited texts

Dates and date-times are checked by cutting the text at separators and, for the zone of a
date-time, at a fixed byte distance from its end. That cut is the only one that can fall inside a
character.

## Implementation notes

A format check answers `none` where the code panics at a slice. Regular expressions and URLs are
read by parameters, and so are the doubles of numbers, which are finite, and the order of members.
-/

namespace Attyd.Elicitation

/-- How the libraries read patterns, URLs, numbers and objects: a compiled pattern is its matching,
a URL its scheme, a number its double, and an object the keys in the order they were written. -/
structure Readers where
  regex : String → Option (String → Bool)
  url : String → Option String
  f64 : Json.Number → Rat
  order : Json.Value → List String

/-- The text before and after the first occurrence of a character. -/
def splitOnce (separator : Char) : List Char → Option (List Char × List Char)
  | [] => none
  | c :: text =>
      if c = separator then some ([], text)
      else (splitOnce separator text).map fun parts => (c :: parts.1, parts.2)

/-- The text after the last occurrence of a character. -/
def afterLast (separator : Char) (text : List Char) : Option (List Char) :=
  (splitOnce separator text.reverse).map fun parts => parts.1.reverse

def stripSuffix (last : Char) (text : List Char) : Option (List Char) :=
  if text.getLast? = some last then some text.dropLast else none

/-- The digits after an optional plus sign. -/
def unsignedDigits : List Char → List Char
  | '+' :: digits => digits
  | digits => digits

def parseU32 (text : List Char) : Option Nat :=
  let digits := unsignedDigits text
  let number := digits.foldl (fun number digit => number * 10 + (digit.toNat - '0'.toNat)) 0
  if digits ≠ [] ∧ digits.all Char.isDigit = true ∧ number < 2 ^ 32 then some number else none

def daysInMonth (year month : Nat) : Option Nat :=
  let leap := year % 4 = 0 ∧ (year % 100 ≠ 0 ∨ year % 400 = 0)
  if month ∈ [1, 3, 5, 7, 8, 10, 12] then some 31
  else if month ∈ [4, 6, 9, 11] then some 30
  else if month = 2 then some (if leap then 29 else 28)
  else none

def validDate (value : List Char) : Bool :=
  match value.splitOn '-' with
  | [year, month, day] =>
      if byteLength year = 4 ∧ byteLength month = 2 ∧ byteLength day = 2 then
        match parseU32 year, parseU32 month, parseU32 day with
        | some year, some month, some day =>
            match daysInMonth year month with
            | some maximum => 1 ≤ day && day ≤ maximum
            | none => false
        | _, _, _ => false
      else false
  | _ => false

/-- The clock and the zone of a time; nothing when the time has no zone. -/
def splitZone (time : List Char) : Option (Option (List Char × List Char)) :=
  match stripSuffix 'Z' time with
  | some clock => some (some (clock, ['Z']))
  | none =>
      if 6 ≤ byteLength time then
        (splitAtByte (byteLength time - 6) time).map fun (clock, zone) =>
          if zone.head? = some '+' ∨ zone.head? = some '-' then some (clock, zone) else none
      else some none

/-- Two digits up to a bound. -/
def validPart (maximum : Nat) (part : List Char) : Bool :=
  (parseU32 part).any (· ≤ maximum)

def validClock (clock : List Char) : Bool :=
  match ((clock.splitOn '.').headD []).splitOn ':' with
  | [hour, minute, second] =>
      (byteLength hour = 2 && byteLength minute = 2 && byteLength second = 2) &&
        validPart 23 hour && validPart 59 minute && validPart 59 second &&
        (!clock.contains '.' ||
          (afterLast '.' clock).any fun fraction =>
            fraction ≠ [] && fraction.all Char.isDigit)
  | _ => false

/-- The zone is cut after its sign. -/
def validZone (zone : List Char) : Option Bool :=
  if zone = ['Z'] then some true
  else (splitAtByte 1 zone).map fun parts =>
    match parts.2.splitOn ':' with
    | [hour, minute] =>
        (byteLength hour = 2 && byteLength minute = 2) && validPart 23 hour && validPart 59 minute
    | _ => false

def validDateTime (value : List Char) : Option Bool :=
  match splitOnce 'T' value with
  | none => some false
  | some (date, time) =>
      if !validDate date then some false
      else
        (splitZone time).bind fun
          | none => some false
          | some (clock, zone) => if validClock clock then validZone zone else some false

def emailPattern : String := "^[^\\s@]+@[^\\s@]+\\.[^\\s@]+$"

def matchesFormat (readers : Readers) (value format : String) : Option Bool :=
  match format with
  | "email" => some ((readers.regex emailPattern).any (· value))
  | "uri" => some ((readers.url value).any (· ≠ ""))
  | "date" => some (validDate value.toList)
  | "date-time" => validDateTime value.toList
  | _ => some false

/-! ## The date-times that are cut inside a character -/

/-- A date stands before the first `T`, the rest does not end in `Z`, has at least six bytes, and
its last six bytes do not begin a character. -/
def CutsCharacter (value : List Char) : Prop :=
  ∃ date time, splitOnce 'T' value = some (date, time) ∧ validDate date = true ∧
    time.getLast? ≠ some 'Z' ∧ 6 ≤ byteLength time ∧
    ∀ clock zone, time = clock ++ zone → byteLength zone ≠ 6

theorem splitZone_eq_none {time : List Char} : splitZone time = none ↔
    time.getLast? ≠ some 'Z' ∧ 6 ≤ byteLength time ∧
      ∀ clock zone, time = clock ++ zone → byteLength zone ≠ 6 := by
  unfold splitZone stripSuffix
  by_cases hzulu : time.getLast? = some 'Z'
  · simp [hzulu]
  by_cases hlong : 6 ≤ byteLength time
  · rw [if_neg hzulu, if_pos hlong]
    simp only [Option.map_eq_none_iff, splitAtByte_eq_none, ne_eq, hzulu, hlong,
      not_false_eq_true, true_and]
    refine forall_congr' fun clock => forall_congr' fun zone => ?_
    refine imp_congr_right fun htime => not_congr ?_
    rw [htime, byteLength_append] at hlong ⊢
    omega
  · simp [hzulu, hlong]

/-- The zone of a time is `Z` or begins with a sign, which is one byte long. -/
theorem splitZone_zone {time clock zone : List Char}
    (h : splitZone time = some (some (clock, zone))) :
    zone = ['Z'] ∨ ∃ sign rest, zone = sign :: rest ∧ (sign = '+' ∨ sign = '-') := by
  unfold splitZone at h
  split at h
  · cases h
    exact .inl rfl
  split at h
  · obtain ⟨⟨before, cut⟩, -, hparts⟩ := Option.map_eq_some_iff.mp h
    simp only at hparts
    split at hparts
    · next hsign =>
        obtain ⟨-, rfl⟩ := Prod.mk.inj (Option.some.inj hparts)
        right
        rcases hsign with hsign | hsign
        · obtain ⟨rest, hrest⟩ := List.head?_eq_some_iff.mp hsign
          exact ⟨'+', rest, hrest, .inl rfl⟩
        · obtain ⟨rest, hrest⟩ := List.head?_eq_some_iff.mp hsign
          exact ⟨'-', rest, hrest, .inr rfl⟩
    · cases hparts
  · cases h

theorem validZone_ne_none {zone : List Char}
    (h : zone = ['Z'] ∨ ∃ sign rest, zone = sign :: rest ∧ (sign = '+' ∨ sign = '-')) :
    validZone zone ≠ none := by
  rcases h with rfl | ⟨sign, rest, rfl, hsign⟩
  · exact Option.some_ne_none _
  · have hsize : byteLength [sign] = 1 := by
      rcases hsign with rfl | rfl <;> rfl
    have hsplit := splitAtByte_byteLength [sign] rest
    rw [hsize, List.singleton_append] at hsplit
    rw [validZone, hsplit]
    split
    · exact Option.some_ne_none _
    · exact Option.some_ne_none _

theorem validDateTime_eq_none {value : List Char} :
    validDateTime value = none ↔ CutsCharacter value := by
  unfold validDateTime CutsCharacter
  cases hsplit : splitOnce 'T' value with
  | none => simp
  | some parts =>
      obtain ⟨date, time⟩ := parts
      cases hdate : validDate date with
      | false => simp [hdate]
      | true =>
          have hrest : ∀ split, splitZone time = some split → (match split with
              | none => some false
              | some (clock, zone) =>
                  if validClock clock then validZone zone else some false) ≠ none := by
            rintro (_ | ⟨clock, zone⟩) hzone
            · exact Option.some_ne_none _
            · simp only
              split
              · exact validZone_ne_none (splitZone_zone hzone)
              · exact Option.some_ne_none _
          simp only [hdate, Bool.not_true, Bool.false_eq_true, if_false, Option.bind_eq_none_iff,
            Option.some.injEq, Prod.mk.injEq]
          constructor
          · intro hnone
            cases hzone : splitZone time with
            | none => exact ⟨date, time, ⟨rfl, rfl⟩, hdate, splitZone_eq_none.mp hzone⟩
            | some split => exact absurd (hnone split hzone) (hrest split hzone)
          · rintro ⟨_, _, ⟨rfl, rfl⟩, -, hcut⟩ split hzone
            rw [splitZone_eq_none.mpr hcut] at hzone
            cases hzone

end Attyd.Elicitation
