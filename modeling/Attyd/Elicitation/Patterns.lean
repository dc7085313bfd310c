import Attyd.Elicitation.Validation
import Mathlib.Data.List.Basic

/-!
# What an accepted pattern looks like

The check of a pattern scans its characters once, with a stack of the open groups. Here a
pattern is read as the regular expression that the browser makes of it: a sequence of
characters, escapes, classes and groups. The scan of the characters of such a reading is
followed along the reading, group by group.

## Implementation notes

Only what the nesting depends on is read. A quantifier, an alternative or an anchor is a
character, and the marks after the opening of a group are the first characters of its body. A
class ends at its first `]` that has no backslash before it, wherever that stands.
-/

namespace Attyd.Elicitation

/-- An item between the brackets of a class. -/
inductive ClassItem where
  | char (c : Char) (inside : c ≠ '\\' ∧ c ≠ ']')
  | escape (c : Char)
deriving DecidableEq

def ClassItem.text : ClassItem → List Char
  | .char c _ => [c]
  | .escape c => ['\\', c]

/-- A character that opens no escape, class or group and closes no group. -/
def PlainChar (c : Char) : Prop :=
  c ≠ '\\' ∧ c ≠ '[' ∧ c ≠ '(' ∧ c ≠ ')'

instance (c : Char) : Decidable (PlainChar c) :=
  inferInstanceAs (Decidable (_ ∧ _))

/-- A regular expression as the browser reads it: its first element and the elements after. -/
inductive Pattern where
  | empty
  | char (c : Char) (plain : PlainChar c) (later : Pattern)
  | escape (c : Char) (later : Pattern)
  | charClass (items : List ClassItem) (later : Pattern)
  | group (body later : Pattern)

namespace Pattern

/-- The characters that are read so. -/
def text : Pattern → List Char
  | empty => []
  | char c _ later => c :: later.text
  | escape c later => '\\' :: c :: later.text
  | charClass items later => '[' :: (items.flatMap ClassItem.text ++ ']' :: later.text)
  | group body later => '(' :: (body.text ++ ')' :: later.text)

/-- The marks of a repetition that may be repeated in its turn. -/
def isRepetition (c : Char) : Bool := c = '*' || c = '+' || c = '{'

/-- An unescaped repetition or alternative stands outside a class, in a group or not. -/
def complex : Pattern → Bool
  | empty => false
  | char c _ later => isRepetition c || c = '|' || later.complex
  | escape _ later => later.complex
  | charClass _ later => later.complex
  | group body later => body.complex || later.complex

/-- The first element is the mark of a repetition. -/
def startsRepeated : Pattern → Bool
  | char c _ _ => isRepetition c
  | _ => false

/-- The group around a body captures: the body starts with no mark of a group. -/
def Capturing (body : Pattern) : Prop := body.text.head? ≠ some '?'

/-- The group around a body is written `(?:…)`. -/
def NonCapturing (body : Pattern) : Prop := ∃ later, body.text = '?' :: ':' :: later

/-- The escape of a character refers back to a group by its number. -/
def IsBackReference (c : Char) : Prop := '1' ≤ c ∧ c ≤ '9'

/-- Every group captures or is written `(?:…)`, and none that is directly followed by the mark
of a repetition has a repetition or an alternative in it. -/
def GroupsSafe : Pattern → Prop
  | empty => True
  | char _ _ later => later.GroupsSafe
  | escape _ later => later.GroupsSafe
  | charClass _ later => later.GroupsSafe
  | group body later =>
      (body.Capturing ∨ body.NonCapturing) ∧
        (later.startsRepeated = true → body.complex = false) ∧
        body.GroupsSafe ∧ later.GroupsSafe

/-- No escape, in a class or outside, is a back reference. -/
def NoBackReference : Pattern → Prop
  | empty => True
  | char _ _ later => later.NoBackReference
  | escape c later => ¬ IsBackReference c ∧ later.NoBackReference
  | charClass items later =>
      (∀ c, .escape c ∈ items → ¬ IsBackReference c) ∧ later.NoBackReference
  | group body later => body.NoBackReference ∧ later.NoBackReference

/-! ## One reading at most -/

/-- Nothing follows, or the group around is closed. -/
def AtEnd (later : List Char) : Prop := later = [] ∨ ∃ rest, later = ')' :: rest

theorem items_text_injective {items items' : List ClassItem} {later later' : List Char}
    (h : items.flatMap ClassItem.text ++ ']' :: later =
      items'.flatMap ClassItem.text ++ ']' :: later') :
    items = items' ∧ later = later' := by
  induction items generalizing items' with
  | nil =>
      cases items' with
      | nil => exact ⟨rfl, (List.cons.inj h).2⟩
      | cons item items' =>
          cases item with
          | char c inside => exact absurd (List.cons.inj h).1.symm inside.2
          | escape c => exact absurd (List.cons.inj h).1 (by decide)
  | cons item items ih =>
      cases items' with
      | nil =>
          cases item with
          | char c inside => exact absurd (List.cons.inj h).1 inside.2
          | escape c => exact absurd (List.cons.inj h).1 (by decide)
      | cons item' items' =>
          cases item with
          | char c inside =>
              cases item' with
              | char c' inside' =>
                  obtain ⟨hc, hrest⟩ := List.cons.inj h
                  obtain ⟨rfl, hlater⟩ := ih hrest
                  subst hc
                  exact ⟨rfl, hlater⟩
              | escape c' => exact absurd (List.cons.inj h).1 inside.1
          | escape c =>
              cases item' with
              | char c' inside' => exact absurd (List.cons.inj h).1.symm inside'.1
              | escape c' =>
                  obtain ⟨hc, hrest⟩ := List.cons.inj (List.cons.inj h).2
                  obtain ⟨rfl, hlater⟩ := ih hrest
                  subst hc
                  exact ⟨rfl, hlater⟩

/-- A pattern is read in one way, up to the end of the group around it. -/
theorem text_injective {p q : Pattern} {later later' : List Char} (hlater : AtEnd later)
    (hlater' : AtEnd later') (h : p.text ++ later = q.text ++ later') :
    p = q ∧ later = later' := by
  induction p generalizing q later later' with
  | empty =>
      cases q with
      | empty => exact ⟨rfl, h⟩
      | char c plain q => grind [text, AtEnd, PlainChar]
      | _ => grind [text, AtEnd]
  | char c plain p ih =>
      cases q with
      | char c' plain' q =>
          obtain ⟨hc, hrest⟩ := List.cons.inj h
          obtain ⟨rfl, hend⟩ := ih hlater hlater' hrest
          subst hc
          exact ⟨rfl, hend⟩
      | _ => grind [text, AtEnd, PlainChar]
  | escape c p ih =>
      cases q with
      | escape c' q =>
          obtain ⟨hc, hrest⟩ := List.cons.inj (List.cons.inj h).2
          obtain ⟨rfl, hend⟩ := ih hlater hlater' hrest
          subst hc
          exact ⟨rfl, hend⟩
      | char c' plain' q => grind [text, PlainChar]
      | _ => grind [text, AtEnd]
  | charClass items p ih =>
      cases q with
      | charClass items' q =>
          simp only [text, List.cons_append, List.append_assoc, List.cons.injEq, true_and] at h
          obtain ⟨rfl, hrest⟩ := items_text_injective h
          obtain ⟨rfl, hend⟩ := ih hlater hlater' hrest
          exact ⟨rfl, hend⟩
      | char c' plain' q => grind [text, PlainChar]
      | _ => grind [text, AtEnd]
  | group body p ihBody ih =>
      cases q with
      | group body' q =>
          simp only [text, List.cons_append, List.append_assoc, List.cons.injEq, true_and] at h
          obtain ⟨rfl, hrest⟩ := ihBody (.inr ⟨_, rfl⟩) (.inr ⟨_, rfl⟩) h
          obtain ⟨rfl, hend⟩ := ih hlater hlater' (List.cons.inj hrest).2
          exact ⟨rfl, hend⟩
      | char c' plain' q => grind [text, PlainChar]
      | _ => grind [text, AtEnd]

/-! ## The scan along a reading -/

/-- Within a class the scan goes on to the bracket that ends it. -/
theorem scan_items (stack : List Bool) (closed : Option Bool) (items : List ClassItem)
    (later : List Char)
    (h : scanPattern ⟨stack, true, false, closed⟩
      (items.flatMap ClassItem.text ++ ']' :: later) = false) :
    ∃ closed', scanPattern ⟨stack, false, false, closed'⟩ later = false := by
  induction items generalizing closed with
  | nil => exact ⟨closed, by simpa [scanPattern] using h⟩
  | cons item items ih =>
      cases item with
      | char c inside =>
          refine ih closed ?_
          simpa [scanPattern, ClassItem.text, inside.1, inside.2] using h
      | escape c =>
          refine ih none ?_
          simpa [scanPattern, ClassItem.text] using h

/-- A plain character after which the scan goes on: it is not the mark of a repetition of a
group with a repetition in it, and it is counted in the innermost group. -/
theorem scan_char (group : Bool) (stack : List Bool) (closed : Option Bool) {c : Char}
    (plain : PlainChar c) {later : List Char}
    (h : scanPattern ⟨group :: stack, false, false, closed⟩ (c :: later) = false) :
    (isRepetition c = true → closed ≠ some true) ∧
      ∃ closed', scanPattern
        ⟨(group || (isRepetition c || c = '|')) :: stack, false, false, closed'⟩ later = false := by
  obtain ⟨hescape, hclass, hopen, hclose⟩ := plain
  simp only [scanPattern, hescape, hclass, hopen, hclose, Bool.false_eq_true, if_false,
    decide_false, Bool.false_and, Bool.and_false] at h
  cases hrepetition : isRepetition c with
  | true =>
      have hmark : (c = '*' || c = '+' || c = '{') = true := hrepetition
      rw [if_pos hmark] at h
      split at h
      · simp at h
      · rename_i hclosed
        exact ⟨fun _ => hclosed, none, by simpa [PatternScan.markComplex] using h⟩
  | false =>
      have hmark : ¬ (c = '*' || c = '+' || c = '{') = true := by
        simpa [isRepetition] using hrepetition
      rw [if_neg hmark] at h
      refine ⟨fun hc => absurd hc (by simp), ?_⟩
      by_cases hbar : c = '|'
      · subst hbar
        exact ⟨none, by simpa [PatternScan.markComplex, isWhitespace] using h⟩
      · by_cases hspace : isWhitespace c = true
        · exact ⟨closed, by simpa [hbar, hspace] using h⟩
        · exact ⟨none, by simpa [hbar, hspace] using h⟩

/-- The opening of a group that the scan goes into: it captures or is written `(?:…)`. -/
theorem scan_open (stack : List Bool) (closed : Option Bool) (body : Pattern)
    (later : List Char)
    (h : scanPattern ⟨stack, false, false, closed⟩ ('(' :: (body.text ++ ')' :: later)) = false) :
    (body.Capturing ∨ body.NonCapturing) ∧
      scanPattern ⟨false :: stack, false, false, none⟩ (body.text ++ ')' :: later) = false := by
  simp only [scanPattern, Bool.false_eq_true, if_false, Char.reduceEq, decide_false,
    Bool.and_false, decide_true, Bool.not_false, Bool.and_true] at h
  split at h
  · simp at h
  · rename_i hmarks
    refine ⟨?_, h⟩
    cases hbody : body.text with
    | nil => exact .inl (by simp [Capturing, hbody])
    | cons c marks =>
        by_cases hc : c = '?'
        · right
          subst hc
          rw [hbody] at hmarks
          cases marks with
          | nil => simp at hmarks
          | cons c' marks =>
              have hcolon : c' = ':' := by simpa using hmarks
              exact ⟨marks, by rw [hbody, hcolon]⟩
        · exact .inl (by simp [Capturing, hbody, hc])

/-- The end of a group: what it has in it is in the group around it too. -/
theorem scan_close (group parent : Bool) (stack : List Bool) (closed : Option Bool)
    (later : List Char) :
    scanPattern ⟨group :: parent :: stack, false, false, closed⟩ (')' :: later) =
      scanPattern ⟨(parent || group) :: stack, false, false, some group⟩ later := by
  simp [scanPattern]

/-- The scan of a reading goes to its end with all of it counted, and finds nothing on the way
only if its groups are as they should be. -/
theorem scan_text (p : Pattern) (group : Bool) (stack : List Bool) (closed : Option Bool)
    (later : List Char)
    (h : scanPattern ⟨group :: stack, false, false, closed⟩ (p.text ++ later) = false) :
    p.GroupsSafe ∧ (p.startsRepeated = true → closed ≠ some true) ∧
      ∃ closed', scanPattern ⟨(group || p.complex) :: stack, false, false, closed'⟩ later =
        false := by
  induction p generalizing group stack closed later with
  | empty => exact ⟨trivial, by simp [startsRepeated], closed, by simpa [text, complex] using h⟩
  | char c plain p ih =>
      obtain ⟨hclosed, closed', hnext⟩ := scan_char group stack closed plain h
      obtain ⟨hsafe, -, hend⟩ := ih _ stack closed' later hnext
      exact ⟨hsafe, hclosed, by simpa [complex, Bool.or_assoc] using hend⟩
  | escape c p ih =>
      have hnext : scanPattern ⟨group :: stack, false, false, none⟩ (p.text ++ later) = false := by
        simpa [text, scanPattern] using h
      obtain ⟨hsafe, -, hend⟩ := ih group stack none later hnext
      exact ⟨hsafe, by simp [startsRepeated], hend⟩
  | charClass items p ih =>
      have hclass : scanPattern ⟨group :: stack, true, false, none⟩
          (items.flatMap ClassItem.text ++ ']' :: (p.text ++ later)) = false := by
        simpa [text, scanPattern] using h
      obtain ⟨closed', hnext⟩ := scan_items _ none items _ hclass
      obtain ⟨hsafe, -, hend⟩ := ih group stack closed' later hnext
      exact ⟨hsafe, by simp [startsRepeated], hend⟩
  | group body p ihBody ih =>
      have hgroup : scanPattern ⟨group :: stack, false, false, closed⟩
          ('(' :: (body.text ++ ')' :: (p.text ++ later))) = false := by
        simpa [text] using h
      obtain ⟨hmarks, hinside⟩ := scan_open _ closed body _ hgroup
      obtain ⟨hbody, -, closed', hclose⟩ := ihBody false _ none _ hinside
      rw [scan_close, Bool.false_or] at hclose
      obtain ⟨hsafe, hrepeated, hend⟩ := ih _ stack _ later hclose
      refine ⟨⟨hmarks, fun hp => ?_, hbody, hsafe⟩, by simp [startsRepeated], ?_⟩
      · simpa using hrepeated hp
      · simpa [complex, Bool.or_assoc] using hend

/-! ## Back references -/

/-- What has no back reference written in it has none from any character on. -/
theorem hasBackReference_append (front : List Char) {back : List Char}
    (h : hasBackReference (front ++ back) = false) : hasBackReference back = false := by
  induction front with
  | nil => exact h
  | cons c front ih =>
      refine ih ?_
      cases hlater : front ++ back with
      | nil => simp [hasBackReference]
      | cons d later =>
          rw [List.cons_append, hlater] at h
          exact (Bool.or_eq_false_iff.1 h).2

/-- An escape in a text with no back reference is none. -/
theorem not_isBackReference (front back : List Char) {c : Char}
    (h : hasBackReference (front ++ '\\' :: c :: back) = false) : ¬ IsBackReference c := by
  have hescape := (Bool.or_eq_false_iff.1 (hasBackReference_append front h)).1
  simpa [IsBackReference] using hescape

/-- A reading of a text in which no backslash stands before a digit has no back reference. -/
theorem noBackReference_text (p : Pattern) (front back : List Char)
    (h : hasBackReference (front ++ p.text ++ back) = false) : p.NoBackReference := by
  induction p generalizing front back with
  | empty => trivial
  | char c plain p ih =>
      refine ih (front ++ [c]) back ?_
      simpa [text] using h
  | escape c p ih =>
      refine ⟨not_isBackReference front (p.text ++ back) ?_,
        ih (front ++ ['\\', c]) back ?_⟩
      · simpa [text] using h
      · simpa [text] using h
  | charClass items p ih =>
      refine ⟨fun c hc => ?_, ih (front ++ '[' :: items.flatMap ClassItem.text ++ [']']) back ?_⟩
      · obtain ⟨before, after, rfl⟩ := List.append_of_mem hc
        refine not_isBackReference (front ++ '[' :: before.flatMap ClassItem.text)
          (after.flatMap ClassItem.text ++ ']' :: p.text ++ back) ?_
        simpa [text, ClassItem.text] using h
      · simpa [text] using h
  | group body p ihBody ih =>
      refine ⟨ihBody (front ++ ['(']) (')' :: p.text ++ back) ?_,
        ih (front ++ '(' :: body.text ++ [')']) back ?_⟩
      · simpa [text] using h
      · simpa [text] using h

end Pattern

open Pattern in
/-- An accepted pattern, read as the browser reads it, has groups that capture or are written
`(?:…)`, repeats none with a repetition or an alternative in it, and refers back to none. -/
theorem validateSafePattern_safe (readers : Readers) (name source : String) (p : Pattern)
    (hread : p.text = source.toList)
    (h : validateSafePattern readers name source = .ok ()) :
    p.GroupsSafe ∧ p.NoBackReference := by
  rw [validateSafePattern] at h
  split at h
  · simp at h
  · split at h
    · simp at h
    · rename_i hunsafe
      obtain ⟨hback, hgroups⟩ := Bool.or_eq_false_iff.1 (Bool.eq_false_iff.2 hunsafe)
      rw [← hread] at hback hgroups
      refine ⟨(scan_text p false [] none [] ?_).1, noBackReference_text p [] [] ?_⟩
      · simpa [hasUnsafeQuantifiedGroup] using hgroups
      · simpa using hback

/-- What the browser reads of the pattern `(?:[+(]\d|b)?(x)+`. -/
def exampleReading : Pattern :=
  .group
    (.char '?' (by decide) <| .char ':' (by decide) <|
      .charClass [.char '+' (by decide), .char '(' (by decide)] <| .escape 'd' <|
      .char '|' (by decide) <| .char 'b' (by decide) .empty)
    (.char '?' (by decide) <|
      .group (.char 'x' (by decide) .empty) (.char '+' (by decide) .empty))

/-- A pattern with an alternative in a group that is not repeated, and a repeated group. -/
theorem validateSafePattern_safe_optional_group :
    exampleReading.GroupsSafe ∧ exampleReading.NoBackReference :=
  validateSafePattern_safe ⟨fun _ => some fun _ => true, fun _ => none, fun _ => 0, fun _ => []⟩
    "code" "(?:[+(]\\d|b)?(x)+" exampleReading (by decide +kernel) (by decide +kernel)

end Attyd.Elicitation
