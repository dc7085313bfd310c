import Attyd.Terminals.OutputText

/-!
# What is answered and what is shown, over runs

Over any run of a terminal the text that is answered is the end of the decoded buffer, it is
reported as truncated exactly if bytes or text are missing, and it grows with what is read. The
session view shows the same text of a running terminal without a limit only for some buffers:
the fold drops the continuation bytes a buffer begins with, and does not hold a cut character back
behind an ill-formed sequence.
-/

namespace Attyd.Terminals

open Json (Value)

/-- The events of a command that runs. -/
def TerminalEvent.running : TerminalEvent → Bool
  | .read _ | .publish => true
  | .exit _ | .release => false

namespace Terminal

section Received

/-- The bytes that a chunk adds: a reader stops when the terminal is released. -/
def accepted (state : TerminalState) (chunk : List UInt8) : List UInt8 :=
  if state.released || chunk.isEmpty || decide (2 ^ 63 ≤ (state.output ++ chunk).length) then []
  else chunk

/-- The bytes that are read while events happen. -/
def received (terminal : Terminal) : List TerminalEvent → List UInt8
  | [] => []
  | .read chunk :: events =>
      accepted terminal.state chunk ++ received (terminal.step (.read chunk)) events
  | event :: events => received (terminal.step event) events

/-- The buffer is the end of what was read, and is reported as truncated if it is not all. -/
structure Buffers (state : TerminalState) (bytes : List UInt8) : Prop where
  suffix : state.output <:+ bytes
  truncated : state.truncated = true ↔ state.output ≠ bytes

variable {state : TerminalState} {bytes : List UInt8}

theorem Buffers.read (h : Buffers state bytes) (limit : Option ℕ) (chunk : List UInt8) :
    Buffers (state.read limit chunk) (bytes ++ accepted state chunk) := by
  rw [TerminalState.read, accepted]
  by_cases hstop : (state.released || chunk.isEmpty) = true
  · rw [if_pos hstop, if_pos (by simp [hstop]), List.append_nil]
    exact h
  · rw [if_neg hstop]
    by_cases hlength : (state.output ++ chunk).length < 2 ^ 63
    · rw [dif_pos hlength, if_neg (by simp_all)]
      obtain ⟨front, rfl⟩ := h.suffix
      have hle : (state.output ++ chunk).length ≤ (front ++ state.output ++ chunk).length := by
        simp
      refine ⟨(TerminalState.truncate_suffix limit _).trans
        ⟨front, (List.append_assoc ..).symm⟩, ?_⟩
      by_cases hover : limit.any (fun limit => (state.output ++ chunk).length > limit) = true
      · -- The buffer is within its limit again, so bytes are missing.
        obtain ⟨count, rfl, hcount⟩ := (Option.any_eq_true ..).mp hover
        have hcount : count < (state.output ++ chunk).length := of_decide_eq_true hcount
        simp only [hover, Bool.or_true, true_iff]
        intro heq
        have hcut := congrArg List.length heq
        rw [TerminalState.truncate, if_pos hcount] at hcut
        have hdrop := (List.dropWhile_suffix (l := (state.output ++ chunk).drop
          ((state.output ++ chunk).length - count)) Utf8.isContinuation).length_le
        rw [List.length_drop] at hdrop
        omega
      · have huncut : TerminalState.truncate limit (state.output ++ chunk) =
            state.output ++ chunk := by
          cases limit with
          | none => rfl
          | some limit => exact if_neg (by simpa using hover)
        rw [Bool.not_eq_true] at hover
        simp only [hover, Bool.or_false, huncut]
        rw [h.truncated]
        simp
    · rw [dif_neg hlength, if_pos (by simp_all), List.append_nil]
      exact h

theorem Buffers.run {terminal : Terminal} (h : Buffers terminal.state bytes)
    (events : List TerminalEvent) :
    Buffers (Attyd.run step terminal events).state (bytes ++ terminal.received events) := by
  induction events generalizing terminal bytes with
  | nil => simpa [received] using h
  | cons event events ih =>
      cases event with
      | read chunk =>
          rw [received, ← List.append_assoc]
          exact ih (h.read terminal.outputLimit chunk)
      | exit status => exact ih ⟨h.suffix, h.truncated⟩
      | release => exact ih ⟨h.suffix, h.truncated⟩
      | publish =>
          refine ih ?_
          rw [step, publish, TerminalState.emitSnapshot]
          cases terminal.state.releasedPublished <;> exact ⟨h.suffix, h.truncated⟩

theorem outputLimit_step (terminal : Terminal) (event : TerminalEvent) :
    (terminal.step event).outputLimit = terminal.outputLimit := by
  cases event with
  | publish =>
      rw [step, publish, TerminalState.emitSnapshot]
      cases terminal.state.releasedPublished <;> rfl
  | _ => rfl

theorem outputLimit_run (terminal : Terminal) (events : List TerminalEvent) :
    (Attyd.run step terminal events).outputLimit = terminal.outputLimit := by
  induction events generalizing terminal with
  | nil => rfl
  | cons event events ih => exact (ih _).trans (outputLimit_step terminal event)

theorem exitStatus_run {terminal : Terminal} (h : terminal.state.exitStatus = none)
    {events : List TerminalEvent} (hevents : ∀ status, .exit status ∉ events) :
    (Attyd.run step terminal events).state.exitStatus = none := by
  induction events generalizing terminal with
  | nil => exact h
  | cons event events ih =>
      refine ih ?_ fun status hmem => hevents status (List.mem_cons_of_mem event hmem)
      cases event with
      | read chunk =>
          rcases read_cases terminal.outputLimit terminal.state chunk with
            hsame | ⟨-, -, -, -, hexit, -⟩
          · exact (congrArg _ hsame).trans h
          · exact hexit.trans h
      | exit status => exact absurd List.mem_cons_self (hevents status)
      | release => exact h
      | publish =>
          rw [step, publish, TerminalState.emitSnapshot]
          cases terminal.state.releasedPublished <;> exact h

end Received

section View

/-- The character that replaces an ill-formed sequence. -/
def replacement : Char := '\uFFFD'

/-- A character that is cut at the end stands behind an ill-formed sequence. -/
def CutBehindError (bytes : List UInt8) : Prop :=
  (Utf8.run .start bytes).2.held ≠ [] ∧ ¬WellFormed bytes

/-- The buffers whose text is shown as it is answered: they do not begin with a continuation byte
and no character is cut behind an ill-formed sequence; or one continuation byte makes up for the
cut character, with nothing but replacement characters between. -/
def ShownAsAnswered (output : List UInt8) : Prop :=
  let rest := output.dropWhile Utf8.isContinuation
  (output.length = rest.length ∧ ¬CutBehindError rest) ∨
    (output.length = rest.length + 1 ∧ CutBehindError rest ∧
      ∀ piece ∈ (Utf8.run .start rest).1, piece.char = replacement)

/-- Every continuation byte that a buffer begins with is replaced. -/
theorem partialText_dropWhile (output : List UInt8) :
    Utf8.partialText output =
      List.replicate (output.length - (output.dropWhile Utf8.isContinuation).length) replacement ++
        Utf8.partialText (output.dropWhile Utf8.isContinuation) := by
  induction output with
  | nil => rfl
  | cons b output ih =>
      rw [List.dropWhile_cons]
      split
      · rename_i hb
        have hle := (List.dropWhile_suffix (l := output) Utf8.isContinuation).length_le
        have hcount : (b :: output).length - (output.dropWhile Utf8.isContinuation).length =
            (output.length - (output.dropWhile Utf8.isContinuation).length) + 1 := by
          rw [List.length_cons]
          omega
        rw [hcount, List.replicate_succ, List.cons_append, ← ih]
        exact Utf8.partialText_cons_continuation hb output
      · simp

/-- A text with a replacement character in front or behind is the same if it is made of them. -/
theorem cons_eq_concat_iff (text : List Char) (c : Char) :
    c :: text = text ++ [c] ↔ ∀ other ∈ text, other = c := by
  induction text with
  | nil => simp
  | cons first text ih =>
      rw [List.cons_append, List.cons.injEq, List.forall_mem_cons]
      constructor
      · rintro ⟨rfl, h⟩
        exact ⟨rfl, ih.mp h⟩
      · rintro ⟨rfl, h⟩
        exact ⟨rfl, ih.mpr h⟩

theorem lossy_visible_eq_iff (output : List UInt8) :
    Utf8.lossy (visible true (output.dropWhile Utf8.isContinuation)) =
        Utf8.partialText output ↔ ShownAsAnswered output := by
  have hle := (List.dropWhile_suffix (l := output) Utf8.isContinuation).length_le
  rw [partialText_dropWhile, ShownAsAnswered]
  generalize output.dropWhile Utf8.isContinuation = rest at hle ⊢
  rcases lossy_visible rest true with ⟨-, hheld, hwell, hvisible⟩ | ⟨hnot, hvisible⟩
  · have hcut : CutBehindError rest := ⟨hheld, hwell⟩
    have hreplaced : (Utf8.run .start rest).2.held.map Utf8.Piece.char = [replacement] := by
      cases hstate : (Utf8.run .start rest).2 with
      | start => simp [hstate, Utf8.State.held] at hheld
      | within more seen low high code => rfl
    have hall : (∀ other ∈ Utf8.partialText rest, other = replacement) ↔
        ∀ piece ∈ (Utf8.run .start rest).1, piece.char = replacement := by
      rw [Utf8.partialText, List.forall_mem_map]
    rw [hvisible, lossy_eq, hreplaced, ← hall]
    simp only [hcut, not_true_eq_false, and_false, true_and, false_or]
    constructor
    · intro heq
      have hlength := congrArg List.length heq
      simp only [List.length_append, List.length_replicate, List.length_singleton] at hlength
      have hone : output.length - rest.length = 1 := by omega
      rw [hone, List.replicate_one, List.singleton_append] at heq
      exact ⟨by omega, (cons_eq_concat_iff _ _).mp heq.symm⟩
    · rintro ⟨hlength, hsame⟩
      have hone : output.length - rest.length = 1 := by omega
      rw [hone, List.replicate_one, List.singleton_append]
      exact ((cons_eq_concat_iff _ _).mpr hsame).symm
  · have hcut : ¬CutBehindError rest := fun h => hnot ⟨rfl, h.1, h.2⟩
    have hcharacters : Browser.characters true rest = Utf8.partialText rest := rfl
    rw [hvisible, hcharacters]
    simp only [hcut, not_false_eq_true, and_true, false_and, and_false, or_false]
    constructor
    · intro heq
      have hlength := congrArg List.length heq
      rw [List.length_append, List.length_replicate] at hlength
      omega
    · intro hlength
      rw [hlength, Nat.sub_self, List.replicate_zero, List.nil_append]

/-- The text that the session view has of a terminal. -/
def shownText (terminal : Terminal) : Option String :=
  terminal.folded.bind fun snapshot => snapshot.getStr "output"

/-- A command that runs has no exit status and is not released. -/
structure Runs (terminal : Terminal) : Prop where
  noExit : terminal.state.exitStatus = none
  held : terminal.state.released = false

variable {terminal : Terminal}

theorem Runs.step (h : terminal.Runs) {event : TerminalEvent} (hevent : event.running = true) :
    (terminal.step event).Runs := by
  cases event with
  | read chunk =>
      rcases read_cases terminal.outputLimit terminal.state chunk with
        hsame | ⟨-, -, -, -, hexit, hreleased⟩
      · exact ⟨(congrArg _ hsame).trans h.noExit, (congrArg _ hsame).trans h.held⟩
      · exact ⟨hexit.trans h.noExit, hreleased.trans h.held⟩
  | exit status => cases hevent
  | release => cases hevent
  | publish =>
      rw [Terminal.step, publish, TerminalState.emitSnapshot]
      cases terminal.state.releasedPublished <;> exact ⟨h.noExit, h.held⟩

theorem Runs.run (h : terminal.Runs) {events : List TerminalEvent}
    (hevents : ∀ event ∈ events, event.running = true) :
    (Attyd.run Terminal.step terminal events).Runs := by
  induction events generalizing terminal with
  | nil => exact h
  | cons event events ih =>
      obtain ⟨hevent, hevents⟩ := List.forall_mem_cons.mp hevents
      exact ih (h.step hevent) hevents

/-- What the view shows after a publication of a command that runs. -/
theorem shownText_publish (hfollows : terminal.Follows) (hruns : terminal.Runs) :
    terminal.publish.shownText =
      some (fromUtf8Lossy
        (visible true (terminal.state.output.dropWhile Utf8.isContinuation))) := by
  obtain ⟨-, -, hbytes⟩ := hfollows.publish
  have hopen : terminal.state.releasedPublished = false := by
    rw [← Bool.not_eq_true]
    intro hclosed
    simpa [hruns.held] using (hfollows.closed hclosed).1
  have hfolded : terminal.publish.folded =
      some (foldTerminalSnapshot terminal.folded
        (terminal.state.publication.value terminal.sessionId terminal.id)) := by
    rw [publish, TerminalState.emitSnapshot, if_neg (by simp [hopen])]
  have hrunning : terminal.state.publication.running = true := by
    simp [Publication.running, TerminalState.publication, hruns.noExit, hruns.held]
  rw [foldedOutput, hfolded, Option.map_some, Option.getD_some,
    outputBytes_foldTerminalSnapshot] at hbytes
  rw [shownText, hfolded, Option.bind_some, Value.getStr, get_output_foldTerminalSnapshot, hrunning,
    hbytes]
  rfl

/-- What is answered and what is shown of a command that runs, without a limit. -/
theorem shown_iff (id sessionId : String) {events : List TerminalEvent}
    (hevents : ∀ event ∈ events, event.running = true) :
    let terminal := run step (new id sessionId none) (events ++ [.publish])
    terminal.shownText = some (.ofList (outputText terminal.state none).1) ↔
      Utf8.lossy (visible true (terminal.state.output.dropWhile Utf8.isContinuation)) =
        Utf8.partialText terminal.state.output := by
  intro terminal
  have hruns : (run step (new id sessionId none) events).Runs := Runs.run ⟨rfl, rfl⟩ hevents
  have hfollows := run_follows id sessionId none events
  have hterminal : terminal = (run step (new id sessionId none) events).publish :=
    run_snoc step _ events .publish
  have hpublish : (step (run step (new id sessionId none) events) .publish).Runs := hruns.step rfl
  have hafter : terminal.Runs := hterminal ▸ hpublish
  have hdecoded : decoded terminal.state = Utf8.partialText terminal.state.output := by
    simp [decoded, hafter.noExit, hafter.held]
  rw [(outputText_spec terminal.state none).1.eq_of_none, hdecoded, hterminal,
    shownText_publish hfollows hruns, output_publish, Option.some_inj, fromUtf8Lossy,
    String.ofList_inj]

end View

/-- Without a limit, the text that is answered for a running command is the text that the view
shows for the same bytes exactly if they are shown as answered. With any limit and in any state,
the answer is the longest end of the decoded buffer within the limit, it is reported as truncated
exactly if bytes or text are missing, and it is extended by what is read; the readers are done
before a command has an exit status. -/
theorem output_shown_iff (id sessionId : String) :
    (∀ events : List TerminalEvent, (∀ event ∈ events, event.running = true) →
      let terminal := run step (new id sessionId none) (events ++ [.publish])
      (terminal.shownText = some (.ofList (outputText terminal.state none).1) ↔
        ShownAsAnswered terminal.state.output)) ∧
      ∀ (limit : Option ℕ) (events : List TerminalEvent),
        let terminal := run step (new id sessionId limit) events
        let answer := outputText terminal.state limit
        IsTail limit (decoded terminal.state) answer.1 ∧
          (answer.2 = true ↔
            terminal.state.output ≠ (new id sessionId limit).received events ∨
              answer.1 ≠ decoded terminal.state) ∧
          ((∀ status, .exit status ∉ events) → ∀ chunk : List UInt8,
            let after := (terminal.step (.read chunk)).state
            after = terminal.state ∨
              ∃ more, Utf8.partialText (terminal.state.output ++ chunk) =
                  decoded terminal.state ++ more ∧
                (outputText after limit).1 <:+ answer.1 ++ more ∧
                ((outputText after limit).2 = false →
                  (outputText after limit).1 = answer.1 ++ more)) := by
  refine ⟨fun events hevents => ?_, fun limit events => ?_⟩
  · exact (shown_iff id sessionId hevents).trans (lossy_visible_eq_iff _)
  · intro terminal answer
    obtain ⟨htail, hreported⟩ := outputText_spec terminal.state limit
    have hbuffers : Buffers terminal.state ([] ++ (new id sessionId limit).received events) :=
      Buffers.run ⟨List.suffix_refl _, by simp [new, TerminalState.new]⟩ events
    refine ⟨htail, hreported.trans (or_congr_left hbuffers.truncated), fun hexit chunk => ?_⟩
    have hlimit : terminal.outputLimit = limit := outputLimit_run _ events
    have hread : (terminal.step (.read chunk)).state = terminal.state.read limit chunk := by
      rw [← hlimit, step]
    rw [hread]
    exact outputText_read (exitStatus_run rfl hexit) chunk

/-- A byte that is no character and one that begins a character: the view replaces both, and the
answer holds the second one back. -/
theorem output_shown_differently :
    ¬∀ (id sessionId : String) (events : List TerminalEvent),
      (∀ event ∈ events, event.running = true) →
        let terminal := run step (new id sessionId none) (events ++ [.publish])
        terminal.shownText = some (.ofList (outputText terminal.state none).1) := by
  intro h
  have hevents : ∀ event ∈ [TerminalEvent.read [0xFF, 0xC3]], event.running = true := by decide
  have hsame := (shown_iff "terminal" "session" hevents).mp
    (h "terminal" "session" [.read [0xFF, 0xC3]] hevents)
  revert hsame
  decide +kernel

end Terminal

end Attyd.Terminals
