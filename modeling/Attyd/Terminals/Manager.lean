import Attyd.Library.Machine
import Attyd.Terminals.Snapshot

/-!
# The terminal manager and the fold of what it publishes

Readers append to the buffer of a terminal and to what is still to be published, and cut the
buffer to its byte limit. A publication sends what was read since the last one. Whoever folds the
publications keeps the buffer without the continuation bytes it begins with.

## Implementation notes

The lock on the state is taken once for a read and once for a publication, so any number of reads,
an exit or a release may lie between two publications. `Follows` says what holds then: the buffer
is a suffix of what was published last and what is pending.
-/

namespace Attyd.Terminals

open Json (Value)

/-- The state of a terminal under its lock. A vector is shorter than `2 ^ 63` bytes. -/
structure TerminalState where
  output : List UInt8
  pendingOutput : List UInt8
  lastPublishedOutput : List UInt8
  truncated : Bool
  exitStatus : Option TerminalExitStatus
  released : Bool
  releasedPublished : Bool
  output_lt : output.length < 2 ^ 63

namespace TerminalState

def new : TerminalState where
  output := []
  pendingOutput := []
  lastPublishedOutput := []
  truncated := false
  exitStatus := none
  released := false
  releasedPublished := false
  output_lt := by decide

/-- What a buffer is cut to when it grows past its limit. -/
def truncate (limit : Option ℕ) (output : List UInt8) : List UInt8 :=
  match limit with
  | some limit =>
      if output.length > limit then
        (output.drop (output.length - limit)).dropWhile Utf8.isContinuation
      else output
  | none => output

theorem truncate_suffix (limit : Option ℕ) (output : List UInt8) :
    truncate limit output <:+ output := by
  cases limit with
  | none => exact List.suffix_refl _
  | some limit =>
      rw [truncate]
      split
      · exact (List.dropWhile_suffix _).trans (List.drop_suffix _ _)
      · exact List.suffix_refl _

/-- A reader has read a chunk. It ends at an empty one, when the terminal is released, and when the
buffer cannot grow any more. -/
def read (limit : Option ℕ) (self : TerminalState) (chunk : List UInt8) : TerminalState :=
  if self.released || chunk.isEmpty then self
  else if h : (self.output ++ chunk).length < 2 ^ 63 then
    { self with
      output := truncate limit (self.output ++ chunk)
      pendingOutput := self.pendingOutput ++ chunk
      truncated :=
        self.truncated || limit.any fun limit => (self.output ++ chunk).length > limit
      output_lt := Nat.lt_of_le_of_lt (truncate_suffix limit _).length_le h }
  else self

/-- The bytes to publish, and whether they are appended to those published before. -/
def unpublished (self : TerminalState) : List UInt8 × Bool :=
  if self.pendingOutput ≠ [] then (self.pendingOutput, true)
  else if self.lastPublishedOutput <+: self.output then
    (self.output.drop self.lastPublishedOutput.length, true)
  else (self.output, false)

/-- What a publication says. -/
def publication (self : TerminalState) : Publication where
  output := self.unpublished.1
  append := self.unpublished.2
  retainedBytes := self.output.length
  truncated := self.truncated
  exitStatus := self.exitStatus
  released := self.released
  retainedBytes_lt := Nat.lt_trans self.output_lt (by decide)

/-- Publish the state. Nothing is published after the release has been. -/
def emitSnapshot (self : TerminalState) : TerminalState × Option Publication :=
  if self.releasedPublished then (self, none)
  else
    ({ self with
        releasedPublished := self.released
        pendingOutput := []
        lastPublishedOutput := self.output },
      some self.publication)

end TerminalState

/-- A terminal, and the fold of what it has published. -/
structure Terminal where
  id : String
  sessionId : String
  outputLimit : Option ℕ
  state : TerminalState
  folded : Option Value

/-- What happens to a terminal. -/
inductive TerminalEvent where
  | read (chunk : List UInt8)
  | exit (status : TerminalExitStatus)
  | release
  | publish

namespace Terminal

/-- A terminal as it is created. -/
def new (id sessionId : String) (outputLimit : Option ℕ) : Terminal where
  id
  sessionId
  outputLimit
  state := .new
  folded := none

/-- A publication is folded into the snapshot before it. -/
def publish (self : Terminal) : Terminal :=
  match self.state.emitSnapshot with
  | (state, none) => { self with state }
  | (state, some publication) =>
      { self with
        state
        folded :=
          some (foldTerminalSnapshot self.folded (publication.value self.sessionId self.id)) }

def step (self : Terminal) : TerminalEvent → Terminal
  | .read chunk => { self with state := self.state.read self.outputLimit chunk }
  | .exit status => { self with state := { self.state with exitStatus := some status } }
  | .release => { self with state := { self.state with released := true } }
  | .publish => self.publish

/-- The bytes folded so far. -/
def foldedOutput (self : Terminal) : List UInt8 := (self.folded.map outputBytes).getD []

/-- What holds between two publications. -/
structure Follows (terminal : Terminal) : Prop where
  /-- The buffer is the end of what was published last and what was read since. -/
  suffix : terminal.state.output <:+
    terminal.state.lastPublishedOutput ++ terminal.state.pendingOutput
  idle : terminal.state.pendingOutput = [] →
    terminal.state.output = terminal.state.lastPublishedOutput
  /-- The fold keeps what was published last, from the start of a character on. -/
  folded : terminal.foldedOutput =
    terminal.state.lastPublishedOutput.dropWhile Utf8.isContinuation
  /-- After a release was published there is nothing to publish. -/
  closed : terminal.state.releasedPublished = true →
    terminal.state.released = true ∧ terminal.state.output = terminal.state.lastPublishedOutput ∧
      terminal.folded.isSome = true

variable {terminal : Terminal}

theorem follows_new (id sessionId : String) (outputLimit : Option ℕ) :
    (new id sessionId outputLimit).Follows :=
  ⟨List.suffix_refl _, fun _ => rfl, rfl, nofun⟩

/-- The fold cuts what it kept and what follows as the manager cut its buffer. -/
theorem retain_eq {output last pending : List UInt8} (h : output <:+ last ++ pending) :
    retain (last.dropWhile Utf8.isContinuation ++ pending) output.length =
      output.dropWhile Utf8.isContinuation := by
  have hsplit : last ++ pending = last.takeWhile Utf8.isContinuation ++
      (last.dropWhile Utf8.isContinuation ++ pending) := by
    rw [← List.append_assoc, List.takeWhile_append_dropWhile]
  rw [hsplit] at h
  generalize last.dropWhile Utf8.isContinuation ++ pending = kept at h ⊢
  by_cases hle : output.length ≤ kept.length
  · have hsuffix : output <:+ kept := List.suffix_of_suffix_length_le h (List.suffix_append _ _) hle
    obtain ⟨before, rfl⟩ := hsuffix
    rw [retain]
    split
    · simp
    · next hnot =>
        have hbefore : before = [] := by
          rw [List.length_append] at hnot
          exact List.eq_nil_of_length_eq_zero (by omega)
        rw [hbefore, List.nil_append]
  · -- The manager still has continuation bytes that the fold has dropped.
    obtain ⟨before, hbefore⟩ := List.suffix_of_suffix_length_le (List.suffix_append _ kept) h
      (by omega)
    have hcontinuation : ∀ b ∈ before, Utf8.isContinuation b = true := by
      intro b hb
      rw [← hbefore] at h
      have hpre : before <:+ last.takeWhile Utf8.isContinuation :=
        (List.suffix_append_inj_of_length_eq rfl).mp h |>.1
      exact List.all_eq_true.mp (List.all_takeWhile) b (hpre.mem hb)
    rw [retain, if_neg (by omega), ← hbefore, List.dropWhile_append_of_pos hcontinuation]

/-- What is published is what is pending, and it is appended. -/
theorem Follows.unpublished (h : terminal.Follows) :
    terminal.state.unpublished = (terminal.state.pendingOutput, true) := by
  rw [TerminalState.unpublished]
  split
  · rfl
  · next hpending =>
      have hpending : terminal.state.pendingOutput = [] := by simpa using hpending
      rw [h.idle hpending, if_pos (List.prefix_refl _), List.drop_length, hpending]

theorem Follows.read (h : terminal.Follows) (chunk : List UInt8) :
    (terminal.step (.read chunk)).Follows := by
  simp only [step, TerminalState.read]
  split
  · exact h
  · next hgoes =>
      obtain ⟨hreleased, hchunk⟩ : terminal.state.released = false ∧ chunk ≠ [] := by
        simpa using hgoes
      split
      · refine ⟨?_, fun hpending => ?_, h.folded, fun hclosed => ?_⟩
        · refine (TerminalState.truncate_suffix _ _).trans ?_
          rw [← List.append_assoc]
          exact (List.suffix_append_inj_of_length_eq rfl).mpr ⟨h.suffix, rfl⟩
        · exact absurd (List.append_eq_nil_iff.mp hpending).2 hchunk
        · rw [(h.closed hclosed).1] at hreleased
          cases hreleased
      · exact h

/-- After a publication the fold has the buffer, from the start of a character on. -/
theorem Follows.publish (h : terminal.Follows) : terminal.publish.Follows ∧
    terminal.publish.folded.isSome = true ∧
    terminal.publish.foldedOutput = terminal.state.output.dropWhile Utf8.isContinuation := by
  cases hclosed : terminal.state.releasedPublished with
  | true =>
      have hpublish : terminal.publish = terminal := by
        rw [Terminal.publish, TerminalState.emitSnapshot, if_pos hclosed]
      obtain ⟨-, houtput, hsome⟩ := h.closed hclosed
      rw [hpublish, houtput]
      exact ⟨h, hsome, h.folded⟩
  | false =>
      have hpublish : terminal.publish =
          { terminal with
            state :=
              { terminal.state with
                releasedPublished := terminal.state.released
                pendingOutput := []
                lastPublishedOutput := terminal.state.output }
            folded := some (foldTerminalSnapshot terminal.folded
              (terminal.state.publication.value terminal.sessionId terminal.id)) } := by
        rw [Terminal.publish, TerminalState.emitSnapshot, if_neg (by simp [hclosed])]
      have hfolded : terminal.publish.foldedOutput =
          terminal.state.output.dropWhile Utf8.isContinuation := by
        rw [hpublish, foldedOutput]
        simp only [Option.map_some, Option.getD_some, outputBytes_foldTerminalSnapshot,
          foldedBytes_value, TerminalState.publication, h.unpublished, if_true]
        rw [← retain_eq h.suffix, ← h.folded, foldedOutput]
      refine ⟨?_, by rw [hpublish]; rfl, hfolded⟩
      rw [hpublish] at hfolded ⊢
      exact ⟨by simp, fun _ => rfl, hfolded, fun hreleased => ⟨hreleased, rfl, rfl⟩⟩

theorem Follows.step (h : terminal.Follows) (event : TerminalEvent) :
    (terminal.step event).Follows := by
  cases event with
  | read chunk => exact h.read chunk
  | exit status => exact ⟨h.suffix, h.idle, h.folded, h.closed⟩
  | release => exact ⟨h.suffix, h.idle, h.folded, fun hclosed => ⟨rfl, (h.closed hclosed).2⟩⟩
  | publish => exact h.publish.1

/-- However reads and publications are mixed, the fold follows the buffer. -/
theorem run_follows (id sessionId : String) (outputLimit : Option ℕ)
    (events : List TerminalEvent) : (run step (new id sessionId outputLimit) events).Follows :=
  run_invariant (fun _ event h => h.step event) (follows_new id sessionId outputLimit) events

@[simp] theorem output_publish : terminal.publish.state.output = terminal.state.output := by
  rw [Terminal.publish, TerminalState.emitSnapshot]
  cases terminal.state.releasedPublished <;> rfl

/-- The buffer does not begin within a character. -/
def BeginsCharacter (output : List UInt8) : Prop :=
  ∀ b ∈ output.head?, Utf8.isContinuation b = false

theorem dropWhile_eq_self_iff (output : List UInt8) :
    output.dropWhile Utf8.isContinuation = output ↔ BeginsCharacter output := by
  cases output with
  | nil => simp [BeginsCharacter]
  | cons b output =>
      rw [BeginsCharacter, List.dropWhile_cons]
      constructor
      · intro h b' hb'
        obtain rfl : b = b' := by simpa using hb'
        by_contra hcontinuation
        rw [if_pos (by simpa using hcontinuation)] at h
        have hlength := congrArg List.length h
        have hle := (List.dropWhile_suffix (l := output) Utf8.isContinuation).length_le
        rw [List.length_cons] at hlength
        omega
      · intro h
        rw [if_neg (by simp [h b rfl])]

/-- After a publication the fold is the buffer the manager retains exactly when the buffer does
not begin with a continuation byte. -/
theorem run_publish_iff (id sessionId : String) (outputLimit : Option ℕ)
    (events : List TerminalEvent) :
    (run step (new id sessionId outputLimit) (events ++ [.publish])).folded.map outputBytes =
        some (run step (new id sessionId outputLimit) (events ++ [.publish])).state.output ↔
      BeginsCharacter (run step (new id sessionId outputLimit) events).state.output := by
  rw [run_snoc]
  obtain ⟨-, hsome, hfolded⟩ := (run_follows id sessionId outputLimit events).publish
  generalize run step (new id sessionId outputLimit) events = terminal at hsome hfolded
  change terminal.publish.folded.map outputBytes = some terminal.publish.state.output ↔ _
  obtain ⟨snapshot, hsnapshot⟩ := Option.isSome_iff_exists.mp hsome
  rw [foldedOutput, hsnapshot, Option.map_some, Option.getD_some] at hfolded
  rw [hsnapshot, Option.map_some, hfolded, output_publish, Option.some.injEq,
    dropWhile_eq_self_iff]

/-- A command that first writes a continuation byte: the fold drops it, the manager keeps it. -/
theorem publish_continuation :
    ¬∀ (id sessionId : String) (outputLimit : Option ℕ) (events : List TerminalEvent),
      (run step (new id sessionId outputLimit) (events ++ [.publish])).folded.map outputBytes =
        some (run step (new id sessionId outputLimit) (events ++ [.publish])).state.output := by
  intro h
  have hbytes := h "terminal" "session" none [.read [0x80]]
  obtain ⟨-, hsome, hfolded⟩ := (run_follows "terminal" "session" none [.read [0x80]]).publish
  obtain ⟨snapshot, hsnapshot⟩ := Option.isSome_iff_exists.mp hsome
  rw [foldedOutput, hsnapshot, Option.map_some, Option.getD_some] at hfolded
  rw [run_snoc, step, hsnapshot, Option.map_some, hfolded] at hbytes
  revert hbytes
  decide

end Terminal

end Attyd.Terminals
