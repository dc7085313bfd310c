import Attyd.Library.Counter
import Attyd.Presentation.Gathering

/-!
# The turns of a history

The scan of a timeline ends a turn at each outcome and, where none is recorded, before a new
prompt. A stretch without an outcome is a turn only when it has entries.

## Implementation notes

The scan visits every offset, the one behind the last update included. `complete` ends a turn at an
outcome, `breakAt` one without. The outcomes of an offset keep the order they are listed in.
-/

namespace Attyd.Presentation

open Json (Value)

structure Turn where
  id : String
  entries : List Entry
  outcomes : List Value

namespace Turn

def outputIndex (self : Turn) : Option Nat :=
  lastIdx? (fun entry => entry.kind = "agent_message_chunk") self.entries

/-- The operations named by the prompts. -/
def promptOperations (self : Turn) : List String :=
  ((self.entries.filter (·.isPrompt)).flatMap (·.updates)).filterMap promptOperation

def outcomeOperations (self : Turn) : List String :=
  self.outcomes.filterMap (·.getStr "operationId")

def matchesOperation (self : Turn) (accepts : String → Bool) : Bool :=
  self.outcomeOperations.any accepts || self.promptOperations.any accepts

def operation (self : Turn) : Option String :=
  self.outcomeOperations.getLast? <|> self.promptOperations.head?

end Turn

/-- Whether a user chunk goes on with the prompt before it. -/
def samePrompt (update : Value) (nonPrompt : Bool) (previous : Value) : Bool :=
  ((promptOperation previous).isSome && promptOperation previous = promptOperation update) ||
    ((previous.getStr "messageId").isSome &&
      (previous.index "messageId").alike (update.index "messageId")) ||
    (!nonPrompt && promptOperation previous = promptOperation update &&
      ((previous.index "messageId").isNull || (update.index "messageId").isNull ||
        (previous.index "messageId").alike (update.index "messageId")))

def afterUpdate (outcome : Value) : Option Nat := (outcome.index "afterUpdate").asU64

def outcomesAt (outcomes : List Value) (offset : Nat) : List Value :=
  outcomes.filter (afterUpdate · = some offset)

/-- The updates from `start` on and before `stop`. -/
def stretch (updates : List Value) (start stop : Nat) : List Value :=
  (updates.take stop).drop start

structure TurnScan where
  result : List Turn
  start : Nat
  prompt : Option Value
  nonPrompt : Bool

namespace TurnScan

def new : TurnScan := ⟨[], 0, none, false⟩

def push (self : TurnScan) (entries : List Entry) (outcomes : List Value) : TurnScan :=
  { self with
    result := self.result ++ [⟨s!"history-{self.start}-{self.result.length}", entries, outcomes⟩] }

/-- An outcome ends a turn, also an empty one. -/
def complete (updates : List Value) (offset : Nat) (self : TurnScan) (outcome : Value) :
    TurnScan :=
  { self.push (entries (stretch updates self.start offset)) [outcome] with
    start := offset
    prompt := none
    nonPrompt := false }

/-- A stretch without an outcome is a turn when it has entries. -/
def breakAt (updates : List Value) (offset : Nat) (self : TurnScan) : TurnScan :=
  let gathered := entries (stretch updates self.start offset)
  if gathered.isEmpty then self else self.push gathered []

def admitUpdate (updates : List Value) (offset : Nat) (update : Value) (self : TurnScan) : TurnScan :=
  if kind update = "user_message_chunk" then
    let scan :=
      if self.start < offset && !self.prompt.any (samePrompt update self.nonPrompt) then
        { self.breakAt updates offset with start := offset, nonPrompt := false }
      else self
    { scan with prompt := some update }
  else if control (kind update) then self
  else { self with nonPrompt := true }

def step (updates outcomes : List Value) (self : TurnScan) (offset : Nat) : TurnScan :=
  let scan := (outcomesAt outcomes offset).foldl (complete updates offset) self
  match updates[offset]? with
  | some update => scan.admitUpdate updates offset update
  | none => scan

end TurnScan

/-- The scan of a timeline before its last stretch is ended. -/
def scanTurns (updates outcomes : List Value) (stop : Nat) : TurnScan :=
  (List.range stop).foldl (TurnScan.step updates outcomes) .new

def turnsOf (updates outcomes : List Value) : List Turn :=
  let scan := scanTurns updates outcomes (updates.length + 1)
  if scan.start < updates.length then (scan.breakAt updates updates.length).result
  else scan.result

def viewItems (view : Value) (field : String) : List Value :=
  (view.index field).asArray.getD []

def turns (view : Value) : List Turn :=
  turnsOf (viewItems view "timeline") (viewItems view "turnOutcomes")

section Cover

variable {updates outcomes : List Value}

/-- A row of turns covers a row of updates: each turn a stretch that ends at its outcomes, and what
lies between has no entries. -/
inductive Covers : List Turn → List Value → Prop
  | nil : Covers [] []
  | turn {turns : List Turn} {before stretch : List Value} {turn : Turn}
      (h : Covers turns before) (hentries : turn.entries = entries stretch)
      (hends : ∀ outcome ∈ turn.outcomes,
        afterUpdate outcome = some (before.length + stretch.length)) :
      Covers (turns ++ [turn]) (before ++ stretch)
  | skip {turns : List Turn} {before stretch : List Value} (h : Covers turns before)
      (hentries : entries stretch = []) : Covers turns (before ++ stretch)

/-- The turns are numbered in order. -/
def Numbered (turns : List Turn) : Prop :=
  ∀ (i : Nat) (turn : Turn), turns[i]? = some turn → ∃ start : Nat, turn.id = s!"history-{start}-{i}"

theorem Numbered.push {turns : List Turn} (h : Numbered turns) (start : Nat)
    (entries : List Entry) (outcomes : List Value) :
    Numbered (turns ++ [⟨s!"history-{start}-{turns.length}", entries, outcomes⟩]) := by
  intro i turn hi
  rw [List.getElem?_append] at hi
  split at hi
  · exact h i turn hi
  · next hge =>
      have hlast : i - turns.length = 0 := by
        by_contra hne
        rw [List.getElem?_eq_none (by simp; omega)] at hi
        cases hi
      rw [hlast] at hi
      cases hi
      exact ⟨start, by rw [show i = turns.length by omega]⟩

/-- No two turns share an id. -/
theorem Numbered.eq {turns : List Turn} (h : Numbered turns) {i j : Nat} {turn turn' : Turn}
    (hi : turns[i]? = some turn) (hj : turns[j]? = some turn') (hid : turn.id = turn'.id) :
    i = j := by
  obtain ⟨start, hturn⟩ := h i turn hi
  obtain ⟨start', hturn'⟩ := h j turn' hj
  have hnames : "history-" ++ (toString start ++ "-" ++ toString i) =
      "history-" ++ (toString start' ++ "-" ++ toString j) := by
    rw [hturn, hturn'] at hid
    simpa only [toString, String.append_assoc] using hid
  exact (dashed_injective ((String.append_right_inj _).mp hnames)).2

/-- The plans that are cleared within a stretch. -/
def clearedPlans (stretch : List Value) : List Entry :=
  (group stretch).entries.filter (·.cleared)

theorem forall_clearedPlans {before : List Entry} (stretch : List Value)
    (h : ∀ entry ∈ before, entry.cleared = true ∧ entry.Uniform) :
    ∀ entry ∈ before ++ clearedPlans stretch, entry.cleared = true ∧ entry.Uniform := by
  intro entry hentry
  rcases List.mem_append.mp hentry with hentry | hentry
  · exact h entry hentry
  · obtain ⟨hmem, hcleared⟩ := List.mem_filter.mp hentry
    exact ⟨hcleared, (sound_group stretch).uniform entry hmem⟩

/-- Apart from cleared plans the turns hold the updates that change no control. -/
theorem Covers.exists_cleared {turns : List Turn} {timeline : List Value}
    (h : Covers turns timeline) :
    ∃ cleared : List Entry, (∀ entry ∈ cleared, entry.cleared = true ∧ entry.Uniform) ∧
      (Grouping.updates (turns.flatMap (·.entries)) ++ Grouping.updates cleared).Perm
        (timeline.filter fun update => !control (kind update)) := by
  induction h with
  | nil => exact ⟨[], by simp, List.Perm.refl _⟩
  | @turn turns before stretch turn h hentries hends ih =>
      obtain ⟨cleared, hcleared, hperm⟩ := ih
      refine ⟨cleared ++ clearedPlans stretch, forall_clearedPlans stretch hcleared, ?_⟩
      rw [List.flatMap_append, List.flatMap_singleton, hentries, List.filter_append,
        Grouping.updates_append, Grouping.updates_append]
      refine List.Perm.trans ?_ (hperm.append (entries_updates stretch))
      simp only [List.append_assoc]
      refine List.Perm.append_left _ ?_
      rw [← List.append_assoc, ← List.append_assoc]
      exact List.perm_append_comm.append_right _
  | @skip turns before stretch h hentries ih =>
      obtain ⟨cleared, hcleared, hperm⟩ := ih
      refine ⟨cleared ++ clearedPlans stretch, forall_clearedPlans stretch hcleared, ?_⟩
      have hown := entries_updates stretch
      rw [hentries] at hown
      rw [List.filter_append, Grouping.updates_append, ← List.append_assoc]
      exact hperm.append hown

theorem stretch_append (updates : List Value) {start offset : Nat} (h : start ≤ offset) :
    updates.take start ++ stretch updates start offset = updates.take offset := by
  have hsplit := List.take_append_drop start (updates.take offset)
  rw [List.take_take, Nat.min_eq_left h] at hsplit
  exact hsplit

theorem length_stretch {start offset : Nat} (h : start ≤ offset) (hlen : offset ≤ updates.length) :
    (updates.take start).length + (stretch updates start offset).length = offset := by
  rw [← List.length_append, stretch_append updates h, List.length_take_of_le hlen]

namespace TurnScan

/-- What the scan has found before an offset, with the outcomes whose turns have ended. -/
structure Sound (updates : List Value) (offset : Nat) (ended : List Value) (s : TurnScan) :
    Prop where
  start_le : s.start ≤ offset
  covers : Covers s.result (updates.take s.start)
  numbered : Numbered s.result
  ended : s.result.flatMap (fun turn => turn.outcomes) = ended

variable {s : TurnScan} {offset : Nat} {ended : List Value}

theorem sound_new : Sound updates 0 [] new where
  start_le := Nat.le_refl _
  covers := .nil
  numbered := by simp [new, Numbered]
  ended := rfl

theorem Sound.mono (h : s.Sound updates offset ended) {offset' : Nat} (hle : offset ≤ offset') :
    s.Sound updates offset' ended :=
  ⟨Nat.le_trans h.start_le hle, h.covers, h.numbered, h.ended⟩

theorem Sound.complete (h : s.Sound updates offset ended) (hlen : offset ≤ updates.length)
    {outcome : Value} (hat : afterUpdate outcome = some offset) :
    (s.complete updates offset outcome).Sound updates offset (ended ++ [outcome]) where
  start_le := Nat.le_refl _
  covers := by
    let turn : Turn := ⟨s!"history-{s.start}-{s.result.length}",
      entries (stretch updates s.start offset), [outcome]⟩
    have hcovers : Covers (s.result ++ [turn]) _ :=
      h.covers.turn rfl fun other hother => by
        rw [List.mem_singleton.mp hother, length_stretch h.start_le hlen, hat]
    rw [stretch_append updates h.start_le] at hcovers
    exact hcovers
  numbered := h.numbered.push s.start _ _
  ended := by
    change (s.result ++ [_]).flatMap (fun turn : Turn => turn.outcomes) = _
    rw [List.flatMap_append, h.ended]
    rfl

/-- The outcomes at an offset end one turn each. -/
theorem Sound.completeAll (h : s.Sound updates offset ended) (hlen : offset ≤ updates.length)
    (outcomes : List Value) (hat : ∀ outcome ∈ outcomes, afterUpdate outcome = some offset) :
    (outcomes.foldl (TurnScan.complete updates offset) s).Sound updates offset
      (ended ++ outcomes) := by
  induction outcomes generalizing s ended with
  | nil =>
      rw [List.append_nil]
      exact h
  | cons outcome outcomes ih =>
      obtain ⟨hfirst, hlater⟩ := List.forall_mem_cons.mp hat
      have hnext := ih (h.complete hlen hfirst) hlater
      rw [List.append_assoc] at hnext
      exact hnext

/-- Where a stretch is broken off, it is covered up to the break. -/
theorem Sound.breakAt (h : s.Sound updates offset ended) {s' : TurnScan}
    (hresult : s'.result = (s.breakAt updates offset).result) (hstart : s'.start = offset) :
    s'.Sound updates offset ended := by
  have hwhole := stretch_append updates h.start_le
  rw [TurnScan.breakAt] at hresult
  cases hgathered : entries (stretch updates s.start offset) with
  | nil =>
      rw [hgathered] at hresult
      have hskip := h.covers.skip hgathered
      rw [hwhole] at hskip
      refine ⟨hstart.le, ?_, ?_, ?_⟩
      · rw [hresult, hstart]
        exact hskip
      · rw [hresult]
        exact h.numbered
      · rw [hresult]
        exact h.ended
  | cons entry gathered =>
      rw [hgathered] at hresult
      let turn : Turn := ⟨s!"history-{s.start}-{s.result.length}", entry :: gathered, []⟩
      have hturn : Covers (s.result ++ [turn]) _ := h.covers.turn hgathered.symm (by simp [turn])
      rw [hwhole] at hturn
      refine ⟨hstart.le, ?_, ?_, ?_⟩
      · rw [hresult, hstart]
        exact hturn
      · rw [hresult]
        exact h.numbered.push s.start _ _
      · rw [hresult]
        change (s.result ++ [_]).flatMap (fun turn : Turn => turn.outcomes) = _
        rw [List.flatMap_append, h.ended]
        exact List.append_nil _

theorem Sound.admitUpdate (h : s.Sound updates offset ended) (update : Value) :
    (s.admitUpdate updates offset update).Sound updates offset ended := by
  rw [TurnScan.admitUpdate]
  split
  · split
    · exact h.breakAt rfl rfl
    · exact ⟨h.start_le, h.covers, h.numbered, h.ended⟩
  · split
    · exact h
    · exact ⟨h.start_le, h.covers, h.numbered, h.ended⟩

theorem Sound.step (h : s.Sound updates offset ended) (hlen : offset ≤ updates.length)
    (outcomes : List Value) :
    (s.step updates outcomes offset).Sound updates offset
      (ended ++ outcomesAt outcomes offset) := by
  have hcompleted := h.completeAll hlen (outcomesAt outcomes offset)
    fun outcome hmem => by simpa using (List.mem_filter.mp hmem).2
  rw [TurnScan.step]
  split
  · exact hcompleted.admitUpdate _
  · exact hcompleted

end TurnScan

/-- The outcomes before an offset, in the order of their offsets. -/
def outcomesBefore (outcomes : List Value) (stop : Nat) : List Value :=
  (List.range stop).flatMap (outcomesAt outcomes)

theorem sound_scanTurns (updates outcomes : List Value) (stop : Nat)
    (hstop : stop ≤ updates.length + 1) :
    (scanTurns updates outcomes stop).Sound updates (stop - 1)
      (outcomesBefore outcomes stop) := by
  induction stop with
  | zero => exact TurnScan.sound_new
  | succ stop ih =>
      have hprevious := (ih (Nat.le_of_succ_le hstop)).mono (Nat.sub_le stop 1)
      have hstep := hprevious.step (Nat.le_of_succ_le_succ hstop) outcomes
      rw [scanTurns, outcomesBefore, List.range_succ, List.foldl_append, List.flatMap_append,
        List.flatMap_singleton]
      exact hstep

/-- The turns cover the timeline, are numbered in order, and end with the outcomes inside it. -/
theorem sound_turnsOf (updates outcomes : List Value) :
    Covers (turnsOf updates outcomes) updates ∧ Numbered (turnsOf updates outcomes) ∧
      (turnsOf updates outcomes).flatMap (fun turn => turn.outcomes) =
        outcomesBefore outcomes (updates.length + 1) := by
  have hscan := sound_scanTurns updates outcomes (updates.length + 1) (Nat.le_refl _)
  rw [Nat.add_sub_cancel] at hscan
  rw [turnsOf]
  generalize scanTurns updates outcomes (updates.length + 1) = scan at hscan ⊢
  split
  · let last := { scan.breakAt updates updates.length with start := updates.length }
    have hlast : last.Sound updates updates.length _ := hscan.breakAt rfl rfl
    refine ⟨?_, hlast.numbered, hlast.ended⟩
    have hcovers := hlast.covers
    rw [List.take_length] at hcovers
    exact hcovers
  · next hstart =>
      refine ⟨?_, hscan.numbered, hscan.ended⟩
      have hcovers := hscan.covers
      rw [List.take_of_length_le (Nat.not_lt.mp hstart)] at hcovers
      exact hcovers

end Cover

end Attyd.Presentation
