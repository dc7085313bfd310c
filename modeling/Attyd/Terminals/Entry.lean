import Attyd.Session.LiveOperations
import Attyd.Session.Registry
import Attyd.Terminals.Snapshot

/-!
# What a session keeps of one terminal

A session keeps the folded snapshot of every terminal that is not released. A release takes it out
and is remembered, so that no later snapshot brings the terminal back; its last output is kept
beside the history if the session still refers to the terminal.

## Implementation notes

`Entry` is the part of a registry that belongs to one terminal. `entry_upsertTerminal` and
`entry_retainTerminalOutput` say that the operations of the registry act on it as those of `Entry`
do, and that they leave the other terminals alone.
-/

namespace Attyd.Terminals

open Json (Value)
open History (SessionKey)
open Session (SessionLiveState SessionRegistry SessionState TerminalUpsert terminalReleased)
open Session.SessionRegistry (referencesTerminal)

/-- The folded snapshot of a terminal, whether its release is remembered, and its last output. -/
structure Entry where
  current : Option Value
  released : Bool
  retained : Option Value

/-- The output of a released terminal as it is kept. -/
def retainedTerminal (sessionId terminalId : String) (terminal : Value) : Value :=
  .ofFields
    [("sessionId", .string sessionId),
      ("terminalId", .string terminalId),
      ("output", (terminal.get "output").getD (.string "")),
      ("truncated", (terminal.get "truncated").getD (.bool false)),
      ("exitStatus", (terminal.get "exitStatus").getD .null),
      ("released", .bool true)]

namespace Entry

def new : Entry where
  current := none
  released := false
  retained := none

/-- What a view shows of the terminal. -/
def viewed (self : Entry) : Option Value := self.current <|> self.retained

/-- The snapshot after another. -/
def materialized (self : Entry) (terminal : Value) : Value :=
  foldTerminalSnapshot self.current terminal

/-- Whether a snapshot folds to the one that is kept. -/
def repeats (self : Entry) (terminal : Value) : Bool :=
  self.current.any (·.alike (self.materialized terminal))

/-- Fold a snapshot into the one that is kept; a released terminal goes. -/
def upsertTerminal (self : Entry) (terminal : Value) : TerminalUpsert × Entry :=
  if self.released then (.stale, self)
  else if self.repeats terminal then (.duplicate, self)
  else
    (if self.current.isSome then .updated else .inserted,
      if terminalReleased terminal then { self with current := none, released := true }
      else { self with current := some (self.materialized terminal) })

/-- Keep the last output of a terminal that the session refers to. -/
def retainTerminalOutput (self : Entry) (sessionId terminalId : String) (referenced : Bool)
    (terminal : Value) : Bool × Entry :=
  if (terminal.get "released").bind Value.asBool ≠ some true ∨
      (terminal.get "outputAppend").bind Value.asBool = some true ∨
      self.retained.isSome ∨ referenced = false then
    (false, self)
  else (true, { self with retained := some (retainedTerminal sessionId terminalId terminal) })

/-- Take over a published snapshot. The answer is whether the browsers are told. -/
def applyTerminalSnapshot (self : Entry) (sessionId terminalId : String) (referenced : Bool)
    (snapshot : Value) : Bool × Entry :=
  let retained :=
    if terminalReleased snapshot then
      self.retainTerminalOutput sessionId terminalId referenced (self.materialized snapshot)
    else (false, self)
  let updated := retained.2.upsertTerminal snapshot
  (retained.1 || updated.1 = .inserted || updated.1 = .updated, updated.2)

/-- A history is installed, and may no longer refer to the terminal. -/
def pruneRetainedTerminals (self : Entry) (referenced : Bool) : Entry :=
  if referenced then self else { self with retained := none }

section Upsert

variable {self : Entry} {terminal : Value}

theorem upsertTerminal_of_released (h : self.released = true) :
    self.upsertTerminal terminal = (.stale, self) := by
  rw [upsertTerminal, if_pos h]

theorem upsertTerminal_of_repeats (h : self.released = false)
    (hrepeats : self.repeats terminal = true) :
    self.upsertTerminal terminal = (.duplicate, self) := by
  rw [upsertTerminal, if_neg (Bool.not_eq_true _ ▸ h), if_pos hrepeats]

theorem upsertTerminal_of_not_repeats (h : self.released = false)
    (hrepeats : self.repeats terminal = false) :
    self.upsertTerminal terminal =
      (if self.current.isSome then .updated else .inserted,
        if terminalReleased terminal then { self with current := none, released := true }
        else { self with current := some (self.materialized terminal) }) := by
  rw [upsertTerminal, if_neg (Bool.not_eq_true _ ▸ h), if_neg (Bool.not_eq_true _ ▸ hrepeats)]

end Upsert

/-- Nothing but the retained output changes. -/
theorem retainTerminalOutput_eq (self : Entry) (sessionId terminalId : String) (referenced : Bool)
    (terminal : Value) : ∃ retained,
      (self.retainTerminalOutput sessionId terminalId referenced terminal).2 =
          { self with retained } ∧
        (retained = self.retained ∨
          retained = some (retainedTerminal sessionId terminalId terminal)) := by
  rw [retainTerminalOutput]
  split
  · exact ⟨self.retained, rfl, .inl rfl⟩
  · exact ⟨_, rfl, .inr rfl⟩

theorem terminalReleased_of_alike {value value' : Value} (h : value.alike value' = true) :
    terminalReleased value = terminalReleased value' := by
  have hget : (value.get "released").map Value.unsigned =
      (value'.get "released").map Value.unsigned := by
    rw [← Value.get_unsigned, ← Value.get_unsigned, Value.alike_iff.mp h]
  have hbind (v : Value) : (v.get "released").bind Value.asBool =
      ((v.get "released").map Value.unsigned).bind Value.asBool := by
    simp [Option.bind_map]
  rw [terminalReleased, terminalReleased, hbind value, hbind value', hget]

theorem terminalReleased_materialized (self : Entry) (sessionId terminalId : String)
    (publication : Publication) :
    terminalReleased (self.materialized (publication.value sessionId terminalId)) =
      publication.released := by
  rw [terminalReleased, materialized, get_released_foldTerminalSnapshot]
  rfl

/-- What a published snapshot can do: nothing, if the terminal has been released or the snapshot
folds to the one that is kept; else it is folded, and with a release the terminal goes. -/
theorem applyTerminalSnapshot_cases (self : Entry) (sessionId terminalId : String)
    (referenced : Bool) (publication : Publication)
    (hreleased : self.released = true → publication.released = false)
    (hcurrent : ∀ value ∈ self.current, terminalReleased value = false) :
    let terminal := publication.value sessionId terminalId
    let answer := self.applyTerminalSnapshot sessionId terminalId referenced terminal
    ((self.released || self.repeats terminal) = true ∧ answer = (false, self)) ∨
      ((self.released || self.repeats terminal) = false ∧ publication.released = false ∧
        answer = (true, { self with current := some (self.materialized terminal) })) ∨
      ((self.released || self.repeats terminal) = false ∧ publication.released = true ∧
        ∃ retained, answer = (true, ⟨none, true, retained⟩) ∧
          (retained = self.retained ∨
            retained = some (retainedTerminal sessionId terminalId (self.materialized terminal)))) := by
  intro terminal answer
  have hterminal : terminalReleased terminal = publication.released := by
    simp [terminalReleased, terminal, get_value_released, Value.asBool]
  cases hgone : self.released with
  | true =>
      -- The release was published before, so this is no release: nothing is retained.
      have hpublication := hreleased hgone
      refine .inl ⟨rfl, ?_⟩
      simp [answer, applyTerminalSnapshot, hterminal, hpublication,
        upsertTerminal_of_released hgone]
  | false =>
      cases hrepeats : self.repeats terminal with
      | true =>
          -- A release changes the snapshot, so what repeats the kept one is no release.
          obtain ⟨value, hvalue, halike⟩ := (Option.any_eq_true _ _).mp hrepeats
          have hpublication : publication.released = false := by
            rw [← terminalReleased_materialized self sessionId terminalId publication,
              ← terminalReleased_of_alike halike]
            exact hcurrent value hvalue
          refine .inl ⟨rfl, ?_⟩
          simp [answer, applyTerminalSnapshot, hterminal, hpublication,
            upsertTerminal_of_repeats hgone hrepeats]
      | false =>
          obtain ⟨outcome, houtcome, hupsert⟩ : ∃ outcome : TerminalUpsert,
              (outcome = .inserted ∨ outcome = .updated) ∧ ∀ retained,
                ({ self with retained } : Entry).upsertTerminal terminal =
                  (outcome,
                    if publication.released then ⟨none, true, retained⟩
                    else { self with current := some (self.materialized terminal), retained }) := by
            refine ⟨if self.current.isSome then .updated else .inserted, ?_, fun retained => ?_⟩
            · cases self.current <;> simp
            · rw [upsertTerminal_of_not_repeats
                (show ({ self with retained } : Entry).released = false from hgone) hrepeats,
                hterminal]
              rfl
          have hsent (kept : Bool) :
              (kept || decide (outcome = .inserted) || decide (outcome = .updated)) = true := by
            rcases houtcome with rfl | rfl <;> simp
          simp only [answer, applyTerminalSnapshot, hterminal]
          cases hpublication : publication.released with
          | false =>
              refine .inr (.inl ⟨rfl, rfl, ?_⟩)
              rw [if_neg Bool.false_ne_true, hupsert self.retained, hsent, hpublication,
                if_neg Bool.false_ne_true, hgone]
          | true =>
              obtain ⟨retained, hretained, hwhich⟩ := retainTerminalOutput_eq self sessionId
                terminalId referenced (self.materialized terminal)
              refine .inr (.inr ⟨rfl, rfl, retained, ?_, hwhich⟩)
              rw [if_pos rfl, hretained, hupsert retained, hsent, hpublication, if_pos rfl]

end Entry

section Registry

variable {σ δ : Type}

/-- The part of a session and of its retained outputs that belongs to one terminal. -/
def entry (live : SessionLiveState) (retained : Table String Value) (terminalId : String) :
    Entry where
  current := live.terminals.lookup terminalId
  released := terminalId ∈ live.releasedTerminals
  retained := retained.lookup terminalId

/-- A snapshot of a terminal changes what belongs to that terminal, and nothing of another. -/
theorem entry_upsertTerminal (self : SessionState δ) {live : SessionLiveState}
    (hlive : self.live = some live) (retained : Table String Value) (terminalId : String)
    (terminal : Value) :
    (self.upsertTerminal live foldTerminalSnapshot terminalId terminal).1 =
        ((entry live retained terminalId).upsertTerminal terminal).1 ∧
      ∃ live', (self.upsertTerminal live foldTerminalSnapshot terminalId terminal).2.owner.live =
          some live' ∧
        entry live' retained terminalId =
          ((entry live retained terminalId).upsertTerminal terminal).2 ∧
        ∀ other, other ≠ terminalId → entry live' retained other = entry live retained other := by
  by_cases hreleased : terminalId ∈ live.releasedTerminals
  · rw [SessionState.upsertTerminal, if_pos hreleased,
      Entry.upsertTerminal_of_released (decide_eq_true hreleased)]
    exact ⟨rfl, live, hlive, rfl, fun other _ => rfl⟩
  · have hentry : (entry live retained terminalId).released = false := decide_eq_false hreleased
    rw [SessionState.upsertTerminal, if_neg hreleased]
    cases hrepeats : (entry live retained terminalId).repeats terminal with
    | true =>
        rw [Entry.upsertTerminal_of_repeats hentry hrepeats]
        simp only [Entry.repeats, Entry.materialized, entry] at hrepeats
        simp only [if_pos hrepeats]
        exact ⟨trivial, live, hlive, rfl, fun other _ => rfl⟩
    | false =>
        rw [Entry.upsertTerminal_of_not_repeats hentry hrepeats]
        simp only [Entry.repeats, Entry.materialized, entry] at hrepeats
        simp only [hrepeats]
        refine ⟨rfl, _, rfl, ?_, fun other hother => ?_⟩ <;>
          by_cases hgone : terminalReleased terminal = true
        · simp [entry, hgone]
        · simp [entry, hgone, Entry.materialized]
        · simp [entry, hgone, hother]
        · simp [entry, hgone, hother]

/-- The outputs that a registry retains for a session. -/
def retainedTerminals (r : SessionRegistry σ δ) (key : SessionKey) : Table String Value :=
  (r.retainedTerminals.lookup key).getD ∅

/-- Whether a session refers to a terminal, in its turn or in its history. -/
def references (r : SessionRegistry σ δ) (key : SessionKey) (session : SessionState δ)
    (terminalId : String) : Bool :=
  session.activeTurn.any (·.updates.any (referencesTerminal · terminalId)) ||
    (r.history.peek key).any (·.updates.any (referencesTerminal · terminalId))

/-- The output of a terminal is retained as `Entry` retains it. -/
theorem entry_retainTerminalOutput (r : SessionRegistry σ δ) {sessionId : String}
    {incarnation : ℕ} {session : SessionState δ}
    (hsession : r.requireState sessionId incarnation = .ok session) (live : SessionLiveState)
    (terminalId : String) (terminal : Value) :
    let key : SessionKey := ⟨sessionId, incarnation⟩
    let answer := r.retainTerminalOutput sessionId incarnation terminalId terminal
    let kept := (entry live (retainedTerminals r key) terminalId).retainTerminalOutput sessionId
      terminalId (references r key session terminalId) terminal
    answer.1 = .ok kept.1 ∧ entry live (retainedTerminals answer.2 key) terminalId = kept.2 ∧
      ∀ other, other ≠ terminalId →
        entry live (retainedTerminals answer.2 key) other =
          entry live (retainedTerminals r key) other := by
  intro key answer kept
  have hreferences : references r key session terminalId = false ↔
      ¬(session.activeTurn.any (·.updates.any (referencesTerminal · terminalId)) ∨
        (r.history.peek key).any (·.updates.any (referencesTerminal · terminalId))) := by
    rw [references, ← Bool.not_eq_true, Bool.or_eq_true]
  have hput (r : SessionRegistry σ δ) (session : SessionState δ) :
      (r.putState sessionId session).retainedTerminals = r.retainedTerminals := by
    rw [SessionRegistry.putState]
    cases r.sessions.lookup sessionId <;> rfl
  simp only [answer, kept, SessionRegistry.retainTerminalOutput, hsession,
    Entry.retainTerminalOutput, hreferences, entry, retainedTerminals]
  split_ifs with hkept
  · exact ⟨rfl, rfl, fun other _ => rfl⟩
  · refine ⟨rfl, ?_, fun other hother => ?_⟩
    · simp [hput, retainedTerminal, key]
    · simp [hput, hother, key]

/-- An installed history drops the outputs that `Entry` drops. -/
theorem entry_pruneRetainedTerminals (r : SessionRegistry σ δ) (key : SessionKey)
    (updates : List Value) (live : SessionLiveState) (terminalId : String) :
    entry live (retainedTerminals (r.pruneRetainedTerminals key updates) key) terminalId =
      (entry live (retainedTerminals r key) terminalId).pruneRetainedTerminals
        (updates.any (referencesTerminal · terminalId)) := by
  rw [SessionRegistry.pruneRetainedTerminals, Entry.pruneRetainedTerminals]
  cases hkept : r.retainedTerminals.lookup key with
  | none => simp [entry, retainedTerminals, hkept]
  | some terminals =>
      simp only [entry, retainedTerminals, hkept, Finmap.lookup_insert, Option.getD_some,
        Table.lookup_retain]
      cases hshown : updates.any (referencesTerminal · terminalId) with
      | true => cases terminals.lookup terminalId <;> simp
      | false => simp

end Registry

end Attyd.Terminals
