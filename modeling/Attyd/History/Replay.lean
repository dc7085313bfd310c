import Attyd.History.Builder

/-!
# The candidate of one load

A load folds the replayed updates into a candidate of its own. Writers and the
cache share it; each of the operations below runs under its lock. A candidate
stops accepting updates when it is sealed, and it cannot be published once it
is invalid.

## Implementation notes

The semantic check of an update is a parameter: nothing here depends on which
updates it rejects, only on what is done when it does. An operation answers with
the candidate as it leaves it, also when it fails.
-/

namespace Attyd.History

open Json (Value)

inductive HistoryCacheError where
  | candidateExists
  | candidateMissing
  | attemptMismatch
  | invalidReplay
  deriving DecidableEq

/-- The validation state of a session: its known entities, and why it is invalid. -/
structure SessionUpdateSemanticState (σ : Type) where
  entities : σ
  invalidReason : Option String

def SessionUpdateSemanticState.default {σ : Type} [Inhabited σ] : SessionUpdateSemanticState σ :=
  ⟨Inhabited.default, none⟩

/-- `validate_history_update`, answering with the state it leaves. -/
abbrev ValidateHistoryUpdate (σ : Type) :=
  SessionUpdateSemanticState σ → Value → Except String Unit × SessionUpdateSemanticState σ

structure ReplayData (σ : Type) where
  history : HistoryBuilder
  validation : SessionUpdateSemanticState σ
  controls : List Value
  controlBytes : Nat
  invalid : Option HistoryCacheError
  sealed : Bool

/-- Patches of session info and usage merge into the retained control; every
other control is replaced. A usage patch without a cost keeps the known one. -/
def foldControlUpdate (previous : Option Value) (update : Value) : Value :=
  let kind := update.getStr "sessionUpdate"
  if kind = some "session_info_update" ∨ kind = some "usage_update" then
    match previous.filter (·.isObject) with
    | none => update
    | some merged =>
        let keepsCost := kind = some "usage_update" ∧ update.get "cost" = some .null
        merged.mergeFields (if keepsCost then update.remove "cost" else update)
  else update

namespace ReplayData

variable {σ : Type} [Inhabited σ]

def default : ReplayData σ :=
  ⟨.default, .default, [], 0, none, false⟩

/-- The folded updates, unless the candidate is invalid. -/
def updates (self : ReplayData σ) : Except HistoryCacheError (List Value) :=
  match self.invalid with
  | some error => .error error
  | none => .ok self.history.updates

omit [Inhabited σ] in
def append (self : ReplayData σ) (update : Value) :
    Except HistoryCacheError Unit × ReplayData σ :=
  if self.sealed then (.error .attemptMismatch, self)
  else
    match self.invalid with
    | some error => (.error error, self)
    | none =>
        match self.history.append update with
        | (.ok (), history) => (.ok (), { self with history })
        | (.error _, history) =>
            (.error .invalidReplay, { self with history, invalid := some .invalidReplay })

/-- Store a control record beside the history. -/
def ingestControl (self : ReplayData σ) (update : Value) : ReplayData σ :=
  let position := self.controls.findIdx? fun previous =>
    previous.index "sessionUpdate" = update.index "sessionUpdate"
  let previous := position.map fun position => self.controls.getD position .null
  let previousBytes := (previous.map Value.bytes).getD 0
  let update := foldControlUpdate previous update
  { self with
    controlBytes := self.controlBytes - previousBytes + update.bytes
    controls :=
      match position with
      | some position => self.controls.set position update
      | none => self.controls ++ [update] }

/-- The record itself: check it, then fold it or store it as a control. -/
def ingestRecord (validate : ValidateHistoryUpdate σ) (self : ReplayData σ) (update : Value)
    (conversation : Bool) : Except String Unit × ReplayData σ :=
  match validate self.validation update with
  | (.error message, validation) => (.error message, { self with validation })
  | (.ok (), validation) =>
      if conversation then
        match self.history.append update with
        | (.ok (), history) => (.ok (), { self with validation, history })
        | (.error _, history) => (.error "Invalid history fold", { self with validation, history })
      else (.ok (), { self with validation }.ingestControl update)

/-- One record off the wire. A sealed or invalid candidate ignores it; a record
that fails poisons the candidate. -/
def ingest (validate : ValidateHistoryUpdate σ) (self : ReplayData σ) (update : Value)
    (conversation : Bool) : Except String Unit × ReplayData σ :=
  if self.sealed || self.invalid.isSome then (.ok (), self)
  else
    match self.ingestRecord validate update conversation with
    | (.ok (), data) => (.ok (), data)
    | (.error message, data) =>
        (.error message,
          { data with
            invalid := some .invalidReplay
            validation := { data.validation with invalidReason := some message } })

def poison (self : ReplayData σ) (error : HistoryCacheError) : ReplayData σ :=
  { self with invalid := self.invalid <|> some error }

def reject (self : ReplayData σ) (message : String) : ReplayData σ :=
  { self with
    invalid := self.invalid <|> some .invalidReplay
    validation :=
      { self.validation with invalidReason := self.validation.invalidReason <|> some message } }

def sealReplay (self : ReplayData σ) : ReplayData σ := { self with sealed := true }

def takeControls (self : ReplayData σ) :
    (SessionUpdateSemanticState σ × List Value) × ReplayData σ :=
  ((self.validation, self.controls),
    { self with controlBytes := 0, validation := .default, controls := [] })

/-- Take the folded history out for publication; the candidate stays behind sealed. -/
def takeHistory (self : ReplayData σ) :
    Except HistoryCacheError (List Value × Nat) × ReplayData σ :=
  match self.updates with
  | .error error => (.error error, self)
  | .ok _ =>
      (.ok (self.history.updates, max self.history.bytes 2),
        { self with sealed := true, history := .default })

/-- What a discarded candidate is left as. -/
def discarded : ReplayData σ :=
  { (default : ReplayData σ) with
    sealed := true
    invalid := some .invalidReplay
    validation := { (.default : SessionUpdateSemanticState σ) with
      invalidReason := some "History replay was discarded" } }

end ReplayData

end Attyd.History
