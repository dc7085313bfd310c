import Attyd.Library.Table
import Attyd.Library.Counter
import Attyd.History.Replay

/-!
# The history cache

The cache holds one published snapshot for each session key and at most one
candidate that may replace it. A candidate is reached through a handle that
writers keep after the attempt is over.

## Implementation notes

A handle is a position in `replays`, the heap of all candidates ever opened;
nothing is ever removed from it. The content digest of a snapshot is left out:
no operation here reads it.
-/

namespace Attyd.History

open Json (Value)

structure SessionKey where
  sessionId : String
  incarnation : Nat
  deriving DecidableEq

structure HistorySnapshot where
  revision : String
  updates : List Value
  bytes : Nat
  deriving DecidableEq

structure HistoryEntry where
  snapshot : HistorySnapshot
  lastUsed : Nat

structure LoadCandidate where
  attemptId : String
  replay : Nat

structure HistoryCache (σ : Type) where
  epoch : String
  nextGeneration : Nat
  clock : Nat
  entries : Table SessionKey HistoryEntry
  candidates : Table SessionKey LoadCandidate
  snapshotBytes : Nat
  replays : List (ReplayData σ)

namespace HistoryCache

variable {σ : Type} [Inhabited σ]

def new (epoch : String) : HistoryCache σ := ⟨epoch, 0, 0, ∅, ∅, 0, []⟩

/-- The text of a revision. -/
def revisionText (epoch : String) (incarnation generation : Nat) : String :=
  epoch ++ ":" ++ toString incarnation ++ ":" ++ toString generation

/-- The accounting of published bytes without the snapshot of a key. -/
def bytesWithout (self : HistoryCache σ) (key : SessionKey) : Nat :=
  match self.entries.lookup key with
  | some previous => self.snapshotBytes - previous.snapshot.bytes
  | none => self.snapshotBytes

def installSnapshot (self : HistoryCache σ) (key : SessionKey) (updates : List Value)
    (bytes : Nat) : HistorySnapshot × HistoryCache σ :=
  let nextGeneration := nextCounter self.nextGeneration
  let clock := nextCounter self.clock
  let snapshot : HistorySnapshot :=
    ⟨revisionText self.epoch key.incarnation nextGeneration, updates, bytes⟩
  (snapshot,
    { self with
      nextGeneration
      clock
      snapshotBytes := saturatingAdd (self.bytesWithout key) bytes
      entries := self.entries.insert key ⟨snapshot, clock⟩ })

def installEmpty (self : HistoryCache σ) (key : SessionKey) : HistorySnapshot × HistoryCache σ :=
  self.installSnapshot key [] 2

def snapshot (self : HistoryCache σ) (key : SessionKey) :
    Option HistorySnapshot × HistoryCache σ :=
  let clock := nextCounter self.clock
  match self.entries.lookup key with
  | none => (none, { self with clock })
  | some entry =>
      (some entry.snapshot,
        { self with clock, entries := self.entries.insert key { entry with lastUsed := clock } })

def peek (self : HistoryCache σ) (key : SessionKey) : Option HistorySnapshot :=
  (self.entries.lookup key).map (·.snapshot)

/-- The handle of the current attempt of a key. -/
def candidate (self : HistoryCache σ) (key : SessionKey) (attemptId : String) :
    Except HistoryCacheError Nat :=
  match self.candidates.lookup key with
  | none => .error .candidateMissing
  | some candidate =>
      if candidate.attemptId = attemptId then .ok candidate.replay else .error .attemptMismatch

/-- Run an operation on the candidate behind a handle. -/
def onReplay {α : Type} (self : HistoryCache σ) (replay : Nat)
    (operation : ReplayData σ → α × ReplayData σ) : α × HistoryCache σ :=
  let result := operation (self.replays.getD replay .default)
  (result.1, { self with replays := self.replays.set replay result.2 })

def beginCandidate (self : HistoryCache σ) (key : SessionKey) (attemptId : String) :
    Except HistoryCacheError Unit × HistoryCache σ :=
  match self.candidates.lookup key with
  | some _ => (.error .candidateExists, self)
  | none =>
      (.ok (),
        { self with
          candidates := self.candidates.insert key ⟨attemptId, self.replays.length⟩
          replays := self.replays ++ [.default] })

def appendCandidate (self : HistoryCache σ) (key : SessionKey) (attemptId : String)
    (update : Value) : Except HistoryCacheError Unit × HistoryCache σ :=
  match self.candidate key attemptId with
  | .error error => (.error error, self)
  | .ok replay => self.onReplay replay (·.append update)

def poisonCandidate (self : HistoryCache σ) (key : SessionKey) (attemptId : String)
    (error : HistoryCacheError) : Except HistoryCacheError Unit × HistoryCache σ :=
  match self.candidate key attemptId with
  | .error error => (.error error, self)
  | .ok replay => self.onReplay replay fun data => (.ok (), data.poison error)

def commitCandidate (self : HistoryCache σ) (key : SessionKey) (attemptId : String) :
    Except HistoryCacheError HistorySnapshot × HistoryCache σ :=
  match self.candidate key attemptId with
  | .error error => (.error error, self)
  | .ok replay =>
      match self.onReplay replay (·.takeHistory) with
      | (.error error, self) => (.error error, self)
      | (.ok (updates, bytes), self) =>
          let (snapshot, self) :=
            { self with candidates := self.candidates.erase key }.installSnapshot key updates bytes
          (.ok snapshot, self)

def appendCommittedUpdates (self : HistoryCache σ) (key : SessionKey) (suffix : List Value) :
    Except HistoryCacheError HistorySnapshot × HistoryCache σ :=
  match self.entries.lookup key with
  | none => (.error .invalidReplay, self)
  | some previous =>
      match suffix.foldlM foldHistoryUpdate previous.snapshot.updates with
      | .error _ => (.error .invalidReplay, self)
      | .ok updates =>
          let (snapshot, self) := self.installSnapshot key updates (Value.array updates).bytes
          (.ok snapshot, self)

def abortCandidate (self : HistoryCache σ) (key : SessionKey) (attemptId : String) :
    Except HistoryCacheError Unit × HistoryCache σ :=
  match self.candidate key attemptId with
  | .error error => (.error error, self)
  | .ok replay =>
      let self := (self.onReplay replay fun _ => ((), .discarded)).2
      (.ok (), { self with candidates := self.candidates.erase key })

def remove (self : HistoryCache σ) (key : SessionKey) : HistoryCache σ :=
  let self :=
    { self with
      snapshotBytes := self.bytesWithout key
      entries := self.entries.erase key }
  match self.candidates.lookup key with
  | none => self
  | some candidate =>
      (onReplay { self with candidates := self.candidates.erase key } candidate.replay
        fun _ => ((), .discarded)).2

section OnReplay

variable {α : Type} {cache : HistoryCache σ} {replay : Nat}

theorem onReplay_of_getElem? {data : ReplayData σ} (h : cache.replays[replay]? = some data)
    (operation : ReplayData σ → α × ReplayData σ) :
    (cache.onReplay replay operation).1 = (operation data).1 ∧
      (cache.onReplay replay operation).2.replays[replay]? = some (operation data).2 := by
  have hget : cache.replays.getD replay .default = data := by
    rw [List.getD_eq_getElem?_getD, h, Option.getD_some]
  have hlt := (List.getElem?_eq_some_iff.mp h).1
  simp only [onReplay, hget]
  exact ⟨trivial, List.getElem?_set_self hlt⟩

/-- An operation through one handle leaves every other candidate alone. -/
theorem onReplay_getElem?_of_ne {other : Nat} (h : replay ≠ other)
    (operation : ReplayData σ → α × ReplayData σ) :
    (cache.onReplay replay operation).2.replays[other]? = cache.replays[other]? :=
  List.getElem?_set_ne h

@[simp] theorem onReplay_length (operation : ReplayData σ → α × ReplayData σ) :
    (cache.onReplay replay operation).2.replays.length = cache.replays.length :=
  List.length_set

end OnReplay

section Begin

variable {cache : HistoryCache σ} {key : SessionKey} (attemptId : String)

theorem beginCandidate_of_some {candidate : LoadCandidate}
    (h : cache.candidates.lookup key = some candidate) :
    cache.beginCandidate key attemptId = (.error .candidateExists, cache) := by
  simp [beginCandidate, h]

/-- A new attempt gets a candidate and a handle of its own. -/
theorem beginCandidate_of_none (h : cache.candidates.lookup key = none) :
    cache.beginCandidate key attemptId =
      (.ok (),
        { cache with
          candidates := cache.candidates.insert key ⟨attemptId, cache.replays.length⟩
          replays := cache.replays ++ [.default] }) := by
  simp [beginCandidate, h]

omit [Inhabited σ] in
theorem candidate_eq_ok {attemptId : String} {replay : Nat} :
    cache.candidate key attemptId = .ok replay ↔
      cache.candidates.lookup key = some ⟨attemptId, replay⟩ := by
  unfold candidate
  cases cache.candidates.lookup key with
  | none => simp
  | some candidate =>
      obtain ⟨current, handle⟩ := candidate
      by_cases h : current = attemptId <;> simp [h]

end Begin

section Peek

variable {cache : HistoryCache σ}

omit [Inhabited σ] in
/-- Publishing is seen under its own key only. -/
theorem peek_installSnapshot (key other : SessionKey) (updates : List Value) (bytes : Nat) :
    (cache.installSnapshot key updates bytes).2.peek other =
      if other = key then some (cache.installSnapshot key updates bytes).1
      else cache.peek other := by
  by_cases h : other = key
  · subst h
    simp [installSnapshot, peek, Finmap.lookup_insert]
  · simp [installSnapshot, peek, Finmap.lookup_insert_of_ne _ h, h]

end Peek

section Commit

variable {cache : HistoryCache σ} {key : SessionKey} {attemptId : String}

/-- The cache once the candidate behind a handle is published under a key. -/
def publish (cache : HistoryCache σ) (key : SessionKey) (replay : Nat) (updates : List Value) :
    HistorySnapshot × HistoryCache σ :=
  { (cache.onReplay replay (·.takeHistory)).2 with
    candidates := cache.candidates.erase key }.installSnapshot key updates
      (max (cache.replays.getD replay .default).history.bytes 2)

/-- A commit either changes nothing or publishes the fold of the current candidate. -/
theorem commitCandidate_cases (cache : HistoryCache σ) (key : SessionKey) (attemptId : String) :
    (∃ error, cache.commitCandidate key attemptId = (.error error, cache)) ∨
      ∃ replay updates, cache.candidates.lookup key = some ⟨attemptId, replay⟩ ∧
        (cache.replays.getD replay .default).updates = .ok updates ∧
        cache.commitCandidate key attemptId =
          (.ok (cache.publish key replay updates).1, (cache.publish key replay updates).2) := by
  unfold commitCandidate
  cases hc : cache.candidate key attemptId with
  | error error => exact .inl ⟨error, rfl⟩
  | ok replay =>
      cases hu : (cache.replays.getD replay .default).updates with
      | error error =>
          refine .inl ⟨error, ?_⟩
          have hsame : cache.replays.set replay (cache.replays.getD replay .default) =
              cache.replays := by
            by_cases hlt : replay < cache.replays.length
            · simp [hlt]
            · exact List.set_eq_of_length_le (Nat.le_of_not_lt hlt)
          simp only [onReplay, ReplayData.takeHistory, hu, hsame]
      | ok updates =>
          have hupdates : (cache.replays.getD replay .default).history.updates = updates := by
            unfold ReplayData.updates at hu
            split at hu
            · cases hu
            · exact Except.ok.inj hu
          refine .inr ⟨replay, updates, candidate_eq_ok.mp hc, hu, ?_⟩
          simp only [onReplay, ReplayData.takeHistory, hu, hupdates, publish]

@[simp] theorem publish_fst_updates (replay : Nat) (updates : List Value) :
    (cache.publish key replay updates).1.updates = updates := rfl

theorem peek_publish (replay : Nat) (updates : List Value) (other : SessionKey) :
    (cache.publish key replay updates).2.peek other =
      if other = key then some (cache.publish key replay updates).1 else cache.peek other := by
  rw [publish, peek_installSnapshot]
  rfl

end Commit

end HistoryCache

end Attyd.History
