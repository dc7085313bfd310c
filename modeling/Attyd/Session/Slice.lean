import Attyd.Session.Registry

/-!
# What the registry holds about one session

A slice is all that one session sees of the registry: its state, its published
history and its current attempt for each incarnation, and the counters. The
transitions say what can happen to a slice, one for each kind of change, with
everything the change requires. Every operation of the registry moves the slice
of its own session along these transitions and leaves all others alone.

## Implementation notes

The content of a load candidate is no part of a slice: what is published comes
with the transition that publishes it.
-/

namespace Attyd.Session

open Json (Value)
open History

/-- The registry as one session sees it. -/
structure Slice (δ : Type) where
  session : Option (SessionState δ)
  baseline : Nat → Option HistorySnapshot
  attempt : Nat → Option String
  epoch : String
  historyEpoch : String
  operations : Nat
  generations : Nat

variable {δ : Type}

namespace Slice

/-- The revision the next publication of an incarnation gets. -/
def nextRevision (s : Slice δ) (incarnation : Nat) : String :=
  HistoryCache.revisionText s.historyEpoch incarnation (nextCounter s.generations)

/-- The operation id the next turn gets. -/
def nextOperationId (s : Slice δ) : String := s.epoch ++ ":" ++ toString (nextCounter s.operations)

/-- A publication for an incarnation. -/
def publish (s : Slice δ) (incarnation : Nat) (updates : List Value) (bytes : Nat) : Slice δ :=
  { s with
    baseline := Function.update s.baseline incarnation
      (some ⟨s.nextRevision incarnation, updates, bytes⟩)
    generations := nextCounter s.generations }

def setAttempt (s : Slice δ) (incarnation : Nat) (attempt : Option String) : Slice δ :=
  { s with attempt := Function.update s.attempt incarnation attempt }

def setSession (s : Slice δ) (session : SessionState δ) : Slice δ :=
  { s with session := some session }

end Slice

/-- A change on the live side of a session, or of a notice or view counter only. -/
structure Touched (a b : SessionState δ) : Prop where
  sessionId : b.sessionId = a.sessionId
  incarnation : b.incarnation = a.incarnation
  historyRevision : b.historyRevision = a.historyRevision
  phase : b.phase = a.phase
  turn : ∃ execution : TurnOverlay → Option TurnExecution,
    b.activeTurn = a.activeTurn.map fun turn => { turn with execution := execution turn }
  outcomes : b.turnOutcomes = a.turnOutcomes
  digest : b.activePayloadDigest = a.activePayloadDigest
  intents : b.consumedIntents = a.consumedIntents
  loadAttempt : b.loadAttempt = a.loadAttempt
  loadOrigin : b.loadOrigin = a.loadOrigin

/-- The kinds of change. -/
inductive Action where
  | elapsed
  | touched
  | created
  | registered
  | cleared
  | retired
  | begun
  | failed
  | cooled
  | loaded
  | admitted
  | gathered
  | completed
  | appended
  | remembered
  | blocked
  deriving DecidableEq

variable [DecidableEq δ]

/-- What can happen to the slice of a session. -/
inductive Transition (sha256 : String → δ) (sessionId : String) : Action → Slice δ → Slice δ → Prop
  /-- Another session was admitted a turn or published a history. -/
  | elapsed {s : Slice δ} {operations generations : Nat}
      (hops : operations = s.operations ∨ operations = nextCounter s.operations)
      (hgens : generations = s.generations ∨ generations = nextCounter s.generations) :
      Transition sha256 sessionId .elapsed s { s with operations, generations }
  | touched {s : Slice δ} {a b : SessionState δ} (h : s.session = some a) (hb : Touched a b) :
      Transition sha256 sessionId .touched s (s.setSession b)
  | created {s : Slice δ} (h : s.session = none) (incarnation : Nat) :
      Transition sha256 sessionId .created s (s.setSession (.cold sessionId incarnation))
  /-- A registered session starts from an empty published history. -/
  | registered {s : Slice δ} {b : SessionState δ} (incarnation : Nat)
      (h : ∀ a, s.session = some a → a.incarnation = incarnation ∧ a.loadAttempt = none)
      (hb : Touched (.cold sessionId incarnation) b ∨
        Touched (.ready sessionId incarnation (s.nextRevision incarnation)) b) :
      Transition sha256 sessionId .registered s ((s.publish incarnation [] 2).setSession b)
  | cleared {s : Slice δ} {a b : SessionState δ} (h : s.session = some a)
      (hb : Touched (.cold sessionId a.incarnation) b) :
      Transition sha256 sessionId .cleared s
        { s with
          session := some b
          baseline := Function.update s.baseline a.incarnation none
          attempt := Function.update s.attempt a.incarnation none }
  | retired {s : Slice δ} {a : SessionState δ} (h : s.session = some a)
      (hload : a.loadAttempt = none) :
      Transition sha256 sessionId .retired s { s with session := none }
  | begun {s : Slice δ} {a : SessionState δ} (attemptId : String) (h : s.session = some a)
      (hload : SessionRegistry.mayLoad a attemptId) (hfree : s.attempt a.incarnation = none) :
      Transition sha256 sessionId .begun s
        ((s.setAttempt a.incarnation (some attemptId)).setSession
          (SessionRegistry.loadBegun a attemptId))
  | failed {s : Slice δ} {a b : SessionState δ} (attemptId message : String) (retryable : Bool)
      (h : s.session = some a) (hload : a.loadAttempt = some attemptId)
      (hb : b = { a with
        loadOrigin := none
        loadAttempt := none
        syncError := some message
        phase := SessionRegistry.phaseAfterFailure a.loadOrigin retryable }.advanceRevision) :
      Transition sha256 sessionId .failed s ((s.setAttempt a.incarnation none).setSession b)
  /-- A session without turn and load forgets whether its history is complete. -/
  | cooled {s : Slice δ} {a : SessionState δ} (h : s.session = some a)
      (hturn : a.activeTurn = none) (hload : a.loadAttempt = none) :
      Transition sha256 sessionId .cooled s (s.setSession { a with phase := .cold })
  | loaded {s : Slice δ} {a : SessionState δ} (attemptId : String) (updates : List Value)
      (bytes : Nat) (h : s.session = some a) (hload : a.loadAttempt = some attemptId)
      (hphase : a.phase = .loading ∨ a.phase = .reconciling)
      (hdigest : a.validateHistoryCommit = .ok ()) :
      Transition sha256 sessionId .loaded s
        (((s.setAttempt a.incarnation none).publish a.incarnation updates bytes).setSession
          (a.historyCommitted (s.nextRevision a.incarnation) updates.length (a.phase = .loading)))
  | admitted {s : Slice δ} {a : SessionState δ} (expectedHistoryRevision clientIntentId : String)
      (prompt : Prompt) (h : s.session = some a)
      (hcheck : a.checkTurnAdmission sha256 expectedHistoryRevision clientIntentId prompt =
        .ok none) :
      Transition sha256 sessionId .admitted s
        { s.setSession (a.turnBegun sha256 s.nextOperationId clientIntentId prompt) with
          operations := nextCounter s.operations }
  | gathered {s : Slice δ} {a b : SessionState δ} (update : Value) (h : s.session = some a)
      (hphase : a.phase = .running ∨ a.phase = .reconciling ∧ a.loadAttempt = none)
      (hb : a.foldOverlayUpdate update = .ok b) :
      Transition sha256 sessionId .gathered s (s.setSession b)
  | completed {s : Slice δ} {a b : SessionState δ} (operationId : String) (terminal : Value)
      (h : s.session = some a) (hb : a.completeTurn operationId terminal = .ok b) :
      Transition sha256 sessionId .completed s (s.setSession b)
  | appended {s : Slice δ} {a : SessionState δ} {prior : HistorySnapshot} (update : Value)
      (updates : List Value) (bytes : Nat) (h : s.session = some a)
      (hload : a.loadAttempt = none) (hphase : a.phase = .ready)
      (hprior : s.baseline a.incarnation = some prior)
      (hfold : foldHistoryUpdate prior.updates update = .ok updates) :
      Transition sha256 sessionId .appended s
        ((s.publish a.incarnation updates bytes).setSession
          { a with historyRevision := some (s.nextRevision a.incarnation) }.advanceRevision)
  | remembered {s : Slice δ} {a : SessionState δ} {prior : HistorySnapshot} {turn : TurnOverlay}
      (operationId : String) (updates : List Value) (bytes : Nat) (h : s.session = some a)
      (hturn : SessionRegistry.completedTurn a operationId = .ok turn)
      (hprior : s.baseline a.incarnation = some prior)
      (hfold : (SessionRegistry.turnSuffix turn).foldlM foldHistoryUpdate prior.updates =
        .ok updates) :
      Transition sha256 sessionId .remembered s
        ((s.publish a.incarnation updates bytes).setSession
          (a.historyCommitted (s.nextRevision a.incarnation) updates.length false))
  | blocked {s : Slice δ} {a b : SessionState δ} (operationId message : String)
      (h : s.session = some a) (hb : a.blockTurn operationId message = .ok b) :
      Transition sha256 sessionId .blocked s (s.setSession b)

/-- Transitions of the given kinds in their order; each may also be left out. -/
inductive Moves (sha256 : String → δ) (sessionId : String) :
    List Action → Slice δ → Slice δ → Prop
  | done {s : Slice δ} : Moves sha256 sessionId [] s s
  | skip {kind : Action} {kinds : List Action} {s s' : Slice δ}
      (h : Moves sha256 sessionId kinds s s') : Moves sha256 sessionId (kind :: kinds) s s'
  | step {kind : Action} {kinds : List Action} {s t s' : Slice δ}
      (ht : Transition sha256 sessionId kind s t) (h : Moves sha256 sessionId kinds t s') :
      Moves sha256 sessionId (kind :: kinds) s s'

/-- Whether a transition of this kind advances a counter. -/
def Action.counts : Action → Bool
  | elapsed | registered | loaded | admitted | appended | remembered => true
  | _ => false

namespace Moves

variable {sha256 : String → δ} {sessionId : String} {kinds kinds' : List Action} {kind : Action}
  {s t s' : Slice δ}

theorem refl (kinds : List Action) (s : Slice δ) : Moves sha256 sessionId kinds s s := by
  induction kinds with
  | nil => exact .done
  | cons kind kinds ih => exact .skip ih

theorem single (h : Transition sha256 sessionId kind s s') : Moves sha256 sessionId [kind] s s' :=
  .step h .done

theorem append (h : Moves sha256 sessionId kinds s t) (h' : Moves sha256 sessionId kinds' t s') :
    Moves sha256 sessionId (kinds ++ kinds') s s' := by
  induction h with
  | done => exact h'
  | skip _ ih => exact .skip (ih h')
  | step ht _ ih => exact .step ht (ih h')

theorem mono (h : Moves sha256 sessionId kinds s s') (hsub : kinds.Sublist kinds') :
    Moves sha256 sessionId kinds' s s' := by
  induction hsub generalizing s with
  | slnil => exact h
  | cons _ _ ih => exact .skip (ih h)
  | cons_cons _ _ ih =>
      cases h with
      | skip h => exact .skip (ih h)
      | step ht h => exact .step ht (ih h)

/-- What the transitions of some kinds preserve, their sequences preserve. -/
theorem preserves {P : Slice δ → Prop} (h : Moves sha256 sessionId kinds s s')
    (hstep : ∀ kind ∈ kinds, ∀ t t', Transition sha256 sessionId kind t t' → P t → P t')
    (hs : P s) : P s' := by
  induction h with
  | done => exact hs
  | skip _ ih => exact ih (fun kind hk => hstep kind (List.mem_cons_of_mem _ hk)) hs
  | step ht _ ih =>
      exact ih (fun kind hk => hstep kind (List.mem_cons_of_mem _ hk))
        (hstep _ List.mem_cons_self _ _ ht hs)

end Moves

end Attyd.Session
