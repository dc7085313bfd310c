import Attyd.Session.Runs
import Mathlib.Data.List.TakeWhile

/-!
# What a load may put in the place of a completed turn

A session that reconciles knows a history and a completed turn on top of it. A
replay ends that turn when it says the known history again, then the prompt, and
then, among other things, everything durable that the turn brought. Only such a
replay is published; any other leaves the registry as it was.

## Implementation notes

The comparison is made on both sides without message ids, and numbers are compared by value. The replay is cut where
its fold reaches the known history for the first time; the cut is the witness of
the first existential of `EndsTurn`.
-/

namespace Attyd.Session

open Json (Value)
open Json.Value (alikeList)
open History

/-- The replay says the history `prior` again, then the prompt, then all that is durable
in the updates `live` of the turn. -/
def EndsTurn (prior prompt live replay : List Value) : Prop :=
  ∃ before said rest, replay = before ++ (said ++ rest) ∧ said ++ rest ≠ [] ∧
    (∃ again known, normalizeHistoryUpdates (before.map historyUpdateIdentity) = .ok again ∧
      normalizeHistoryUpdates (prior.map historyUpdateIdentity) = .ok known ∧
      alikeList again known = true) ∧
    (∀ update ∈ said, isUserChunk update = true) ∧
    (∀ update ∈ rest.head?, isUserChunk update = false) ∧
    alikeList (normalizePromptBlocks (said.filterMap (·.get "content")))
      (normalizePromptBlocks prompt) = true ∧
    ∃ kept brought, durableUpdates (said ++ rest) = .ok kept ∧
      durableUpdates live = .ok brought ∧
      (brought.map Value.unsigned).Sublist (kept.map Value.unsigned)

section Search

/-- The search stops at a prefix that folds to the prior history. -/
theorem prefixSearch_eq_some {prior candidate folded : List Value} {index n : Nat}
    (h : prefixSearch prior candidate folded index = some n) :
    ∃ k again, n = index + k ∧
      ((candidate.take k).map historyUpdateIdentity).foldlM foldHistoryUpdate folded =
        .ok again ∧ alikeList again prior = true := by
  induction candidate generalizing folded index with
  | nil => cases h
  | cons update candidate ih =>
      rw [prefixSearch] at h
      cases hf : foldHistoryUpdate folded (historyUpdateIdentity update) with
      | error error => simp only [hf, reduceCtorEq] at h
      | ok next =>
          simp only [hf] at h
          by_cases hp : alikeList next prior = true
          case pos =>
            rw [if_pos hp, Option.some.injEq] at h
            refine ⟨1, next, h.symm, ?_, hp⟩
            rw [List.take_succ_cons, List.take_zero, List.map_cons, List.foldlM_cons, hf]
            rfl
          case neg =>
            rw [if_neg hp] at h
            obtain ⟨k, again, hn, hk, halike⟩ := ih h
            refine ⟨k + 1, again, by omega, ?_, halike⟩
            rw [List.take_succ_cons, List.map_cons, List.foldlM_cons, hf]
            exact hk

/-- Where the prefix ends, the replay folds to the fold of the prior history. -/
theorem historyPrefixEnd_eq_some {candidate prior : List Value} {n : Nat}
    (h : historyPrefixEnd candidate prior = some n) :
    ∃ again known,
      normalizeHistoryUpdates ((candidate.take n).map historyUpdateIdentity) = .ok again ∧
        normalizeHistoryUpdates (prior.map historyUpdateIdentity) = .ok known ∧
        alikeList again known = true := by
  unfold historyPrefixEnd at h
  cases hp : normalizeHistoryUpdates (prior.map historyUpdateIdentity) with
  | error error => simp only [hp, reduceCtorEq] at h
  | ok folded =>
      simp only [hp] at h
      by_cases he : folded.isEmpty = true
      case pos =>
        rw [if_pos he, Option.some.injEq] at h
        rw [← h, List.isEmpty_iff.mp he]
        exact ⟨[], [], rfl, rfl, rfl⟩
      case neg =>
        rw [if_neg he] at h
        obtain ⟨k, again, hn, hk, halike⟩ := prefixSearch_eq_some h
        rw [hn, Nat.zero_add]
        exact ⟨again, folded, hk, rfl, halike⟩

/-- A replay that contains the turn has its durable updates in their order. -/
theorem replayContainsCompletedTurn_eq_true {replay live : List Value}
    (h : replayContainsCompletedTurn replay live = true) :
    ∃ kept brought, durableUpdates replay = .ok kept ∧ durableUpdates live = .ok brought ∧
      (brought.map Value.unsigned).Sublist (kept.map Value.unsigned) := by
  unfold replayContainsCompletedTurn at h
  cases hr : durableUpdates replay with
  | error error => simp only [hr, Bool.false_eq_true] at h
  | ok kept =>
      cases hl : durableUpdates live with
      | error error => simp only [hr, hl, Bool.false_eq_true] at h
      | ok brought =>
          simp only [hr, hl] at h
          exact ⟨kept, brought, rfl, rfl, List.isSublist_iff_sublist.mp h⟩

variable {δ : Type}

/-- The check of a replay lets only those pass that end the turn. -/
theorem endsTurn_of_checkReplay {session : SessionState δ} {prior candidate : List Value}
    (h : SessionRegistry.checkReplay session prior candidate = .ok ()) :
    ∃ turn, session.activeTurn = some turn ∧
      EndsTurn prior turn.prompt turn.updates candidate := by
  unfold SessionRegistry.checkReplay at h
  cases hn : historyPrefixEnd candidate prior with
  | none => simp only [hn, reduceCtorEq] at h
  | some n =>
      cases ht : session.activeTurn with
      | none => simp only [hn, ht, reduceCtorEq] at h
      | some turn =>
          simp only [hn, ht] at h
          split at h
          case isFalse => cases h
          case isTrue hcheck =>
            obtain ⟨hlt, hprompt, hlive⟩ := hcheck
            let suffix := candidate.drop n
            have hsplit : suffix.takeWhile isUserChunk ++ suffix.dropWhile isUserChunk = suffix :=
              List.takeWhile_append_dropWhile
            refine ⟨turn, rfl, candidate.take n, suffix.takeWhile isUserChunk,
              suffix.dropWhile isUserChunk, ?_, ?_, historyPrefixEnd_eq_some hn, ?_, ?_, ?_, ?_⟩
            · rw [hsplit, List.take_append_drop]
            · rw [hsplit]
              exact List.ne_nil_of_length_pos (by rw [List.length_drop]; omega)
            · intro update hu
              exact List.mem_takeWhile_imp hu
            · intro update hu
              have hhead := List.head?_dropWhile_not isUserChunk suffix
              rw [Option.mem_def.mp hu] at hhead
              simpa using hhead
            · exact hprompt
            · rw [hsplit]
              exact replayContainsCompletedTurn_eq_true hlive

end Search

section Commit

variable {σ δ : Type} [Inhabited σ] {r : SessionRegistry σ δ}
  {sessionId : String} {incarnation : Nat} {attemptId : String}

/-- What a reconciling load publishes ends the turn of its session. -/
theorem Commits.endsTurn {a : SessionState δ} {replay : Nat} {updates : List Value}
    (h : Commits r sessionId incarnation attemptId a replay updates)
    (hp : a.phase = .reconciling) :
    ∃ prior turn, r.history.peek ⟨sessionId, incarnation⟩ = some prior ∧
      a.activeTurn = some turn ∧ EndsTurn prior.updates turn.prompt turn.updates updates := by
  have hchecked := h.checked
  unfold SessionRegistry.checkReconciling at hchecked
  rw [if_pos hp] at hchecked
  cases hprior : r.history.peek ⟨sessionId, incarnation⟩ with
  | none => simp only [hprior, reduceCtorEq] at hchecked
  | some prior =>
      have hcandidate : r.history.candidate ⟨sessionId, incarnation⟩ attemptId = .ok replay :=
        HistoryCache.candidate_eq_ok.mpr h.current
      simp only [hprior, hcandidate, SessionRegistry.ofHistory, ok_bind] at hchecked
      rw [h.updates] at hchecked
      obtain ⟨turn, ht, hends⟩ := endsTurn_of_checkReplay hchecked
      exact ⟨prior, turn, rfl, ht, hends⟩

/-- A load of a reconciling session either publishes a history that ends its turn, or
fails and leaves everything as it was. -/
theorem commitLoad_endsTurn {a : SessionState δ} (ha : r.state sessionId = some a)
    (hp : a.phase = .reconciling) :
    (∀ snapshot r', r.commitLoad sessionId incarnation attemptId = (.ok snapshot, r') →
      r'.history.peek ⟨sessionId, incarnation⟩ = some snapshot ∧
        ∃ prior turn, r.history.peek ⟨sessionId, incarnation⟩ = some prior ∧
          a.activeTurn = some turn ∧
          EndsTurn prior.updates turn.prompt turn.updates snapshot.updates) ∧
      ∀ error r', r.commitLoad sessionId incarnation attemptId = (.error error, r') → r' = r := by
  rcases commitLoad_cases r sessionId incarnation attemptId with
    ⟨failure, hr⟩ | ⟨b, replay, updates, hc, hr⟩
  · rw [hr]
    constructor
    · intro snapshot r' h
      cases h
    · intro error r' h
      cases h
      rfl
  · rw [hr]
    constructor
    · intro snapshot r' h
      cases h
      obtain rfl : a = b := Option.some.inj (ha.symm.trans hc.state)
      refine ⟨?_, hc.endsTurn hp⟩
      rw [loadPublished_history, HistoryCache.peek_publish, if_pos rfl]
    · intro error r' h
      cases h

/-- A turn on an empty history whose answer comes again in two other pieces. -/
theorem commitLoad_endsTurn_one_turn :
    let chunk (kind text : String) : Value := .ofFields [("sessionUpdate", .string kind),
      ("content", .ofFields [("type", .string "text"), ("text", .string text)])]
    let prompt : Value := .ofFields [("type", .string "text"), ("text", .string "ask")]
    let ops : List RegistryOp :=
      [.registerNew "s" 1, .startTurn "s" 1 "epoch:1:1" "intent" ⟨[prompt], "ask"⟩,
        .appendTurnUpdate "s" 1 "epoch:1" (chunk "agent_message_chunk" "answer"),
        .completeTurn "s" 1 "epoch:1" .null, .beginLoad "s" 1 "load",
        .appendLoadUpdate "s" 1 "load" (chunk "user_message_chunk" "ask"),
        .appendLoadUpdate "s" 1 "load" (chunk "agent_message_chunk" "ans"),
        .appendLoadUpdate "s" 1 "load" (chunk "agent_message_chunk" "wer")]
    let r := run (RegistryOp.step id fun validation _ => (.ok (), validation))
      (.new "epoch" : SessionRegistry Unit String) ops
    ∃ snapshot r', r.commitLoad "s" 1 "load" = (.ok snapshot, r') ∧
      ∃ (prior : HistorySnapshot) (turn : TurnOverlay),
        r.history.peek ⟨"s", 1⟩ = some prior ∧ (r.state "s").bind (·.activeTurn) = some turn ∧
          EndsTurn prior.updates turn.prompt turn.updates snapshot.updates := by
  intro chunk prompt ops r
  have hphase : (r.state "s").any (·.phase = .reconciling) = true := by decide
  have hok : (r.commitLoad "s" 1 "load").1.toBool = true := by decide
  obtain ⟨a, ha, hp⟩ := (Option.any_eq_true _ _).mp hphase
  cases hr : r.commitLoad "s" 1 "load" with
  | mk result r' =>
      cases result with
      | error error =>
          rw [hr] at hok
          cases hok
      | ok snapshot =>
          obtain ⟨prior, turn, hprior, hturn, hends⟩ :=
            ((commitLoad_endsTurn ha (of_decide_eq_true hp)).1 snapshot r' hr).2
          rw [ha]
          exact ⟨snapshot, r', rfl, prior, turn, hprior, hturn, hends⟩

end Commit

end Attyd.Session
