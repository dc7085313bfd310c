import Attyd.History.Commits
import Attyd.Session.CachedHistory
import Attyd.Session.Runs

/-!
# How baselines come about

A completed turn and an idle update are additions to the baseline before them. When an optional
replay fails, the bridge installs the updates of the baseline it has: they are folded once more on
the way, which gives the baseline back unless two of its neighbours join.
-/

namespace Attyd.Session

open Json (Value)
open History

variable {σ δ : Type} [Inhabited σ] [DecidableEq δ]

section Additions

omit [Inhabited σ] [DecidableEq δ]

variable {sessionId operationId : String} {incarnation : Nat} {r r' : SessionRegistry σ δ}
  {snapshot : HistorySnapshot}

end Additions

/-- Every baseline of a run is a fold. -/
theorem isFold_run (sha256 : String → δ) (validate : ValidateHistoryUpdate σ) (epoch : String)
    (ops : List RegistryOp) {key : SessionKey} {snapshot : HistorySnapshot}
    (h : (run (RegistryOp.step sha256 validate) (.new epoch) ops).history.peek key =
      some snapshot) : IsFold snapshot.updates := by
  have hfolded : (run (RegistryOp.step sha256 validate) (.new epoch) ops).history.Folded :=
    run_invariant (P := fun r : SessionRegistry σ δ => r.history.Folded)
      (fun r op hr => RegistryOp.step_folded sha256 validate r op hr)
      (HistoryCache.Folded.new epoch) ops
  exact hfolded.entries key snapshot h

/-- In every state a run reaches, a baseline folds to itself, and is installed again as it is,
exactly where no two neighbouring entries of it are text chunks that join. -/
theorem reinstalled_same_iff (sha256 : String → δ) (validate : ValidateHistoryUpdate σ)
    (epoch : String) (ops : List RegistryOp) (sessionId : String) (incarnation : Nat)
    (snapshot : HistorySnapshot) :
    let r := run (RegistryOp.step sha256 validate) (.new epoch) ops
    r.history.peek ⟨sessionId, incarnation⟩ = some snapshot →
      (normalizeHistoryUpdates snapshot.updates = .ok snapshot.updates ↔
        snapshot.updates.IsChain fun previous next => ¬Joins previous next) ∧
      ∀ notice r', r.useCachedHistory sessionId incarnation snapshot.updates notice = (.ok (), r') →
        ((r'.history.peek ⟨sessionId, incarnation⟩).map (·.updates) = some snapshot.updates ↔
          snapshot.updates.IsChain fun previous next => ¬Joins previous next) := by
  intro r hpeek
  have hself := normalizeHistoryUpdates_self_iff (isFold_run sha256 validate epoch ops hpeek)
  refine ⟨hself, fun notice r' hinstall => ?_⟩
  obtain ⟨installed, hinstalled, hnormal⟩ := useCachedHistory_installs hinstall
  rw [← hself, hinstalled, hnormal]
  simp

/-- Two chunks of an answer, between which a plan stood that was then removed. -/
def removedPlanLoad : List RegistryOp :=
  let chunk (text : String) : Value := .ofFields [("sessionUpdate", .string "agent_message_chunk"),
    ("content", .ofFields [("type", .string "text"), ("text", .string text)])]
  [.registerNew "s" 1, .beginLoad "s" 1 "load", .appendLoadUpdate "s" 1 "load" (chunk "a"),
    .appendLoadUpdate "s" 1 "load" (.ofFields [("sessionUpdate", .string "plan_update"),
      ("plan", .ofFields [("planId", .string "p")])]),
    .appendLoadUpdate "s" 1 "load" (chunk "b"),
    .appendLoadUpdate "s" 1 "load" (.ofFields [("sessionUpdate", .string "plan_removed"),
      ("planId", .string "p")]),
    .commitLoad "s" 1 "load"]

/-- The two chunks join, as the list that is installed again shows. -/
theorem reinstalled_same_iff_removedPlan :
    let r := run (RegistryOp.step id fun validation _ => (.ok (), validation))
      (.new "epoch" : SessionRegistry Unit String) removedPlanLoad
    ∃ snapshot, r.history.peek ⟨"s", 1⟩ = some snapshot ∧
      ¬snapshot.updates.IsChain fun previous next => ¬Joins previous next := by
  intro r
  have hsome : (r.history.peek ⟨"s", 1⟩).isSome = true := by decide +kernel
  obtain ⟨snapshot, hpeek⟩ := Option.isSome_iff_exists.mp hsome
  have hupdates : snapshot.updates = (r.history.peek ⟨"s", 1⟩).elim [] (·.updates) := by
    rw [hpeek]
    rfl
  have hanswer : (r.useCachedHistory "s" 1 snapshot.updates "notice").1 = .ok () := by
    rw [hupdates]
    decide +kernel
  refine ⟨snapshot, hpeek, fun hchain => ?_⟩
  obtain ⟨-, hinstall⟩ := reinstalled_same_iff id (fun validation _ => (.ok (), validation))
    "epoch" removedPlanLoad "s" 1 snapshot hpeek
  have hsame := (hinstall "notice" _ (Prod.ext hanswer rfl)).mpr hchain
  rw [hupdates] at hsame
  revert hsame
  decide +kernel

/-- The two chunks are one after the baseline is installed again. -/
theorem reinstalled_joins_chunks :
    let r := run (RegistryOp.step id fun validation _ => (.ok (), validation))
      (.new "epoch" : SessionRegistry Unit String) removedPlanLoad
    let updates := (r.history.peek ⟨"s", 1⟩).elim [] (·.updates)
    updates.length = 2 ∧ (r.useCachedHistory "s" 1 updates "notice").1 = .ok () ∧
      ((r.useCachedHistory "s" 1 updates "notice").2.history.peek ⟨"s", 1⟩).map
        (·.updates.length) = some 1 := by
  decide +kernel

end Attyd.Session
