import Attyd.Session.Publications

/-!
# Retries of committed intents

A retry on one of the two revisions that a committed intent is remembered with is a duplicate in
every later state. The current revision of the session is one of them until its history is
published again.

## Implementation notes

Publications are told apart by the generation in their revision. The generation counter wraps after
2 ^ 64 publications; only what is said of revisions that differ assumes that it does not.
-/

namespace Attyd.Session

open Json (Value)
open History

variable {σ δ : Type} [Inhabited σ] [DecidableEq δ]
variable (sha256 : String → δ) (validate : ValidateHistoryUpdate σ)

/-- A retry of a committed request is a duplicate on the revision it was submitted against, in every
later state. On the current revision it is a duplicate as long as no idle update is published and no
turn or load of the session is committed, and from then on a conflict, unless the generations have
run out. -/
theorem committed_retries_answered (epoch : String) (before during later : List RegistryOp)
    (commit : RegistryOp) (sessionId : String) (incarnation : Nat) (request : TurnRequest)
    (operationId : String) :
    let step := RegistryOp.step sha256 validate
    let retry := fun (r : SessionRegistry σ δ) (expectedHistoryRevision : String) =>
      r.startTurn sha256 sessionId incarnation expectedHistoryRevision request.clientIntentId
        request.prompt
    let accepted := retry (run step (.new epoch) before) request.expectedHistoryRevision
    let running := run step accepted.2 during
    let committed := step running commit
    let r := run step committed later
    accepted.1 = .ok (.accepted operationId) →
    (∀ op ∈ during ++ commit :: later, op.replaces sessionId incarnation = false) →
    runsIntent running sessionId request.clientIntentId = true →
    runsIntent committed sessionId request.clientIntentId = false →
    (retry r request.expectedHistoryRevision).1 = .ok (.duplicate operationId) ∧
    ∀ current, revisionOf r sessionId = some current →
      (Along step (Unpublished sessionId) committed later →
        (retry r current).1 = .ok (.duplicate operationId)) ∧
      (before.length + during.length + later.length + 3 < 2 ^ 64 →
        ¬Along step (Unpublished sessionId) committed later →
        (retry r current).1 = .error .idempotencyConflict) := by
  intro step retry accepted running committed r haccepted hreplaces hrunning hended
  have hsound : ((run step (.new epoch : SessionRegistry σ δ) before).slice sessionId).Sound :=
    sound_run sha256 validate epoch before sessionId
  have hcommit : ∀ op ∈ during ++ [commit], op.replaces sessionId incarnation = false := by
    intro op hop
    refine hreplaces op ?_
    rcases List.mem_append.mp hop with hop | hop
    · exact List.mem_append_left _ hop
    · exact List.mem_append_right _ (List.mem_singleton.mp hop ▸ List.mem_cons_self)
  have hlater : ∀ op ∈ later, op.replaces sessionId incarnation = false :=
    fun op hop => hreplaces op (List.mem_append_right _ (List.mem_cons_of_mem _ hop))
  obtain ⟨b, hb, hbi, successor, hsuccessor, hrecalls⟩ :=
    commit_remembers sha256 validate hsound (Prod.ext haccepted rfl) hcommit hrunning hended
  let start : RegistryOp := .startTurn sessionId incarnation request.expectedHistoryRevision
    request.clientIntentId request.prompt
  have hstart : run step (.new epoch) (before ++ [start]) = accepted.2 := run_snoc _ _ _ _
  have hcommitted : run step (.new epoch) (before ++ [start] ++ (during ++ [commit])) =
      committed := by
    rw [run_append, hstart, run_snoc]
  have hsoundCommitted : (committed.slice sessionId).Sound := by
    rw [← hcommitted]
    exact sound_run sha256 validate epoch _ sessionId
  obtain ⟨hsoundFinal, hfinal⟩ :=
    run_recalls validate hlater hsoundCommitted ⟨b, hb, hbi, hrecalls⟩
  have hanswer := startTurn_recalled hsoundFinal hfinal
  refine ⟨(hanswer _).trans (if_pos (.inl rfl)), fun current hcurrent => ⟨fun halong => ?_,
    fun hbound halong => ?_⟩⟩
  · -- The revision the commit published is still current.
    obtain ⟨c, hc, -, hsame⟩ :=
      run_unpublished validate sha256 hlater ⟨b, hb, hbi, hsuccessor⟩ halong
    rw [revisionOf_of_session hc, hsame] at hcurrent
    cases hcurrent
    exact (hanswer _).trans (if_pos (.inr rfl))
  · -- Both remembered revisions are of generations up to the commit, the current one of a later.
    have hempty : ((.new epoch : SessionRegistry σ δ).slice sessionId).Numbered := by
      intro a revision ha
      cases ha
    obtain ⟨hnumbered, hgens⟩ := numbered_run sha256 validate sessionId (before ++ [start]) hempty
      (by
        change 0 + _ + 1 < _
        simp only [List.length_append, List.length_singleton]
        omega)
    obtain ⟨hnumbered', hgens'⟩ := numbered_run sha256 validate sessionId
      (before ++ [start] ++ (during ++ [commit])) hempty
      (by
        change 0 + _ + 1 < _
        simp only [List.length_append, List.length_singleton]
        omega)
    rw [hstart] at hnumbered hgens
    rw [hcommitted] at hnumbered' hgens'
    have hgensStart : accepted.2.history.nextGeneration ≤ before.length + 1 := by
      simpa [SessionRegistry.new, HistoryCache.new] using hgens
    have hgensCommitted : committed.history.nextGeneration ≤
        before.length + during.length + 2 := by
      refine hgens'.trans ?_
      simp only [SessionRegistry.new, HistoryCache.new, List.length_append, List.length_singleton]
      omega
    have hpending : (accepted.2.slice sessionId).Has incarnation
        (Pending sha256 request operationId) := startTurn_pending (Prod.ext haccepted rfl)
    obtain ⟨a, ha, hai, -, -, hexpected⟩ := hpending
    obtain ⟨g₁, hg₁, he₁⟩ := hnumbered a _ ha hexpected
    obtain ⟨g₂, hg₂, he₂⟩ := hnumbered' b _ hb hsuccessor
    have hadvance : Advance incarnation (accepted.2.slice sessionId)
        (committed.slice sessionId) := by
      have hrun := run_advance validate sha256 hcommit ha hai (by
        simp only [List.length_append, List.length_singleton]
        omega)
      rwa [run_snoc] at hrun
    have hgrow : accepted.2.history.nextGeneration ≤ committed.history.nextGeneration :=
      hadvance.generations
    have hepoch : committed.history.epoch = accepted.2.history.epoch := hadvance.epoch
    have hpublished : ∃ g, committed.history.nextGeneration < g ∧ revisionOf r sessionId =
        some (HistoryCache.revisionText committed.history.epoch incarnation g) :=
      run_published validate hlater hb hbi
        (by omega) halong
    obtain ⟨g, hg, hnew⟩ := hpublished
    cases hcurrent.symm.trans hnew
    refine (hanswer _).trans (if_neg ?_)
    rintro (h | h)
    · change g₁ ≤ accepted.2.history.nextGeneration at hg₁
      rw [he₁, hai, hepoch] at h
      have hsame : g₁ = g := revisionText_injective h
      omega
    · change g₂ ≤ committed.history.nextGeneration at hg₂
      rw [he₂, hbi] at h
      have hsame : g₂ = g := revisionText_injective h
      omega

/-- A message that arrives while no turn is under way. -/
def idleMessage : Value :=
  .ofFields [("sessionUpdate", .string "agent_message_chunk"),
    ("content", .ofFields [("type", .string "text"), ("text", .string "idle")])]

/-- After an idle message the retry on the first revision is a duplicate, that on the current
revision a conflict. -/
theorem committed_retries_answered_idle :
    let validate : ValidateHistoryUpdate Unit := fun validation _ => (.ok (), validation)
    let prompt : Prompt := ⟨[.ofFields [("type", .string "image")]], "prompt"⟩
    let before : List RegistryOp := [.registerNew "s" 1]
    let during : List RegistryOp := [.completeTurn "s" 1 "epoch:1" .null]
    let later : List RegistryOp := [.appendSessionUpdate "s" 1 idleMessage]
    let step := RegistryOp.step (id : String → String) validate
    let retry := fun (r : SessionRegistry Unit String) (revision : String) =>
      r.startTurn id "s" 1 revision "intent" prompt
    let r := run step (step (run step (retry (run step (.new "epoch") before) "epoch:1:1").2 during)
      (.commitCompletedTurnFromMemory "s" 1 "epoch:1")) later
    (retry r "epoch:1:1").1 = .ok (.duplicate "epoch:1") ∧
      (retry r "epoch:1:3").1 = .error .idempotencyConflict := by
  intro validate prompt before during later step retry r
  obtain ⟨hsubmitted, hcurrent⟩ := committed_retries_answered id validate "epoch" before during
    later (.commitCompletedTurnFromMemory "s" 1 "epoch:1") "s" 1 ⟨"epoch:1:1", "intent", prompt⟩
    "epoch:1" (by decide +kernel) (by decide +kernel) (by decide +kernel) (by decide +kernel)
  exact ⟨hsubmitted, (hcurrent "epoch:1:3" (by decide +kernel)).2 (by decide +kernel)
    (by decide +kernel)⟩

/-- The revision that is current after an idle message is no revision to retry on. -/
theorem retry_on_current_revision_conflicts :
    let prompt : Prompt := ⟨[.ofFields [("type", .string "image")]], "prompt"⟩
    let r := run (RegistryOp.step (id : String → String) fun validation _ => (.ok (), validation))
      (.new "epoch" : SessionRegistry Unit String)
      [.registerNew "s" 1, .startTurn "s" 1 "epoch:1:1" "intent" prompt,
        .completeTurn "s" 1 "epoch:1" .null, .commitCompletedTurnFromMemory "s" 1 "epoch:1",
        .appendSessionUpdate "s" 1 idleMessage]
    revisionOf r "s" = some "epoch:1:3" ∧
      (r.startTurn id "s" 1 "epoch:1:3" "intent" prompt).1 = .error .idempotencyConflict := by
  decide +kernel

end Attyd.Session
