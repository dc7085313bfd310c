import Attyd.Session.Retirement

/-!
# Runs of the bridge over sessions that end

A log keeps which closes and deletes are confirmed, and which cleaners came and went. What
names another incarnation than the current one changes nothing at all; a session whose end is
confirmed is not observed, and only its delete may be tried again; and the cleaner of a
session leaves exactly once.

## Implementation notes

A session that is marked as uncertain after its end was confirmed leaves the log: the bridge
does not know any more what the agent did with it. So does one that is opened anew.
-/

namespace Attyd.Session

open Json (Value)
open History

section Stale

variable {σ δ : Type} [Inhabited σ] [DecidableEq δ] {r : SessionRegistry σ δ}
  {sessionId : String} {incarnation : Nat}

/-- Whether the session runs under the incarnation. -/
def SessionRegistry.current (r : SessionRegistry σ δ) (sessionId : String) (incarnation : Nat) :
    Bool :=
  (r.state sessionId).any (·.incarnation = incarnation)

omit [Inhabited σ] [DecidableEq δ] in
theorem requireState_of_stale (h : r.current sessionId incarnation = false) :
    ∃ error, r.requireState sessionId incarnation = .error error := by
  unfold SessionRegistry.current at h
  unfold SessionRegistry.requireState
  cases hs : r.state sessionId with
  | none => exact ⟨_, rfl⟩
  | some a =>
      rw [hs, Option.any_some, decide_eq_false_iff_not] at h
      exact ⟨_, if_neg h⟩

omit [Inhabited σ] [DecidableEq δ] in
theorem requireLiveOwner_of_stale (h : r.current sessionId incarnation = false) :
    ∃ error, r.requireLiveOwner sessionId incarnation = .error error := by
  cases hr : r.requireLiveOwner sessionId incarnation with
  | error error => exact ⟨error, rfl⟩
  | ok owner =>
      obtain ⟨hs, hi, -⟩ := requireLiveOwner_eq_ok hr
      simp [SessionRegistry.current, hs, hi] at h

omit [Inhabited σ] [DecidableEq δ] in
theorem reduceLive_of_stale {α : Type} {expectedEpoch : String}
    {precheck : Except RuntimeStateError Unit}
    {change : SessionState δ → SessionLiveState → Except RuntimeStateError (α × Reduction δ)}
    (h : r.current sessionId incarnation = false) :
    (r.reduceLive expectedEpoch sessionId incarnation precheck change).2 = r := by
  rcases reduceLive_cases r expectedEpoch sessionId incarnation precheck change with
    ⟨error, hr⟩ | ⟨owner, live, answer, reduction, -, hreducing, -, -⟩
  · rw [hr]
  · simp [SessionRegistry.current, hreducing.state, hreducing.incarnation] at h

namespace RuntimeOp

/-- The session and the incarnation an operation names; an operation that opens or registers
a session names none that is there already. -/
def names : RuntimeOp → Option (String × Nat)
  | mirror ⟨.clearHistoryForReplacement id incarnation, _⟩
  | mirror ⟨.remove id incarnation, _⟩
  | mirror ⟨.beginLoad id incarnation _, _⟩
  | mirror ⟨.appendLoadUpdate id incarnation _ _, _⟩
  | mirror ⟨.invalidateLoad id incarnation _, _⟩
  | mirror ⟨.commitLoad id incarnation _, _⟩
  | mirror ⟨.commitAttachmentCache id incarnation _, _⟩
  | mirror ⟨.useCachedHistory id incarnation _ _, _⟩
  | mirror ⟨.failLoad id incarnation _ _ _, _⟩
  | mirror ⟨.appendTurnUpdate id incarnation _ _, _⟩
  | mirror ⟨.completeTurn id incarnation _ _, _⟩
  | mirror ⟨.appendSessionUpdate id incarnation _, _⟩
  | mirror ⟨.commitCompletedTurnFromMemory id incarnation _, _⟩
  | mirror ⟨.blockTurn id incarnation _ _, _⟩
  | mirror ⟨.retainTerminalOutput id incarnation _ _, _⟩
  | mirror ⟨.beginExclusive id incarnation _ _, _⟩
  | mirror ⟨.settleExclusive id incarnation _ _, _⟩
  | mirror ⟨.touch id incarnation, _⟩
  | mirror ⟨.view id incarnation, _⟩
  | startReload _ id incarnation _ _ | appendAttachmentCandidate _ id incarnation _
  | completeReload _ id incarnation _ _ | failReload _ id incarnation _
  | completeAttachment _ id incarnation _ _ _ | failAttachment _ id incarnation _ _
  | admitSessionTurn _ id incarnation _ _ _ | projectTurnUpdate _ id incarnation _
  | updateControlState _ id incarnation _ _ | synchronizeLoadedSession _ id incarnation _ _
  | requestCancel _ id incarnation | completePrompt _ id incarnation _
  | failPrompt _ id incarnation _ | markPromptUncertain _ id incarnation _
  | upsertTerminal _ id incarnation _ _ | startOperation _ id incarnation _ _ _
  | startDelete _ id incarnation _ | startDirectDelete _ id incarnation _
  | deleteCloseSucceeded _ id incarnation _ | completeDelete _ id incarnation _
  | markOperationUncertain _ id incarnation _ _ | completeOperation _ id incarnation _ _
  | completeControlOperation _ id incarnation _ _ _ _ | failOperation _ id incarnation _ _
  | closeSession _ id incarnation _ | finishSessionCleanup id incarnation _ _
  | upsertPermission _ id incarnation _ _ | resolvePermission _ id incarnation _
  | beginPermissionResponse _ id incarnation _ _ | completePermissionResponse _ id incarnation _ _ =>
      some (id, incarnation)
  | openForked _ _ _ _ source _ => some source
  | upsertElicitation _ scope _ _ | resolveElicitation _ scope _ _
  | beginElicitationResponse _ scope _ _ | completeElicitationResponse _ scope _ _ _
  | settleUrlRegistration _ scope _ _ _ => scope
  | _ => none

omit [DecidableEq δ] in
theorem remove_of_stale (h : r.current sessionId incarnation = false) :
    r.remove sessionId incarnation = r := by
  obtain ⟨error, hr⟩ := requireState_of_stale h
  unfold SessionRegistry.remove SessionRegistry.clearHistoryForReplacement
  simp only [hr]
  cases hl : r.sessions.lookup sessionId with
  | none => rfl
  | some entry =>
      have hne : entry.state.incarnation ≠ incarnation := by
        simpa [SessionRegistry.current, SessionRegistry.state, hl] using h
      exact if_neg fun hi => hne hi.1

/-- An operation on the history that names another incarnation changes nothing. -/
theorem mirror_of_stale (env : RuntimeEnv σ δ)
    (op : {op : RegistryOp // op.independent = true})
    (hnames : (mirror op).names = some (sessionId, incarnation))
    (h : r.current sessionId incarnation = false) : (mirror op).step env r = r := by
  obtain ⟨error, hr⟩ := requireState_of_stale h
  have hloading : ∀ attemptId, r.requireLoading sessionId incarnation attemptId = .error error := by
    intro attemptId
    rw [SessionRegistry.requireLoading, hr]
    rfl
  obtain ⟨op, hop⟩ := op
  cases op with
  | remove => cases hnames; exact remove_of_stale h
  | registerCold | registerNew | startTurn | installLive | writeLive | handle => cases hnames
  | _ =>
      cases hnames
      simp only [step, RegistryOp.step, SessionRegistry.clearHistoryForReplacement,
        SessionRegistry.beginLoad, SessionRegistry.appendLoadUpdate,
        SessionRegistry.invalidateLoad, SessionRegistry.commitLoad,
        SessionRegistry.commitAttachmentCache, SessionRegistry.useCachedHistory,
        SessionRegistry.failLoad, SessionRegistry.appendTurnUpdate, SessionRegistry.completeTurn,
        SessionRegistry.appendSessionUpdate, SessionRegistry.commitCompletedTurnFromMemory,
        SessionRegistry.blockTurn, SessionRegistry.retainTerminalOutput,
        SessionRegistry.beginExclusive, SessionRegistry.settleExclusive, SessionRegistry.touch,
        SessionRegistry.view, SessionRegistry.overlayStep, SessionRegistry.stateStep, hr,
        hloading]

/-- What names another incarnation than the current one changes nothing. -/
theorem step_of_stale (env : RuntimeEnv σ δ) (op : RuntimeOp)
    (hnames : op.names = some (sessionId, incarnation))
    (h : r.current sessionId incarnation = false) : op.step env r = r := by
  obtain ⟨refused, hlive⟩ := requireLiveOwner_of_stale h
  have hepoch : ∀ epoch, ∃ error,
      (r.requireEpoch epoch >>= fun _ => r.requireLiveOwner sessionId incarnation) =
        .error error := by
    intro epoch
    cases r.requireEpoch epoch with
    | error error => exact ⟨error, rfl⟩
    | ok => exact ⟨refused, hlive⟩
  cases op with
  | mirror op => exact mirror_of_stale env op hnames h
  | openForked epoch =>
      cases hnames
      obtain ⟨error, he⟩ := hepoch epoch
      simp only [step, SessionRegistry.openForked, he]
  | admitSessionTurn epoch =>
      cases hnames
      obtain ⟨error, he⟩ := hepoch epoch
      simp only [step, SessionRegistry.admitSessionTurn, he]
  | startDelete =>
      cases hnames
      simp only [step, SessionRegistry.startDelete, hlive]
  | startDirectDelete =>
      cases hnames
      simp only [step, SessionRegistry.startDirectDelete, hlive]
  | finishSessionCleanup id i kind operationId =>
      cases hnames
      rcases finishSessionCleanup_cases r sessionId incarnation kind operationId with
        ⟨error, hf⟩ | ⟨a, o, ha, hi, -⟩
      · simp only [step, hf]
      · simp [SessionRegistry.current, ha, hi] at h
  | openNewWithReplay | startAttachment | takeEffects => cases hnames
  | _ =>
      cases hnames
      exact reduceLive_of_stale h

end RuntimeOp

end Stale

section Admission

variable {σ δ : Type} [Inhabited σ] [DecidableEq δ] {r : SessionRegistry σ δ}
  {sessionId : String}

/-- Whether the observation of a session has ended for good. -/
def SessionState.observationRetired (self : SessionState δ) : Bool :=
  self.stageIn ["cleanup"] ||
    self.live.any fun live => live.lifecycle = .closed ||
      (live.lifecycle = .deleting && self.operation.any fun operation =>
        operation.kind = .delete && operation.stage = "deleting")

omit [DecidableEq δ] in
theorem lifecycle_of_retired {a : SessionState δ} {live : SessionLiveState}
    (h : a.face.Retired) (hlive : a.live = some live) :
    live.lifecycle = .closed ∨ live.lifecycle = .deleting := by
  obtain ⟨-, ⟨hclosed, -⟩ | ⟨hdeleting, -⟩⟩ := h _ (SessionState.face_live hlive)
  · exact .inl hclosed
  · exact .inr hdeleting

omit [DecidableEq δ] in
/-- A retired session is gone, or its observation has ended. -/
theorem observationRetired_of_retired {a : SessionState δ} (h : a.face.Retired) :
    a.live = none ∨ a.observationRetired = true := by
  cases hlive : a.live with
  | none => exact .inl rfl
  | some live =>
      right
      obtain ⟨-, ⟨hclosed, -⟩ | ⟨hdeleting, o, ho, hk, hs⟩⟩ := h _ (SessionState.face_live hlive)
      · have hlifecycle : live.lifecycle = .closed := hclosed
        simp [SessionState.observationRetired, hlive, hlifecycle]
      · have hlifecycle : live.lifecycle = .deleting := hdeleting
        have hoperation : a.operation = some o := ho
        simp [SessionState.observationRetired, hlive, hlifecycle, hoperation, hk, hs]

omit [Inhabited σ] [DecidableEq δ] in
/-- A reducer that refuses the session changes nothing. -/
theorem liveStep_of_refused {incarnation : Nat} {expectedEpoch : String}
    {precheck : Except RuntimeStateError Unit}
    {change : SessionState δ → SessionLiveState → Except RuntimeStateError (Reduction δ)}
    (h : ∀ owner live, Reducing r sessionId incarnation owner live →
      ∀ reduction, change owner live ≠ .ok reduction) :
    (r.liveStep expectedEpoch sessionId incarnation precheck change).2 = r := by
  unfold SessionRegistry.liveStep
  rcases reduceLive_cases r expectedEpoch sessionId incarnation precheck (fun owner live => do
      .ok ((), ← change owner live)) with
    ⟨error, hr⟩ | ⟨owner, live, answer, reduction, -, hreducing, hok, -⟩
  · rw [hr]
  · obtain ⟨reduction', hchanged, -⟩ := bind_eq_ok.mp hok
    exact absurd hchanged (h owner live hreducing reduction')

namespace RuntimeOp

/-- The session in which an operation would begin something: a turn, a reload, an operation
other than the delete of a session that is closed, a reservation for one, or an interaction. -/
def admits : RuntimeOp → Option String
  | admitSessionTurn _ id _ _ _ _ | startReload _ id _ _ _ | startOperation _ id _ _ _ _
  | startDirectDelete _ id _ _ | upsertPermission _ id _ _ _ => some id
  | upsertElicitation _ scope _ _ => scope.map (·.1)
  | mirror ⟨.beginExclusive id _ kind _, _⟩ => if kind = .delete then none else some id
  | _ => none

omit [DecidableEq δ] [Inhabited σ] in
/-- A session that serves interactions is in use. -/
theorem not_serves_of_retired {incarnation : Nat}
    (h : ∀ a, r.state sessionId = some a → a.face.Retired) :
    serves r sessionId incarnation = false := by
  rw [Bool.eq_false_iff]
  intro hserves
  obtain ⟨a, ha, hserves⟩ := (Option.any_eq_true _ _).mp hserves
  simp only [Bool.and_eq_true] at hserves
  obtain ⟨live, hlive, hinUse⟩ := (Option.any_eq_true _ _).mp hserves.2
  rcases lifecycle_of_retired (h a ha) hlive with hl | hl
  · rw [hl] at hinUse
    cases hinUse
  · rw [hl] at hinUse
    cases hinUse

/-- In a session that is retired nothing begins. -/
theorem step_of_retired (env : RuntimeEnv σ δ) (op : RuntimeOp)
    (hadmits : op.admits = some sessionId) (hcalled : op.called r = true)
    (horderly : op.orderly r = true)
    (h : ∀ a, r.state sessionId = some a → a.face.Retired) : op.step env r = r := by
  have hinactive : ∀ {a : SessionState δ} {live : SessionLiveState},
      r.state sessionId = some a → a.live = some live → live.lifecycle ≠ .active := by
    intro a live ha hlive hactive
    rcases lifecycle_of_retired (h a ha) hlive with hl | hl
    · rw [hl] at hactive
      cases hactive
    · rw [hl] at hactive
      cases hactive
  have hidle : ∀ {incarnation : Nat} {owner : SessionState δ} {live : SessionLiveState},
      Reducing r sessionId incarnation owner live → live.lifecycle ≠ .active :=
    fun hreducing => hinactive hreducing.state hreducing.live
  cases op with
  | mirror op =>
      obtain ⟨op, hop⟩ := op
      cases op with
      | beginExclusive id incarnation kind operationId =>
          by_cases hk : kind = .delete
          · simp [admits, hk] at hadmits
          · simp only [admits, if_neg hk, Option.some.injEq] at hadmits
            subst hadmits
            simp only [orderly, hk, decide_false, Bool.false_or] at horderly
            obtain ⟨a, ha, hactive⟩ := (Option.any_eq_true _ _).mp horderly
            obtain ⟨live, hlive, hactive⟩ := (Option.any_eq_true _ _).mp hactive
            exact absurd (decide_eq_true_eq.mp hactive) (hinactive ha hlive)
      | _ => cases hadmits
  | admitSessionTurn epoch id incarnation expected intent prompt =>
      cases hadmits
      simp only [step, SessionRegistry.admitSessionTurn]
      split
      · rfl
      · rename_i owner live howner
        obtain ⟨_, -, howner⟩ := bind_eq_ok.mp howner
        obtain ⟨ha, -, hlive, -⟩ := requireLiveOwner_eq_ok howner
        split
        · rfl
        · rfl
        · rw [if_pos (hinactive ha hlive)]
  | startReload epoch id incarnation operationId kind =>
      cases hadmits
      refine liveStep_of_refused fun owner live hreducing reduction hok => ?_
      simp only [SessionState.startReload, ite_error_eq_ok, not_not] at hok
      exact hidle hreducing hok.2.1
  | startOperation epoch id incarnation operationId kind stage =>
      cases hadmits
      refine liveStep_of_refused fun owner live hreducing reduction hok => ?_
      simp only [called, Bool.and_eq_true, decide_eq_true_eq] at hcalled
      simp only [SessionState.startOperation, ite_error_eq_ok] at hok
      exact hok.2.1 ⟨hidle hreducing, fun hdelete => hcalled.1 hdelete.1⟩
  | startDirectDelete epoch id incarnation operationId =>
      cases hadmits
      simp only [step, SessionRegistry.startDirectDelete]
      split
      · rfl
      · rename_i owner live howner
        obtain ⟨ha, -, hlive, -⟩ := requireLiveOwner_eq_ok howner
        rw [if_pos (hinactive ha hlive)]
  | upsertPermission epoch id incarnation =>
      cases hadmits
      rw [called, not_serves_of_retired h] at hcalled
      cases hcalled
  | upsertElicitation epoch scope =>
      obtain ⟨⟨id, incarnation⟩, rfl, rfl⟩ := Option.map_eq_some_iff.mp hadmits
      rw [called, not_serves_of_retired h] at hcalled
      cases hcalled
  | _ => cases hadmits

end RuntimeOp

end Admission

section Runs

/-- Which ends are confirmed, and which cleaners came and went. -/
structure RetirementLog where
  confirmed : Finset String
  owed : Multiset Cleaner
  released : Multiset Cleaner

def RetirementLog.note (log : RetirementLog) (report : Report) : RetirementLog where
  confirmed :=
    (log.confirmed ∪ report.confirmed.toFinset) \ report.revived.toFinset
  owed := log.owed + report.owed
  released := log.released + report.released

variable (σ δ : Type)

structure RetiringRuntime where
  registry : SessionRegistry σ δ
  log : RetirementLog

variable {σ δ} [Inhabited σ] [DecidableEq δ]

namespace RetiringRuntime

omit [Inhabited σ] [DecidableEq δ] in
def new (epoch : String) : RetiringRuntime σ δ := ⟨.new epoch, ⟨∅, 0, 0⟩⟩

/-- One operation of the bridge, noted in the log. -/
def step (env : RuntimeEnv σ δ) (w : RetiringRuntime σ δ) (op : RuntimeOp) :
    RetiringRuntime σ δ :=
  ⟨op.step env w.registry, w.log.note (op.report w.registry)⟩

/-- The bridge makes the call in this state, and in its order. -/
def Calls (w : RetiringRuntime σ δ) (op : RuntimeOp) : Prop :=
  op.called w.registry = true ∧ op.orderly w.registry = true

instance (w : RetiringRuntime σ δ) (op : RuntimeOp) : Decidable (w.Calls op) :=
  inferInstanceAs (Decidable (_ ∧ _))

/-- The log agrees with the board. -/
structure Kept (w : RetiringRuntime σ δ) : Prop where
  keyed : w.registry.board.Keyed
  closed : w.registry.board.CleansClosed
  retired : ∀ id ∈ w.log.confirmed, w.registry.board.Retired id
  cleaners : w.log.owed = w.registry.board.cleaners + w.log.released

theorem Kept.step {w : RetiringRuntime σ δ} (env : RuntimeEnv σ δ) (op : RuntimeOp)
    (h : w.Kept) (hcalled : w.Calls op) : (w.step env op).Kept := by
  unfold RetiringRuntime.step
  by_cases hop : op = .takeEffects
  · subst hop
    refine ⟨h.keyed, h.closed, ?_, ?_⟩
    · intro id hid
      refine h.retired id ?_
      simpa [RetirementLog.note, RuntimeOp.report, Report.confirmed, Report.revived] using hid
    · change w.log.owed + 0 = w.registry.board.cleaners + (w.log.released + 0)
      rw [add_zero, add_zero]
      exact h.cleaners
  · obtain ⟨action, hreport, hstep⟩ := op.stepFor env w.registry hop h.keyed
    have hserves : (op.caller w.registry).serves := hcalled.1
    have horderly : (op.caller w.registry).orderly := hcalled.2
    refine ⟨hstep.keyed h.keyed, hstep.cleansClosed hserves h.closed, ?_, ?_⟩
    · intro id hid
      simp only [RetirementLog.note, Finset.mem_sdiff, Finset.mem_union, Option.mem_toFinset,
        Option.mem_def, ← hreport] at hid
      rcases hid.1 with hold | hnew
      · exact hstep.retired hserves horderly hid.2 (h.retired id hold)
      · exact hstep.confirmed hnew
    · have hadd := hstep.cleaners_add hserves h.keyed
      rw [hreport] at hadd
      change w.log.owed + _ = _ + (w.log.released + _)
      calc w.log.owed + (op.report w.registry).owed
          = w.registry.board.cleaners + (op.report w.registry).owed + w.log.released := by
            rw [h.cleaners, add_right_comm]
        _ = (op.step env w.registry).board.cleaners + (op.report w.registry).released +
              w.log.released := by rw [hadd]
        _ = _ := by rw [add_assoc, add_comm w.log.released]

omit [Inhabited σ] [DecidableEq δ] in
theorem Kept.new (epoch : String) : (new epoch : RetiringRuntime σ δ).Kept where
  keyed := by
    intro id a ha
    cases ha
  closed := by
    intro id a ha
    cases ha
  retired id hid := absurd hid (Finset.notMem_empty id)
  cleaners := rfl

/-- After every run of calls that the bridge makes: what names another incarnation than the
current one changes nothing; a session whose close or delete is confirmed is gone or no longer
observed, and no call begins anything in it but its delete; and every cleaner that came has left
once or is still there, and leaves when it is done. -/
theorem run_retires (env : RuntimeEnv σ δ) (epoch : String) (ops : List RuntimeOp)
    (hcalls : Along (step env) Calls (new epoch) ops) :
    let w : RetiringRuntime σ δ := run (step env) (new epoch) ops
    (∀ (op : RuntimeOp) (id : String) (incarnation : Nat), op.names = some (id, incarnation) →
      w.registry.current id incarnation = false → op.step env w.registry = w.registry) ∧
      (∀ id ∈ w.log.confirmed,
        (∀ a, w.registry.state id = some a → a.live = none ∨ a.observationRetired = true) ∧
          ∀ op : RuntimeOp, op.admits = some id → w.Calls op →
            op.step env w.registry = w.registry) ∧
      w.log.owed = w.registry.board.cleaners + w.log.released ∧
      ∀ id a o, w.registry.state id = some a → a.operation = some o → o.stage = "cleanup" →
        (w.registry.finishSessionCleanup id a.incarnation o.kind.admission o.operationId).1 =
          .ok () := by
  intro w
  have hkept : w.Kept :=
    run_invariant_along (fun w op h hop => h.step env op hop) (.new epoch) hcalls
  have hretired : ∀ id ∈ w.log.confirmed, ∀ a, w.registry.state id = some a → a.face.Retired :=
    fun id hid a ha => hkept.retired id hid a.face (lookup_faces ha)
  refine ⟨?_, ?_, hkept.cleaners, ?_⟩
  · intro op id incarnation hnames hstale
    exact op.step_of_stale env hnames hstale
  · intro id hid
    refine ⟨fun a ha => observationRetired_of_retired (hretired id hid a ha), ?_⟩
    intro op hadmits hcalled
    exact op.step_of_retired env hadmits hcalled.1 hcalled.2 (hretired id hid)
  · intro id a o ha ho hs
    have hclosed : ∀ live, a.live = some live → live.lifecycle = .closed :=
      fun live hlive => hkept.closed id a.face (lookup_faces ha) ⟨o, ho, hs⟩ live.face
        (SessionState.face_live hlive)
    unfold SessionRegistry.finishSessionCleanup SessionRegistry.stateStep
    rw [requireState_eq_ok.mpr ⟨ha, rfl⟩]
    cases hl : a.live with
    | none => simp [ho, hl]
    | some live => simp [ho, hl, hclosed live hl]

/-- A session is deleted and cleaned up. -/
theorem run_retires_deleted :
    let env : RuntimeEnv Unit String :=
      ⟨id, fun validation _ => (.ok (), validation), fun _ terminal => terminal⟩
    let ops : List RuntimeOp :=
      [.openNewWithReplay "epoch" "s" "/" .null [], .startDelete "epoch" "s" 1 "delete",
        .deleteCloseSucceeded "epoch" "s" 1 "delete", .completeDelete "epoch" "s" 1 "delete"]
    let w : RetiringRuntime Unit String := run (step env) (new "epoch") ops
    w.log.owed = {⟨"s", 1, "delete"⟩} ∧ "s" ∈ w.log.confirmed ∧
      (RuntimeOp.completePrompt "epoch" "s" 7 "late").step env w.registry = w.registry ∧
      (RuntimeOp.startReload "epoch" "s" 1 "load" .load).step env w.registry = w.registry ∧
      (w.registry.finishSessionCleanup "s" 1 .delete "delete").1 = .ok () := by
  intro env ops w
  obtain ⟨hstale, hretired, -, -⟩ := run_retires env "epoch" ops (by decide +kernel)
  have hmem : "s" ∈ w.log.confirmed := by decide +kernel
  exact ⟨by decide +kernel, hmem, hstale _ _ _ rfl (by decide +kernel),
    (hretired "s" hmem).2 _ rfl (by decide +kernel), by decide +kernel⟩

/-- A delete that fails after the close was confirmed may be tried again, although no new
incarnation was opened. -/
theorem startDelete_ok_after_confirmed_close :
    let env : RuntimeEnv Unit String :=
      ⟨id, fun validation _ => (.ok (), validation), fun _ terminal => terminal⟩
    let ops : List RuntimeOp :=
      [.openNewWithReplay "epoch" "s" "/" .null [], .startDelete "epoch" "s" 1 "delete",
        .deleteCloseSucceeded "epoch" "s" 1 "delete",
        .failOperation "epoch" "s" 1 "delete" .delete]
    let w : RetiringRuntime Unit String := run (step env) (new "epoch") ops
    Along (step env) Calls (new "epoch") ops ∧ "s" ∈ w.log.confirmed ∧
      w.registry.current "s" 1 = true ∧
      (w.registry.startDelete "epoch" "s" 1 "again").1 = .ok () := by
  decide +kernel

end RetiringRuntime

end Runs

end Attyd.Session
