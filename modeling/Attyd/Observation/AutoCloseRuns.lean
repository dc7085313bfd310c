import Attyd.Observation.AutoCloseSteps

/-!
# Runs of the bridge over its countdowns

Whatever is on its way (a task, a request, a command) carries the permit of a countdown that
has run out. So a claim comes from the countdown that is armed, after its whole timeout and
on an idle session.
-/

namespace Attyd.Observation

open Session

variable {δ : Type}

namespace Bridge

/-- The countdown of a permit, which may be long over, has run out. -/
def Elapsed (b : Bridge δ) (permit : Nat) : Prop :=
  permit < b.handles.permits.length ∧
    ∀ incarnation timer, .armed incarnation timer ∈ b.log → timer.permit = permit →
      timer.started + timer.timeout ≤ b.now

/-- A task waits for a countdown the log tells of, and knows when it has run out. -/
structure Waits (b : Bridge δ) (task : TimerTask) : Prop where
  made : task.timer.permit < b.handles.permits.length
  started : task.timer.started ≤ b.now
  only : ∀ incarnation timer, .armed incarnation timer ∈ b.log →
    timer.permit = task.timer.permit → timer = task.timer
  waited : task.waited = true → task.timer.started + task.timer.timeout ≤ b.now

/-- What holds of the bridge at any time. -/
structure Sound (b : Bridge δ) : Prop where
  countdown : b.countdown.Sound
  made : ∀ incarnation timer, .armed incarnation timer ∈ b.log →
    timer.permit < b.handles.permits.length
  timers : ∀ task ∈ b.timers, b.Waits task
  inbox : ∀ request ∈ b.inbox, b.Elapsed request.permit
  hand : ∀ request, b.hand = some request → b.Elapsed request.permit
  commands : ∀ command ∈ b.commands, b.Elapsed command.permit

section Carried

variable {b b' : Bridge δ}

theorem permits_le (step : b.countdown.Step b'.countdown) :
    b.handles.permits.length ≤ b'.handles.permits.length := by
  simpa [countdown] using step.permits_le

/-- Only the countdown armed in this step can have a permit made in this step. -/
theorem armed_mem (step : b.countdown.Step b'.countdown) {incarnation : Nat}
    {timer : AbsenceTimer} (h : .armed incarnation timer ∈ b'.log) :
    .armed incarnation timer ∈ b.log ∨
      timer.permit = b.handles.permits.length ∧ b'.countdown.absence = some timer ∧
        timer.permit < b'.handles.permits.length := by
  rcases step.armed_mem h with hold | ⟨hpermit, habsence, hlt⟩
  · exact .inl hold
  · exact .inr ⟨by simpa [countdown] using hpermit, habsence, by simpa [countdown] using hlt⟩

theorem Elapsed.mono {permit : Nat} (h : b.Elapsed permit)
    (step : b.countdown.Step b'.countdown) (hnow : b.now ≤ b'.now) : b'.Elapsed permit := by
  refine ⟨h.1.trans_le (permits_le step), fun incarnation timer hmem hpermit => ?_⟩
  rcases armed_mem step hmem with hold | ⟨hnew, -⟩
  · exact (h.2 incarnation timer hold hpermit).trans hnow
  · exact absurd (hnew.symm.trans hpermit) h.1.ne'

theorem Waits.mono {task : TimerTask} (h : b.Waits task)
    (step : b.countdown.Step b'.countdown) (hnow : b.now ≤ b'.now) : b'.Waits task where
  made := h.made.trans_le (permits_le step)
  started := h.started.trans hnow
  only := fun incarnation timer hmem hpermit => by
    rcases armed_mem step hmem with hold | ⟨hnew, -⟩
    · exact h.only incarnation timer hold hpermit
    · exact absurd (hnew.symm.trans hpermit) h.made.ne'
  waited := fun hwaited => (h.waited hwaited).trans hnow

/-- A step of the countdown keeps the bridge sound when nothing new is on its way but a task
for the countdown it armed. -/
theorem Sound.of_step (h : b.Sound) (step : b.countdown.Step b'.countdown)
    (hnow : b.now ≤ b'.now)
    (htimers : ∀ task ∈ b'.timers, b.Waits task ∨
      task.waited = false ∧ b'.countdown.absence = some task.timer ∧
        task.timer.permit = b.handles.permits.length ∧
        task.timer.permit < b'.handles.permits.length ∧ task.timer.started ≤ b'.now)
    (hinbox : ∀ request ∈ b'.inbox, b.Elapsed request.permit)
    (hhand : ∀ request, b'.hand = some request → b.Elapsed request.permit)
    (hcommands : ∀ command ∈ b'.commands, b.Elapsed command.permit) : b'.Sound where
  countdown := step.sound h.countdown
  made := fun incarnation timer hmem => by
    rcases armed_mem step hmem with hold | ⟨-, -, hlt⟩
    · exact (h.made incarnation timer hold).trans_le (permits_le step)
    · exact hlt
  timers := fun task htask => by
    rcases htimers task htask with
      hwaits | ⟨hwaited, habsence, hpermit, hlt, hstarted⟩
    · exact hwaits.mono step hnow
    · refine ⟨hlt, hstarted, fun incarnation timer hmem heq => ?_,
        fun hw => Bool.noConfusion (hwaited.symm.trans hw)⟩
      rcases armed_mem step hmem with hold | ⟨-, habsence', -⟩
      · exact absurd (heq.trans hpermit) (h.made incarnation timer hold).ne
      · rw [habsence, Option.some.injEq] at habsence'
        exact habsence'.symm
  inbox := fun request hrequest => (hinbox request hrequest).mono step hnow
  hand := fun request hrequest => (hhand request hrequest).mono step hnow
  commands := fun command hcommand => (hcommands command hcommand).mono step hnow

end Carried

section Sound

variable {b : Bridge δ}

/-- A change of the observers keeps the bridge sound when it is a step of the countdown. -/
theorem Sound.onObservers (h : b.Sound)
    (change : Allocation δ → Handles → SessionObservers × Handles × Option Happening)
    (hstep : ∀ owner, b.owner = some owner → b.countdown.Step (b.onObservers change).countdown) :
    (b.onObservers change).Sound := by
  cases howner : b.owner with
  | none =>
      have hsame : b.onObservers change = b := by simp [Bridge.onObservers, howner]
      exact hsame.symm ▸ h
  | some owner =>
      have hnow : (b.onObservers change).now = b.now := by simp [Bridge.onObservers, howner]
      refine h.of_step (hstep owner howner) hnow.ge ?_ ?_ ?_ ?_
      · simpa [Bridge.onObservers, howner] using fun task htask => .inl (h.timers task htask)
      · simpa [Bridge.onObservers, howner] using h.inbox
      · simpa [Bridge.onObservers, howner] using h.hand
      · simpa [Bridge.onObservers, howner] using h.commands

theorem Sound.stopAbsence (h : b.Sound) : b.stopAbsence.Sound :=
  h.onObservers _ fun _ howner => step_stopAbsence howner

theorem Sound.refresh (h : b.Sound) (lifecycle : Option SessionLifecycle) (work : SessionWork)
    (timeoutSeconds : Int) : (b.refresh lifecycle work timeoutSeconds).Sound := by
  cases howner : b.owner with
  | none =>
      have hsame : b.refresh lifecycle work timeoutSeconds = b := by simp [Bridge.refresh, howner]
      exact hsame.symm ▸ h
  | some owner =>
      obtain ⟨step, htimers⟩ := step_refresh howner lifecycle work timeoutSeconds
      have hb' := refresh_of_owner howner lifecycle work timeoutSeconds
      refine h.of_step step (by rw [hb']) (fun task htask => ?_) ?_ ?_ ?_
      · exact (htimers task htask).imp (h.timers task) id
      · rw [hb']
        exact h.inbox
      · rw [hb']
        exact h.hand
      · rw [hb']
        exact h.commands

theorem Sound.refreshObserverTimers (h : b.Sound) : b.refreshObserverTimers.Sound := by
  rw [Bridge.refreshObserverTimers]
  cases b.owner with
  | none => exact h
  | some owner =>
      simp only
      split
      · exact h.stopAbsence
      · exact h.refresh owner.lifecycle owner.work _

/-- What only takes things off their way, or changes nothing about the countdown, is sound. -/
theorem Sound.of_same (h : b.Sound) {b' : Bridge δ} (hcountdown : b'.countdown = b.countdown)
    (hnow : b.now ≤ b'.now) (htimers : ∀ task ∈ b'.timers, task ∈ b.timers)
    (hinbox : ∀ request ∈ b'.inbox, b.Elapsed request.permit)
    (hhand : ∀ request, b'.hand = some request → b.Elapsed request.permit)
    (hcommands : ∀ command ∈ b'.commands, b.Elapsed command.permit) : b'.Sound :=
  h.of_step (hcountdown ▸ .rest) hnow (fun task htask => .inl (h.timers task (htimers task htask)))
    hinbox hhand hcommands

theorem Sound.cancel (h : b.Sound) (permit : Nat) :
    Bridge.Sound { b with handles := b.handles.cancel permit } := by
  refine h.of_step ?_ le_rfl (fun task htask => .inl (h.timers task htask)) h.inbox h.hand
    h.commands
  have hrevoked : Bridge.countdown { b with handles := b.handles.cancel permit } =
      b.countdown.revoke permit := by
    simp only [Bridge.countdown, Handles.states_cancel]
    rfl
  exact hrevoked ▸ .revoke permit

theorem Sound.retire (h : b.Sound) : b.retire.Sound := by
  cases howner : b.owner with
  | none =>
      refine h.of_same ?_ ?_ ?_ ?_ ?_ ?_
      · simp [Bridge.retire, Bridge.shutdown, Bridge.onObservers, howner, Bridge.countdown]
      · simp [Bridge.retire, Bridge.shutdown, Bridge.onObservers, howner]
      · simp [Bridge.retire, Bridge.shutdown, Bridge.onObservers, howner]
      · simpa [Bridge.retire, Bridge.shutdown, Bridge.onObservers, howner] using h.inbox
      · simpa [Bridge.retire, Bridge.shutdown, Bridge.onObservers, howner] using h.hand
      · simpa [Bridge.retire, Bridge.shutdown, Bridge.onObservers, howner] using h.commands
  | some owner =>
      have hcountdown := countdown_of_owner howner
      have hdisarm := permits_disarm b.countdown owner.observers b.handles (by rw [hcountdown]) rfl
      have hretired : b.retire.countdown =
          { b.countdown.disarm.note (.stopped owner.state.incarnation) with
            owner := none
            attempted := false } := by
        simp only [Bridge.retire, Bridge.shutdown, Bridge.onObservers, howner, Bridge.countdown,
          Countdown.note]
        rw [hcountdown] at hdisarm
        congr 1
        · exact hdisarm.symm
        · simp
        · simp
      refine h.of_step (hretired ▸ .retire (by rw [hcountdown])) ?_ ?_ ?_ ?_ ?_
      · simp [Bridge.retire, Bridge.shutdown, Bridge.onObservers, howner]
      · simpa [Bridge.retire, Bridge.shutdown, Bridge.onObservers, howner] using
          fun task htask => .inl (h.timers task htask)
      · simpa [Bridge.retire, Bridge.shutdown, Bridge.onObservers, howner] using h.inbox
      · simpa [Bridge.retire, Bridge.shutdown, Bridge.onObservers, howner] using h.hand
      · simpa [Bridge.retire, Bridge.shutdown, Bridge.onObservers, howner] using h.commands

theorem Sound.allocate (h : b.Sound) (state : SessionState δ) : (b.allocate state).Sound := by
  cases howner : b.owner with
  | some owner =>
      have hsame : b.allocate state = b := by simp [Bridge.allocate, howner]
      exact hsame.symm ▸ h
  | none =>
      have hnew : (b.allocate state).countdown =
          { b.countdown with
            owner := some b.countdown.allocated
            absence := none
            attempted := false
            allocated := b.countdown.allocated + 1 } := by
        simp [Bridge.allocate, howner, Bridge.countdown, SessionObservers.new]
      refine h.of_step (hnew ▸ .allocate (by simp [Bridge.countdown, howner])) ?_ ?_ ?_ ?_ ?_
      · simp [Bridge.allocate, howner]
      · simpa [Bridge.allocate, howner] using fun task htask => .inl (h.timers task htask)
      · simpa [Bridge.allocate, howner] using h.inbox
      · simpa [Bridge.allocate, howner] using h.hand
      · simpa [Bridge.allocate, howner] using h.commands

theorem Sound.wait (h : b.Sound) (task : Nat) : (b.wait task).Sound := by
  rw [Bridge.wait]
  cases hget : b.timers[task]? with
  | none => exact h
  | some waiting =>
      have hwaits : b.Waits waiting := h.timers waiting (List.mem_of_getElem? hget)
      simp only
      split
      · exact h
      · split
        · exact h.of_same rfl le_rfl (fun _ htask => List.mem_of_mem_eraseIdx htask) h.inbox h.hand
            h.commands
        · split
          · next hexpired =>
              refine ⟨h.countdown, h.made, fun other hother => ?_, h.inbox, h.hand, h.commands⟩
              rcases List.mem_or_eq_of_mem_set hother with hold | rfl
              · obtain ⟨hmade, hstarted, honly, hwaited⟩ := h.timers other hold
                exact ⟨hmade, hstarted, honly, hwaited⟩
              · refine ⟨hwaits.made, hwaits.started, hwaits.only, fun _ => ?_⟩
                have hleft : waiting.timer.timeout - (b.now - waiting.timer.started) = 0 := by
                  simpa [AbsenceTimer.expired] using hexpired
                have hstarted := hwaits.started
                change waiting.timer.started + waiting.timer.timeout ≤ b.now
                omega
          · exact h

theorem Sound.send (h : b.Sound) (task : Nat) : (b.send task).Sound := by
  rw [Bridge.send]
  cases hget : b.timers[task]? with
  | none => exact h
  | some waiting =>
      have hwaits : b.Waits waiting := h.timers waiting (List.mem_of_getElem? hget)
      simp only
      split
      · exact h
      · next hwaited =>
          split
          · exact h.of_same rfl le_rfl (fun _ htask => List.mem_of_mem_eraseIdx htask) h.inbox h.hand
              h.commands
          · refine h.of_same rfl le_rfl (fun _ htask => htask) (fun request hrequest => ?_) h.hand
              h.commands
            rcases List.mem_append.mp hrequest with hold | hnew
            · exact h.inbox request hold
            · -- What is sent carries the permit of the task, which has waited long enough.
              rw [List.mem_singleton.mp hnew]
              refine ⟨hwaits.made, fun incarnation timer hmem hpermit => ?_⟩
              rw [hwaits.only incarnation timer hmem hpermit]
              exact hwaits.waited (by simpa using hwaited)

theorem Sound.receive (h : b.Sound) : b.receive.Sound := by
  rw [Bridge.receive]
  split
  · next request rest hhand hinbox =>
      have hmem (other : RetireUnobservedSession) (hother : other = request ∨ other ∈ rest) :
          b.Elapsed other.permit :=
        h.inbox other (by rw [hinbox]; exact List.mem_cons.mpr hother)
      refine h.of_same rfl le_rfl (fun _ htask => htask) (fun other hother => hmem other (.inr hother))
        (fun other hother => hmem other (.inl ?_)) h.commands
      by_cases hpending : b.handles.pending request.permit = true
      · simpa [hpending] using hother.symm
      · simp [hpending] at hother
  · exact h

/-- The request is put aside, whatever was decided about it. -/
theorem Sound.putAside (h : b.Sound) : Bridge.Sound { b with hand := none } :=
  h.of_same rfl le_rfl (fun _ htask => htask) h.inbox (fun _ hother => nomatch hother) h.commands

theorem Sound.retireUnobserved (h : b.Sound) (supportsClose : Bool) :
    (b.retireUnobserved supportsClose).Sound := by
  rw [Bridge.retireUnobserved]
  cases hhand : b.hand with
  | none => exact h
  | some request =>
      simp only
      split
      · exact h.putAside.cancel request.permit
      · split
        · exact h.putAside.stopAbsence
        · refine h.of_same rfl le_rfl (fun _ htask => htask) h.inbox (fun _ hother => nomatch hother)
            fun command hcommand => ?_
          rcases List.mem_append.mp hcommand with hold | hnew
          · exact h.commands command hold
          · rw [List.mem_singleton.mp hnew]
            exact h.hand request hhand

theorem Sound.dropCommand (h : b.Sound) (command : Nat) :
    Bridge.Sound { b with commands := b.commands.eraseIdx command } :=
  h.of_same rfl le_rfl (fun _ htask => htask) h.inbox h.hand
    fun other hother => h.commands other (List.mem_of_mem_eraseIdx hother)

/-- A change of the state of the session that keeps its incarnation. -/
theorem Sound.withState (h : b.Sound) {owner owner' : Allocation δ}
    (howner : b.owner = some owner) (hobservers : owner'.observers = owner.observers)
    (hincarnation : owner'.state.incarnation = owner.state.incarnation) :
    Bridge.Sound { b with owner := some owner' } := by
  refine h.of_same ?_ le_rfl (fun _ htask => htask) h.inbox h.hand h.commands
  simp [Bridge.countdown, howner, hobservers, hincarnation]

theorem Sound.admitClose (h : b.Sound) {owner : Allocation δ} (howner : b.owner = some owner)
    (hidle : owner.work = .idle) {permit : Nat} (helapsed : b.Elapsed permit)
    (requestId : String) (inUse : Bool) : (b.admitClose owner permit requestId inUse).Sound := by
  have hstate := startClose_incarnation owner.state requestId inUse
  rw [Bridge.admitClose]
  split
  · exact h.withState howner rfl hstate
  · next hstarted =>
      have hstarted' : (startClose owner.state requestId inUse).1 = true := by simpa using hstarted
      split
      · exact h.withState howner rfl ((failClose_incarnation _ requestId).trans hstate)
      · next hclaimed =>
          have hpending : b.handles.pending permit = true := by
            simpa [Handles.claim] using hclaimed
          -- The permit is pending, so it is the one of the countdown that is armed.
          obtain ⟨timer, habsence, rfl⟩ :=
            h.countdown.pending permit (Handles.pending_iff.mp hpending)
          obtain ⟨incarnation, -, hhead⟩ :=
            h.countdown.armed timer habsence (Handles.pending_iff.mp hpending)
          have htime := helapsed.2 incarnation timer (List.mem_of_mem_head? hhead) rfl
          have hcountdown := countdown_of_owner howner
          have hwork : owner.workAside (startClose owner.state requestId inUse).2 = .idle :=
            work_startClose owner.state requestId hstarted' hidle
          have habsence' : owner.observers.absence = some timer := by rwa [hcountdown] at habsence
          refine Sound.refreshObserverTimers (h.of_step ?_ le_rfl
            (fun task htask => .inl (h.timers task htask)) h.inbox h.hand h.commands)
          have hclaim := @Countdown.Step.claim b.countdown owner.state.incarnation b.now _
            (by rw [hcountdown]) habsence
            (Handles.pending_iff.mp hpending) htime
          refine Eq.subst (motive := b.countdown.Step) ?_ hclaim
          simp only [Bridge.countdown, Option.map_some, Option.bind_some, Option.any_some, howner,
            Countdown.note, SessionObservers.markCloseAttempted, habsence', hwork,
            hstate, Handles.states_claim hpending]

theorem Sound.admitCommand (h : b.Sound) (command : Nat) (requestId : String) (inUse : Bool) :
    (b.admitCommand command requestId inUse).Sound := by
  rw [Bridge.admitCommand]
  cases hget : b.commands[command]? with
  | none => exact h
  | some close =>
      have hdropped := h.dropCommand command
      have helapsed : b.Elapsed close.permit := h.commands close (List.mem_of_getElem? hget)
      simp only
      cases howner : b.owner with
      | none => simpa only [howner] using hdropped.cancel close.permit
      | some owner =>
          simp only
          split
          · simpa only [howner] using hdropped.cancel close.permit
          · next hadmitted =>
              simp only [Bool.or_eq_true, not_or, decide_eq_true_eq, not_not] at hadmitted
              simpa only [howner] using
                hdropped.admitClose howner hadmitted.1 helapsed requestId inUse

theorem Sound.step (h : b.Sound) (event : Event δ) : (b.step event).Sound := by
  cases event with
  | elapse nanoseconds =>
      exact h.of_same rfl (Nat.le_add_right ..) (fun _ htask => htask) h.inbox h.hand h.commands
  | allocate state => exact h.allocate state
  | retire => exact h.retire
  | change state materialization historySync =>
      refine h.of_same ?_ le_rfl (fun _ htask => htask) h.inbox h.hand h.commands
      cases howner : b.owner <;> simp [Bridge.step, Bridge.change, Bridge.countdown, howner]
  | cancelLease lease =>
      exact h.of_same rfl le_rfl (fun _ htask => htask) h.inbox h.hand h.commands
  | finishLease lease =>
      exact h.of_same rfl le_rfl (fun _ htask => htask) h.inbox h.hand h.commands
  | observe id lease => exact h.onObservers _ fun _ howner => step_observe howner id lease
  | unobserve id lease => exact h.onObservers _ fun _ howner => step_unobserve howner id lease
  | refresh lifecycle work timeoutSeconds => exact h.refresh lifecycle work timeoutSeconds
  | refreshTimers => exact h.refreshObserverTimers
  | stopAbsence => exact h.stopAbsence
  | markCloseAttempted => exact h.onObservers _ fun _ howner => step_markCloseAttempted howner
  | shutdown => exact h.onObservers _ fun _ howner => step_shutdown howner
  | finishObservers => exact h.onObservers _ fun _ howner => step_finishObservers howner
  | stopObservers =>
      refine Sound.refreshObserverTimers ?_
      exact h.of_same rfl le_rfl (fun _ htask => htask) h.inbox h.hand h.commands
  | wait task => exact h.wait task
  | send task => exact h.send task
  | receive => exact h.receive
  | retireUnobserved supportsClose => exact h.retireUnobserved supportsClose
  | admitCommand command requestId inUse => exact h.admitCommand command requestId inUse
  | drop command => exact h.dropCommand command

end Sound

/-- What holds of automatic closes: a claim rests on the countdown that is armed, whose arming
is the entry right before, on its whole timeout and on an idle session; at most one permit is
pending; and after a claim nothing is armed in the same incarnation until somebody new is
accepted. -/
structure Guarded (b : Bridge δ) : Prop where
  claims : ∀ newer incarnation permit time work absence older,
    b.log = newer ++ .claimed incarnation permit time work absence :: older →
      ∃ timer rest, older = .armed incarnation timer :: rest ∧ timer.permit = permit ∧
        absence = some timer ∧ timer.started + timer.timeout ≤ time ∧ work = .idle
  single : ∀ permit other, b.handles.pending permit = true → b.handles.pending other = true →
    permit = other
  rearms : ∀ newer incarnation timer mid permit time work absence older,
    b.log = newer ++ .armed incarnation timer :: mid ++
      .claimed incarnation permit time work absence :: older →
    .accepted incarnation true ∈ mid

theorem Sound.guarded {b : Bridge δ} (h : b.Sound) : b.Guarded where
  claims := fun newer incarnation permit time work absence older hlog => by
    have hordered : Ordered b.log := h.countdown.ordered
    rw [hlog] at hordered
    obtain ⟨timer, hhead, hpermit, habsence, htime, hwork⟩ := hordered.follows
    obtain ⟨rest, hrest⟩ := List.head?_eq_some_iff.mp hhead
    exact ⟨timer, rest, hrest, hpermit, habsence, htime, hwork⟩
  single := fun permit other hpermit hother => by
    obtain ⟨timer, htimer, hp⟩ := h.countdown.pending permit (Handles.pending_iff.mp hpermit)
    obtain ⟨timer', htimer', ho⟩ := h.countdown.pending other (Handles.pending_iff.mp hother)
    rw [htimer, Option.some.injEq] at htimer'
    rw [← hp, ← ho, htimer']
  rearms := fun newer incarnation timer mid permit time work absence older hlog => by
    by_contra hmid
    rw [List.append_assoc, List.cons_append] at hlog
    have hordered : Ordered b.log := h.countdown.ordered
    rw [hlog] at hordered
    have hfresh : attemptedIn incarnation (mid ++ _ :: older) = false := hordered.follows
    rw [attemptedIn_append hmid (by simp [attemptedIn])] at hfresh
    cases hfresh

/-- An automatic close is claimed only for the countdown that is armed, on an idle session and
after the whole timeout, and no countdown follows it until somebody new observes. -/
theorem run_guarded (observerTimeout : Option Int) (events : List (Event δ)) :
    (run Bridge.step (.new observerTimeout) events).Guarded := by
  refine Sound.guarded (run_invariant (fun b event h => h.step event) ?_ events)
  refine ⟨⟨?_, ?_, ?_, ?_, ⟨?_, ?_⟩, trivial⟩, ?_, ?_, ?_, ?_, ?_⟩ <;>
    simp [new, countdown, Countdown.pending]

/-- An idle session that nobody observes is closed when its countdown has run out. -/
example :
    let session : SessionState Unit :=
      { SessionState.ready "s" 0 "h0" with live := some (.opened "/" .null ∅ .active) }
    let timer : AbsenceTimer := ⟨1, 0, 30 * 10 ^ 9, 0⟩
    (run Bridge.step (.new (some 30))
      [.allocate session, .refreshTimers, .elapse (30 * 10 ^ 9), .wait 0, .send 0, .receive,
        .retireUnobserved true, .admitCommand 0 "close" false]).log =
      [.unready 0 .running, .claimed 0 0 (30 * 10 ^ 9) .idle (some timer), .armed 0 timer] := by
  decide +kernel

end Bridge

end Attyd.Observation
