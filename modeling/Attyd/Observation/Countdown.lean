import Attyd.Observation.Observers

/-!
# Countdowns and their permits

What an automatic close is allowed to rest on: of all permits ever made at most one is
pending, and it belongs to the countdown that is armed now. The log keeps what decides about
a countdown, newest first. A permit that is claimed was armed by the entry right before, so
nothing that ends a countdown can lie between the two.
-/

namespace Attyd.Observation

/-- What decides about countdowns, with the incarnation it concerns. -/
inductive Happening where
  | armed (incarnation : Nat) (timer : AbsenceTimer)
  | accepted (incarnation : Nat) (fresh : Bool)
  | unready (incarnation : Nat) (work : SessionWork)
  | stopped (incarnation : Nat)
  | claimed (incarnation permit time : Nat) (work : SessionWork) (absence : Option AbsenceTimer)
  deriving DecidableEq

namespace Happening

def incarnation : Happening → Nat
  | armed incarnation _ | accepted incarnation _ | unready incarnation _ | stopped incarnation
  | claimed incarnation _ _ _ _ => incarnation

/-- Whether a countdown that is armed ends here. -/
def disarms : Happening → Bool
  | unready _ _ | stopped _ => true
  | armed _ _ | accepted _ _ | claimed _ _ _ _ _ => false

end Happening

/-- Whether the last countdown of an incarnation was claimed, and nobody new came since. -/
def attemptedIn (incarnation : Nat) : List Happening → Bool
  | [] => false
  | .claimed other _ _ _ _ :: log => other = incarnation || attemptedIn incarnation log
  | .accepted other fresh :: log =>
      !(other = incarnation && fresh) && attemptedIn incarnation log
  | .armed _ _ :: log | .unready _ _ :: log | .stopped _ :: log => attemptedIn incarnation log

/-- Whether an entry may follow a log: a claim follows the arming of its own countdown, after
the whole timeout and on an idle session; an arming follows no claim that still counts. -/
def Follows (log : List Happening) : Happening → Prop
  | .claimed incarnation permit time work absence =>
      ∃ timer, log.head? = some (.armed incarnation timer) ∧ timer.permit = permit ∧
        absence = some timer ∧ timer.started + timer.timeout ≤ time ∧ work = .idle
  | .armed incarnation _ => attemptedIn incarnation log = false
  | .accepted _ _ | .unready _ _ | .stopped _ => True

/-- Every entry of the log may stand where it stands. -/
def Ordered : List Happening → Prop
  | [] => True
  | happening :: log => Follows log happening ∧ Ordered log

theorem Ordered.follows {newer : List Happening} {happening : Happening} {older : List Happening}
    (h : Ordered (newer ++ happening :: older)) : Follows older happening := by
  induction newer with
  | nil => exact h.1
  | cons entry newer ih => exact ih h.2

/-- A claim counts until somebody new is accepted. -/
theorem attemptedIn_append {incarnation : Nat} {mid : List Happening}
    (hmid : .accepted incarnation true ∉ mid) {older : List Happening}
    (h : attemptedIn incarnation older = true) : attemptedIn incarnation (mid ++ older) = true := by
  induction mid with
  | nil => exact h
  | cons entry mid ih =>
      obtain ⟨hentry, hrest⟩ := not_or.mp (List.mem_cons.not.mp hmid)
      have hih := ih hrest
      cases entry with
      | armed => exact hih
      | unready => exact hih
      | stopped => exact hih
      | claimed other _ _ _ _ => simp [attemptedIn, hih]
      | accepted other fresh =>
          simp only [List.cons_append, attemptedIn, hih, Bool.and_true, Bool.not_eq_true',
            Bool.and_eq_false_iff, decide_eq_false_iff_not]
          by_cases ho : other = incarnation
          · subst ho
            cases fresh with
            | false => exact .inr rfl
            | true => exact absurd rfl hentry
          · exact .inl ho

/-- The countdown of the current owner, if there is one, and all permits ever made. -/
structure Countdown where
  owner : Option Nat
  absence : Option AbsenceTimer
  attempted : Bool
  permits : List PermitState
  allocated : Nat
  log : List Happening

namespace Countdown

def pending (c : Countdown) (permit : Nat) : Prop := c.permits[permit]? = some .pending

/-- One permit is cancelled unless it is decided already. -/
def revoke (c : Countdown) (permit : Nat) : Countdown :=
  { c with
    permits := c.permits.modify permit fun state => if state = .pending then .cancelled else state }

/-- The countdown that is armed, if any, ends. -/
def disarm (c : Countdown) : Countdown :=
  { c.absence.elim c fun timer => c.revoke timer.permit with absence := none }

def note (c : Countdown) (happening : Happening) : Countdown :=
  { c with log := happening :: c.log }

/-- What can happen to the countdown of a session and to the permits. -/
inductive Step (c : Countdown) : Countdown → Prop
  | rest : Step c c
  | attempt : Step c { c with attempted := true }
  | revoke (permit : Nat) : Step c (c.revoke permit)
  | disarm {incarnation : Nat} {happening : Happening}
      (howner : c.owner = some incarnation) (hof : happening.incarnation = incarnation)
      (hdisarms : happening.disarms = true) : Step c (c.disarm.note happening)
  | accept {incarnation : Nat} (howner : c.owner = some incarnation) :
      Step c { c.disarm.note (.accepted incarnation true) with attempted := false }
  | repeated {incarnation : Nat} (howner : c.owner = some incarnation)
      (habsence : c.absence = none) : Step c (c.note (.accepted incarnation false))
  | arm {incarnation : Nat} {timer : AbsenceTimer}
      (howner : c.owner = some incarnation) (habsence : c.absence = none)
      (hattempted : c.attempted = false) (hpermit : timer.permit = c.permits.length) :
      Step c
        { c.note (.armed incarnation timer) with
          absence := some timer
          permits := c.permits ++ [.pending] }
  | claim {incarnation time : Nat} {timer : AbsenceTimer}
      (howner : c.owner = some incarnation) (habsence : c.absence = some timer)
      (hpending : c.pending timer.permit) (htime : timer.started + timer.timeout ≤ time) :
      Step c
        { c.note (.claimed incarnation timer.permit time .idle (some timer)) with
          attempted := true
          permits := c.permits.set timer.permit .claimed }
  | retire {incarnation : Nat} (howner : c.owner = some incarnation) :
      Step c { c.disarm.note (.stopped incarnation) with owner := none, attempted := false }
  | allocate (howner : c.owner = none) :
      Step c
        { c with
          owner := some c.allocated
          absence := none
          attempted := false
          allocated := c.allocated + 1 }

/-- What holds of the countdown at any time. -/
structure Sound (c : Countdown) : Prop where
  /-- Only the countdown that is armed has a pending permit. -/
  pending : ∀ permit, c.pending permit → ∃ timer, c.absence = some timer ∧ timer.permit = permit
  /-- A countdown that may still be claimed is the last entry of the log. -/
  armed : ∀ timer, c.absence = some timer → c.pending timer.permit →
    ∃ incarnation, c.owner = some incarnation ∧ c.log.head? = some (.armed incarnation timer)
  owned : c.absence ≠ none → c.owner ≠ none
  attempted : ∀ incarnation, c.owner = some incarnation → attemptedIn incarnation c.log = true →
    c.attempted = true
  known : (∀ incarnation, c.owner = some incarnation → incarnation < c.allocated) ∧
    ∀ happening ∈ c.log, happening.incarnation < c.allocated
  ordered : Ordered c.log

section Steps

theorem pending_revoke {c : Countdown} {permit other : Nat} :
    (c.revoke permit).pending other ↔ c.pending other ∧ other ≠ permit := by
  simp only [pending, revoke, List.getElem?_modify]
  by_cases hother : permit = other
  · subst hother
    cases c.permits[permit]? with
    | none => simp
    | some state => cases state <;> simp
  · simp [hother, Ne.symm hother]

theorem pending_disarm {c : Countdown} (h : c.Sound) (permit : Nat) : ¬c.disarm.pending permit := by
  intro hp
  cases ha : c.absence with
  | none =>
      obtain ⟨timer, ht, -⟩ := h.pending permit (by simpa [disarm, ha, pending] using hp)
      rw [ha] at ht
      cases ht
  | some timer =>
      have hp' : (c.revoke timer.permit).pending permit := by
        simpa [disarm, ha, pending] using hp
      obtain ⟨hpending, hne⟩ := pending_revoke.mp hp'
      obtain ⟨timer', ht, rfl⟩ := h.pending permit hpending
      rw [ha, Option.some.injEq] at ht
      exact hne (congrArg AbsenceTimer.permit ht.symm)

@[simp] theorem disarm_owner (c : Countdown) : c.disarm.owner = c.owner := by
  cases h : c.absence <;> simp [disarm, h, revoke]

@[simp] theorem disarm_attempted (c : Countdown) : c.disarm.attempted = c.attempted := by
  cases h : c.absence <;> simp [disarm, h, revoke]

@[simp] theorem disarm_allocated (c : Countdown) : c.disarm.allocated = c.allocated := by
  cases h : c.absence <;> simp [disarm, h, revoke]

@[simp] theorem disarm_log (c : Countdown) : c.disarm.log = c.log := by
  cases h : c.absence <;> simp [disarm, h, revoke]

/-- Nobody has claimed a countdown of an incarnation that does not exist yet. -/
theorem attemptedIn_of_unknown {incarnation : Nat} {log : List Happening}
    (h : ∀ happening ∈ log, happening.incarnation ≠ incarnation) :
    attemptedIn incarnation log = false := by
  induction log with
  | nil => rfl
  | cons happening log ih =>
      have hhead := h happening (List.mem_cons_self ..)
      have hrest := ih fun entry hentry => h entry (List.mem_cons_of_mem _ hentry)
      cases happening with
      | armed => exact hrest
      | unready => exact hrest
      | stopped => exact hrest
      | claimed other _ _ _ _ => simpa [attemptedIn, hrest, Happening.incarnation] using hhead
      | accepted other fresh => simp [attemptedIn, hrest]

/-- A countdown without a permit that could still be claimed, and an entry for its log. -/
private theorem Sound.noted {c : Countdown} (h : c.Sound) {incarnation : Nat}
    (howner : c.owner = some incarnation) (happening : Happening)
    (hof : happening.incarnation = incarnation) (hfollows : Follows c.log happening)
    (hattempted : attemptedIn incarnation (happening :: c.log) = true →
      attemptedIn incarnation c.log = true) :
    (c.disarm.note happening).Sound where
  pending := fun permit hp => absurd hp (pending_disarm h permit)
  armed := fun timer ht _ => by cases ht
  owned := fun ha => absurd rfl ha
  attempted := fun other hother hlog => by
    rw [note, disarm_owner, howner, Option.some.injEq] at hother
    subst hother
    rw [note, disarm_log] at hlog
    rw [note, disarm_attempted]
    exact h.attempted incarnation howner (hattempted hlog)
  known := by
    refine ⟨fun other hother => ?_, fun entry hentry => ?_⟩
    · rw [note, disarm_owner] at hother
      rw [note, disarm_allocated]
      exact h.known.1 other hother
    · rw [note, disarm_log, List.mem_cons] at hentry
      rw [note, disarm_allocated]
      rcases hentry with rfl | hentry
      · exact hof ▸ h.known.1 incarnation howner
      · exact h.known.2 entry hentry
  ordered := by
    rw [note, disarm_log]
    exact ⟨hfollows, h.ordered⟩

theorem Sound.revoke {c : Countdown} (h : c.Sound) (permit : Nat) : (c.revoke permit).Sound where
  pending := fun other hp => h.pending other (pending_revoke.mp hp).1
  armed := fun timer ht hp => h.armed timer ht (pending_revoke.mp hp).1
  owned := h.owned
  attempted := h.attempted
  known := h.known
  ordered := h.ordered

/-- A log entry that ends a countdown claims nothing and forgives nothing. -/
private theorem attemptedIn_of_disarms {incarnation : Nat} {happening : Happening}
    {log : List Happening} (hdisarms : happening.disarms = true) :
    Follows log happening ∧
      attemptedIn incarnation (happening :: log) = attemptedIn incarnation log := by
  cases happening with
  | unready => exact ⟨trivial, rfl⟩
  | stopped => exact ⟨trivial, rfl⟩
  | armed => cases hdisarms
  | accepted => cases hdisarms
  | claimed => cases hdisarms

theorem Sound.arm {c : Countdown} (h : c.Sound) {incarnation : Nat} {timer : AbsenceTimer}
    (howner : c.owner = some incarnation) (habsence : c.absence = none)
    (hattempted : c.attempted = false) (hpermit : timer.permit = c.permits.length) :
    Sound
      { c.note (.armed incarnation timer) with
        absence := some timer
        permits := c.permits ++ [.pending] } where
  pending := fun permit hp => by
    refine ⟨timer, rfl, ?_⟩
    have hp' : (c.permits ++ [PermitState.pending])[permit]? = some .pending := hp
    rcases Nat.lt_or_ge permit c.permits.length with hlt | hge
    · rw [List.getElem?_append_left hlt] at hp'
      obtain ⟨timer', ht, -⟩ := h.pending permit hp'
      rw [habsence] at ht
      cases ht
    · have hlt := (List.getElem?_eq_some_iff.mp hp').1
      rw [List.length_append, List.length_singleton] at hlt
      omega
  armed := fun timer' ht _ => by
    cases ht
    exact ⟨incarnation, howner, rfl⟩
  owned := fun _ => by
    change c.owner ≠ none
    rw [howner]
    exact Option.some_ne_none _
  attempted := h.attempted
  known := by
    refine ⟨h.known.1, fun entry hentry => ?_⟩
    rcases List.mem_cons.mp hentry with rfl | hentry
    · exact h.known.1 incarnation howner
    · exact h.known.2 entry hentry
  ordered := by
    refine ⟨?_, h.ordered⟩
    change attemptedIn incarnation c.log = false
    by_contra hlog
    rw [Bool.not_eq_false] at hlog
    rw [h.attempted incarnation howner hlog] at hattempted
    cases hattempted

theorem Sound.claim {c : Countdown} (h : c.Sound) {incarnation time : Nat} {timer : AbsenceTimer}
    (howner : c.owner = some incarnation) (habsence : c.absence = some timer)
    (hpending : c.pending timer.permit) (htime : timer.started + timer.timeout ≤ time) :
    Sound
      { c.note (.claimed incarnation timer.permit time .idle (some timer)) with
        attempted := true
        permits := c.permits.set timer.permit .claimed } := by
  have hnone (permit : Nat) : (c.permits.set timer.permit .claimed)[permit]? ≠ some .pending := by
    intro hp
    rw [List.getElem?_set] at hp
    split at hp
    · split at hp <;> cases hp
    · next hne =>
        obtain ⟨timer', ht, heq⟩ := h.pending permit hp
        rw [habsence, Option.some.injEq] at ht
        exact hne (by rw [ht, heq])
  refine ⟨fun permit hp => absurd hp (hnone permit), fun timer' _ hp => absurd hp (hnone _), ?_,
    fun _ _ _ => rfl, ⟨h.known.1, fun entry hentry => ?_⟩, ?_, h.ordered⟩
  · intro _
    change c.owner ≠ none
    rw [howner]
    exact Option.some_ne_none _
  · rcases List.mem_cons.mp hentry with rfl | hentry
    · exact h.known.1 incarnation howner
    · exact h.known.2 entry hentry
  · obtain ⟨incarnation', howner', hhead⟩ := h.armed timer habsence hpending
    rw [howner, Option.some.injEq] at howner'
    subst howner'
    exact ⟨timer, hhead, rfl, rfl, htime, rfl⟩

/-- Whatever happens, the countdown stays sound. -/
theorem Step.sound {c c' : Countdown} (step : Step c c') (h : c.Sound) : c'.Sound := by
  induction step with
  | rest => exact h
  | attempt => exact ⟨h.pending, h.armed, h.owned, fun _ _ _ => rfl, h.known, h.ordered⟩
  | revoke permit => exact h.revoke permit
  | disarm howner hof hdisarms =>
      obtain ⟨hfollows, hsame⟩ := attemptedIn_of_disarms hdisarms
      exact h.noted howner _ hof hfollows fun hlog => hsame ▸ hlog
  | accept howner =>
      have hnoted := h.noted howner (.accepted _ true) rfl trivial fun hlog => by
        simp [attemptedIn] at hlog
      refine ⟨hnoted.pending, hnoted.armed, hnoted.owned, fun incarnation hother hlog => ?_,
        hnoted.known, hnoted.ordered⟩
      have hother' : c.disarm.owner = some incarnation := hother
      rw [disarm_owner, howner, Option.some.injEq] at hother'
      subst hother'
      simp [note, attemptedIn] at hlog
  | repeated howner habsence =>
      have hsame : c.disarm = c := by
        obtain ⟨owner, absence, attempted, permits, allocated, log⟩ := c
        cases habsence
        rfl
      have hnoted := h.noted howner (.accepted _ false) rfl trivial fun hlog => by
        simpa [attemptedIn] using hlog
      rwa [hsame] at hnoted
  | arm howner habsence hattempted hpermit => exact h.arm howner habsence hattempted hpermit
  | claim howner habsence hpending htime => exact h.claim howner habsence hpending htime
  | retire howner =>
      have hnoted := h.noted howner (.stopped _) rfl trivial fun hlog => hlog
      exact ⟨hnoted.pending, fun _ ht _ => (nomatch ht), fun ha => absurd rfl ha,
        fun _ hother _ => (nomatch hother), ⟨fun _ hother => (nomatch hother), hnoted.known.2⟩,
        hnoted.ordered⟩
  | allocate howner =>
      have hnone : c.absence = none := by
        by_contra ha
        exact h.owned ha howner
      refine ⟨fun permit hp => ?_, fun _ ht _ => (nomatch ht), fun ha => absurd rfl ha,
        fun incarnation hother hlog => ?_, ⟨fun incarnation hother => ?_, fun entry hentry => ?_⟩,
        h.ordered⟩
      · obtain ⟨timer, ht, -⟩ := h.pending permit hp
        rw [hnone] at ht
        cases ht
      · cases hother
        have hlog' : attemptedIn c.allocated c.log = true := hlog
        rw [attemptedIn_of_unknown fun entry hentry => (h.known.2 entry hentry).ne] at hlog'
        cases hlog'
      · cases hother
        exact Nat.lt_succ_self _
      · exact (h.known.2 entry hentry).trans (Nat.lt_succ_self _)

/-- A countdown that appears in the log got a permit of its own. -/
theorem Step.armed_mem {c c' : Countdown} (step : Step c c') {incarnation : Nat}
    {timer : AbsenceTimer} (h : .armed incarnation timer ∈ c'.log) :
    .armed incarnation timer ∈ c.log ∨
      timer.permit = c.permits.length ∧ c'.absence = some timer ∧
        timer.permit < c'.permits.length := by
  have helse {happening : Happening} {log : List Happening}
      (hmem : Happening.armed incarnation timer ∈ happening :: log)
      (hne : happening ≠ .armed incarnation timer) : Happening.armed incarnation timer ∈ log :=
    (List.mem_cons.mp hmem).resolve_left fun heq => hne heq.symm
  induction step with
  | rest => exact .inl h
  | attempt => exact .inl h
  | revoke => exact .inl h
  | disarm _ _ hdisarms =>
      refine .inl ?_
      rw [note, disarm_log] at h
      exact helse h (by rintro rfl; cases hdisarms)
  | accept howner =>
      refine .inl ?_
      have h' : _ ∈ _ :: c.disarm.log := h
      rw [disarm_log] at h'
      exact helse h' (by simp)
  | repeated => exact .inl (helse h (by simp))
  | arm _ _ _ hpermit =>
      rcases List.mem_cons.mp h with heq | hmem
      · cases heq
        exact .inr ⟨hpermit, rfl, by simp [hpermit]⟩
      · exact .inl hmem
  | claim => exact .inl (helse h (by simp))
  | retire howner =>
      refine .inl ?_
      have h' : _ ∈ _ :: c.disarm.log := h
      rw [disarm_log] at h'
      exact helse h' (by simp)
  | allocate => exact .inl h

theorem Step.permits_le {c c' : Countdown} (step : Step c c') :
    c.permits.length ≤ c'.permits.length := by
  have hdisarm (c : Countdown) : c.disarm.permits.length = c.permits.length := by
    cases h : c.absence <;> simp [Countdown.disarm, h, Countdown.revoke]
  induction step with
  | rest => exact le_rfl
  | attempt => exact le_rfl
  | revoke => simp [Countdown.revoke]
  | disarm _ _ _ => simp [note, hdisarm]
  | accept _ => simp [note, hdisarm]
  | repeated => exact le_rfl
  | arm => simp
  | claim => simp
  | retire _ => simp [note, hdisarm]
  | allocate => exact le_rfl

end Steps

end Countdown

end Attyd.Observation
