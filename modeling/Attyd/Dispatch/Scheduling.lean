import Attyd.Dispatch.Fairness

/-!
# The pump over session queues and the global queue

The scheduler keeps two dispatchers: one for the sessions and one with a single
queue for the connection as a whole. The pump takes one event from either. Which
of them it tries first changes with every call, also with one that finds nothing
or has to turn to the other dispatcher.

## Implementation notes

Each dispatcher is a world of its own, with its callers. The sum of what the
sources did is left to `World`; here only the choice between them is added.
-/

namespace Attyd.Dispatch

/-- The id of the connection's own queue. -/
def coordinatorId : String := "attyd:connection-coordinator"

inductive Source where
  | sessions
  | global
  deriving DecidableEq

def Source.other : Source → Source
  | .sessions => .global
  | .global => .sessions

structure Scheduling (ε : Type*) where
  sessions : World ε
  global : World ε
  preferGlobal : Bool

namespace Scheduling

variable {ε : Type*}

def new (epoch : String) (sessions global : Nat) : Scheduling ε where
  sessions := .new epoch sessions
  global := (World.new epoch global).step (.register coordinatorId 1)
  preferGlobal := true

def source (self : Scheduling ε) : Source → World ε
  | .sessions => self.sessions
  | .global => self.global

def modify (self : Scheduling ε) (source : Source) (f : World ε → World ε) : Scheduling ε :=
  match source with
  | .sessions => { self with sessions := f self.sessions }
  | .global => { self with global := f self.global }

/-- `try_next` of one source. -/
def tryNext (self : Scheduling ε) (source : Source) : NextDelivery ε × Scheduling ε :=
  ((self.source source).dispatch.tryNext.1, self.modify source (·.step .takeNext))

/-- Take from the second source only if the first has nothing to take. -/
def tryInTurn (self : Scheduling ε) (first second : Source) :
    (NextDelivery ε × Source) × Scheduling ε :=
  match self.tryNext first with
  | (.nothing, self) =>
      let (answer, self) := self.tryNext second
      ((answer, second), self)
  | (answer, self) => ((answer, first), self)

/-- Take at most one event; the answer names the source it came from. -/
def pump (self : Scheduling ε) : (NextDelivery ε × Source) × Scheduling ε :=
  let globalFirst := self.preferGlobal
  let self := { self with preferGlobal := !self.preferGlobal }
  if globalFirst then self.tryInTurn .global .sessions else self.tryInTurn .sessions .global

/-- What happens to the scheduler: a pump, or a call on one of its dispatchers. -/
inductive Event (ε : Type*) where
  | pump
  | call (source : Source) (call : Call ε)

def step (self : Scheduling ε) : Event ε → Scheduling ε
  | .pump => self.pump.2
  | .call source call => self.modify source (·.step call)

/-- This call of the pump delivers an event of the source. -/
def Serves (self : Scheduling ε) (source : Source) : Prop :=
  ∃ delivery, self.pump.1 = (.delivery delivery, source)

/-- Some allocation of the source has queued events and is not busy. -/
def Deliverable (self : Scheduling ε) (source : Source) : Prop :=
  ∃ handle, (self.source source).dispatch.Eligible handle

/-- The source that the next call of the pump tries first. -/
def preferred (self : Scheduling ε) : Source := if self.preferGlobal then .global else .sessions

section Steps

variable (s : Scheduling ε) (source other : Source)

@[simp] theorem source_modify (f : World ε → World ε) :
    (s.modify source f).source other = if other = source then f (s.source other)
      else s.source other := by
  cases source <;> cases other <;> rfl

@[simp] theorem preferGlobal_modify (f : World ε → World ε) :
    (s.modify source f).preferGlobal = s.preferGlobal := by
  cases source <;> rfl

/-- The second source is tried exactly when the first has nothing. -/
theorem tryInTurn_cases (first second : Source) :
    ((s.tryNext first).1 = .nothing ∧ s.tryInTurn first second =
        ((((s.tryNext first).2.tryNext second).1, second),
          ((s.tryNext first).2.tryNext second).2)) ∨
      ((s.tryNext first).1 ≠ .nothing ∧
        s.tryInTurn first second = (((s.tryNext first).1, first), (s.tryNext first).2)) := by
  rw [tryInTurn]
  obtain ⟨answer, next⟩ := s.tryNext first
  cases answer with
  | nothing => exact .inl ⟨rfl, rfl⟩
  | closed => exact .inr ⟨nofun, rfl⟩
  | panicked => exact .inr ⟨nofun, rfl⟩
  | delivery delivery => exact .inr ⟨nofun, rfl⟩

@[simp] theorem preferGlobal_tryInTurn (first second : Source) :
    (s.tryInTurn first second).2.preferGlobal = s.preferGlobal := by
  rcases s.tryInTurn_cases first second with ⟨-, h⟩ | ⟨-, h⟩
  · rw [h]
    simp only [tryNext, preferGlobal_modify]
  · rw [h]
    simp only [tryNext, preferGlobal_modify]

/-- The dispatchers do not read the preference. -/
theorem pump_eq : s.pump =
    ({ s with preferGlobal := !s.preferGlobal } : Scheduling ε).tryInTurn s.preferred
      s.preferred.other := by
  simp only [pump, preferred]
  cases s.preferGlobal <;> rfl

theorem preferGlobal_pump : s.pump.2.preferGlobal = !s.preferGlobal := by
  rw [pump_eq, preferGlobal_tryInTurn]

theorem preferred_pump : s.pump.2.preferred = s.preferred.other := by
  rw [preferred, preferGlobal_pump, preferred]
  cases s.preferGlobal <;> rfl

/-- A call on one source is a call on its world, and leaves the other alone. -/
theorem source_modify_run (call : Call ε) :
    ∃ calls, (s.modify source (·.step call)).source other =
      run World.step (s.source other) calls := by
  rw [source_modify]
  by_cases h : other = source
  · rw [if_pos h]
    exact ⟨[call], rfl⟩
  · rw [if_neg h]
    exact ⟨[], rfl⟩

/-- What a step does to one source, its callers could have done. -/
theorem source_step (event : Event ε) :
    ∃ calls, (s.step event).source source = run World.step (s.source source) calls := by
  cases event with
  | call called call => exact s.source_modify_run called source call
  | pump =>
      rw [step, pump_eq]
      generalize hs : ({ s with preferGlobal := !s.preferGlobal } : Scheduling ε) = toggled
      have hsource : s.source source = toggled.source source := by
        rw [← hs]
        cases source <;> rfl
      obtain ⟨calls, hfirst⟩ := toggled.source_modify_run s.preferred source .takeNext
      rcases toggled.tryInTurn_cases s.preferred s.preferred.other with ⟨-, h⟩ | ⟨-, h⟩
      · obtain ⟨more, hsecond⟩ :=
          (toggled.tryNext s.preferred).2.source_modify_run s.preferred.other source .takeNext
        refine ⟨calls ++ more, ?_⟩
        rw [h, run_append, hsource, ← hfirst]
        exact hsecond
      · refine ⟨calls, ?_⟩
        rw [h, hsource]
        exact hfirst

theorem source_run (events : List (Event ε)) :
    ∃ calls, (run step s events).source source = run World.step (s.source source) calls := by
  induction events generalizing s with
  | nil => exact ⟨[], rfl⟩
  | cons event events ih =>
      obtain ⟨calls, hstep⟩ := s.source_step source event
      obtain ⟨more, hrun⟩ := ih (s.step event)
      exact ⟨calls ++ more, by rw [run_cons, hrun, hstep, run_append]⟩

end Steps

/-- Both sources are orderly in every run. -/
theorem orderly_source (epoch : String) (sessions global : Nat) (events : List (Event ε))
    (source : Source) :
    ((run step (new epoch sessions global) events).source source).Orderly := by
  obtain ⟨calls, hrun⟩ := (new epoch sessions global).source_run source events
  rw [hrun]
  apply run_invariant (fun _ call hw => hw.step call)
  cases source with
  | sessions => exact World.orderly_new epoch sessions
  | global => exact (World.orderly_new epoch global).step (.register coordinatorId 1)

variable {s : Scheduling ε} {source : Source}

/-- The source that is tried first is served if it has anything to take. -/
theorem serves_preferred (h : (s.source s.preferred).Orderly)
    (hd : s.Deliverable s.preferred) : s.Serves s.preferred := by
  obtain ⟨handle, heligible⟩ := hd
  obtain ⟨delivery, -, hnext, -⟩ := World.Waits.takeNext ⟨h, heligible⟩
  have hfirst : (({ s with preferGlobal := !s.preferGlobal } : Scheduling ε).tryNext
      s.preferred).1 = .delivery delivery := by
    rw [← hnext]
    cases s.preferred <;> rfl
  refine ⟨delivery, ?_⟩
  rw [pump_eq]
  rcases ({ s with preferGlobal := !s.preferGlobal } : Scheduling ε).tryInTurn_cases
    s.preferred s.preferred.other with ⟨hnone, -⟩ | ⟨-, htaken⟩
  · rw [hfirst] at hnone
    cases hnone
  · rw [htaken, hfirst]

theorem Serves.unique {other : Source} (h : s.Serves source) (ho : s.Serves other) :
    source = other := by
  obtain ⟨delivery, hd⟩ := h
  obtain ⟨delivery', hd'⟩ := ho
  exact congrArg Prod.snd (hd.symm.trans hd')

/-- Only the pump changes which source is next. -/
theorem preferred_run {events : List (Event ε)} (h : .pump ∉ events) :
    (run step s events).preferred = s.preferred := by
  induction events generalizing s with
  | nil => rfl
  | cons event events ih =>
      obtain ⟨hne, hrest⟩ := not_or.mp (List.mem_cons.not.mp h)
      rw [run_cons, ih hrest]
      cases event with
      | pump => exact absurd rfl hne
      | call called call => rw [step, preferred, preferGlobal_modify, preferred]

/-- In every run: from the moment an allocation has queued events and is not busy, its
source makes fewer deliveries than there were ready allocations then before it delivers
an event of this one, and none of its takings comes back with nothing, unless the
allocation is removed, replaced or closed. A pump serves the source that is tried first if it has
something to take. Of two successive pumps, if the first serves a source while the other has
something to take, and the other still has at the second, the second serves the other. -/
theorem no_source_starves (epoch : String) (sessions global : Nat) (events : List (Event ε)) :
    let s := run step (new epoch sessions global) events
    (∀ source handle, (s.source source).dispatch.Eligible handle → ∀ later,
        let s' := run step s later
        let ready := (s.source source).dispatch.ready.length
        ∃ deliveries,
          (s'.source source).delivered = (s.source source).delivered ++ deliveries ∧
          (handle ∈ (deliveries.take ready).map (·.1) ∨
            ¬ (s'.source source).dispatch.Registered handle ∨
            deliveries.length < ready ∧
              ∃ delivery, (s'.source source).dispatch.tryNext.1 = .delivery delivery)) ∧
      (s.Deliverable s.preferred → s.Serves s.preferred) ∧
      ∀ source, s.Serves source → s.Deliverable source.other → ∀ between, .pump ∉ between →
        (run step s.pump.2 between).Deliverable source.other →
          (run step s.pump.2 between).Serves source.other := by
  intro s
  have horderly (source : Source) : (s.source source).Orderly :=
    orderly_source epoch sessions global events source
  refine ⟨?_, serves_preferred (horderly s.preferred), ?_⟩
  · intro source handle heligible later s' ready
    have hwaits : (s.source source).Waits handle := ⟨horderly source, heligible⟩
    have hplace : (s.source source).place handle < ready :=
      List.idxOf_lt_length_of_mem hwaits.mem_ready
    obtain ⟨calls, hrun⟩ := s.source_run source later
    obtain ⟨deliveries, hlog, hout⟩ := (World.boundedWait handle).served_within hwaits calls
    rw [← hrun] at hlog hout
    refine ⟨deliveries, hlog, ?_⟩
    rcases hout with ⟨delivery, hd, hserved⟩ | hgone | ⟨hwait, hlen⟩
    · exact .inl (List.mem_map.mpr
        ⟨delivery, List.take_subset_take_left deliveries hplace hd, hserved⟩)
    · exact .inr (.inl hgone.closed)
    · obtain ⟨delivery, -, hnext, -⟩ := hwait.takeNext
      exact .inr (.inr ⟨hlen.trans_lt hplace, delivery, hnext⟩)
  · intro source hserves hother between hbetween hnext
    -- The first pump did not try the other source first, so the second one does.
    have hfirst : s.preferred = source := by
      by_contra hne
      have heq : s.preferred = source.other := by
        revert hne
        cases s.preferred <;> cases source <;> simp [Source.other]
      have hserved := serves_preferred (horderly _) (heq ▸ hother)
      exact hne (hserved.unique hserves)
    have hsecond : (run step s.pump.2 between).preferred = source.other := by
      rw [preferred_run hbetween, preferred_pump, hfirst]
    have hstate : run step (new epoch sessions global) (events ++ .pump :: between) =
        run step s.pump.2 between := by
      rw [run_append, run_cons]
      rfl
    rw [← hsecond]
    apply serves_preferred
    · rw [← hstate]
      exact orderly_source epoch sessions global _ _
    · rw [hsecond]
      exact hnext

end Scheduling

end Attyd.Dispatch
