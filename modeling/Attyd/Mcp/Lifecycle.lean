import Attyd.Mcp.MessageRuns

/-!
# What is left of a connection

The request that opens a connection announces it once or is refused, and the task that ends
the connection cancels, takes it off the table, kills the child and announces the end, in
this order and once. Where the tasks rest, the connection is as one of three outcomes says.
-/

namespace Attyd.Mcp

/-- The stages of a termination before it kills the child. -/
def TerminateStage.armed : TerminateStage → Bool
  | cancelling | removing | killing => true
  | _ => false

namespace McpConnection

variable {s s' : McpConnection} {action : Action}

/-- The connection was ended, or somebody is about to end it. -/
def Ending (s : McpConnection) : Prop := s.closed = true ∨ s.enders ≠ []

/-- How far the opening and the ending of a connection have come. -/
structure Lifecycle (s : McpConnection) : Prop where
  connected : s.events.count .connected = if s.connecting = .connected then 1 else 0
  cancelled : s.cancelled = s.termination.any (·.stage ≠ .cancelling)
  kill : s.kill = s.termination.all (·.stage.armed)
  refused : s.connecting = .refused → s.Ending
  waited : s.childWaited = true → s.Ending

theorem lifecycle_opened (id : String) : (opened id).Lifecycle where
  connected := rfl
  cancelled := rfl
  kill := rfl
  refused h := by cases h
  waited h := by cases h

section Steps

theorem exists_of_all_eq_false {o : Option Termination} {p : TerminateStage → Bool}
    (h : (o.all fun t => p t.stage) = false) : ∃ t, o = some t ∧ p t.stage = false := by
  cases o with
  | none => cases h
  | some t => exact ⟨t, rfl, h⟩

theorem Ending.mono (h : s.Ending) (hterm : s'.termination = s.termination)
    (henders : s.enders ≠ [] → s'.enders ≠ []) : s'.Ending := by
  unfold Ending closed
  rw [hterm]
  exact h.imp_right henders

/-- Steps of the calls, the reader and the table, and those by which one more is about to
end the connection. -/
theorem Lifecycle.of_same (h : s.Lifecycle) (hevents : s'.events = s.events)
    (hconnecting : s'.connecting = s.connecting) (hcancelled : s'.cancelled = s.cancelled)
    (hterm : s'.termination = s.termination) (hkill : s'.kill = s.kill)
    (hwaited : s'.childWaited = s.childWaited) (henders : s.enders ≠ [] → s'.enders ≠ []) :
    s'.Lifecycle := by
  refine ⟨?_, ?_, ?_, fun hrefused => ?_, fun hw => ?_⟩
  · rw [hevents, hconnecting]
    exact h.connected
  · rw [hcancelled, hterm]
    exact h.cancelled
  · rw [hkill, hterm]
    exact h.kill
  · exact (h.refused (hconnecting ▸ hrefused)).mono hterm henders
  · exact (h.waited (hwaited ▸ hw)).mono hterm henders

theorem Lifecycle.dropPending (h : s.Lifecycle) (key : String) : (s.dropPending key).Lifecycle := by
  unfold McpConnection.dropPending
  cases s.pending.lookup key with
  | none => exact h
  | some pending => exact h.of_same rfl rfl rfl rfl rfl rfl fun he => he

theorem Lifecycle.withdrawRequest (h : s.Lifecycle) (i : Nat) (call : MessageCall)
    (stage : CallStage) : (s.withdrawRequest i call stage).Lifecycle := by
  have hstage : (s.setStage i call stage).Lifecycle :=
    h.of_same rfl rfl rfl rfl rfl rfl fun he => he
  exact hstage.dropPending call.key

/-- The first one that ends the connection closes it; the others find it closed. -/
theorem Lifecycle.exchange (h : s.Lifecycle) (ender : Nat) (reason : McpError) :
    (s.exchange ender reason).Lifecycle := by
  have hclosed : (s.exchange ender reason).closed = true := by
    unfold McpConnection.exchange closed
    cases s.termination <;> rfl
  refine ⟨h.connected, ?_, ?_, fun _ => .inl hclosed, fun _ => .inl hclosed⟩
  · refine h.cancelled.trans ?_
    unfold McpConnection.exchange
    cases s.termination <;> rfl
  · refine h.kill.trans ?_
    unfold McpConnection.exchange
    cases s.termination <;> rfl

/-- The task that ends the connection goes on to a stage. -/
theorem Lifecycle.setTermination (h : s.Lifecycle) (t : Termination)
    (hterm : s'.termination = some t) {stage : TerminateStage}
    (hconnecting : s'.connecting = s.connecting)
    (hevents : s'.events.count .connected = s.events.count .connected)
    (hcancelled : s'.cancelled = decide (stage ≠ .cancelling)) (hkill : s'.kill = stage.armed) :
    (s'.setTermination stage).Lifecycle := by
  have hnext : (s'.setTermination stage).termination = some { t with stage } := by
    rw [McpConnection.setTermination, hterm]
    rfl
  have hclosed : (s'.setTermination stage).closed = true := by
    rw [closed, hnext]
    rfl
  refine ⟨?_, ?_, ?_, fun _ => .inl hclosed, fun _ => .inl hclosed⟩
  · exact hevents.trans (hconnecting ▸ h.connected)
  · rw [hnext]
    exact hcancelled
  · rw [hnext]
    exact hkill

theorem Lifecycle.terminate (h : s.Lifecycle) (hs : s.terminate = some s') : s'.Lifecycle := by
  obtain ⟨t, ht, hs⟩ := Option.bind_eq_some_iff.mp hs
  have hcancelled := h.cancelled
  have hkill := h.kill
  rw [ht, Option.any_some] at hcancelled
  rw [ht, Option.all_some] at hkill
  cases hstage : t.stage with
  | cancelling =>
      rw [hstage] at hs hkill
      cases hs
      refine h.setTermination t ?_ ?_ ?_ ?_ ?_
      exacts [ht, rfl, rfl, rfl, hkill]
  | removing =>
      rw [hstage] at hs hcancelled hkill
      dsimp only at hs
      split at hs <;> cases hs
      refine h.setTermination t ?_ ?_ ?_ ?_ ?_
      exacts [ht, rfl, rfl, hcancelled, hkill]
  | killing =>
      rw [hstage] at hs hcancelled
      cases hs
      refine h.setTermination t ?_ ?_ ?_ ?_ ?_
      exacts [ht, rfl, rfl, hcancelled, rfl]
  | locking =>
      rw [hstage] at hs hcancelled hkill
      dsimp only at hs
      split at hs <;> cases hs
      refine h.setTermination t ?_ ?_ ?_ ?_ ?_
      exacts [ht, rfl, rfl, hcancelled, hkill]
  | draining =>
      rw [hstage] at hs hcancelled hkill
      dsimp only at hs
      split at hs <;> cases hs
      refine h.setTermination t ?_ ?_ ?_ ?_ ?_
      exacts [ht, rfl, rfl, hcancelled, hkill]
  | announcing =>
      rw [hstage] at hs hcancelled hkill
      cases hs
      refine h.setTermination t ?_ ?_ ?_ ?_ ?_
      · exact ht
      · rfl
      · cases hannounced : s.announced <;> simp
      · exact hcancelled
      · exact hkill
  | finished =>
      rw [hstage] at hs
      cases hs

/-- One step of any task. -/
theorem Lifecycle.step (h : s.Lifecycle) (hinv : s.Inv) (hs : s.step action = some s') :
    s'.Lifecycle := by
  have hsame {r : McpConnection} (hevents : r.events = s.events)
      (hconnecting : r.connecting = s.connecting) (hcancelled : r.cancelled = s.cancelled)
      (hterm : r.termination = s.termination) (hkill : r.kill = s.kill)
      (hwaited : r.childWaited = s.childWaited) (henders : r.enders = s.enders) : r.Lifecycle :=
    h.of_same hevents hconnecting hcancelled hterm hkill hwaited fun he => henders ▸ he
  cases action with
  | message method =>
      cases hs
      exact hsame rfl rfl rfl rfl rfl rfl rfl
  | requestCancel i =>
      obtain ⟨call, -, rfl⟩ := Option.map_eq_some_iff.mp hs
      exact hsame rfl rfl rfl rfl rfl rfl rfl
  | require i =>
      unfold McpConnection.step at hs
      dsimp only at hs
      split at hs
      · cases hs
      · obtain ⟨call, -, rfl⟩ := Option.map_eq_some_iff.mp hs
        unfold McpConnection.require
        split <;> exact hsame rfl rfl rfl rfl rfl rfl rfl
  | lockPending i =>
      unfold McpConnection.step at hs
      dsimp only at hs
      split at hs
      · cases hs
      · obtain ⟨call, -, rfl⟩ := Option.map_eq_some_iff.mp hs
        unfold McpConnection.lockPending
        split <;> exact hsame rfl rfl rfl rfl rfl rfl rfl
  | insert i =>
      obtain ⟨call, -, rfl⟩ := Option.map_eq_some_iff.mp hs
      exact (h.dropPending call.key).of_same rfl rfl rfl rfl rfl rfl fun he => he
  | number i | wrote i | writeFailed i error | withdraw i | retracted i =>
      obtain ⟨call, -, rfl⟩ := Option.map_eq_some_iff.mp hs
      exact hsame rfl rfl rfl rfl rfl rfl rfl
  | unregister i =>
      obtain ⟨call, -, hs⟩ := Option.bind_eq_some_iff.mp hs
      split at hs
      · split at hs <;> cases hs
        exact h.withdrawRequest i call _
      · cases hs
  | receive i =>
      obtain ⟨call, -, hs⟩ := Option.bind_eq_some_iff.mp hs
      unfold McpConnection.receive at hs
      split at hs <;> cases hs <;> exact hsame rfl rfl rfl rfl rfl rfl rfl
  | removeWithdrawn i =>
      unfold McpConnection.step at hs
      dsimp only at hs
      split at hs
      · cases hs
      · obtain ⟨call, -, rfl⟩ := Option.map_eq_some_iff.mp hs
        exact h.withdrawRequest i call _
  | disconnect | closeAll | readerFailed _ =>
      unfold McpConnection.step at hs
      dsimp only at hs
      split at hs <;> cases hs
      exact h.of_same rfl rfl rfl rfl rfl rfl fun _ => by simp
  | childExited reason =>
      unfold McpConnection.step at hs
      dsimp only at hs
      split at hs <;> cases hs
      exact ⟨h.connected, h.cancelled, h.kill, fun _ => .inr (by simp), fun _ => .inr (by simp)⟩
  | childKilled =>
      unfold McpConnection.step at hs
      dsimp only at hs
      split at hs
      · cases hs
      · rename_i hkilled
        cases hs
        refine ⟨h.connected, h.cancelled, h.kill, h.refused, fun _ => .inl ?_⟩
        -- The sender that kills the child is used by a termination.
        rw [Bool.or_eq_true, not_or] at hkilled
        have hkill := h.kill.symm.trans (Bool.eq_false_iff.mpr hkilled.2)
        obtain ⟨t, ht, -⟩ := exists_of_all_eq_false hkill
        exact Option.isSome_iff_exists.mpr ⟨t, ht⟩
  | readerEnded | serverSends _ | route | deliver =>
      unfold McpConnection.step at hs
      dsimp only at hs
      split at hs <;> cases hs
      exact hsame rfl rfl rfl rfl rfl rfl rfl
  | takePending =>
      unfold McpConnection.step at hs
      dsimp only at hs
      split at hs
      · split at hs <;> cases hs
        unfold McpConnection.takePending
        split <;> exact hsame rfl rfl rfl rfl rfl rfl rfl
      · cases hs
  | connectCancelled =>
      unfold McpConnection.step at hs
      dsimp only at hs
      split at hs
      · rename_i hopening
        cases hs
        refine ⟨?_, h.cancelled, h.kill, fun _ => .inr (by simp), fun _ => .inr (by simp)⟩
        simpa [hopening] using h.connected
      · cases hs
  | exchange ender =>
      obtain ⟨reason, -, rfl⟩ := Option.map_eq_some_iff.mp hs
      exact h.exchange ender reason
  | terminate => exact h.terminate hs
  | drain id =>
      obtain ⟨t, -, hs⟩ := Option.bind_eq_some_iff.mp hs
      obtain ⟨pending, -, hs⟩ := Option.bind_eq_some_iff.mp hs
      cases hs
      exact hsame rfl rfl rfl rfl rfl rfl rfl
  | activate =>
      unfold McpConnection.step at hs
      dsimp only at hs
      split at hs
      · rename_i hopening
        have hconnected := h.connected
        rw [hopening.1] at hconnected
        cases hs
        split
        · exact ⟨hconnected, h.cancelled, h.kill, fun hr => (by cases hr), h.waited⟩
        · rename_i hinactive
          refine ⟨hconnected, h.cancelled, h.kill, fun _ => .inl ?_, h.waited⟩
          -- A connection that is off the table was ended.
          by_contra hopen
          have hterm : s.termination = none := by simpa [closed] using hopen
          exact hinactive (by simp [hinv.listing.listed, closed, hterm])
      · cases hs
  | markAnnounced =>
      unfold McpConnection.step at hs
      dsimp only at hs
      split at hs
      · rename_i hactivating
        have hconnected := h.connected
        rw [hactivating] at hconnected
        cases hs
        exact ⟨hconnected, h.cancelled, h.kill, fun hr => (by cases hr), h.waited⟩
      · cases hs
  | announceConnected =>
      unfold McpConnection.step at hs
      dsimp only at hs
      split at hs
      · rename_i hannouncing
        have hconnected := h.connected
        rw [hannouncing] at hconnected
        cases hs
        refine ⟨?_, h.cancelled, h.kill, fun hr => (by cases hr), h.waited⟩
        rw [List.count_append, hconnected]
        rfl
      · cases hs

end Steps

section Ending

/-- The order in which a connection ends: it is closed, the work of its requests is
cancelled, it leaves the manager's table, its child is killed, its table is emptied, and the
end is announced. -/
structure Ordered (s : McpConnection) : Prop where
  cancelled : s.cancelled = true → s.closed = true
  unlisted : s.listed = false → s.cancelled = true
  killed : s.kill = false → s.listed = false
  disconnected : .disconnected ∈ s.events → s.announced = true ∧ s.kill = false ∧ s.pending = ∅
  connected : .connected ∈ s.events → s.announced = true
  once : s.events.Nodup

/-- Nobody has ended the connection, and its child has not exited. -/
structure Live (s : McpConnection) : Prop where
  connecting : s.connecting = .connected
  closed : s.closed = false
  listed : s.listed = true
  cancelled : s.cancelled = false
  kill : s.kill = true
  childWaited : s.childWaited = false
  events : s.events = [.connected]

/-- Nothing of the connection is left, and its child has been waited for. -/
structure Gone (s : McpConnection) : Prop where
  closed : s.closed = true
  listed : s.listed = false
  cancelled : s.cancelled = true
  kill : s.kill = false
  pending : s.pending = ∅
  childWaited : s.childWaited = true

/-- What becomes of a connection. The two announcements are made by two tasks, so the end
may be told first. -/
inductive Outcome (s : McpConnection) : Prop
  | live (h : s.Live)
  | disconnected (hconnecting : s.connecting = .connected) (h : s.Gone)
      (hevents : s.events.Perm [.connected, .disconnected])
  | refused (hconnecting : s.connecting = .refused) (h : s.Gone) (hevents : s.events = [])

theorem listed_of_not_armed {stage : TerminateStage} (h : stage.armed = false) :
    stage.listed = false := by
  cases stage <;> first | rfl | cases h

theorem perm_of_counts {events events' : List ConnectionEvent}
    (hconnected : events.count .connected = events'.count .connected)
    (hdisconnected : events.count .disconnected = events'.count .disconnected) :
    events.Perm events' := by
  refine List.perm_iff_count.mpr fun event => ?_
  cases event with
  | connected => exact hconnected
  | disconnected => exact hdisconnected

theorem connecting_of_resting (hinv : s.Inv) (hrest : Resting step Action.Inner s) :
    s.connecting = .connected ∨ s.connecting = .refused := by
  cases hc : s.connecting with
  | opening =>
      have hnone := hrest .activate trivial
      simp [step, hc, connectionsLocked_of_resting hinv hrest] at hnone
  | activating =>
      have hnone := hrest .markAnnounced trivial
      simp [step, hc] at hnone
  | announcing =>
      have hnone := hrest .announceConnected trivial
      simp [step, hc] at hnone
  | connected => exact .inl rfl
  | refused => exact .inr rfl

theorem enders_of_resting (hrest : Resting step Action.Inner s) : s.enders = [] := by
  cases he : s.enders with
  | nil => rfl
  | cons reason rest =>
      have hnone := hrest (.exchange 0) trivial
      simp [step, he] at hnone

theorem closed_of_resting (hrest : Resting step Action.Inner s) (h : s.Ending) :
    s.closed = true :=
  h.resolve_right fun henders => henders (enders_of_resting hrest)

theorem childWaited_of_resting (hrest : Resting step Action.Inner s) (hkill : s.kill = false) :
    s.childWaited = true := by
  by_contra hwaited
  have hnone := hrest .childKilled trivial
  simp [step, hkill, hwaited] at hnone

theorem Lifecycle.kill_of_finished (h : s.Lifecycle) {t : Termination}
    (ht : s.termination = some t) (hstage : t.stage = .finished) : s.kill = false := by
  rw [h.kill, ht, Option.all_some, hstage]
  rfl

/-- Where the tasks rest, a termination has left nothing. -/
theorem gone_of_resting (hinv : s.Inv) (h : s.Lifecycle) (hrest : Resting step Action.Inner s)
    {t : Termination} (ht : s.termination = some t) : s.Gone := by
  have hstage := finished_of_resting hinv hrest ht
  have hkill := h.kill_of_finished ht hstage
  refine ⟨Option.isSome_iff_exists.mpr ⟨t, ht⟩, ?_, ?_, hkill,
    hinv.locks.drained t ht (by rw [hstage]; rfl), childWaited_of_resting hrest hkill⟩
  · rw [hinv.listing.listed, ht, Option.all_some, hstage]
    rfl
  · rw [h.cancelled, ht, Option.any_some, hstage]
    rfl

variable (hinv : s.Inv) (h : s.Lifecycle)

include hinv h

theorem ordered : s.Ordered := by
  refine ⟨fun hc => ?_, fun hl => ?_, fun hk => ?_, fun he => ?_, fun he => ?_, ?_⟩
  · rw [h.cancelled] at hc
    obtain ⟨t, ht, -⟩ := Option.any_eq_true _ _ |>.mp hc
    exact Option.isSome_iff_exists.mpr ⟨t, ht⟩
  · rw [hinv.listing.listed] at hl
    obtain ⟨t, ht, hstage⟩ := exists_of_all_eq_false hl
    rw [h.cancelled, ht, Option.any_some]
    exact decide_eq_true fun he => by rw [he] at hstage; cases hstage
  · rw [h.kill] at hk
    obtain ⟨t, ht, hstage⟩ := exists_of_all_eq_false hk
    rw [hinv.listing.listed, ht]
    exact listed_of_not_armed hstage
  · have hpos := List.count_pos_iff.mpr he
    rw [hinv.listing.events] at hpos
    split at hpos
    · rename_i hfinished
      rw [Bool.and_eq_true] at hfinished
      obtain ⟨t, ht, hstage⟩ := Option.any_eq_true _ _ |>.mp hfinished.1
      have hstage : t.stage = .finished := of_decide_eq_true hstage
      exact ⟨hfinished.2, h.kill_of_finished ht hstage,
        hinv.locks.drained t ht (by rw [hstage]; rfl)⟩
    · cases hpos
  · have hpos := List.count_pos_iff.mpr he
    rw [h.connected] at hpos
    split at hpos
    · rename_i hconnected
      exact hinv.listing.announced.mpr (.inr hconnected)
    · cases hpos
  · refine List.nodup_iff_count_le_one.mpr fun event => ?_
    cases event with
    | connected =>
        rw [h.connected]
        split <;> omega
    | disconnected => exact disconnected_le hinv.listing

/-- Where the tasks rest, the connection was announced or refused, and it is live or gone. -/
theorem outcome_of_resting (hrest : Resting step Action.Inner s) : s.Outcome := by
  have hconnected := h.connected
  have hdisconnected := hinv.listing.events
  rcases connecting_of_resting hinv hrest with hc | hc
  · have hannounced := hinv.listing.announced.mpr (.inr hc)
    rw [hc] at hconnected
    rw [hannounced, Bool.and_true] at hdisconnected
    cases ht : s.termination with
    | none =>
        rw [ht] at hdisconnected
        have hopen : s.closed = false := by
          rw [closed, ht]
          rfl
        refine .live ⟨hc, hopen, by rw [hinv.listing.listed, ht]; rfl,
          by rw [h.cancelled, ht]; rfl, by rw [h.kill, ht]; rfl, ?_, List.perm_singleton.mp ?_⟩
        · refine Bool.eq_false_iff.mpr fun hwaited => ?_
          cases hopen.symm.trans (closed_of_resting hrest (h.waited hwaited))
        · exact perm_of_counts hconnected hdisconnected
    | some t =>
        rw [ht, Option.any_some, finished_of_resting hinv hrest ht] at hdisconnected
        exact .disconnected hc (gone_of_resting hinv h hrest ht)
          (perm_of_counts hconnected hdisconnected)
  · obtain ⟨t, ht⟩ := Option.isSome_iff_exists.mp (closed_of_resting hrest (h.refused hc))
    have hannounced : s.announced = false := by
      rw [Bool.eq_false_iff, ne_eq, hinv.listing.announced, hc]
      rintro (he | he) <;> cases he
    rw [hc] at hconnected
    rw [hannounced, Bool.and_false] at hdisconnected
    exact .refused hc (gone_of_resting hinv h hrest ht)
      (List.perm_nil.mp (perm_of_counts hconnected hdisconnected))

end Ending

section Outcomes

theorem lifecycle_after (id : String) (actions : List Action) :
    (after id actions).Inv ∧ (after id actions).Lifecycle :=
  attempt_invariant (P := fun s : McpConnection => s.Inv ∧ s.Lifecycle)
    (fun _ _ _ hs hstep => ⟨hs.1.step hstep, hs.2.step hs.1 hstep⟩)
    ⟨inv_opened id, lifecycle_opened id⟩ actions

/-- Whatever has happened to a connection: it ends in one order, and what is left of it when
its tasks rest, as they can always come to do by themselves, is a live connection that was
announced, or nothing, with both ends announced or none. A connection whose opening was
refused is never left behind. -/
theorem connection_outcome (id : String) (actions : List Action) :
    (after id actions).Ordered ∧
    (Resting step Action.Inner (after id actions) → (after id actions).Outcome) ∧
    ∃ further, InnerRun step Action.Inner (after id actions) further ∧
      Resting step Action.Inner (after id (actions ++ further)) ∧
      (after id (actions ++ further)).Outcome := by
  obtain ⟨hinv, h⟩ := lifecycle_after id actions
  refine ⟨ordered hinv h, outcome_of_resting hinv h, ?_⟩
  obtain ⟨further, hrun, hrest⟩ := settles.rests (after id actions) hinv
  rw [← after_append] at hrest
  obtain ⟨hinv', h'⟩ := lifecycle_after id (actions ++ further)
  exact ⟨further, hrun, hrest, outcome_of_resting hinv' h' hrest⟩

-- The child exits between the mark of the announcement and the announcement.
example : (after "mcp" [.activate, .markAnnounced, .childExited disconnected, .exchange 0,
    .terminate, .terminate, .terminate, .terminate, .terminate, .terminate,
    .announceConnected]).events = [.disconnected, .connected] := by
  decide

end Outcomes

end McpConnection

end Attyd.Mcp
