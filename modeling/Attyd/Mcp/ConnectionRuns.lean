import Attyd.Mcp.ConnectionLocks

/-!
# Every message call ends once

Whatever the calls, the server and those who end the connection do, and in whatever order:
a call that registered a request ends with one result, which is its own, once the tasks
that are left have run; nothing waits in the table of a connection that was ended.
-/

namespace Attyd.Mcp

open Json (Value)

namespace McpConnection

variable {s s' : McpConnection} {i : Nat} {call : MessageCall}

section Step

/-- Where the senders are, who holds the locks, and what the manager's table has. -/
structure Inv (s : McpConnection) : Prop where
  senders : s.Senders
  locks : s.Locks
  listing : s.Listing

theorem inv_opened (id : String) : (opened id).Inv := by
  have hnone : ∀ (i : Nat) (call : MessageCall), (opened id).calls[i]? ≠ some call := by
    intro i call h
    cases h
  refine ⟨⟨fun i call hi => absurd hi (hnone i call), fun i j a b n hi => absurd hi (hnone i a),
    fun key pending hp => ?_, fun value id' hv => ?_, fun value i hv => ?_⟩,
    ⟨?_, fun t ht => ?_, fun hl => ?_, fun t ht => ?_⟩, ⟨rfl, rfl, ?_, fun h => ?_, ?_, rfl⟩⟩
  · cases (Finmap.lookup_empty key).symm.trans hp
  · cases hv
  · cases hv
  · rintro j ⟨call, hj, -⟩
    exact absurd hj (hnone j call)
  · cases ht
  · cases hl
  · cases ht
  · exact iff_of_false (fun h => by cases h) fun h => by cases h
  · cases h
  · refine iff_of_false (fun h => by cases h) fun h => ?_
    rcases h with h | h <;> cases h

theorem callAt_eq_some {stage : CallStage} (h : s.callAt i stage = some call) :
    s.calls[i]? = some call ∧ call.stage = stage := by
  obtain ⟨hi, hstage⟩ := Option.filter_eq_some_iff.mp h
  exact ⟨hi, by simpa using hstage⟩

/-- Steps of who ends the connection, and of the request that opened it. -/
theorem Inv.of_same (h : s.Inv) (hcalls : s'.calls = s.calls) (hpending : s'.pending = s.pending)
    (hnext : s'.nextRequestId = s.nextRequestId) (hterm : s'.termination = s.termination)
    (hlocked : s'.pendingLocked = s.pendingLocked)
    (hdelivering : ∀ value i, s'.reader = .delivering value i ↔ s.reader = .delivering value i)
    (hremoving : ∀ value id, s'.reader = .removing value id → responseId value = some id)
    (hlisting : s'.Listing) : s'.Inv where
  senders := h.senders.of_same hcalls hpending hnext (fun _ hreason => by rw [hterm]; exact hreason)
    hdelivering hremoving
  locks := h.locks.of_same (fun j => by unfold Inserts; rw [hcalls]) hlocked hterm fun hempty =>
    hpending.trans hempty
  listing := hlisting

/-- One call goes on, and nothing else changes. -/
theorem Inv.setStage (h : s.Inv) (hi : s.calls[i]? = some call) {stage : CallStage}
    (hold : call.stage ≠ .inserting) (hnew : stage ≠ .inserting)
    (hentry : ∀ key pending, s.pending.lookup key = some pending → pending.call = i →
      stage.awaiting = true)
    (hok : s.CallOk i { call with stage }) : (s.setStage i call stage).Inv where
  senders := h.senders.setCall hi rfl (fun hreg => hreg) rfl hentry hok
  locks := h.locks.setCall hi (iff_of_false hnew hold)
  listing := h.listing.of_same rfl rfl rfl rfl rfl rfl rfl

/-- A call that has registered nothing goes on, or is rejected. -/
theorem Inv.early (h : s.Inv) (hi : s.calls[i]? = some call) {stage : CallStage}
    (hreg : call.stage.registered = false) (hold : call.stage ≠ .inserting)
    (hnew : stage ≠ .inserting) (hstage : stage.registered = false)
    (hnumbered : stage.numbered = true → call.number.isSome = true) :
    (s.setStage i call stage).Inv := by
  have hok := h.senders.calls i call hi
  have hunregistered := hok.registered.trans hreg
  refine h.setStage hi hold hnew (fun key pending hp he => ?_)
    (callOk_of_not_registered hnumbered hok.below hunregistered hstage (hok.unused hunregistered))
  have haw : call.stage.awaiting = false := by
    cases haw : call.stage.awaiting with
    | false => rfl
    | true => cases (registered_of_awaiting haw).symm.trans hreg
  exact absurd he (not_entry_of_not_awaiting h.senders hi haw hp)

/-- A call that waits for its result goes on waiting. -/
theorem Inv.awaits (h : s.Inv) (hi : s.calls[i]? = some call) (haw : call.stage.awaiting = true)
    {stage : CallStage} (hstage : stage.awaiting = true) (hreached : s.Reached call stage) :
    (s.setStage i call stage).Inv := by
  have hok := h.senders.calls i call hi
  refine h.setStage hi ?_ ?_ (fun _ _ _ _ => hstage) ⟨fun _ => hok.numbered
    (numbered_of_awaiting haw), hok.below, ?_, hok.unused, fun _ => hok.custody haw, hok.sent,
    fun hdropped _ => hok.dropped hdropped haw, ?_⟩
  · intro he
    rw [he] at haw
    cases haw
  · rintro rfl
    cases hstage
  · exact hok.registered.trans ((registered_of_awaiting haw).trans
      (registered_of_awaiting hstage).symm)
  · cases stage <;> exact hreached

/-- A call that has registered ends, and its sender has been used. -/
theorem Inv.ends (h : s.Inv) (hi : s.calls[i]? = some call) (hreg : call.stage.registered = true)
    {outcome : CallOutcome} (hstage : (CallStage.ended outcome).registered = true)
    (hentry : ∀ key pending, s.pending.lookup key = some pending → pending.call ≠ i)
    (hreached : s.Reached call (.ended outcome)) : (s.setStage i call (.ended outcome)).Inv := by
  have hok := h.senders.calls i call hi
  have hnumbered : call.stage.numbered = true := by
    cases hs : call.stage <;> rw [hs] at hreg <;> first | exact hreg | rfl
  refine h.setStage hi ?_ (fun he => by cases he)
    (fun key pending hp he => absurd he (hentry key pending hp))
    ⟨fun _ => hok.numbered hnumbered, hok.below, hok.registered.trans (hreg.trans hstage.symm),
      hok.unused, ?_, hok.sent, ?_, ?_⟩
  · intro he
    rw [he] at hreg
    cases hreg
  · exact fun haw => by cases haw
  · exact fun _ haw => by cases haw
  · cases outcome <;> exact hreached

/-- The entry of a call is in the table only while its channel is open. -/
theorem not_entry_of_used (h : s.Senders) (hi : s.calls[i]? = some call)
    (hused : call.channel ≠ .open) {key : String} {pending : PendingMcpRequest}
    (hp : s.pending.lookup key = some pending) : pending.call ≠ i := by
  rintro rfl
  obtain ⟨other, hother, -, -, hopen⟩ := h.entry key pending hp
  cases Option.some.inj (hi.symm.trans hother)
  exact hused hopen

theorem Inv.requestCancel (h : s.Inv) (hi : s.calls[i]? = some call) :
    (s.setCall i { call with cancelRequested := true }).Inv where
  senders := by
    have hok := h.senders.calls i call hi
    refine h.senders.setCall hi rfl (fun hreg => hreg) rfl (fun key pending hp he => ?_)
      ⟨hok.numbered, hok.below, hok.registered, hok.unused, hok.custody, hok.sent, hok.dropped, ?_⟩
    · obtain ⟨other, hother, haw, -⟩ := h.senders.entry key pending hp
      rw [he, hi] at hother
      cases hother
      exact haw
    · have hreached := hok.reached
      change s.Reached _ call.stage
      cases hs : call.stage with
      | ended outcome =>
          rw [hs] at hreached
          cases outcome with
          | cancelled => exact .inl rfl
          | _ => exact hreached
      | withdrawing => rfl
      | retracting => rfl
      | _ => trivial
  locks := h.locks.setCall hi Iff.rfl
  listing := h.listing.of_same rfl rfl rfl rfl rfl rfl rfl

theorem Inv.withdrawRequest (h : s.Inv) (hi : s.calls[i]? = some call)
    (haw : call.stage.awaiting = true) {stage : CallStage} (hstage : stage.awaiting = false)
    (hreg : stage.registered = true) (hreached : s.Reached call stage) :
    (s.withdrawRequest i call stage).Inv where
  senders := h.senders.withdrawRequest hi haw hstage hreg hreached
  locks := by
    refine h.locks.withdrawRequest hi (fun he => ?_) fun he => ?_
    · rw [he] at haw
      cases haw
    · rw [he] at hreg
      cases hreg
  listing := by
    have hset : (s.setStage i call stage).Listing :=
      h.listing.of_same rfl rfl rfl rfl rfl rfl rfl
    exact hset.dropPending call.key

theorem Senders.lockPending (h : s.Senders) (hi : s.calls[i]? = some call)
    (hstage : call.stage = .locking) : (s.lockPending i call).Senders := by
  have hok := h.calls i call hi
  have hunregistered : call.registered = false := by
    rw [hok.registered, hstage]
    rfl
  have hset (t : McpConnection) (ht : t.Senders) (hti : t.calls[i]? = some call)
      (stage : CallStage) (hreg : stage.registered = false) : (t.setStage i call stage).Senders := by
    have htok := ht.calls i call hti
    refine ht.setCall hti rfl (fun hr => hr) rfl (fun key pending hp he => absurd he
      (not_entry_of_not_awaiting ht hti (by rw [hstage]; rfl) hp))
      (callOk_of_not_registered (fun _ => htok.numbered (by rw [hstage]; rfl)) htok.below
        hunregistered hreg (htok.unused hunregistered))
  unfold McpConnection.lockPending
  split
  · exact hset s h hi _ rfl
  · refine hset { s with pendingLocked := true } ?_ hi _ rfl
    exact h.of_same rfl rfl rfl (fun _ hreason => hreason) (fun _ _ => Iff.rfl) h.removing

/-- A reader that has nothing in its hand before and after. -/
theorem idle_reader {reader reader' : Reader} (h : reader = .reading)
    (h' : ∀ value i, reader' ≠ .delivering value i) (value : Value) (i : Nat) :
    reader' = .delivering value i ↔ reader = .delivering value i := by
  refine iff_of_false (h' value i) fun hv => ?_
  cases h.symm.trans hv

/-- The reader of a line goes on to take an entry out, or has nothing to do. -/
theorem route_reader (s : McpConnection) (value : Value) :
    (∀ value' i, (s.route value).reader ≠ .delivering value' i) ∧
      ∀ value' id, (s.route value).reader = .removing value' id → responseId value' = some id := by
  unfold McpConnection.route
  cases s.closed with
  | true => exact ⟨fun _ _ hv => (by cases hv), fun _ _ hv => by cases hv⟩
  | false =>
      cases hid : responseId value with
      | none => exact ⟨fun _ _ hv => (by cases hv), fun _ _ hv => by cases hv⟩
      | some id =>
          refine ⟨fun _ _ hv => (by cases hv), fun value' id' hv => ?_⟩
          cases hv
          exact hid

theorem Senders.terminate (h : s.Senders) (hs : s.terminate = some s') : s'.Senders := by
  obtain ⟨t, ht, hs⟩ := Option.bind_eq_some_iff.mp hs
  have hset : ∀ (u : McpConnection) stage, u.calls = s.calls → u.pending = s.pending →
      u.nextRequestId = s.nextRequestId → u.termination = s.termination →
      u.reader = s.reader → (u.setTermination stage).Senders := by
    intro u stage hcalls hpending hnext hterm hreader
    refine h.of_same hcalls hpending hnext (fun reason hreason => ?_) (fun value i => ?_)
      fun value id hv => h.removing value id (hreader.symm.trans hv)
    · unfold setTermination
      rw [hterm, Option.map_map]
      exact hreason
    · change u.reader = _ ↔ _
      rw [hreader]
  cases hstage : t.stage with
  | cancelling =>
      rw [hstage] at hs
      cases hs
      exact hset _ _ rfl rfl rfl rfl rfl
  | removing =>
      rw [hstage] at hs
      dsimp only at hs
      split at hs
      · cases hs
      · cases hs
        exact hset _ _ rfl rfl rfl rfl rfl
  | killing =>
      rw [hstage] at hs
      cases hs
      exact hset _ _ rfl rfl rfl rfl rfl
  | locking =>
      rw [hstage] at hs
      dsimp only at hs
      split at hs
      · cases hs
      · cases hs
        exact hset _ _ rfl rfl rfl rfl rfl
  | draining =>
      rw [hstage] at hs
      dsimp only at hs
      split at hs
      · cases hs
        exact hset _ _ rfl rfl rfl rfl rfl
      · cases hs
  | announcing =>
      rw [hstage] at hs
      cases hs
      exact hset _ _ rfl rfl rfl rfl rfl
  | finished =>
      rw [hstage] at hs
      cases hs

/-- The request that opened the connection gives up before it was active. -/
theorem Listing.leaves (h : s.Listing) (hopening : s.connecting = .opening)
    (hconnecting : s'.connecting = .refused) (hlisted : s'.listed = s.listed)
    (hterm : s'.termination = s.termination) (hremovals : s'.removals = s.removals)
    (hlocked : s'.connectionsLocked = s.connectionsLocked)
    (hsame : s'.announced = s.announced ∧ s'.events = s.events) : s'.Listing := by
  refine ⟨?_, ?_, ?_, fun he => ?_, ?_, ?_⟩
  · rw [hlisted, hterm]
    exact h.listed
  · rw [hremovals, hlisted]
    exact h.removals
  · rw [hlocked, hconnecting, h.locked, hopening]
    exact iff_of_false (fun he => by cases he) fun he => by cases he
  · cases hconnecting.symm.trans he
  · rw [hsame.1, hconnecting, h.announced, hopening]
    refine iff_of_false (fun he => ?_) fun he => ?_
    · rcases he with he | he <;> cases he
    · rcases he with he | he <;> cases he
  · rw [hsame.2, hsame.1, hterm]
    exact h.events

/-- An announcement is marked while the connection is on the manager's table, so its end has
not been announced. -/
theorem Listing.markAnnounced (h : s.Listing) (hactivating : s.connecting = .activating) :
    ({ s with
      connecting := .announcing, announced := true, connectionsLocked := false } :
        McpConnection).Listing := by
  have hlisted := h.listed.symm.trans (h.activating hactivating)
  have hnot : s.termination.any (fun t => t.stage = .finished) = false := by
    cases ht : s.termination with
    | none => rfl
    | some t =>
        rw [ht, Option.all_some] at hlisted
        cases hstage : t.stage <;> rw [hstage] at hlisted <;>
          first | cases hlisted; done | simp [hstage]
  refine ⟨h.listed, h.removals, iff_of_false (fun hl => by cases hl) fun he => (by cases he),
    fun he => (by cases he), iff_of_true rfl (.inl rfl), ?_⟩
  have hevents := h.events
  rw [hnot] at hevents
  change s.events.count .disconnected = _
  rw [hevents, hnot]
  rfl

/-- One step of any task. -/
theorem Inv.step (h : s.Inv) {action : Action} (hs : s.step action = some s') : s'.Inv := by
  have hsame {t : McpConnection} (hreader : t.reader = s.reader) (value : Value) (i : Nat) :
      t.reader = .delivering value i ↔ s.reader = .delivering value i := by rw [hreader]
  have hremoving {t : McpConnection} (hreader : t.reader = s.reader) (value : Value) (id : String)
      (hv : t.reader = .removing value id) : responseId value = some id :=
    h.senders.removing value id (hreader.symm.trans hv)
  cases action with
  | message method =>
      cases hs
      exact ⟨h.senders.message method, h.locks.message method,
        h.listing.of_same rfl rfl rfl rfl rfl rfl rfl⟩
  | requestCancel i =>
      obtain ⟨call, hi, rfl⟩ := Option.map_eq_some_iff.mp hs
      exact h.requestCancel hi
  | require i =>
      unfold McpConnection.step at hs
      dsimp only at hs
      split at hs
      · cases hs
      · obtain ⟨call, hcall, rfl⟩ := Option.map_eq_some_iff.mp hs
        obtain ⟨hi, hstage⟩ := callAt_eq_some hcall
        unfold McpConnection.require
        split
        · exact h.early hi (by rw [hstage]; rfl) (by rw [hstage]; decide) (by decide) rfl
            fun hn => by cases hn
        · exact h.early hi (by rw [hstage]; rfl) (by rw [hstage]; decide)
            (fun he => by cases he) rfl fun hn => by cases hn
  | number i =>
      obtain ⟨call, hcall, rfl⟩ := Option.map_eq_some_iff.mp hs
      obtain ⟨hi, hstage⟩ := callAt_eq_some hcall
      refine ⟨h.senders.takeNumber hi hstage, ?_, h.listing.of_same rfl rfl rfl rfl rfl rfl rfl⟩
      have hlocks : (s.setCall i { call with
          number := some s.nextRequestId, stage := .locking }).Locks :=
        h.locks.setCall hi (iff_of_false (fun he => by cases he) fun he => by
          cases hstage.symm.trans he)
      exact hlocks.of_same (fun _ => Iff.rfl) rfl rfl fun hempty => hempty
  | lockPending i =>
      unfold McpConnection.step at hs
      dsimp only at hs
      split at hs
      · cases hs
      · rename_i hfree
        obtain ⟨call, hcall, rfl⟩ := Option.map_eq_some_iff.mp hs
        obtain ⟨hi, hstage⟩ := callAt_eq_some hcall
        refine ⟨h.senders.lockPending hi hstage, h.locks.lockPending hi hstage
          (Bool.not_eq_true _ ▸ hfree), ?_⟩
        unfold McpConnection.lockPending
        split
        · exact h.listing.of_same rfl rfl rfl rfl rfl rfl rfl
        · exact h.listing.of_same rfl rfl rfl rfl rfl rfl rfl
  | insert i =>
      obtain ⟨call, hcall, rfl⟩ := Option.map_eq_some_iff.mp hs
      obtain ⟨hi, hstage⟩ := callAt_eq_some hcall
      exact ⟨h.senders.insertRequest hi hstage, h.locks.insertRequest hi hstage,
        (h.listing.dropPending call.key).of_same rfl rfl rfl rfl rfl rfl rfl⟩
  | wrote i =>
      obtain ⟨call, hcall, rfl⟩ := Option.map_eq_some_iff.mp hs
      obtain ⟨hi, hstage⟩ := callAt_eq_some hcall
      exact h.awaits hi (by rw [hstage]; rfl) rfl trivial
  | writeFailed i error =>
      obtain ⟨call, hcall, rfl⟩ := Option.map_eq_some_iff.mp hs
      obtain ⟨hi, hstage⟩ := callAt_eq_some hcall
      exact h.awaits hi (by rw [hstage]; rfl) rfl trivial
  | unregister i =>
      obtain ⟨call, hi, hs⟩ := Option.bind_eq_some_iff.mp hs
      split at hs
      · rename_i error hstage
        split at hs
        · cases hs
        · cases hs
          exact h.withdrawRequest hi (by rw [hstage]; rfl) rfl rfl trivial
      · cases hs
  | receive i =>
      obtain ⟨call, hcall, hs⟩ := Option.bind_eq_some_iff.mp hs
      obtain ⟨hi, hstage⟩ := callAt_eq_some hcall
      have hok := h.senders.calls i call hi
      unfold McpConnection.receive at hs
      cases hchannel : call.channel with
      | «open» =>
          rw [hchannel] at hs
          cases hs
      | sent result =>
          rw [hchannel] at hs
          cases hs
          exact h.ends hi (by rw [hstage]; rfl) rfl (fun key pending => not_entry_of_used h.senders
            hi (by rw [hchannel]; exact fun he => by cases he)) (hok.sent result hchannel)
      | dropped =>
          rw [hchannel] at hs
          cases hs
          exact h.ends hi (by rw [hstage]; rfl) rfl (fun key pending => not_entry_of_used h.senders
            hi (by rw [hchannel]; exact fun he => by cases he))
            (.inr (hok.dropped hchannel (by rw [hstage]; rfl)))
  | withdraw i =>
      obtain ⟨call, hcall, rfl⟩ := Option.map_eq_some_iff.mp hs
      obtain ⟨hcall, hcancel⟩ := Option.filter_eq_some_iff.mp hcall
      obtain ⟨hi, hstage⟩ := callAt_eq_some hcall
      exact h.awaits hi (by rw [hstage]; rfl) rfl hcancel
  | removeWithdrawn i =>
      unfold McpConnection.step at hs
      dsimp only at hs
      split at hs
      · cases hs
      · obtain ⟨call, hcall, rfl⟩ := Option.map_eq_some_iff.mp hs
        obtain ⟨hi, hstage⟩ := callAt_eq_some hcall
        have hreached := (h.senders.calls i call hi).reached
        rw [hstage] at hreached
        exact h.withdrawRequest hi (by rw [hstage]; rfl) rfl rfl hreached
  | retracted i =>
      obtain ⟨call, hcall, rfl⟩ := Option.map_eq_some_iff.mp hs
      obtain ⟨hi, hstage⟩ := callAt_eq_some hcall
      have hreached := (h.senders.calls i call hi).reached
      rw [hstage] at hreached
      exact h.ends hi (by rw [hstage]; rfl) rfl (fun key pending =>
        not_entry_of_not_awaiting h.senders hi (by rw [hstage]; rfl)) (.inl hreached)
  | disconnect =>
      unfold McpConnection.step at hs
      dsimp only at hs
      split at hs
      · cases hs
        exact h.of_same rfl rfl rfl rfl rfl (hsame rfl) (hremoving rfl)
          (h.listing.of_same rfl rfl rfl rfl rfl rfl rfl)
      · cases hs
  | closeAll =>
      unfold McpConnection.step at hs
      dsimp only at hs
      split at hs
      · cases hs
        exact h.of_same rfl rfl rfl rfl rfl (hsame rfl) (hremoving rfl)
          (h.listing.of_same rfl rfl rfl rfl rfl rfl rfl)
      · cases hs
  | childExited reason =>
      unfold McpConnection.step at hs
      dsimp only at hs
      split at hs
      · cases hs
      · cases hs
        exact h.of_same rfl rfl rfl rfl rfl (hsame rfl) (hremoving rfl)
          (h.listing.of_same rfl rfl rfl rfl rfl rfl rfl)
  | childKilled =>
      unfold McpConnection.step at hs
      dsimp only at hs
      split at hs
      · cases hs
      · cases hs
        exact h.of_same rfl rfl rfl rfl rfl (hsame rfl) (hremoving rfl)
          (h.listing.of_same rfl rfl rfl rfl rfl rfl rfl)
  | readerFailed reason =>
      unfold McpConnection.step at hs
      cases hreader : s.reader with
      | reading =>
          rw [hreader] at hs
          cases hs
          exact h.of_same rfl rfl rfl rfl rfl (idle_reader hreader (fun _ _ hv => by cases hv))
            (fun _ _ hv => by cases hv) (h.listing.of_same rfl rfl rfl rfl rfl rfl rfl)
      | _ =>
          rw [hreader] at hs
          cases hs
  | readerEnded =>
      unfold McpConnection.step at hs
      cases hreader : s.reader with
      | reading =>
          rw [hreader] at hs
          cases hs
          exact h.of_same rfl rfl rfl rfl rfl (idle_reader hreader (fun _ _ hv => by cases hv))
            (fun _ _ hv => by cases hv) (h.listing.of_same rfl rfl rfl rfl rfl rfl rfl)
      | _ =>
          rw [hreader] at hs
          cases hs
  | connectCancelled =>
      unfold McpConnection.step at hs
      dsimp only at hs
      split at hs
      · rename_i hopening
        cases hs
        refine h.of_same rfl rfl rfl rfl rfl (hsame rfl) (hremoving rfl) ?_
        exact h.listing.leaves hopening rfl rfl rfl rfl rfl ⟨rfl, rfl⟩
      · cases hs
  | exchange ender =>
      obtain ⟨reason, -, rfl⟩ := Option.map_eq_some_iff.mp hs
      refine ⟨h.senders.of_same rfl rfl rfl (fun reason' hreason => ?_) (hsame rfl) (hremoving rfl),
        h.locks.exchange ender reason, h.listing.exchange ender reason⟩
      unfold McpConnection.exchange
      obtain ⟨t, ht, rfl⟩ := Option.map_eq_some_iff.mp hreason
      rw [ht]
      rfl
  | terminate =>
      exact ⟨h.senders.terminate hs, h.locks.terminate hs, h.listing.terminate hs⟩
  | drain id =>
      obtain ⟨t, ht, hs⟩ := Option.bind_eq_some_iff.mp hs
      obtain ⟨pending, hp, hs⟩ := Option.bind_eq_some_iff.mp hs
      cases hs
      obtain ⟨ht, -⟩ := Option.filter_eq_some_iff.mp ht
      exact ⟨h.senders.drain ht hp, (h.locks.takeOut id s.reader).setChannel _ _,
        h.listing.of_same rfl rfl rfl rfl rfl rfl rfl⟩
  | serverSends value =>
      unfold McpConnection.step at hs
      cases hreader : s.reader with
      | reading =>
          rw [hreader] at hs
          cases hs
          exact h.of_same rfl rfl rfl rfl rfl (idle_reader hreader (fun _ _ hv => by cases hv))
            (fun _ _ hv => by cases hv) (h.listing.of_same rfl rfl rfl rfl rfl rfl rfl)
      | _ =>
          rw [hreader] at hs
          cases hs
  | route =>
      unfold McpConnection.step at hs
      cases hreader : s.reader with
      | routing value =>
          rw [hreader] at hs
          cases hs
          obtain ⟨hdelivering, hremoved⟩ := route_reader s value
          refine h.of_same rfl rfl rfl rfl rfl (fun value' i => ?_) hremoved
            (h.listing.of_same rfl rfl rfl rfl rfl rfl rfl)
          exact iff_of_false (hdelivering value' i) fun hv => by cases hreader.symm.trans hv
      | _ =>
          rw [hreader] at hs
          cases hs
  | takePending =>
      unfold McpConnection.step at hs
      cases hreader : s.reader with
      | removing value id =>
          rw [hreader] at hs
          dsimp only at hs
          split at hs
          · cases hs
          · cases hs
            refine ⟨h.senders.takePending hreader, ?_, ?_⟩
            · unfold McpConnection.takePending
              split
              · exact h.locks.of_same (fun _ => Iff.rfl) rfl rfl fun hempty => hempty
              · exact h.locks.takeOut id _
            · unfold McpConnection.takePending
              split
              · exact h.listing.of_same rfl rfl rfl rfl rfl rfl rfl
              · exact h.listing.of_same rfl rfl rfl rfl rfl rfl rfl
      | _ =>
          rw [hreader] at hs
          cases hs
  | deliver =>
      unfold McpConnection.step at hs
      cases hreader : s.reader with
      | delivering value i =>
          rw [hreader] at hs
          cases hs
          have hlocks : ({ s with reader := .reading } : McpConnection).Locks :=
            h.locks.of_same (fun _ => Iff.rfl) rfl rfl fun hempty => hempty
          exact ⟨h.senders.deliver hreader, hlocks.setChannel _ _,
            h.listing.of_same rfl rfl rfl rfl rfl rfl rfl⟩
      | _ =>
          rw [hreader] at hs
          cases hs
  | activate =>
      unfold McpConnection.step at hs
      dsimp only at hs
      split at hs
      · rename_i hopening
        cases hs
        split
        · rename_i hactive
          rw [Bool.and_eq_true] at hactive
          refine h.of_same rfl rfl rfl rfl rfl (hsame rfl) (hremoving rfl) ⟨h.listing.listed,
            h.listing.removals, iff_of_true rfl rfl, fun _ => hactive.1, ?_, h.listing.events⟩
          refine iff_of_false (fun ha => ?_) fun hc => by rcases hc with hc | hc <;> cases hc
          rcases h.listing.announced.mp ha with hc | hc <;> cases hopening.1.symm.trans hc
        · refine h.of_same rfl rfl rfl rfl rfl (hsame rfl) (hremoving rfl) ?_
          exact h.listing.leaves hopening.1 rfl rfl rfl rfl rfl ⟨rfl, rfl⟩
      · cases hs
  | markAnnounced =>
      unfold McpConnection.step at hs
      dsimp only at hs
      split at hs
      · rename_i hactivating
        cases hs
        refine h.of_same rfl rfl rfl rfl rfl (hsame rfl) (hremoving rfl) ?_
        exact h.listing.markAnnounced hactivating
      · cases hs
  | announceConnected =>
      unfold McpConnection.step at hs
      dsimp only at hs
      split at hs
      · rename_i hannouncing
        cases hs
        refine h.of_same rfl rfl rfl rfl rfl (hsame rfl) (hremoving rfl) ⟨h.listing.listed,
          h.listing.removals, ?_, fun he => (by cases he), ?_, ?_⟩
        · refine iff_of_false (fun hl => ?_) fun he => by cases he
          cases hannouncing.symm.trans (h.listing.locked.mp hl)
        · exact iff_of_true (h.listing.announced.mpr (.inl hannouncing)) (.inr rfl)
        · simpa using h.listing.events
      · cases hs

end Step

end McpConnection

end Attyd.Mcp
