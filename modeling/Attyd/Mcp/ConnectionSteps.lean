import Attyd.Mcp.Connection

/-!
# Where the sender of a message call is

While a registered call waits, its sender is in the table under the id of the call, or in
the hand of the reader, or it has been used. What ends the connection takes the lock of the
table only when no call is inserting, and no call inserts once it has.

## Implementation notes

Most steps change the stage of one call and nothing else; those that move a sender change
one entry of the table, the reader and one channel. One lemma for each of the two kinds
carries the invariant.
-/

namespace Attyd.Mcp

open Json (Value)

section Stages

/-- The stages in which a registered call listens to its channel. -/
def CallStage.awaiting : CallStage → Bool
  | writing | unregistering _ | waiting | withdrawing => true
  | _ => false

/-- The stages of a call that has registered a request. -/
def CallStage.registered : CallStage → Bool
  | writing | unregistering _ | waiting | withdrawing | retracting => true
  | ended (.rejected _) => false
  | ended _ => true
  | _ => false

/-- The stages of a call that has its number. -/
def CallStage.numbered : CallStage → Bool
  | locking | inserting => true
  | stage => stage.registered

/-- The stages of a termination before it empties the table. -/
def TerminateStage.early : TerminateStage → Bool
  | cancelling | removing | killing | locking => true
  | _ => false

/-- The stages of a termination after it has emptied the table. -/
def TerminateStage.drained : TerminateStage → Bool
  | announcing | finished => true
  | _ => false

/-- The stages of a termination before it takes the connection off the manager's table. -/
def TerminateStage.listed : TerminateStage → Bool
  | cancelling | removing => true
  | _ => false

end Stages

namespace McpConnection

def delivers (s : McpConnection) (i : Nat) : Prop := ∃ value, s.reader = .delivering value i

/-- Where a result comes from: a response to the id of the call, or the termination. -/
def Origin (s : McpConnection) (call : MessageCall) : PendingResult → Prop
  | .response value => responseId value = some call.key
  | .terminated reason => s.termination.map (·.reason) = some reason

/-- The counter of the requests has wrapped. -/
def Wrapped (s : McpConnection) : Prop := 2 ^ 64 ≤ s.nextRequestId

/-- What a stage says about how the call came there. -/
def Reached (s : McpConnection) (call : MessageCall) : CallStage → Prop
  | .ended (.delivered result) => s.Origin call result
  | .ended .cancelled => call.cancelRequested = true ∨ s.Wrapped
  | .withdrawing | .retracting => call.cancelRequested = true
  | _ => True

structure CallOk (s : McpConnection) (i : Nat) (call : MessageCall) : Prop where
  numbered : call.stage.numbered = true → call.number.isSome = true
  below : ∀ n, call.number = some n → n < s.nextRequestId
  registered : call.registered = call.stage.registered
  unused : call.registered = false → call.channel = .open
  custody : call.stage.awaiting = true → call.channel = .open →
    (∃ pending, s.pending.lookup call.key = some pending ∧ pending.call = i) ∨ s.delivers i
  sent : ∀ result, call.channel = .sent result → s.Origin call result
  dropped : call.channel = .dropped → call.stage.awaiting = true → s.Wrapped
  reached : s.Reached call call.stage

/-- Where the sender of every call is. -/
structure Senders (s : McpConnection) : Prop where
  calls : ∀ (i : Nat) (call : MessageCall), s.calls[i]? = some call → s.CallOk i call
  distinct : ∀ (i j : Nat) (a b : MessageCall) (n : Nat), s.calls[i]? = some a →
    s.calls[j]? = some b → a.number = some n → b.number = some n → i = j
  entry : ∀ key pending, s.pending.lookup key = some pending →
    ∃ call : MessageCall, s.calls[pending.call]? = some call ∧ call.stage.awaiting = true ∧
      call.key = key ∧ call.channel = .open
  removing : ∀ value id, s.reader = .removing value id → responseId value = some id
  hand : ∀ value (i : Nat), s.reader = .delivering value i →
    ∃ call : MessageCall, s.calls[i]? = some call ∧ call.registered = true ∧
      responseId value = some call.key ∧ call.channel = .open ∧
      ∀ key pending, s.pending.lookup key = some pending → pending.call ≠ i

/-- The call that is inserting, under the lock of the table. -/
def Inserts (s : McpConnection) (i : Nat) : Prop :=
  ∃ call : MessageCall, s.calls[i]? = some call ∧ call.stage = .inserting

/-- Who holds the lock of the table. -/
structure Locks (s : McpConnection) : Prop where
  inserting : ∀ i, s.Inserts i →
    s.pendingLocked = true ∧ (∀ t, s.termination = some t → t.stage.early = true) ∧
      ∀ j, s.Inserts j → j = i
  draining : ∀ t, s.termination = some t → t.stage = .draining → s.pendingLocked = true
  held : s.pendingLocked = true →
    (∃ i, s.Inserts i) ∨ ∃ t, s.termination = some t ∧ t.stage = .draining
  drained : ∀ t, s.termination = some t → t.stage.drained = true → s.pending = ∅

/-- The manager's table, and what is announced. -/
structure Listing (s : McpConnection) : Prop where
  listed : s.listed = s.termination.all (·.stage.listed)
  removals : s.removals = if s.listed then 0 else 1
  locked : s.connectionsLocked = true ↔ s.connecting = .activating
  activating : s.connecting = .activating → s.listed = true
  announced : s.announced = true ↔ s.connecting = .announcing ∨ s.connecting = .connected
  events : s.events.count .disconnected =
    if s.termination.any (·.stage = .finished) && s.announced then 1 else 0

end McpConnection

section Lists

variable {α : Type*}

theorem getElem?_set_of_some {l : List α} {i : Nat} {a : α} (h : l[i]? = some a) (b : α)
    (j : Nat) : (l.set i b)[j]? = if i = j then some b else l[j]? := by
  have hi : i < l.length := (List.getElem?_eq_some_iff.mp h).1
  rw [List.getElem?_set]
  by_cases he : i = j
  · subst he
    rw [if_pos rfl, if_pos hi, if_pos rfl]
  · rw [if_neg he, if_neg he]

theorem getElem?_modify_of_some {l : List α} {i : Nat} {a : α} (h : l[i]? = some a) (f : α → α)
    (j : Nat) : (l.modify i f)[j]? = if i = j then some (f a) else l[j]? := by
  rw [List.getElem?_modify]
  by_cases he : i = j
  · subst he
    simp [h]
  · simp [he]

end Lists

namespace McpConnection

variable {s s' : McpConnection} {i : Nat} {call : MessageCall}

theorem key_of_number {n : Nat} (h : call.number = some n) : call.key = requestId n := by
  rw [MessageCall.key, h]
  rfl

/-- Two numbers with one id are a whole turn of the counter apart. -/
theorem le_of_requestId_eq {m n : Nat} (h : requestId m = requestId n) (hne : m ≠ n) :
    2 ^ 64 ≤ m ∨ 2 ^ 64 ≤ n := by
  have hmod := toString_injective ((String.append_right_inj _).mp h)
  by_contra hsmall
  rw [not_or, not_le, not_le] at hsmall
  apply hne
  by_cases hm : m + 1 < 2 ^ 64
  · rw [Nat.mod_eq_of_lt hm] at hmod
    by_cases hn : n + 1 < 2 ^ 64
    · rw [Nat.mod_eq_of_lt hn] at hmod
      omega
    · have hn' : n + 1 = 2 ^ 64 := by omega
      rw [hn', Nat.mod_self] at hmod
      omega
  · have hm' : m + 1 = 2 ^ 64 := by omega
    rw [hm', Nat.mod_self] at hmod
    by_cases hn : n + 1 < 2 ^ 64
    · rw [Nat.mod_eq_of_lt hn] at hmod
      omega
    · omega

/-- Two calls with one id have wrapped the counter. -/
theorem Senders.wrapped (h : s.Senders) {j : Nat} {other : MessageCall} (hi : s.calls[i]? = some call)
    (hj : s.calls[j]? = some other) (hcall : call.stage.numbered = true)
    (hother : other.stage.numbered = true) (hkey : call.key = other.key) (hne : i ≠ j) :
    s.Wrapped := by
  obtain ⟨m, hm⟩ := Option.isSome_iff_exists.mp ((h.calls i call hi).numbered hcall)
  obtain ⟨n, hn⟩ := Option.isSome_iff_exists.mp ((h.calls j other hj).numbered hother)
  have hmn : m ≠ n := by
    rintro rfl
    exact hne (h.distinct i j call other m hi hj hm hn)
  rw [key_of_number hm, key_of_number hn] at hkey
  have hm' := (h.calls i call hi).below m hm
  have hn' := (h.calls j other hj).below n hn
  unfold Wrapped
  rcases le_of_requestId_eq hkey hmn with hle | hle <;> omega

theorem numbered_of_awaiting {stage : CallStage} (h : stage.awaiting = true) :
    stage.numbered = true := by
  cases stage <;> first | rfl | cases h

theorem registered_of_awaiting {stage : CallStage} (h : stage.awaiting = true) :
    stage.registered = true := by
  cases stage <;> first | rfl | cases h

section Senders

theorem Origin.mono (hreason : ∀ reason, s.termination.map (·.reason) = some reason →
    s'.termination.map (·.reason) = some reason) {result : PendingResult}
    (h : s.Origin call result) : s'.Origin call result := by
  cases result with
  | response value => exact h
  | terminated reason => exact hreason reason h

theorem Reached.mono (hnext : s.nextRequestId ≤ s'.nextRequestId)
    (hreason : ∀ reason, s.termination.map (·.reason) = some reason →
      s'.termination.map (·.reason) = some reason) {stage : CallStage}
    (h : s.Reached call stage) : s'.Reached call stage := by
  cases stage with
  | ended outcome =>
      cases outcome with
      | delivered result => exact Origin.mono hreason h
      | cancelled => exact h.imp_right (Nat.le_trans · hnext)
      | _ => trivial
  | withdrawing => exact h
  | retracting => exact h
  | _ => trivial

/-- A call stays as it should be while its sender stays where it is. -/
theorem CallOk.mono (h : s.CallOk i call) (hnext : s.nextRequestId ≤ s'.nextRequestId)
    (hreason : ∀ reason, s.termination.map (·.reason) = some reason →
      s'.termination.map (·.reason) = some reason)
    (hcustody : call.channel = .open → call.stage.awaiting = true →
      (∃ pending, s.pending.lookup call.key = some pending ∧ pending.call = i) ∨ s.delivers i →
      (∃ pending, s'.pending.lookup call.key = some pending ∧ pending.call = i) ∨ s'.delivers i) :
    s'.CallOk i call where
  numbered := h.numbered
  below n hn := Nat.lt_of_lt_of_le (h.below n hn) hnext
  registered := h.registered
  unused := h.unused
  custody haw hopen := hcustody hopen haw (h.custody haw hopen)
  sent result hsent := (h.sent result hsent).mono hreason
  dropped hdropped haw := Nat.le_trans (h.dropped hdropped haw) hnext
  reached := h.reached.mono hnext hreason

/-- Steps that touch neither a call nor the table nor what the reader holds. -/
theorem Senders.of_same (h : s.Senders) (hcalls : s'.calls = s.calls)
    (hpending : s'.pending = s.pending) (hnext : s'.nextRequestId = s.nextRequestId)
    (hreason : ∀ reason, s.termination.map (·.reason) = some reason →
      s'.termination.map (·.reason) = some reason)
    (hdelivering : ∀ value i, s'.reader = .delivering value i ↔ s.reader = .delivering value i)
    (hremoving : ∀ value id, s'.reader = .removing value id → responseId value = some id) :
    s'.Senders where
  calls i call hi := by
    rw [hcalls] at hi
    refine (h.calls i call hi).mono (Nat.le_of_eq hnext.symm) hreason fun _ _ hcustody => ?_
    rw [hpending]
    exact hcustody.imp_right fun hdelivers => hdelivers.imp fun value hv => (hdelivering value i).mpr hv
  distinct := by
    rw [hcalls]
    exact h.distinct
  entry := by
    rw [hcalls, hpending]
    exact h.entry
  removing := hremoving
  hand value i hv := by
    rw [hcalls, hpending]
    exact h.hand value i ((hdelivering value i).mp hv)

/-- One call changes while its sender stays where it is. -/
theorem Senders.setCall (h : s.Senders) (hi : s.calls[i]? = some call) {call' : MessageCall}
    (hnumber : call'.number = call.number) (hregistered : call.registered = true →
      call'.registered = true) (hchannel : call'.channel = call.channel)
    (hentry : ∀ key pending, s.pending.lookup key = some pending → pending.call = i →
      call'.stage.awaiting = true)
    (hok : s.CallOk i call') : (s.setCall i call').Senders := by
  have hkey : call'.key = call.key := by rw [MessageCall.key, MessageCall.key, hnumber]
  have hget : ∀ j, (s.setCall i call').calls[j]? = if i = j then some call' else s.calls[j]? :=
    fun j => getElem?_set_of_some hi call' j
  refine ⟨fun j other hj => ?_, fun j k a b n hj hk ha hb => ?_, fun key pending hp => ?_,
    h.removing, fun value j hv => ?_⟩
  · rw [hget] at hj
    have hsame {j : Nat} {other : MessageCall} (hother : s.CallOk j other) :
        (s.setCall i call').CallOk j other :=
      hother.mono (Nat.le_refl _) (fun _ hreason => hreason) fun _ _ hcustody => hcustody
    split at hj
    · next he =>
        cases hj
        exact he ▸ hsame hok
    · exact hsame (h.calls j other hj)
  · rw [hget] at hj hk
    have hback {j : Nat} {a : MessageCall} (hj : (if i = j then some call' else s.calls[j]?) =
        some a) (ha : a.number = some n) : ∃ b, s.calls[j]? = some b ∧ b.number = some n := by
      split at hj
      · next he =>
          cases hj
          exact ⟨call, he ▸ hi, hnumber ▸ ha⟩
      · exact ⟨a, hj, ha⟩
    obtain ⟨a', ha', hna⟩ := hback hj ha
    obtain ⟨b', hb', hnb⟩ := hback hk hb
    exact h.distinct j k a' b' n ha' hb' hna hnb
  · obtain ⟨other, hother, haw, hk, hopen⟩ := h.entry key pending hp
    rw [hget]
    by_cases he : i = pending.call
    · rw [if_pos he]
      rw [← he, hi] at hother
      cases hother
      exact ⟨call', rfl, hentry key pending hp he.symm, hkey.trans hk, hchannel.trans hopen⟩
    · rw [if_neg he]
      exact ⟨other, hother, haw, hk, hopen⟩
  · obtain ⟨other, hother, hreg, hid, hopen, hout⟩ := h.hand value j hv
    rw [hget]
    by_cases he : i = j
    · rw [if_pos he]
      rw [← he, hi] at hother
      cases hother
      exact ⟨call', rfl, hregistered hreg, hid.trans (by rw [hkey]), hchannel.trans hopen, hout⟩
    · rw [if_neg he]
      exact ⟨other, hother, hreg, hid, hopen, hout⟩

theorem reached_of_not_registered {stage : CallStage} (h : stage.registered = false) :
    s.Reached call stage := by
  cases stage with
  | ended outcome =>
      cases outcome with
      | rejected => trivial
      | _ => cases h
  | withdrawing => cases h
  | retracting => cases h
  | _ => trivial

/-- A call that has registered no request has nothing to keep. -/
theorem callOk_of_not_registered (hnumbered : call.stage.numbered = true → call.number.isSome = true)
    (hbelow : ∀ n, call.number = some n → n < s.nextRequestId)
    (hreg : call.registered = false) (hstage : call.stage.registered = false)
    (hopen : call.channel = .open) : s.CallOk i call where
  numbered := hnumbered
  below := hbelow
  registered := hreg.trans hstage.symm
  unused _ := hopen
  custody haw := by
    rw [registered_of_awaiting haw] at hstage
    cases hstage
  sent result hsent := by
    rw [hopen] at hsent
    cases hsent
  dropped hdropped := by
    rw [hopen] at hdropped
    cases hdropped
  reached := reached_of_not_registered hstage

theorem callOk_start (method : String) : s.CallOk i (.start method) := by
  have hstage : (MessageCall.start method).stage.numbered = false ∧
      (MessageCall.start method).stage.registered = false := by
    unfold MessageCall.start
    cases method.isEmpty with
    | true => exact ⟨rfl, rfl⟩
    | false => exact ⟨rfl, rfl⟩
  refine callOk_of_not_registered (fun hnumbered => ?_) (fun n hn => ?_) rfl hstage.2 rfl
  · rw [hstage.1] at hnumbered
    cases hnumbered
  · cases hn

theorem Senders.message (h : s.Senders) (method : String) :
    ({ s with calls := s.calls ++ [.start method] } : McpConnection).Senders := by
  have hold {j : Nat} {a : MessageCall} (hj : s.calls[j]? = some a) :
      (s.calls ++ [.start method])[j]? = some a :=
    (List.getElem?_append_left (List.getElem?_eq_some_iff.mp hj).1).trans hj
  have hback {j : Nat} {a : MessageCall} (hj : (s.calls ++ [.start method])[j]? = some a) :
      s.calls[j]? = some a ∨ a = .start method := by
    by_cases hlt : j < s.calls.length
    · exact .inl ((List.getElem?_append_left hlt).symm.trans hj)
    · rw [List.getElem?_append_right (Nat.le_of_not_lt hlt)] at hj
      exact .inr (List.mem_singleton.mp (List.mem_of_getElem? hj))
  have hnone : (MessageCall.start method).number = none := rfl
  refine ⟨fun j a hj => ?_, fun j k a b n hj hk ha hb => ?_, fun key pending hp => ?_, h.removing,
    fun value j hv => ?_⟩
  · rcases hback hj with hj | rfl
    · exact (h.calls j a hj).mono (Nat.le_refl _) (fun _ hreason => hreason) fun _ _ hc => hc
    · exact callOk_start method
  · rcases hback hj with hj | rfl
    · rcases hback hk with hk | rfl
      · exact h.distinct j k a b n hj hk ha hb
      · cases hnone.symm.trans hb
    · cases hnone.symm.trans ha
  · obtain ⟨a, ha, hrest⟩ := h.entry key pending hp
    exact ⟨a, hold ha, hrest⟩
  · obtain ⟨a, ha, hrest⟩ := h.hand value j hv
    exact ⟨a, hold ha, hrest⟩

theorem not_entry_of_not_awaiting (h : s.Senders) (hi : s.calls[i]? = some call)
    (haw : call.stage.awaiting = false) {key : String} {pending : PendingMcpRequest}
    (hp : s.pending.lookup key = some pending) : pending.call ≠ i := by
  rintro rfl
  obtain ⟨other, hother, haw', -⟩ := h.entry key pending hp
  cases Option.some.inj (hi.symm.trans hother)
  rw [haw] at haw'
  cases haw'

theorem not_hand_of_not_registered (h : s.Senders) (hi : s.calls[i]? = some call)
    (hreg : call.registered = false) (value : Value) : s.reader ≠ .delivering value i := by
  intro hv
  obtain ⟨other, hother, hreg', -⟩ := h.hand value i hv
  cases Option.some.inj (hi.symm.trans hother)
  rw [hreg] at hreg'
  cases hreg'

theorem Senders.takeNumber (h : s.Senders) (hi : s.calls[i]? = some call)
    (hstage : call.stage = .numbering) : (s.takeNumber i call).Senders := by
  have hcall := h.calls i call hi
  have hreg : call.registered = false := by rw [hcall.registered, hstage]; rfl
  have hget : ∀ j, (s.takeNumber i call).calls[j]? =
      if i = j then some { call with number := some s.nextRequestId, stage := .locking }
      else s.calls[j]? :=
    fun j => getElem?_set_of_some hi _ j
  have hnext : s.nextRequestId ≤ (s.takeNumber i call).nextRequestId := Nat.le_succ _
  refine ⟨fun j other hj => ?_, fun j k a b n hj hk ha hb => ?_, fun key pending hp => ?_,
    h.removing, fun value j hv => ?_⟩
  · rw [hget] at hj
    split at hj
    · cases hj
      refine callOk_of_not_registered (fun _ => rfl) (fun n hn => ?_) hreg rfl (hcall.unused hreg)
      cases hn
      exact Nat.lt_succ_self _
    · exact (h.calls j other hj).mono hnext (fun _ hreason => hreason) fun _ _ hc => hc
  · rw [hget] at hj hk
    split at hj
    · next hij =>
        cases hj
        cases ha
        split at hk
        · next hik => exact hij.symm.trans hik
        · exact absurd ((h.calls k b hk).below _ hb) (Nat.lt_irrefl _)
    · split at hk
      · cases hk
        cases hb
        exact absurd ((h.calls j a hj).below _ ha) (Nat.lt_irrefl _)
      · exact h.distinct j k a b n hj hk ha hb
  · obtain ⟨other, hother, hrest⟩ := h.entry key pending hp
    rw [hget, if_neg (not_entry_of_not_awaiting h hi (by rw [hstage]; rfl) hp).symm]
    exact ⟨other, hother, hrest⟩
  · obtain ⟨other, hother, hrest⟩ := h.hand value j hv
    have hne : i ≠ j := by
      rintro rfl
      exact not_hand_of_not_registered h hi hreg value hv
    rw [hget, if_neg hne]
    exact ⟨other, hother, hrest⟩

/-- The sender of one call leaves the table or the hand of the reader for good. -/
theorem Senders.moved (h : s.Senders) (hi : s.calls[i]? = some call) (call' : MessageCall)
    (hget : ∀ j : Nat, s'.calls[j]? = if i = j then some call' else s.calls[j]?)
    (hnumber : call'.number = call.number) (hnext : s'.nextRequestId = s.nextRequestId)
    (hterm : s'.termination = s.termination)
    (hout : ∀ key p, s'.pending.lookup key = some p ↔
      s.pending.lookup key = some p ∧ p.call ≠ i)
    (hreader : s'.reader = s.reader ∧ ¬s.delivers i ∨ s'.reader = .reading ∧ s.delivers i)
    (hok : s'.CallOk i call') : s'.Senders := by
  have hunique : ∀ j, s.delivers j → s.delivers i → j = i := by
    rintro j ⟨value, hv⟩ ⟨value', hv'⟩
    rw [hv] at hv'
    cases hv'
    rfl
  refine ⟨fun j other hj => ?_, fun j k a b n hj hk ha hb => ?_, fun key p hp => ?_,
    fun value id hv => ?_, fun value j hv => ?_⟩
  · rw [hget] at hj
    split at hj
    · next he =>
        cases hj
        exact he ▸ hok
    · next hne =>
        refine (h.calls j other hj).mono (Nat.le_of_eq hnext.symm)
          (fun reason hreason => by rw [hterm]; exact hreason) fun _ _ hcustody => ?_
        rcases hcustody with ⟨p, hp, hpj⟩ | ⟨value, hv⟩
        · exact .inl ⟨p, (hout _ p).mpr ⟨hp, fun he => hne (he.symm.trans hpj)⟩, hpj⟩
        · rcases hreader with ⟨hsame, -⟩ | ⟨-, hdelivers⟩
          · exact .inr ⟨value, hsame.trans hv⟩
          · exact absurd (hunique j ⟨value, hv⟩ hdelivers).symm hne
  · rw [hget] at hj hk
    have hback {j : Nat} {a : MessageCall}
        (hj : (if i = j then some call' else s.calls[j]?) = some a) (ha : a.number = some n) :
        ∃ b, s.calls[j]? = some b ∧ b.number = some n := by
      split at hj
      · next he =>
          cases hj
          exact ⟨call, he ▸ hi, hnumber ▸ ha⟩
      · exact ⟨a, hj, ha⟩
    obtain ⟨a', ha', hna⟩ := hback hj ha
    obtain ⟨b', hb', hnb⟩ := hback hk hb
    exact h.distinct j k a' b' n ha' hb' hna hnb
  · obtain ⟨hp, hne⟩ := (hout key p).mp hp
    obtain ⟨other, hother, hrest⟩ := h.entry key p hp
    rw [hget, if_neg hne.symm]
    exact ⟨other, hother, hrest⟩
  · rcases hreader with ⟨hsame, -⟩ | ⟨hreading, -⟩
    · exact h.removing value id (hsame.symm.trans hv)
    · cases hreading.symm.trans hv
  · rcases hreader with ⟨hsame, hnot⟩ | ⟨hreading, -⟩
    · have hv' := hsame.symm.trans hv
      obtain ⟨other, hother, hregister, hid, hopen, hno⟩ := h.hand value j hv'
      have hne : i ≠ j := by
        rintro rfl
        exact hnot ⟨value, hv'⟩
      rw [hget, if_neg hne]
      exact ⟨other, hother, hregister, hid, hopen,
        fun key p hp => hno key p ((hout key p).mp hp).1⟩
    · cases hreading.symm.trans hv

/-- A registered call whose sender has sent, or went when the counter had wrapped. -/
theorem CallOk.settled (h : s.CallOk i call) (hreg : call.registered = true) {channel : Channel}
    (hchannel : (∃ result, channel = .sent result ∧ s.Origin call result) ∨
      channel = .dropped ∧ (call.stage.awaiting = true → s.Wrapped)) :
    s.CallOk i { call with channel } := by
  refine ⟨h.numbered, h.below, h.registered, fun hunreg => ?_, fun _ hopen => ?_,
    fun result hsent => ?_, fun hdropped haw => ?_, h.reached⟩
  · cases hreg.symm.trans hunreg
  · rcases hchannel with ⟨result, rfl, -⟩ | ⟨rfl, -⟩
    · cases hopen
    · cases hopen
  · rcases hchannel with ⟨result', rfl, horigin⟩ | ⟨rfl, -⟩
    · cases hsent
      exact horigin
    · cases hsent
  · rcases hchannel with ⟨result, rfl, -⟩ | ⟨rfl, hwrapped⟩
    · cases hdropped
    · exact hwrapped haw

/-- Only one entry of the table is about a call. -/
theorem Senders.lookup_erase_iff (h : s.Senders) {key : String} {pending : PendingMcpRequest}
    (hp : s.pending.lookup key = some pending) (key' : String) (p : PendingMcpRequest) :
    (s.pending.erase key).lookup key' = some p ↔
      s.pending.lookup key' = some p ∧ p.call ≠ pending.call := by
  obtain ⟨call, hcall, -, hkey, -⟩ := h.entry key pending hp
  by_cases he : key' = key
  · subst he
    rw [Finmap.lookup_erase]
    constructor
    · intro hnone
      cases hnone
    · rintro ⟨hsame, hne⟩
      cases Option.some.inj (hp.symm.trans hsame)
      exact absurd rfl hne
  · rw [Finmap.lookup_erase_ne he]
    constructor
    · intro hother
      refine ⟨hother, fun hcalls => he ?_⟩
      obtain ⟨call', hcall', -, hkey', -⟩ := h.entry key' p hother
      rw [hcalls, hcall] at hcall'
      cases hcall'
      exact hkey'.symm.trans hkey
    · exact And.left

theorem Senders.not_delivers_of_entry (h : s.Senders) {key : String}
    {pending : PendingMcpRequest} (hp : s.pending.lookup key = some pending) :
    ¬s.delivers pending.call := by
  rintro ⟨value, hv⟩
  obtain ⟨-, -, -, -, -, hno⟩ := h.hand value _ hv
  exact hno key pending hp rfl

/-- An entry is taken out, and its sender sends or goes. -/
theorem Senders.takeOut (h : s.Senders) {key : String} {pending : PendingMcpRequest}
    (hp : s.pending.lookup key = some pending) {channel : Channel}
    (hchannel : ∀ call : MessageCall, s.calls[pending.call]? = some call →
      call.stage.awaiting = true → call.key = key →
      (∃ result, channel = .sent result ∧ s.Origin call result) ∨
        channel = .dropped ∧ s.Wrapped) :
    (({ s with pending := s.pending.erase key } : McpConnection).setChannel pending.call
      channel).Senders := by
  obtain ⟨call, hcall, haw, hkey, -⟩ := h.entry key pending hp
  have hok := h.calls _ call hcall
  refine h.moved hcall _ (getElem?_modify_of_some hcall _) rfl rfl rfl (h.lookup_erase_iff hp)
    (.inl ⟨rfl, h.not_delivers_of_entry hp⟩) ?_
  have hsettled := hok.settled (hok.registered.trans (registered_of_awaiting haw))
    ((hchannel call hcall haw hkey).imp_right fun hdropped => ⟨hdropped.1, fun _ => hdropped.2⟩)
  refine hsettled.mono (Nat.le_refl _) (fun _ hreason => hreason) fun hopen _ _ => ?_
  rcases hchannel call hcall haw hkey with ⟨result, rfl, -⟩ | ⟨rfl, -⟩
  · cases hopen
  · cases hopen

theorem Senders.drain (h : s.Senders) {key : String} {pending : PendingMcpRequest} {t : Termination}
    (ht : s.termination = some t) (hp : s.pending.lookup key = some pending) :
    (({ s with pending := s.pending.erase key } : McpConnection).setChannel pending.call
      (.sent (.terminated t.reason))).Senders := by
  refine h.takeOut hp fun call _ _ _ => .inl ⟨_, rfl, ?_⟩
  change s.termination.map (·.reason) = some t.reason
  rw [ht]
  rfl

/-- The reader takes an entry into its hand. -/
theorem Senders.takePending (h : s.Senders) {value : Value} {id : String}
    (hreader : s.reader = .removing value id) : (s.takePending value id).Senders := by
  have hid := h.removing value id hreader
  have hnot : ∀ j, ¬s.delivers j := by
    rintro j ⟨value', hv⟩
    cases hreader.symm.trans hv
  unfold McpConnection.takePending
  cases hp : s.pending.lookup id with
  | none =>
      refine h.of_same rfl rfl rfl (fun _ hreason => hreason) (fun value' j => ?_)
        fun value' id' hv => by cases hv
      exact iff_of_false (fun hv => by cases hv) fun hv => hnot j ⟨value', hv⟩
  | some pending =>
      obtain ⟨call, hcall, haw, hkey, hopen⟩ := h.entry id pending hp
      have hiff := h.lookup_erase_iff hp
      refine ⟨fun j other hj => ?_, h.distinct, fun key p hkp => ?_, fun value' id' hv => ?_,
        fun value' j hv => ?_⟩
      · refine (h.calls j other hj).mono (Nat.le_refl _) (fun _ hreason => hreason)
          fun _ _ hcustody => ?_
        rcases hcustody with ⟨p, hp', hpj⟩ | hdelivers
        · by_cases he : p.call = pending.call
          · exact .inr ⟨value, by rw [← hpj, he]⟩
          · exact .inl ⟨p, (hiff _ p).mpr ⟨hp', he⟩, hpj⟩
        · exact absurd hdelivers (hnot j)
      · exact h.entry key p ((hiff key p).mp hkp).1
      · cases hv
      · cases hv
        exact ⟨call, hcall, (h.calls _ call hcall).registered.trans (registered_of_awaiting haw),
          hid.trans (congrArg some hkey.symm), hopen, fun key p hkp => ((hiff key p).mp hkp).2⟩

/-- The reader sends what it has in its hand. -/
theorem Senders.deliver (h : s.Senders) {value : Value} (hreader : s.reader = .delivering value i) :
    (({ s with reader := .reading } : McpConnection).setChannel i
      (.sent (.response value))).Senders := by
  obtain ⟨call, hcall, hreg, hid, -, hno⟩ := h.hand value i hreader
  refine h.moved hcall _ (getElem?_modify_of_some hcall _) rfl rfl rfl
    (fun key p => ⟨fun hp => ⟨hp, hno key p hp⟩, And.left⟩) (.inr ⟨rfl, value, hreader⟩) ?_
  have hsettled := (h.calls i call hcall).settled hreg
    (.inl ⟨.response value, rfl, hid⟩)
  exact hsettled.mono (Nat.le_refl _) (fun _ hreason => hreason) fun hopen _ _ => by cases hopen

/-- A call that is withdrawn takes out its own entry; where another call has the id by now,
the counter has wrapped. -/
theorem Senders.withdrawRequest (h : s.Senders) (hi : s.calls[i]? = some call)
    (haw : call.stage.awaiting = true) {stage : CallStage} (hstage : stage.awaiting = false)
    (hreg : stage.registered = true) (hreached : s.Reached call stage) :
    (s.withdrawRequest i call stage).Senders := by
  have hcall := h.calls i call hi
  have hregistered := hcall.registered.trans (registered_of_awaiting haw)
  have hok : ∀ channel, (∀ result, channel = .sent result → s.Origin call result) →
      s.CallOk i { call with stage, channel } := by
    intro channel horigin
    refine ⟨fun _ => hcall.numbered (numbered_of_awaiting haw), hcall.below, ?_, ?_, ?_, ?_, ?_,
      ?_⟩
    · exact hregistered.trans hreg.symm
    · exact fun hunreg => by cases hregistered.symm.trans hunreg
    · exact fun haw' => by cases hstage.symm.trans haw'
    · exact horigin
    · exact fun _ haw' => by cases hstage.symm.trans haw'
    · cases stage <;> exact hreached
  have hset (hno : ∀ key p, s.pending.lookup key = some p → p.call ≠ i) :
      (s.setStage i call stage).Senders :=
    h.setCall hi rfl (fun hr => hr) rfl (fun key p hp he => absurd he (hno key p hp))
      (hok call.channel hcall.sent)
  have hkey : ∀ key p, s.pending.lookup key = some p → p.call = i → key = call.key := by
    rintro key p hp rfl
    obtain ⟨other, hother, -, hk, -⟩ := h.entry key p hp
    cases Option.some.inj (hi.symm.trans hother)
    exact hk.symm
  unfold McpConnection.withdrawRequest McpConnection.dropPending
  cases hp : (s.setStage i call stage).pending.lookup call.key with
  | none =>
      refine hset fun key p hkp he => ?_
      rw [hkey key p hkp he] at hkp
      cases hkp.symm.trans hp
  | some pending =>
      by_cases he : pending.call = i
      · subst he
        refine h.moved hi { call with stage, channel := .dropped } (fun j => ?_) rfl rfl
          rfl (h.lookup_erase_iff hp) (.inl ⟨rfl, h.not_delivers_of_entry hp⟩) ?_
        · refine (getElem?_modify_of_some (a := { call with stage }) ?_ _ j).trans ?_
          · exact (getElem?_set_of_some hi _ _).trans (if_pos rfl)
          · by_cases hj : pending.call = j
            · rw [if_pos hj, if_pos hj]
            · rw [if_neg hj, if_neg hj]
              exact (getElem?_set_of_some hi _ j).trans (if_neg hj)
        · exact (hok .dropped fun _ hsent => by cases hsent).mono (Nat.le_refl _)
            (fun _ hreason => hreason) fun hopen _ _ => by cases hopen
      · have hs := hset fun key p hkp hpi => by
          rw [hkey key p hkp hpi] at hkp
          cases Option.some.inj (hkp.symm.trans hp)
          exact he hpi
        refine hs.takeOut hp fun other hother haw' hk => .inr ⟨rfl, ?_⟩
        have hother' : s.calls[pending.call]? = some other :=
          ((getElem?_set_of_some hi _ _).trans (if_neg fun hj => he hj.symm)).symm.trans hother
        exact h.wrapped hi hother' (numbered_of_awaiting haw) (numbered_of_awaiting haw')
          hk.symm fun hj => he hj.symm

/-- A request is registered; where another call had its id, the counter has wrapped. -/
theorem Senders.insertRequest (h : s.Senders) (hi : s.calls[i]? = some call)
    (hstage : call.stage = .inserting) : (s.insertRequest i call).Senders := by
  have hcall := h.calls i call hi
  have hreg : call.registered = false := by
    rw [hcall.registered, hstage]
    rfl
  have hnumbered : call.stage.numbered = true := by
    rw [hstage]
    rfl
  have hnot : ∀ key p, s.pending.lookup key = some p → p.call ≠ i := fun key p hp =>
    not_entry_of_not_awaiting h hi (by rw [hstage]; rfl) hp
  -- Once the id is free, the new entry is the only one about the call.
  have hfree : ∀ t : McpConnection, t.Senders → t.calls[i]? = some call →
      t.pending.lookup call.key = none → ∀ pendingLocked,
      ({ t with
        pending := t.pending.insert call.key ⟨call.method, i⟩
        pendingLocked }.setCall i { call with stage := .writing, registered := true }).Senders := by
    intro t ht hti hnone pendingLocked
    have hget : ∀ j : Nat, (t.calls.set i { call with stage := .writing, registered := true })[j]? =
        if i = j then some { call with stage := .writing, registered := true } else t.calls[j]? :=
      fun j => getElem?_set_of_some hti _ j
    have hok := ht.calls i call hti
    have hkept : ∀ key p, t.pending.lookup key = some p →
        (t.pending.insert call.key ⟨call.method, i⟩).lookup key = some p := by
      intro key p hp
      have hne : key ≠ call.key := by
        rintro rfl
        cases hnone.symm.trans hp
      rw [Finmap.lookup_insert_of_ne _ hne]
      exact hp
    have hback : ∀ key p, (t.pending.insert call.key ⟨call.method, i⟩).lookup key = some p →
        key = call.key ∧ p.call = i ∨ t.pending.lookup key = some p := by
      intro key p hp
      by_cases he : key = call.key
      · subst he
        rw [Finmap.lookup_insert] at hp
        cases hp
        exact .inl ⟨rfl, rfl⟩
      · rw [Finmap.lookup_insert_of_ne _ he] at hp
        exact .inr hp
    refine ⟨fun j other hj => ?_, fun j k a b n hj hk ha hb => ?_, fun key p hp => ?_, ht.removing,
      fun value j hv => ?_⟩
    · have hj := (hget j).symm.trans hj
      split at hj
      · next he =>
          cases hj
          subst he
          refine ⟨fun _ => hok.numbered hnumbered, hok.below, rfl, fun hunreg => ?_, fun _ _ => ?_,
            fun result hsent => ?_, fun hdropped _ => ?_, trivial⟩
          · cases hunreg
          · exact .inl ⟨_, Finmap.lookup_insert _, rfl⟩
          · cases (hok.unused hreg).symm.trans hsent
          · cases (hok.unused hreg).symm.trans hdropped
      · refine (ht.calls j other hj).mono (Nat.le_refl _) (fun _ hreason => hreason)
          fun _ _ hcustody => ?_
        exact hcustody.imp_left fun hentry => hentry.imp fun p hp => ⟨hkept _ p hp.1, hp.2⟩
    · have hj := (hget j).symm.trans hj
      have hk := (hget k).symm.trans hk
      have hsame {j : Nat} {a : MessageCall} (hj : (if i = j then
          some { call with stage := .writing, registered := true } else t.calls[j]?) = some a)
          (ha : a.number = some n) : ∃ b, t.calls[j]? = some b ∧ b.number = some n := by
        split at hj
        · next he =>
            cases hj
            exact ⟨call, he ▸ hti, ha⟩
        · exact ⟨a, hj, ha⟩
      obtain ⟨a', ha', hna⟩ := hsame hj ha
      obtain ⟨b', hb', hnb⟩ := hsame hk hb
      exact ht.distinct j k a' b' n ha' hb' hna hnb
    · rcases hback key p hp with ⟨rfl, hpi⟩ | hp
      · rw [hpi]
        exact ⟨_, (hget i).trans (if_pos rfl), rfl, rfl, hok.unused hreg⟩
      · obtain ⟨other, hother, haw, hrest⟩ := ht.entry key p hp
        have hne : i ≠ p.call := by
          rintro rfl
          cases Option.some.inj (hti.symm.trans hother)
          rw [hstage] at haw
          cases haw
        exact ⟨other, (hget _).trans ((if_neg hne).trans hother), haw, hrest⟩
    · obtain ⟨other, hother, hregister, hid, hopen, hno⟩ := ht.hand value j hv
      have hne : i ≠ j := by
        rintro rfl
        cases Option.some.inj (hti.symm.trans hother)
        cases hreg.symm.trans hregister
      refine ⟨other, (hget _).trans ((if_neg hne).trans hother), hregister, hid, hopen,
        fun key p hp => ?_⟩
      rcases hback key p hp with ⟨-, hpi⟩ | hp
      · exact fun he => hne (hpi.symm.trans he)
      · exact hno key p hp
  unfold McpConnection.insertRequest McpConnection.insertPending McpConnection.dropPending
  cases hp : s.pending.lookup call.key with
  | none => exact hfree s h hi hp false
  | some pending =>
      have hne := hnot call.key pending hp
      refine hfree _ (h.takeOut hp fun other hother haw hk => .inr ⟨rfl, ?_⟩) ?_
        (Finmap.lookup_erase _ _) false
      · exact h.wrapped hi hother hnumbered (numbered_of_awaiting haw) hk.symm hne.symm
      · obtain ⟨other, hother, -⟩ := h.entry call.key pending hp
        exact (getElem?_modify_of_some hother _ i).trans ((if_neg hne).trans hi)

end Senders

end McpConnection

end Attyd.Mcp
