import Attyd.Mcp.ConnectionRuns

/-!
# The moves of message calls

A call moves from stage to stage, and an ended one stays where it is. What the tasks have
left to do is counted; when they rest after the connection was ended, every call has ended.
-/

namespace Attyd.Mcp

open Json (Value)

/-- The moves of a message call, past an open or closed connection, with the errors that its
write can fail with. -/
inductive CallMove (closed : Bool) (failure : McpError → Prop) : CallStage → CallStage → Prop
  | found (h : closed = false) : CallMove closed failure .requiring .numbering
  | unknown (error : McpError) : CallMove closed failure .requiring (.ended (.rejected error))
  | numbered : CallMove closed failure .numbering .locking
  | admitted (h : closed = false) : CallMove closed failure .locking .inserting
  | refused (error : McpError) : CallMove closed failure .locking (.ended (.rejected error))
  | inserted : CallMove closed failure .inserting .writing
  | wrote : CallMove closed failure .writing .waiting
  | writeFailed (error : McpError) (h : failure error) :
      CallMove closed failure .writing (.unregistering error)
  | unregistered (error : McpError) :
      CallMove closed failure (.unregistering error) (.ended (.writeFailed error))
  | received (result : PendingResult) : CallMove closed failure .waiting (.ended (.delivered result))
  | dropped : CallMove closed failure .waiting (.ended .cancelled)
  | withdrawn : CallMove closed failure .waiting .withdrawing
  | removed : CallMove closed failure .withdrawing .retracting
  | retracted : CallMove closed failure .retracting (.ended .cancelled)

section Moves

variable {closed : Bool} {failure : McpError → Prop} {stage stage' : CallStage}

/-- A stage before the call has gone to the table, or one at which it was rejected. -/
def CallStage.outside : CallStage → Bool
  | requiring | numbering | locking | ended (.rejected _) => true
  | _ => false

theorem CallMove.outside (h : CallMove true failure stage stage')
    (hout : stage.outside = true) : stage'.outside = true := by
  cases h with
  | found h => cases h
  | admitted h => cases h
  | unknown => rfl
  | numbered => rfl
  | refused => rfl
  | _ => cases hout

theorem outside_start (method : String) : (MessageCall.start method).stage.outside = true := by
  unfold MessageCall.start
  cases method.isEmpty with
  | true => rfl
  | false => rfl

/-- How far a call is from its end; inserting also adds an entry to the table. -/
def CallStage.rank : CallStage → Nat
  | requiring => 9
  | numbering => 8
  | locking => 7
  | inserting => 6
  | writing => 4
  | unregistering _ | waiting => 3
  | withdrawing => 2
  | retracting => 1
  | ended _ => 0

theorem CallMove.rank_lt (h : CallMove closed failure stage stage') :
    stage'.rank < stage.rank := by
  cases h <;> simp [CallStage.rank]

def TerminateStage.rank : TerminateStage → Nat
  | cancelling => 6
  | removing => 5
  | killing => 4
  | locking => 3
  | draining => 2
  | announcing => 1
  | finished => 0

def Reader.rank : Reader → Nat
  | reading | stopped => 0
  | routing _ => 3
  | removing _ _ => 2
  | delivering _ _ => 1

def Connecting.rank : Connecting → Nat
  | opening => 4
  | activating => 3
  | announcing => 2
  | connected | refused => 0

/-- The steps of the tasks that are under way; nobody has to ask for them. -/
def Action.Inner : Action → Prop
  | message _ | requestCancel _ | disconnect | closeAll | childExited _ | readerFailed _
  | readerEnded | connectCancelled | serverSends _ => False
  | _ => True

end Moves

namespace McpConnection

variable {s s' : McpConnection} {i : Nat} {call : MessageCall}

section Stages

/-- Where the calls are. -/
def stages (s : McpConnection) : List CallStage := s.calls.map (·.stage)

theorem stages_setCall (s : McpConnection) (i : Nat) (call : MessageCall) :
    (s.setCall i call).stages = s.stages.set i call.stage := List.map_set

theorem stages_setChannel (s : McpConnection) (i : Nat) (channel : Channel) :
    (s.setChannel i channel).stages = s.stages := by
  apply List.ext_getElem?
  intro j
  change ((s.calls.modify i fun call => { call with channel }).map (·.stage))[j]? =
    (s.calls.map (·.stage))[j]?
  rw [List.getElem?_map, List.getElem?_modify, List.getElem?_map]
  cases s.calls[j]? with
  | none => rfl
  | some call =>
      simp only [Option.map_eq_map, Option.map_some, Option.some.injEq]
      split
      · rfl
      · rfl

theorem stages_dropPending (s : McpConnection) (key : String) :
    (s.dropPending key).stages = s.stages := by
  unfold dropPending
  split
  · rfl
  · exact stages_setChannel _ _ _

theorem stages_eq_some (hi : s.calls[i]? = some call) : s.stages[i]? = some call.stage := by
  unfold stages
  rw [List.getElem?_map, hi]
  rfl

/-- What is left to do beside the calls: the entries of the table, those who end the
connection, the reader, the waiter and the request that opened the connection. Whoever ends
the connection goes past the closed flag and then through a whole termination. -/
def otherWork (s : McpConnection) : Nat :=
  s.pending.sum (fun _ => 1) + 7 * s.enders.length +
    s.termination.elim 0 (fun termination => termination.stage.rank) + s.reader.rank +
    (!s.childWaited).toNat + s.connecting.rank

theorem otherWork_dropPending_le (s : McpConnection) (key : String) :
    (s.dropPending key).otherWork ≤ s.otherWork := by
  unfold dropPending
  cases hp : s.pending.lookup key with
  | none => exact Nat.le_refl _
  | some pending =>
      have hsum := Table.sum_erase (M := Nat) (fun _ => 1) hp
      simp only [otherWork, setChannel]
      omega

theorem otherWork_insertPending_le (s : McpConnection) (key : String)
    (pending : PendingMcpRequest) :
    (s.insertPending key pending).otherWork ≤ s.otherWork + 1 := by
  have hdrop := otherWork_dropPending_le s key
  have hsum := Table.sum_insert (M := Nat) (fun _ => 1) (s.dropPending key).pending key pending
  have hsplit := Table.sum_split (M := Nat) (fun _ => 1) (s.dropPending key).pending key
  simp only [otherWork, insertPending] at hdrop ⊢
  omega

/-- What a step does to the stages of the calls, and to the rest of the work. -/
inductive StagesStep (s s' : McpConnection) (action : Action) : Prop
  | same (h : s'.stages = s.stages) (hwork : action.Inner → s'.otherWork < s.otherWork)
  | moved (i : Nat) (stage stage' : CallStage) (hi : s.stages[i]? = some stage)
      (hmove : CallMove s.closed (fun error => action = .writeFailed i error) stage stage')
      (h : s'.stages = s.stages.set i stage')
      (hwork : s'.otherWork + stage'.rank < s.otherWork + stage.rank)
  | started (method : String) (h : s'.stages = s.stages ++ [(MessageCall.start method).stage])
      (hinner : ¬action.Inner)

/-- One call of a connection moves. -/
theorem StagesStep.of_setCall {action : Action} (hi : s.calls[i]? = some call)
    (call' : MessageCall)
    (hmove : CallMove s.closed (fun error => action = .writeFailed i error) call.stage
      call'.stage)
    (h : s'.stages = (s.setCall i call').stages) (hwork : s'.otherWork ≤ s.otherWork) :
    StagesStep s s' action :=
  .moved i call.stage call'.stage (stages_eq_some hi) hmove (h.trans (stages_setCall s i call'))
    (by have hrank := hmove.rank_lt; omega)

/-- The task that ends the connection has a step less to go, and leaves the calls alone. -/
theorem terminate_work (hs : s.terminate = some s') :
    s'.calls = s.calls ∧ s'.otherWork < s.otherWork := by
  obtain ⟨t, ht, hs⟩ := Option.bind_eq_some_iff.mp hs
  split at hs
  · rename_i hstage
    cases hs
    exact ⟨rfl, by simp [otherWork, setTermination, ht, hstage, TerminateStage.rank]⟩
  · rename_i hstage
    split at hs <;> cases hs
    exact ⟨rfl, by simp [otherWork, setTermination, ht, hstage, TerminateStage.rank]⟩
  · rename_i hstage
    cases hs
    exact ⟨rfl, by simp [otherWork, setTermination, ht, hstage, TerminateStage.rank]⟩
  · rename_i hstage
    split at hs <;> cases hs
    exact ⟨rfl, by simp [otherWork, setTermination, ht, hstage, TerminateStage.rank]⟩
  · rename_i hstage
    split at hs <;> cases hs
    exact ⟨rfl, by simp [otherWork, setTermination, ht, hstage, TerminateStage.rank]⟩
  · rename_i hstage
    cases hs
    exact ⟨rfl, by simp [otherWork, setTermination, ht, hstage, TerminateStage.rank]⟩
  · cases hs

theorem exchange_work {ender : Nat} {reason : McpError} (h : s.enders[ender]? = some reason) :
    (s.exchange ender reason).otherWork < s.otherWork := by
  have hlt : ender < s.enders.length := (List.getElem?_eq_some_iff.mp h).1
  have hlen := List.length_eraseIdx_of_lt hlt
  cases ht : s.termination with
  | none =>
      simp only [otherWork, exchange, ht, Option.none_or, Option.elim_some, Option.elim_none,
        TerminateStage.rank]
      omega
  | some t =>
      simp only [otherWork, exchange, ht, Option.some_or, Option.elim_some]
      omega

theorem takePending_work {value : Value} {id : String} (h : s.reader = .removing value id) :
    (s.takePending value id).otherWork < s.otherWork := by
  unfold takePending
  cases hp : s.pending.lookup id with
  | none =>
      simp only [otherWork, h, Reader.rank]
      omega
  | some pending =>
      have hsum := Table.sum_erase (M := Nat) (fun _ => 1) hp
      simp only [otherWork, h, Reader.rank]
      omega

theorem step_stages {action : Action} (hs : s.step action = some s') : StagesStep s s' action := by
  cases action with
  | message method =>
      cases hs
      exact .started method (by simp [stages]) (fun h => h)
  | requestCancel i =>
      obtain ⟨call, hi, rfl⟩ := Option.map_eq_some_iff.mp hs
      refine .same ((stages_setCall _ _ _).trans (List.ext_getElem? fun j => ?_)) fun h => h.elim
      rw [getElem?_set_of_some (stages_eq_some hi)]
      split
      · next he => exact he ▸ (stages_eq_some hi).symm
      · rfl
  | require i =>
      unfold step at hs
      dsimp only at hs
      split at hs
      · cases hs
      · obtain ⟨call, hcall, rfl⟩ := Option.map_eq_some_iff.mp hs
        obtain ⟨hi, hstage⟩ := callAt_eq_some hcall
        unfold require
        split
        · rename_i hopen
          rw [Bool.and_eq_true, Bool.not_eq_true'] at hopen
          exact .of_setCall hi _ (hstage ▸ .found hopen.2) rfl (Nat.le_refl _)
        · exact .of_setCall hi _ (hstage ▸ .unknown _) rfl (Nat.le_refl _)
  | number i =>
      obtain ⟨call, hcall, rfl⟩ := Option.map_eq_some_iff.mp hs
      obtain ⟨hi, hstage⟩ := callAt_eq_some hcall
      exact .of_setCall hi { call with number := some s.nextRequestId, stage := .locking }
        (hstage ▸ .numbered) rfl (Nat.le_refl _)
  | lockPending i =>
      unfold step at hs
      dsimp only at hs
      split at hs
      · cases hs
      · obtain ⟨call, hcall, rfl⟩ := Option.map_eq_some_iff.mp hs
        obtain ⟨hi, hstage⟩ := callAt_eq_some hcall
        unfold lockPending
        cases hclosed : s.closed with
        | true => exact .of_setCall hi _ (hstage ▸ .refused _) rfl (Nat.le_refl _)
        | false => exact .of_setCall hi _ (hstage ▸ .admitted hclosed) rfl (Nat.le_refl _)
  | insert i =>
      obtain ⟨call, hcall, rfl⟩ := Option.map_eq_some_iff.mp hs
      obtain ⟨hi, hstage⟩ := callAt_eq_some hcall
      refine .moved i .inserting .writing (hstage ▸ stages_eq_some hi) .inserted ?_ ?_
      · refine (stages_setCall _ _ _).trans ?_
        change (s.dropPending call.key).stages.set i .writing = _
        rw [stages_dropPending]
      · have hle := otherWork_insertPending_le s call.key ⟨call.method, i⟩
        change (s.insertPending call.key ⟨call.method, i⟩).otherWork + 4 < s.otherWork + 6
        omega
  | wrote i =>
      obtain ⟨call, hcall, rfl⟩ := Option.map_eq_some_iff.mp hs
      obtain ⟨hi, hstage⟩ := callAt_eq_some hcall
      exact .of_setCall hi _ (hstage ▸ .wrote) rfl (Nat.le_refl _)
  | writeFailed i error =>
      obtain ⟨call, hcall, rfl⟩ := Option.map_eq_some_iff.mp hs
      obtain ⟨hi, hstage⟩ := callAt_eq_some hcall
      exact .of_setCall hi _ (hstage ▸ .writeFailed error rfl) rfl (Nat.le_refl _)
  | unregister i =>
      obtain ⟨call, hi, hs⟩ := Option.bind_eq_some_iff.mp hs
      split at hs
      · rename_i error hstage
        split at hs
        · cases hs
        · cases hs
          exact .of_setCall hi { call with stage := .ended (.writeFailed error) }
            (hstage ▸ .unregistered error) (stages_dropPending _ _) (otherWork_dropPending_le _ _)
      · cases hs
  | receive i =>
      obtain ⟨call, hcall, hs⟩ := Option.bind_eq_some_iff.mp hs
      obtain ⟨hi, hstage⟩ := callAt_eq_some hcall
      unfold receive at hs
      split at hs
      · cases hs
      · cases hs
        exact .of_setCall hi _ (hstage ▸ .received _) rfl (Nat.le_refl _)
      · cases hs
        exact .of_setCall hi _ (hstage ▸ .dropped) rfl (Nat.le_refl _)
  | withdraw i =>
      obtain ⟨call, hcall, rfl⟩ := Option.map_eq_some_iff.mp hs
      obtain ⟨hi, hstage⟩ := callAt_eq_some (Option.filter_eq_some_iff.mp hcall).1
      exact .of_setCall hi _ (hstage ▸ .withdrawn) rfl (Nat.le_refl _)
  | removeWithdrawn i =>
      unfold step at hs
      dsimp only at hs
      split at hs
      · cases hs
      · obtain ⟨call, hcall, rfl⟩ := Option.map_eq_some_iff.mp hs
        obtain ⟨hi, hstage⟩ := callAt_eq_some hcall
        exact .of_setCall hi { call with stage := .retracting }
          (hstage ▸ .removed) (stages_dropPending _ _) (otherWork_dropPending_le _ _)
  | retracted i =>
      obtain ⟨call, hcall, rfl⟩ := Option.map_eq_some_iff.mp hs
      obtain ⟨hi, hstage⟩ := callAt_eq_some hcall
      exact .of_setCall hi _ (hstage ▸ .retracted) rfl (Nat.le_refl _)
  | exchange ender =>
      obtain ⟨reason, hender, rfl⟩ := Option.map_eq_some_iff.mp hs
      exact .same rfl fun _ => exchange_work hender
  | drain id =>
      obtain ⟨t, -, hs⟩ := Option.bind_eq_some_iff.mp hs
      obtain ⟨pending, hp, hs⟩ := Option.bind_eq_some_iff.mp hs
      cases hs
      refine .same (stages_setChannel _ _ _) fun _ => ?_
      have hsum := Table.sum_erase (M := Nat) (fun _ => 1) hp
      simp only [otherWork, setChannel]
      omega
  | terminate =>
      obtain ⟨hcalls, hwork⟩ := terminate_work hs
      exact .same (congrArg (List.map _) hcalls) fun _ => hwork
  | takePending =>
      unfold step at hs
      cases hreader : s.reader with
      | removing value id =>
          simp only [hreader] at hs
          split at hs
          · cases hs
          · cases hs
            refine .same ?_ fun _ => takePending_work hreader
            unfold takePending
            split
            · rfl
            · rfl
      | _ =>
          rw [hreader] at hs
          cases hs
  | deliver =>
      unfold step at hs
      cases hreader : s.reader with
      | delivering value call =>
          rw [hreader] at hs
          cases hs
          refine .same (stages_setChannel _ _ _) fun _ => ?_
          simp only [otherWork, setChannel, hreader, Reader.rank]
          omega
      | _ =>
          rw [hreader] at hs
          cases hs
  | route =>
      unfold step at hs
      cases hreader : s.reader with
      | routing value =>
          rw [hreader] at hs
          cases hs
          refine .same rfl fun _ => ?_
          have hrank : (s.route value).reader.rank < 3 := by
            unfold route
            cases s.closed with
            | true => exact Nat.zero_lt_succ 2
            | false =>
                cases responseId value with
                | none => exact Nat.zero_lt_succ 2
                | some id => exact Nat.lt_succ_self 2
          change _ + (s.route value).reader.rank + _ + _ < _ + s.reader.rank + _ + _
          rw [hreader]
          exact Nat.add_lt_add_right (Nat.add_lt_add_right (Nat.add_lt_add_left hrank _) _) _
      | _ =>
          rw [hreader] at hs
          cases hs
  | readerFailed _ | readerEnded | serverSends _ =>
      unfold step at hs
      cases hreader : s.reader with
      | reading =>
          rw [hreader] at hs
          cases hs
          exact .same rfl fun h => h.elim
      | _ =>
          rw [hreader] at hs
          cases hs
  | disconnect | closeAll | childExited _ | connectCancelled =>
      unfold step at hs
      dsimp only at hs
      split at hs <;> cases hs
      all_goals exact .same rfl fun h => h.elim
  | childKilled =>
      unfold step at hs
      dsimp only at hs
      split at hs
      · cases hs
      · rename_i hwait
        cases hs
        rw [Bool.or_eq_true, not_or, Bool.not_eq_true] at hwait
        refine .same rfl fun _ => ?_
        simp only [otherWork, hwait.1]
        simp
  | activate =>
      unfold step at hs
      dsimp only at hs
      split at hs
      · rename_i hopening
        cases hs
        split
        · refine .same rfl fun _ => ?_
          simp only [otherWork, hopening.1, Connecting.rank]
          omega
        · refine .same rfl fun _ => ?_
          simp only [otherWork, hopening.1, Connecting.rank]
          omega
      · cases hs
  | markAnnounced =>
      unfold step at hs
      dsimp only at hs
      split at hs
      · rename_i hactivating
        cases hs
        refine .same rfl fun _ => ?_
        simp only [otherWork, hactivating, Connecting.rank]
        omega
      · cases hs
  | announceConnected =>
      unfold step at hs
      dsimp only at hs
      split at hs
      · rename_i hannouncing
        cases hs
        refine .same rfl fun _ => ?_
        simp only [otherWork, hannouncing, Connecting.rank]
        omega
      · cases hs

end Stages

end McpConnection

end Attyd.Mcp
