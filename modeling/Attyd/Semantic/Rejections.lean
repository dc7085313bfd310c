import Attyd.Semantic.Reports

/-!
# What rejected events leave behind

An update that is rejected leaves the tracked state as it was. A permission request is validated
in place: its tool call is recorded before its options are checked, so a request that is rejected
for its options leaves the tool call behind, unless the call was tracked with that status before.

## Implementation notes

A run goes on after a rejected event, as the bridge does.
-/

namespace Attyd.Semantic

open Json (Value)
open Attempt

variable {formats : Formats} {s t : SessionUpdateSemanticState}

/-! ## Permission requests -/

/-- A permission request records its tool call, and answers with what its options are. -/
theorem validatePermissionRequest_apply (request : Value) :
    validatePermissionRequest formats request s =
      match request.get "toolCall" with
      | none => .error "Agent permission request is missing its tool call" s
      | some toolCall =>
          match validateToolFields formats toolCall with
          | .error error => .error error s
          | .ok (toolId, status) =>
              match validatePermissionOptions request with
              | .error error => .error error (s.recordTool toolId status)
              | .ok ids => .ok ids (s.recordTool toolId status) := by
  rw [validatePermissionRequest, check_bind_apply]
  cases request.get "toolCall" with
  | none => rfl
  | some toolCall =>
      simp only [Elicitation.okOr, bind_apply, validateToolUpdate_apply]
      cases validateToolFields formats toolCall with
      | error error => rfl
      | ok fields =>
          cases validatePermissionOptions request <;> rfl

/-- A report changes nothing when its call is tracked, with the status it gives if it gives one. -/
theorem SessionUpdateSemanticState.recordTool_eq_self {toolId : String} {status : Option String} :
    s.recordTool toolId status = s ↔
      ∃ tracked, s.toolCalls.lookup toolId = some tracked ∧ (status = none ∨ status = tracked) := by
  constructor
  · intro h
    have hlookup := congrArg (fun s => s.toolCalls.lookup toolId) h
    simp only [recordTool, Finmap.lookup_insert] at hlookup
    refine ⟨_, hlookup.symm, ?_⟩
    cases status with
    | none => exact .inl rfl
    | some text => exact .inr rfl
  · rintro ⟨tracked, hlookup, hstatus⟩
    have hsame : status.or (s.toolStatus toolId) = tracked := by
      rw [toolStatus, hlookup, Option.join_some]
      rcases hstatus with rfl | rfl
      · rfl
      · exact Option.or_self
    have htable : s.toolCalls.insert toolId tracked = s.toolCalls := by
      refine Finmap.ext_lookup fun other => ?_
      by_cases h : other = toolId
      · rw [h, Finmap.lookup_insert, hlookup]
      · rw [Finmap.lookup_insert_of_ne _ h]
    rw [recordTool, hsame, htable]

/-- A request whose tool call is in order and whose options are not is about a tool call that is
tracked, with the status the request gives if it gives one. -/
def Traceless (formats : Formats) (s : SessionUpdateSemanticState) (request : Value) : Prop :=
  ∀ toolCall toolId status error, request.get "toolCall" = some toolCall →
    validateToolFields formats toolCall = .ok (toolId, status) →
    validatePermissionOptions request = .error error →
    ∃ tracked, s.toolCalls.lookup toolId = some tracked ∧ (status = none ∨ status = tracked)

/-- Exactly the traceless requests are rejected without a change. -/
theorem rejected_request_iff {request : Value}
    (h : accepts (validatePermissionRequest formats request) s = false) :
    after (validatePermissionRequest formats request) s = s ↔ Traceless formats s request := by
  unfold accepts at h
  unfold after Traceless
  rw [validatePermissionRequest_apply] at h ⊢
  cases hcall : request.get "toolCall" with
  | none => simp
  | some toolCall =>
      cases hfields : validateToolFields formats toolCall with
      | error error =>
          refine ⟨fun _ toolCall' id status error' hget hok => ?_, fun _ => by simp only [hfields]⟩
          cases hget
          rw [hfields] at hok
          cases hok
      | ok fields =>
          obtain ⟨toolId, status⟩ := fields
          cases hoptions : validatePermissionOptions request with
          | ok ids =>
              simp only [hcall, hfields, hoptions] at h
              cases h
          | error error =>
              simp only [hfields]
              rw [SessionUpdateSemanticState.recordTool_eq_self]
              constructor
              · rintro hknown toolCall' id' status' error' hget hok -
                cases hget
                rw [hfields] at hok
                cases hok
                exact hknown
              · exact fun hall => hall toolCall toolId status error rfl hfields rfl

/-- A request that is accepted leaves what its tool call leaves. -/
theorem accepted_request {request : Value}
    (h : accepts (validatePermissionRequest formats request) s = true) :
    ∃ toolCall, request.get "toolCall" = some toolCall ∧
      accepts (validateToolUpdate formats toolCall) s = true ∧
      after (validatePermissionRequest formats request) s =
        after (validateToolUpdate formats toolCall) s := by
  unfold accepts at h ⊢
  unfold after
  rw [validatePermissionRequest_apply] at h ⊢
  cases hcall : request.get "toolCall" with
  | none =>
      rw [hcall] at h
      cases h
  | some toolCall =>
      refine ⟨toolCall, rfl, ?_⟩
      rw [validateToolUpdate_apply]
      cases hfields : validateToolFields formats toolCall with
      | error error =>
          simp only [hcall, hfields] at h
          cases h
      | ok fields =>
          cases hoptions : validatePermissionOptions request with
          | error error =>
              simp only [hcall, hfields, hoptions] at h
              cases h
          | ok ids =>
              simp only [hfields]
              exact ⟨trivial, trivial⟩

/-! ## Events -/

/-- Of the entities only the tool calls can change when an event is rejected. -/
theorem Event.step_compactions_of_rejected {event : Event}
    (h : event.accepted formats s = false) :
    (event.step formats s).compactions = s.compactions := by
  cases event with
  | update report =>
      rw [Event.step, Event.apply, validateAndTrackSessionUpdate, after_transaction_of_rejects h]
  | permission request =>
      have hkeeps : Keeps SessionUpdateSemanticState.compactions
          ((Event.permission request).apply formats) := by
        refine Keeps.bind ?_ fun _ => keeps_pure _
        intro s
        unfold after
        rw [validatePermissionRequest_apply]
        cases request.get "toolCall" with
        | none => rfl
        | some toolCall =>
            cases hfields : validateToolFields formats toolCall with
            | error error => simp only [hfields]
            | ok fields =>
                simp only [hfields]
                cases validatePermissionOptions request <;> rfl
      exact hkeeps s
  | retireTurn => cases h
  | invalidate reason => cases h

/-- An event that leaves no trace when it is rejected. -/
def Event.Traceless (formats : Formats) (s : SessionUpdateSemanticState) : Event → Prop
  | permission request => Semantic.Traceless formats s request
  | _ => True

/-- The answer of a permission request that was accepted is dropped. -/
theorem Event.accepted_permission (formats : Formats) (s : SessionUpdateSemanticState)
    (request : Value) :
    (permission request).accepted formats s = accepts (validatePermissionRequest formats request) s ∧
      (permission request).step formats s =
        after (validatePermissionRequest formats request) s := by
  unfold Event.accepted Event.step accepts after
  simp only [Event.apply, bind_apply]
  cases validatePermissionRequest formats request s <;> exact ⟨rfl, rfl⟩

/-- A traceless event that is rejected changes nothing. -/
theorem Event.step_of_rejected {event : Event} (h : event.accepted formats s = false)
    (htrace : event.Traceless formats s) : event.step formats s = s := by
  cases event with
  | update report => exact after_transaction_of_rejects h
  | permission request =>
      obtain ⟨haccepted, hstep⟩ := Event.accepted_permission formats s request
      rw [haccepted] at h
      rw [hstep]
      exact (rejected_request_iff h).mpr htrace
  | retireTurn => cases h
  | invalidate reason => cases h

theorem Event.Recorded.congr {event : Event} {t' : SessionUpdateSemanticState}
    (h : event.Recorded s t) (hsame : t'.entities = t.entities) : event.Recorded s t' := by
  obtain ⟨hcompactions, htools⟩ := Prod.mk.inj hsame
  refine ⟨fun toolId => ?_, fun id => ?_, h.notOver, h.inProgress⟩
  · rw [← h.tool toolId, SessionUpdateSemanticState.toolStatus, htools]
    rfl
  · rw [← h.compaction id, SessionUpdateSemanticState.compactionStatus, hcompactions]
    rfl

/-- An event that is accepted records what it reports. -/
theorem Event.step_recorded {event : Event} (h : event.accepted formats s = true) :
    event.Recorded s (event.step formats s) := by
  cases event with
  | update report =>
      obtain ⟨hcopy, hafter⟩ := transaction_of_accepts h
      obtain ⟨hpayload, hcount⟩ := accepts_bind_modify hcopy
      refine (validateSessionUpdatePayload_recorded hpayload).congr ?_
      change (after (validateAndTrackSessionUpdate formats report) s).entities = _
      rw [validateAndTrackSessionUpdate, hafter]
      have hentities := congrArg SessionUpdateSemanticState.entities hcount
      exact hentities
  | permission request =>
      obtain ⟨haccepted, hstep⟩ := Event.accepted_permission formats s request
      rw [haccepted] at h
      obtain ⟨toolCall, hcall, htool, hafter⟩ := accepted_request h
      rw [hstep, hafter]
      exact validateToolUpdate_recorded (by rw [Event.toolReport, hcall, Option.bind_some]) rfl rfl
        htool
  | retireTurn => exact Event.recorded_of_entities rfl rfl rfl rfl
  | invalidate reason => exact Event.recorded_of_entities rfl rfl rfl rfl

/-! ## Runs -/

/-- The statuses that the accepted events of a run reported of a compaction, in order. -/
def compactionStatuses (formats : Formats) (s : SessionUpdateSemanticState) (events : List Event)
    (id : String) : List String :=
  (taken (Event.step formats) (Event.accepted formats) s events).filterMap
    (Event.compactionStatus id)

/-- The statuses that the accepted events of a run reported of a tool call, in order. -/
def toolStatuses (formats : Formats) (s : SessionUpdateSemanticState) (events : List Event)
    (toolId : String) : List String :=
  (taken (Event.step formats) (Event.accepted formats) s events).filterMap
    (Event.toolStatus toolId)

/-- After every run the tracked status of a compaction is the last one accepted for it. -/
theorem compactionStatus_run (events : List Event) (id : String) :
    (run (Event.step formats) s events).compactionStatus id =
      lastOr (compactionStatuses formats s events id) (s.compactionStatus id) := by
  refine register_run (fun s => s.compactionStatus id) (Event.compactionStatus id)
    (fun s event => ?_) s events
  cases h : event.accepted formats s with
  | true => exact (Event.step_recorded h).compaction id
  | false =>
      simp only [SessionUpdateSemanticState.compactionStatus,
        Event.step_compactions_of_rejected h, Bool.false_eq_true, if_false]

/-- After a run of traceless events the tracked status of a tool call is the last one accepted
for it. -/
theorem toolStatus_run {events : List Event} (toolId : String)
    (h : Along (Event.step formats) (Event.Traceless formats) s events) :
    (run (Event.step formats) s events).toolStatus toolId =
      lastOr (toolStatuses formats s events toolId) (s.toolStatus toolId) := by
  refine register_run_along (fun s => s.toolStatus toolId) (Event.toolStatus toolId)
    (fun s event htrace => ?_) h
  cases h : event.accepted formats s with
  | true => exact (Event.step_recorded h).tool toolId
  | false =>
      simp only [Event.step_of_rejected h htrace, Bool.false_eq_true, if_false]

/-- A compaction that is over stays over. -/
theorem Event.step_over {id : String} (event : Event)
    (h : (s.compactionStatus id).any isTerminalCompactionStatus = true) :
    ((event.step formats s).compactionStatus id).any isTerminalCompactionStatus = true := by
  cases haccepted : event.accepted formats s with
  | false =>
      rw [SessionUpdateSemanticState.compactionStatus,
        Event.step_compactions_of_rejected haccepted]
      exact h
  | true =>
      have hrecorded := Event.step_recorded haccepted
      rw [hrecorded.compaction id]
      cases hreport : event.compactionReport with
      | none =>
          rw [Event.compactionStatus, hreport]
          exact h
      | some report =>
          by_cases hid : report.1 = id
          · have hopen := hrecorded.notOver report.1 report.2 hreport
            rw [hid, h] at hopen
            cases hopen
          · rw [Event.compactionStatus, hreport, Option.bind_some, if_neg hid]
            exact h

/-- An event about a compaction: an update of it or a chunk of its summary. -/
def Event.About (event : Event) (id : String) : Prop :=
  event.chunkOf = some id ∨ ∃ status, event.compactionReport = some (id, status)

/-- Nothing is accepted about a compaction that is over. -/
theorem Event.rejected_of_over {event : Event} {id : String} (habout : event.About id)
    (h : (s.compactionStatus id).any isTerminalCompactionStatus = true) :
    event.accepted formats s = false := by
  cases haccepted : event.accepted formats s with
  | false => rfl
  | true =>
      have hrecorded := Event.step_recorded haccepted
      rcases habout with hchunk | ⟨status, hreport⟩
      · rw [hrecorded.inProgress id hchunk] at h
        cases h
      · rw [hrecorded.notOver id status hreport] at h
        cases h

/-- A rejected update leaves the tracked state as it was, and a rejected permission request does
exactly when it is traceless. In every run a summary chunk is accepted only while the last
accepted status of its compaction is `in_progress`, and nothing about a compaction is accepted
once a terminal status of it was; in every run of traceless events the status of a tool call is
the last one accepted for it. -/
theorem rejections_keep_iff (formats : Formats) :
    (∀ s report, accepts (validateAndTrackSessionUpdate formats report) s = false →
      after (validateAndTrackSessionUpdate formats report) s = s) ∧
    (∀ s request, accepts (validatePermissionRequest formats request) s = false →
      (after (validatePermissionRequest formats request) s = s ↔
        Traceless formats s request)) ∧
    (∀ s events (event : Event) id, event.chunkOf = some id →
      event.accepted formats (run (Event.step formats) s events) = true →
      lastOr (compactionStatuses formats s events id) (s.compactionStatus id) =
        some "in_progress") ∧
    (∀ s earlier (ended : Event) between (event : Event) id status,
      ended.compactionReport = some (id, status) → isTerminalCompactionStatus status = true →
      ended.accepted formats (run (Event.step formats) s earlier) = true → event.About id →
      event.accepted formats (run (Event.step formats) s (earlier ++ ended :: between)) = false) ∧
    ∀ s events toolId, Along (Event.step formats) (Event.Traceless formats) s events →
      (run (Event.step formats) s events).toolStatus toolId =
        lastOr (toolStatuses formats s events toolId) (s.toolStatus toolId) := by
  refine ⟨fun s report h => after_transaction_of_rejects h,
    fun s request h => rejected_request_iff h, fun s events event id hchunk haccepted => ?_,
    fun s earlier ended between event id status hreport hterminal haccepted habout => ?_,
    fun s events toolId h => toolStatus_run toolId h⟩
  · rw [← compactionStatus_run]
    exact (Event.step_recorded haccepted).inProgress id hchunk
  · refine Event.rejected_of_over habout ?_
    rw [run_append, run_cons]
    refine run_invariant (P := fun s : SessionUpdateSemanticState =>
      (s.compactionStatus id).any isTerminalCompactionStatus)
      (fun s event h => event.step_over h) ?_ between
    rw [(Event.step_recorded haccepted).compaction id, Event.compactionStatus, hreport,
      Option.bind_some, if_pos rfl, Option.some_or]
    exact hterminal

/-- A request that gives a status and offers no option. -/
def optionlessRequest : Value :=
  .ofFields
    [("toolCall", .ofFields
      [("toolCallId", .string "t"), ("status", .string "completed")]),
      ("options", .array [])]

/-- The request is rejected for its options, and its tool call stays behind as completed. -/
theorem rejected_request_tracks :
    accepts (validatePermissionRequest ⟨fun _ => none, fun _ => false, fun _ => 0⟩
      optionlessRequest) .default = false ∧
    (after (validatePermissionRequest ⟨fun _ => none, fun _ => false, fun _ => 0⟩
      optionlessRequest) .default).toolStatus "t" = some "completed" ∧
    SessionUpdateSemanticState.default.toolStatus "t" = none := by
  decide +kernel

end Attyd.Semantic
