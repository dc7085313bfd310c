import Attyd.Library.Register
import Attyd.Semantic.Tracking

/-!
# What an accepted event reports

An event is a session update, a permission request, or one of the two changes the bridge makes
itself: the end of a turn and the note that an update was invalid. The tables of tool calls and
compactions change by what an accepted event reports, and by nothing else.
-/

namespace Attyd.Semantic

open Json (Value)
open Elicitation (ValidationResult okOr)
open Attempt

/-- What happens to the state that is tracked of a session. -/
inductive Event where
  | update (update : Value)
  | permission (request : Value)
  | retireTurn
  | invalidate (reason : String)

/-- The tool call a report is about and the status it gives. -/
def toolReportOf (report : Value) : Option (String × Option String) :=
  (report.getStr "toolCallId").map fun id => (id, report.getStr "status")

namespace Event

def toolReport : Event → Option (String × Option String)
  | update report =>
      if report.getStr "sessionUpdate" = some "tool_call" ∨
          report.getStr "sessionUpdate" = some "tool_call_update" then toolReportOf report
      else none
  | permission request => (request.get "toolCall").bind toolReportOf
  | _ => none

/-- The status an event reports of a tool call. -/
def toolStatus (toolId : String) (event : Event) : Option String :=
  event.toolReport.bind fun report => if report.1 = toolId then report.2 else none

/-- The compaction a compaction update is about and the status it gives. -/
def compactionReport : Event → Option (String × String)
  | update report =>
      if report.getStr "sessionUpdate" = some "compaction_update" then
        (report.getStr "compactionId").bind fun id =>
          (report.getStr "status").map fun status => (id, status)
      else none
  | _ => none

/-- The status an event reports of a compaction. -/
def compactionStatus (id : String) (event : Event) : Option String :=
  event.compactionReport.bind fun report => if report.1 = id then some report.2 else none

/-- The compaction a summary chunk is about. -/
def chunkOf : Event → Option String
  | update report =>
      if report.getStr "sessionUpdate" = some "compaction_summary_chunk" then
        report.getStr "compactionId"
      else none
  | _ => none

/-- An event as a computation on the tracked state. -/
def apply (formats : Formats) : Event → Tracking Unit
  | update report => validateAndTrackSessionUpdate formats report
  | permission request => do
      let _ ← validatePermissionRequest formats request
      pure ()
  | retireTurn => modify (·.retireTurn)
  | invalidate reason => modify fun state =>
      { state with invalidReason := state.invalidReason.or (some reason) }

/-- Whether an event is accepted. -/
def accepted (formats : Formats) (state : SessionUpdateSemanticState) (event : Event) : Bool :=
  accepts (event.apply formats) state

/-- The tracked state after an event, accepted or not. -/
def step (formats : Formats) (state : SessionUpdateSemanticState) (event : Event) :
    SessionUpdateSemanticState :=
  after (event.apply formats) state

end Event

/-! ## The fields of a validated report -/

theorem okOr_eq_ok {α : Type} {message : String} {value : Option α} {a : α}
    (h : okOr message value = .ok a) : value = some a := by
  cases value with
  | none => cases h
  | some b =>
      cases h
      rfl

theorem requiredString_eq_ok {value : Value} {field subject text : String}
    (h : requiredString value field subject = .ok text) : value.getStr field = some text :=
  okOr_eq_ok h

theorem requiredIdentifier_eq_ok {value : Value} {field subject label id : String}
    (h : requiredIdentifier value field subject label = .ok id) : value.getStr field = some id := by
  obtain ⟨text, htext, h⟩ := bind_eq_ok.mp h
  obtain ⟨u, -, h⟩ := bind_eq_ok.mp h
  cases h
  exact requiredString_eq_ok htext

theorem optionalString_eq_ok {value : Value} {field subject : String} {text : Option String}
    (h : optionalString value field subject = .ok text) : value.getStr field = text := by
  unfold optionalString at h
  unfold Value.getStr
  split at h
  case h_1 hget =>
    cases h
    rw [hget]
    rfl
  case h_2 hget =>
    cases h
    rw [hget]
    rfl
  case h_3 s hget =>
    cases h
    rw [hget]
    rfl
  case h_4 => cases h

variable {formats : Formats} {report : Value}

theorem validateToolFields_eq_ok {toolId : String} {status : Option String}
    (h : validateToolFields formats report = .ok (toolId, status)) :
    toolReportOf report = some (toolId, status) := by
  obtain ⟨id, hid, h⟩ := bind_eq_ok.mp h
  obtain ⟨u, -, h⟩ := bind_eq_ok.mp h
  obtain ⟨reported, hstatus, h⟩ := bind_eq_ok.mp h
  cases h
  rw [toolReportOf, requiredIdentifier_eq_ok hid, optionalString_eq_ok hstatus]
  rfl

theorem validateCompactionFields_eq_ok {id status : String} {bytes : Option Nat}
    (h : validateCompactionFields formats report = .ok (id, status, bytes)) :
    report.getStr "compactionId" = some id ∧ report.getStr "status" = some status := by
  obtain ⟨id', hid, h⟩ := bind_eq_ok.mp h
  obtain ⟨status', hstatus, h⟩ := bind_eq_ok.mp h
  obtain ⟨bytes', -, h⟩ := bind_eq_ok.mp h
  cases h
  exact ⟨requiredIdentifier_eq_ok hid, requiredString_eq_ok hstatus⟩

theorem validateChunkFields_eq_ok {id : String} {content : Value}
    (h : validateChunkFields formats report = .ok (id, content)) :
    report.getStr "compactionId" = some id := by
  obtain ⟨id', hid, h⟩ := bind_eq_ok.mp h
  obtain ⟨content', -, h⟩ := bind_eq_ok.mp h
  cases h
  exact requiredIdentifier_eq_ok hid

/-! ## The validators that record a status -/

section Record

variable {s : SessionUpdateSemanticState}

theorem SessionUpdateSemanticState.toolStatus_recordTool (toolId other : String)
    (status : Option String) : (s.recordTool toolId status).toolStatus other =
      if toolId = other then status.or (s.toolStatus toolId) else s.toolStatus other := by
  by_cases h : toolId = other
  · subst h
    rw [if_pos rfl]
    simp only [recordTool, toolStatus, Finmap.lookup_insert, Option.join_some]
  · rw [if_neg h]
    simp only [recordTool, toolStatus, Finmap.lookup_insert_of_ne _ (Ne.symm h)]

/-- A tool update is recorded when it passes all its checks. -/
theorem validateToolUpdate_apply (report : Value) :
    validateToolUpdate formats report s =
      match validateToolFields formats report with
      | .ok (toolId, status) => .ok ⟨⟩ (s.recordTool toolId status)
      | .error error => .error error s := by
  rw [validateToolUpdate, check_bind_apply]
  cases validateToolFields formats report <;> rfl

/-- A tool update that is accepted changes its own call only, by the status it reports. -/
theorem validateToolUpdate_status (h : accepts (validateToolUpdate formats report) s = true)
    (toolId : String) :
    (after (validateToolUpdate formats report) s).toolStatus toolId =
      ((toolReportOf report).bind fun report =>
        if report.1 = toolId then report.2 else none).or (s.toolStatus toolId) := by
  unfold accepts at h
  unfold after
  rw [validateToolUpdate_apply] at h ⊢
  cases hfields : validateToolFields formats report with
  | error error =>
      rw [hfields] at h
      cases h
  | ok fields =>
      obtain ⟨id, status⟩ := fields
      rw [validateToolFields_eq_ok hfields]
      simp only [Option.bind_some]
      rw [SessionUpdateSemanticState.toolStatus_recordTool]
      by_cases hid : id = toolId
      · rw [if_pos hid, if_pos hid, hid]
      · rw [if_neg hid, if_neg hid, Option.none_or]

/-- A compaction update is recorded when it passes its checks and its compaction is not over. -/
theorem validateCompactionUpdate_apply (report : Value) :
    validateCompactionUpdate formats report s =
      match validateCompactionFields formats report with
      | .ok (id, status, bytes) =>
          if (s.compactions.lookup id).any (fun tracked => isTerminalCompactionStatus tracked.status)
          then .error s!"Compaction is already terminal: {id}" s
          else .ok ⟨⟩ { s with
            compactions := s.compactions.insert id
              ⟨status, bytes.getD (((s.compactions.lookup id).map (·.summaryBytes)).getD 0)⟩ }
      | .error error => .error error s := by
  rw [validateCompactionUpdate, check_bind_apply]
  cases validateCompactionFields formats report with
  | error error => rfl
  | ok fields =>
      obtain ⟨id, status, bytes⟩ := fields
      simp only [bind_apply, get_apply]
      split <;> rfl

/-- A compaction update that is accepted finds no terminal status, and leaves its own. -/
theorem validateCompactionUpdate_accepts
    (h : accepts (validateCompactionUpdate formats report) s = true) :
    ∃ id status, report.getStr "compactionId" = some id ∧ report.getStr "status" = some status ∧
      (s.compactionStatus id).any isTerminalCompactionStatus = false ∧
      ∃ tracked : TrackedCompaction, tracked.status = status ∧
        after (validateCompactionUpdate formats report) s =
          { s with compactions := s.compactions.insert id tracked } := by
  unfold accepts at h
  unfold after
  rw [validateCompactionUpdate_apply] at h ⊢
  cases hfields : validateCompactionFields formats report with
  | error error =>
      rw [hfields] at h
      cases h
  | ok fields =>
      obtain ⟨id, status, bytes⟩ := fields
      obtain ⟨hid, hstatus⟩ := validateCompactionFields_eq_ok hfields
      rw [hfields] at h
      refine ⟨id, status, hid, hstatus, ?_⟩
      rw [SessionUpdateSemanticState.compactionStatus, Option.any_map]
      by_cases hterminal : (s.compactions.lookup id).any
          (fun tracked => isTerminalCompactionStatus tracked.status) = true
      · simp only [hterminal, if_true] at h
        cases h
      · simp only [if_neg hterminal]
        exact ⟨Bool.not_eq_true _ ▸ hterminal, _, rfl, rfl⟩

/-- A summary chunk is counted when it passes its checks and its compaction is in progress. -/
theorem validateCompactionChunk_apply (report : Value) :
    validateCompactionChunk formats report s =
      match validateChunkFields formats report with
      | .ok (id, content) =>
          match s.compactions.lookup id with
          | none =>
              .error s!"Compaction summary chunks require an in-progress compaction: {id}" s
          | some tracked =>
              if tracked.status = "in_progress" then
                .ok ⟨⟩ { s with
                  compactions := s.compactions.insert id { tracked with
                    summaryBytes := saturatingAdd tracked.summaryBytes content.bytes } }
              else .error s!"Compaction summary chunks require an in-progress compaction: {id}" s
      | .error error => .error error s := by
  rw [validateCompactionChunk, check_bind_apply]
  cases validateChunkFields formats report with
  | error error => rfl
  | ok fields =>
      obtain ⟨id, content⟩ := fields
      simp only [bind_apply, get_apply]
      cases s.compactions.lookup id with
      | none => rfl
      | some tracked =>
          by_cases hstatus : tracked.status = "in_progress"
          · simp only [hstatus, ne_eq, not_true_eq_false, if_false, if_true]
            rfl
          · simp only [hstatus, ne_eq, not_false_eq_true, if_false, if_true]
            rfl

/-- A summary chunk that is accepted finds its compaction in progress, and leaves it so. -/
theorem validateCompactionChunk_accepts
    (h : accepts (validateCompactionChunk formats report) s = true) :
    ∃ id, report.getStr "compactionId" = some id ∧ s.compactionStatus id = some "in_progress" ∧
      ∃ tracked : TrackedCompaction, tracked.status = "in_progress" ∧
        after (validateCompactionChunk formats report) s =
          { s with compactions := s.compactions.insert id tracked } := by
  unfold accepts at h
  unfold after
  rw [validateCompactionChunk_apply] at h ⊢
  cases hfields : validateChunkFields formats report with
  | error error =>
      rw [hfields] at h
      cases h
  | ok fields =>
      obtain ⟨id, content⟩ := fields
      simp only [hfields] at h ⊢
      refine ⟨id, validateChunkFields_eq_ok hfields, ?_⟩
      cases hlookup : s.compactions.lookup id with
      | none =>
          rw [hlookup] at h
          cases h
      | some tracked =>
          by_cases hstatus : tracked.status = "in_progress"
          · refine ⟨?_, { tracked with
              summaryBytes := saturatingAdd tracked.summaryBytes content.bytes }, hstatus, ?_⟩
            · rw [SessionUpdateSemanticState.compactionStatus, hlookup, Option.map_some, hstatus]
            · simp only [if_pos hstatus]
          · simp only [hlookup, if_neg hstatus] at h
            cases h

end Record

/-! ## The effect of an accepted event -/

/-- The tables an event may report to. -/
def SessionUpdateSemanticState.entities (s : SessionUpdateSemanticState) :
    Table String TrackedCompaction × Table String (Option String) :=
  (s.compactions, s.toolCalls)

theorem keeps_validateMessageChunk (kind : String) (report : Value) :
    Keeps SessionUpdateSemanticState.entities (validateMessageChunk formats kind report) := by
  refine (keeps_check _).bind fun messageId => ?_
  cases messageId with
  | none => exact keeps_pure _
  | some id => exact keeps_modify fun _ => rfl

/-- A payload is validated as a tool update, a compaction update or a summary chunk, or it leaves
the tables of entities alone. -/
theorem validateSessionUpdatePayload_cases (formats : Formats) (s : SessionUpdateSemanticState)
    {kind : String}
    (hkind : report.getStr "sessionUpdate" = some kind) :
    ((kind = "tool_call" ∨ kind = "tool_call_update") ∧
      validateSessionUpdatePayload formats report s = validateToolUpdate formats report s) ∨
    (kind = "compaction_update" ∧
      validateSessionUpdatePayload formats report s =
        validateCompactionUpdate formats report s) ∨
    (kind = "compaction_summary_chunk" ∧
      validateSessionUpdatePayload formats report s =
        validateCompactionChunk formats report s) ∨
    (kind ≠ "tool_call" ∧ kind ≠ "tool_call_update" ∧ kind ≠ "compaction_update" ∧
      kind ≠ "compaction_summary_chunk" ∧
      (after (validateSessionUpdatePayload formats report) s).entities = s.entities) := by
  have hread : requiredString report "sessionUpdate" "session update" = .ok kind := by
    rw [requiredString, hkind, okOr]
  unfold after
  simp only [validateSessionUpdatePayload, check_bind_apply, hread]
  split
  case h_1 | h_2 | h_3 =>
    refine .inr (.inr (.inr ⟨by decide, by decide, by decide, by decide, ?_⟩))
    exact keeps_validateMessageChunk _ report s
  case h_4 => exact .inl ⟨.inl rfl, rfl⟩
  case h_5 => exact .inl ⟨.inr rfl, rfl⟩
  case h_14 => exact .inr (.inl ⟨rfl, rfl⟩)
  case h_15 => exact .inr (.inr (.inl ⟨rfl, rfl⟩))
  case h_6 | h_9 | h_11 | h_12 | h_13 =>
    refine .inr (.inr (.inr ⟨by decide, by decide, by decide, by decide, ?_⟩))
    exact keeps_check _ s
  case h_7 | h_8 | h_10 =>
    refine .inr (.inr (.inr ⟨by decide, by decide, by decide, by decide, ?_⟩))
    refine (Keeps.bind (keeps_check _) fun _ => ?_ :
      Keeps SessionUpdateSemanticState.entities (check _ >>= _)) s
    exact keeps_modify fun _ => rfl
  case h_16 =>
    refine .inr (.inr (.inr ⟨?_, ?_, ?_, ?_, rfl⟩)) <;> assumption

/-- What an accepted event does to the statuses: it reports to none that is over, a chunk only to
a compaction in progress, and each status is the one reported, or else the one before. -/
structure Event.Recorded (event : Event) (s t : SessionUpdateSemanticState) : Prop where
  tool : ∀ toolId, t.toolStatus toolId = (event.toolStatus toolId).or (s.toolStatus toolId)
  compaction : ∀ id,
    t.compactionStatus id = (event.compactionStatus id).or (s.compactionStatus id)
  notOver : ∀ id status, event.compactionReport = some (id, status) →
    (s.compactionStatus id).any isTerminalCompactionStatus = false
  inProgress : ∀ id, event.chunkOf = some id → s.compactionStatus id = some "in_progress"

/-- An event that reports nothing and leaves the tables of entities alone. -/
theorem Event.recorded_of_entities {event : Event} {s t : SessionUpdateSemanticState}
    (htool : event.toolReport = none) (hcompaction : event.compactionReport = none)
    (hchunk : event.chunkOf = none) (h : t.entities = s.entities) : event.Recorded s t := by
  obtain ⟨hcompactions, htools⟩ := Prod.mk.inj h
  refine ⟨fun toolId => ?_, fun id => ?_, fun id status hreport => ?_, fun id hid => ?_⟩
  · rw [Event.toolStatus, htool, SessionUpdateSemanticState.toolStatus, htools]
    rfl
  · rw [Event.compactionStatus, hcompaction, SessionUpdateSemanticState.compactionStatus,
      hcompactions]
    rfl
  · rw [hcompaction] at hreport
    cases hreport
  · rw [hchunk] at hid
    cases hid

/-- A tool update that is accepted records what it reports, whatever event it is a part of. -/
theorem validateToolUpdate_recorded {event : Event} {s : SessionUpdateSemanticState}
    (htool : event.toolReport = toolReportOf report) (hcompaction : event.compactionReport = none)
    (hchunk : event.chunkOf = none) (h : accepts (validateToolUpdate formats report) s = true) :
    event.Recorded s (after (validateToolUpdate formats report) s) := by
  refine ⟨fun toolId => ?_, fun id => ?_, fun id status hreport => ?_, fun id hid => ?_⟩
  · rw [validateToolUpdate_status h, Event.toolStatus, htool]
  · rw [Event.compactionStatus, hcompaction, Option.bind_none, Option.none_or]
    unfold after
    rw [validateToolUpdate_apply]
    cases validateToolFields formats report <;> rfl
  · rw [hcompaction] at hreport
    cases hreport
  · rw [hchunk] at hid
    cases hid

theorem SessionUpdateSemanticState.compactionStatus_insert (s : SessionUpdateSemanticState)
    (id other : String) (tracked : TrackedCompaction) :
    { s with compactions := s.compactions.insert id tracked }.compactionStatus other =
      if id = other then some tracked.status else s.compactionStatus other := by
  by_cases h : id = other
  · subst h
    rw [if_pos rfl]
    simp only [compactionStatus, Finmap.lookup_insert, Option.map_some]
  · rw [if_neg h]
    simp only [compactionStatus, Finmap.lookup_insert_of_ne _ (Ne.symm h)]

/-- A compaction update that is accepted records what it reports. -/
theorem validateCompactionUpdate_recorded {s : SessionUpdateSemanticState}
    (hkind : report.getStr "sessionUpdate" = some "compaction_update")
    (h : accepts (validateCompactionUpdate formats report) s = true) :
    (Event.update report).Recorded s (after (validateCompactionUpdate formats report) s) := by
  obtain ⟨id, status, hid, hstatus, hopen, tracked, rfl, hafter⟩ :=
    validateCompactionUpdate_accepts h
  have hreport : (Event.update report).compactionReport = some (id, tracked.status) := by
    rw [Event.compactionReport, if_pos hkind, hid, hstatus]
    rfl
  rw [hafter]
  refine ⟨fun toolId => ?_, fun other => ?_, fun other status hother => ?_, fun other hother => ?_⟩
  · simp only [Event.toolStatus, Event.toolReport, hkind, Option.some.injEq, String.reduceEq,
      or_self, if_false, Option.bind_none, Option.none_or]
    rfl
  · rw [SessionUpdateSemanticState.compactionStatus_insert, Event.compactionStatus, hreport,
      Option.bind_some]
    by_cases hsame : id = other
    · rw [if_pos hsame, if_pos hsame, Option.some_or]
    · rw [if_neg hsame, if_neg hsame, Option.none_or]
  · rw [hreport] at hother
    cases hother
    exact hopen
  · simp [Event.chunkOf, hkind] at hother

/-- A summary chunk that is accepted reports no status. -/
theorem validateCompactionChunk_recorded {s : SessionUpdateSemanticState}
    (hkind : report.getStr "sessionUpdate" = some "compaction_summary_chunk")
    (h : accepts (validateCompactionChunk formats report) s = true) :
    (Event.update report).Recorded s (after (validateCompactionChunk formats report) s) := by
  obtain ⟨id, hid, hprogress, tracked, hstatus, hafter⟩ := validateCompactionChunk_accepts h
  have hreport : (Event.update report).compactionReport = none := by
    simp [Event.compactionReport, hkind]
  rw [hafter]
  refine ⟨fun toolId => ?_, fun other => ?_, fun other status hother => ?_, fun other hother => ?_⟩
  · simp only [Event.toolStatus, Event.toolReport, hkind, Option.some.injEq, String.reduceEq,
      or_self, if_false, Option.bind_none, Option.none_or]
    rfl
  · rw [SessionUpdateSemanticState.compactionStatus_insert, Event.compactionStatus, hreport,
      Option.bind_none, Option.none_or]
    by_cases hsame : id = other
    · rw [if_pos hsame, hstatus, ← hsame, hprogress]
    · rw [if_neg hsame]
  · rw [hreport] at hother
    cases hother
  · rw [Event.chunkOf, if_pos hkind, hid] at hother
    cases hother
    exact hprogress

/-- A payload that is accepted records what it reports. -/
theorem validateSessionUpdatePayload_recorded {s : SessionUpdateSemanticState}
    (h : accepts (validateSessionUpdatePayload formats report) s = true) :
    (Event.update report).Recorded s (after (validateSessionUpdatePayload formats report) s) := by
  have hread : ∃ kind, report.getStr "sessionUpdate" = some kind := by
    cases hkind : report.getStr "sessionUpdate" with
    | some kind => exact ⟨kind, rfl⟩
    | none =>
        unfold accepts at h
        simp only [validateSessionUpdatePayload, check_bind_apply, requiredString, hkind, okOr] at h
        cases h
  obtain ⟨kind, hkind⟩ := hread
  rcases validateSessionUpdatePayload_cases formats s hkind with
    ⟨htool, happly⟩ | ⟨rfl, happly⟩ | ⟨rfl, happly⟩ | ⟨h₁, h₂, h₃, h₄, hentities⟩
  · rw [after_congr happly]
    rw [accepts_congr happly] at h
    rcases htool with rfl | rfl
    · exact validateToolUpdate_recorded (by simp [Event.toolReport, hkind])
        (by simp [Event.compactionReport, hkind]) (by simp [Event.chunkOf, hkind]) h
    · exact validateToolUpdate_recorded (by simp [Event.toolReport, hkind])
        (by simp [Event.compactionReport, hkind]) (by simp [Event.chunkOf, hkind]) h
  · rw [after_congr happly]
    rw [accepts_congr happly] at h
    exact validateCompactionUpdate_recorded hkind h
  · rw [after_congr happly]
    rw [accepts_congr happly] at h
    exact validateCompactionChunk_recorded hkind h
  · refine Event.recorded_of_entities ?_ ?_ ?_ hentities
    · simp [Event.toolReport, hkind, h₁, h₂]
    · simp [Event.compactionReport, hkind, h₃]
    · simp [Event.chunkOf, hkind, h₄]

end Attyd.Semantic
