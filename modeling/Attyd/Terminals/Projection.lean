import Attyd.Library.Machine
import Attyd.Terminals.Browser
import Attyd.Terminals.Entry

/-!
# The list of the browser beside the fold of the server

The server folds every published snapshot and tells the browsers, unless the snapshot changes
nothing or its terminal has been released. The browser merges what it is told. If it does not know
the terminal it fetches the view instead, and it may fetch the view at any time; the list it shows
is then the server's.

## Implementation notes

One terminal is followed; a fetched view brings whatever snapshots of others there are. Events are
in the order in which the server takes them. `folded` is what the server folded last: a session
forgets it with the release. `Tracks` says that both sides hold the same bytes, so the texts can
differ by decoding alone.
-/

namespace Attyd.Terminals

open Json (Value)
open Session (terminalReleased)

/-- What the manager and the server know of a terminal, and what the browser does. -/
structure Projection where
  sessionId : String
  terminalId : String
  /-- The manager publishes nothing after a release. -/
  releasedPublished : Bool
  entry : Entry
  /-- The snapshot the server folded last. -/
  folded : Option Value
  /-- The snapshot in the view of the browser. -/
  terminal : Option Browser.TerminalSnapshot
  /-- The list the browser shows. -/
  snapshots : List Browser.TerminalSnapshot

/-- The manager publishes a snapshot, the terminal is registered once it is created, a history is
installed, or the browser fetches the view. Whether the session refers to the terminal is given,
and so are the snapshots of other terminals in a view that the browser fetches. -/
inductive ProjectionEvent where
  | publish (publication : Publication) (referenced : Bool)
      (others : List Browser.TerminalSnapshot)
  | register (others : List Browser.TerminalSnapshot)
  | prune (referenced : Bool)
  | fetch (others : List Browser.TerminalSnapshot)

namespace Projection

def new (sessionId terminalId : String) : Projection where
  sessionId
  terminalId
  releasedPublished := false
  entry := .new
  folded := none
  terminal := none
  snapshots := []

/-- The browser takes over the terminals of a view. -/
def hydrate (self : Projection) (others : List Browser.TerminalSnapshot) : Projection :=
  { self with
    terminal := self.entry.viewed.map .ofValue
    snapshots :=
      others.filter (·.terminalId ≠ self.terminalId) ++
        (self.entry.viewed.map Browser.TerminalSnapshot.ofValue).toList }

/-- A published snapshot as the browser reads it. -/
def incoming (self : Projection) (publication : Publication) : Browser.TerminalSnapshot :=
  .ofValue (publication.value self.sessionId self.terminalId)

/-- Whether the browser merges a snapshot: it fetches the view when there is nothing to append
to. -/
def merges (self : Projection) (publication : Publication) : Bool :=
  !((self.incoming publication).outputAppend && self.terminal.isNone)

/-- The browser is told of a snapshot. -/
def receive (self : Projection) (publication : Publication)
    (others : List Browser.TerminalSnapshot) : Projection :=
  if self.merges publication then
    match Browser.mergeTerminalSnapshot self.terminal (self.incoming publication) with
    | none => self
    | some merged =>
        { self with
          terminal := some merged
          snapshots := Browser.upsertTerminalSnapshot self.snapshots merged }
  else self.hydrate others

/-- The server has folded a snapshot. -/
def fold (self : Projection) (publication : Publication) (entry : Entry) : Projection :=
  { self with
    entry
    folded := some (self.entry.materialized (publication.value self.sessionId self.terminalId)) }

/-- The server takes over a snapshot, and tells the browser of it if it changes anything. -/
def publishTerminalSnapshot (self : Projection) (publication : Publication) (referenced : Bool)
    (others : List Browser.TerminalSnapshot) : Projection :=
  let terminal := publication.value self.sessionId self.terminalId
  let applied :=
    self.entry.applyTerminalSnapshot self.sessionId self.terminalId referenced terminal
  if applied.1 then (self.fold publication applied.2).receive publication others
  else { self with entry := applied.2 }

/-- The manager publishes a snapshot, unless it has published a release. -/
def emitSnapshot (self : Projection) (publication : Publication) (referenced : Bool)
    (others : List Browser.TerminalSnapshot) : Projection :=
  if self.releasedPublished then self
  else
    { self with releasedPublished := publication.released }.publishTerminalSnapshot publication
      referenced others

/-- A terminal that was created is registered, unless a snapshot of it came first. -/
def registerCreatedTerminal (self : Projection) (others : List Browser.TerminalSnapshot) :
    Projection :=
  if self.entry.current.isSome then self
  else self.publishTerminalSnapshot .created false others

def step (self : Projection) : ProjectionEvent → Projection
  | .publish publication referenced others => self.emitSnapshot publication referenced others
  | .register others => self.registerCreatedTerminal others
  | .prune referenced => { self with entry := self.entry.pruneRetainedTerminals referenced }
  | .fetch others => self.hydrate others

/-- The text the browser shows for the terminal. -/
def shown (self : Projection) : Option String :=
  (self.snapshots.find? (·.terminalId = self.terminalId)).map (·.output)

/-- The text of the server's snapshot. -/
def text (self : Projection) : Option String := self.folded.bind (·.getStr "output")

/-- The browser shows the server's text, or nothing when the server's view has no such terminal. -/
def Agrees (self : Projection) : Prop :=
  self.shown = self.text ∨ self.shown = none ∧ self.entry.viewed = none

/-- Whether the server does nothing about a snapshot: the terminal has been released, or the
snapshot folds to the one that is kept. -/
def ignores (self : Projection) (publication : Publication) : Bool :=
  self.entry.released ||
    self.entry.repeats (publication.value self.sessionId self.terminalId)

/-- The bytes of the server's snapshot after a publication. -/
def bytesAfter (self : Projection) (publication : Publication) : List UInt8 :=
  foldedBytes self.entry.current (publication.value self.sessionId self.terminalId)

/-- If the browser has merged the snapshot in its view, the text of the bytes survives it. -/
def Intact (self : Projection) : Prop :=
  ∀ terminal ∈ self.terminal, terminal.retainedBytes.isSome = true →
    ∀ bytes ∈ Browser.terminalOutputBytes terminal, Shown terminal.running bytes

/-- What has to hold of a snapshot for the browser to show the server's text after it. -/
def SurvivesSnapshot (self : Projection) (publication : Publication) : Prop :=
  if self.ignores publication then self.Intact
  else self.merges publication = true → Shown publication.running (self.bytesAfter publication)

/-- What has to hold of an event for the browser to show the server's text after it: if the browser
merges a snapshot, the text of the bytes survives it; if it is told nothing, the text it shows has
survived before. -/
def Survives (self : Projection) : ProjectionEvent → Prop
  | .publish publication _ _ =>
      if self.releasedPublished then self.Intact else self.SurvivesSnapshot publication
  | .register _ =>
      if self.entry.current.isSome then self.Intact else self.SurvivesSnapshot .created
  | .prune _ => self.Intact
  | .fetch _ => True

/-- What holds of the server: the snapshot it keeps can be appended to, and a view shows its
text. -/
structure Stored (projection : Projection) : Prop where
  current : ∀ value ∈ projection.entry.current, terminalReleased value = false ∧
    value.getStr "outputBytes" = some (Base64.encode (outputBytes value))
  viewed : ∀ value ∈ projection.entry.viewed,
    value.getStr "terminalId" = some projection.terminalId ∧ value.get "retainedBytes" = none ∧
      ∃ output, value.getStr "output" = some output ∧ projection.text = some output
  gone : projection.entry.released = true →
    projection.entry.current = none ∧ projection.releasedPublished = true
  retained : projection.entry.retained.isSome = true → projection.entry.released = true

/-- The snapshot in the view of the browser is the server's, as a view brings it or as the browser
has merged it. -/
inductive Mirrors (text : Option String) (terminal : Browser.TerminalSnapshot) : Prop where
  | viewed (hretained : terminal.retainedBytes = none) (htext : text = some terminal.output)
  | merged (bytes : List UInt8) (hretained : terminal.retainedBytes = some bytes.length)
      (hbytes : Browser.terminalOutputBytes terminal = some bytes)
      (houtput : terminal.output = .ofList (Browser.decode terminal.running bytes))
      (htext : text = some (fromUtf8Lossy (visible terminal.running bytes)))

/-- The browser shows the snapshot in its view, which is the server's, and until the release holds
the same bytes. -/
structure Tracks (projection : Projection) : Prop where
  stored : projection.Stored
  listed : projection.shown =
    projection.terminal.map fun t => Browser.retainTerminalBytes t.output t.retainedBytes
  absent : projection.terminal = none → projection.entry.viewed = none
  mirrors : ∀ terminal ∈ projection.terminal, Mirrors projection.text terminal
  same : projection.entry.released = false → ∀ terminal ∈ projection.terminal,
    ∃ value ∈ projection.entry.current,
      Browser.terminalOutputBytes terminal = some (outputBytes value)

variable {projection : Projection}

theorem tracks_new (sessionId terminalId : String) : (new sessionId terminalId).Tracks := by
  refine ⟨⟨?_, ?_, ?_, ?_⟩, rfl, fun _ => rfl, ?_, ?_⟩
  all_goals simp [new, Entry.new, Entry.viewed]

/-- The text of a snapshot in the view of the browser is the server's exactly when it survives. -/
theorem Mirrors.shown_iff {text : Option String} {terminal : Browser.TerminalSnapshot}
    (h : Mirrors text terminal) :
    some (Browser.retainTerminalBytes terminal.output terminal.retainedBytes) = text ↔
      (terminal.retainedBytes.isSome = true → ∀ bytes ∈ Browser.terminalOutputBytes terminal,
        Shown terminal.running bytes) := by
  cases h with
  | viewed hretained htext => simp [hretained, htext, Browser.retainTerminalBytes]
  | merged bytes hretained hbytes houtput htext =>
      rw [hretained, houtput, htext, Option.some.injEq, retain_decode_eq_iff]
      simp [hbytes]

/-- What the browser shows is the server's text exactly when that text has survived it. -/
theorem Tracks.agrees_iff (h : projection.Tracks) : projection.Agrees ↔ projection.Intact := by
  rw [Agrees, h.listed]
  cases hterminal : projection.terminal with
  | none => exact iff_of_true (.inr ⟨rfl, h.absent hterminal⟩) (by simp [Intact, hterminal])
  | some terminal =>
      rw [Option.map_some, (h.mirrors terminal hterminal).shown_iff]
      simp [Intact, hterminal]

/-- After the view was fetched both sides have the same. -/
theorem Stored.hydrate (h : projection.Stored) (others : List Browser.TerminalSnapshot) :
    (projection.hydrate others).Tracks := by
  have hothers : (others.filter (·.terminalId ≠ projection.terminalId)).find?
      (·.terminalId = projection.terminalId) = none := by
    simp [List.find?_eq_none]
  refine ⟨⟨h.current, h.viewed, h.gone, h.retained⟩, ?_,
    fun hnone => Option.map_eq_none_iff.mp hnone, ?_, fun hreleased => ?_⟩
  · rw [shown, Projection.hydrate]
    simp only [List.find?_append, hothers, Option.none_or]
    cases hviewed : projection.entry.viewed with
    | none => rfl
    | some value =>
        obtain ⟨hname, hretained, -⟩ := h.viewed value hviewed
        simp [Browser.TerminalSnapshot.ofValue, hname, hretained, Browser.retainTerminalBytes]
  · rintro terminal hterminal
    obtain ⟨value, hvalue, rfl⟩ := Option.map_eq_some_iff.mp hterminal
    obtain ⟨-, hretained, output, houtput, htext⟩ := h.viewed value hvalue
    refine .viewed ?_ ?_
    · simp [Browser.TerminalSnapshot.ofValue, hretained]
    · rw [Browser.TerminalSnapshot.ofValue, houtput]
      exact htext
  · rintro terminal hterminal
    obtain ⟨value, hvalue, rfl⟩ := Option.map_eq_some_iff.mp hterminal
    -- Before the release no output is retained, so the view shows the snapshot that is kept.
    have hcurrent : projection.entry.current = some value := by
      cases hkept : projection.entry.current with
      | some value' => simpa [Entry.viewed, hkept] using hvalue
      | none =>
          have hretained : projection.entry.retained.isSome = true := by
            rw [show projection.entry.retained = some value by
              simpa [Entry.viewed, hkept] using hvalue]
            rfl
          cases (h.retained hretained).symm.trans hreleased
    refine ⟨value, hcurrent, ?_⟩
    rw [Browser.terminalOutputBytes, Browser.TerminalSnapshot.ofValue]
    simp only [(h.current value hcurrent).2, Base64.decode_encode]

/-- What the browser takes over from a view is no snapshot that it has merged. -/
theorem Stored.intact_hydrate (h : projection.Stored) (others : List Browser.TerminalSnapshot) :
    (projection.hydrate others).Intact := by
  rintro terminal hterminal hretained
  obtain ⟨value, hvalue, rfl⟩ := Option.map_eq_some_iff.mp hterminal
  simp [Browser.TerminalSnapshot.ofValue, (h.viewed value hvalue).2.1] at hretained

section Incoming

variable (projection) (publication : Publication)

theorem terminalId_incoming : (projection.incoming publication).terminalId =
    projection.terminalId := by
  simp [incoming, Browser.TerminalSnapshot.ofValue, Value.getStr, get_value_terminalId, Value.asStr]

theorem outputAppend_incoming : (projection.incoming publication).outputAppend =
    publication.append := by
  simp [incoming, Browser.TerminalSnapshot.ofValue, get_value_append, Value.asBool]

theorem retainedBytes_incoming : (projection.incoming publication).retainedBytes =
    some publication.retainedBytes := by
  rw [incoming, Browser.TerminalSnapshot.ofValue, get_value_retainedBytes, Option.bind_some,
    asU64_retainedBytes]

theorem terminalOutputBytes_incoming :
    Browser.terminalOutputBytes (projection.incoming publication) = some publication.output := by
  simp [Browser.terminalOutputBytes, incoming, Browser.TerminalSnapshot.ofValue, Value.getStr,
    get_value_output, Value.asStr]

/-- Both sides agree on whether the command runs. -/
theorem running_incoming : (projection.incoming publication).running = publication.running := by
  simp only [incoming, Browser.TerminalSnapshot.running, Browser.TerminalSnapshot.ofValue,
    get_value_exitStatus, get_value_released, Publication.running]
  cases hexit : publication.exitStatus with
  | none => cases publication.released <;> rfl
  | some status =>
      have hobject := status.isObject
      cases hvalue : status.value <;> simp_all [Value.isNull, Value.isObject]

end Incoming

section Publish

variable {publication : Publication}

/-- The text of the server once it has folded a snapshot. -/
theorem text_fold (projection : Projection) (publication : Publication) (entry : Entry) :
    (projection.fold publication entry).text =
      some (fromUtf8Lossy (visible publication.running (projection.bytesAfter publication))) := by
  rw [text, fold, Option.bind_some, Entry.materialized, Value.getStr,
    get_output_foldTerminalSnapshot]
  rfl

/-- A snapshot that is folded, and kept. -/
theorem Stored.updated (h : projection.Stored) (hreleased : projection.entry.released = false)
    (hpublication : publication.released = false) :
    (projection.fold publication
      { projection.entry with
        current := some (projection.entry.materialized
          (publication.value projection.sessionId projection.terminalId)) }).Stored := by
  refine ⟨?_, ?_, fun hgone => ?_, h.retained⟩
  · rintro value hvalue
    obtain rfl := Option.some.inj hvalue
    refine ⟨?_, ?_⟩
    · rw [Entry.terminalReleased_materialized, hpublication]
    · rw [Entry.materialized, Value.getStr, outputBytes_foldTerminalSnapshot,
        get_outputBytes_foldTerminalSnapshot]
      rfl
  · rintro value hvalue
    obtain rfl := Option.some.inj hvalue
    refine ⟨?_, get_retainedBytes_foldTerminalSnapshot _ _, _, ?_, text_fold _ _ _⟩
    · rw [Entry.materialized, Value.getStr, get_terminalId_foldTerminalSnapshot]
      rfl
    · rw [Entry.materialized, Value.getStr, get_output_foldTerminalSnapshot]
      rfl
  · cases hgone.symm.trans hreleased

/-- A release that is folded: the terminal goes, and its output may be retained. -/
theorem Stored.released (h : projection.Stored) (hreleased : projection.entry.released = false)
    (hmarked : projection.releasedPublished = true) {retained : Option Value}
    (hretained : retained = projection.entry.retained ∨
      retained = some (retainedTerminal projection.sessionId projection.terminalId
        (projection.entry.materialized
          (publication.value projection.sessionId projection.terminalId)))) :
    (projection.fold publication ⟨none, true, retained⟩).Stored := by
  refine ⟨fun value hvalue => absurd hvalue.symm (Option.some_ne_none value), ?_,
    fun _ => ⟨rfl, hmarked⟩, fun _ => rfl⟩
  rintro value hvalue
  have hvalue : retained = some value := hvalue
  rcases hretained with rfl | rfl
  · have hnone := h.retained (by rw [hvalue]; rfl)
    cases hnone.symm.trans hreleased
  · obtain rfl := Option.some.inj hvalue
    refine ⟨?_, ?_, _, ?_, text_fold _ _ _⟩
    · simp [retainedTerminal, Value.ofFields, Value.getStr, Value.get_set, Value.asStr, fold]
    · simp [retainedTerminal, Value.ofFields]
    · simp [retainedTerminal, Value.ofFields, Value.getStr, Value.get_set, Value.asStr,
        Entry.materialized, get_output_foldTerminalSnapshot, bytesAfter]

/-- What the server can do about a snapshot. -/
theorem publishTerminalSnapshot_cases (h : projection.Stored)
    (hreleased : projection.entry.released = true → publication.released = false)
    (hmarked : publication.released = true → projection.releasedPublished = true)
    (referenced : Bool) (others : List Browser.TerminalSnapshot) :
    (projection.ignores publication = true ∧
        projection.publishTerminalSnapshot publication referenced others = projection) ∨
      (projection.ignores publication = false ∧ ∃ entry,
        (projection.fold publication entry).Stored ∧
        (entry.released = false → entry.current = some (projection.entry.materialized
          (publication.value projection.sessionId projection.terminalId))) ∧
        projection.publishTerminalSnapshot publication referenced others =
          (projection.fold publication entry).receive publication others) := by
  rcases projection.entry.applyTerminalSnapshot_cases projection.sessionId projection.terminalId
      referenced publication hreleased fun value hvalue => (h.current value hvalue).1 with
    ⟨hignores, happlied⟩ | ⟨hfolds, hpublication, happlied⟩ |
      ⟨hfolds, hpublication, retained, happlied, hretained⟩
  · refine .inl ⟨hignores, ?_⟩
    simp only [publishTerminalSnapshot, happlied]
    rfl
  · have hreleased : projection.entry.released = false := (Bool.or_eq_false_iff.mp hfolds).1
    refine .inr ⟨hfolds, _, h.updated hreleased hpublication, fun _ => rfl, ?_⟩
    simp only [publishTerminalSnapshot, happlied, if_true]
  · have hreleased : projection.entry.released = false := (Bool.or_eq_false_iff.mp hfolds).1
    refine .inr ⟨hfolds, _, h.released hreleased (hmarked hpublication) hretained,
      fun hkept => absurd hkept.symm Bool.false_ne_true, ?_⟩
    simp only [publishTerminalSnapshot, happlied, if_true]

/-- The snapshot that the browser makes of one it merges. -/
def merged (self : Projection) (publication : Publication) : Browser.TerminalSnapshot :=
  { self.incoming publication with
    output := .ofList (Browser.decode publication.running (self.bytesAfter publication))
    outputBytes := some (Base64.encode (self.bytesAfter publication))
    outputAppend := false
    retainedBytes := some (self.bytesAfter publication).length }

theorem running_merged : (projection.merged publication).running = publication.running := by
  rw [← running_incoming projection publication]
  simp only [Browser.TerminalSnapshot.running, merged]

theorem output_merged : (projection.merged publication).output =
    .ofList (Browser.decode publication.running (projection.bytesAfter publication)) := by
  rw [merged]

theorem retainedBytes_merged : (projection.merged publication).retainedBytes =
    some (projection.bytesAfter publication).length := by
  rw [merged]

theorem outputAppend_merged (projection : Projection) (publication : Publication) :
    (projection.merged publication).outputAppend = false := by
  rw [merged]

theorem terminalId_merged : (projection.merged publication).terminalId = projection.terminalId := by
  rw [merged, ← terminalId_incoming projection publication]

theorem terminalOutputBytes_merged : Browser.terminalOutputBytes (projection.merged publication) =
    some (projection.bytesAfter publication) := by
  simp only [Browser.terminalOutputBytes, merged, Base64.decode_encode]

/-- A snapshot that is merged gives the browser the bytes that the server folds. -/
theorem Tracks.mergeTerminalSnapshot (h : projection.Tracks)
    (hreleased : projection.entry.released = false)
    (hmerges : projection.merges publication = true) :
    Browser.mergeTerminalSnapshot projection.terminal (projection.incoming publication) =
      some (projection.merged publication) := by
  have hdrop (bytes : List UInt8) :
      (bytes.drop (bytes.length - publication.retainedBytes)).dropWhile Utf8.isContinuation =
        retain bytes publication.retainedBytes := by
    rw [retain]
    split
    · rfl
    · next hle => rw [Nat.sub_eq_zero_of_le (Nat.le_of_not_gt hle), List.drop_zero]
  obtain ⟨bytes, happended, hretain⟩ : ∃ bytes,
      Browser.appendedBytes projection.terminal (projection.incoming publication) = some bytes ∧
        retain bytes publication.retainedBytes = projection.bytesAfter publication := by
    rw [bytesAfter, foldedBytes_value, Browser.appendedBytes, terminalOutputBytes_incoming,
      outputAppend_incoming]
    rw [merges, outputAppend_incoming] at hmerges
    cases happend : publication.append with
    | false => exact ⟨_, rfl, rfl⟩
    | true =>
        cases hterminal : projection.terminal with
        | none => simp [happend, hterminal] at hmerges
        | some previous =>
            obtain ⟨value, hvalue, hsame⟩ := h.same hreleased previous hterminal
            refine ⟨outputBytes value ++ publication.output, ?_, ?_⟩
            · simp [hsame]
            · simp [show projection.entry.current = some value from hvalue]
  rw [Browser.mergeTerminalSnapshot, happended, retainedBytes_incoming, running_incoming]
  simp only [Option.bind_eq_bind, Option.bind_some, Option.elim, hdrop, hretain, merged]

/-- The browser keeps track of a snapshot that the server has folded, and shows the server's text
if that text survives. -/
theorem Tracks.receive (h : projection.Tracks) (hreleased : projection.entry.released = false)
    {entry : Entry} (hstored : (projection.fold publication entry).Stored)
    (hcurrent : entry.released = false → entry.current = some (projection.entry.materialized
      (publication.value projection.sessionId projection.terminalId)))
    (others : List Browser.TerminalSnapshot) :
    ((projection.fold publication entry).receive publication others).Tracks ∧
      (((projection.fold publication entry).receive publication others).Intact ↔
        (projection.merges publication = true →
          Shown publication.running (projection.bytesAfter publication))) := by
  rw [Projection.receive]
  split
  · next hmerges =>
      change projection.merges publication = true at hmerges
      have hmerged : Browser.mergeTerminalSnapshot (projection.fold publication entry).terminal
          ((projection.fold publication entry).incoming publication) =
            some (projection.merged publication) :=
        h.mergeTerminalSnapshot hreleased hmerges
      rw [hmerged]
      refine ⟨⟨⟨hstored.current, hstored.viewed, hstored.gone, hstored.retained⟩, ?_,
        fun hnone => absurd hnone (Option.some_ne_none _), ?_, fun hkept => ?_⟩, ?_⟩
      · have hfind := Browser.find?_upsertTerminalSnapshot projection.snapshots
          (projection.outputAppend_merged publication)
        rw [terminalId_merged] at hfind
        exact congrArg (Option.map (·.output)) hfind
      · rintro terminal hterminal
        obtain rfl := Option.some.inj hterminal
        refine .merged _ retainedBytes_merged terminalOutputBytes_merged ?_ ?_
        · rw [running_merged, output_merged]
        · rw [running_merged]
          exact text_fold projection publication entry
      · rintro terminal hterminal
        obtain rfl := Option.some.inj hterminal
        refine ⟨_, hcurrent hkept, ?_⟩
        rw [terminalOutputBytes_merged, Entry.materialized, outputBytes_foldTerminalSnapshot,
          bytesAfter]
      · constructor
        · intro hintact _
          have hshown := hintact (projection.merged publication) rfl
            (by rw [retainedBytes_merged, Option.isSome_some]) _ terminalOutputBytes_merged
          rwa [running_merged] at hshown
        · rintro hshown terminal hterminal - bytes hbytes
          obtain rfl := Option.some.inj hterminal
          rw [terminalOutputBytes_merged] at hbytes
          obtain rfl := Option.some.inj hbytes
          rw [running_merged]
          exact hshown hmerges
  · next hmerges =>
      change ¬projection.merges publication = true at hmerges
      have htracks := hstored.hydrate others
      refine ⟨htracks, iff_of_true ?_ fun hmerged => absurd hmerged hmerges⟩
      exact hstored.intact_hydrate others

/-- The server takes over a snapshot: the browser keeps track, and shows the server's text if that
text survives. -/
theorem Tracks.publishTerminalSnapshot (h : projection.Tracks)
    (hreleased : projection.entry.released = true → publication.released = false)
    (hmarked : publication.released = true → projection.releasedPublished = true)
    (referenced : Bool) (others : List Browser.TerminalSnapshot) :
    (projection.publishTerminalSnapshot publication referenced others).Tracks ∧
      ((projection.publishTerminalSnapshot publication referenced others).Intact ↔
        projection.SurvivesSnapshot publication) := by
  rw [SurvivesSnapshot]
  rcases publishTerminalSnapshot_cases h.stored hreleased hmarked referenced others with
    ⟨hignores, hpublish⟩ | ⟨hfolds, entry, hstored, hcurrent, hpublish⟩
  · rw [hpublish, if_pos hignores]
    exact ⟨h, Iff.rfl⟩
  · rw [hpublish, if_neg (Bool.not_eq_true _ ▸ hfolds)]
    exact h.receive (Bool.or_eq_false_iff.mp hfolds).1 hstored hcurrent others

end Publish

/-- Every event keeps track, and leaves the server's text shown if that text survives the event. -/
theorem Tracks.step (h : projection.Tracks) (event : ProjectionEvent) :
    (projection.step event).Tracks ∧
      ((projection.step event).Intact ↔ projection.Survives event) := by
  cases event with
  | publish publication referenced others =>
      rw [Projection.step, Survives, emitSnapshot]
      cases hpublished : projection.releasedPublished with
      | true =>
          rw [if_pos rfl, if_pos rfl]
          exact ⟨h, Iff.rfl⟩
      | false =>
          rw [if_neg Bool.false_ne_true, if_neg Bool.false_ne_true]
          have hreleased : projection.entry.released = false := by
            by_contra hgone
            have hmarked := (h.stored.gone (by simpa using hgone)).2
            cases hmarked.symm.trans hpublished
          have hnext : ({ projection with
              releasedPublished := publication.released } : Projection).Tracks := by
            refine ⟨⟨h.stored.current, h.stored.viewed, fun hgone => ?_, h.stored.retained⟩,
              h.listed, h.absent, h.mirrors, h.same⟩
            cases hgone.symm.trans hreleased
          exact hnext.publishTerminalSnapshot (fun hgone => absurd (hgone.symm.trans hreleased)
            (by decide)) id referenced others
  | register others =>
      rw [Projection.step, Survives, registerCreatedTerminal]
      split
      · exact ⟨h, Iff.rfl⟩
      · exact h.publishTerminalSnapshot (fun _ => rfl) (fun hgone => absurd hgone (by decide)) false
          others
  | prune referenced =>
      rw [Projection.step, Survives, Entry.pruneRetainedTerminals]
      split
      · exact ⟨h, Iff.rfl⟩
      · have hviewed (value : Value)
            (hvalue : ({ projection.entry with retained := none } : Entry).viewed = some value) :
            projection.entry.viewed = some value := by
          have hcurrent : projection.entry.current = some value := by
            simpa [Entry.viewed] using hvalue
          simp [Entry.viewed, hcurrent]
        refine ⟨⟨⟨h.stored.current,
          fun value hvalue => h.stored.viewed value (hviewed value hvalue), h.stored.gone,
          fun hretained => absurd hretained Bool.false_ne_true⟩, h.listed, fun hnone => ?_,
          h.mirrors, h.same⟩, Iff.rfl⟩
        refine Option.eq_none_iff_forall_ne_some.mpr fun value hvalue => ?_
        cases (hviewed value hvalue).symm.trans (h.absent hnone)
  | fetch others =>
      exact ⟨h.stored.hydrate others, iff_of_true (h.stored.intact_hydrate others) trivial⟩

theorem run_tracks (sessionId terminalId : String) (events : List ProjectionEvent) :
    (run step (new sessionId terminalId) events).Tracks :=
  run_invariant (fun _ event h => (h.step event).1) (tracks_new sessionId terminalId) events

/-- In every run, the browser shows the server's text after an event exactly when that text
survives the event: a snapshot that the browser merges leaves bytes whose text survives, or the
browser is told nothing and has not lost the text before, or it fetches the view. -/
theorem run_shown_iff (sessionId terminalId : String) (events : List ProjectionEvent)
    (event : ProjectionEvent) :
    (run step (new sessionId terminalId) (events ++ [event])).Agrees ↔
      (run step (new sessionId terminalId) events).Survives event := by
  rw [run_snoc]
  have h := (run_tracks sessionId terminalId events).step event
  exact h.1.agrees_iff.trans h.2

private theorem not_shown_invalid : ¬Shown true [0x41, 0xFF] := by
  intro h
  have hmalformed : Utf8.Piece.malformed 1 ∈ Utf8.pieces [0x41, 0xFF] := by decide
  have hpieces := h.2
  rw [if_neg (by decide)] at hpieces
  simpa [Utf8.Piece.isScalar, Utf8.Piece.length] using hpieces _ hmalformed

section Invalid

variable (sessionId terminalId : String)

/-- What is kept of a terminal that has been registered. -/
private def registered : Entry where
  current := some (Entry.new.materialized (Publication.created.value sessionId terminalId))
  released := false
  retained := none

/-- The terminal that is registered first is empty, and the browser fetches it. -/
private theorem run_register : run step (new sessionId terminalId) [.register []] =
    ((new sessionId terminalId).fold .created (registered sessionId terminalId)).hydrate [] := by
  have hmerges : ((new sessionId terminalId).fold .created
      (registered sessionId terminalId)).merges .created = false := by
    rw [merges, outputAppend_incoming]
    rfl
  have happlied : Entry.new.applyTerminalSnapshot sessionId terminalId false
      (Publication.created.value sessionId terminalId) =
        (true, registered sessionId terminalId) := by
    rcases Entry.new.applyTerminalSnapshot_cases sessionId terminalId false .created
        (fun _ => rfl) (fun value hvalue => absurd hvalue.symm (Option.some_ne_none value)) with ⟨hignores, -⟩ | ⟨-, -, happlied⟩ | ⟨-, hreleased, -⟩
    · cases hignores
    · exact happlied
    · cases hreleased
  have hpublish : (new sessionId terminalId).publishTerminalSnapshot .created false [] =
      ((new sessionId terminalId).fold .created (registered sessionId terminalId)).receive
        .created [] := by
    simp only [publishTerminalSnapshot, new, happlied, if_true]
  have hunknown : ¬(new sessionId terminalId).entry.current.isSome = true := by
    simp [new, Entry.new]
  rw [run_cons, run_nil, Projection.step, registerCreatedTerminal, if_neg hunknown, hpublish,
    receive, hmerges, if_neg Bool.false_ne_true]

/-- A letter and a byte that is no UTF-8, written by a command that runs. -/
private def invalid : Publication := ⟨[0x41, 0xFF], true, 2, false, none, false, by decide⟩

private theorem not_survives_invalid :
    ¬(run step (new sessionId terminalId) [.register []]).SurvivesSnapshot invalid := by
  have hbytes : (run step (new sessionId terminalId) [.register []]).bytesAfter invalid =
      [0x41, 0xFF] := by
    rw [run_register, bytesAfter, foldedBytes_value]
    simp only [hydrate, fold, registered, Entry.materialized, Option.map_some, Option.getD_some,
      outputBytes_foldTerminalSnapshot, foldedBytes_value]
    decide
  have hmerges : (run step (new sessionId terminalId) [.register []]).merges invalid = true := by
    rw [run_register, merges, outputAppend_incoming]
    rfl
  have hignores : (run step (new sessionId terminalId) [.register []]).ignores invalid = false := by
    have hrepeats : (registered sessionId terminalId).repeats
        (invalid.value sessionId terminalId) = false := by
      by_contra hsame
      have halike : (Entry.new.materialized (Publication.created.value sessionId terminalId)).alike
          ((registered sessionId terminalId).materialized (invalid.value sessionId terminalId)) =
            true := by
        simpa [Entry.repeats, registered] using hsame
      have hsame := Value.getStr_of_alike halike "outputBytes"
      rw [Entry.materialized, Entry.materialized, Value.getStr, Value.getStr,
        get_outputBytes_foldTerminalSnapshot, get_outputBytes_foldTerminalSnapshot,
        foldedBytes_value, foldedBytes_value] at hsame
      simp only [registered, Entry.materialized, Option.map_some, Option.getD_some,
        outputBytes_foldTerminalSnapshot, foldedBytes_value] at hsame
      revert hsame
      decide
    rw [run_register, ignores]
    exact Bool.or_eq_false_iff.mpr ⟨rfl, hrepeats⟩
  rw [SurvivesSnapshot, hignores, if_neg Bool.false_ne_true, hbytes]
  exact fun h => not_shown_invalid (h hmerges)

end Invalid

/-- A command that runs writes a letter and a byte that is no UTF-8, after the browser has fetched
the empty terminal: the server shows a replacement character, the browser an empty text. -/
theorem shown_ne_text : ¬∀ (sessionId terminalId : String) (events : List ProjectionEvent),
    (run step (new sessionId terminalId) events).Agrees := by
  intro hall
  have hstep := (run_tracks "session" "terminal" [.register []]).step (.publish invalid false [])
  have hagrees := hall "session" "terminal" ([.register []] ++ [.publish invalid false []])
  rw [run_snoc] at hagrees
  have hsurvives := hstep.2.mp (hstep.1.agrees_iff.mp hagrees)
  have hpublished : (run step (new "session" "terminal") [.register []]).releasedPublished =
      false := by
    rw [run_register]
    rfl
  rw [Survives, hpublished, if_neg Bool.false_ne_true] at hsurvives
  exact not_survives_invalid "session" "terminal" hsurvives

end Projection

end Attyd.Terminals
