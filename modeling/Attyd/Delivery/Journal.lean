import Attyd.Library.Counter
import Attyd.Library.Machine
import Attyd.Session.State

/-!
# The journal of runtime deltas

The journal keeps the deltas that have not been handed on yet. They are the end of all deltas that
were ever committed: a publication and the retirement of a turn only cut them from the front.

## Implementation notes

A session that is upserted is kept as its owner and the rest of its fields as they are written out.
The serialized length of a delta is a parameter.
-/

namespace Attyd.Delivery

open Json (Value)
open Session (PendingInteraction UrlFlow MirrorPhase)

/-- A session as it is projected for delivery. -/
structure SessionRuntime where
  sessionId : String
  incarnation : Nat
  body : Value

inductive RuntimeChange where
  | connectionUpsert (requestElicitations : Table String PendingInteraction)
      (requestUrlFlows : Table String UrlFlow)
  | sessionUpsert (session : SessionRuntime)
  | sessionControlUpdated (sessionId : String) (incarnation revision : Nat) (key : String)
      (update : Value) (historyRevision : Option String) (phase : MirrorPhase)
      (syncError : Option String)
  | turnUpdateAppended (sessionId : String) (incarnation revision : Nat) (operationId : String)
      (update : Value)
  | terminalUpdated (sessionId : String) (incarnation revision : Nat) (terminalId : String)
      (terminal : Value)
  | sessionRemoved (sessionId : String) (incarnation : Nat)

structure RuntimeDelta where
  epoch : String
  seq : Nat
  scopeRevision : Option Nat
  change : RuntimeChange

/-- A delta with its serialized length. -/
structure JournalDelta where
  delta : RuntimeDelta
  bytes : Nat

structure RuntimeJournal where
  seq : Nat
  deltas : List JournalDelta
  bytes : Nat

/-- Whether a change is the full state or a turn update of a session incarnation. -/
def RuntimeChange.carries (sessionId : String) (incarnation : Nat) : RuntimeChange → Bool
  | sessionUpsert session => session.sessionId = sessionId && session.incarnation = incarnation
  | turnUpdateAppended id i _ _ _ => id = sessionId && i = incarnation
  | _ => false

/-- Whether a change may own the payload of a turn. -/
def RuntimeChange.ownsPayload (sessionId : String) (incarnation : Nat) (operationId : String) :
    RuntimeChange → Bool
  | sessionUpsert session => session.sessionId = sessionId && session.incarnation = incarnation
  | turnUpdateAppended id i _ operation _ =>
      (id = sessionId && i = incarnation) || operation = operationId
  | sessionControlUpdated .. | terminalUpdated .. | connectionUpsert .. | sessionRemoved .. => false

namespace RuntimeJournal

def new : RuntimeJournal := ⟨0, [], 0⟩

def deltasAfter (self : RuntimeJournal) (seq : Nat) : Option (List RuntimeDelta) :=
  if self.seq < seq then none
  else
    let first := self.deltas.head?.elim (self.seq + 1) (·.delta.seq)
    if saturatingAdd seq 1 < first then none
    else some ((self.deltas.filter fun entry => seq < entry.delta.seq).map (·.delta))

def commit (serializedLen : RuntimeDelta → Nat) (epoch : String) (scopeRevision : Option Nat)
    (change : RuntimeChange) (self : RuntimeJournal) : RuntimeJournal :=
  let seq := nextCounter self.seq
  let delta : RuntimeDelta := { epoch, seq, scopeRevision, change }
  { seq
    deltas := self.deltas ++ [⟨delta, serializedLen delta⟩]
    bytes := saturatingAdd self.bytes (serializedLen delta) }

/-- The deltas up to a number are dropped one after the other. -/
def popThrough (seq : Nat) : List JournalDelta → Nat → List JournalDelta × Nat
  | [], bytes => ([], bytes)
  | entry :: later, bytes =>
      if seq < entry.delta.seq then (entry :: later, bytes)
      else popThrough seq later (bytes - entry.bytes)

def releaseThrough (seq : Nat) (self : RuntimeJournal) : RuntimeJournal :=
  let rest := popThrough seq self.deltas self.bytes
  { self with deltas := rest.1, bytes := rest.2 }

/-- The number of the last delta that may own the payload. -/
def discardThrough (sessionId : String) (incarnation : Nat) (operationId : String)
    (self : RuntimeJournal) : Option Nat :=
  ((self.deltas.filter fun entry =>
    entry.delta.change.ownsPayload sessionId incarnation operationId).map (·.delta.seq)).max?

def retireTurnPayload (sessionId : String) (incarnation : Nat) (operationId : String)
    (self : RuntimeJournal) : RuntimeJournal :=
  let deltas := match self.discardThrough sessionId incarnation operationId with
    | some seq => self.deltas.dropWhile fun entry => entry.delta.seq ≤ seq
    | none => self.deltas
  { self with deltas, bytes := (deltas.map (·.bytes)).sum }

end RuntimeJournal

inductive JournalOp where
  | commit (epoch : String) (scopeRevision : Option Nat) (change : RuntimeChange)
  | releaseThrough (seq : Nat)
  | retireTurnPayload (sessionId : String) (incarnation : Nat) (operationId : String)

def JournalOp.step (serializedLen : RuntimeDelta → Nat) (self : RuntimeJournal) :
    JournalOp → RuntimeJournal
  | commit epoch scopeRevision change => self.commit serializedLen epoch scopeRevision change
  | releaseThrough seq => self.releaseThrough seq
  | retireTurnPayload sessionId incarnation operationId =>
      self.retireTurnPayload sessionId incarnation operationId

/-- The deltas that are committed behind `count` others. -/
def committedFrom (count : Nat) : List JournalOp → List RuntimeDelta
  | [] => []
  | .commit epoch scopeRevision change :: ops =>
      ⟨epoch, count + 1, scopeRevision, change⟩ :: committedFrom (count + 1) ops
  | .releaseThrough _ :: ops | .retireTurnPayload .. :: ops => committedFrom count ops

/-- All deltas that a run commits, the first with the number 1. -/
def committed (ops : List JournalOp) : List RuntimeDelta := committedFrom 0 ops

/-- The first operation commits before the others. -/
theorem committedFrom_cons (count : Nat) (op : JournalOp) (ops : List JournalOp) :
    committedFrom count (op :: ops) = committedFrom count [op] ++
      committedFrom (count + (committedFrom count [op]).length) ops := by
  cases op <;> rfl

theorem committedFrom_append (count : Nat) (before later : List JournalOp) :
    committedFrom count (before ++ later) = committedFrom count before ++
      committedFrom (count + (committedFrom count before).length) later := by
  induction before generalizing count with
  | nil => rfl
  | cons op before ih =>
      rw [List.cons_append, committedFrom_cons, ih, committedFrom_cons count op before,
        List.length_append, List.append_assoc, Nat.add_assoc]

section Log

variable {serializedLen : RuntimeDelta → Nat} {log : List RuntimeDelta} {j : RuntimeJournal}

/-- The deltas of a log are numbered from 1 on. -/
def NumberedLog (log : List RuntimeDelta) : Prop :=
  ∀ (i : Nat) (delta : RuntimeDelta), log[i]? = some delta → delta.seq = i + 1

/-- The journal keeps the end of a log. -/
structure Keeps (serializedLen : RuntimeDelta → Nat) (log : List RuntimeDelta) (dropped : Nat)
    (j : RuntimeJournal) : Prop where
  numbered : NumberedLog log
  seq : j.seq = log.length
  dropped_le : dropped ≤ log.length
  deltas : j.deltas = (log.drop dropped).map fun delta => ⟨delta, serializedLen delta⟩

/-- The sum of the serialized lengths of what is kept. -/
def keptBytes (j : RuntimeJournal) : Nat := (j.deltas.map (·.bytes)).sum

theorem keeps_new (serializedLen : RuntimeDelta → Nat) : Keeps serializedLen [] 0 .new where
  numbered := by simp [NumberedLog]
  seq := rfl
  dropped_le := Nat.le_refl _
  deltas := rfl

/-- What is kept begins with the number behind those that were dropped. -/
theorem NumberedLog.drop_cons (h : NumberedLog log) {n : Nat} {delta : RuntimeDelta}
    {later : List RuntimeDelta} (hdrop : log.drop n = delta :: later) : delta.seq = n + 1 := by
  have hget : (log.drop n)[0]? = some delta := by rw [hdrop]; rfl
  rw [List.getElem?_drop, Nat.add_zero] at hget
  exact h n delta hget

/-- Dropping the deltas up to a number drops from the whole log. -/
theorem NumberedLog.dropWhile (h : NumberedLog log) (n seq : Nat) :
    (log.drop n).dropWhile (fun delta => decide (delta.seq ≤ seq)) = log.drop (max n seq) := by
  generalize hrest : log.drop n = rest
  induction rest generalizing n with
  | nil =>
      have hle : log.length ≤ n := List.drop_eq_nil_iff.mp hrest
      rw [List.drop_eq_nil_of_le (Nat.le_trans hle (Nat.le_max_left _ _)), List.dropWhile_nil]
  | cons delta later ih =>
      have hseq := h.drop_cons hrest
      have hlater : log.drop (n + 1) = later := by
        rw [← List.tail_drop, hrest, List.tail_cons]
      rw [List.dropWhile_cons]
      by_cases hle : delta.seq ≤ seq
      · rw [if_pos (by simpa using hle), ih (n + 1) hlater]
        congr 1
        omega
      · rw [if_neg (by simpa using hle), ← hrest]
        congr 1
        omega

/-- A filter for the later deltas drops from the whole log. -/
theorem NumberedLog.filter (h : NumberedLog log) (n seq : Nat) :
    (log.drop n).filter (fun delta => decide (seq < delta.seq)) = log.drop (max n seq) := by
  generalize hrest : log.drop n = rest
  induction rest generalizing n with
  | nil =>
      have hle : log.length ≤ n := List.drop_eq_nil_iff.mp hrest
      rw [List.drop_eq_nil_of_le (Nat.le_trans hle (Nat.le_max_left _ _)), List.filter_nil]
  | cons delta later ih =>
      have hseq := h.drop_cons hrest
      have hlater : log.drop (n + 1) = later := by
        rw [← List.tail_drop, hrest, List.tail_cons]
      rw [List.filter_cons, ih (n + 1) hlater]
      by_cases hlt : seq < delta.seq
      · have hn : max n seq = n := by omega
        have hn' : max (n + 1) seq = n + 1 := by omega
        rw [if_pos (by simpa using hlt), hn, hn', hlater, hrest]
      · rw [if_neg (by simpa using hlt)]
        congr 1
        omega

theorem popThrough_fst (seq : Nat) (deltas : List JournalDelta) (bytes : Nat) :
    (RuntimeJournal.popThrough seq deltas bytes).1 =
      deltas.dropWhile fun entry => decide (entry.delta.seq ≤ seq) := by
  induction deltas generalizing bytes with
  | nil => rfl
  | cons entry deltas ih =>
      rw [RuntimeJournal.popThrough, List.dropWhile_cons]
      by_cases hlt : seq < entry.delta.seq
      · rw [if_pos hlt, if_neg (by simpa using hlt)]
      · rw [if_neg hlt, if_pos (by simpa using hlt), ih]

/-- What is taken off for the deltas that are dropped was counted for them. -/
theorem popThrough_snd (seq : Nat) (deltas : List JournalDelta) (bytes : Nat) :
    (RuntimeJournal.popThrough seq deltas (bytes + (deltas.map (·.bytes)).sum)).2 =
      bytes + ((RuntimeJournal.popThrough seq deltas
        (bytes + (deltas.map (·.bytes)).sum)).1.map (·.bytes)).sum := by
  induction deltas generalizing bytes with
  | nil => rfl
  | cons entry deltas ih =>
      rw [RuntimeJournal.popThrough]
      split
      · rfl
      · have hrest : bytes + ((entry :: deltas).map (·.bytes)).sum - entry.bytes =
            bytes + (deltas.map (·.bytes)).sum := by
          rw [List.map_cons, List.sum_cons]
          omega
        rw [hrest]
        exact ih bytes

namespace Keeps

variable {dropped : Nat}

theorem drop_le (h : Keeps serializedLen log dropped j) {n : Nat} (hn : dropped ≤ n)
    {deltas : List JournalDelta} (hdeltas : deltas = (log.drop n).map fun delta =>
      ⟨delta, serializedLen delta⟩) (bytes : Nat) :
    ∃ dropped' ≥ dropped, Keeps serializedLen log dropped' { j with deltas, bytes } := by
  refine ⟨min n log.length, Nat.le_min.mpr ⟨hn, h.dropped_le⟩, h.numbered, h.seq,
    Nat.min_le_right _ _, ?_⟩
  rw [hdeltas]
  rcases Nat.le_total n log.length with hle | hle
  · rw [Nat.min_eq_left hle]
  · rw [Nat.min_eq_right hle, List.drop_length, List.drop_eq_nil_of_le hle]

theorem deltas_dropWhile (h : Keeps serializedLen log dropped j) (seq : Nat) :
    j.deltas.dropWhile (fun entry => decide (entry.delta.seq ≤ seq)) =
      (log.drop (max dropped seq)).map fun delta => ⟨delta, serializedLen delta⟩ := by
  rw [h.deltas, ← h.numbered.dropWhile dropped seq, List.dropWhile_map]
  rfl

theorem releaseThrough (h : Keeps serializedLen log dropped j) (seq : Nat) :
    ∃ dropped' ≥ dropped, Keeps serializedLen log dropped' (j.releaseThrough seq) := by
  refine h.drop_le (Nat.le_max_left dropped seq) ?_ _
  rw [popThrough_fst]
  exact h.deltas_dropWhile seq

theorem retireTurnPayload (h : Keeps serializedLen log dropped j) (sessionId : String)
    (incarnation : Nat) (operationId : String) :
    ∃ dropped' ≥ dropped, Keeps serializedLen log dropped'
      (j.retireTurnPayload sessionId incarnation operationId) := by
  rw [RuntimeJournal.retireTurnPayload]
  cases j.discardThrough sessionId incarnation operationId with
  | none => exact h.drop_le (Nat.le_refl _) h.deltas _
  | some seq => exact h.drop_le (Nat.le_max_left dropped seq) (h.deltas_dropWhile seq) _

theorem commit (h : Keeps serializedLen log dropped j) (hwrap : log.length + 1 < 2 ^ 64)
    (epoch : String) (scopeRevision : Option Nat) (change : RuntimeChange) :
    Keeps serializedLen (log ++ [⟨epoch, log.length + 1, scopeRevision, change⟩]) dropped
      (j.commit serializedLen epoch scopeRevision change) := by
  have hseq : nextCounter j.seq = log.length + 1 := by
    rw [h.seq]
    exact nextCounter_of_lt hwrap
  refine ⟨?_, ?_, ?_, ?_⟩
  · intro i delta hi
    rw [List.getElem?_append] at hi
    split at hi
    · exact h.numbered i delta hi
    · next hge =>
        have hlast : i = log.length := by
          by_contra hne
          rw [List.getElem?_eq_none (by simp; omega)] at hi
          cases hi
        subst hlast
        rw [Nat.sub_self] at hi
        cases hi
        rfl
  · rw [RuntimeJournal.commit, hseq, List.length_append]
    rfl
  · rw [List.length_append]
    exact Nat.le_add_right_of_le h.dropped_le
  · rw [List.drop_append_of_le_length h.dropped_le, List.map_append, ← h.deltas,
      RuntimeJournal.commit, hseq]
    rfl

/-- One operation keeps the end of the log, perhaps less of it. -/
theorem step (h : Keeps serializedLen log dropped j) (op : JournalOp)
    (hwrap : log.length + (committedFrom log.length [op]).length < 2 ^ 64) :
    ∃ dropped' ≥ dropped, Keeps serializedLen (log ++ committedFrom log.length [op]) dropped'
      (op.step serializedLen j) := by
  cases op with
  | commit epoch scopeRevision change =>
      exact ⟨dropped, Nat.le_refl _, h.commit hwrap epoch scopeRevision change⟩
  | releaseThrough seq =>
      rw [committedFrom, committedFrom, List.append_nil]
      exact h.releaseThrough seq
  | retireTurnPayload sessionId incarnation operationId =>
      rw [committedFrom, committedFrom, List.append_nil]
      exact h.retireTurnPayload sessionId incarnation operationId

theorem run (ops : List JournalOp) (h : Keeps serializedLen log dropped j)
    (hwrap : log.length + (committedFrom log.length ops).length < 2 ^ 64) :
    ∃ dropped' ≥ dropped, Keeps serializedLen (log ++ committedFrom log.length ops) dropped'
      (run (JournalOp.step serializedLen) j ops) := by
  induction ops generalizing log dropped j with
  | nil =>
      rw [committedFrom, List.append_nil]
      exact ⟨dropped, Nat.le_refl _, h⟩
  | cons op ops ih =>
      rw [committedFrom_cons, List.length_append] at hwrap
      obtain ⟨between, hbetween, hstep⟩ := h.step op (by omega)
      have hlength : (log ++ committedFrom log.length [op]).length =
          log.length + (committedFrom log.length [op]).length := List.length_append
      obtain ⟨dropped', hdropped, hrun⟩ := ih hstep (by rw [hlength]; omega)
      rw [hlength, List.append_assoc, ← committedFrom_cons] at hrun
      exact ⟨dropped', Nat.le_trans hbetween hdropped, hrun⟩

/-- What is answered is the end of the log behind the number, if nothing of it was dropped. -/
theorem deltasAfter (h : Keeps serializedLen log dropped j) (hwrap : log.length + 1 < 2 ^ 64)
    (n : Nat) :
    j.deltasAfter n = if dropped ≤ n ∧ n ≤ log.length then some (log.drop n) else none := by
  have hfirst : j.deltas.head?.elim (j.seq + 1) (·.delta.seq) = dropped + 1 := by
    rw [h.deltas, List.head?_map]
    cases hdrop : log.drop dropped with
    | nil =>
        have hle := List.drop_eq_nil_iff.mp hdrop
        change j.seq + 1 = dropped + 1
        rw [h.seq, Nat.le_antisymm hle h.dropped_le]
    | cons delta later => exact h.numbered.drop_cons hdrop
  have hfilter : (j.deltas.filter fun entry => decide (n < entry.delta.seq)).map (·.delta) =
      log.drop (max dropped n) := by
    rw [h.deltas, List.filter_map, List.map_map, ← h.numbered.filter dropped n]
    exact List.map_id _
  rw [RuntimeJournal.deltasAfter, hfirst, hfilter, h.seq]
  by_cases hn : n ≤ log.length
  · have hadd : saturatingAdd n 1 = n + 1 := by
      rw [saturatingAdd]
      omega
    rw [if_neg (Nat.not_lt.mpr hn), hadd]
    by_cases hdropped : dropped ≤ n
    · rw [if_neg (by omega), if_pos ⟨hdropped, hn⟩, Nat.max_eq_right hdropped]
    · rw [if_pos (by omega), if_neg (by omega)]
  · rw [if_pos (Nat.lt_of_not_le hn), if_neg (by omega)]

end Keeps

/-- After a retirement nothing is kept that carries the session incarnation. -/
theorem retireTurnPayload_carries (h : Keeps serializedLen log dropped j) (sessionId : String)
    (incarnation : Nat) (operationId : String) :
    ∀ entry ∈ (j.retireTurnPayload sessionId incarnation operationId).deltas,
      entry.delta.change.carries sessionId incarnation = false := by
  intro entry hentry
  by_contra hcarries
  have howns : entry.delta.change.ownsPayload sessionId incarnation operationId = true := by
    cases hchange : entry.delta.change with
    | sessionUpsert session =>
        simpa [hchange, RuntimeChange.carries, RuntimeChange.ownsPayload] using hcarries
    | turnUpdateAppended =>
        rw [hchange] at hcarries
        simp only [RuntimeChange.carries, Bool.not_eq_false, Bool.and_eq_true] at hcarries
        simp [RuntimeChange.ownsPayload, hcarries.1, hcarries.2]
    | _ => simp [hchange, RuntimeChange.carries] at hcarries
  rw [RuntimeJournal.retireTurnPayload] at hentry
  cases hdiscard : j.discardThrough sessionId incarnation operationId with
  | none =>
      simp only [hdiscard] at hentry
      have hempty := List.max?_eq_none_iff.mp hdiscard
      rw [List.map_eq_nil_iff, List.filter_eq_nil_iff] at hempty
      exact hempty entry hentry howns
  | some seq =>
      simp only [hdiscard] at hentry
      have hkept := (List.dropWhile_sublist _).mem hentry
      have hle : entry.delta.seq ≤ seq :=
        (List.max?_eq_some_iff.mp hdiscard).2 _
          (List.mem_map_of_mem (List.mem_filter.mpr ⟨hkept, howns⟩))
      rw [h.deltas_dropWhile, ← h.numbered.filter] at hentry
      obtain ⟨delta, hdelta, rfl⟩ := List.mem_map.mp hentry
      have hlt : seq < delta.seq := by simpa using (List.mem_filter.mp hdelta).2
      exact absurd hle (Nat.not_le.mpr hlt)

/-- The counted bytes are the sum of the lengths, while that fits the counter. -/
theorem step_bytes (op : JournalOp) (h : j.bytes = keptBytes j)
    (hfits : keptBytes (op.step serializedLen j) < 2 ^ 64) :
    (op.step serializedLen j).bytes = keptBytes (op.step serializedLen j) := by
  cases op with
  | commit epoch scopeRevision change =>
      simp only [JournalOp.step, RuntimeJournal.commit, keptBytes, List.map_append, List.map_cons,
        List.map_nil, List.sum_append, List.sum_singleton] at hfits h ⊢
      rw [h, saturatingAdd]
      omega
  | releaseThrough seq =>
      have hpop := popThrough_snd seq j.deltas 0
      simp only [Nat.zero_add] at hpop
      change (RuntimeJournal.popThrough seq j.deltas j.bytes).2 =
        ((RuntimeJournal.popThrough seq j.deltas j.bytes).1.map (·.bytes)).sum
      rw [h]
      exact hpop
  | retireTurnPayload sessionId incarnation operationId => rfl

end Log

section Runs

variable (serializedLen : RuntimeDelta → Nat)

/-- After any run below the wrap of the counter the journal keeps the end of what was committed, and
answers for every number from the one before it on with precisely the later deltas; while the kept
lengths fit the byte counter, the counter is their sum; and from the retirement of a turn on, no
delta from before is kept that carries its session incarnation. -/
theorem journal_keeps_end (ops : List JournalOp) (hwrap : (committed ops).length + 1 < 2 ^ 64) :
    let j := run (JournalOp.step serializedLen) .new ops
    (∃ dropped ≤ (committed ops).length,
      j.deltas.map (·.delta) = (committed ops).drop dropped ∧
      (∀ n, j.deltasAfter n =
        if dropped ≤ n ∧ n ≤ (committed ops).length then some ((committed ops).drop n)
        else none)) ∧
    j.seq = (committed ops).length ∧
    (∀ (i : Nat) (delta : RuntimeDelta), (committed ops)[i]? = some delta → delta.seq = i + 1) ∧
    (Along (JournalOp.step serializedLen)
        (fun j op => keptBytes (op.step serializedLen j) < 2 ^ 64) .new ops →
      j.bytes = (j.deltas.map fun entry => serializedLen entry.delta).sum) ∧
    ∀ before sessionId incarnation operationId later,
      ops = before ++ .retireTurnPayload sessionId incarnation operationId :: later →
      ∀ entry ∈ j.deltas,
        entry.delta.seq ≤ (run (JournalOp.step serializedLen) .new before).seq →
        entry.delta.change.carries sessionId incarnation = false := by
  intro j
  have hrun := (keeps_new serializedLen).run ops (by
    rw [List.length_nil, Nat.zero_add]
    exact Nat.lt_of_succ_lt hwrap)
  rw [List.nil_append, List.length_nil] at hrun
  obtain ⟨dropped, -, hkeeps⟩ := hrun
  refine ⟨⟨dropped, hkeeps.dropped_le, ?_, fun n => hkeeps.deltasAfter hwrap n⟩, hkeeps.seq,
    hkeeps.numbered, ?_, ?_⟩
  · rw [hkeeps.deltas, List.map_map]
    exact List.map_id _
  · intro hfits
    have hbytes : j.bytes = keptBytes j :=
      run_invariant_along (P := fun j => j.bytes = keptBytes j)
        (fun _ op h hfits => step_bytes op h hfits) rfl hfits
    rw [hbytes, keptBytes, hkeeps.deltas, List.map_map, List.map_map]
    rfl
  · rintro before sessionId incarnation operationId later rfl entry hentry hseq
    have hsplit := committedFrom_append 0 before
      (.retireTurnPayload sessionId incarnation operationId :: later)
    rw [Nat.zero_add, committedFrom] at hsplit
    rw [committed, hsplit, List.length_append] at hwrap
    obtain ⟨dropped₁, -, hbefore⟩ := (keeps_new serializedLen).run before (by
      rw [List.length_nil, Nat.zero_add]
      omega)
    rw [List.nil_append, List.length_nil] at hbefore
    rw [hbefore.seq] at hseq
    have hclean := retireTurnPayload_carries hbefore sessionId incarnation operationId
    obtain ⟨dropped₂, -, hretired⟩ :=
      hbefore.retireTurnPayload sessionId incarnation operationId
    obtain ⟨dropped₃, hle, hlater⟩ := hretired.run later (by omega)
    have hj : j = run (JournalOp.step serializedLen) ((run (JournalOp.step serializedLen) .new
        before).retireTurnPayload sessionId incarnation operationId) later := run_append _ _ _ _
    rw [hj, hlater.deltas] at hentry
    obtain ⟨delta, hdelta, rfl⟩ := List.mem_map.mp hentry
    obtain ⟨i, hi⟩ := List.mem_iff_getElem?.mp hdelta
    rw [List.getElem?_drop] at hi
    have hnumber := hlater.numbered _ delta hi
    have hlog : (committedFrom 0 before)[dropped₃ + i]? = some delta := by
      rw [List.getElem?_append_left (by simp only at hseq; omega)] at hi
      exact hi
    refine hclean ⟨delta, serializedLen delta⟩ ?_
    rw [hretired.deltas]
    refine List.mem_map_of_mem (List.mem_iff_getElem?.mpr ⟨dropped₃ + i - dropped₂, ?_⟩)
    rw [List.getElem?_drop, ← hlog]
    congr 1
    omega

/-- Two sessions whose turn updates are interleaved, the first of which is retired. -/
theorem journal_keeps_end_retired :
    let ops : List JournalOp :=
      [.commit "e" none (.turnUpdateAppended "a" 1 1 "op" .null),
        .commit "e" none (.turnUpdateAppended "b" 1 1 "other" .null),
        .retireTurnPayload "a" 1 "op"]
    (run (JournalOp.step fun _ => 7) .new ops).seq = 2 ∧
      (run (JournalOp.step fun _ => 7) .new ops).deltas.map (·.delta.seq) = [2] := by
  intro ops
  obtain ⟨-, hseq, -⟩ := journal_keeps_end (fun _ => 7) ops (by decide)
  exact ⟨hseq, by decide⟩

end Runs

end Attyd.Delivery
