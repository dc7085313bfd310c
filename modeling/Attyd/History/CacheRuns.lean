import Attyd.History.Cache

/-!
# Runs of the history cache

Loads of many sessions run side by side, and writers of finished attempts still
hold their handles. A run interleaves the operations of the cache with the
operations of any handle ever given out. Beside the cache a ledger records, from
the outside, what each candidate was asked and what it answered; a baseline is
only ever replaced by the fold of a clean ledger.
-/

namespace Attyd.History

open Json (Value)

variable {σ : Type} [Inhabited σ]

/-- An operation on a candidate through one of its handles. -/
inductive ReplayOp where
  | append (update : Value)
  | ingest (update : Value) (conversation : Bool)
  | poison (error : HistoryCacheError)
  | reject (message : String)
  | sealReplay
  | takeControls
  | discard

/-- Whether the operation was answered without an error, and what it leaves. -/
def ReplayOp.run (validate : ValidateHistoryUpdate σ) (data : ReplayData σ) :
    ReplayOp → Bool × ReplayData σ
  | .append update => ((data.append update).1.isOk, (data.append update).2)
  | .ingest update conversation =>
      ((data.ingest validate update conversation).1.isOk,
        (data.ingest validate update conversation).2)
  | .poison error => (true, data.poison error)
  | .reject message => (true, data.reject message)
  | .sealReplay => (true, data.sealReplay)
  | .takeControls => (true, data.takeControls.2)
  | .discard => (true, .discarded)

/-- What a candidate was asked and answered: the conversation updates it took
before it was closed, whether it was closed, and whether it was spoiled by a
refusal before that, or by a poison, a rejection or a discard. -/
structure Ledger where
  accepted : List Value
  closed : Bool
  spoiled : Bool

namespace Ledger

def empty : Ledger := ⟨[], false, false⟩

def accept (l : Ledger) (update : Value) : Ledger := { l with accepted := l.accepted ++ [update] }

def spoil (l : Ledger) : Ledger := { l with spoiled := true }

/-- Book one operation and its answer. -/
def book (l : Ledger) : ReplayOp → (answered : Bool) → Ledger
  | .append update, true => l.accept update
  | .append _, false => if l.closed then l else l.spoil
  | .ingest update conversation, true =>
      if l.closed || l.spoiled || !conversation then l else l.accept update
  | .ingest _ _, false => l.spoil
  | .poison _, _ | .reject _, _ | .discard, _ => l.spoil
  | .sealReplay, _ => { l with closed := true }
  | .takeControls, _ => l

end Ledger

/-- The operations of the cache and of the handles it has given out. -/
inductive CacheOp where
  | begin (key : SessionKey) (attemptId : String)
  | append (key : SessionKey) (attemptId : String) (update : Value)
  | poison (key : SessionKey) (attemptId : String) (error : HistoryCacheError)
  | commit (key : SessionKey) (attemptId : String)
  | abort (key : SessionKey) (attemptId : String)
  | remove (key : SessionKey)
  | handle (replay : Nat) (op : ReplayOp)

/-- A cache with the ledgers of all candidates it ever opened. -/
structure AuditedCache (σ : Type) where
  cache : HistoryCache σ
  ledgers : List Ledger

namespace AuditedCache

def new (epoch : String) : AuditedCache σ := ⟨.new epoch, []⟩

/-- Book an operation on the ledger of a candidate. -/
def book (self : AuditedCache σ) (replay : Nat) (op : ReplayOp) (answered : Bool) : List Ledger :=
  self.ledgers.modify replay fun l => l.book op answered

/-- The ledgers after an operation that names a key and an attempt. -/
def bookAttempt (self : AuditedCache σ) (key : SessionKey) (attemptId : String) (op : ReplayOp)
    (answered : Bool) : List Ledger :=
  match self.cache.candidate key attemptId with
  | .ok replay => self.book replay op answered
  | .error _ => self.ledgers

/-- One operation, whatever it answers. -/
def step (validate : ValidateHistoryUpdate σ) (self : AuditedCache σ) : CacheOp → AuditedCache σ
  | .begin key attemptId =>
      let result := self.cache.beginCandidate key attemptId
      ⟨result.2, if result.1.isOk then self.ledgers ++ [.empty] else self.ledgers⟩
  | .append key attemptId update =>
      let result := self.cache.appendCandidate key attemptId update
      ⟨result.2, self.bookAttempt key attemptId (.append update) result.1.isOk⟩
  | .poison key attemptId error =>
      let result := self.cache.poisonCandidate key attemptId error
      ⟨result.2, self.bookAttempt key attemptId (.poison error) result.1.isOk⟩
  | .commit key attemptId =>
      let result := self.cache.commitCandidate key attemptId
      ⟨result.2,
        if result.1.isOk then self.bookAttempt key attemptId .sealReplay true else self.ledgers⟩
  | .abort key attemptId =>
      let result := self.cache.abortCandidate key attemptId
      ⟨result.2, self.bookAttempt key attemptId .discard result.1.isOk⟩
  | .remove key =>
      ⟨self.cache.remove key,
        match self.cache.candidates.lookup key with
        | some candidate => self.book candidate.replay .discard true
        | none => self.ledgers⟩
  | .handle replay op =>
      let result := self.cache.onReplay replay fun data => op.run validate data
      ⟨result.2, self.book replay op result.1⟩

end AuditedCache

section Candidate

/-- The flags and the folded list of a candidate agree with its ledger. -/
structure Audited (data : ReplayData σ) (l : Ledger) : Prop where
  invalid : data.invalid.isSome = l.spoiled
  closed : l.spoiled = false → data.sealed = l.closed
  indexed : data.history.Indexed
  folded : l.spoiled = false →
    normalizeHistoryUpdates l.accepted = .ok data.history.updates

theorem audited_default : Audited (.default : ReplayData σ) .empty :=
  ⟨rfl, fun _ => rfl, HistoryBuilder.indexed_default, fun _ => rfl⟩

omit [Inhabited σ] in
/-- A spoiled candidate stays spoiled whatever else is asked of it. -/
theorem audited_spoiled {data : ReplayData σ} {l : Ledger} (hi : data.invalid.isSome = true)
    (hl : l.spoiled = true) (hx : data.history.Indexed) : Audited data l :=
  ⟨by rw [hi, hl], fun h => by simp [hl] at h, hx, fun h => by simp [hl] at h⟩

/-- An update the builder takes extends the fold of the accepted updates. -/
theorem normalize_accept {l : Ledger} {b : HistoryBuilder} {update : Value} (hi : b.Indexed)
    (hl : normalizeHistoryUpdates l.accepted = .ok b.updates)
    (hok : (b.append update).1 = .ok ()) :
    (b.append update).2.Indexed ∧
      normalizeHistoryUpdates (l.accept update).accepted = .ok (b.append update).2.updates := by
  have hstep := HistoryBuilder.append_step hi update
  cases hf : foldHistoryUpdate b.updates update with
  | error e =>
      rw [hf] at hstep
      simp [hstep] at hok
  | ok folded =>
      rw [hf] at hstep
      obtain ⟨-, hu, hx⟩ := hstep
      refine ⟨hx, ?_⟩
      rw [hu]
      exact foldlM_snoc_eq_ok.mpr ⟨b.updates, hl, hf⟩

/-- A rejected update leaves the builder as it was. -/
theorem append_error_eq {b : HistoryBuilder} {update : Value} {e : RuntimeStateError}
    (hi : b.Indexed) (h : (b.append update).1 = .error e) : (b.append update).2 = b := by
  have hstep := HistoryBuilder.append_step hi update
  cases hf : foldHistoryUpdate b.updates update with
  | error e' =>
      rw [hf] at hstep
      rw [hstep]
  | ok folded =>
      rw [hf] at hstep
      simp [hstep.1] at h

omit [Inhabited σ] in
theorem Audited.append {data : ReplayData σ} {l : Ledger} (h : Audited data l) (update : Value) :
    Audited (data.append update).2 (l.book (.append update) (data.append update).1.isOk) := by
  unfold ReplayData.append
  cases hs : data.sealed with
  | true =>
      simp only [if_true, Except.isOk, Except.toBool, Ledger.book]
      cases hp : l.spoiled with
      | false =>
          have hc := h.closed hp
          rw [hs] at hc
          rw [← hc]
          exact h
      | true =>
          have hi : data.invalid.isSome = true := by rw [h.invalid, hp]
          split
          · exact h
          · exact audited_spoiled hi rfl h.indexed
  | false =>
      simp only [Bool.false_eq_true, if_false]
      cases hi : data.invalid with
      | some error =>
          simp only [Except.isOk, Except.toBool, Ledger.book]
          split
          · exact h
          · exact audited_spoiled (by rw [hi]; rfl) rfl h.indexed
      | none =>
          have hp : l.spoiled = false := by rw [← h.invalid, hi]; rfl
          have hc := h.closed hp
          rw [hs] at hc
          cases ha : data.history.append update with
          | mk answer history =>
              cases answer with
              | error e =>
                  have heq : history = data.history := by
                    have := append_error_eq h.indexed (by rw [ha])
                    rwa [ha] at this
                  simp only [Except.isOk, Except.toBool, Ledger.book, ← hc]
                  exact audited_spoiled rfl rfl (heq ▸ h.indexed)
              | ok u =>
                  obtain ⟨hx, hn⟩ := normalize_accept h.indexed (h.folded hp) (by rw [ha])
                  rw [ha] at hx hn
                  simp only [Except.isOk, Except.toBool, Ledger.book]
                  exact ⟨hp.symm, fun _ => hc, hx, fun _ => hn⟩

omit [Inhabited σ] in
theorem Audited.ingest (validate : ValidateHistoryUpdate σ) {data : ReplayData σ} {l : Ledger}
    (h : Audited data l) (update : Value) (conversation : Bool) :
    Audited (data.ingest validate update conversation).2
      (l.book (.ingest update conversation)
        (data.ingest validate update conversation).1.isOk) := by
  unfold ReplayData.ingest
  split
  case isTrue hclosed =>
    -- Ignored: the ledger has to know that the candidate was closed or spoiled.
    have hl : (l.closed || l.spoiled) = true := by
      cases hp : l.spoiled with
      | true => simp
      | false =>
          have hi : data.invalid.isSome = false := by rw [h.invalid, hp]
          rw [hi, Bool.or_false, h.closed hp] at hclosed
          simp [hclosed]
    simp only [Except.isOk, Except.toBool, Ledger.book, hl, Bool.true_or, if_true]
    exact h
  case isFalse hopen =>
    simp only [Bool.or_eq_true, not_or, Bool.not_eq_true] at hopen
    have hp : l.spoiled = false := by rw [← h.invalid, hopen.2]
    have hc : l.closed = false := by rw [← h.closed hp, hopen.1]
    unfold ReplayData.ingestRecord
    cases hv : validate data.validation update with
    | mk checked validation =>
        cases checked with
        | error message => exact audited_spoiled rfl rfl h.indexed
        | ok u =>
            cases conversation with
            | false =>
                simp only [Except.isOk, Except.toBool, Ledger.book, hp, hc]
                exact ⟨h.invalid, h.closed, h.indexed, h.folded⟩
            | true =>
                cases ha : data.history.append update with
                | mk answer history =>
                    cases answer with
                    | error e =>
                        have heq : history = data.history := by
                          have := append_error_eq h.indexed (by rw [ha])
                          rwa [ha] at this
                        exact audited_spoiled rfl rfl (heq ▸ h.indexed)
                    | ok u =>
                        obtain ⟨hx, hn⟩ := normalize_accept h.indexed (h.folded hp) (by rw [ha])
                        rw [ha] at hx hn
                        simp only [Except.isOk, Except.toBool, Ledger.book, hp, hc]
                        exact ⟨h.invalid, h.closed, hx, fun _ => hn⟩

omit [Inhabited σ] in
theorem Audited.spoil {data : ReplayData σ} {l : Ledger} (h : Audited data l)
    {spoiled : ReplayData σ} (hi : spoiled.invalid.isSome = true)
    (hx : spoiled.history = data.history) : Audited spoiled l.spoil :=
  audited_spoiled hi rfl (hx ▸ h.indexed)

/-- Every operation through a handle keeps candidate and ledger in agreement. -/
theorem Audited.run (validate : ValidateHistoryUpdate σ) {data : ReplayData σ} {l : Ledger}
    (h : Audited data l) (op : ReplayOp) :
    Audited (op.run validate data).2 (l.book op (op.run validate data).1) := by
  cases op with
  | append update => exact h.append update
  | ingest update conversation => exact h.ingest validate update conversation
  | poison error =>
      refine h.spoil ?_ rfl
      cases hi : data.invalid <;> simp [ReplayOp.run, ReplayData.poison, hi]
  | reject message =>
      refine h.spoil ?_ rfl
      cases hi : data.invalid <;> simp [ReplayOp.run, ReplayData.reject, hi]
  | sealReplay => exact ⟨h.invalid, fun _ => rfl, h.indexed, h.folded⟩
  | takeControls => exact ⟨h.invalid, h.closed, h.indexed, h.folded⟩
  | discard => exact audited_spoiled rfl rfl HistoryBuilder.indexed_default

omit [Inhabited σ] in
/-- A poisoned candidate cannot be taken. -/
theorem Audited.updates_eq_ok {data : ReplayData σ} {l : Ledger} (h : Audited data l)
    {updates : List Value} (hu : data.updates = .ok updates) :
    l.spoiled = false ∧ normalizeHistoryUpdates l.accepted = .ok updates := by
  unfold ReplayData.updates at hu
  cases hi : data.invalid with
  | some error => simp [hi] at hu
  | none =>
      have hp : l.spoiled = false := by rw [← h.invalid, hi]; rfl
      simp only [hi, Except.ok.injEq] at hu
      exact ⟨hp, hu ▸ h.folded hp⟩

end Candidate

section Runs

/-- The current candidates agree with their ledgers, and no two keys share one. -/
structure Sound (a : AuditedCache σ) : Prop where
  ledgers : a.ledgers.length = a.cache.replays.length
  current : ∀ key candidate, a.cache.candidates.lookup key = some candidate →
    ∃ data l, a.cache.replays[candidate.replay]? = some data ∧
      a.ledgers[candidate.replay]? = some l ∧ Audited data l
  distinct : ∀ key key' candidate candidate', a.cache.candidates.lookup key = some candidate →
    a.cache.candidates.lookup key' = some candidate' → candidate.replay = candidate'.replay →
    key = key'

omit [Inhabited σ] in
theorem sound_new (epoch : String) : Sound (.new epoch : AuditedCache σ) := by
  refine ⟨rfl, ?_, ?_⟩
  · intro key candidate h
    simp [AuditedCache.new, HistoryCache.new] at h
  · intro key key' candidate candidate' h
    simp [AuditedCache.new, HistoryCache.new] at h

/-- An operation on one candidate, through whatever path it comes. -/
theorem Sound.handle (validate : ValidateHistoryUpdate σ) {a : AuditedCache σ} (h : Sound a)
    (replay : Nat) (op : ReplayOp) : Sound (a.step validate (.handle replay op)) := by
  refine ⟨?_, ?_, h.distinct⟩
  · simpa [AuditedCache.step, AuditedCache.book] using h.ledgers
  · intro key candidate hc
    obtain ⟨data, l, hd, hl, ha⟩ := h.current key candidate hc
    by_cases he : replay = candidate.replay
    · subst he
      obtain ⟨hanswer, hdata⟩ :=
        HistoryCache.onReplay_of_getElem? hd fun data => op.run validate data
      refine ⟨_, _, hdata, ?_, ha.run validate op⟩
      rw [← hanswer]
      simp only [AuditedCache.step, AuditedCache.book, List.getElem?_modify_eq, hl]
      rfl
    · refine ⟨data, l, ?_, ?_, ha⟩
      · simp only [AuditedCache.step]
        rw [HistoryCache.onReplay_getElem?_of_ne he, hd]
      · simp [AuditedCache.step, AuditedCache.book, List.getElem?_modify_ne _ _ he, hl]

omit [Inhabited σ] in
/-- A finished attempt gives up its key; its candidate and ledger may end as they
like. -/
theorem Sound.retire {a b : AuditedCache σ} (h : Sound a) {key : SessionKey}
    {finished : LoadCandidate} (hkey : a.cache.candidates.lookup key = some finished)
    (hlen : b.ledgers.length = b.cache.replays.length)
    (hcandidates : b.cache.candidates = a.cache.candidates.erase key)
    (hreplays : ∀ j, finished.replay ≠ j → b.cache.replays[j]? = a.cache.replays[j]?)
    (hledgers : ∀ j, finished.replay ≠ j → b.ledgers[j]? = a.ledgers[j]?) : Sound b := by
  have hback : ∀ other candidate, b.cache.candidates.lookup other = some candidate →
      other ≠ key ∧ a.cache.candidates.lookup other = some candidate := by
    intro other candidate hc
    rw [hcandidates] at hc
    by_cases ho : other = key
    · subst ho
      simp at hc
    · exact ⟨ho, by rwa [Finmap.lookup_erase_ne ho] at hc⟩
  refine ⟨hlen, ?_, ?_⟩
  · intro other candidate hc
    obtain ⟨hne, hc⟩ := hback other candidate hc
    obtain ⟨data, l, hd, hl, ha⟩ := h.current other candidate hc
    have hr : finished.replay ≠ candidate.replay := fun he =>
      hne (h.distinct other key candidate finished hc hkey he.symm)
    exact ⟨data, l, by rw [hreplays _ hr, hd], by rw [hledgers _ hr, hl], ha⟩
  · intro key₁ key₂ candidate₁ candidate₂ h₁ h₂ he
    exact h.distinct key₁ key₂ candidate₁ candidate₂ (hback _ _ h₁).2 (hback _ _ h₂).2 he

theorem Sound.begin {a : AuditedCache σ} (h : Sound a) (validate : ValidateHistoryUpdate σ)
    (key : SessionKey) (attemptId : String) :
    Sound (a.step validate (.begin key attemptId)) := by
  cases hk : a.cache.candidates.lookup key with
  | some candidate =>
      simp only [AuditedCache.step, HistoryCache.beginCandidate_of_some attemptId hk]
      exact h
  | none =>
      simp only [AuditedCache.step, HistoryCache.beginCandidate_of_none attemptId hk]
      -- Every handle given out so far lies below the new one.
      have hbelow : ∀ other candidate, a.cache.candidates.lookup other = some candidate →
          candidate.replay < a.cache.replays.length := by
        intro other candidate hc
        obtain ⟨data, l, hd, -, -⟩ := h.current other candidate hc
        exact (List.getElem?_eq_some_iff.mp hd).1
      have hlook : ∀ other candidate,
          (a.cache.candidates.insert key ⟨attemptId, a.cache.replays.length⟩).lookup other =
            some candidate →
          (other = key ∧ candidate.replay = a.cache.replays.length) ∨
            (other ≠ key ∧ a.cache.candidates.lookup other = some candidate) := by
        intro other candidate hc
        by_cases ho : other = key
        · subst ho
          rw [Finmap.lookup_insert] at hc
          cases hc
          exact .inl ⟨rfl, rfl⟩
        · rw [Finmap.lookup_insert_of_ne _ ho] at hc
          exact .inr ⟨ho, hc⟩
      refine ⟨?_, ?_, ?_⟩
      · simp [Except.isOk, Except.toBool, h.ledgers]
      · intro other candidate hc
        rcases hlook other candidate hc with ⟨-, hr⟩ | ⟨-, hc⟩
        · refine ⟨.default, .empty, ?_, ?_, audited_default⟩
          · simp [hr]
          · simp [hr, ← h.ledgers, Except.isOk, Except.toBool]
        · obtain ⟨data, l, hd, hl, ha⟩ := h.current other candidate hc
          have hlt := hbelow other candidate hc
          refine ⟨data, l, ?_, ?_, ha⟩
          · rw [← hd]
            exact List.getElem?_append_left hlt
          · rw [← hl]
            simp only [Except.isOk, Except.toBool, if_true]
            exact List.getElem?_append_left (h.ledgers ▸ hlt)
      · intro key₁ key₂ candidate₁ candidate₂ h₁ h₂ he
        rcases hlook _ _ h₁ with ⟨hk₁, hr₁⟩ | ⟨-, hold₁⟩
        · rcases hlook _ _ h₂ with ⟨hk₂, -⟩ | ⟨-, hold₂⟩
          · rw [hk₁, hk₂]
          · have := hbelow _ _ hold₂
            omega
        · rcases hlook _ _ h₂ with ⟨-, hr₂⟩ | ⟨-, hold₂⟩
          · have := hbelow _ _ hold₁
            omega
          · exact h.distinct _ _ _ _ hold₁ hold₂ he

/-- Naming the attempt of a key is going through its handle. -/
theorem step_append_of_candidate (validate : ValidateHistoryUpdate σ) {a : AuditedCache σ}
    {key : SessionKey} {attemptId : String} {replay : Nat}
    (hc : a.cache.candidate key attemptId = .ok replay) (update : Value) :
    a.step validate (.append key attemptId update) =
      a.step validate (.handle replay (.append update)) := by
  simp only [AuditedCache.step, HistoryCache.appendCandidate, AuditedCache.bookAttempt, hc]
  rfl

theorem step_poison_of_candidate (validate : ValidateHistoryUpdate σ) {a : AuditedCache σ}
    {key : SessionKey} {attemptId : String} {replay : Nat}
    (hc : a.cache.candidate key attemptId = .ok replay) (error : HistoryCacheError) :
    a.step validate (.poison key attemptId error) =
      a.step validate (.handle replay (.poison error)) := by
  simp only [AuditedCache.step, HistoryCache.poisonCandidate, AuditedCache.bookAttempt, hc]
  rfl

theorem Sound.commit {a : AuditedCache σ} (h : Sound a) (validate : ValidateHistoryUpdate σ)
    (key : SessionKey) (attemptId : String) :
    Sound (a.step validate (.commit key attemptId)) := by
  rcases a.cache.commitCandidate_cases key attemptId with
    ⟨error, hcommit⟩ | ⟨replay, updates, hkey, -, hcommit⟩
  · simp only [AuditedCache.step, hcommit]
    exact h
  · have hc := HistoryCache.candidate_eq_ok.mpr hkey
    refine h.retire hkey ?_ ?_ ?_ ?_
    · simp [AuditedCache.step, hcommit, AuditedCache.bookAttempt, hc, AuditedCache.book,
        HistoryCache.publish, HistoryCache.installSnapshot, Except.isOk, Except.toBool, h.ledgers]
    · simp only [AuditedCache.step, hcommit]
      rfl
    · intro j hj
      simp only [AuditedCache.step, hcommit]
      exact HistoryCache.onReplay_getElem?_of_ne hj _
    · intro j hj
      simp [AuditedCache.step, hcommit, AuditedCache.bookAttempt, hc, AuditedCache.book,
        Except.isOk, Except.toBool, List.getElem?_modify_ne _ _ hj]

theorem Sound.abort {a : AuditedCache σ} (h : Sound a) (validate : ValidateHistoryUpdate σ)
    (key : SessionKey) (attemptId : String) :
    Sound (a.step validate (.abort key attemptId)) := by
  cases hc : a.cache.candidate key attemptId with
  | error error =>
      simp only [AuditedCache.step, HistoryCache.abortCandidate, AuditedCache.bookAttempt, hc]
      exact h
  | ok replay =>
      have hkey := HistoryCache.candidate_eq_ok.mp hc
      refine h.retire hkey ?_ ?_ ?_ ?_
      · simp [AuditedCache.step, HistoryCache.abortCandidate, AuditedCache.bookAttempt, hc,
          AuditedCache.book, h.ledgers]
      · simp [AuditedCache.step, HistoryCache.abortCandidate, hc, HistoryCache.onReplay]
      · intro j hj
        simp only [AuditedCache.step, HistoryCache.abortCandidate, hc]
        exact HistoryCache.onReplay_getElem?_of_ne hj _
      · intro j hj
        simp [AuditedCache.step, HistoryCache.abortCandidate, AuditedCache.bookAttempt, hc,
          AuditedCache.book, List.getElem?_modify_ne _ _ hj]

theorem Sound.remove {a : AuditedCache σ} (h : Sound a) (validate : ValidateHistoryUpdate σ)
    (key : SessionKey) : Sound (a.step validate (.remove key)) := by
  cases hk : a.cache.candidates.lookup key with
  | none =>
      simp only [AuditedCache.step, HistoryCache.remove, hk]
      exact ⟨h.ledgers, h.current, h.distinct⟩
  | some candidate =>
      refine h.retire hk ?_ ?_ ?_ ?_
      · simp [AuditedCache.step, HistoryCache.remove, hk, AuditedCache.book, h.ledgers]
      · simp [AuditedCache.step, HistoryCache.remove, hk, HistoryCache.onReplay]
      · intro j hj
        simp only [AuditedCache.step, HistoryCache.remove, hk]
        exact HistoryCache.onReplay_getElem?_of_ne hj _
      · intro j hj
        simp [AuditedCache.step, hk, AuditedCache.book, List.getElem?_modify_ne _ _ hj]

/-- Every operation keeps candidates and ledgers in agreement. -/
theorem Sound.step {a : AuditedCache σ} (h : Sound a) (validate : ValidateHistoryUpdate σ)
    (op : CacheOp) : Sound (a.step validate op) := by
  cases op with
  | begin key attemptId => exact h.begin validate key attemptId
  | append key attemptId update =>
      cases hc : a.cache.candidate key attemptId with
      | ok replay =>
          rw [step_append_of_candidate validate hc]
          exact h.handle validate replay _
      | error error =>
          simp only [AuditedCache.step, HistoryCache.appendCandidate, AuditedCache.bookAttempt, hc]
          exact h
  | poison key attemptId error =>
      cases hc : a.cache.candidate key attemptId with
      | ok replay =>
          rw [step_poison_of_candidate validate hc]
          exact h.handle validate replay _
      | error error' =>
          simp only [AuditedCache.step, HistoryCache.poisonCandidate, AuditedCache.bookAttempt, hc]
          exact h
  | commit key attemptId => exact h.commit validate key attemptId
  | abort key attemptId => exact h.abort validate key attemptId
  | remove key => exact h.remove validate key
  | handle replay op => exact h.handle validate replay op

theorem sound_run (validate : ValidateHistoryUpdate σ) (epoch : String) (ops : List CacheOp) :
    Sound (run (AuditedCache.step validate) (.new epoch) ops) := by
  have hstep : ∀ (a : AuditedCache σ) op, Sound a → Sound (a.step validate op) :=
    fun _ op h => h.step validate op
  exact run_invariant hstep (sound_new epoch) ops

/-- An operation through a handle publishes nothing and reaches no other candidate. -/
theorem handle_isolated (validate : ValidateHistoryUpdate σ) (a : AuditedCache σ) (replay : Nat)
    (op : ReplayOp) :
    let b := a.step validate (.handle replay op)
    (∀ key, b.cache.peek key = a.cache.peek key) ∧
      b.cache.candidates = a.cache.candidates ∧
      ∀ other, replay ≠ other → b.cache.replays[other]? = a.cache.replays[other]? :=
  ⟨fun _ => rfl, rfl, fun _ hne => by
    simp only [AuditedCache.step]
    exact HistoryCache.onReplay_getElem?_of_ne hne _⟩

/-- A baseline is replaced only by a commit of the clean current candidate. -/
theorem step_peek (validate : ValidateHistoryUpdate σ) {a : AuditedCache σ} (h : Sound a)
    (op : CacheOp) (key : SessionKey) :
    (a.step validate op).cache.peek key = a.cache.peek key ∨
      (op = .remove key ∧ (a.step validate op).cache.peek key = none) ∨
      ∃ attemptId replay l snapshot, op = .commit key attemptId ∧
        a.cache.candidates.lookup key = some ⟨attemptId, replay⟩ ∧
        a.ledgers[replay]? = some l ∧ l.spoiled = false ∧
        (a.step validate op).cache.peek key = some snapshot ∧
        normalizeHistoryUpdates l.accepted = .ok snapshot.updates := by
  cases op with
  | begin other attemptId =>
      left
      cases hk : a.cache.candidates.lookup other <;>
        simp [AuditedCache.step, HistoryCache.beginCandidate, hk, HistoryCache.peek]
  | append other attemptId update =>
      left
      cases hc : a.cache.candidate other attemptId <;>
        simp [AuditedCache.step, HistoryCache.appendCandidate, hc, HistoryCache.peek,
          HistoryCache.onReplay]
  | poison other attemptId error =>
      left
      cases hc : a.cache.candidate other attemptId <;>
        simp [AuditedCache.step, HistoryCache.poisonCandidate, hc, HistoryCache.peek,
          HistoryCache.onReplay]
  | commit other attemptId =>
      rcases a.cache.commitCandidate_cases other attemptId with
        ⟨error, hcommit⟩ | ⟨replay, updates, hkey, hupdates, hcommit⟩
      · left
        simp only [AuditedCache.step, hcommit]
      · simp only [AuditedCache.step, hcommit, HistoryCache.peek_publish]
        by_cases ho : key = other
        · subst ho
          obtain ⟨data, l, hd, hl, ha⟩ := h.current key _ hkey
          have hget : a.cache.replays.getD replay .default = data := by
            rw [List.getD_eq_getElem?_getD, hd, Option.getD_some]
          rw [hget] at hupdates
          obtain ⟨hclean, hfold⟩ := ha.updates_eq_ok hupdates
          exact .inr (.inr ⟨attemptId, replay, l, _, rfl, hkey, hl, hclean, if_pos rfl, hfold⟩)
        · left
          rw [if_neg ho]
  | abort other attemptId =>
      left
      cases hc : a.cache.candidate other attemptId <;>
        simp [AuditedCache.step, HistoryCache.abortCandidate, hc, HistoryCache.peek,
          HistoryCache.onReplay]
  | remove other =>
      have hentries : (a.step validate (.remove other)).cache.entries =
          a.cache.entries.erase other := by
        cases hk : a.cache.candidates.lookup other <;>
          simp [AuditedCache.step, HistoryCache.remove, hk, HistoryCache.onReplay]
      by_cases ho : key = other
      · subst ho
        right
        left
        simp [HistoryCache.peek, hentries]
      · left
        simp [HistoryCache.peek, hentries, Finmap.lookup_erase_ne ho]
  | handle replay op => exact .inl ((handle_isolated validate a replay op).1 key)

/-- After any interleaving, one more operation changes a published baseline only
by removing it or by a commit that names the current attempt of the key, whose
candidate is clean, and the new baseline is the fold of what that candidate took.
An operation through a handle publishes nothing and reaches no other candidate;
a new attempt gets a handle nobody had, and two keys never share one. -/
theorem baseline_published_by_clean_commit (validate : ValidateHistoryUpdate σ) (epoch : String)
    (ops : List CacheOp) :
    let a := run (AuditedCache.step validate) (.new epoch) ops
    (∀ op key, (a.step validate op).cache.peek key = a.cache.peek key ∨
      (op = .remove key ∧ (a.step validate op).cache.peek key = none) ∨
      ∃ attemptId replay l snapshot, op = .commit key attemptId ∧
        a.cache.candidates.lookup key = some ⟨attemptId, replay⟩ ∧
        a.ledgers[replay]? = some l ∧ l.spoiled = false ∧
        (a.step validate op).cache.peek key = some snapshot ∧
        normalizeHistoryUpdates l.accepted = .ok snapshot.updates) ∧
    (∀ replay op,
      (∀ key, (a.step validate (.handle replay op)).cache.peek key = a.cache.peek key) ∧
      (a.step validate (.handle replay op)).cache.candidates = a.cache.candidates ∧
      ∀ other, replay ≠ other →
        (a.step validate (.handle replay op)).cache.replays[other]? = a.cache.replays[other]?) ∧
    (∀ key attemptId, a.cache.candidates.lookup key = none →
      (a.step validate (.begin key attemptId)).cache.candidates.lookup key =
        some ⟨attemptId, a.cache.replays.length⟩) ∧
    ∀ key key' candidate candidate', a.cache.candidates.lookup key = some candidate →
      a.cache.candidates.lookup key' = some candidate' → candidate.replay = candidate'.replay →
      key = key' := by
  have h := sound_run validate epoch ops
  refine ⟨step_peek validate h, handle_isolated validate _, ?_, h.distinct⟩
  intro key attemptId hk
  simp only [AuditedCache.step, HistoryCache.beginCandidate_of_none attemptId hk,
    Finmap.lookup_insert]

/-- A removal deletes a published baseline, and an update that is refused because
the candidate is sealed already does not hold up its publication. -/
theorem baseline_changes_beside_refusing_commits :
    let validate : ValidateHistoryUpdate Unit := fun validation _ => (.ok (), validation)
    let key : SessionKey := ⟨"s", 1⟩
    let first := Value.ofFields [("message", .string "first")]
    let second := Value.ofFields [("message", .string "second")]
    let loaded := run (AuditedCache.step validate) (.new "epoch")
      [.begin key "load", .append key "load" first, .handle 0 .sealReplay]
    let refused := loaded.step validate (.append key "load" second)
    let published := refused.step validate (.commit key "load")
    (loaded.cache.appendCandidate key "load" second).1.isOk = false ∧
      refused.cache.peek key = none ∧
      (published.cache.peek key).map (·.updates) = some [first] ∧
      (published.step validate (.remove key)).cache.peek key = none := by
  decide

end Runs

end Attyd.History
