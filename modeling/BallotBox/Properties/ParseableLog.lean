import BallotBox.Properties.Support.LogOperations

/-!
# The log file can be parsed

After every operation the log file is the checkpoint pointer and the complete records of a journal,
each with its own offset at its end, and `scanLog` visits exactly them (`log_parseable`).
-/

namespace BallotBox.SimpleDb

open Journal LogRecord List Option

variable {reread : HeapPageId → PageData → Option PageData} {j j' : FileJournal} {n : ℕ}
variable {r : FileRecord} {α : Type} {P : LogFile → Prop} {f f' : LogFile} {s s' : LogRun}
  {op : LogOp}

/-! ## The journal of a run -/

/-- An operation on the journal. -/
def Journal.applyOp (j : FileJournal) : LogOp → Option FileJournal
  | .recover => some j.recovered
  | .logXactionBegin t => some ((j.logXactionBegin (LogRecord.size imageSize) t).getD j)
  | .logWrite t before after => some (j.logWrite t before after)
  | .logCommit t => some (j.logCommit t)
  | .logAbort t => some (j.logAbort t)
  | .checkpoint flushed =>
    some ((LogFile.flushedTo j.preAppend flushed).checkpointRecord (LogRecord.size imageSize))
  | .truncate => j.logTruncate (LogRecord.size imageSize)

/-- No checkpoint, or the offset of a checkpoint record. -/
def PointerOk (pointer : ℤ) (records : List FileRecord) : Prop :=
  pointer = -1 ∨ ∃ pre active post, records = pre ++ .checkpoint active :: post ∧
    pointer = 8 + (pre.map (LogRecord.size imageSize)).sum

/-- The journal without its pointer. -/
def Journal.unpointed (j : FileJournal) : FileJournal := { j with pointer := -1 }

/-- The invariant of the journal. What a found checkpoint record says is not known, but nobody
truncates before a checkpoint of this process. -/
structure LogOk (reread : HeapPageId → PageData → Option PageData) (j : FileJournal) (n : ℕ) :
    Prop where
  pointer : PointerOk j.pointer j.records
  readable : ∀ r ∈ j.records, Readable reread r
  fresh : j.recoveryUndecided = true → j.tidToFirstLogRecord = ∅ ∧ n = 0
  loose : j.unpointed.preAppend.Sound imageSize
  sound : 0 < n → j.preAppend.Sound imageSize ∧ 0 ≤ j.preAppend.pointer

lemma unpointed_preAppend (j : FileJournal) : j.unpointed.preAppend = j.preAppend.unpointed := by
  unfold unpointed preAppend
  split <;> rfl

lemma PointerOk.append {pointer : ℤ} {records : List FileRecord} (h : PointerOk pointer records)
    (rest : List FileRecord) : PointerOk pointer (records ++ rest) := by
  obtain h | ⟨pre, active, post, rfl, hptr⟩ := h
  · exact .inl h
  · exact .inr ⟨pre, active, post ++ rest, by simp, hptr⟩

lemma LogOk.preAppend_pointer (h : LogOk reread j n) :
    PointerOk j.preAppend.pointer j.preAppend.records := by
  unfold preAppend
  split
  · exact .inl rfl
  · exact h.pointer

lemma LogOk.preAppend_readable (h : LogOk reread j n) :
    ∀ r ∈ j.preAppend.records, Readable reread r := by
  rw [preAppend_records]
  split
  · simp
  · exact h.readable

lemma LogOk.known (h : LogOk reread j n) : LogFile.Known j.preAppend := by
  intro t offset ht
  have hloose := h.loose
  rw [unpointed_preAppend] at hloose
  have hmem : t ∈ j.preAppend.unpointed.tidToFirstLogRecord :=
    AList.lookup_isSome.mp (isSome_iff_exists.mpr ⟨offset, ht⟩)
  obtain ⟨post, -, pre, hrec, hlookup, -⟩ := hloose.anchored t hmem
  refine ⟨pre, .begin t :: post, hrec, ?_⟩
  exact some.inj (ht.symm.trans hlookup)

/-! ## Operations keep the invariant -/

lemma sound_unpointed (h : j.Sound imageSize) : j.unpointed.Sound imageSize := by
  refine ⟨.inl (by simp [unpointed]), fun t ht => ?_⟩
  obtain ⟨post, hlast, pre, hrec, hlookup, -⟩ := h.anchored t ht
  refine ⟨post, hlast, pre, hrec, hlookup, fun base hbase => ?_⟩
  simp [truncationPoint, unpointed] at hbase

section

variable (h : LogOk reread j n)

include h

lemma LogOk.append (hr : Readable reread r) (hpointer : j'.pointer = j.preAppend.pointer)
    (hrecords : j'.records = j.preAppend.records ++ [r]) (hdecided : j'.recoveryUndecided = false)
    (hloose : j'.unpointed.preAppend.Sound imageSize)
    (hsound : j.preAppend.Sound imageSize → j'.preAppend.Sound imageSize) : LogOk reread j' n := by
  have hpre : j'.preAppend = j' := preAppend_of_decided j' hdecided
  refine ⟨?_, fun r' hr' => ?_, fun h => ?_, hloose, fun hn => ?_⟩
  · rw [hpointer, hrecords]
    exact h.preAppend_pointer.append [r]
  · rw [hrecords, mem_append, mem_singleton] at hr'
    rcases hr' with hold | rfl
    · exact h.preAppend_readable r' hold
    · exact hr
  · simp [hdecided] at h
  · obtain ⟨hs, hptr⟩ := h.sound hn
    refine ⟨hsound hs, ?_⟩
    rwa [hpre, hpointer]

lemma logCommit_ok (t : Long) : LogOk reread (j.logCommit t) n := by
  have heq : (j.logCommit t).unpointed = j.unpointed.logCommit t := by
    rw [logCommit, logCommit, unpointed_preAppend]
    rfl
  refine h.append (r := .commit t) trivial rfl rfl (preAppend_undecided j) ?_
    fun hs => (logCommit_keeps hs t).sound
  rw [heq]
  exact (logCommit_keeps h.loose t).sound

lemma logAbort_ok (t : Long) : LogOk reread (j.logAbort t) n := by
  have heq : (j.logAbort t).unpointed = j.unpointed.logAbort t := by
    rw [logAbort, logAbort, unpointed_preAppend]
    rfl
  refine h.append (r := .abort t) trivial rfl rfl (preAppend_undecided j) ?_
    fun hs => (logAbort_keeps hs t).sound
  rw [heq]
  exact (logAbort_keeps h.loose t).sound

lemma logWrite_ok (t : Long) {before after : PageImage}
    (hbefore : ReadablePage reread before) (hafter : ReadablePage reread after) :
    LogOk reread (j.logWrite t before after) n := by
  have heq : (j.logWrite t before after).unpointed = j.unpointed.logWrite t before after := by
    rw [logWrite, logWrite, unpointed_preAppend]
    rfl
  refine h.append (r := .update t before after) ⟨hbefore, hafter⟩ rfl rfl
    (preAppend_undecided j) ?_ fun hs => (logWrite_keeps hs t before after).sound
  rw [heq]
  exact (logWrite_keeps h.loose t before after).sound

lemma logXactionBegin_ok (t : Long) :
    LogOk reread ((j.logXactionBegin (size imageSize) t).getD j) n := by
  cases hj' : j.logXactionBegin (size imageSize) t with
  | none => exact h
  | some j' =>
    obtain ⟨hnew, rfl⟩ := logXactionBegin_eq_some hj'
    have hunpointed : j.unpointed.logXactionBegin (size imageSize) t = some
        (unpointed { j.preAppend.append (.begin t) with
          tidToFirstLogRecord := j.tidToFirstLogRecord.insert t
            (j.preAppend.endOffset (size imageSize)) }) := by
      have hnew' : t ∉ j.unpointed.tidToFirstLogRecord := hnew
      rw [logXactionBegin, if_neg hnew', unpointed_preAppend]
      simp [unpointed, append, endOffset]
    refine h.append (r := .begin t) trivial rfl rfl (preAppend_undecided j) ?_
      fun hs => (logXactionBegin_keeps hs hj').1.sound
    exact (logXactionBegin_keeps h.loose hunpointed).1.sound

lemma recovered_ok : LogOk reread j.recovered n := by
  cases hj : j.recoveryUndecided with
  | false =>
    have heq : j.recovered = j := by
      rw [recovered, ← hj]
    rwa [heq]
  | true =>
    obtain ⟨hfirst, rfl⟩ := h.fresh hj
    refine ⟨h.pointer, h.readable, fun h => (by cases h), ⟨.inl ?_, fun t ht => ?_⟩,
      fun hn => absurd hn (lt_irrefl 0)⟩
    · simp [unpointed, recovered, preAppend]
    · rw [preAppend_first] at ht
      simp [unpointed, recovered, hfirst] at ht

lemma preAppend_ok : LogOk reread j.preAppend n := by
  have hpre : j.preAppend.preAppend = j.preAppend :=
    preAppend_of_decided _ (preAppend_undecided j)
  refine ⟨h.preAppend_pointer, h.preAppend_readable, fun hun => ?_, ?_, fun hn => ?_⟩
  · simp at hun
  · rw [unpointed_preAppend, hpre, ← unpointed_preAppend]
    exact h.loose
  · rw [hpre]
    exact h.sound hn

lemma flushedTo_ok {flushed : List (Long × PageImage × PageImage)}
    (hread : ∀ e ∈ flushed, ReadablePage reread e.2.1 ∧ ReadablePage reread e.2.2) :
    LogOk reread (LogFile.flushedTo j flushed) n := by
  induction flushed generalizing j with
  | nil => exact h
  | cons e flushed ih =>
    obtain ⟨hbefore, hafter⟩ := hread e mem_cons_self
    exact ih (logWrite_ok h e.1 hbefore hafter) fun e' he' => hread e' (mem_cons_of_mem _ he')

lemma checkpointRecord_ok
    (hfew : (j.checkpointRecord (size imageSize)).tidToFirstLogRecord.entries.length <
      2 ^ 31) : LogOk reread (j.checkpointRecord (size imageSize)) (n + 1) := by
  have hdecided : (j.checkpointRecord (size imageSize)).recoveryUndecided = false :=
    preAppend_undecided j
  have hpre := preAppend_of_decided _ hdecided
  have heq : j.unpointed.checkpointRecord (size imageSize) =
      j.checkpointRecord (size imageSize) := by
    rw [Journal.checkpointRecord, Journal.checkpointRecord, unpointed_preAppend]
    rfl
  have hsound : (j.checkpointRecord (size imageSize)).preAppend.Sound imageSize := by
    have hkeeps := (checkpointRecord_keeps h.loose).sound
    rwa [heq] at hkeeps
  have hpointer : (j.checkpointRecord (size imageSize)).pointer =
      8 + (j.preAppend.records.map (size imageSize)).sum := rfl
  refine ⟨.inr ⟨j.preAppend.records, j.preAppend.outstanding, [], rfl, hpointer⟩, fun r hr => ?_,
    fun hun => ?_, ?_, fun _ => ⟨hsound, ?_⟩⟩
  · rcases mem_append.mp hr with hold | hnew
    · exact h.preAppend_readable r hold
    · obtain rfl := mem_singleton.mp hnew
      show (List.map _ _).length < 2 ^ 31
      rw [length_map]
      exact hfew
  · simp [hdecided] at hun
  · rw [unpointed_preAppend]
    exact sound_unpointed hsound
  · rw [hpre, hpointer]
    omega

end

lemma readable_shift (base : ℤ) (h : Readable reread r) : Readable reread (r.shift base) := by
  cases r with
  | checkpoint active =>
    show (List.map _ active).length < 2 ^ 31
    rw [length_map]
    exact h
  | _ => exact h

lemma logTruncate_ok (h : LogOk reread j (n + 1))
    (hj' : j.logTruncate (size imageSize) = some j') : LogOk reread j' n := by
  obtain ⟨hsound, hptr⟩ := h.sound n.succ_pos
  have hkeeps := (logTruncate_keeps hsound hj').sound
  rw [← logTruncate_preAppend] at hj'
  obtain ⟨base, dropped, kept, htrunc, hdecided, -⟩ :=
    logTruncate_eq_some hsound.pointed (preAppend_undecided j) hj'
  have hpre : j'.preAppend = j' := preAppend_of_decided j' hdecided
  have hptr' : 0 ≤ j'.pointer := by
    by_contra hneg
    have hpoint := (htrunc.pointed hsound.pointed).2
    simp [truncationPoint, not_le.mp hneg] at hpoint
  rw [hpre] at hkeeps
  refine ⟨?_, fun r hr => ?_, fun hun => ?_, ?_, fun _ => ?_⟩
  · obtain hneg | ⟨pre, active, post, hrec, hcp, -⟩ := hkeeps.pointed
    · omega
    · exact .inr ⟨pre, active, post, hrec, hcp⟩
  · rw [htrunc.records] at hr
    obtain ⟨r, hkept, rfl⟩ := List.mem_map.mp hr
    exact readable_shift base (h.preAppend_readable r (by simp [htrunc.split, hkept]))
  · simp [hdecided] at hun
  · rw [unpointed_preAppend, hpre]
    exact sound_unpointed hkeeps
  · rw [hpre]
    exact ⟨hkeeps, hptr'⟩

/-! ## Runs -/

/-- The condition on an operation. -/
def Admissible (reread : HeapPageId → PageData → Option PageData) (s : LogRun) : LogOp → Prop
  | .recover => s.log.file ≠ []
  | .logWrite _ before after => ReadablePage reread before ∧ ReadablePage reread after
  | .checkpoint flushed =>
    ∀ e ∈ flushed, ReadablePage reread e.2.1 ∧ ReadablePage reread e.2.2
  | _ => True

lemma after_of_triple {x : LogM α} {Q : LogFile → Prop}
    (h : Triple P x (fun _ => Q) (fun e f => e = .full ∨ Q f)) (hf : P f)
    (hafter : f.after x = some f') : Q f' := by
  unfold LogFile.after at hafter
  cases hx : x.run f with
  | ok a f₁ =>
    rw [hx] at hafter
    obtain rfl := some.inj hafter
    exact h.of_ok hf hx
  | error e f₁ =>
    rw [hx] at hafter
    rcases h.of_error hf hx with rfl | hq
    · cases hafter
    · cases e with
      | full => cases hafter
      | eof =>
        obtain rfl := some.inj hafter
        exact hq
      | failed =>
        obtain rfl := some.inj hafter
        exact hq

lemma after_of_written {x : LogM α}
    (h : Triple P x (fun _ => Written j []) NoRoom) (hf : P f) (hafter : f.after x = some f') :
    Written j [] f' :=
  after_of_triple (h.err fun _ _ => .inl) hf hafter

/-- **One operation on the file is one on the journal.** -/
theorem applyOp_of_step (hrep : Represents j s.log)
    (hok : LogOk reread j s.truncating) (hadm : Admissible reread s op)
    (hstep : s.step reread op = some s') :
    ∃ j', j.applyOp op = some j' ∧ Represents j' s'.log ∧ LogOk reread j' s'.truncating := by
  cases op with
  | recover =>
    obtain ⟨f', hafter, rfl⟩ := map_eq_some_iff.mp hstep
    have hspec := (LogFile.recover_spec hok.readable).post fun _ _ h => h.2
    exact ⟨_, rfl, .written (after_of_written hspec ⟨hrep, hadm⟩ hafter), recovered_ok hok⟩
  | logXactionBegin t =>
    obtain ⟨f', hafter, rfl⟩ := map_eq_some_iff.mp hstep
    exact ⟨_, rfl, after_of_triple (LogFile.logXactionBegin_spec t) hrep hafter,
      logXactionBegin_ok hok t⟩
  | logWrite t before after =>
    obtain ⟨f', hafter, rfl⟩ := map_eq_some_iff.mp hstep
    exact ⟨_, rfl, .written (after_of_written (LogFile.logWrite_spec t before after) hrep hafter),
      logWrite_ok hok t hadm.1 hadm.2⟩
  | logCommit t =>
    obtain ⟨f', hafter, rfl⟩ := map_eq_some_iff.mp hstep
    exact ⟨_, rfl, .written (after_of_written (LogFile.logCommit_spec t) hrep hafter),
      logCommit_ok hok t⟩
  | logAbort t =>
    obtain ⟨f', hafter, rfl⟩ := map_eq_some_iff.mp hstep
    have hspec := (LogFile.logAbort_spec hok.known hok.preAppend_readable t).post fun _ _ h => h.2
    exact ⟨_, rfl, .written (after_of_written hspec hrep hafter), logAbort_ok hok t⟩
  | checkpoint flushed =>
    obtain ⟨f', hafter, rfl⟩ := map_eq_some_iff.mp hstep
    have hwritten := after_of_written (LogFile.checkpoint_spec flushed) hrep hafter
    refine ⟨_, rfl, .written hwritten,
      checkpointRecord_ok (flushedTo_ok (preAppend_ok hok) hadm) ?_⟩
    rw [← hwritten.first]
    exact hwritten.few
  | truncate =>
    obtain ⟨log, n⟩ := s
    cases n with
    | zero => cases hstep
    | succ n =>
      obtain ⟨f', hafter, rfl⟩ := map_eq_some_iff.mp hstep
      obtain ⟨hsound, hptr⟩ := hok.sound n.succ_pos
      obtain ⟨j', hj', hspec⟩ :=
        LogFile.logTruncate_spec hsound.pointed hptr hok.preAppend_readable
      exact ⟨j', hj', .written (after_of_written hspec hrep hafter), logTruncate_ok hok hj'⟩

lemma LogOk.decided_applyOp (h : LogOk reread j n) (hop : j.applyOp op = some j') :
    j'.recoveryUndecided = false := by
  cases op with
  | logXactionBegin t =>
    obtain rfl := some.inj hop
    cases hj' : j.logXactionBegin (size imageSize) t with
    | some j' =>
      obtain ⟨-, rfl⟩ := logXactionBegin_eq_some hj'
      exact preAppend_undecided j
    | none =>
      -- It throws for a transaction that it knows, and an undecided log knows none.
      by_contra hne
      have hfirst := (h.fresh (Bool.eq_true_of_not_eq_false hne)).1
      simp [logXactionBegin, hfirst] at hj'
  | truncate =>
    obtain ⟨base, -, rfl⟩ := map_eq_some_iff.mp hop
    exact preAppend_undecided j
  | recover =>
    obtain rfl := some.inj hop
    rfl
  | _ =>
    obtain rfl := some.inj hop
    exact preAppend_undecided _

/-- The file is a checkpoint pointer and complete records, each of which ends with its offset. -/
structure WellFormed (file : Bytes) (pointer : ℤ) (records : List FileRecord) : Prop where
  small : file.length < 2 ^ 63
  file : file = encodeFile pointer records
  counted : ∀ active, .checkpoint active ∈ records → active.length < 2 ^ 31
  pointer : PointerOk pointer records

/-- What a process finds in the file. -/
inductive Found (file : Bytes) : ℤ → List FileRecord → Prop
  | empty (h : file = []) : Found file (-1) []
  | wellFormed {pointer : ℤ} {records : List FileRecord} (h : WellFormed file pointer records) :
    Found file pointer records

/-- The page images of the records survive being read. -/
def PagesSurvive (reread : HeapPageId → PageData → Option PageData) (records : List FileRecord) :
    Prop :=
  ∀ t before after, .update t before after ∈ records →
    ReadablePage reread before ∧ ReadablePage reread after

section Found

variable {file : Bytes} {pointer : ℤ} {records : List FileRecord}

lemma Found.represents (h : Found file pointer records) :
    Represents (openLog pointer records) (LogFile.open file) := by
  have hfew : (LogFile.open file).tidToFirstLogRecord.entries.length < 2 ^ 31 := by
    simp [LogFile.open]
  cases h with
  | empty h => exact .empty h rfl rfl rfl rfl hfew
  | wellFormed h =>
    exact .found ⟨rfl, rfl, hfew, h.file.trans (append_nil _).symm, h.small⟩ rfl

lemma Found.logOk (h : Found file pointer records) (hpages : PagesSurvive reread records) :
    LogOk reread (openLog pointer records) 0 where
  pointer := by
    cases h with
    | empty => exact .inl rfl
    | wellFormed h => exact h.pointer
  readable r hr := by
    cases r with
    | update t before after => exact hpages t before after hr
    | checkpoint active =>
      cases h with
      | empty => cases hr
      | wellFormed h => exact h.counted active hr
    | _ => trivial
  fresh _ := ⟨rfl, rfl⟩
  loose := ⟨.inl (by simp [unpointed, openLog, preAppend]),
    fun t ht => (by simp [unpointed, openLog] at ht)⟩
  sound h := absurd h (lt_irrefl 0)

end Found

lemma LogOk.wellFormed (h : LogOk reread j n) (hwritten : Written j [] f) :
    WellFormed f.file j.pointer j.records where
  file := by simpa using hwritten.file
  pointer := h.pointer
  counted active hactive := h.readable _ hactive
  small := hwritten.small

section Runs

variable {file : Bytes} {pointer : ℤ} {records : List FileRecord}

/-- The file is what the journal says. -/
def Tracked (reread : HeapPageId → PageData → Option PageData) (pointer : ℤ)
    (records : List FileRecord) (evs : List LogOp) (s : LogRun) : Prop :=
  ∃ j, execAll Journal.applyOp (openLog pointer records) evs = some j ∧ Represents j s.log ∧
    LogOk reread j s.truncating ∧ (evs ≠ [] → j.recoveryUndecided = false)

lemma tracked_step {evs : List LogOp}
    (h : Tracked reread pointer records evs s) (hop : Admissible reread s op)
    (hstep : s.step reread op = some s') : Tracked reread pointer records (evs ++ [op]) s' := by
  obtain ⟨j, hexec, hrep, hok, -⟩ := h
  obtain ⟨j', happly, hrep', hok'⟩ := applyOp_of_step hrep hok hop hstep
  refine ⟨j', ?_, hrep', hok', fun _ => hok.decided_applyOp happly⟩
  rw [execAll_concat, hexec]
  exact happly

/-- **The log file can be parsed.**  If no empty file is recovered and all pages survive being read
and written, then after every operation the file is well formed, with the records that were appended
and retained, and a scan visits exactly these. -/
theorem log_parseable (hfound : Found file pointer records) (hpages : PagesSurvive reread records)
    {evs : List LogOp} (hne : evs ≠ [])
    (hadm : EveryStep (LogRun.step reread) (fun _ s op => Admissible reread s op)
      ⟨LogFile.open file, 0⟩ evs)
    {s : LogRun} (hrun : execAll (LogRun.step reread) ⟨LogFile.open file, 0⟩ evs = some s) :
    ∃ j, execAll Journal.applyOp (openLog pointer records) evs = some j ∧
      WellFormed s.log.file j.pointer j.records ∧
      ∃ f, (LogFile.scanLog reread 8).run s.log = .ok (j.records.map scanned) f := by
  have htracked : Tracked reread pointer records evs s :=
    execAll_invariant (J := Tracked reread pointer records)
      ⟨_, rfl, hfound.represents, hfound.logOk hpages, fun h => absurd rfl h⟩
      (fun _ _ _ _ h hop hstep => tracked_step h hop hstep) hadm hrun
  obtain ⟨j, hexec, hrep, hok, hdecided⟩ := htracked
  have hwritten := hrep.of_decided (hdecided hne)
  refine ⟨j, hexec, hok.wellFormed hwritten, ?_⟩
  obtain ⟨v, f, hscan, rfl, -⟩ :=
    (LogFile.scanLog_spec (nil_append j.records).symm hok.readable rfl).returns
      hwritten.toIntact
  exact ⟨f, hscan⟩

end Runs

def tinyPage (b : UInt8) : PageImage := ⟨⟨3, 0⟩, ⟨[b], by simp⟩⟩

def recoverAndCheckpoint : List LogOp :=
  [.recover, .logXactionBegin 9, .logWrite 9 (tinyPage 1) (tinyPage 2), .checkpoint [], .truncate,
    .logCommit 9]

theorem recoverAndCheckpoint_parseable : ∃ s, execAll (LogRun.step fun _ data => some data)
      ⟨LogFile.open (encodeFile (-1) [.begin 7]), 0⟩ recoverAndCheckpoint = some s ∧
    ∃ j, execAll Journal.applyOp (openLog (-1) [.begin 7]) recoverAndCheckpoint = some j ∧
      WellFormed s.log.file j.pointer j.records ∧
      ∃ f, (LogFile.scanLog (fun _ data => some data) 8).run s.log =
        .ok (j.records.map scanned) f := by
  have hcan : (execAll (LogRun.step fun _ data => some data)
      ⟨LogFile.open (encodeFile (-1) [.begin 7]), 0⟩ recoverAndCheckpoint).isSome = true := by
    decide +kernel
  obtain ⟨s, hs⟩ := isSome_iff_exists.mp hcan
  refine ⟨s, hs, log_parseable (.wellFormed ⟨by decide, rfl, by simp, .inl rfl⟩)
    (by simp [PagesSurvive]) (by simp [recoverAndCheckpoint]) ?_ hs⟩
  intro before op after heq mid hmid
  cases op with
  | recover =>
    -- It comes first, when the file is the one that was found.
    cases before with
    | nil =>
      obtain rfl := some.inj hmid
      show encodeFile (-1) [.begin 7] ≠ []
      decide
    | cons op before =>
      have hmem : LogOp.recover ∈ recoverAndCheckpoint.tail := by simp [heq]
      simp [recoverAndCheckpoint] at hmem
  | logWrite t b a => exact ⟨rfl, rfl⟩
  | checkpoint flushed => exact fun _ _ => ⟨rfl, rfl⟩
  | _ => trivial

lemma length_ne_of_wellFormed {file : Bytes} {pointer : ℤ} {records : List FileRecord}
    (h : WellFormed file pointer records) : file.length ≠ 20 := by
  rw [h.file, length_encodeFile]
  cases records with
  | nil => simp
  | cons r records =>
    have hsize : 20 ≤ r.size imageSize := by
      cases r <;> simp only [size] <;> omega
    simp only [map_cons, sum_cons]
    omega

/-- `recover` on a missing file leaves no pointer for the first record to stand behind: the next
operation puts the record at offset 0, and a scan does not find it. -/
theorem recovered_empty_unparseable : ∃ s,
    execAll (LogRun.step fun _ data => some data) ⟨LogFile.open [], 0⟩
      [.recover, .logXactionBegin 7] = some s ∧
    (∀ pointer records, ¬ WellFormed s.log.file pointer records) ∧
    ∃ f, (LogFile.scanLog (fun _ data => some data) 8).run s.log = .ok [] f := by
  refine ⟨⟨⟨[0, 0, 0, 4, 0, 0, 0, 0, 0, 0, 0, 7, 0, 0, 0, 0, 0, 0, 0, 0], 20, [], false, 20,
    AList.insert 7 0 ∅⟩, 0⟩, ?_, fun pointer records h => length_ne_of_wellFormed h rfl, ?_⟩
  · rfl
  · exact ⟨_, rfl⟩

end BallotBox.SimpleDb
