import BallotBox.Properties.Support.Anchors

/-!
# The transactions a checkpoint knows

`logTruncate` makes an entry for every begin record that it copies, also for those of transactions
that have ended.  The map is exact if and only if nobody who began since the oldest running
transaction has ended (`checkpoint_knows_running`).
-/

namespace BallotBox.SimpleDb

open LogRecord Option

variable {τ π α : Type} [DecidableEq τ] [DecidableEq π] {imageSize : Image π α → ℕ}

/-- Whether a transaction is running after a call, and whether it was before. -/
def JournalOp.running (t : τ) (was : Bool) : JournalOp τ π α → Bool
  | .begin u => t = u || was
  | .commit u | .abort u => t ≠ u && was
  | _ => was

/-- The transaction has begun and neither committed nor aborted. -/
def running (t : τ) (evs : List (JournalOp τ π α)) : Bool := evs.foldl (JournalOp.running t) false

/-- The transaction that a record begins. -/
def LogRecord.begun : LogRecord τ π α → Option τ
  | .begin t => some t
  | _ => none

omit [DecidableEq τ] [DecidableEq π] in
@[simp] lemma LogRecord.begun_eq_some {r : LogRecord τ π α} {t : τ} :
    r.begun = some t ↔ r = .begin t := by
  cases r <;> simp [begun]

namespace Journal

variable {j j' : Journal τ π α} {t : τ} {base : ℤ} {dropped kept : List (LogRecord τ π α)}

/-- Every transaction that began at or after the first record of a running one is running. -/
def NoneEnded (size : LogRecord τ π α → ℕ) (j : Journal τ π α) : Prop :=
  ∀ e ∈ j.outstanding, ∀ r ∈ scanFrom size 8 e.2 j.preAppend.records,
    ∀ t ∈ r.begun, t ∈ j.tidToFirstLogRecord

instance (size : LogRecord τ π α → ℕ) (j : Journal τ π α) : Decidable (j.NoneEnded size) :=
  inferInstanceAs (Decidable (∀ e ∈ j.outstanding, ∀ r ∈ scanFrom size 8 e.2 j.preAppend.records,
    ∀ t ∈ r.begun, t ∈ j.tidToFirstLogRecord))

/-- A checkpoint is taken only when `NoneEnded`. -/
def Timely (size : LogRecord τ π α → ℕ) (j : Journal τ π α) : JournalOp τ π α → Prop
  | .checkpoint => j.NoneEnded size
  | _ => True

instance (size : LogRecord τ π α → ℕ) (j : Journal τ π α) (op : JournalOp τ π α) :
    Decidable (j.Timely size op) := by
  cases op <;> unfold Timely <;> infer_instance

/-! ## One checkpoint -/

omit [DecidableEq π] in
/-- The begin records a checkpoint copies are those from the first record of a running transaction
on. -/
lemma begin_mem_kept (h : j.Sound imageSize) (hdecided : j.recoveryUndecided = false)
    (htrunc : (j.checkpointRecord (size imageSize)).Truncates imageSize base dropped kept j') :
    .begin t ∈ kept ↔ ∃ e ∈ j.outstanding,
      .begin t ∈ scanFrom (size imageSize) 8 e.2 j.records := by
  obtain ⟨hcut, hsplit, hoff, -, -⟩ := htrunc
  rw [checkpointRecord, preAppend_of_decided _ hdecided] at hcut hsplit
  have hkept : kept =
      scanFrom (size imageSize) 8 base (j.records ++ [.checkpoint j.outstanding]) := by
    rw [show j.records ++ _ = dropped ++ kept from hsplit, hoff, scanFrom_offset]
  have hbase := some.inj (hcut.symm.trans (truncationPoint_of_records
    (show _ = j.records ++ .checkpoint j.outstanding :: [] from rfl) rfl))
  constructor
  · intro hmem
    rcases foldl_min_mem (j.outstanding.map Prod.snd) (j.endOffset (size imageSize))
      with hend | hfirst
    · -- nobody is running: only the checkpoint record itself is kept
      rw [hkept, hbase, hend, endOffset, scanFrom_offset] at hmem
      simp at hmem
    · obtain ⟨e, he, hmin⟩ := List.mem_map.mp hfirst
      obtain ⟨pre, post, hrec, heoff⟩ := h.boundary he
      refine ⟨e, he, ?_⟩
      rw [hkept, hbase, ← hmin, heoff, hrec, List.append_assoc, scanFrom_offset] at hmem
      rw [heoff, hrec, scanFrom_offset]
      simpa using hmem
  · rintro ⟨e, he, hmem⟩
    obtain ⟨pre, post, hrec, heoff⟩ := h.boundary he
    rw [heoff, hrec, scanFrom_offset] at hmem
    have hle : base ≤ e.2 := hbase ▸ (foldl_min_le _ _).2 _ (List.mem_map_of_mem he)
    have hlog : pre ++ (post ++ [.checkpoint j.outstanding]) = dropped ++ kept := by
      rw [← List.append_assoc, ← hrec]
      exact hsplit
    obtain ⟨pre', -, rfl⟩ := exists_kept hlog (by rw [← hoff, ← heoff]; exact hle)
    simp [hmem]

omit [DecidableEq π] in
lemma logCheckpoint_spec (h : j.preAppend.Sound imageSize) :
    ∃ j', j.logCheckpoint (size imageSize) = some j' ∧ j'.Sound imageSize ∧
      j'.recoveryUndecided = false ∧ ((∀ t, t ∈ j'.tidToFirstLogRecord ↔
        t ∈ j.tidToFirstLogRecord) ↔ j.NoneEnded (size imageSize)) := by
  have hundec := preAppend_undecided j
  have heq : j.checkpointRecord (size imageSize) =
      j.preAppend.checkpointRecord (size imageSize) := by
    rw [checkpointRecord, checkpointRecord, preAppend_of_decided _ hundec]
  have hsound := h.checkpoint hundec
  have hdec : (j.checkpointRecord (size imageSize)).recoveryUndecided = false := by
    simp [checkpointRecord, Journal.append]
  have hcut := truncationPoint_of_records (j := j.checkpointRecord (size imageSize))
    (show _ = j.preAppend.records ++ .checkpoint j.preAppend.outstanding :: [] from rfl) rfl
  obtain ⟨j', hj'⟩ : ∃ j', j.logCheckpoint (size imageSize) = some j' := by
    rw [logCheckpoint, logTruncate, preAppend_of_decided _ hdec, hcut]
    exact ⟨_, rfl⟩
  rw [← heq] at hsound
  obtain ⟨base, dropped, kept, htrunc, hdec', hfirst⟩ :=
    logTruncate_eq_some hsound.pointed hdec hj'
  refine ⟨j', hj', hsound.truncate htrunc hfirst, hdec', ?_⟩
  have hmem (t : τ) : t ∈ j'.tidToFirstLogRecord ↔ t ∈ j.tidToFirstLogRecord ∨ .begin t ∈ kept := by
    rw [hfirst, mem_putBegins, htrunc.records, begin_mem_map_shift]
    simp [checkpointRecord, Journal.append]
  simp only [hmem, begin_mem_kept h hundec (heq ▸ htrunc), or_iff_left_iff_imp]
  constructor
  · intro hno e he r hr t ht
    obtain rfl := LogRecord.begun_eq_some.mp ht
    exact hno t ⟨e, by simpa [outstanding] using he, hr⟩
  · rintro hno t ⟨e, he, hr⟩
    exact hno e (by simpa [outstanding] using he) _ hr t rfl

/-! ## Runs -/

/-- Between the calls the map has the running transactions. -/
structure Knows (imageSize : Image π α → ℕ) (evs : List (JournalOp τ π α)) (j : Journal τ π α) :
    Prop where
  sound : j.preAppend.Sound imageSize
  keys : ∀ t, t ∈ j.tidToFirstLogRecord ↔ running t evs = true

lemma Knows.step {evs : List (JournalOp τ π α)} {op : JournalOp τ π α} (h : j.Knows imageSize evs)
    (hop : j.Timely (size imageSize) op)
    (hstep : j.step (size imageSize) op = some j') : j'.Knows imageSize (evs ++ [op]) := by
  have hrun (t : τ) : running t (evs ++ [op]) = op.running t (running t evs) := by simp [running]
  have hkeys := h.keys
  cases op with
  | begin u =>
    refine ⟨(logXactionBegin_keeps h.sound hstep).1.sound, fun t => ?_⟩
    obtain ⟨-, rfl⟩ := logXactionBegin_eq_some hstep
    simp [hrun, JournalOp.running, hkeys]
  | write u before after =>
    obtain rfl := some.inj hstep
    refine ⟨(logWrite_keeps h.sound u before after).sound, fun t => ?_⟩
    simp [hrun, JournalOp.running, logWrite, Journal.append, hkeys]
  | commit u =>
    obtain rfl := some.inj hstep
    refine ⟨(logCommit_keeps h.sound u).sound, fun t => ?_⟩
    simp [hrun, JournalOp.running, logCommit, hkeys]
  | abort u =>
    obtain rfl := some.inj hstep
    refine ⟨(logAbort_keeps h.sound u).sound, fun t => ?_⟩
    simp [hrun, JournalOp.running, logAbort, hkeys]
  | checkpoint =>
    obtain ⟨j₁, hj₁, hsound, hdec, hiff⟩ := logCheckpoint_spec h.sound
    obtain rfl := some.inj (hj₁.symm.trans hstep)
    refine ⟨(preAppend_of_decided _ hdec).symm ▸ hsound, fun t => ?_⟩
    rw [hiff.mpr hop t, hkeys, hrun]
    rfl

/-- **What the log knows after a checkpoint.**  Over any run on a file with a proper header whose
earlier checkpoints were timely, the next checkpoint succeeds, every key is mapped to the offset of
its begin record in the rewritten file, and the keys are the running transactions exactly if this
checkpoint is timely too. -/
theorem checkpoint_knows_running {j₀ : Journal τ π α} (hempty : j₀.tidToFirstLogRecord = ∅)
    (hhead : j₀.preAppend.Pointed imageSize) {evs : List (JournalOp τ π α)}
    (htimely : EveryStep (step (LogRecord.size imageSize))
      (fun _ j op => j.Timely (LogRecord.size imageSize) op) j₀ evs)
    (hrun : execAll (step (LogRecord.size imageSize)) j₀ evs = some j) :
    ∃ j', j.logCheckpoint (LogRecord.size imageSize) = some j' ∧
      ((∀ t, t ∈ j'.tidToFirstLogRecord ↔ running t evs = true) ↔
        j.NoneEnded (LogRecord.size imageSize)) ∧
      ∀ t first, j'.tidToFirstLogRecord.lookup t = some first →
        ∃ pre post, j'.records = pre ++ .begin t :: post ∧ .begin t ∉ post ∧
          first = 8 + (pre.map (LogRecord.size imageSize)).sum := by
  have hstart : j₀.Knows imageSize [] :=
    ⟨⟨hhead, by simp [hempty]⟩, by simp [hempty, running]⟩
  have hknows : j.Knows imageSize evs :=
    execAll_invariant (J := fun evs j => j.Knows imageSize evs) hstart
      (fun _ _ _ _ h hop hstep => h.step hop hstep) htimely hrun
  obtain ⟨j', hj', hsound, -, hiff⟩ := logCheckpoint_spec hknows.sound
  refine ⟨j', hj', ?_, ?_⟩
  · simp only [← hiff, hknows.keys]
  · intro t first hfirst
    obtain ⟨post, hpost, pre, hrec, hlookup, -⟩ :=
      hsound.anchored t (AList.lookup_isSome.mp (by simp [hfirst]))
    exact ⟨pre, post, hrec, hpost, some.inj (hfirst.symm.trans hlookup)⟩

/-- Two transactions begin and the second commits. -/
def overtaken : List (JournalOp ℕ ℕ ℕ) := [.begin 1, .begin 2, .commit 2]

/-- After the checkpoint the log knows transaction 2, which has committed, with the offset of its
begin record. -/
theorem committed_is_known_again :
    running 2 (overtaken ++ [.checkpoint]) = false ∧
      ((execAll (step (LogRecord.size fun _ => 0)) (openLog (-1) [])
        (overtaken ++ [.checkpoint])).map
        fun j => j.tidToFirstLogRecord.lookup 2) = some (some 28) := by
  decide +kernel

/-- Transaction 1 ends before the others begin. -/
def inTime : List (JournalOp ℕ ℕ ℕ) := [.begin 1, .commit 1, .begin 2, .checkpoint, .begin 3]

theorem timely_checkpoints : ∃ j j' : Journal ℕ ℕ ℕ,
    execAll (step (LogRecord.size fun _ => 0)) (openLog (-1) []) inTime = some j ∧
      j.logCheckpoint (LogRecord.size fun _ => 0) = some j' ∧
      ∀ t, t ∈ j'.tidToFirstLogRecord ↔ running t inTime = true := by
  have hsteps : EveryStep (step (LogRecord.size fun _ => 0))
      (fun _ j op => decide (j.Timely (LogRecord.size fun _ => 0) op) = true)
        (openLog (-1) []) inTime :=
    everyStep_of_checkSteps (by decide +kernel)
  simp only [decide_eq_true_eq] at hsteps
  have htimely : (execAll (step (LogRecord.size fun _ => 0)) (openLog (-1) []) inTime).map
      (fun j => decide (j.NoneEnded (LogRecord.size fun _ => 0))) = some true := by decide +kernel
  obtain ⟨j, hj, hnone⟩ := map_eq_some_iff.mp htimely
  obtain ⟨j', hj', hiff, -⟩ := checkpoint_knows_running rfl (.inl (by decide)) hsteps hj
  exact ⟨j, j', hj, hj', hiff.mpr (of_decide_eq_true hnone)⟩

end Journal

end BallotBox.SimpleDb
