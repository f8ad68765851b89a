import BallotBox.Properties.Support.CommitRecords

/-!
# Who has read what

A transaction gives up its locks before its commit record is written, so another one can read its
page and be the first to have a commit record; a crash then keeps only the second.  And a page that
is flushed between the two halves of an abort is read with the aborted changes.
-/

namespace BallotBox.SimpleDb

open LogRecord List Option Storage Journal

variable {τ π α : Type} [DecidableEq τ] [DecidableEq π] {imageSize : Image π α → ℕ} {blank : α}
  {L L' : Ledger τ π α} {s s' : Storage τ π α} {t u : τ} {p : π} {e : StorageEvent τ π α}
  {evs : List (StorageEvent τ π α)}

/-- Nothing is flushed for a transaction that was rolled back, and nobody locks a changed page
between the two halves of the commit. -/
def KeepsApart (before : List (StorageEvent τ π α)) (s : Storage τ π α)
    (e : StorageEvent τ π α) : Prop :=
  (∀ p, e = .flush p → NoLateFlush s p) ∧ NoEarlyLock before s e

/-- Who reads which page. -/
def StorageEvent.reads : StorageEvent τ π α → Option (τ × π)
  | .fetch t p => some (t, p)
  | .edit t p _ => some (t, p)
  | _ => none

lemma reader_of_does (hdoes : s.Does (size imageSize) blank e s')
    (hreads : e.reads = some (t, p)) : s.phase t = .running ∧ ∃ x, s.locks.Holds t p x := by
  cases hdoes <;>
    simp only [StorageEvent.reads, some.injEq, Prod.mk.injEq, reduceCtorEq] at hreads
  case fetch u q x c hrun hlock _ =>
    obtain ⟨rfl, rfl⟩ := hreads
    exact ⟨hrun, x, hlock⟩
  case edit u q d c hrun hlock _ =>
    obtain ⟨rfl, rfl⟩ := hreads
    exact ⟨hrun, true, hlock⟩

/-! ## Locks of the writers -/

/-- A transaction has the pages it has changed until it ends, and nobody has them while its commit
record is still to come. -/
def WritersLock (evs : List (StorageEvent τ π α)) (s : Storage τ π α) : Prop :=
  ∀ t p d, .edit t p d ∈ evs → s.phase t ≠ .idle ∧ (Active s t → s.locks.Holds t p true) ∧
    (s.phase t = .flushed → ∀ u x, ¬ s.locks.Holds u p x)

lemma writersLock_step (htight : s.locks.Tight) (h : WritersLock evs s)
    (hearly : NoEarlyLock evs s e) (hdoes : s.Does (size imageSize) blank e s') :
    WritersLock (evs ++ [e]) s' := by
  intro t p d hmem
  rcases mem_append.mp hmem with hold | hnew
  · obtain ⟨hbegun, hactive, hflushed⟩ := h t p d hold
    refine ⟨not_idle_of_does hdoes hbegun, fun hactive' => ?_, fun hph u x hl => ?_⟩
    · have hl := hactive (active_of_does hdoes hactive' hbegun)
      obtain ⟨y, hl', hy⟩ := holder_of_does htight hl hdoes hactive' (.inl rfl)
      exact hy rfl ▸ hl'
    · obtain hsame | ⟨a, b, hmoves, ha, hb⟩ := phase_of_does hdoes t
      · -- the commit record is still to come, so nobody has got the page
        rw [hsame] at hph
        rcases holds_of_does htight hdoes hl with ⟨y, hu⟩ | ⟨y, rfl⟩
        · exact hflushed hph u y hu
        · exact hearly u p y rfl t d hph hold
      · -- the locks have just been given up
        rw [hb] at hph
        subst hph
        cases e <;> simp only [StorageEvent.moves, some.injEq, Prod.mk.injEq, reduceCtorEq,
          and_false] at hmoves
        case complete v =>
          obtain ⟨rfl, rfl, -⟩ := hmoves
          cases hdoes
          obtain ⟨hut, hu⟩ := LockManager.releaseAll_holds.mp hl
          exact hut (htight.unique (hactive (.inl ha)) hu)
  · obtain rfl := mem_singleton.mp hnew
    cases hdoes with
    | edit _ _ _ c hrun hlock hc => exact ⟨by simp [hrun], fun _ => hlock, by simp [hrun]⟩

/-! ## Updates of committed transactions -/

/-- Every update of the transaction is followed by its commit record. -/
def Sealed (log : List (LogRecord τ π α)) (t : τ) : Prop :=
  ∀ pre before after post, log = pre ++ .update t before after :: post → .commit t ∈ post

section Sealed

omit [DecidableEq τ] [DecidableEq π]

variable {log : List (LogRecord τ π α)}

lemma Sealed.concat (h : Sealed log t) {r : LogRecord τ π α}
    (hr : ∀ before after, r ≠ .update t before after) : Sealed (log ++ [r]) t := by
  intro pre before after post heq
  rcases eq_nil_or_concat post with rfl | ⟨post, r', rfl⟩
  · obtain ⟨-, hlast⟩ := append_inj' heq rfl
    exact absurd (singleton_inj.mp hlast) (hr before after)
  · rw [concat_eq_append, ← cons_append, ← append_assoc] at heq
    obtain ⟨hlog, -⟩ := append_inj' heq rfl
    simp [h pre before after post hlog]

lemma sealed_commit (log : List (LogRecord τ π α)) (t : τ) : Sealed (log ++ [.commit t]) t := by
  intro pre before after post heq
  rcases eq_nil_or_concat post with rfl | ⟨post, r, rfl⟩
  · obtain ⟨-, hlast⟩ := append_inj' heq rfl
    cases hlast
  · rw [concat_eq_append, ← cons_append, ← append_assoc] at heq
    obtain ⟨-, hlast⟩ := append_inj' heq rfl
    obtain rfl := singleton_inj.mp hlast
    simp

lemma Sealed.cut {dropped kept : List (LogRecord τ π α)} (h : Sealed (dropped ++ kept) t)
    (base : ℤ) : Sealed (kept.map (shift base)) t := by
  intro pre before after post heq
  obtain ⟨pre', rest, rfl, -, hrest⟩ := map_eq_append_iff.mp heq
  obtain ⟨r, post', rfl, hr, rfl⟩ := map_eq_cons_iff.mp hrest
  have hsame : r = .update t before after := by
    cases r <;> simp_all [shift]
  have hcommit := h (dropped ++ pre') before after post' (by simp [hsame])
  exact List.mem_map.mpr ⟨.commit t, hcommit, rfl⟩

end Sealed

lemma sealed_step (h : Consistent imageSize L s)
    (hs : ∀ t, s.phase t = .committed → Sealed s.journal.preAppend.records t)
    (hdoes : s.Does (size imageSize) blank e s') :
    ∀ t, s'.phase t = .committed → Sealed s'.journal.preAppend.records t := by
  -- a transaction that is moved on, but not to the end of its commit
  have hcommitted {u : τ} {a : Phase} (ha : a ≠ .committed) {t : τ}
      (ht : (s.moved u a).phase t = .committed) : s.phase t = .committed := by
    by_cases htu : t = u
    · subst htu
      exact absurd ((s.moved_phase_self t a).symm.trans ht) ha
    · rwa [s.moved_phase_of_ne htu] at ht
  intro t ht
  cases hdoes with
  | start u hidle =>
    have hold := hs t (hcommitted (by simp) ht)
    cases hj : s.journal.logXactionBegin (size imageSize) u with
    | none => simpa [hj] using hold
    | some j =>
      obtain ⟨-, rfl⟩ := logXactionBegin_eq_some hj
      have hrecords := hold.concat (r := .begin u) (by simp)
      simpa [hj, Journal.append, preAppend_records] using hrecords
  | flush q =>
    rw [flushPage_phase] at ht
    have hold := hs t ht
    unfold Storage.flushPage
    cases hc : s.pool.lookup q with
    | none => exact hold
    | some c =>
      cases hdirty : c.dirty with
      | none => simpa only [hdirty] using hold
      | some u =>
        have htu : u ≠ t := by
          rintro rfl
          obtain ⟨_, _, _, _, _, hph | ⟨hph, -⟩⟩ := h.editor hc hdirty <;> simp [hph] at ht
        have hrecords := hold.concat (r := .update u ⟨q, c.oldData⟩ ⟨q, c.data⟩) (by simp [htu])
        simpa [hdirty, Journal.logWrite, Journal.append, preAppend_records] using hrecords
  | checkpoint =>
    have hrecords := (hs t ht).concat (r := .checkpoint s.journal.preAppend.outstanding) (by simp)
    simpa [Journal.checkpointRecord, Journal.append, preAppend_records] using hrecords
  | truncate j hj =>
    rw [← logTruncate_preAppend] at hj
    obtain ⟨base, dropped, kept, htrunc, hdecided, -⟩ :=
      logTruncate_eq_some h.sound.pointed (preAppend_undecided _) hj
    have hold := hs t ht
    rw [htrunc.split] at hold
    rw [preAppend_of_decided _ hdecided, htrunc.records]
    exact hold.cut base
  | complete u => exact hs t (hcommitted (by simp) ht)
  | logCommit u hflushed =>
    by_cases htu : t = u
    · subst htu
      simpa [Journal.logCommit, Journal.append, preAppend_records] using
        sealed_commit s.journal.preAppend.records t
    · have hold := hs t ((s.moved_phase_of_ne htu .committed).symm.trans ht)
      have hrecords := hold.concat (r := .commit u) (by simp)
      simpa [Journal.logCommit, Journal.append, preAppend_records] using hrecords
  | logAbort u hrun =>
    have hrecords := (hs t (hcommitted (by simp) ht)).concat (r := .abort u) (by simp)
    simpa [Storage.rollBack, Journal.logAbort, Journal.append, preAppend_records] using hrecords
  | discard u => exact hs t (hcommitted (by simp) ht)
  | _ => exact hs t ht

/-! ## Runs -/

section Runs

variable {pointer : ℤ} {log : List (LogRecord τ π α)} {disk : π → Option α}

lemma keepsApart_run (hC : EveryStep (Storage.step (size imageSize) blank) KeepsApart
      (.init (openLog pointer log) disk) evs)
    (hrun : execAll (Storage.step (size imageSize) blank)
      (.init (openLog pointer log) disk) evs = some s) :
    Consistent imageSize (Ledger.ofRun blank disk evs) s ∧ WritersLock evs s ∧
      ∀ t, s.phase t = .committed → Sealed s.journal.preAppend.records t := by
  refine consistent_run_and (J := fun evs s => WritersLock evs s ∧
      ∀ t, s.phase t = .committed → Sealed s.journal.preAppend.records t)
    ⟨fun _ _ _ h => (by cases h), fun _ h => (by cases h)⟩
    (fun evs s e s' h hkept hc hdoes => ?_) (fun _ _ _ hc => hc.1) hC hrun
  exact ⟨writersLock_step h.tight hkept.1 hc.2 hdoes, sealed_step h hkept.2 hdoes⟩

/-- **Readers see committed data.**  In every run in which no page is flushed for a transaction that
has been rolled back and nobody locks a page between the two halves of the commit of a transaction
that has changed it, when a transaction reads a page

* its own commit record is still to come, and what it finds there, if it has not changed the page
  itself, is the content by the commit records so far;
* every other transaction that has changed the page before has been rolled back or has its commit
  record in the log, and at every later moment its updates in the log are followed by it. -/
theorem committed_readers {pre post : List (StorageEvent τ π α)} {mid : Storage τ π α}
    (hpre : execAll (Storage.step (LogRecord.size imageSize) blank)
      (.init (openLog pointer log) disk) pre = some mid)
    (hrun : execAll (Storage.step (LogRecord.size imageSize) blank)
      (.init (openLog pointer log) disk) (pre ++ e :: post) = some s)
    (hC : EveryStep (Storage.step (LogRecord.size imageSize) blank) KeepsApart
      (.init (openLog pointer log) disk) (pre ++ e :: post))
    (hreads : e.reads = some (u, p)) :
    .logCommit u ∉ pre ∧
      ((∀ d, .edit u p d ∉ pre) → mid.contents p = (Ledger.ofRun blank disk pre).logged p) ∧
      ∀ t d, t ≠ u → .edit t p d ∈ pre →
        .logAbort t ∈ pre ∨ .logCommit t ∈ pre ∧ Sealed s.journal.preAppend.records t := by
  have hmid := hC.of_append
  obtain ⟨h, hlock, -⟩ := keepsApart_run hmid hpre
  obtain ⟨mid', s₁, hmid', hstep⟩ := execAll_cons_eq_some hrun
  obtain rfl := some.inj (hpre.symm.trans hmid')
  obtain ⟨hph, x, hl⟩ := reader_of_does (does_of_step hstep) hreads
  refine ⟨fun hcommit => ?_, fun hown => ?_, fun t d htu hedit => ?_⟩
  · simpa [hph] using (endLogged_run hpre u).1.mp hcommit
  · have hnone : (Ledger.ofRun blank disk pre).working p = none := by
      by_contra hne
      obtain ⟨⟨v, d⟩, hw⟩ := ne_none_iff_exists'.mp hne
      obtain rfl := h.tight.unique ((h.page p).writer hw) hl
      exact hown d ((Ledger.edit_mem_of_ofRun disk pre).1 u p d hw)
    have hlogged := loggedOk_run (C := KeepsApart) (fun _ _ _ hC => hC.1) hmid
      (fun before e after heq s hs => (hmid before e after heq s hs).2) hpre
    rw [contents_eq_settled h hnone, (hlogged.of_holds hl).1]
  · obtain ⟨hbegun, hactive, hflushed⟩ := hlock t p d hedit
    obtain ⟨hcommit, habort⟩ := endLogged_run hpre t
    cases hphase : mid.phase t with
    | idle => exact absurd hphase hbegun
    | running => exact absurd (h.tight.unique (hactive (.inl hphase)) hl).symm htu
    | rolledBack => exact .inl (habort.mpr (.inl hphase))
    | flushed => exact absurd hl (hflushed hphase u x)
    | aborted => exact .inl (habort.mpr (.inr hphase))
    | committed =>
      have hmem := hcommit.mpr hphase
      have hend : s.phase t = .committed :=
        (endLogged_run hrun t).1.mp (mem_append_left _ hmem)
      exact .inr ⟨hmem, (keepsApart_run hC hrun).2.2 t hend⟩

end Runs

/-! ## Three runs -/

def committedWriter : List (StorageEvent ℕ ℕ ℕ) :=
  [.start 1, .lock 1 0 true, .edit 1 0 1, .flush 0, .complete 1, .logCommit 1, .start 2,
    .lock 2 0 false]

lemma committedWriter_keepsApart :
    EveryStep (Storage.step (size fun _ => 10) 0) KeepsApart
      (.init (openLog (-1) []) fun _ => some 0)
      (committedWriter ++ .fetch 2 0 :: [.complete 2, .logCommit 2]) := by
  refine everyStep_of_getElem fun i e he mid hmid => ?_
  by_cases hflush : i = 3
  · subst hflush
    obtain rfl := some.inj he
    have hpool := eq_of_execAll_map (fun s => (s.pool.lookup 0, s.phase 1)) hmid
      (b := (some ⟨1, 0, some 1⟩, .running)) (by decide)
    simpa [KeepsApart, NoEarlyLock] using noLateFlush_of_running hpool rfl
  by_cases hlock : i = 7
  · subst hlock
    obtain rfl := some.inj he
    have hphase := eq_of_execAll_map (fun s => s.phase 1) hmid (b := .committed) (by decide)
    refine ⟨by simp, fun u p x heq t d hph hmem => ?_⟩
    obtain ⟨rfl, -⟩ : t = 1 ∧ _ := by simpa [committedWriter] using hmem
    simp [hphase] at hph
  · match i, he, hflush, hlock with
    | 0, he, _, _ | 2, he, _, _ | 4, he, _, _ | 5, he, _, _ | 6, he, _, _ | 8, he, _, _
    | 9, he, _, _ | 10, he, _, _ =>
      obtain rfl := some.inj he
      simp [KeepsApart, NoEarlyLock]
    | 1, he, _, _ =>
      obtain rfl := some.inj he
      simp [KeepsApart, NoEarlyLock, committedWriter]

theorem committedWriter_read :
    ∃ mid s, runFromZero committedWriter = some mid ∧
      runFromZero (committedWriter ++ .fetch 2 0 :: [.complete 2, .logCommit 2]) = some s ∧
      .logCommit 2 ∉ committedWriter ∧
      mid.contents 0 = (Ledger.ofRun 0 (fun _ => some 0) committedWriter).logged 0 ∧
      .logCommit 1 ∈ committedWriter ∧ Sealed s.journal.preAppend.records 1 := by
  obtain ⟨mid, hmid⟩ : ∃ s, runFromZero committedWriter = some s :=
    isSome_iff_exists.mp (by decide)
  obtain ⟨s, hrun⟩ : ∃ s, runFromZero
      (committedWriter ++ .fetch 2 0 :: [.complete 2, .logCommit 2]) = some s :=
    isSome_iff_exists.mp (by decide)
  obtain ⟨hlater, hread, hothers⟩ := committed_readers (u := 2) (p := 0) hmid hrun
    committedWriter_keepsApart rfl
  refine ⟨mid, s, hmid, hrun, hlater, hread (by simp [committedWriter]), ?_⟩
  refine (hothers 1 1 (by decide) (by simp [committedWriter])).resolve_left ?_
  simp [committedWriter]

/-- In the first run transaction 2 reads what transaction 1 has written, and the log has only its
own commit record: recovery will undo transaction 1.  In the second one it reads what transaction 1
had written before it was rolled back. -/
theorem reader_commits_alone :
    ((runFromZero [.start 1, .start 2, .lock 1 0 true, .edit 1 0 1, .flush 0, .complete 1,
        .lock 2 0 false, .fetch 2 0, .complete 2, .logCommit 2]).map
          fun s => (s.contents 0, s.journal.records)) =
        some (some 1, [.begin 1, .begin 2, .update 1 ⟨0, 0⟩ ⟨0, 1⟩, .commit 2]) ∧
      ((runFromZero [.start 1, .lock 1 0 true, .edit 1 0 1, .logAbort 1, .flush 0, .discard 1,
        .start 2, .lock 2 0 false, .fetch 2 0, .complete 2, .logCommit 2]).map
          fun s => (s.contents 0, s.journal.records)) =
        some (some 1, [.begin 1, .abort 1, .update 1 ⟨0, 0⟩ ⟨0, 1⟩, .begin 2, .commit 2]) := by
  decide

end BallotBox.SimpleDb
