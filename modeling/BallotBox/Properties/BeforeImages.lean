import BallotBox.Properties.Support.CommitRecords

/-!
# The old images in the log

The buffer pool takes the old image from the page object.  This goes wrong in two ways: a page that
was flushed and evicted is read again with the transaction's own changes for the old image, and a
page that is flushed between the two halves of an abort keeps its changes.
-/

namespace BallotBox.SimpleDb

open LogRecord Ledger AList Option Storage

variable {τ π α : Type} [DecidableEq τ] [DecidableEq π] {imageSize : Image π α → ℕ} {blank : α}
  {L L' : Ledger τ π α} {s s' : Storage τ π α} {t u : τ} {p : π}

/-- The log has no image to roll back a page that is not in the pool. -/
def NoReread (imageSize : Image π α → ℕ) (s : Storage τ π α) (t : τ) (p : π) : Prop :=
  s.pool.lookup p = none → s.journal.rollback (LogRecord.size imageSize) t p = none

def KeepsImages (imageSize : Image π α → ℕ) (_ : List (StorageEvent τ π α)) (s : Storage τ π α)
    (e : StorageEvent τ π α) : Prop :=
  (∀ p, e = .flush p → NoLateFlush s p) ∧
    (∀ t p, e = .fetch t p → NoReread imageSize s t p) ∧
    ∀ t p data, e = .edit t p data → NoReread imageSize s t p

/-- The old data of a page that a running transaction has changed is settled. -/
def OldImages (L : Ledger τ π α) (s : Storage τ π α) : Prop :=
  ∀ p t data c, L.working p = some (t, data) → s.phase t = .running →
    s.pool.lookup p = some c → L.settled p = some c.oldData

lemma lookup_ne_none_of_noReread (h : Consistent imageSize L s) {data : α} {x : Bool}
    (hw : L.working p = some (u, data)) (hrun : s.phase t = .running) (hl : s.locks.Holds t p x)
    (hread : NoReread imageSize s t p) : u = t ∧ s.pool.lookup p ≠ none := by
  have hut : u = t := (h.tight.unique ((h.page p).writer hw) hl).symm
  subst hut
  refine ⟨rfl, fun hmiss => ?_⟩
  cases h.page p with
  | rest hw' => simp [hw] at hw'
  | undone v d b hw' _ _ hph =>
    obtain ⟨rfl, -⟩ := Prod.mk.inj (some.inj (hw.symm.trans hw'))
    simp [hrun] at hph
  | edited v d b hw' _ _ _ hedit =>
    obtain ⟨rfl, -⟩ := Prod.mk.inj (some.inj (hw.symm.trans hw'))
    cases hedit with
    | unlogged _ _ hpool => simp [hmiss] at hpool
    | logged hroll _ _ _ => simp [hread hmiss] at hroll

omit [DecidableEq τ] in
lemma OldImages.frame (h : OldImages L s)
    (howner : ∀ p t data, L'.working p = some (t, data) → s'.phase t = .running →
      L.working p = some (t, data) ∧ s.phase t = .running ∧ L'.settled p = L.settled p)
    (hpool : ∀ p t data c, L'.working p = some (t, data) → s'.phase t = .running →
      s'.pool.lookup p = some c → ∃ c₀, s.pool.lookup p = some c₀ ∧ c₀.oldData = c.oldData) :
    OldImages L' s' := by
  intro p t data c hw hrun hc
  obtain ⟨hw', hrun', hsettled⟩ := howner p t data hw hrun
  obtain ⟨c₀, hc₀, hold⟩ := hpool p t data c hw hrun hc
  rw [hsettled, ← hold]
  exact h p t data c₀ hw' hrun' hc₀

lemma Consistent.ne_of_working (h : Consistent imageSize L s) {data : α}
    (hw : L.working p = some (u, data)) (hrun : s.phase t ≠ .running)
    (hrolled : s.phase t ≠ .rolledBack) : u ≠ t := by
  rintro rfl
  rcases h.holders u p true ((h.page p).writer hw) with hph | hph
  · exact hrun hph
  · exact hrolled hph

lemma oldImages_step (h : Consistent imageSize L s) (ho : OldImages L s)
    {e : StorageEvent τ π α} (hread : ∀ t p, e = .fetch t p → NoReread imageSize s t p)
    (hedit : ∀ t p data, e = .edit t p data → NoReread imageSize s t p)
    (hdoes : s.Does (size imageSize) blank e s') : OldImages (L.apply blank e) s' := by
  cases hdoes with
  | start t hidle =>
    refine ho.frame (fun p u d hw hu => ⟨hw, ?_, rfl⟩) fun _ _ _ c _ _ hc => ⟨c, hc, rfl⟩
    have hut : u ≠ t := h.ne_of_working hw (by simp [hidle]) (by simp [hidle])
    exact s.moved_phase_of_ne hut .running ▸ hu
  | lock t p x hrun hexists hgrant =>
    refine ho.frame (fun q u d hw hu => ⟨?_, hu, ?_⟩) fun _ _ _ c _ _ hc => ⟨c, hc, rfl⟩
    · rwa [lock_working] at hw
    · rw [lock_settled]
  | release t p hrun hshared =>
    exact ho.frame (fun _ _ _ hw hu => ⟨hw, hu, rfl⟩) fun _ _ _ c _ _ hc => ⟨c, hc, rfl⟩
  | checkpoint =>
    exact ho.frame (fun _ _ _ hw hu => ⟨hw, hu, rfl⟩) fun _ _ _ c _ _ hc => ⟨c, hc, rfl⟩
  | truncate j hj =>
    exact ho.frame (fun _ _ _ hw hu => ⟨hw, hu, rfl⟩) fun _ _ _ c _ _ hc => ⟨c, hc, rfl⟩
  | logCommit t hflushed =>
    refine ho.frame (fun p u d hw hu => ⟨hw, ?_, rfl⟩) fun _ _ _ c _ _ hc => ⟨c, hc, rfl⟩
    have hut : u ≠ t := h.ne_of_working hw (by simp [hflushed]) (by simp [hflushed])
    exact s.moved_phase_of_ne hut .committed ▸ hu
  | fetch t p x c hrun hlock hc =>
    refine ho.frame (fun _ _ _ hw hu => ⟨hw, hu, rfl⟩) fun q u d c' hw _ hc' => ?_
    by_cases hq : q = p
    · subst hq
      obtain ⟨rfl, hcached⟩ := lookup_ne_none_of_noReread h hw hrun hlock (hread t q rfl)
      obtain ⟨c₀, hc₀⟩ := ne_none_iff_exists'.mp hcached
      obtain rfl := some.inj ((page_of_lookup hc₀).symm.trans hc)
      obtain rfl := some.inj ((lookup_insert s.pool).symm.trans hc')
      exact ⟨c₀, hc₀, rfl⟩
    · exact ⟨c', (lookup_insert_ne hq).symm.trans hc', rfl⟩
  | edit t p data c hrun hlock hc =>
    intro q u d c' hw hu hc'
    by_cases hq : q = p
    · subst hq
      obtain rfl := some.inj ((lookup_insert s.pool).symm.trans hc')
      cases hold : L.working q with
      | none =>
        obtain ⟨hsettled, hread⟩ := h.page_settled hold hc
        rw [hread]
        exact hsettled
      | some w =>
        obtain ⟨v, e⟩ := w
        obtain ⟨rfl, hcached⟩ := lookup_ne_none_of_noReread h hold hrun hlock (hedit t q data rfl)
        obtain ⟨c₀, hc₀⟩ := ne_none_iff_exists'.mp hcached
        obtain rfl := some.inj ((page_of_lookup hc₀).symm.trans hc)
        exact ho q v e c₀ hold hrun hc₀
    · exact ho q u d c' ((Function.update_of_ne hq ..).symm.trans hw) hu
        ((lookup_insert_ne hq).symm.trans hc')
  | append t p hrun hnew =>
    refine ho.frame (fun q u d hw hu => ⟨hw, hu, ?_⟩) fun _ _ _ c _ _ hc => ⟨c, hc, rfl⟩
    refine Function.update_of_ne ?_ _ _
    rintro rfl
    have hexists := h.existing u q ((h.page q).writer hw)
    simp [hnew] at hexists
  | evict p c hc hclean =>
    refine ho.frame (fun _ _ _ hw hu => ⟨hw, hu, rfl⟩) fun q u d c' hw _ hc' => ⟨c', ?_, rfl⟩
    by_cases hq : q = p
    · subst hq
      simp at hc'
    · exact (lookup_erase_ne hq).symm.trans hc'
  | flush p =>
    refine ho.frame (fun _ u _ hw hu => ⟨hw, ?_, rfl⟩) fun q u d c _ _ hc => ?_
    · rwa [flushPage_phase] at hu
    · obtain ⟨c₀, hc₀, hold, -⟩ := lookup_flushPage hc
      exact ⟨c₀, hc₀, hold⟩
  | complete t hrun hclean =>
    refine ho.frame (fun p u d hw hu => ?_) fun p u d c hw _ hc => ⟨c, ?_, rfl⟩
    · obtain ⟨hut, hw⟩ := Ledger.without_working.mp hw
      refine ⟨hw, s.moved_phase_of_ne hut .flushed ▸ hu, ?_⟩
      show (L.own t p).or (L.settled p) = L.settled p
      rw [own_of_working hw hut, none_or]
    · obtain ⟨hut, hw⟩ := Ledger.without_working.mp hw
      have hc := (lookup_setBefore_filter ..).symm.trans hc
      rwa [if_neg (by simp [h.not_held hw hut])] at hc
  | logAbort t hrun =>
    refine ho.frame (fun p u d hw hu => ⟨hw, ?_, rfl⟩) fun p u d c hw _ hc => ⟨c, ?_, rfl⟩
    · have hut : u ≠ t := by
        rintro rfl
        simp [Storage.rollBack] at hu
      exact s.moved_phase_of_ne hut .rolledBack ▸ hu
    · have hc := (lookup_discard_filter ..).symm.trans hc
      split_ifs at hc
      exact hc
  | discard t hrolled =>
    refine ho.frame (fun p u d hw hu => ?_) fun p u d c hw _ hc => ⟨c, ?_, rfl⟩
    · obtain ⟨hut, hw⟩ := Ledger.without_working.mp hw
      exact ⟨hw, s.moved_phase_of_ne hut .aborted ▸ hu, rfl⟩
    · have hc := (lookup_discard_filter ..).symm.trans hc
      split_ifs at hc
      exact hc

/-! ## Runs -/

section Runs

variable {pointer : ℤ} {log : List (LogRecord τ π α)} {disk : π → Option α}
  {evs : List (StorageEvent τ π α)}

lemma oldImages_run
    (hkeeps : EveryStep (Storage.step (size imageSize) blank) (KeepsImages imageSize)
      (.init (openLog pointer log) disk) evs)
    (hrun : execAll (Storage.step (size imageSize) blank)
      (.init (openLog pointer log) disk) evs = some s) :
    OldImages (Ledger.ofRun blank disk evs) s := by
  refine (consistent_run_and (J := fun evs s => OldImages (Ledger.ofRun blank disk evs) s)
    (fun p t data c h => by cases h) (fun evs s e s' h ho hc hdoes => ?_) (fun _ _ _ hc => hc.1)
    hkeeps hrun).2
  rw [ofRun_concat]
  exact oldImages_step h ho hc.2.1 hc.2.2 hdoes

/-- **Old images are committed.**  In every run in which no transaction reads back a page that it
has logged and no page is flushed for a transaction that has been rolled back, a flush logs as the
old image what was on the page when its transaction locked it for writing: the work of the
transactions that had given up their locks to commit.  If nobody locks pages before the commit
record is written, this is the work of the transactions with a commit record. -/
theorem before_images_committed {c : CachedPage τ α}
    (hrun : execAll (Storage.step (LogRecord.size imageSize) blank)
      (.init (openLog pointer log) disk) evs = some s)
    (hkeeps : EveryStep (Storage.step (LogRecord.size imageSize) blank) (KeepsImages imageSize)
      (.init (openLog pointer log) disk) (evs ++ [.flush p]))
    (hc : s.pool.lookup p = some c) (hdirty : c.dirty = some t) :
    (s.flushPage p).journal.records =
        s.journal.preAppend.records ++ [.update t ⟨p, c.oldData⟩ ⟨p, c.data⟩] ∧
      ∃ logged, (Ledger.ofRun blank disk evs).base t p = some (some c.oldData, logged) ∧
        (EveryStep (Storage.step (LogRecord.size imageSize) blank) NoEarlyLock
          (.init (openLog pointer log) disk) evs → logged = some c.oldData) := by
  have h := consistent_run (C := KeepsImages imageSize) (fun _ _ _ hC => hC.1) hkeeps.of_append hrun
  have hlate : s.phase t ≠ .rolledBack := (hkeeps.last hrun).1 p rfl c t hc hdirty
  obtain ⟨data, b, hw, hwr, -, hrolled | ⟨hph, -⟩⟩ := h.editor hc hdirty
  · exact absurd hrolled hlate
  have hold := oldImages_run hkeeps.of_append hrun p t data c hw hph hc
  obtain ⟨⟨settled, logged⟩, hbase⟩ := ne_none_iff_exists'.mp (h.based t p hwr)
  obtain rfl : settled = some c.oldData := (h.base t p _ hbase).2.trans hold
  refine ⟨by simp [Storage.flushPage, hc, hdirty, Journal.logWrite, Journal.append], logged, hbase,
    fun hearly => ?_⟩
  exact (loggedOk_run (fun _ _ _ hC => hC.1) hkeeps.of_append hearly hrun).base t p _ hbase

end Runs

/-! ## Three runs -/

def flushedTwice : List (StorageEvent ℕ ℕ ℕ) :=
  [.start 1, .lock 1 0 true, .edit 1 0 5, .flush 0, .edit 1 0 6]

lemma flushedTwice_keepsImages :
    EveryStep (Storage.step (size fun _ => 10) 0) (KeepsImages fun _ => 10)
      (.init (openLog (-1) []) fun _ => some 0) (flushedTwice ++ [.flush 0]) := by
  refine everyStep_of_getElem fun i e he mid hmid => ?_
  match i, he with
  | 0, he =>
    obtain rfl := some.inj he
    simp [KeepsImages]
  | 1, he =>
    obtain rfl := some.inj he
    simp [KeepsImages]
  | 2, he =>
    obtain rfl := some.inj he
    have hroll := eq_of_execAll_map (fun s => s.journal.rollback (size fun _ => 10) 1 0)
      hmid (b := none) (by decide)
    simpa [KeepsImages, NoReread] using fun _ => hroll
  | 3, he =>
    obtain rfl := some.inj he
    have hpool := eq_of_execAll_map (fun s => (s.pool.lookup 0, s.phase 1)) hmid
      (b := (some ⟨5, 0, some 1⟩, .running)) (by decide)
    simpa [KeepsImages] using noLateFlush_of_running hpool rfl
  | 4, he =>
    obtain rfl := some.inj he
    have hpool := eq_of_execAll_map (fun s => s.pool.lookup 0) hmid
      (b := some ⟨5, 0, none⟩) (by decide)
    simp [KeepsImages, NoReread, hpool]
  | 5, he =>
    obtain rfl := some.inj he
    have hpool := eq_of_execAll_map (fun s => (s.pool.lookup 0, s.phase 1)) hmid
      (b := (some ⟨6, 0, some 1⟩, .running)) (by decide)
    simpa [KeepsImages] using noLateFlush_of_running hpool rfl

theorem flushedTwice_before_images :
    ∃ s, runFromZero flushedTwice = some s ∧ s.pool.lookup 0 = some ⟨6, 0, some 1⟩ ∧
      (s.flushPage 0).journal.records =
        s.journal.preAppend.records ++ [.update 1 ⟨0, 0⟩ ⟨0, 6⟩] ∧
      ∃ logged, (Ledger.ofRun 0 (fun _ => some 0) flushedTwice).base 1 0 =
          some (some 0, logged) ∧
        (EveryStep (Storage.step (LogRecord.size fun _ => 10) 0) NoEarlyLock
          (.init (openLog (-1) []) fun _ => some 0) flushedTwice → logged = some 0) := by
  obtain ⟨s, hrun⟩ : ∃ s, runFromZero flushedTwice = some s := isSome_iff_exists.mp (by decide)
  have hpool := eq_of_execAll_map (fun s => s.pool.lookup 0) hrun (b := some ⟨6, 0, some 1⟩)
    (by decide)
  exact ⟨s, hrun, hpool, before_images_committed hrun flushedTwice_keepsImages hpool rfl⟩

def rereadPage : List (StorageEvent ℕ ℕ ℕ) :=
  [.start 1, .lock 1 0 true, .edit 1 0 1, .flush 0, .evict 0, .edit 1 0 2]

def lateFlush : List (StorageEvent ℕ ℕ ℕ) :=
  [.start 1, .lock 1 0 true, .edit 1 0 1, .logAbort 1, .flush 0, .discard 1,
    .start 2, .lock 2 0 true, .edit 2 0 7]

/-- In both runs the last record of the log has the old image 1, which no committed transaction has
written; the page was 0 when it was locked. -/
theorem uncommitted_before_images :
    ((runFromZero (rereadPage ++ [.flush 0])).map fun s => s.journal.records.getLast?) =
        some (some (.update 1 ⟨0, 1⟩ ⟨0, 2⟩)) ∧
      (Ledger.ofRun 0 (fun _ => some 0) rereadPage).base 1 0 = some (some 0, some 0) ∧
      ((runFromZero (lateFlush ++ [.flush 0])).map fun s => s.journal.records.getLast?) =
        some (some (.update 2 ⟨0, 1⟩ ⟨0, 7⟩)) ∧
      (Ledger.ofRun 0 (fun _ => some 0) lateFlush).base 2 0 = some (some 0, some 0) := by
  decide

end BallotBox.SimpleDb
