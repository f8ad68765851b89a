import BallotBox.Properties.Support.Anchors
import BallotBox.Properties.Support.Ledger
import BallotBox.Properties.Support.Sections

/-!
# The storage keeps to the ledger

`Consistent` relates the storage to the ledger.  A page that nobody works on is on the disk as the
ledger has it; one that a transaction works on has its committed content on the disk or in the log
(`PageOk`).  Every section keeps this, except a flush for a transaction that has been rolled back.
-/

namespace BallotBox.SimpleDb

open Ledger LogRecord Option Function Storage Journal LockManager AList

variable {τ π α : Type} [DecidableEq τ] [DecidableEq π]

variable (imageSize : Image π α → ℕ)
variable {j : Journal τ π α} {x : Bool} {pool : AList fun _ : π => CachedPage τ α}
  {c : CachedPage τ α} {phase : Phase}

/-! ## Pages -/

/-- A page that a running transaction has changed from `b` to `data`: before its first flush `b` is
on the disk, after it in the log. -/
inductive Edited (s : Storage τ π α) (t : τ) (p : π) (b data : α) : Prop
  | unlogged (hroll : s.journal.rollback (LogRecord.size imageSize) t p = none)
      (hdisk : s.disk p = some b) (hpool : s.pool.lookup p = some ⟨data, b, some t⟩)
  | logged (hroll : s.journal.rollback (LogRecord.size imageSize) t p = some b)
      (hdisk : (s.disk p).isSome) (hdata : s.contents p = some data)
      (hpool : ∀ c, s.pool.lookup p = some c →
        c.dirty = some t ∨ (c.dirty = none ∧ s.disk p = some c.data))

/-- Nobody works on the page, or a running transaction does, or one that was rolled back has not yet
dropped it. -/
inductive PageOk (L : Ledger τ π α) (s : Storage τ π α) (p : π) : Prop
  | rest (hw : L.working p = none) (hdisk : s.disk p = L.settled p)
      (hpool : ∀ c, s.pool.lookup p = some c → L.settled p = some c.data ∧ c = .read c.data)
  | edited (t : τ) (data b : α) (hw : L.working p = some (t, data)) (hwr : s.locks.Holds t p true)
      (hs : L.settled p = some b) (hph : s.phase t = .running)
      (hedit : Edited imageSize s t p b data)
  | undone (t : τ) (data b : α) (hw : L.working p = some (t, data)) (hwr : s.locks.Holds t p true)
      (hs : L.settled p = some b) (hph : s.phase t = .rolledBack) (hdisk : s.disk p = some b)
      (hpool : ∀ c, s.pool.lookup p = some c → c.dirty = some t)

/-- **The invariant.** -/
structure Consistent (L : Ledger τ π α) (s : Storage τ π α) : Prop where
  tight : s.locks.Tight
  holders : ∀ t p x, s.locks.Holds t p x → s.phase t = .running ∨ s.phase t = .rolledBack
  existing : ∀ t p, s.locks.Holds t p true → (s.disk p).isSome
  sound : s.journal.preAppend.Sound imageSize
  known : ∀ t, s.phase t = .running → t ∈ s.journal.tidToFirstLogRecord
  unseen : ∀ t, s.phase t = .idle → s.journal.Unseen t
  images : ∀ t p, s.phase t = .running →
    s.journal.rollback (LogRecord.size imageSize) t p ≠ none → L.own t p ≠ none
  page : ∀ p, PageOk imageSize L s p
  base : ∀ t p b, L.base t p = some b → s.locks.Holds t p true ∧ b.1 = L.settled p
  based : ∀ t p, s.locks.Holds t p true → L.base t p ≠ none

variable {imageSize} {L L' : Ledger τ π α} {s s' : Storage τ π α} {t u : τ} {p q : π} {b data : α}

lemma Edited.congr (h : Edited imageSize s t p b data) (hdisk : s'.disk p = s.disk p)
    (hpool : s'.pool.lookup p = s.pool.lookup p)
    (hroll : s'.journal.rollback (size imageSize) t p =
      s.journal.rollback (size imageSize) t p) : Edited imageSize s' t p b data := by
  cases h with
  | unlogged h₁ h₂ h₃ => exact .unlogged (hroll.trans h₁) (hdisk.trans h₂) (hpool.trans h₃)
  | logged h₁ h₂ h₃ h₄ =>
    refine .logged (hroll.trans h₁) (by rwa [hdisk]) ?_ fun c hc => ?_
    · rw [contents_congr hdisk hpool, h₃]
    · rw [hdisk]
      exact h₄ c (hpool ▸ hc)

lemma PageOk.congr (h : PageOk imageSize L s p) (hw : L'.working p = L.working p)
    (hs : L'.settled p = L.settled p) (hdisk : s'.disk p = s.disk p)
    (hpool : s'.pool.lookup p = s.pool.lookup p)
    (howner : ∀ t data, L.working p = some (t, data) → s.locks.Holds t p true →
      s'.locks.Holds t p true ∧ s'.phase t = s.phase t ∧ (s.phase t = .running →
        s'.journal.rollback (size imageSize) t p =
          s.journal.rollback (size imageSize) t p)) : PageOk imageSize L' s' p := by
  cases h with
  | rest h₁ h₂ h₃ =>
    refine .rest (hw.trans h₁) (hdisk.trans (h₂.trans hs.symm)) fun c hc => ?_
    rw [hs]
    exact h₃ c (hpool ▸ hc)
  | edited t data b h₁ h₂ h₃ h₄ h₅ =>
    obtain ⟨hwr, hph, hroll⟩ := howner t data h₁ h₂
    exact .edited t data b (hw.trans h₁) hwr (hs.trans h₃) (hph.trans h₄)
      (h₅.congr hdisk hpool (hroll h₄))
  | undone t data b h₁ h₂ h₃ h₄ h₅ h₆ =>
    obtain ⟨hwr, hph, -⟩ := howner t data h₁ h₂
    exact .undone t data b (hw.trans h₁) hwr (hs.trans h₃) (hph.trans h₄) (hdisk.trans h₅)
      fun c hc => h₆ c (hpool ▸ hc)

lemma PageOk.writer (h : PageOk imageSize L s p) (hw : L.working p = some (t, data)) :
    s.locks.Holds t p true := by
  cases h with
  | rest h₁ => simp [h₁] at hw
  | edited u d b h₁ h₂ =>
    obtain ⟨rfl, -⟩ := Prod.mk.inj (some.inj (h₁.symm.trans hw))
    exact h₂
  | undone u d b h₁ h₂ =>
    obtain ⟨rfl, -⟩ := Prod.mk.inj (some.inj (h₁.symm.trans hw))
    exact h₂

lemma contents_eq_settled (h : Consistent imageSize L s) (hw : L.working p = none) :
    s.contents p = L.settled p := by
  cases h.page p with
  | rest _ hdisk hpool =>
    cases hc : s.pool.lookup p with
    | none => rw [contents_of_miss hc, hdisk]
    | some c => rw [contents_of_lookup hc, (hpool c hc).1]
  | edited u d b hw' => simp [hw] at hw'
  | undone u d b hw' => simp [hw] at hw'

namespace Consistent

/-! ## Sections of the log -/

section

variable (h : Consistent imageSize L s)

include h

lemma log {phase : τ → Phase} (hkeeps : s.journal.Keeps imageSize (fun _ _ => none) j)
    (hworking : L'.working = L.working) (hsettled : L'.settled = L.settled)
    (hbase : L'.base = L.base)
    (hlocked : ∀ t p x, s.locks.Holds t p x → phase t = s.phase t)
    (hrunning : ∀ t, phase t = .running → t ∈ j.tidToFirstLogRecord ∧
      (s.phase t = .running ∨ ∀ p, j.rollback (size imageSize) t p = none))
    (hunseen : ∀ t, phase t = .idle → j.Unseen t) :
    Consistent imageSize L' { s with journal := j, phase := phase } := by
  have hroll : ∀ t, s.phase t = .running → phase t = .running → ∀ p,
      j.rollback (size imageSize) t p =
        s.journal.rollback (size imageSize) t p := by
    intro t hold hnew p
    rw [hkeeps.rollback t (h.known t hold) (hrunning t hnew).1 p, or_none]
  refine ⟨h.tight, fun t p x hl => ?_, h.existing, hkeeps.sound, fun t ht => (hrunning t ht).1,
    hunseen, fun t p ht hne => ?_, fun p => ?_, fun t p b hb => ?_, fun t p hl => ?_⟩
  · show phase t = .running ∨ phase t = .rolledBack
    rw [hlocked t p x hl]
    exact h.holders t p x hl
  · have hown : L'.own t p = L.own t p := by rw [own, own, hworking]
    rw [hown]
    obtain ⟨-, hold | hnone⟩ := hrunning t ht
    · exact h.images t p hold (by rwa [hroll t hold ht] at hne)
    · exact absurd (hnone p) hne
  · refine (h.page p).congr (by rw [hworking]) (by rw [hsettled]) rfl rfl fun t data _ hl => ?_
    have hph := hlocked t p true hl
    exact ⟨hl, hph, fun hrun => hroll t hrun (hph.trans hrun) p⟩
  · rw [hsettled]
    exact h.base t p b (hbase ▸ hb)
  · rw [hbase]
    exact h.based t p hl

lemma start (hidle : s.phase t = .idle) : Consistent imageSize L { s.moved t .running with
      journal := (s.journal.logXactionBegin (size imageSize) t).getD s.journal } := by
  have hnew : t ∉ s.journal.tidToFirstLogRecord := (h.unseen t hidle).1
  obtain ⟨j, hj⟩ : ∃ j, s.journal.logXactionBegin (size imageSize) t = some j := by
    simp [Journal.logXactionBegin, hnew]
  obtain ⟨hkeeps, hmem, hnone⟩ := logXactionBegin_keeps h.sound hj
  obtain ⟨-, hj'⟩ := logXactionBegin_eq_some hj
  rw [hj, getD_some]
  refine h.log hkeeps rfl rfl rfl (fun u p x hl => ?_) (fun u hu => ?_) fun u hu => ?_
  · refine s.moved_phase_of_ne ?_ .running
    rintro rfl
    rcases h.holders u p x hl with hph | hph <;> simp [hidle] at hph
  · by_cases hut : u = t
    · exact hut ▸ ⟨hmem, .inr hnone⟩
    · rw [s.moved_phase_of_ne hut] at hu
      refine ⟨?_, .inl hu⟩
      rw [hj']
      exact mem_insert _ |>.mpr (.inr (h.known u hu))
  · have hut : u ≠ t := by
      rintro rfl
      simp at hu
    rw [s.moved_phase_of_ne hut] at hu
    refine (h.unseen u hu).append (r := .begin t) ?_ ?_ (by simpa using Ne.symm hut) fun hm => ?_
    · simp [hj', Journal.append]
    · simp [hj', Journal.append]
    · rw [hj'] at hm
      exact ((mem_insert _).mp hm).resolve_left hut

lemma logCommit (hflushed : s.phase t = .flushed) (blank : α) :
    Consistent imageSize (L.apply blank (.logCommit t))
      { s.moved t .committed with journal := s.journal.logCommit t } := by
  refine h.log (logCommit_keeps h.sound t) rfl rfl rfl (fun u p x hl => ?_)
    (fun u hu => ?_) fun u hu => ?_
  · refine s.moved_phase_of_ne ?_ .committed
    rintro rfl
    rcases h.holders u p x hl with hph | hph <;> simp [hflushed] at hph
  · have hut : u ≠ t := by
      rintro rfl
      simp at hu
    rw [s.moved_phase_of_ne hut] at hu
    exact ⟨by simp [Journal.logCommit, hut, h.known u hu], .inl hu⟩
  · have hut : u ≠ t := by
      rintro rfl
      simp at hu
    rw [s.moved_phase_of_ne hut] at hu
    exact (h.unseen u hu).append (r := .commit t) (by simp [Journal.logCommit, Journal.append])
      (by simp [Journal.logCommit, Journal.append]) (by simp)
      (by simp [Journal.logCommit, hut])

lemma logOnly (hkeeps : s.journal.Keeps imageSize (fun _ _ => none) j)
    (hfirst : ∀ t ∈ s.journal.tidToFirstLogRecord, t ∈ j.tidToFirstLogRecord)
    (hunseen : ∀ t, s.journal.Unseen t → j.Unseen t) :
    Consistent imageSize L { s with journal := j } :=
  h.log hkeeps rfl rfl rfl (fun _ _ _ _ => rfl)
    (fun t ht => ⟨hfirst t (h.known t ht), .inl ht⟩) fun t ht => hunseen t (h.unseen t ht)

lemma checkpoint : Consistent imageSize L
      { s with journal := s.journal.checkpointRecord (size imageSize) } := by
  refine h.logOnly (checkpointRecord_keeps h.sound) (fun t ht => ?_) fun t ht => ?_
  · simpa [Journal.checkpointRecord, Journal.append] using ht
  · refine ht.append (r := .checkpoint s.journal.preAppend.outstanding) ?_ rfl (by simp) ?_
    · simp [Journal.checkpointRecord, Journal.append]
    · simp [Journal.checkpointRecord, Journal.append]

lemma truncate (hj : s.journal.logTruncate (size imageSize) = some j) :
    Consistent imageSize L { s with journal := j } :=
  h.logOnly (logTruncate_keeps h.sound hj) (fun _ ht => mem_logTruncate hj ht)
    fun _ ht => ht.truncate hj

end

/-! ## Locks -/

lemma lock (h : Consistent imageSize L s) (blank : α) (hrun : s.phase t = .running)
    (hexists : x = true → (s.disk p).isSome) (hgrant : (s.locks.tryAcquire t p x).2 = true) :
    Consistent imageSize (L.apply blank (.lock t p x))
      { s with locks := (s.locks.tryAcquire t p x).1 } := by
  have g := granted_tryAcquire h.tight hgrant
  have helse (u : τ) {q : π} (y : Bool) (hq : q ≠ p) :
      (s.locks.tryAcquire t p x).1.Holds u q y ↔ s.locks.Holds u q y := by
    rw [LockManager.Holds, LockManager.Holds, g.elsewhere q hq]
  have hkept (u : τ) (q : π) (hl : s.locks.Holds u q true) :
      (s.locks.tryAcquire t p x).1.Holds u q true := by
    by_cases hq : q = p
    · subst hq
      exact g.kept u hl
    · exact (helse u true hq).mpr hl
  refine ⟨g.tight, fun u q y hl => ?_, fun u q hl => ?_, h.sound, h.known, h.unseen,
    fun u q hu hne => ?_, fun q => ?_, fun u q b hb => ?_, fun u q hl => ?_⟩
  · by_cases hq : q = p
    · subst hq
      rcases g.holders u y hl with rfl | ⟨y', hold⟩
      · exact .inl hrun
      · exact h.holders u q y' hold
    · exact h.holders u q y ((helse u y hq).mp hl)
  · by_cases hq : q = p
    · subst hq
      obtain ⟨rfl, hx | hold⟩ := g.writer u hl
      · exact hexists hx
      · exact h.existing u q hold
    · exact h.existing u q ((helse u true hq).mp hl)
  · simpa [own] using h.images u q hu hne
  · exact (h.page q).congr (by simp) (by simp) rfl rfl
      fun u data _ hl => ⟨hkept u q hl, rfl, fun _ => rfl⟩
  · rw [lock_base] at hb
    rw [lock_settled]
    split_ifs at hb with hnew
    · obtain ⟨hx, rfl, rfl, -⟩ := hnew
      obtain rfl := some.inj hb
      exact ⟨g.written hx, rfl⟩
    · obtain ⟨hl, hbase⟩ := h.base u q b hb
      exact ⟨hkept u q hl, hbase⟩
  · rw [lock_base]
    split_ifs with hnew
    · simp
    · by_cases hq : q = p
      · subst hq
        obtain ⟨rfl, hx | hold⟩ := g.writer u hl
        · exact fun hnone => hnew ⟨hx, rfl, rfl, hnone⟩
        · exact h.based u q hold
      · exact h.based u q ((helse u true hq).mp hl)

lemma release (h : Consistent imageSize L s) (hshared : ¬ s.locks.Holds t p true) :
    Consistent imageSize L { s with locks := s.locks.release t p } := by
  have hiff (u : τ) (q : π) (y : Bool) := release_holds (t := t) (q := p) (u := u) (p := q)
    (x := y) h.tight
  have hkept (u : τ) (q : π) (hl : s.locks.Holds u q true) :
      (s.locks.release t p).Holds u q true := by
    refine (hiff u q true).mpr ⟨?_, hl⟩
    rintro ⟨rfl, rfl⟩
    exact hshared hl
  refine ⟨h.tight.release t p, fun u q y hl => h.holders u q y ((hiff u q y).mp hl).2,
    fun u q hl => h.existing u q ((hiff u q true).mp hl).2, h.sound, h.known, h.unseen, h.images,
    fun q => ?_, fun u q b hb => ?_, fun u q hl => h.based u q ((hiff u q true).mp hl).2⟩
  · exact (h.page q).congr rfl rfl rfl rfl fun u data _ hl => ⟨hkept u q hl, rfl, fun _ => rfl⟩
  · obtain ⟨hl, hbase⟩ := h.base u q b hb
    exact ⟨hkept u q hl, hbase⟩

/-! ## Sections on one page -/

section

variable (h : Consistent imageSize L s)

include h

lemma onPage {disk : π → Option α} (hdisk : ∀ q, q ≠ p → disk q = s.disk q)
    (hpool : ∀ q, q ≠ p → pool.lookup q = s.pool.lookup q)
    (hexists : (s.disk p).isSome → (disk p).isSome)
    (hworking : ∀ q, q ≠ p → L'.working q = L.working q)
    (hsettled : ∀ q, q ≠ p → L'.settled q = L.settled q) (hbase : L'.base = L.base)
    (hown : ∀ u, L.own u p ≠ none → L'.own u p ≠ none)
    (hbased : ∀ u b, L.base u p = some b → L'.settled p = L.settled p)
    (hpage : PageOk imageSize L' { s with disk := disk, pool := pool } p) :
    Consistent imageSize L' { s with disk := disk, pool := pool } := by
  refine ⟨h.tight, h.holders, fun u q hl => ?_, h.sound, h.known, h.unseen, fun u q hu hne => ?_,
    fun q => ?_, fun u q b hb => ?_, fun u q hl => hbase ▸ h.based u q hl⟩
  · by_cases hq : q = p
    · exact hq ▸ hexists (hq ▸ h.existing u q hl)
    · simpa [hdisk q hq] using h.existing u q hl
  · have hold := h.images u q hu hne
    by_cases hq : q = p
    · subst hq
      exact hown u hold
    · rwa [own, hworking q hq]
  · by_cases hq : q = p
    · exact hq ▸ hpage
    · exact (h.page q).congr (hworking q hq) (hsettled q hq) (hdisk q hq) (hpool q hq)
        fun u data _ hl => ⟨hl, rfl, fun _ => rfl⟩
  · rw [hbase] at hb
    obtain ⟨hl, hb1⟩ := h.base u q b hb
    refine ⟨hl, hb1.trans ?_⟩
    by_cases hq : q = p
    · subst hq
      exact (hbased u b hb).symm
    · exact (hsettled q hq).symm

lemma onPool (hpool : ∀ q, q ≠ p → pool.lookup q = s.pool.lookup q)
    (hpage : PageOk imageSize L { s with pool := pool } p) :
    Consistent imageSize L { s with pool := pool } :=
  h.onPage (fun _ _ => rfl) hpool id (fun _ _ => rfl) (fun _ _ => rfl) rfl
    (fun _ => id) (fun _ _ _ => rfl) hpage

lemma fetch (hrun : s.phase t = .running) (hlock : s.locks.Holds t p x) (hc : s.page p = some c) :
    Consistent imageSize L { s with pool := s.pool.insert p c } := by
  refine h.onPool (p := p) (fun q hq => lookup_insert_ne hq) ?_
  cases hmiss : s.pool.lookup p with
  | some c' =>
    obtain rfl := some.inj ((page_of_lookup hmiss).symm.trans hc)
    refine (h.page p).congr rfl rfl rfl ?_ fun u data _ hl => ⟨hl, rfl, fun _ => rfl⟩
    rw [hmiss]
    exact lookup_insert _
  | none =>
    rw [page_of_miss hmiss] at hc
    obtain ⟨d, hd, rfl⟩ := map_eq_some_iff.mp hc
    have hnew : (s.pool.insert p (CachedPage.read d)).lookup p = some (.read d) :=
      lookup_insert _
    cases h.page p with
    | rest hw hdisk hpool =>
      refine .rest hw hdisk fun c hc => ?_
      obtain rfl := some.inj (hnew.symm.trans hc)
      exact ⟨hdisk.symm.trans hd, rfl⟩
    | edited u data b hw hwr hs hph hedit =>
      refine .edited u data b hw hwr hs hph ?_
      cases hedit with
      | unlogged _ _ hpool => simp [hmiss] at hpool
      | logged hroll hdisk hdata hpool =>
        refine .logged hroll hdisk ?_ fun c hc => ?_
        · rw [contents_of_miss hmiss, hd] at hdata
          rw [← hdata]
          rw [Storage.contents, Storage.page, hnew]
          rfl
        · obtain rfl := some.inj (hnew.symm.trans hc)
          exact .inr ⟨rfl, hd⟩
    | undone u data b hw hwr hs hph hdisk hpool =>
      obtain rfl := h.tight.unique hwr hlock
      simp [hrun] at hph

lemma evict (hc : s.pool.lookup p = some c)
    (hclean : c.dirty = none) : Consistent imageSize L { s with pool := s.pool.erase p } := by
  refine h.onPool (p := p) (fun q hq => lookup_erase_ne hq) ?_
  have hnew : (s.pool.erase p).lookup p = none := lookup_erase _ _
  cases h.page p with
  | rest hw hdisk hpool => exact .rest hw hdisk fun c hc => by simp [hnew] at hc
  | edited u data b hw hwr hs hph hedit =>
    refine .edited u data b hw hwr hs hph ?_
    cases hedit with
    | unlogged _ _ hpool =>
      obtain rfl := some.inj (hc.symm.trans hpool)
      simp at hclean
    | logged hroll hdisk hdata hpool =>
      refine .logged hroll hdisk ?_ fun c hc => by simp [hnew] at hc
      -- a clean page has been flushed
      obtain hdirty | ⟨-, hflushed⟩ := hpool c hc
      · simp [hclean] at hdirty
      · rw [contents_of_lookup hc, ← hflushed] at hdata
        rw [← hdata]
        exact contents_of_miss hnew
  | undone u data b hw hwr hs hph hdisk hpool =>
    have hdirty := hpool c hc
    simp [hclean] at hdirty

lemma page_settled (hw : L.working p = none)
    (hc : s.page p = some c) : L.settled p = some c.data ∧ c = .read c.data := by
  cases h.page p with
  | rest _ hdisk hpool =>
    cases hmiss : s.pool.lookup p with
    | some c' =>
      obtain rfl := some.inj ((page_of_lookup hmiss).symm.trans hc)
      exact hpool _ hmiss
    | none =>
      rw [page_of_miss hmiss] at hc
      obtain ⟨d, hd, rfl⟩ := map_eq_some_iff.mp hc
      exact ⟨hdisk.symm.trans hd, rfl⟩
  | edited u d b hw' => simp [hw] at hw'
  | undone u d b hw' => simp [hw] at hw'

lemma edit (blank : α)
    (hrun : s.phase t = .running) (hlock : s.locks.Holds t p true) (hc : s.page p = some c) :
    Consistent imageSize (L.apply blank (.edit t p data))
      { s with pool := s.pool.insert p { c with data := data, dirty := some t } } := by
  have hnew : (s.pool.insert p { c with data := data, dirty := some t }).lookup p =
      some { c with data := data, dirty := some t } := lookup_insert _
  have hworking : (L.apply blank (.edit t p data)).working p = some (t, data) :=
    update_self ..
  refine h.onPage (p := p) (fun _ _ => rfl) (fun q hq => lookup_insert_ne hq) id
    (fun q hq => update_of_ne hq ..) (fun _ _ => rfl) rfl (fun u hu => ?_)
    (fun _ _ _ => rfl) ?_
  · obtain ⟨d, hd⟩ := ne_none_iff_exists'.mp hu
    obtain rfl := h.tight.unique hlock ((h.page p).writer (own_eq_some.mp hd))
    rw [own_eq_some.mpr hworking]
    simp
  · cases h.page p with
    | rest hw hdisk hpool =>
      have hnone : s.journal.rollback (size imageSize) t p = none := by
        by_contra hne
        exact h.images t p hrun hne (own_of_none hw)
      obtain ⟨hb, hold⟩ := h.page_settled hw hc
      refine .edited t data c.data hworking hlock hb hrun (.unlogged hnone (hdisk.trans hb) ?_)
      rw [hold] at hnew ⊢
      exact hnew
    | edited u d b hw hwr hs hph hedit =>
      obtain rfl := h.tight.unique hwr hlock
      refine .edited t data b hworking hlock hs hrun ?_
      cases hedit with
      | unlogged hroll hdisk hpool =>
        obtain rfl := some.inj ((page_of_lookup hpool).symm.trans hc)
        exact .unlogged hroll hdisk hnew
      | logged hroll hdisk hdata hpool =>
        refine .logged hroll hdisk ?_ fun c' hc' => ?_
        · rw [Storage.contents, Storage.page, hnew, map_some]
        · obtain rfl := some.inj (hnew.symm.trans hc')
          exact .inl rfl
    | undone u d b hw hwr hs hph hdisk hpool =>
      obtain rfl := h.tight.unique hwr hlock
      simp [hrun] at hph

lemma editor (hc : s.pool.lookup p = some c)
    (hdirty : c.dirty = some t) : ∃ data b, L.working p = some (t, data) ∧
      s.locks.Holds t p true ∧ L.settled p = some b ∧ (s.phase t = .rolledBack ∨
        (s.phase t = .running ∧ c.data = data ∧ Edited imageSize s t p b data)) := by
  cases h.page p with
  | rest hw hdisk hpool =>
    obtain ⟨-, hread⟩ := hpool c hc
    rw [hread] at hdirty
    cases hdirty
  | edited u data b hw hwr hs hph hedit =>
    obtain ⟨rfl, hdata⟩ : u = t ∧ c.data = data := by
      cases hedit with
      | unlogged _ _ hpool =>
        obtain rfl := some.inj (hc.symm.trans hpool)
        exact ⟨some.inj hdirty, rfl⟩
      | logged _ _ hdata hpool =>
        refine ⟨?_, some.inj ((contents_of_lookup hc).symm.trans hdata)⟩
        rcases hpool c hc with hu | ⟨hnone, -⟩
        · exact some.inj (hu.symm.trans hdirty)
        · simp [hnone] at hdirty
    exact ⟨data, b, hw, hwr, hs, .inr ⟨hph, hdata, hedit⟩⟩
  | undone u data b hw hwr hs hph hdisk hpool =>
    obtain rfl := some.inj ((hpool c hc).symm.trans hdirty)
    exact ⟨data, b, hw, hwr, hs, .inl hph⟩

lemma flushDirty
    (hc : s.pool.lookup p = some c) (hdirty : c.dirty = some t) (hrun : s.phase t ≠ .rolledBack) :
    Consistent imageSize L { s with
      journal := s.journal.logWrite t ⟨p, c.oldData⟩ ⟨p, c.data⟩
      disk := Function.update s.disk p (some c.data)
      pool := s.pool.insert p { c with dirty := none } } := by
  obtain ⟨data, b, hw, hwr, hs, hrolled | ⟨hph, hdata, hedit⟩⟩ := h.editor hc hdirty
  · exact absurd hrolled hrun
  have hkeeps := logWrite_keeps h.sound t ⟨p, c.oldData⟩ ⟨p, c.data⟩
  have hfirst : (s.journal.logWrite t ⟨p, c.oldData⟩ ⟨p, c.data⟩).tidToFirstLogRecord =
      s.journal.tidToFirstLogRecord := by simp [Journal.logWrite, Journal.append]
  have hroll (u : τ) (q : π) (hu : s.phase u = .running) :
      (s.journal.logWrite t ⟨p, c.oldData⟩ ⟨p, c.data⟩).rollback (size imageSize) u q =
        (s.journal.rollback (size imageSize) u q).or
          (if t = u ∧ p = q then some c.oldData else none) :=
    hkeeps.rollback u (h.known u hu) (hfirst ▸ h.known u hu) q
  have hnew : (s.pool.insert p { c with dirty := none }).lookup p =
      some { c with dirty := none } := lookup_insert _
  refine ⟨h.tight, h.holders, fun u q hl => ?_, hkeeps.sound, fun u hu => hfirst ▸ h.known u hu,
    fun u hu => ?_, fun u q hu hne => ?_, fun q => ?_, h.base, h.based⟩
  · by_cases hq : q = p
    · simp [hq]
    · simpa [hq] using h.existing u q hl
  · exact (h.unseen u hu).append (r := .update t ⟨p, c.oldData⟩ ⟨p, c.data⟩)
      (by simp [Journal.logWrite, Journal.append]) rfl (by simp) (by simp [hfirst])
  · by_cases hpage : t = u ∧ p = q
    · obtain ⟨rfl, rfl⟩ := hpage
      rw [own_eq_some.mpr hw]
      simp
    · refine h.images u q hu ?_
      have heq := hroll u q hu
      rw [if_neg hpage, or_none] at heq
      exact heq ▸ hne
  · by_cases hq : q = p
    · subst hq
      refine .edited t data b hw hwr hs hph (.logged ?_ (by simp) ?_ fun c' hc' => ?_)
      · rw [hroll t q hph, if_pos ⟨rfl, rfl⟩]
        cases hedit with
        | unlogged hnone _ hpool =>
          obtain rfl : c = ⟨data, b, some t⟩ := some.inj (hc.symm.trans hpool)
          rw [hnone, none_or]
        | logged hsome _ _ _ => rw [hsome, some_or]
      · rw [Storage.contents, Storage.page, hnew, map_some, hdata]
      · obtain rfl := some.inj (hnew.symm.trans hc')
        exact .inr ⟨rfl, update_self ..⟩
    · refine (h.page q).congr rfl rfl (update_of_ne hq ..) (lookup_insert_ne hq)
        fun u data _ hl => ⟨hl, rfl, fun hu => ?_⟩
      rw [hroll u q hu, if_neg fun hand => hq hand.2.symm, or_none]

lemma flush (hrun : ∀ c t, s.pool.lookup p = some c → c.dirty = some t → s.phase t ≠ .rolledBack) :
    Consistent imageSize L (s.flushPage p) := by
  unfold Storage.flushPage
  cases hc : s.pool.lookup p with
  | none => exact h
  | some c =>
    cases hdirty : c.dirty with
    | none => simpa only [hdirty] using h
    | some t =>
      simp only [hdirty]
      exact h.flushDirty hc hdirty (hrun c t hc hdirty)

lemma append (blank : α) (hnew : s.disk p = none) :
    Consistent imageSize (L.apply blank (.append t p))
      { s with disk := Function.update s.disk p (some blank) } := by
  have hdisk' : Function.update s.disk p (some blank) p = some blank := update_self ..
  have hsettled' : (L.apply blank (.append t p)).settled p = some blank := update_self ..
  refine h.onPage (p := p) (fun q hq => update_of_ne hq ..) (fun _ _ => rfl)
    (fun _ => by simp) (fun _ _ => rfl) (fun q hq => update_of_ne hq ..) rfl (fun _ => id)
    (fun u b hb => ?_) ?_
  · have hexists := h.existing u p (h.base u p b hb).1
    simp [hnew] at hexists
  · cases h.page p with
    | rest hw hdisk hpool =>
      refine .rest hw (hdisk'.trans hsettled'.symm) fun c hc => ?_
      have hsome := (hpool c hc).1
      rw [← hdisk, hnew] at hsome
      cases hsome
    | edited u data b hw hwr hs hph hedit =>
      have hexists := h.existing u p hwr
      simp [hnew] at hexists
    | undone u data b hw hwr hs hph hdisk hpool => simp [hnew] at hdisk

end

/-! ## The end of a transaction -/

section

variable (h : Consistent imageSize L s)

include h

lemma own_eq_none_of_holds (hl : s.locks.Holds u p x) (hut : u ≠ t) : L.own t p = none := by
  by_contra hne
  obtain ⟨d, hd⟩ := ne_none_iff_exists'.mp hne
  exact hut (h.tight.unique ((h.page p).writer (own_eq_some.mp hd)) hl)

lemma finish (hdone : phase ≠ .running ∧ phase ≠ .idle)
    (hworking : L'.working = (L.without t).working) (hbase : L'.base = (L.without t).base)
    (hsettled : ∀ p, L.own t p = none → L'.settled p = L.settled p)
    (hpage : ∀ p, PageOk imageSize L' { s.moved t phase with
      pool := pool, locks := s.locks.releaseAll t } p) :
    Consistent imageSize L' { s.moved t phase with
      pool := pool, locks := s.locks.releaseAll t } := by
  have hbase' (u : τ) (hut : u ≠ t) : L'.base u = L.base u := by
    rw [hbase]
    exact update_of_ne hut ..
  have hrunning (u : τ) (hu : (s.moved t phase).phase u = .running) :
      u ≠ t ∧ s.phase u = .running := by
    have hut : u ≠ t := by
      rintro rfl
      exact hdone.1 (by simpa using hu)
    exact ⟨hut, s.moved_phase_of_ne hut phase ▸ hu⟩
  refine ⟨h.tight.releaseAll t, fun u p x hl => ?_, fun u p hl => ?_, h.sound,
    fun u hu => h.known u (hrunning u hu).2, fun u hu => ?_, fun u p hu hne => ?_, hpage,
    fun u p b hb => ?_, fun u p hl => ?_⟩
  · obtain ⟨hut, hl⟩ := releaseAll_holds.mp hl
    show (s.moved t phase).phase u = _ ∨ (s.moved t phase).phase u = _
    rw [s.moved_phase_of_ne hut]
    exact h.holders u p x hl
  · exact h.existing u p (releaseAll_holds.mp hl).2
  · have hut : u ≠ t := by
      rintro rfl
      exact hdone.2 (by simpa using hu)
    exact h.unseen u (s.moved_phase_of_ne hut phase ▸ hu)
  · obtain ⟨hut, hu⟩ := hrunning u hu
    obtain ⟨d, hd⟩ := ne_none_iff_exists'.mp (h.images u p hu hne)
    have hw := own_eq_some.mp hd
    rw [own, hworking]
    simp [without, own_of_working hw hut, hw]
  · have hut : u ≠ t := by
      rintro rfl
      rw [hbase] at hb
      simp [without] at hb
    rw [hbase' u hut] at hb
    obtain ⟨hl, hb1⟩ := h.base u p b hb
    exact ⟨releaseAll_holds.mpr ⟨hut, hl⟩,
      hb1.trans (hsettled p (h.own_eq_none_of_holds hl hut)).symm⟩
  · obtain ⟨hut, hl⟩ := releaseAll_holds.mp hl
    rw [hbase' u hut]
    exact h.based u p hl

lemma not_held (hw : L.working p = some (u, data)) (hut : u ≠ t) :
    s.locks.holdsLock t p = false := by
  rw [← Bool.not_eq_true, holdsLock_iff]
  rintro ⟨x, hl⟩
  exact hut (h.tight.unique ((h.page p).writer hw) hl).symm

lemma page_of_other (hw : L.working p = some (u, data)) (hut : u ≠ t)
    (hworking : L'.working = (L.without t).working) (hsettled : L'.settled p = L.settled p)
    (hpool : s.locks.holdsLock t p = false → pool.lookup p = s.pool.lookup p) :
    PageOk imageSize L' { s.moved t phase with
      pool := pool, locks := s.locks.releaseAll t } p := by
  have hfree := h.not_held hw hut
  have hw' : L'.working p = L.working p := by
    rw [hworking]
    simp [without, own_of_working hw hut]
  refine (h.page p).congr hw' hsettled rfl (hpool hfree) fun v d hv hl => ?_
  obtain ⟨rfl, -⟩ := Prod.mk.inj (some.inj (hw.symm.trans hv))
  exact ⟨releaseAll_holds.mpr ⟨hut, hl⟩, s.moved_phase_of_ne hut phase, fun _ => rfl⟩

lemma flushed_of_clean (hrun : s.phase t = .running)
    (hw : L.working p = some (t, data)) (hclean : s.clean (fun u => u = t) = true) :
    s.disk p = some data ∧ ∀ c, s.pool.lookup p = some c → c.data = data ∧ c.dirty = none := by
  have hnot (c : CachedPage τ α) (hc : s.pool.lookup p = some c) : c.dirty ≠ some t :=
    not_dirty_of_clean hclean hc (by simp)
  cases h.page p with
  | rest hw' => simp [hw] at hw'
  | undone u d b hw' _ _ hph =>
    obtain ⟨rfl, rfl⟩ := Prod.mk.inj (some.inj (hw.symm.trans hw'))
    simp [hrun] at hph
  | edited u d b hw' _ _ _ hedit =>
    obtain ⟨rfl, rfl⟩ := Prod.mk.inj (some.inj (hw.symm.trans hw'))
    cases hedit with
    | unlogged _ _ hpool => exact absurd rfl (hnot _ hpool)
    | logged _ _ hdata hpool =>
      have hcached (c : CachedPage τ α) (hc : s.pool.lookup p = some c) :
          c.data = data ∧ c.dirty = none ∧ s.disk p = some c.data := by
        refine ⟨some.inj ((contents_of_lookup hc).symm.trans hdata), ?_⟩
        exact (hpool c hc).resolve_left (hnot c hc)
      refine ⟨?_, fun c hc => ⟨(hcached c hc).1, (hcached c hc).2.1⟩⟩
      cases hc : s.pool.lookup p with
      | none => rw [← contents_of_miss hc, hdata]
      | some c =>
        obtain ⟨hd, -, hdisk⟩ := hcached c hc
        rw [hdisk, hd]

lemma complete (blank : α) (hrun : s.phase t = .running)
    (hclean : s.clean (fun u => u = t) = true) :
    Consistent imageSize (L.apply blank (.complete t)) { s.moved t .flushed with
      pool := setBeforeImages s.pool (s.pagesHeldBy t)
      locks := s.locks.releaseAll t } := by
  have hpool (p : π) : (setBeforeImages s.pool (s.pagesHeldBy t)).lookup p =
      if s.locks.holdsLock t p = true then (s.pool.lookup p).map CachedPage.setBeforeImage
      else s.pool.lookup p := lookup_setBefore_filter s.pool p (s.locks.holdsLock t)
  have hsettled (p : π) : (L.apply blank (.complete t)).settled p =
      (L.own t p).or (L.settled p) := rfl
  refine h.finish ⟨by simp, by simp⟩ rfl rfl (fun p hnone => by rw [hsettled, hnone, none_or])
    fun p => ?_
  cases hp : L.working p with
  | none =>
    have hown : L.own t p = none := own_of_none hp
    cases h.page p with
    | rest hw hdisk hold =>
      refine .rest ?_ ?_ fun c hc => ?_
      · show (L.without t).working p = none
        simp [without, hown, hp]
      · rw [hsettled, hown, none_or]
        exact hdisk
      · rw [hsettled, hown, none_or]
        -- a clean page is its own image
        have hold' : s.pool.lookup p = some c := by
          have hc : (setBeforeImages s.pool (s.pagesHeldBy t)).lookup p = some c := hc
          rw [hpool] at hc
          split_ifs at hc with hheld
          · obtain ⟨c₀, hc₀, rfl⟩ := map_eq_some_iff.mp hc
            rw [hc₀, (hold c₀ hc₀).2]
            rfl
          · exact hc
        exact hold c hold'
    | edited u d b hw => simp [hp] at hw
    | undone u d b hw => simp [hp] at hw
  | some w =>
    obtain ⟨u, d⟩ := w
    by_cases hut : u = t
    · subst hut
      obtain ⟨hdisk, hcached⟩ := h.flushed_of_clean hrun hp hclean
      have hown : L.own u p = some d := own_eq_some.mpr hp
      have hheld : s.locks.holdsLock u p = true :=
        holdsLock_iff.mpr ⟨true, (h.page p).writer hp⟩
      refine .rest ?_ ?_ fun c hc => ?_
      · show (L.without u).working p = none
        simp [without, hown]
      · rw [hsettled, hown]
        exact hdisk
      · have hc : (setBeforeImages s.pool (s.pagesHeldBy u)).lookup p = some c := hc
        rw [hpool, if_pos hheld] at hc
        obtain ⟨c₀, hc₀, rfl⟩ := map_eq_some_iff.mp hc
        obtain ⟨rfl, hdirty⟩ := hcached c₀ hc₀
        rw [hsettled, hown]
        exact ⟨rfl, by simp [CachedPage.setBeforeImage, CachedPage.read, hdirty]⟩
    · have hown : L.own t p = none := own_of_working hp hut
      refine h.page_of_other hp hut rfl (by rw [hsettled, hown, none_or]) fun hfree => ?_
      rw [hpool, if_neg (by simp [hfree])]

lemma discard (hrolled : s.phase t = .rolledBack) :
    Consistent imageSize (L.without t) { s.moved t .aborted with
      pool := discardPages s.pool (s.pagesHeldBy t)
      locks := s.locks.releaseAll t } := by
  have hpool (p : π) : (discardPages s.pool (s.pagesHeldBy t)).lookup p =
      if s.locks.holdsLock t p = true then none else s.pool.lookup p :=
    lookup_discard_filter s.pool p (s.locks.holdsLock t)
  refine h.finish ⟨by simp, by simp⟩ rfl rfl (fun _ _ => rfl) fun p => ?_
  cases h.page p with
  | rest hw hdisk hold =>
    refine .rest ?_ hdisk fun c hc => ?_
    · simp [without, own_of_none hw, hw]
    · have hc : (discardPages s.pool (s.pagesHeldBy t)).lookup p = some c := hc
      rw [hpool] at hc
      split_ifs at hc
      exact hold c hc
  | edited u d b hw hwr hs hph hedit =>
    have hut : u ≠ t := by
      rintro rfl
      simp [hrolled] at hph
    refine h.page_of_other hw hut rfl rfl fun hfree => ?_
    rw [hpool, if_neg (by simp [hfree])]
  | undone u d b hw hwr hs hph hdisk hold =>
    by_cases hut : u = t
    · subst hut
      have hheld : s.locks.holdsLock u p = true := holdsLock_iff.mpr ⟨true, hwr⟩
      refine .rest ?_ (hdisk.trans hs.symm) fun c hc => ?_
      · simp [without, own_eq_some.mpr hw]
      · have hc : (discardPages s.pool (s.pagesHeldBy u)).lookup p = some c := hc
        rw [hpool, if_pos hheld] at hc
        cases hc
    · refine h.page_of_other hw hut rfl rfl fun hfree => ?_
      rw [hpool, if_neg (by simp [hfree])]

lemma rollback_eq_none (hrun : s.phase t = .running)
    (hown : L.own t p = none) : s.journal.rollback (size imageSize) t p = none := by
  by_contra hne
  exact h.images t p hrun hne hown

lemma logAbort (hrun : s.phase t = .running) :
    Consistent imageSize L (s.rollBack (size imageSize) t) := by
  have hkeeps := logAbort_keeps h.sound t
  have hdisk (p : π) : (s.rollBack (size imageSize) t).disk p =
      (s.journal.rollback (size imageSize) t p).or (s.disk p) := rfl
  have hpool (p : π) : (s.rollBack (size imageSize) t).pool.lookup p =
      if (s.journal.rollback (size imageSize) t p).isSome = true then none
      else s.pool.lookup p := lookup_discard_filter s.pool p _
  have hother (u : τ) (hut : u ≠ t) :
      (s.rollBack (size imageSize) t).phase u = s.phase u :=
    s.moved_phase_of_ne hut .rolledBack
  have hself : (s.rollBack (size imageSize) t).phase t = .rolledBack :=
    s.moved_phase_self t .rolledBack
  have hknown (u : τ) (hut : u ≠ t) (hu : s.phase u = .running) :
      u ∈ (s.journal.logAbort t).tidToFirstLogRecord := by
    simp [Journal.logAbort, hut, h.known u hu]
  have hroll (u : τ) (hut : u ≠ t) (hu : s.phase u = .running) (p : π) :
      (s.journal.logAbort t).rollback (size imageSize) u p =
        s.journal.rollback (size imageSize) u p := by
    rw [hkeeps.rollback u (h.known u hu) (hknown u hut hu) p, or_none]
  have hne {u : τ} {phase : Phase} (hph : phase ≠ .rolledBack)
      (hu : (s.rollBack (size imageSize) t).phase u = phase) :
      u ≠ t ∧ s.phase u = phase := by
    have hut : u ≠ t := by
      rintro rfl
      exact hph (hu.symm.trans hself)
    exact ⟨hut, hother u hut ▸ hu⟩
  refine ⟨h.tight, fun u p x hl => ?_, fun u p hl => ?_, hkeeps.sound, fun u hu => ?_,
    fun u hu => ?_, fun u p hu himage => ?_, fun p => ?_, h.base, h.based⟩
  · by_cases hut : u = t
    · exact .inr (hut ▸ hself)
    · rw [hother u hut]
      exact h.holders u p x hl
  · rw [hdisk]
    have hexists := h.existing u p hl
    cases s.journal.rollback (size imageSize) t p <;> simp [hexists]
  · obtain ⟨hut, hu⟩ := hne (by simp) hu
    exact hknown u hut hu
  · obtain ⟨hut, hu⟩ := hne (by simp) hu
    exact (h.unseen u hu).append (r := .abort t) (by simp [Storage.rollBack, Journal.logAbort,
      Journal.append]) rfl (by simp) (by simp [Storage.rollBack, Journal.logAbort, hut])
  · obtain ⟨hut, hu⟩ := hne (by simp) hu
    exact h.images u p hu fun hnone => himage ((hroll u hut hu p).trans hnone)
  · -- the pages without an image are as they were
    have hsame (hnone : s.journal.rollback (size imageSize) t p = none) :
        (s.rollBack (size imageSize) t).disk p = s.disk p ∧
          (s.rollBack (size imageSize) t).pool.lookup p = s.pool.lookup p := by
      rw [hdisk, hpool, hnone]
      simp
    cases h.page p with
    | rest hw hdisk hold =>
      obtain ⟨hd, hl⟩ := hsame (h.rollback_eq_none hrun (own_of_none hw))
      exact .rest hw (hd.trans hdisk) fun c hc => hold c (hl ▸ hc)
    | edited u d b hw hwr hs hph hedit =>
      by_cases hut : u = t
      · subst hut
        cases hedit with
        | unlogged hnone hb hc =>
          obtain ⟨hd, hl⟩ := hsame hnone
          refine .undone u d b hw hwr hs hself (hd.trans hb) fun c hc' => ?_
          obtain rfl := some.inj ((hl.trans hc).symm.trans hc')
          rfl
        | logged hb _ _ _ =>
          refine .undone u d b hw hwr hs hself (by rw [hdisk, hb, some_or]) fun c hc => ?_
          rw [hpool, hb] at hc
          simp at hc
      · obtain ⟨hd, hl⟩ := hsame (h.rollback_eq_none hrun (own_of_working hw hut))
        exact .edited u d b hw hwr hs ((hother u hut).trans hph)
          (hedit.congr hd hl (hroll u hut hph p))
    | undone u d b hw hwr hs hph hb hold =>
      have hut : u ≠ t := by
        rintro rfl
        simp [hrun] at hph
      obtain ⟨hd, hl⟩ := hsame (h.rollback_eq_none hrun (own_of_working hw hut))
      exact .undone u d b hw hwr hs ((hother u hut).trans hph) (hd.trans hb)
        fun c hc => hold c (hl ▸ hc)

end

end Consistent

/-! ## Runs -/

/-- A page is not flushed for a transaction that has been rolled back and has not dropped its pages
yet. -/
def NoLateFlush (s : Storage τ π α) (p : π) : Prop :=
  ∀ c t, s.pool.lookup p = some c → c.dirty = some t → s.phase t ≠ .rolledBack

omit [DecidableEq τ] in
lemma noLateFlush_of_running
    (h : (s.pool.lookup p, s.phase t) = (some c, .running)) (hdirty : c.dirty = some t) :
    NoLateFlush s p := by
  obtain ⟨hc, hph⟩ := Prod.mk.inj h
  intro c' u hc' hu
  obtain rfl := some.inj (hc.symm.trans hc')
  obtain rfl := some.inj (hdirty.symm.trans hu)
  simp [hph]

def NoEarlyLock (before : List (StorageEvent τ π α)) (s : Storage τ π α)
    (e : StorageEvent τ π α) : Prop :=
  ∀ u p x, e = .lock u p x → ∀ t data, s.phase t = .flushed → .edit t p data ∉ before

theorem consistent_step (h : Consistent imageSize L s) (blank : α) {e : StorageEvent τ π α}
    (hflush : ∀ p, e = .flush p → NoLateFlush s p)
    (hdoes : s.Does (size imageSize) blank e s') :
    Consistent imageSize (L.apply blank e) s' := by
  cases hdoes with
  | start t hidle => exact h.start hidle
  | lock t p x hrun hexists hgrant => exact h.lock blank hrun hexists hgrant
  | release t p hrun hshared => exact h.release hshared
  | fetch t p x c hrun hlock hc => exact h.fetch hrun hlock hc
  | edit t p data c hrun hlock hc => exact h.edit blank hrun hlock hc
  | append t p hrun hnew => exact h.append blank hnew
  | evict p c hc hclean => exact h.evict hc hclean
  | flush p => exact h.flush (hflush p rfl)
  | checkpoint => exact h.checkpoint
  | truncate j hj => exact h.truncate hj
  | complete t hrun hclean => exact h.complete blank hrun hclean
  | logCommit t hflushed => exact h.logCommit hflushed blank
  | logAbort t hrun => exact h.logAbort hrun
  | discard t hrolled => exact h.discard hrolled

lemma consistent_init (pointer : ℤ) (log : List (LogRecord τ π α)) (blank : α)
    (disk : π → Option α) :
    Consistent imageSize (ofRun blank disk []) (Storage.init (openLog pointer log) disk) where
  tight := ⟨fun _ _ h => (by cases h), fun _ _ h _ => (by cases h)⟩
  holders _ _ _ := by
    rintro ⟨_, h, -⟩
    cases h
  existing _ _ := by
    rintro ⟨_, h, -⟩
    cases h
  sound := ⟨.inl (by simp [Storage.init, openLog, Journal.preAppend]),
    fun t ht => by simp [Storage.init, openLog] at ht⟩
  known _ h := by cases h
  unseen t _ :=
    ⟨by simp [Storage.init, openLog], by simp [Storage.init, openLog, Journal.preAppend]⟩
  images _ _ h := by cases h
  page p := .rest rfl rfl fun c hc => by simp [Storage.init] at hc
  base _ _ _ h := by cases h
  based _ _ := by
    rintro ⟨_, h, -⟩
    cases h

section Run

variable {blank : α} {pointer : ℤ} {log : List (LogRecord τ π α)} {disk : π → Option α}
  {evs : List (StorageEvent τ π α)}
  {C : List (StorageEvent τ π α) → Storage τ π α → StorageEvent τ π α → Prop}

/-- The run rule for what is kept beside consistency. -/
lemma consistent_run_and {J : List (StorageEvent τ π α) → Storage τ π α → Prop}
    (hinit : J [] (.init (openLog pointer log) disk))
    (hstep : ∀ evs s e s', Consistent imageSize (ofRun blank disk evs) s → J evs s →
      C evs s e → s.Does (size imageSize) blank e s' → J (evs ++ [e]) s')
    (hlate : ∀ before s e, C before s e → ∀ p, e = .flush p → NoLateFlush s p)
    (hC : EveryStep (Storage.step (size imageSize) blank) C
      (.init (openLog pointer log) disk) evs)
    (hrun : execAll (Storage.step (size imageSize) blank)
      (.init (openLog pointer log) disk) evs = some s) :
    Consistent imageSize (ofRun blank disk evs) s ∧ J evs s := by
  refine execAll_invariant
    (J := fun evs s => Consistent imageSize (ofRun blank disk evs) s ∧ J evs s)
    ⟨consistent_init pointer log blank disk, hinit⟩ (fun evs s e s' h hc he => ?_) hC hrun
  have hdoes := does_of_step he
  rw [ofRun_concat]
  exact ⟨consistent_step h.1 blank (hlate evs s e hc) hdoes, hstep evs s e s' h.1 h.2 hc hdoes⟩

/-- **The storage keeps to the ledger**, in every run without a late flush. -/
theorem consistent_run (hlate : ∀ before s e, C before s e → ∀ p, e = .flush p → NoLateFlush s p)
    (hC : EveryStep (Storage.step (size imageSize) blank) C
      (.init (openLog pointer log) disk) evs)
    (hrun : execAll (Storage.step (size imageSize) blank)
      (.init (openLog pointer log) disk) evs = some s) :
    Consistent imageSize (ofRun blank disk evs) s :=
  (consistent_run_and (J := fun _ _ => True) trivial
    (fun _ _ _ _ _ _ _ _ => trivial) hlate hC hrun).1

end Run

def runFromZero (evs : List (StorageEvent ℕ ℕ ℕ)) : Option (Storage ℕ ℕ ℕ) :=
  execAll (Storage.step (LogRecord.size fun _ => 10) 0)
    (.init (openLog (-1) []) fun _ => some 0) evs

end BallotBox.SimpleDb
