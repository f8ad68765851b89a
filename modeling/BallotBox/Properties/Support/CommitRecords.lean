import BallotBox.Properties.Support.Consistency

/-!
# Commit records

The ledger counts the work of a transaction when it gives up its locks, and again when its commit
record is written.  There is no other difference, if nobody locks a page before the commit record of
the transaction that changed it (`loggedOk_run`).
-/

namespace BallotBox.SimpleDb

open Option Ledger LockManager

variable {τ π α : Type} [DecidableEq τ] [DecidableEq π] {imageSize : Image π α → ℕ} {blank : α}
  {L L' : Ledger τ π α} {s s' : Storage τ π α} {t u : τ} {p : π}

def Awaiting (L : Ledger τ π α) (s : Storage τ π α) (p : π) : Prop :=
  ∃ t data, s.phase t = .flushed ∧ L.pending t p = some data ∧ L.settled p = some data ∧
    (∀ u, u ≠ t → L.pending u p = none) ∧ ∀ u x, ¬ s.locks.Holds u p x

/-- The content by commit records is that by locks, or the last commit record is still to come and
nobody has the page. -/
structure LoggedOk (L : Ledger τ π α) (s : Storage τ π α) : Prop where
  page : ∀ p, (L.logged p = L.settled p ∧ ∀ t, L.pending t p = none) ∨ Awaiting L s p
  base : ∀ t p b, L.base t p = some b → b.2 = b.1

omit [DecidableEq τ] [DecidableEq π] in
lemma LoggedOk.frame (h : LoggedOk L s) (hsettled : L'.settled = L.settled)
    (hlogged : L'.logged = L.logged) (hpending : L'.pending = L.pending)
    (hbase : ∀ t p b, L'.base t p = some b → L.base t p = some b)
    (hholds : ∀ t p x, s'.locks.Holds t p x → s.locks.Holds t p x)
    (hphase : ∀ t, s.phase t = .flushed → s'.phase t = .flushed) : LoggedOk L' s' := by
  refine ⟨fun p => ?_, fun t p b hb => h.base t p b (hbase t p b hb)⟩
  rw [hsettled, hlogged, hpending]
  obtain hdone | ⟨t, data, hph, hp, hs, hother, hfree⟩ := h.page p
  · exact .inl hdone
  · refine .inr ⟨t, data, hphase t hph, by rw [hpending, hp], by rw [hsettled, hs], ?_, ?_⟩
    · rwa [hpending]
    · exact fun u x hl => hfree u x (hholds u p x hl)

omit [DecidableEq τ] [DecidableEq π] in
lemma LoggedOk.of_holds (h : LoggedOk L s) {x : Bool} (hl : s.locks.Holds t p x) :
    L.logged p = L.settled p ∧ ∀ u, L.pending u p = none := by
  obtain hdone | ⟨_, _, _, _, _, _, hfree⟩ := h.page p
  · exact hdone
  · exact absurd hl (hfree t x)

lemma loggedOk_step (h : Consistent imageSize L s) (hl : LoggedOk L s) {e : StorageEvent τ π α}
    (hearly : ∀ u p x, e = .lock u p x → ∀ t, s.phase t = .flushed → L.pending t p = none)
    (hdoes : s.Does (LogRecord.size imageSize) blank e s') : LoggedOk (L.apply blank e) s' := by
  cases hdoes with
  | start t hidle =>
    refine hl.frame rfl rfl rfl (fun _ _ _ => id) (fun _ _ _ => id) fun u hu => ?_
    refine (s.moved_phase_of_ne ?_ .running).trans hu
    rintro rfl
    simp [hidle] at hu
  | lock t p x hrun hexists hgrant =>
    have g := granted_tryAcquire h.tight hgrant
    -- nobody's commit record is awaited for a page that can be locked
    have hp : L.logged p = L.settled p ∧ ∀ u, L.pending u p = none := by
      obtain hdone | ⟨u, data, hph, hpending, -⟩ := hl.page p
      · exact hdone
      · simp [hearly t p x rfl u hph] at hpending
    refine ⟨fun q => ?_, fun u q b hb => ?_⟩
    · rw [lock_settled, lock_logged, lock_pending]
      by_cases hq : q = p
      · exact .inl (hq ▸ hp)
      · obtain hdone | ⟨u, data, hph, hpending, hsettled, hother, hfree⟩ := hl.page q
        · exact .inl hdone
        · refine .inr ⟨u, data, hph, by rwa [lock_pending], by rwa [lock_settled],
            by rwa [lock_pending], fun v y hv => hfree v y ?_⟩
          rwa [LockManager.Holds, g.elsewhere q hq] at hv
    · rw [lock_base] at hb
      split_ifs at hb with hnew
      · obtain rfl := some.inj hb
        exact hp.1
      · exact hl.base u q b hb
  | release t p hrun hshared =>
    refine hl.frame rfl rfl rfl (fun _ _ _ => id) (fun u q x hu => ?_) fun _ => id
    exact ((release_holds h.tight).mp hu).2
  | fetch t p x c hrun hlock hc => exact ⟨hl.page, hl.base⟩
  | edit t p data c hrun hlock hc => exact ⟨hl.page, hl.base⟩
  | append t p hrun hnew =>
    refine ⟨fun q => ?_, hl.base⟩
    by_cases hq : q = p
    · subst hq
      obtain ⟨-, hnone⟩ | ⟨u, data, -, -, hsettled, -, hfree⟩ := hl.page q
      · exact .inl ⟨by simp [Ledger.apply], hnone⟩
      · -- a page with content is on the disk
        cases h.page q with
        | rest _ hdisk _ => simp [hnew, hsettled] at hdisk
        | edited v d b _ hwr => exact absurd hwr (hfree v true)
        | undone v d b _ hwr => exact absurd hwr (hfree v true)
    · have hs : (L.apply blank (.append t p)).settled q = L.settled q := Function.update_of_ne hq ..
      have hg : (L.apply blank (.append t p)).logged q = L.logged q := Function.update_of_ne hq ..
      rw [hs, hg]
      obtain hdone | ⟨u, data, hph, hpending, hsettled, hrest⟩ := hl.page q
      · exact .inl hdone
      · exact .inr ⟨u, data, hph, hpending, hs.trans hsettled, hrest⟩
  | evict p c hc hclean => exact ⟨hl.page, hl.base⟩
  | flush p =>
    refine hl.frame rfl rfl rfl (fun _ _ _ => id) (fun u q x hu => ?_) fun u hu => ?_
    · rwa [Storage.flushPage_locks] at hu
    · rwa [Storage.flushPage_phase]
  | checkpoint => exact ⟨hl.page, hl.base⟩
  | truncate j hj => exact ⟨hl.page, hl.base⟩
  | complete t hrun hclean =>
    refine ⟨fun p => ?_, fun u p b hb => hl.base u p b (without_base hb)⟩
    have hself : (L.apply blank (.complete t)).pending t p = L.own t p := by simp [Ledger.apply]
    have hother (u : τ) (hut : u ≠ t) :
        (L.apply blank (.complete t)).pending u p = L.pending u p := by
      simp [Ledger.apply, Ledger.without, hut]
    have hsettled : (L.apply blank (.complete t)).settled p = (L.own t p).or (L.settled p) := rfl
    cases hown : L.own t p with
    | some d =>
      have hwr := (h.page p).writer (own_eq_some.mp hown)
      obtain ⟨-, hnone⟩ := hl.of_holds hwr
      refine .inr ⟨t, d, s.moved_phase_self t .flushed, hself.trans hown,
        by rw [hsettled, hown]; rfl,
        fun u hut => (hother u hut).trans (hnone u), fun u x hu => ?_⟩
      obtain ⟨hut, hu⟩ := releaseAll_holds.mp hu
      exact hut (h.tight.unique hwr hu)
    | none =>
      rw [hown, none_or] at hsettled
      have hpending (u : τ) (hu : L.pending u p = none) :
          (L.apply blank (.complete t)).pending u p = none := by
        by_cases hut : u = t
        · rw [hut, hself, hown]
        · rw [hother u hut, hu]
      obtain ⟨hlogged, hnone⟩ | ⟨u, d, hph, hp, hs, hrest, hfree⟩ := hl.page p
      · exact .inl ⟨hlogged.trans hsettled.symm, fun u => hpending u (hnone u)⟩
      · have hut : u ≠ t := by
          rintro rfl
          simp [hrun] at hph
        exact .inr ⟨u, d, (s.moved_phase_of_ne hut .flushed).trans hph, (hother u hut).trans hp,
          hsettled.trans hs, fun v hv => hpending v (hrest v hv),
          fun v x hv => hfree v x (releaseAll_holds.mp hv).2⟩
  | logCommit t hflushed =>
    refine ⟨fun p => ?_, hl.base⟩
    have hself : (L.apply blank (.logCommit t)).pending t p = none := by simp [Ledger.apply]
    have hother (u : τ) (hut : u ≠ t) :
        (L.apply blank (.logCommit t)).pending u p = L.pending u p := by
      simp [Ledger.apply, hut]
    have hlogged : (L.apply blank (.logCommit t)).logged p = (L.pending t p).or (L.logged p) := rfl
    obtain ⟨hg, hnone⟩ | ⟨u, d, hph, hp, hs, hrest, hfree⟩ := hl.page p
    · rw [hnone t, none_or] at hlogged
      refine .inl ⟨hlogged.trans hg, fun u => ?_⟩
      by_cases hut : u = t
      · rw [hut, hself]
      · rw [hother u hut, hnone u]
    · by_cases hut : u = t
      · subst hut
        rw [hp, some_or] at hlogged
        refine .inl ⟨hlogged.trans hs.symm, fun v => ?_⟩
        by_cases hvu : v = u
        · rw [hvu, hself]
        · rw [hother v hvu, hrest v hvu]
      · refine .inr ⟨u, d, (s.moved_phase_of_ne hut .committed).trans hph,
          (hother u hut).trans hp, hs,
          fun v hv => ?_, hfree⟩
        by_cases hvt : v = t
        · rw [hvt, hself]
        · rw [hother v hvt, hrest v hv]
  | logAbort t hrun =>
    refine hl.frame rfl rfl rfl (fun _ _ _ => id) (fun _ _ _ => id) fun u hu => ?_
    refine (s.moved_phase_of_ne ?_ .rolledBack).trans hu
    rintro rfl
    simp [hrun] at hu
  | discard t hrolled =>
    refine hl.frame rfl rfl rfl (fun _ _ _ => without_base)
      (fun _ _ _ hu => (releaseAll_holds.mp hu).2) fun u hu => ?_
    refine (s.moved_phase_of_ne ?_ .aborted).trans hu
    rintro rfl
    simp [hrolled] at hu

section Run

variable {pointer : ℤ} {log : List (LogRecord τ π α)} {disk : π → Option α}
  {evs : List (StorageEvent τ π α)}
  {C : List (StorageEvent τ π α) → Storage τ π α → StorageEvent τ π α → Prop}

lemma loggedOk_run (hlate : ∀ before s e, C before s e → ∀ p, e = .flush p → NoLateFlush s p)
    (hC : EveryStep (Storage.step (LogRecord.size imageSize) blank) C
      (.init (openLog pointer log) disk) evs)
    (hearly : EveryStep (Storage.step (LogRecord.size imageSize) blank) NoEarlyLock
      (.init (openLog pointer log) disk) evs)
    (hrun : execAll (Storage.step (LogRecord.size imageSize) blank)
      (.init (openLog pointer log) disk) evs = some s) :
    LoggedOk (Ledger.ofRun blank disk evs) s := by
  refine (consistent_run_and (J := fun evs s => LoggedOk (Ledger.ofRun blank disk evs) s)
    ⟨fun p => .inl ⟨rfl, fun _ => rfl⟩, fun t p b h => by cases h⟩
    (fun evs s e s' h hl hc hdoes => ?_) (fun evs s e hc => hlate evs s e hc.1)
      (hC.and hearly) hrun).2
  rw [ofRun_concat]
  refine loggedOk_step h hl (fun u p x he t ht => ?_) hdoes
  by_contra hne
  obtain ⟨data, hdata⟩ := ne_none_iff_exists'.mp hne
  exact hc.2 u p x he t data ht ((edit_mem_of_ofRun disk evs).2 t p data hdata)

end Run

end BallotBox.SimpleDb
