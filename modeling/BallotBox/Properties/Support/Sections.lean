import BallotBox.Construction.Storage
import BallotBox.Properties.Locking

/-!
# The sections of the storage

`Storage.Does` says of each section when it can run and what it does; everything about runs is
proved by cases on it.  Before it comes what `getPage` finds after the operations of the pool.
-/

namespace BallotBox.SimpleDb

open Storage Option LockManager AList

section Pool

variable {τ π α : Type} [DecidableEq π]

/-! ## The pool -/

section

variable (pool : AList fun _ : π => CachedPage τ α) (p : π)

lemma lookup_discardPages (pages : List π) :
    (discardPages pool pages).lookup p = if p ∈ pages then none else pool.lookup p := by
  induction pages generalizing pool with
  | nil => simp [discardPages]
  | cons q pages ih =>
    rw [discardPages, List.foldl_cons]
    refine (ih (pool.erase q)).trans ?_
    by_cases hpq : p = q
    · subst hpq
      simp
    · simp [hpq, lookup_erase_ne hpq]

lemma lookup_setBeforeImageOf (q : π) :
    (setBeforeImageOf pool q).lookup p =
      if p = q then (pool.lookup p).map CachedPage.setBeforeImage else pool.lookup p := by
  unfold setBeforeImageOf
  by_cases hpq : p = q
  · subst hpq
    cases hp : pool.lookup p <;> simp [hp]
  · cases pool.lookup q <;> simp [hpq, lookup_insert_ne hpq]

lemma lookup_setBeforeImages (pages : List π) :
    (setBeforeImages pool pages).lookup p =
      if p ∈ pages then (pool.lookup p).map CachedPage.setBeforeImage else pool.lookup p := by
  induction pages generalizing pool with
  | nil => simp [setBeforeImages]
  | cons q pages ih =>
    rw [setBeforeImages, List.foldl_cons]
    refine (ih (setBeforeImageOf pool q)).trans ?_
    rw [lookup_setBeforeImageOf]
    by_cases hpq : p = q
    · subst hpq
      -- setting the image twice is setting it once
      cases pool.lookup p <;> simp [CachedPage.setBeforeImage]
    · simp [hpq]

lemma lookup_discard_filter (f : π → Bool) :
    (discardPages pool (pool.keys.filter f)).lookup p =
      if f p = true then none else pool.lookup p := by
  rw [lookup_discardPages]
  by_cases hmem : p ∈ pool.keys
  · simp [hmem]
  · simp [hmem, lookup_eq_none.mpr hmem]

lemma lookup_setBefore_filter (f : π → Bool) :
    (setBeforeImages pool (pool.keys.filter f)).lookup p =
      if f p = true then (pool.lookup p).map CachedPage.setBeforeImage else pool.lookup p := by
  rw [lookup_setBeforeImages]
  by_cases hmem : p ∈ pool.keys
  · simp [hmem]
  · simp [hmem, lookup_eq_none.mpr hmem]

end

lemma Storage.not_dirty_of_clean {s : Storage τ π α} {who : τ → Bool} (h : s.clean who = true)
    {p : π} {c : CachedPage τ α} (hc : s.pool.lookup p = some c) {t : τ} (ht : who t = true) :
    c.dirty ≠ some t := by
  intro hdirty
  rw [clean, List.all_eq_true] at h
  have hentry := h ⟨p, c⟩ (mem_lookup_iff.mp hc)
  simp [hdirty, ht] at hentry

/-! ## What a reader finds -/

def Storage.contents (s : Storage τ π α) (p : π) : Option α := (s.page p).map CachedPage.data

variable {s s' : Storage τ π α} {p : π}

@[simp] lemma Storage.flushPage_phase : (s.flushPage p).phase = s.phase := by
  unfold flushPage
  split
  · rfl
  · split <;> rfl

@[simp] lemma Storage.flushPage_locks : (s.flushPage p).locks = s.locks := by
  unfold flushPage
  split
  · rfl
  · split <;> rfl

lemma Storage.contents_congr (hdisk : s'.disk p = s.disk p)
    (hpool : s'.pool.lookup p = s.pool.lookup p) : s'.contents p = s.contents p := by
  rw [contents, contents, page, page, hpool, hdisk]

lemma Storage.page_of_lookup {c : CachedPage τ α} (h : s.pool.lookup p = some c) :
    s.page p = some c := by
  rw [page, h]

lemma Storage.page_of_miss (h : s.pool.lookup p = none) :
    s.page p = (s.disk p).map CachedPage.read := by
  rw [page, h]

lemma Storage.contents_of_lookup {c : CachedPage τ α} (h : s.pool.lookup p = some c) :
    s.contents p = some c.data := by
  rw [contents, page_of_lookup h, map_some]

lemma Storage.contents_of_miss (h : s.pool.lookup p = none) : s.contents p = s.disk p := by
  rw [contents, page_of_miss h]
  cases s.disk p <;> rfl

lemma Storage.lookup_flushPage {q : π} {c : CachedPage τ α}
    (h : (s.flushPage p).pool.lookup q = some c) :
    ∃ c₀, s.pool.lookup q = some c₀ ∧ c₀.oldData = c.oldData ∧ c₀.data = c.data := by
  unfold flushPage at h
  split at h
  · exact ⟨c, h, rfl, rfl⟩
  · next c₀ hc₀ =>
    split at h
    · exact ⟨c, h, rfl, rfl⟩
    · by_cases hq : q = p
      · subst hq
        obtain rfl := some.inj ((lookup_insert s.pool).symm.trans h)
        exact ⟨c₀, hc₀, rfl, rfl⟩
      · exact ⟨c, (lookup_insert_ne hq).symm.trans h, rfl, rfl⟩

end Pool

variable {τ π α : Type} [DecidableEq τ] [DecidableEq π]

/-! ## What a section does -/

section Steps

variable {s s' : Storage τ π α} {t : τ} {p : π}

omit [DecidableEq π] in
lemma Storage.writes_iff : s.writes t p = true ↔ s.locks.Holds t p true := by
  unfold writes LockManager.Holds
  cases s.locks.locks p <;> simp

omit [DecidableEq π] in
lemma Storage.writes_eq_false : s.writes t p = false ↔ ¬ s.locks.Holds t p true := by
  rw [← writes_iff, Bool.not_eq_true]

inductive Storage.Does (size : LogRecord τ π α → ℕ) (blank : α) (s : Storage τ π α) :
    StorageEvent τ π α → Storage τ π α → Prop
  | start (t : τ) (hidle : s.phase t = .idle) : Does size blank s (.start t)
      { s.moved t .running with journal := (s.journal.logXactionBegin size t).getD s.journal }
  | lock (t : τ) (p : π) (x : Bool) (hrun : s.phase t = .running)
      (hexists : x = true → (s.disk p).isSome) (hgrant : (s.locks.tryAcquire t p x).2 = true) :
      Does size blank s (.lock t p x) { s with locks := (s.locks.tryAcquire t p x).1 }
  | release (t : τ) (p : π) (hrun : s.phase t = .running)
      (hshared : ¬ s.locks.Holds t p true) :
      Does size blank s (.release t p) { s with locks := s.locks.release t p }
  | fetch (t : τ) (p : π) (x : Bool) (c : CachedPage τ α) (hrun : s.phase t = .running)
      (hlock : s.locks.Holds t p x) (hc : s.page p = some c) :
      Does size blank s (.fetch t p) { s with pool := s.pool.insert p c }
  | edit (t : τ) (p : π) (data : α) (c : CachedPage τ α) (hrun : s.phase t = .running)
      (hlock : s.locks.Holds t p true) (hc : s.page p = some c) :
      Does size blank s (.edit t p data)
        { s with pool := s.pool.insert p { c with data := data, dirty := some t } }
  | append (t : τ) (p : π) (hrun : s.phase t = .running) (hnew : s.disk p = none) :
      Does size blank s (.append t p) { s with disk := Function.update s.disk p (some blank) }
  | evict (p : π) (c : CachedPage τ α) (hc : s.pool.lookup p = some c) (hclean : c.dirty = none) :
      Does size blank s (.evict p) { s with pool := s.pool.erase p }
  | flush (p : π) : Does size blank s (.flush p) (s.flushPage p)
  | checkpoint : Does size blank s .checkpoint { s with journal := s.journal.checkpointRecord size }
  | truncate (j : Journal τ π α) (hj : s.journal.logTruncate size = some j) :
      Does size blank s .truncate { s with journal := j }
  | complete (t : τ) (hrun : s.phase t = .running) (hclean : s.clean (fun u => u = t) = true) :
      Does size blank s (.complete t) { s.moved t .flushed with
        pool := setBeforeImages s.pool (s.pagesHeldBy t)
        locks := s.locks.releaseAll t }
  | logCommit (t : τ) (hflushed : s.phase t = .flushed) :
      Does size blank s (.logCommit t)
        { s.moved t .committed with journal := s.journal.logCommit t }
  | logAbort (t : τ) (hrun : s.phase t = .running) :
      Does size blank s (.logAbort t) (s.rollBack size t)
  | discard (t : τ) (hrolled : s.phase t = .rolledBack) :
      Does size blank s (.discard t) { s.moved t .aborted with
        pool := discardPages s.pool (s.pagesHeldBy t)
        locks := s.locks.releaseAll t }

theorem Storage.does_of_step {size : LogRecord τ π α → ℕ} {blank : α} {e : StorageEvent τ π α}
    (hstep : s.step size blank e = some s') : s.Does size blank e s' := by
  cases e with
  | start t =>
    obtain ⟨hidle, rfl⟩ := by simpa [step] using hstep
    exact .start t hidle
  | lock t p x =>
    obtain ⟨⟨hrun, hexists, hgrant⟩, rfl⟩ := by simpa [step] using hstep
    exact .lock t p x hrun (by simpa using hexists) hgrant
  | release t p =>
    obtain ⟨⟨hrun, -, hshared⟩, rfl⟩ := by simpa [step] using hstep
    exact .release t p hrun (writes_eq_false.mp hshared)
  | fetch t p =>
    obtain ⟨⟨hrun, hlock⟩, c, hc, rfl⟩ := by simpa [step] using hstep
    obtain ⟨x, hl⟩ := holdsLock_iff.mp hlock
    exact .fetch t p x c hrun hl hc
  | edit t p data =>
    obtain ⟨⟨hrun, hlock⟩, c, hc, rfl⟩ := by simpa [step] using hstep
    exact .edit t p data c hrun (writes_iff.mp hlock) hc
  | append t p =>
    obtain ⟨⟨hrun, hnew⟩, rfl⟩ := by simpa [step] using hstep
    exact .append t p hrun hnew
  | evict p =>
    cases hc : s.pool.lookup p with
    | none => simp [step, hc] at hstep
    | some c =>
      obtain ⟨hclean, rfl⟩ := by simpa [step, hc] using hstep
      exact .evict p c hc hclean
  | flush p =>
    obtain rfl := some.inj hstep
    exact .flush p
  | checkpoint =>
    obtain ⟨-, rfl⟩ := by simpa [step] using hstep
    exact .checkpoint
  | truncate =>
    obtain ⟨j, hj, rfl⟩ := map_eq_some_iff.mp hstep
    exact .truncate j hj
  | complete t =>
    obtain ⟨⟨hrun, hclean⟩, rfl⟩ := by simpa [step] using hstep
    exact .complete t hrun hclean
  | logCommit t =>
    obtain ⟨hflushed, rfl⟩ := by simpa [step] using hstep
    exact .logCommit t hflushed
  | logAbort t =>
    obtain ⟨hrun, rfl⟩ := by simpa [step] using hstep
    exact .logAbort t hrun
  | discard t =>
    obtain ⟨hrolled, rfl⟩ := by simpa [step] using hstep
    exact .discard t hrolled

/-! ### Phases -/

def StorageEvent.moves : StorageEvent τ π α → Option (τ × Phase × Phase)
  | .start t => some (t, .idle, .running)
  | .complete t => some (t, .running, .flushed)
  | .logCommit t => some (t, .flushed, .committed)
  | .logAbort t => some (t, .running, .rolledBack)
  | .discard t => some (t, .rolledBack, .aborted)
  | _ => none

def StorageEvent.actor : StorageEvent τ π α → Option τ
  | .start t | .lock t _ _ | .release t _ | .fetch t _ | .edit t _ _ | .append t _
  | .complete t | .logCommit t | .logAbort t | .discard t => some t
  | _ => none

variable {size : LogRecord τ π α → ℕ} {blank : α} {e : StorageEvent τ π α}

omit [DecidableEq π] in
lemma Storage.moved_phase (s : Storage τ π α) (t u : τ) {a b : Phase} (ha : s.phase u = a) :
    (s.moved u b).phase t = s.phase t ∨
      ∃ a' b', some (u, a, b) = some (t, a', b') ∧ s.phase t = a' ∧ (s.moved u b).phase t = b' := by
  by_cases htu : t = u
  · subst htu
    exact .inr ⟨a, b, rfl, ha, s.moved_phase_self t b⟩
  · exact .inl (s.moved_phase_of_ne htu b)

lemma Storage.phase_of_does (hdoes : s.Does size blank e s') (t : τ) :
    s'.phase t = s.phase t ∨
      ∃ a b, e.moves = some (t, a, b) ∧ s.phase t = a ∧ s'.phase t = b := by
  cases hdoes with
  | start u hidle => exact s.moved_phase t u hidle
  | complete u hrun => exact s.moved_phase t u hrun
  | logCommit u hflushed => exact s.moved_phase t u hflushed
  | logAbort u hrun => exact s.moved_phase t u hrun
  | discard u hrolled => exact s.moved_phase t u hrolled
  | flush p => exact .inl (by rw [flushPage_phase])
  | _ => exact .inl rfl

lemma Storage.not_idle_of_does (hdoes : s.Does size blank e s') (h : s.phase t ≠ .idle) :
    s'.phase t ≠ .idle := by
  obtain hph | ⟨a, b, hmoves, -, hb⟩ := phase_of_does hdoes t
  · rwa [hph]
  · rw [hb]
    cases e <;> simp only [StorageEvent.moves, some.injEq, Prod.mk.injEq, reduceCtorEq]
      at hmoves
    all_goals
      obtain ⟨-, -, rfl⟩ := hmoves
      simp

lemma Storage.begun_of_does (hdoes : s.Does size blank e s') (hactor : e.actor = some t) :
    s'.phase t ≠ .idle := by
  have hbusy : e = .start t ∨ s.phase t ≠ .idle := by
    cases hdoes <;> simp only [StorageEvent.actor, some.injEq, reduceCtorEq] at hactor <;>
      subst hactor
    case start => exact .inl rfl
    all_goals exact .inr (by simp only [ne_eq, reduceCtorEq, not_false_eq_true, *])
  obtain rfl | hbusy := hbusy
  · cases hdoes
    simp
  · exact not_idle_of_does hdoes hbusy

def Active (s : Storage τ π α) (t : τ) : Prop := s.phase t = .running ∨ s.phase t = .rolledBack

lemma active_of_does (hdoes : s.Does size blank e s')
    (hactive : Active s' t) (hbegun : s.phase t ≠ .idle) : Active s t := by
  obtain hph | ⟨a, b, hmoves, ha, hb⟩ := phase_of_does hdoes t
  · unfold Active at hactive ⊢
    rwa [hph] at hactive
  · unfold Active at hactive ⊢
    rw [ha] at hbegun ⊢
    rw [hb] at hactive
    cases e <;> simp only [StorageEvent.moves, some.injEq, Prod.mk.injEq, reduceCtorEq]
      at hmoves
    all_goals
      obtain ⟨-, rfl, rfl⟩ := hmoves
      simp_all

/-! ### Locks -/

lemma Storage.holder_of_does {x : Bool} (htight : s.locks.Tight) (hl : s.locks.Holds t p x)
    (hdoes : s.Does size blank e s') (hactive : Active s' t)
    (hkeep : x = true ∨ e ≠ .release t p) : ∃ y, s'.locks.Holds t p y ∧ (x = true → y = true) := by
  have hended {a : Phase} (ha : a ≠ .running ∧ a ≠ .rolledBack) {u : τ}
      (hph : Active (s.moved u a) t) : t ≠ u := by
    rintro rfl
    rcases hph with hph | hph <;> rw [moved_phase_self] at hph
    · exact ha.1 hph
    · exact ha.2 hph
  cases hdoes with
  | lock u q y hrun hexists hgrant =>
    have g := granted_tryAcquire htight hgrant
    by_cases hp : p = q
    · subst hp
      cases x with
      | true => exact ⟨true, g.kept t hl, id⟩
      | false =>
        obtain ⟨z, hz⟩ := g.still t false hl
        exact ⟨z, hz, fun h => by cases h⟩
    · refine ⟨x, ?_, id⟩
      show LockManager.Holds _ t p x
      rwa [LockManager.Holds, g.elsewhere p hp]
  | release u q hrun hshared =>
    refine ⟨x, (release_holds htight).mpr ⟨?_, hl⟩, id⟩
    rintro ⟨rfl, rfl⟩
    rcases hkeep with rfl | hne
    · exact hshared hl
    · exact hne rfl
  | flush q => exact ⟨x, by rwa [flushPage_locks], id⟩
  | complete u =>
    exact ⟨x, releaseAll_holds.mpr ⟨hended (by simp) hactive, hl⟩, id⟩
  | discard u =>
    exact ⟨x, releaseAll_holds.mpr ⟨hended (by simp) hactive, hl⟩, id⟩
  | _ => exact ⟨x, hl, id⟩

lemma Storage.holds_of_does {x : Bool} (htight : s.locks.Tight) (hdoes : s.Does size blank e s')
    (hl : s'.locks.Holds t p x) : (∃ y, s.locks.Holds t p y) ∨ ∃ y, e = .lock t p y := by
  cases hdoes with
  | lock u q y hrun hexists hgrant =>
    have g := granted_tryAcquire htight hgrant
    by_cases hp : p = q
    · subst hp
      rcases g.holders t x hl with rfl | hold
      · exact .inr ⟨y, rfl⟩
      · exact .inl hold
    · refine .inl ⟨x, ?_⟩
      have hl : LockManager.Holds _ t p x := hl
      rwa [LockManager.Holds, g.elsewhere p hp] at hl
  | release u q => exact .inl ⟨x, ((release_holds htight).mp hl).2⟩
  | flush q => exact .inl ⟨x, by rwa [flushPage_locks] at hl⟩
  | complete u => exact .inl ⟨x, (releaseAll_holds.mp hl).2⟩
  | discard u => exact .inl ⟨x, (releaseAll_holds.mp hl).2⟩
  | _ => exact .inl ⟨x, hl⟩

/-! ### Runs -/

variable {j : Journal τ π α} {disk : π → Option α} {evs : List (StorageEvent τ π α)}

lemma begun_run (hrun : execAll (step size blank) (.init j disk) evs = some s) :
    ∀ e ∈ evs, e.actor = some t → s.phase t ≠ .idle := by
  refine execAll_invariant (J := fun evs s => ∀ e ∈ evs, e.actor = some t → s.phase t ≠ .idle)
    (by simp) (fun evs s e s' hbegun _ hstep e' he' hactor => ?_) (everyStep_true _ _) hrun
  have hdoes := does_of_step hstep
  rcases List.mem_append.mp he' with hold | hnew
  · exact not_idle_of_does hdoes (hbegun e' hold hactor)
  · obtain rfl := List.mem_singleton.mp hnew
    exact begun_of_does hdoes hactor

def EndLogged (evs : List (StorageEvent τ π α)) (s : Storage τ π α) (t : τ) : Prop :=
  (.logCommit t ∈ evs ↔ s.phase t = .committed) ∧
    (.logAbort t ∈ evs ↔ s.phase t = .rolledBack ∨ s.phase t = .aborted)

lemma endLogged_step (h : EndLogged evs s t) (hdoes : s.Does size blank e s') :
    EndLogged (evs ++ [e]) s' t := by
  have hother {u : τ} (htu : t ≠ u) (a : Phase) : EndLogged evs (s.moved u a) t := by
    rwa [EndLogged, s.moved_phase_of_ne htu]
  obtain ⟨hcommit, habort⟩ := h
  cases hdoes with
  | start u hidle =>
    by_cases htu : t = u
    · subst htu
      simp_all [EndLogged]
    · simpa [EndLogged, htu] using hother htu .running
  | complete u hrun =>
    by_cases htu : t = u
    · subst htu
      simp_all [EndLogged]
    · simpa [EndLogged, htu] using hother htu .flushed
  | logCommit u hflushed =>
    by_cases htu : t = u
    · subst htu
      simp_all [EndLogged]
    · simpa [EndLogged, htu] using hother htu .committed
  | logAbort u hrun =>
    by_cases htu : t = u
    · subst htu
      simp_all [EndLogged, rollBack]
    · simpa [EndLogged, htu, rollBack] using hother htu .rolledBack
  | discard u hrolled =>
    by_cases htu : t = u
    · subst htu
      simp_all [EndLogged]
    · simpa [EndLogged, htu] using hother htu .aborted
  | flush q => simpa [EndLogged] using ⟨hcommit, habort⟩
  | _ => simpa [EndLogged] using ⟨hcommit, habort⟩

lemma endLogged_run (hrun : execAll (step size blank) (.init j disk) evs = some s) (t : τ) :
    EndLogged evs s t :=
  execAll_invariant (J := fun evs s => EndLogged evs s t) (by simp [EndLogged, init])
    (fun _ _ _ _ h _ hstep => endLogged_step h (does_of_step hstep)) (everyStep_true _ _)
    hrun
end Steps

end BallotBox.SimpleDb
