import BallotBox.Properties.Support.Consistency

/-!
# An abort leaves no trace

The rollback puts back the pages that were flushed, and the pool drops the others.  A page that is
flushed between the two stays on the disk as the transaction has left it; otherwise the pages it has
changed are as they were before its first change (`abort_leaves_no_trace`).
-/

namespace BallotBox.SimpleDb

open Ledger LogRecord List Option Function Storage

variable {τ π α : Type} [DecidableEq τ] [DecidableEq π] {imageSize : Image π α → ℕ} {blank : α}
  {L L' : Ledger τ π α} {s s' : Storage τ π α} {t u : τ} {p : π} {e : StorageEvent τ π α}

/-- Nothing is flushed for a transaction that was rolled back, and an added page is not changed by
another transaction before the adding one is through. -/
def CleanAborts (before : List (StorageEvent τ π α)) (s : Storage τ π α)
    (e : StorageEvent τ π α) : Prop :=
  (∀ p, e = .flush p → NoLateFlush s p) ∧
    ∀ u p data, e = .edit u p data → ∀ t, t ≠ u → .append t p ∈ before → ¬ Active s t

/-! ## What a page holds -/

lemma disk_isSome_of_settled (h : Consistent imageSize L s) (hs : (L.settled p).isSome) :
    (s.disk p).isSome := by
  cases h.page p with
  | rest _ hdisk _ => rwa [hdisk]
  | edited u d b _ hwr => exact h.existing u p hwr
  | undone u d b _ hwr => exact h.existing u p hwr

lemma settled_of_holder (h : Consistent imageSize L s) {x : Bool} (hl : s.locks.Holds t p x)
    (hs : (L.settled p).isSome) (hdoes : s.Does (size imageSize) blank e s')
    (hactive : Active s' t) : (L.apply blank e).settled p = L.settled p := by
  cases hdoes with
  | lock u q y => rw [lock_settled]
  | append u q hrun hnew =>
    refine update_of_ne ?_ _ _
    rintro rfl
    simpa [hnew] using disk_isSome_of_settled h hs
  | complete u hrun hclean =>
    have hut : t ≠ u := by
      rintro rfl
      rcases hactive with hph | hph <;> simp at hph
    show (L.own u p).or (L.settled p) = L.settled p
    rw [h.own_eq_none_of_holds hl hut, none_or]
  | _ => rfl

lemma settled_of_unchanged (h : Consistent imageSize L s) (hw : L.working p = none)
    (hs : (L.settled p).isSome) (hedit : ∀ u d, e ≠ .edit u p d)
    (hdoes : s.Does (size imageSize) blank e s') :
    (L.apply blank e).working p = none ∧ (L.apply blank e).settled p = L.settled p := by
  constructor
  · by_contra hne
    obtain ⟨⟨u, d⟩, hd⟩ := ne_none_iff_exists'.mp hne
    rcases working_of_apply hd with he | hold
    · exact hedit u d he
    · simp [hw] at hold
  · cases hdoes with
    | lock u q x => rw [lock_settled]
    | append u q hrun hnew =>
      refine update_of_ne ?_ _ _
      rintro rfl
      simpa [hnew] using disk_isSome_of_settled h hs
    | complete u =>
      show (L.own u p).or (L.settled p) = L.settled p
      rw [own_of_none hw, none_or]
    | _ => rfl

lemma contents_rollBack (h : Consistent imageSize L s) (hrun : s.phase t = .running)
    (hown : L.own t p = none) :
    (s.rollBack (size imageSize) t).contents p = s.contents p := by
  have himage := h.rollback_eq_none hrun hown
  have hpool : (s.rollBack (size imageSize) t).pool.lookup p = s.pool.lookup p :=
    (lookup_discard_filter s.pool p _).trans (by simp [himage])
  have hdisk : (s.rollBack (size imageSize) t).disk p = s.disk p := by
    simp [Storage.rollBack, himage]
  exact contents_congr hdisk hpool

lemma contents_discard (h : Consistent imageSize L s) (hrolled : s.phase t = .rolledBack)
    (hown : L.own t p = none) :
    ({ s.moved t .aborted with
        pool := discardPages s.pool (s.pagesHeldBy t)
        locks := s.locks.releaseAll t } : Storage τ π α).contents p = s.contents p := by
  have hpool := lookup_discard_filter s.pool p (s.locks.holdsLock t)
  cases hw : L.working p with
  | none =>
    have hw' : (L.without t).working p = none := by simp [without, hown, hw]
    rw [contents_eq_settled (h.discard hrolled) hw', contents_eq_settled h hw]
    rfl
  | some w =>
    obtain ⟨u, d⟩ := w
    have hut : u ≠ t := by
      rintro rfl
      simp [own_eq_some.mpr hw] at hown
    rw [if_neg (by simp [h.not_held hw hut])] at hpool
    exact contents_congr rfl hpool

/-! ## Runs -/

section Runs

variable {pointer : ℤ} {log : List (LogRecord τ π α)} {disk : π → Option α}
  {evs : List (StorageEvent τ π α)}

lemma consistent_of_cleanAborts (hC : EveryStep (Storage.step (size imageSize) blank) CleanAborts
      (.init (openLog pointer log) disk) evs)
    (hrun : execAll (Storage.step (size imageSize) blank)
      (.init (openLog pointer log) disk) evs = some s) :
    Consistent imageSize (ofRun blank disk evs) s :=
  consistent_run (fun _ _ _ hC => hC.1) hC hrun

lemma settled_since_lock {pre post : List (StorageEvent τ π α)} {x : Bool} {s₀ : Storage τ π α}
    (hfirst : ∀ d, .edit t p d ∉ pre) (hkeep : .release t p ∉ post)
    (hpre : execAll (Storage.step (size imageSize) blank)
      (.init (openLog pointer log) disk) pre = some s₀)
    (hexists : (s₀.contents p).isSome)
    (hC : EveryStep (Storage.step (size imageSize) blank) CleanAborts
      (.init (openLog pointer log) disk) (pre ++ .lock t p x :: post))
    (hrun : execAll (Storage.step (size imageSize) blank)
      (.init (openLog pointer log) disk) (pre ++ .lock t p x :: post) = some s)
    (hactive : Active s t) :
    (ofRun blank disk (pre ++ .lock t p x :: post)).settled p = s₀.contents p ∧
      ∃ y, s.locks.Holds t p y := by
  rw [append_cons] at hC hrun ⊢
  obtain ⟨mid, hmid, -⟩ := execAll_append_eq_some hrun
  refine execAll_after (J := fun evs s => Active s t →
    (ofRun blank disk evs).settled p = s₀.contents p ∧ ∃ y, s.locks.Holds t p y)
    hmid (fun _ => ?_) (fun before e after heq s s' hs ih hstep hactive => ?_) hrun hactive
  · have h := consistent_of_cleanAborts hC.of_append.of_append hpre
    rw [execAll_concat, hpre, bind_some] at hmid
    rw [ofRun_concat, lock_settled]
    cases does_of_step hmid with
    | lock _ _ _ hrunning _ hgrant =>
      have g := LockManager.granted_tryAcquire h.tight hgrant
      -- nobody works on the page: not who locks it, and no one else
      have hnone : (ofRun blank disk pre).working p = none := by
        by_contra hne
        obtain ⟨⟨u, d⟩, hw⟩ := ne_none_iff_exists'.mp hne
        obtain ⟨rfl, -⟩ := g.writer u (g.kept u ((h.page p).writer hw))
        exact hfirst d ((edit_mem_of_ofRun disk pre).1 u p d hw)
      exact ⟨(contents_eq_settled h hnone).symm, g.locked⟩
  · have hdoes := does_of_step hstep
    have hbegun : s.phase t ≠ .idle := begun_run hs (.lock t p x) (by simp) rfl
    obtain ⟨hsettled, y, hl⟩ := ih (active_of_does hdoes hactive hbegun)
    have he : e ≠ .release t p := by
      rintro rfl
      simp [heq] at hkeep
    rw [heq, ← append_assoc] at hC
    have h := consistent_of_cleanAborts hC.of_append hs
    obtain ⟨z, hl', -⟩ := holder_of_does h.tight hl hdoes hactive (.inr he)
    rw [ofRun_concat, settled_of_holder h hl (by rwa [hsettled]) hdoes hactive]
    exact ⟨hsettled, z, hl'⟩

lemma settled_since_append (hmem : .append t p ∈ evs)
    (hC : EveryStep (Storage.step (size imageSize) blank) CleanAborts
      (.init (openLog pointer log) disk) evs)
    (hrun : execAll (Storage.step (size imageSize) blank)
      (.init (openLog pointer log) disk) evs = some s)
    (hactive : Active s t) :
    (ofRun blank disk evs).settled p = some blank ∧
      ∀ u d, (ofRun blank disk evs).working p = some (u, d) → u = t := by
  obtain ⟨pre, post, rfl⟩ := append_of_mem hmem
  rw [append_cons] at hC hrun ⊢
  obtain ⟨mid, hmid, -⟩ := execAll_append_eq_some hrun
  refine execAll_after (J := fun evs s => Active s t →
    (ofRun blank disk evs).settled p = some blank ∧
      ∀ u d, (ofRun blank disk evs).working p = some (u, d) → u = t)
    hmid (fun _ => ?_) (fun before e after heq s s' hs ih hstep hactive => ?_) hrun hactive
  · obtain ⟨s₀, hpre, hstep⟩ := execAll_concat_eq_some hmid
    have h := consistent_of_cleanAborts hC.of_append.of_append hpre
    rw [ofRun_concat]
    cases does_of_step hstep with
    | append _ _ hrunning hnone =>
      refine ⟨update_self .., fun u d hw => ?_⟩
      have hexists := h.existing u p ((h.page p).writer hw)
      simp [hnone] at hexists
  · have hdoes := does_of_step hstep
    have hbegun : s.phase t ≠ .idle := begun_run hs (.append t p) (by simp) rfl
    have hactive' := active_of_does hdoes hactive hbegun
    obtain ⟨hsettled, hown⟩ := ih hactive'
    rw [heq, ← append_assoc] at hC
    have hclean := hC _ e after rfl s hs
    rw [ofRun_concat]
    generalize ofRun blank disk (pre ++ [.append t p] ++ before) = L at hsettled hown ⊢
    refine ⟨?_, fun u d hw => ?_⟩
    · cases hdoes with
      | lock u q x => rwa [lock_settled]
      | append u q =>
        by_cases hpq : p = q
        · subst hpq
          exact update_self ..
        · exact (update_of_ne hpq ..).trans hsettled
      | complete u =>
        have hut : t ≠ u := by
          rintro rfl
          rcases hactive with hph | hph <;> simp at hph
        show (L.own u p).or (L.settled p) = some blank
        cases hd : L.own u p with
        | none => rwa [none_or]
        | some d => exact absurd (hown u d (own_eq_some.mp hd)).symm hut
      | _ => exact hsettled
    · rcases working_of_apply hw with rfl | hw
      · by_contra hut
        exact hclean.2 u p d rfl t (Ne.symm hut) (by simp) hactive'
      · exact hown u d hw

lemma contents_since_discard {later : List (StorageEvent τ π α)} {b : α}
    (hs : (ofRun blank disk evs).settled p = some b)
    (hown : ∀ u d, (ofRun blank disk evs).working p = some (u, d) → u = t)
    (hC : EveryStep (Storage.step (size imageSize) blank) CleanAborts
      (.init (openLog pointer log) disk) (evs ++ .discard t :: later))
    (hrun : execAll (Storage.step (size imageSize) blank)
      (.init (openLog pointer log) disk) (evs ++ .discard t :: later) = some s)
    (hlater : ∀ u d, .edit u p d ∉ later) : s.contents p = some b := by
  suffices hrest : (ofRun blank disk (evs ++ .discard t :: later)).working p = none ∧
      (ofRun blank disk (evs ++ .discard t :: later)).settled p = some b by
    rw [contents_eq_settled (consistent_of_cleanAborts hC hrun) hrest.1, hrest.2]
  rw [append_cons] at hC hrun ⊢
  obtain ⟨mid, hmid, -⟩ := execAll_append_eq_some hrun
  refine execAll_after (J := fun evs _ => (ofRun blank disk evs).working p = none ∧
    (ofRun blank disk evs).settled p = some b) hmid ?_
    (fun before e after heq s s' hs' ih hstep => ?_) hrun
  · rw [ofRun_concat]
    refine ⟨?_, hs⟩
    by_contra hne
    obtain ⟨⟨u, d⟩, hw⟩ := ne_none_iff_exists'.mp hne
    obtain ⟨hut, hw⟩ := Ledger.without_working.mp hw
    exact hut (hown u d hw)
  · obtain ⟨hw, hb⟩ := ih
    have he (u : τ) (d : α) : e ≠ .edit u p d := by
      rintro rfl
      exact hlater u d (by simp [heq])
    rw [heq, ← append_assoc] at hC
    have h := consistent_of_cleanAborts hC.of_append hs'
    rw [ofRun_concat, ← hb]
    exact settled_of_unchanged h hw (by rw [hb]; rfl) he (does_of_step hstep)

/-- **An abort leaves no trace.**  In every run in which no page is flushed for a transaction that
has been rolled back and added pages are not changed by others, after the abort

* a page that was there when the transaction locked it, before it changed it, has the content that
  it had then, in every later state until somebody changes it;
* a page that the transaction has added is empty, until somebody changes it;
* the two halves of the abort leave the pages that the transaction has not changed. -/
theorem abort_leaves_no_trace {later : List (StorageEvent τ π α)}
    (hrun : execAll (Storage.step (LogRecord.size imageSize) blank)
      (.init (openLog pointer log) disk) (evs ++ .discard t :: later) = some s)
    (hC : EveryStep (Storage.step (LogRecord.size imageSize) blank) CleanAborts
      (.init (openLog pointer log) disk) (evs ++ .discard t :: later)) :
    (∀ p x pre post s₀, evs = pre ++ .lock t p x :: post → (∀ d, .edit t p d ∉ pre) →
        .release t p ∉ post →
        execAll (Storage.step (LogRecord.size imageSize) blank)
          (.init (openLog pointer log) disk) pre = some s₀ → (s₀.contents p).isSome →
        (∀ u d, .edit u p d ∉ later) → s.contents p = s₀.contents p) ∧
      (∀ p, .append t p ∈ evs → (∀ u d, .edit u p d ∉ later) → s.contents p = some blank) ∧
      ∀ p pre e post s₀ s₁, evs ++ .discard t :: later = pre ++ e :: post →
        e = .logAbort t ∨ e = .discard t → (∀ d, .edit t p d ∉ pre) →
        execAll (Storage.step (LogRecord.size imageSize) blank)
          (.init (openLog pointer log) disk) pre = some s₀ →
        s₀.step (LogRecord.size imageSize) blank e = some s₁ → s₁.contents p = s₀.contents p := by
  obtain ⟨mid, s₁, hmid, hstep⟩ := execAll_cons_eq_some hrun
  have hactive : Active mid t := by
    cases does_of_step hstep with
    | discard _ hrolled => exact .inr hrolled
  have h := consistent_of_cleanAborts hC.of_append hmid
  refine ⟨fun p x pre post s₀ heq hfirst hkeep hpre hexists hlater => ?_,
    fun p hmem hlater => ?_, fun p pre e post s₀ s₁ heq he hfirst hpre hstep => ?_⟩
  · obtain ⟨b, hb⟩ := isSome_iff_exists.mp hexists
    obtain ⟨hsettled, y, hl⟩ := settled_since_lock hfirst hkeep hpre hexists
      (heq ▸ hC.of_append) (heq ▸ hmid) hactive
    rw [← heq, hb] at hsettled
    rw [hb]
    refine contents_since_discard hsettled (fun u d hw => ?_) hC hrun hlater
    exact (h.tight.unique ((h.page p).writer hw) hl).symm
  · obtain ⟨hs, hown⟩ := settled_since_append hmem hC.of_append hmid hactive
    exact contents_since_discard hs hown hC hrun hlater
  · rw [heq] at hC
    have h₀ := consistent_of_cleanAborts hC.of_append hpre
    have hown : (Ledger.ofRun blank disk pre).own t p = none := by
      by_contra hne
      obtain ⟨d, hd⟩ := ne_none_iff_exists'.mp hne
      exact hfirst d ((edit_mem_of_ofRun disk pre).1 t p d (own_eq_some.mp hd))
    rcases he with rfl | rfl
    · cases does_of_step hstep with
      | logAbort _ hrunning => exact contents_rollBack h₀ hrunning hown
    · cases does_of_step hstep with
      | discard _ hrolled => exact contents_discard h₀ hrolled hown

end Runs

/-! ## Two aborts -/

def runOnePage (evs : List (StorageEvent ℕ ℕ ℕ)) : Option (Storage ℕ ℕ ℕ) :=
  execAll (Storage.step (LogRecord.size fun _ => 10) 0)
    (.init (openLog (-1) []) fun p => if p = 0 then some 7 else none) evs

def changesAndAdds : List (StorageEvent ℕ ℕ ℕ) :=
  [.start 1, .lock 1 0 true, .edit 1 0 1, .flush 0, .append 1 1, .lock 1 1 true, .edit 1 1 2,
    .logAbort 1]

def readsAfter : List (StorageEvent ℕ ℕ ℕ) := [.start 2, .lock 2 0 false, .fetch 2 0]

lemma changesAndAdds_cleanAborts :
    EveryStep (Storage.step (size fun _ => 10) 0) CleanAborts
      (.init (openLog (-1) []) fun p => if p = 0 then some 7 else none)
      (changesAndAdds ++ .discard 1 :: readsAfter) := by
  refine everyStep_of_getElem fun i e he mid hmid => ?_
  by_cases hflush : i = 3
  · subst hflush
    obtain rfl := some.inj he
    have hpool := eq_of_execAll_map (fun s => (s.pool.lookup 0, s.phase 1)) hmid
      (b := (some ⟨1, 7, some 1⟩, .running)) (by decide)
    simpa [CleanAborts] using noLateFlush_of_running hpool rfl
  · -- both pages are changed by the transaction that may have added them
    have hmem : e ∈ changesAndAdds ++ .discard 1 :: readsAfter := mem_of_getElem? he
    have hadds (t p : ℕ) (ht : .append t p ∈ (changesAndAdds ++ .discard 1 :: readsAfter).take i) :
        t = 1 := by
      have := mem_of_mem_take ht
      simp_all [changesAndAdds, readsAfter]
    refine ⟨?_, ?_⟩
    · rintro p rfl
      match i, he, hflush with
      | 3, _, hflush => exact absurd rfl hflush
      | n + 4, he, _ =>
        have hlater : .flush p ∈ (changesAndAdds ++ .discard 1 :: readsAfter).drop 4 :=
          mem_of_getElem? (i := n) he
        simp [changesAndAdds, readsAfter] at hlater
    · rintro u p data rfl t htu ht
      obtain ⟨rfl, -⟩ | ⟨rfl, -⟩ := by simpa [changesAndAdds, readsAfter] using hmem
      all_goals exact absurd (hadds t p ht) htu

theorem changesAndAdds_no_trace :
    ∃ s, runOnePage (changesAndAdds ++ .discard 1 :: readsAfter) = some s ∧
      s.contents 0 = some 7 ∧ s.contents 1 = some 0 := by
  obtain ⟨s, hrun⟩ : ∃ s, runOnePage (changesAndAdds ++ .discard 1 :: readsAfter) = some s :=
    isSome_iff_exists.mp (by decide)
  obtain ⟨s₀, hpre⟩ : ∃ s, runOnePage [.start 1] = some s := isSome_iff_exists.mp (by decide)
  have hold := eq_of_execAll_map (fun s => s.contents 0) hpre (b := some 7) (by decide)
  obtain ⟨hchanged, hadded, -⟩ := abort_leaves_no_trace hrun changesAndAdds_cleanAborts
  refine ⟨s, hrun, ?_, hadded 1 (by simp [changesAndAdds]) (by simp [readsAfter])⟩
  rw [hchanged 0 true [.start 1] _ s₀ rfl (by simp) (by simp) hpre (by rw [hold]; rfl)
    (by simp [readsAfter]), hold]

/-- In the first run the page is flushed between the two halves of the abort, and keeps the content
1 that the aborted transaction gave it.  In the second one the page that the aborted transaction has
added was first used by another one. -/
theorem abort_leaves_trace :
    ((runOnePage [.start 1, .lock 1 0 true, .edit 1 0 1, .logAbort 1, .flush 0, .discard 1,
        .start 2, .lock 2 0 false, .fetch 2 0]).map fun s => s.contents 0) = some (some 1) ∧
      ((runOnePage [.start 1, .start 2, .append 1 1, .lock 2 1 true, .edit 2 1 5, .flush 1,
        .complete 2, .logCommit 2, .lock 1 1 true, .edit 1 1 2, .logAbort 1, .discard 1]).map
          fun s => s.contents 1) = some (some 5) := by
  decide

end BallotBox.SimpleDb
