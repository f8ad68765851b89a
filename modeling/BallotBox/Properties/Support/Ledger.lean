import BallotBox.Construction.Storage

/-!
# What the pages should hold

The `Ledger` says what the pages hold according to the events alone: what the committed transactions
have left, and what the transaction working on a page has given it.
-/

namespace BallotBox.SimpleDb

variable {τ π α : Type} [DecidableEq τ] [DecidableEq π]

/-! ## The ledger -/

/-- The pages according to the events. `settled` counts a transaction when it gives up its locks to
commit, `logged` from its commit record on; `pending` is in between, and `base` has both contents
when a transaction locked the page for writing. -/
structure Ledger (τ π α : Type) where
  settled : π → Option α
  working : π → Option (τ × α)
  pending : τ → π → Option α
  logged : π → Option α
  base : τ → π → Option (Option α × Option α)

namespace Ledger

def own (L : Ledger τ π α) (t : τ) (p : π) : Option α :=
  match L.working p with
  | none => none
  | some (u, data) => if u = t then some data else none

def without (L : Ledger τ π α) (t : τ) : Ledger τ π α :=
  { L with
    working := fun p => if (L.own t p).isSome then none else L.working p
    base := Function.update L.base t fun _ => none }

def apply (blank : α) (L : Ledger τ π α) : StorageEvent τ π α → Ledger τ π α
  | .lock t p true =>
    if (L.base t p).isNone then
      { L with
        base := Function.update L.base t
          (Function.update (L.base t) p (some (L.settled p, L.logged p))) }
    else L
  | .edit t p data => { L with working := Function.update L.working p (some (t, data)) }
  | .append _ p =>
    { L with
      settled := Function.update L.settled p (some blank)
      logged := Function.update L.logged p (some blank) }
  | .complete t =>
    { L.without t with
      settled := fun p => (L.own t p).or (L.settled p)
      pending := Function.update L.pending t (L.own t) }
  | .logCommit t =>
    { L with
      logged := fun p => (L.pending t p).or (L.logged p)
      pending := Function.update L.pending t fun _ => none }
  | .discard t => L.without t
  | _ => L

def ofRun (blank : α) (disk : π → Option α) (evs : List (StorageEvent τ π α)) : Ledger τ π α :=
  evs.foldl (apply blank) ⟨disk, fun _ => none, fun _ _ => none, disk, fun _ _ => none⟩

variable {L : Ledger τ π α} {t u : τ} {p : π} {data : α} {blank : α}

lemma ofRun_concat (disk : π → Option α) (evs : List (StorageEvent τ π α))
    (e : StorageEvent τ π α) :
    ofRun blank disk (evs ++ [e]) = (ofRun blank disk evs).apply blank e := by
  simp [ofRun]

omit [DecidableEq π] in
lemma own_eq_some : L.own t p = some data ↔ L.working p = some (t, data) := by
  unfold own
  cases L.working p with
  | none => simp
  | some w =>
    obtain ⟨u, d⟩ := w
    by_cases hut : u = t <;> simp [hut]

omit [DecidableEq π] in
lemma own_of_working (h : L.working p = some (u, data)) (hut : u ≠ t) : L.own t p = none := by
  simp [own, h, hut]

omit [DecidableEq π] in
lemma own_of_none (h : L.working p = none) : L.own t p = none := by
  simp [own, h]

omit [DecidableEq π] in
lemma without_working : (L.without t).working p = some (u, data) ↔
    u ≠ t ∧ L.working p = some (u, data) := by
  show (if (L.own t p).isSome then none else L.working p) = some (u, data) ↔ _
  by_cases hut : u = t
  · subst hut
    cases hown : L.own u p with
    | none => simpa [hown] using fun hw => by simp [own_eq_some.mpr hw] at hown
    | some d => simp
  · constructor
    · intro hw
      split_ifs at hw
      exact ⟨hut, hw⟩
    · rintro ⟨-, hw⟩
      rw [own_of_working hw hut]
      exact hw

omit [DecidableEq π] in
lemma without_base {b : Option α × Option α} (h : (L.without t).base u p = some b) :
    L.base u p = some b := by
  by_cases hut : u = t
  · subst hut
    simp [without] at h
  · simpa [without, hut] using h

/-! A lock changes nothing but the base of its page. -/

section Lock

variable (x : Bool)

@[simp] lemma lock_working : (L.apply blank (.lock t p x)).working = L.working := by
  cases x <;> simp only [apply]
  split <;> rfl

@[simp] lemma lock_settled : (L.apply blank (.lock t p x)).settled = L.settled := by
  cases x <;> simp only [apply]
  split <;> rfl

@[simp] lemma lock_pending : (L.apply blank (.lock t p x)).pending = L.pending := by
  cases x <;> simp only [apply]
  split <;> rfl

@[simp] lemma lock_logged : (L.apply blank (.lock t p x)).logged = L.logged := by
  cases x <;> simp only [apply]
  split <;> rfl

lemma lock_base (u : τ) (q : π) : (L.apply blank (.lock t p x)).base u q =
    if x = true ∧ u = t ∧ q = p ∧ L.base t p = none then some (L.settled p, L.logged p)
    else L.base u q := by
  cases x with
  | false => simp [apply]
  | true =>
    simp only [apply, Option.isNone_iff_eq_none, true_and]
    by_cases hbase : L.base t p = none
    · by_cases hut : u = t
      · subst hut
        by_cases hqp : q = p
        · subst hqp
          simp [hbase]
        · simp [hbase, hqp]
      · simp [hbase, hut]
    · simp [hbase]

end Lock

lemma working_of_apply {e : StorageEvent τ π α} (h : (L.apply blank e).working p = some (t, data)) :
    e = .edit t p data ∨ L.working p = some (t, data) := by
  cases e with
  | lock u q x => exact .inr (by rwa [lock_working] at h)
  | edit u q d =>
    by_cases hq : p = q
    · subst hq
      obtain ⟨rfl, rfl⟩ : u = t ∧ d = data := by simpa [apply] using h
      exact .inl rfl
    · exact .inr ((Function.update_of_ne hq ..).symm.trans h)
  | complete u => exact .inr (without_working.mp h).2
  | discard u => exact .inr (without_working.mp h).2
  | _ => exact .inr h

lemma pending_of_apply {e : StorageEvent τ π α} (h : (L.apply blank e).pending t p = some data) :
    L.pending t p = some data ∨ (e = .complete t ∧ L.working p = some (t, data)) := by
  cases e with
  | lock u q x => exact .inl (by rwa [lock_pending] at h)
  | complete u =>
    by_cases htu : t = u
    · subst htu
      have hown : L.own t p = some data := by simpa [apply] using h
      exact .inr ⟨rfl, own_eq_some.mp hown⟩
    · exact .inl (by simpa [apply, without, htu] using h)
  | logCommit u =>
    by_cases htu : t = u
    · subst htu
      simp [apply] at h
    · exact .inl (by simpa [apply, htu] using h)
  | _ => exact .inl h

lemma edit_mem_of_ofRun (disk : π → Option α) (evs : List (StorageEvent τ π α)) :
    (∀ t p data, (ofRun blank disk evs).working p = some (t, data) → .edit t p data ∈ evs) ∧
      ∀ t p data, (ofRun blank disk evs).pending t p = some data → .edit t p data ∈ evs := by
  induction evs using List.reverseRecOn with
  | nil => exact ⟨fun t p data h => (by cases h), fun t p data h => (by cases h)⟩
  | append_singleton evs e ih =>
    obtain ⟨hworking, hpending⟩ := ih
    rw [ofRun_concat]
    refine ⟨fun t p data h => ?_, fun t p data h => ?_⟩
    · rcases working_of_apply h with rfl | hw
      · simp
      · simp [hworking t p data hw]
    · rcases pending_of_apply h with hp | ⟨-, hw⟩
      · simp [hpending t p data hp]
      · simp [hworking t p data hw]

end Ledger

end BallotBox.SimpleDb
