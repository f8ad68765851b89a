import BallotBox.Properties.Locking

/-!
# No deadlock goes unnoticed

In a cycle each transaction has a pending request that conflicts with a lock of the next one
(`Waits`).  `waitingFor` has its page, so the search of `hasDeadlock` finds its way along: whoever
of the cycle tries is aborted (`retry_throws`).
-/

namespace BallotBox.SimpleDb

open List Function LockManager

variable {τ π : Type} [DecidableEq τ] [DecidableEq π] {m : LockManager τ π} {t u : τ} {p : π}
  {x : Bool}

/-- A pending attempt conflicts with the lock of another transaction. -/
def Waits (m : LockManager τ π) (pending : τ → Option (π × Bool)) (t u : τ) : Prop :=
  ∃ p x, pending t = some (p, x) ∧ u ≠ t ∧
    ∃ s, m.locks p = some s ∧ u ∈ s.holders ∧ (x = true ∨ s.exclusive = true)

/-- A cycle of transactions that wait for each other. -/
def WaitCycle (m : LockManager τ π) (pending : τ → Option (π × Bool)) (cycle : List τ) : Prop :=
  ∃ first rest last, cycle = first :: rest ∧ cycle.IsChain (Waits m pending) ∧
    cycle.getLast? = some last ∧ Waits m pending last first

lemma LockManager.Tight.refuses_of_conflict (h : m.Tight) {s : LockState τ}
    (hs : m.locks p = some s)
    (hut : u ≠ t) (hu : u ∈ s.holders) (hmode : x = true ∨ s.exclusive = true) :
        m.Refuses t p x := by
  have hne : s.holders ≠ [] := ne_nil_of_mem hu
  -- whoever shares the page with another has no exclusive lock on it
  have hshared : t ∈ s.holders → s.exclusive = false ∧ s.holders.length ≠ 1 := by
    intro ht
    have hlength : s.holders.length ≠ 1 := by
      intro hone
      obtain ⟨v, hv⟩ := length_eq_one_iff.mp hone
      rw [hv, mem_singleton] at hu ht
      exact hut (hu.trans ht.symm)
    refine ⟨?_, hlength⟩
    by_contra hexclusive
    obtain ⟨v, hv⟩ := h.single p s hs (Bool.eq_true_of_not_eq_false hexclusive)
    exact hlength (by simp [hv])
  unfold LockManager.Refuses LockManager.tryAcquire
  by_cases ht : t ∈ s.holders
  · obtain ⟨hexclusive, hlength⟩ := hshared ht
    have hx : x = true := by simpa [hexclusive] using hmode
    simp [hs, hne, ht, hexclusive, hx, hlength]
  · rcases hmode with hx | hexclusive
    · simp [hs, hne, ht, hx]
    · simp [hs, hne, ht, hexclusive]

/-! ## The search finds the cycle -/

section Search

variable {evs : List (LockEvent τ π)}

lemma waits_lookup (u : τ) : ((runLocks evs).1.waits t p).waitingFor.lookup u =
    (pendingWith (runLocks evs).2 t p x u).map Prod.fst := by
  by_cases hut : u = t
  · subst hut
    rw [pendingWith, update_self]
    exact AList.lookup_insert _
  · rw [pendingWith, update_of_ne hut, ← waitingFor_eq evs u]
    exact AList.lookup_insert_ne hut

lemma Waits.edge {v w : τ} (h : Waits (runLocks evs).1 (pendingWith (runLocks evs).2 t p x) v w) :
    EdgeTo ((runLocks evs).1.waits t p).waitEdges v w := by
  obtain ⟨q, y, hpending, hne, s, hs, hmem, -⟩ := h
  have hlookup : _ = (pendingWith (runLocks evs).2 t p x v).map Prod.fst := waits_lookup v
  rw [hpending] at hlookup
  exact mem_waitEdges.mpr ⟨q, s, hlookup, hs, (mem_erase_of_ne hne).mpr hmem⟩

/-- **Whoever of a cycle tries is aborted.** -/
theorem retry_throws {cycle : List τ} (ht : t ∈ cycle)
    (hcycle : WaitCycle (runLocks evs).1 (pendingWith (runLocks evs).2 t p x) cycle) :
    ((runLocks evs).1.apply (.attempt t p x)).2 = .aborted := by
  have htight := (runLocks_safe evs).tight
  obtain ⟨first, rest, last, rfl, hchain, hlast, hback⟩ := hcycle
  have haround := transGen_of_cycle hchain hlast hback ht
  have hdead : ((runLocks evs).1.waits t p).hasDeadlock t = true := by
    rw [hasDeadlock_iff]
    exact Relation.TransGen.mono (fun _ _ => Waits.edge) _ _ haround
  -- its own request is the first edge on the way
  have hrefuse : (runLocks evs).1.Refuses t p x := by
    obtain ⟨u, ⟨q, y, hq, hne, s, hs, hmem, hmode⟩, -⟩ := Relation.TransGen.head'_iff.mp haround
    rw [pendingWith, update_self, Option.some.injEq, Prod.mk.injEq] at hq
    obtain ⟨rfl, rfl⟩ := hq
    exact htight.refuses_of_conflict hs hne hmem hmode
  obtain ⟨hgrants, -⟩ | ⟨-, -, ⟨-, hreply, -⟩ | ⟨halive, -⟩⟩ :=
    apply_attempt htight t p x
  · exact absurd hrefuse hgrants
  · exact hreply
  · rw [hdead] at halive
    cases halive

end Search

/-! ## No cycle comes about -/

/-- No transaction waits for itself. -/
def Acyclic (m : LockManager τ π) (pending : τ → Option (π × Bool)) : Prop :=
  ∀ t, ¬ Relation.TransGen (Waits m pending) t t

section Steps

variable {m' : LockManager τ π} {pending pending' : τ → Option (π × Bool)}

omit [DecidableEq τ] [DecidableEq π] in
lemma not_transGen_of_none (h : pending t = none) : ¬ Relation.TransGen (Waits m pending) t t := by
  intro hcycle
  obtain ⟨u, ⟨p, x, hpending, -⟩, -⟩ := Relation.TransGen.head'_iff.mp hcycle
  rw [h] at hpending
  cases hpending

omit [DecidableEq τ] [DecidableEq π] in
lemma Acyclic.stop (h : Acyclic m pending) (hlocks : m'.locks = m.locks) (ht : pending' t = none)
    (hother : ∀ u, u ≠ t → pending' u = pending u) : Acyclic m' pending' := by
  intro a
  refine acyclic_of_node t h (fun v w hvw hv _ => ?_) (not_transGen_of_none ht) a
  obtain ⟨p, x, hpending, hne, s, hs, hmem, hmode⟩ := hvw
  rw [hother v hv] at hpending
  rw [hlocks] at hs
  exact ⟨p, x, hpending, hne, s, hs, hmem, hmode⟩

lemma Acyclic.grant (h : Acyclic m pending) {s : LockState τ} (hs : m.Grants t p x s)
    (hlocks : m'.locks = Function.update m.locks p (some s)) (ht : pending' t = none)
    (hother : ∀ u, u ≠ t → pending' u = pending u) : Acyclic m' pending' := by
  intro a
  refine acyclic_of_node t h (fun v w hvw hv hw => ?_) (not_transGen_of_none ht) a
  obtain ⟨q, y, hpending, hne, s', hs', hmem, hmode⟩ := hvw
  rw [hother v hv] at hpending
  by_cases hq : q = p
  · subst hq
    rw [hlocks, update_self, Option.some.injEq] at hs'
    subst hs'
    -- the page is not exclusive, since somebody else holds it as well
    have hshared : s.exclusive = false := by
      by_contra hexclusive
      have halone := hs.alone (Bool.eq_true_of_not_eq_false hexclusive)
      rw [halone, mem_singleton] at hmem
      exact hw hmem
    have hheld := (hs.others w hw).mp hmem
    unfold LockManager.holdsLock at hheld
    cases hlock : m.locks q with
    | none => simp [hlock] at hheld
    | some s₀ =>
      rw [hshared] at hmode
      refine ⟨q, y, hpending, hne, s₀, hlock, by simpa [hlock] using hheld, .inl ?_⟩
      simpa using hmode
  · rw [hlocks, update_of_ne hq] at hs'
    exact ⟨q, y, hpending, hne, s', hs', hmem, hmode⟩

omit [DecidableEq π] in
lemma Acyclic.drop (h : Acyclic m pending) (gone : π → Bool) (hlocks : ∀ q, m'.locks q =
    if gone q then (m.locks q).bind (LockState.without t) else m.locks q) : Acyclic m' pending := by
  intro a hcycle
  refine h a (Relation.TransGen.mono (fun v w hvw => ?_) _ _ hcycle)
  obtain ⟨q, y, hpending, hne, s, hs, hmem, hmode⟩ := hvw
  rw [hlocks q] at hs
  split_ifs at hs with hgone
  · obtain ⟨s₀, hs₀, hwithout⟩ := Option.bind_eq_some_iff.mp hs
    obtain ⟨hholders, hexclusive⟩ := without_eq_some hwithout
    rw [hexclusive] at hmode
    exact ⟨q, y, hpending, hne, s₀, hs₀, ((hholders w).mp hmem).2, hmode⟩
  · exact ⟨q, y, hpending, hne, s, hs, hmem, hmode⟩

end Steps

lemma Acyclic.wait {evs : List (LockEvent τ π)}
    (h : Acyclic (runLocks evs).1 (pendingIn (runLocks evs).2))
    (halive : ((runLocks evs).1.waits t p).hasDeadlock t = false) :
    Acyclic (runLocks evs).1 (pendingWith (runLocks evs).2 t p x) := by
  intro a
  refine acyclic_of_node t h (fun v w hvw hv _ => ?_) (fun hcycle => ?_) a
  · obtain ⟨q, y, hpending, hrest⟩ := hvw
    rw [pendingWith, update_of_ne hv] at hpending
    exact ⟨q, y, hpending, hrest⟩
  · have hdead := (hasDeadlock_iff _ t).mpr
      (Relation.TransGen.mono (fun _ _ => Waits.edge) _ _ hcycle)
    rw [halive] at hdead
    cases hdead

/-- **One step.** -/
lemma acyclic_step (evs : List (LockEvent τ π)) (e : LockEvent τ π)
    (h : Acyclic (runLocks evs).1 (pendingIn (runLocks evs).2)) :
    Acyclic (runLocks (evs ++ [e])).1 (pendingIn (runLocks (evs ++ [e])).2) := by
  have htight := (runLocks_safe evs).tight
  have hpending (u : τ) := pendingIn_append (runLocks evs).2 e ((runLocks evs).1.apply e).2 u
  rw [runLocks_append]
  cases e with
  | attempt t p x =>
    have hother (u : τ) (hu : u ≠ t) : pendingIn ((runLocks evs).2 ++ [(.attempt t p x,
        ((runLocks evs).1.apply (.attempt t p x)).2)]) u = pendingIn (runLocks evs).2 u := by
      rw [hpending u]
      exact if_neg (Ne.symm hu)
    have hself : pendingIn ((runLocks evs).2 ++ [(.attempt t p x,
        ((runLocks evs).1.apply (.attempt t p x)).2)]) t =
        if ((runLocks evs).1.apply (.attempt t p x)).2 = .waiting then some (p, x) else none := by
      rw [hpending t]
      exact if_pos rfl
    obtain ⟨-, hreply, ⟨s, hs, hlocks⟩, -⟩ | ⟨-, hlocks, ⟨-, hreply, -⟩ | ⟨halive, happly⟩⟩ :=
      apply_attempt htight t p x
    · exact h.grant hs hlocks (hself.trans (by simp [hreply])) hother
    · exact h.stop hlocks (hself.trans (by simp [hreply])) hother
    · rw [happly] at hself hother ⊢
      have hwith : pendingIn ((runLocks evs).2 ++ [(.attempt t p x, .waiting)]) =
          pendingWith (runLocks evs).2 t p x := by
        funext u
        by_cases hu : u = t
        · subst hu
          rw [hself, pendingWith, update_self]
          rfl
        · rw [pendingWith, update_of_ne hu]
          exact hother u hu
      rw [hwith]
      exact h.wait halive
  | interrupt t =>
    refine h.stop (t := t) rfl ?_ fun u hu => ?_
    · rw [hpending t]
      exact if_pos rfl
    · rw [hpending u]
      exact if_neg (Ne.symm hu)
  | release t p =>
    have hsame : pendingIn ((runLocks evs).2 ++ [(.release t p,
        ((runLocks evs).1.apply (.release t p)).2)]) = pendingIn (runLocks evs).2 := funext hpending
    rw [hsame]
    refine h.drop (t := t) (fun q => q = p) fun q => ?_
    simpa [LockManager.apply] using release_locks htight t p q
  | releaseAll t =>
    have hsame : pendingIn ((runLocks evs).2 ++ [(.releaseAll t,
        ((runLocks evs).1.apply (.releaseAll t)).2)]) = pendingIn (runLocks evs).2 :=
          funext hpending
    rw [hsame]
    exact h.drop (t := t) (fun _ => true) fun q => rfl

lemma waits_acyclic (evs : List (LockEvent τ π)) :
    Acyclic (runLocks evs).1 (pendingIn (runLocks evs).2) := by
  induction evs using List.reverseRecOn with
  | nil => exact fun t => not_transGen_of_none rfl
  | append_singleton evs e ih => exact acyclic_step evs e ih

/-- **No deadlock goes unnoticed.**  In every state of a run, a try that leaves the transaction in a
cycle of transactions that wait for each other throws, be it the first one or a retry; and so no
state has such a cycle. -/
theorem deadlock_noticed :
    (∀ (evs : List (LockEvent τ π)) (t : τ) (p : π) (x : Bool) (cycle : List τ), t ∈ cycle →
      WaitCycle (runLocks evs).1 (pendingWith (runLocks evs).2 t p x) cycle →
      ((runLocks evs).1.apply (.attempt t p x)).2 = .aborted) ∧
    ∀ (evs : List (LockEvent τ π)) (cycle : List τ),
      ¬ WaitCycle (runLocks evs).1 (pendingIn (runLocks evs).2) cycle := by
  refine ⟨fun evs t p x cycle ht hcycle => retry_throws ht hcycle, ?_⟩
  intro evs cycle hcycle
  obtain ⟨first, rest, last, rfl, hchain, hlast, hback⟩ := hcycle
  exact waits_acyclic evs first (transGen_of_cycle hchain hlast hback List.mem_cons_self)

/-- Transaction 1 waits for page 20 of 2, which asks for page 10 of 1. -/
theorem crossed_deadlock_noticed :
    ((runLocks crossedLocks).1.apply (.attempt 2 10 false)).2 = .aborted := by
  refine deadlock_noticed.1 crossedLocks 2 10 false [2, 1] (by decide)
    ⟨2, [1], 1, rfl, ?_, rfl, ?_⟩
  · have hpage : (runLocks crossedLocks).1.locks 10 = some ⟨[1], by decide, true⟩ := by decide
    exact List.isChain_pair.mpr ⟨10, false, by decide, by decide, _, hpage, by decide, .inr rfl⟩
  · have hpage : (runLocks crossedLocks).1.locks 20 = some ⟨[2], by decide, true⟩ := by decide
    exact ⟨20, true, by decide, by decide, _, hpage, by decide, .inl rfl⟩

end BallotBox.SimpleDb
