import BallotBox.Framework.Runs

/-!
# Processes that share a state

A process has returned, or it calls on its surroundings and goes on with the answer.  A `Pool` is a
family of processes with a state they share; its step is one call of one process, and `env` decides
what the call does and answers.
-/

namespace BallotBox

/-- A program cut at its calls, with the answers `ρ c` to a call `c`. -/
inductive Process (κ : Type) (ρ : κ → Type) (α : Type)
  | done (a : α)
  | call (c : κ) (k : ρ c → Process κ ρ α)

namespace Process

variable {κ : Type} {ρ : κ → Type} {α β : Type}

/-- One process after the other. -/
def andThen : Process κ ρ α → (α → Process κ ρ β) → Process κ ρ β
  | .done a, f => f a
  | .call c k, f => .call c fun r => (k r).andThen f

instance : Monad (Process κ ρ) where
  pure := .done
  bind := andThen

/-- A single call. -/
def ask (c : κ) : Process κ ρ (ρ c) := .call c .done

/-- What a process has returned. -/
def result? : Process κ ρ α → Option α
  | .done a => some a
  | .call _ _ => none

lemma eq_done_of_result? {p : Process κ ρ α} {a : α} (h : p.result? = some a) : p = .done a := by
  cases p with
  | done b => rw [Option.some.inj h]
  | call c k => cases h

/-- Some answers to its calls make the process return this. -/
def Returns (a : α) : Process κ ρ α → Prop
  | .done b => b = a
  | .call _ k => ∃ r, (k r).Returns a

/-- Whatever the answers, the process returns with its postcondition. -/
def Always (Q : α → Prop) (p : Process κ ρ α) : Prop := ∀ a, p.Returns a → Q a

lemma Always.pure {Q : α → Prop} {a : α} (h : Q a) : Always Q (pure a : Process κ ρ α) :=
  fun _ ha => ha ▸ h

lemma Always.bind {Q : β → Prop} {p : Process κ ρ α} {f : α → Process κ ρ β}
    (h : ∀ a, Always Q (f a)) : Always Q (p >>= f) := by
  induction p with
  | done a => exact h a
  | call c k ih =>
    rintro b ⟨r, hb⟩
    exact ih r b hb

lemma Always.bind_of {P : α → Prop} {Q : β → Prop} {p : Process κ ρ α} {f : α → Process κ ρ β}
    (hp : Always P p) (h : ∀ a, P a → Always Q (f a)) : Always Q (p >>= f) := by
  induction p with
  | done a => exact h a (hp a rfl)
  | call c k ih =>
    rintro b ⟨r, hb⟩
    exact ih r (fun a ha => hp a ⟨r, ha⟩) b hb

/-! ## Pools -/

variable {ι σ χ : Type}

/-- Processes and the state they share. -/
structure Pool (κ : Type) (ρ : κ → Type) (α ι σ : Type) where
  shared : σ
  procs : ι → Process κ ρ α

/-- The next call of a process, with the choice that decides it. -/
def Pool.step [DecidableEq ι] (env : σ → ι → (c : κ) → χ → Option (ρ c × σ))
    (p : Pool κ ρ α ι σ) (e : ι × χ) : Option (Pool κ ρ α ι σ) :=
  match p.procs e.1 with
  | .done _ => none
  | .call c k => (env p.shared e.1 c e.2).map fun r => ⟨r.2, Function.update p.procs e.1 (k r.1)⟩

variable {env : σ → ι → (c : κ) → χ → Option (ρ c × σ)}

lemma Pool.step_eq_some [DecidableEq ι] {p p' : Pool κ ρ α ι σ} {e : ι × χ}
    (h : p.step env e = some p') :
    ∃ c k r s, p.procs e.1 = .call c k ∧ env p.shared e.1 c e.2 = some (r, s) ∧
      p' = ⟨s, Function.update p.procs e.1 (k r)⟩ := by
  unfold Pool.step at h
  cases hproc : p.procs e.1 with
  | done a =>
    rw [hproc] at h
    cases h
  | call c k =>
    rw [hproc] at h
    obtain ⟨⟨r, s⟩, henv, rfl⟩ := Option.map_eq_some_iff.mp h
    exact ⟨c, k, r, s, rfl, henv, rfl⟩

/-- A condition on the next call, its state and the choice that decides it. -/
def Pool.Meets (C : σ → ι → κ → χ → Prop) (p : Pool κ ρ α ι σ) (e : ι × χ) : Prop :=
  ∀ c k, p.procs e.1 = .call c k → C p.shared e.1 c e.2

/-! ## One process among others -/

variable (Γ : ι → σ → σ → Prop)

/-- What the other processes may do. -/
def Others (i : ι) : σ → σ → Prop := Relation.ReflTransGen fun s s' => ∃ j, j ≠ i ∧ Γ j s s'

/-- The others leave this as it is. -/
def Stable (i : ι) (P : σ → Prop) : Prop := ∀ s s', Others Γ i s s' → P s → P s'

lemma stable_of_step {i : ι} {P : σ → Prop} (h : ∀ j s s', j ≠ i → Γ j s s' → P s → P s') :
    Stable Γ i P := by
  intro s s' hothers hP
  induction hothers with
  | refl => exact hP
  | tail _ hstep ih =>
    obtain ⟨j, hj, hΓ⟩ := hstep
    exact h j _ _ hj hΓ ih

variable (env) (C : σ → ι → κ → χ → Prop)

/-- Among others that keep to `Γ`, the calls of the process keep to it, and it returns with its
postcondition. -/
def Safe (i : ι) (Q : α → σ → Prop) : Process κ ρ α → σ → Prop
  | .done a, s => ∀ s', Others Γ i s s' → Q a s'
  | .call c k, s => ∀ s', Others Γ i s s' → ∀ x r s'', C s' i c x → env s' i c x = some (r, s'') →
      Γ i s' s'' ∧ Safe i Q (k r) s''

variable {Γ env C}

lemma Safe.others {i : ι} {Q : α → σ → Prop} {p : Process κ ρ α} {s s' : σ}
    (h : Safe env Γ C i Q p s) (hothers : Others Γ i s s') : Safe env Γ C i Q p s' := by
  cases p with
  | done a => exact fun s'' h' => h s'' (hothers.trans h')
  | call c k => exact fun s'' h' => h s'' (hothers.trans h')

lemma Safe.done {i : ι} {Q : α → σ → Prop} {a : α} {s : σ} (hstable : Stable Γ i (Q a))
    (h : Q a s) : Safe env Γ C i Q (.done a) s :=
  fun s' hothers => hstable s s' hothers h

lemma Safe.call {i : ι} {Q : α → σ → Prop} {P : σ → Prop} {c : κ} {k : ρ c → Process κ ρ α}
    (hstable : Stable Γ i P) (hcall : ∀ s x r s', P s → C s i c x → env s i c x = some (r, s') →
      Γ i s s' ∧ Safe env Γ C i Q (k r) s') {s : σ} (h : P s) :
    Safe env Γ C i Q (.call c k) s :=
  fun s' hothers x r s'' hx henv => hcall s' x r s'' (hstable s s' hothers h) hx henv

lemma Safe.bind {i : ι} {Q : β → σ → Prop} {p : Process κ ρ α} {f : α → Process κ ρ β} {s : σ}
    (h : Safe env Γ C i (fun a => Safe env Γ C i Q (f a)) p s) :
    Safe env Γ C i Q (p >>= f) s := by
  induction p generalizing s with
  | done a => exact h s .refl
  | call c k ih =>
    intro s' hothers x r s'' hx henv
    obtain ⟨hΓ, hrest⟩ := h s' hothers x r s'' hx henv
    exact ⟨hΓ, ih r hrest⟩

lemma Safe.mono {i : ι} {Q Q' : α → σ → Prop} {p : Process κ ρ α} {s : σ}
    (h : Safe env Γ C i Q p s) (himp : ∀ a s, Q a s → Q' a s) : Safe env Γ C i Q' p s := by
  induction p generalizing s with
  | done a => exact fun s' hothers => himp a s' (h s' hothers)
  | call c k ih =>
    intro s' hothers x r s'' hx henv
    obtain ⟨hΓ, hrest⟩ := h s' hothers x r s'' hx henv
    exact ⟨hΓ, ih r hrest⟩

/-- **Pools of safe processes.** Every process is still safe after every run, and what no process
may break holds. -/
theorem safe_run [DecidableEq ι] {Q : ι → α → σ → Prop} {I : σ → Prop}
    (hI : ∀ i s s', Γ i s s' → I s → I s')
    {p₀ p : Pool κ ρ α ι σ} {evs : List (ι × χ)} (hstart : I p₀.shared)
    (hsafe : ∀ i, Safe env Γ C i (Q i) (p₀.procs i) p₀.shared)
    (hevs : EveryStep (Pool.step env) (fun _ p e => p.Meets C e) p₀ evs)
    (hrun : execAll (Pool.step env) p₀ evs = some p) :
    I p.shared ∧ ∀ i, Safe env Γ C i (Q i) (p.procs i) p.shared := by
  refine execAll_invariant (J := fun _ p => I p.shared ∧
    ∀ i, Safe env Γ C i (Q i) (p.procs i) p.shared) ⟨hstart, hsafe⟩ ?_ hevs hrun
  intro _ p e p' hp hmeets hstep
  obtain ⟨c, k, r, s, hproc, henv, rfl⟩ := Pool.step_eq_some hstep
  have hown := hp.2 e.1
  rw [hproc] at hown
  obtain ⟨hΓ, hrest⟩ := hown p.shared .refl e.2 r s (hmeets c k hproc) henv
  refine ⟨hI e.1 _ _ hΓ hp.1, fun i => ?_⟩
  by_cases hi : i = e.1
  · subst hi
    simpa using hrest
  · dsimp only
    rw [Function.update_of_ne hi]
    exact (hp.2 i).others (.single ⟨e.1, Ne.symm hi, hΓ⟩)

lemma Safe.post {i : ι} {Q : α → σ → Prop} {a : α} {s : σ} (h : Safe env Γ C i Q (.done a) s) :
    Q a s :=
  h s .refl

end Process

end BallotBox
