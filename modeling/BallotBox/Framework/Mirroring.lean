import BallotBox.Framework.Program

/-!
# Programs that do the same on different states

A program on one kind of state is compared with a program on another along a map `f` of the states:
`Mirrors f P R x y` says that from every state of `P` the program `x` ends as `y` does from the
image of the state.  What `x` does to its own state is a matter of `Triple`.
-/

namespace BallotBox

universe u

variable {ε σ τ α β : Type u}

/-- Two results agree: the same error, or values related by `R`, and the second state is the image
of the first. -/
def Matches (f : σ → τ) (R : α → α → Prop) : EStateM.Result ε σ α → EStateM.Result ε τ α → Prop
  | .ok a s, .ok b t => R a b ∧ t = f s
  | .error e s, .error e' t => e' = e ∧ t = f s
  | _, _ => False

/-- From every state of `P`, the program `y` does in the image what `x` does in the state. -/
def Mirrors (f : σ → τ) (P : σ → Prop) (R : α → α → Prop) (x : EStateM ε σ α)
    (y : EStateM ε τ α) : Prop :=
  ∀ s, P s → Matches f R (x.run s) (y.run (f s))

/-- The values agree as well. -/
abbrev Agrees (f : σ → τ) (P : σ → Prop) (x : EStateM ε σ α) (y : EStateM ε τ α) : Prop :=
  Mirrors f P Eq x y

lemma Triple.ends_anyhow {P : σ → Prop} {x : EStateM ε σ α} :
    Triple P x (fun _ _ => True) (fun _ _ => True) :=
  fun s _ => by cases x.run s <;> trivial

namespace Mirrors

variable {f : σ → τ} {P P' : σ → Prop} {R : α → α → Prop} {S : β → β → Prop}
  {x x' : EStateM ε σ α} {y y' : EStateM ε τ α} {Q : α → σ → Prop} {E : ε → σ → Prop}
  {k : α → EStateM ε σ β} {k' : α → EStateM ε τ β}

/-- How a mirrored program can end, and how its mirror image then ends. -/
lemma cases (h : Mirrors f P R x y) {s : σ} (hs : P s) :
    (∃ a b s', x.run s = .ok a s' ∧ y.run (f s) = .ok b (f s') ∧ R a b) ∨
    ∃ e s', x.run s = .error e s' ∧ y.run (f s) = .error e (f s') := by
  have hmatch := h s hs
  cases hx : x.run s with
  | ok a s' =>
    cases hy : y.run (f s) with
    | ok b t =>
      obtain ⟨hR, rfl⟩ := hy ▸ hx ▸ hmatch
      exact .inl ⟨a, b, s', rfl, rfl, hR⟩
    | error e t => exact (hy ▸ hx ▸ hmatch).elim
  | error e s' =>
    cases hy : y.run (f s) with
    | ok b t => exact (hy ▸ hx ▸ hmatch).elim
    | error e' t =>
      obtain ⟨rfl, rfl⟩ := hy ▸ hx ▸ hmatch
      exact .inr ⟨_, s', rfl, rfl⟩

lemma pre (h : Mirrors f P' R x y) (hP : ∀ s, P s → P' s) : Mirrors f P R x y :=
  fun s hs => h s (hP s hs)

lemma exists_elim {ι : Sort*} {F : ι → σ → Prop} (h : ∀ i, Mirrors f (F i) R x y) :
    Mirrors f (fun s => ∃ i, F i s) R x y := fun s ⟨i, hi⟩ => h i s hi

lemma pure (a : α) : Agrees f P (Pure.pure a : EStateM ε σ α) (Pure.pure a) :=
  fun _ _ => ⟨rfl, rfl⟩

lemma throw (e : ε) : Mirrors f P R (MonadExcept.throw e : EStateM ε σ α) (MonadExcept.throw e) :=
  fun _ _ => ⟨rfl, rfl⟩

/-- Steps that agree up to `R` are followed by programs that agree on related values. -/
lemma bind_rel (h : Mirrors f P R x y) (hx : Triple P x Q E)
    (hk : ∀ a b, R a b → Mirrors f (Q a) S (k a) (k' b)) :
    Mirrors f P S (x >>= k) (y >>= k') := by
  intro s hs
  rw [EStateM.run_bind, EStateM.run_bind]
  rcases h.cases hs with ⟨a, b, s', hok, hok', hR⟩ | ⟨e, s', herror, herror'⟩
  · rw [hok, hok']
    exact hk a b hR s' (hx.of_ok hs hok)
  · rw [herror, herror']
    exact ⟨rfl, rfl⟩

lemma bind (h : Agrees f P x y) (hx : Triple P x Q E)
    (hk : ∀ a, Mirrors f (Q a) S (k a) (k' a)) : Mirrors f P S (x >>= k) (y >>= k') :=
  h.bind_rel hx fun a _ hab => hab ▸ hk a

/-- What follows agrees from every state. -/
lemma andThen (h : Agrees f P x y) (hk : ∀ a, Mirrors f (fun _ => True) S (k a) (k' a)) :
    Mirrors f P S (x >>= k) (y >>= k') :=
  h.bind Triple.ends_anyhow hk

/-- The value of the first step is not looked at, so it need not agree. -/
lemma discard {l : EStateM ε σ β} {l' : EStateM ε τ β} (h : Mirrors f P (fun _ _ => True) x y)
    (hk : Mirrors f (fun _ => True) S l l') :
    Mirrors f P S (x >>= fun _ => l) (y >>= fun _ => l') :=
  h.bind_rel Triple.ends_anyhow fun _ _ _ => hk

lemma get_bind {k : σ → EStateM ε σ α} {k' : τ → EStateM ε τ α}
    (h : ∀ a, P a → Mirrors f (fun s => s = a) R (k a) (k' (f a))) :
    Mirrors f P R (get >>= k) (get >>= k') :=
  fun s hs => h s hs s rfl

lemma modify {g : σ → σ} {g' : τ → τ} (h : ∀ s, g' (f s) = f (g s)) :
    Agrees f P (modify g : EStateM ε σ PUnit) (modify g' : EStateM ε τ PUnit) :=
  fun s _ => ⟨rfl, h s⟩

lemma ite {c : Prop} [Decidable c] (h : c → Mirrors f P R x y) (h' : ¬ c → Mirrors f P R x' y') :
    Mirrors f P R (if c then x else x') (if c then y else y') := by
  split_ifs with hc
  · exact h hc
  · exact h' hc

lemma forM {g : α → EStateM ε σ PUnit} {g' : α → EStateM ε τ PUnit}
    (h : ∀ a, Agrees f (fun _ => True) (g a) (g' a)) (l : List α) :
    Agrees f P (l.forM g) (l.forM g') := by
  induction l generalizing P with
  | nil => exact Mirrors.pure _
  | cons a l ih => exact andThen ((h a).pre fun _ _ => trivial) fun _ => ih

/-- Both look at how the first part ended, and go on from there. -/
lemma attempt_bind {k : Except ε α → EStateM ε σ β} {k' : Except ε α → EStateM ε τ β}
    (h : Mirrors f P R x y) (hx : Triple P x Q E)
    (hok : ∀ a b, R a b → Mirrors f (Q a) S (k (.ok a)) (k' (.ok b)))
    (herror : ∀ e, Mirrors f (E e) S (k (.error e)) (k' (.error e))) :
    Mirrors f P S (attempt x >>= k) (attempt y >>= k') := by
  intro s hs
  rw [EStateM.run_bind, EStateM.run_bind]
  rcases h.cases hs with ⟨a, b, s', hrun, hrun', hR⟩ | ⟨e, s', hrun, hrun'⟩
  · rw [attempt_run_ok hrun, attempt_run_ok hrun']
    exact hok a b hR s' (hx.of_ok hs hrun)
  · rw [attempt_run_error hrun, attempt_run_error hrun']
    exact herror e s' (hx.of_error hs hrun)

end Mirrors

end BallotBox
