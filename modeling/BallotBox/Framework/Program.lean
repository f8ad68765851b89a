import Mathlib

/-!
# Programs with state and errors, and rules for them

A fallible program over a state is an `EStateM ε σ α`.  `Triple P x Q E` says what it does from the
states of `P`: a value leaves it in `Q`, an error in `E`.
-/

namespace BallotBox

universe u

variable {ε σ α β : Type u}
variable {s s' : σ} {a : α} {e : ε}

/-- From a state of `P`, the program ends in `Q` with a value or in `E` with an error. -/
def Triple (P : σ → Prop) (x : EStateM ε σ α) (Q : α → σ → Prop) (E : ε → σ → Prop) : Prop :=
  ∀ s, P s → match x.run s with
    | .ok a s' => Q a s'
    | .error e s' => E e s'

/-- The program keeps `J`, whether it ends with a value or with an error. -/
abbrev Invariant (J : σ → Prop) (x : EStateM ε σ α) : Prop := Triple J x (fun _ => J) (fun _ => J)

namespace Triple

variable {P P' : σ → Prop} {Q Q' : α → σ → Prop} {R : β → σ → Prop} {E E' : ε → σ → Prop}
  {x : EStateM ε σ α}

lemma of_ok (h : Triple P x Q E) (hs : P s) (hx : x.run s = .ok a s') : Q a s' := by
  simpa [hx] using h s hs

lemma of_error (h : Triple P x Q E) (hs : P s) (hx : x.run s = .error e s') : E e s' := by
  simpa [hx] using h s hs

lemma runs (s₀ : σ) : Triple (fun s => s = s₀) x (fun a s => x.run s₀ = .ok a s)
    (fun e s => x.run s₀ = .error e s) := by
  rintro s rfl
  cases hx : x.run s with
  | ok a s' => rfl
  | error e s' => rfl

lemma returns (h : Triple P x Q (fun _ _ => False)) (hs : P s) :
    ∃ a s', x.run s = .ok a s' ∧ Q a s' := by
  cases hx : x.run s with
  | ok a s' => exact ⟨a, s', rfl, h.of_ok hs hx⟩
  | error e s' => exact (h.of_error hs hx).elim

lemma conseq (h : Triple P' x Q' E') (hP : ∀ s, P s → P' s) (hQ : ∀ a s, Q' a s → Q a s)
    (hE : ∀ e s, E' e s → E e s) : Triple P x Q E := by
  intro s hs
  cases hx : x.run s with
  | ok a s' => exact hQ a s' (h.of_ok (hP s hs) hx)
  | error e s' => exact hE e s' (h.of_error (hP s hs) hx)

lemma pre (h : Triple P' x Q E) (hP : ∀ s, P s → P' s) : Triple P x Q E :=
  h.conseq hP (fun _ _ => id) (fun _ _ => id)

lemma post (h : Triple P x Q' E) (hQ : ∀ a s, Q' a s → Q a s) : Triple P x Q E :=
  h.conseq (fun _ => id) hQ (fun _ _ => id)

lemma err (h : Triple P x Q E') (hE : ∀ e s, E' e s → E e s) : Triple P x Q E :=
  h.conseq (fun _ => id) (fun _ _ => id) hE

lemma ends (h : Triple P x Q' E') (hQ : ∀ a s, Q' a s → Q a s) (hE : ∀ e s, E' e s → E e s) :
    Triple P x Q E := h.conseq (fun _ => id) hQ hE

lemma and (h : Triple P x Q E) (h' : Triple P' x Q' E') :
    Triple (fun s => P s ∧ P' s) x (fun a s => Q a s ∧ Q' a s) (fun e s => E e s ∧ E' e s) := by
  intro s hs
  cases hx : x.run s with
  | ok a s' => exact ⟨h.of_ok hs.1 hx, h'.of_ok hs.2 hx⟩
  | error e s' => exact ⟨h.of_error hs.1 hx, h'.of_error hs.2 hx⟩

lemma of_imp {p : Prop} (h : p → Triple P x Q E) : Triple (fun s => p ∧ P s) x Q E :=
  fun s hs => h hs.1 s hs.2

lemma exists_elim {ι : Sort*} {F : ι → σ → Prop} (h : ∀ i, Triple (F i) x Q E) :
    Triple (fun s => ∃ i, F i s) x Q E := fun s ⟨i, hi⟩ => h i s hi

lemma pure (a : α) : Triple (Q a) (Pure.pure a : EStateM ε σ α) Q E := fun _ hs => hs

lemma ret (a : α) : Triple P (Pure.pure a : EStateM ε σ α) (fun _ => P) E := fun _ hs => hs

lemma throw (e : ε) : Triple (E e) (MonadExcept.throw e : EStateM ε σ α) Q E := fun _ hs => hs

lemma raise (e : ε) : Triple P (MonadExcept.throw e : EStateM ε σ α) Q (fun _ => P) :=
  fun _ hs => hs

lemma bind {f : α → EStateM ε σ β} (hx : Triple P x Q E) (hf : ∀ a, Triple (Q a) (f a) R E) :
    Triple P (x >>= f) R E := by
  intro s hs
  rw [EStateM.run_bind]
  cases h : x.run s with
  | ok a s' => exact hf a s' (hx.of_ok hs h)
  | error e s' => exact hx.of_error hs h

lemma bind_imp {p : α → Prop} {f : α → EStateM ε σ β} (hx : Triple P x (fun a s => p a ∧ Q a s) E)
    (hf : ∀ a, p a → Triple (Q a) (f a) R E) : Triple P (x >>= f) R E :=
  bind hx fun a => of_imp (hf a)

lemma get_bind {f : σ → EStateM ε σ α} (h : ∀ a, P a → Triple (fun s => s = a) (f a) Q E) :
    Triple P (get >>= f) Q E := fun s hs => h s hs s rfl

lemma ite {c : Prop} [Decidable c] {y : EStateM ε σ α} (hx : c → Triple P x Q E)
    (hy : ¬ c → Triple P y Q E) : Triple P (if c then x else y) Q E := by
  by_cases h : c
  · rw [if_pos h]
    exact hx h
  · rw [if_neg h]
    exact hy h

lemma forM {γ : Type u} {I : List γ → σ → Prop} {f : γ → EStateM ε σ PUnit} {l : List γ}
    (h : ∀ done i rest, l = done ++ i :: rest →
      Triple (I done) (f i) (fun _ => I (done ++ [i])) E) :
    Triple (I []) (l.forM f) (fun _ => I l) E := by
  have hrest (done rest : List γ) (hl : l = done ++ rest) :
      Triple (I done) (rest.forM f) (fun _ => I l) E := by
    induction rest generalizing done with
    | nil =>
      intro s hs
      simpa [hl] using hs
    | cons i rest ih => exact bind (h done i rest hl) fun _ => ih (done ++ [i]) (by simpa using hl)
  exact hrest [] l rfl

lemma forM_mem {γ : Type u} {I : σ → Prop} {f : γ → EStateM ε σ PUnit} {l : List γ}
    (h : ∀ i ∈ l, Triple I (f i) (fun _ => I) E) : Triple I (l.forM f) (fun _ => I) E := by
  induction l with
  | nil => exact fun s hs => hs
  | cons i l ih =>
    exact bind (h i List.mem_cons_self) fun _ => ih fun j hj => h j (List.mem_cons_of_mem _ hj)

end Triple

/-! ## Looking at a result -/

/-- Runs a program and returns how it ended. -/
def attempt (x : EStateM ε σ α) : EStateM ε σ (Except ε α) := fun s =>
  match x.run s with
  | .ok a s' => .ok (.ok a) s'
  | .error e s' => .ok (.error e) s'

lemma attempt_run_ok {x : EStateM ε σ α} (h : x.run s = .ok a s') :
    (attempt x).run s = .ok (.ok a) s' := by
  simp only [attempt, EStateM.run] at h ⊢
  rw [h]

lemma attempt_run_error {x : EStateM ε σ α} (h : x.run s = .error e s') :
    (attempt x).run s = .ok (.error e) s' := by
  simp only [attempt, EStateM.run] at h ⊢
  rw [h]

lemma Triple.attempt_bind {P : σ → Prop} {Q : α → σ → Prop} {R : β → σ → Prop}
    {E F : ε → σ → Prop} {x : EStateM ε σ α} {f : Except ε α → EStateM ε σ β}
    (hx : Triple P x Q E) (hok : ∀ a, Triple (Q a) (f (.ok a)) R F)
    (herror : ∀ e, Triple (E e) (f (.error e)) R F) : Triple P (attempt x >>= f) R F := by
  intro s hs
  rw [EStateM.run_bind]
  cases h : x.run s with
  | ok a s' =>
    rw [attempt_run_ok h]
    exact hok a s' (hx.of_ok hs h)
  | error e s' =>
    rw [attempt_run_error h]
    exact herror e s' (hx.of_error hs h)

end BallotBox
