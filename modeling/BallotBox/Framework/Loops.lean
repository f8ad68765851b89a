import Mathlib

/-!
# Loops that return from inside

The body of a loop goes on from a new state or leaves the loop with a result (`Round`).
`Loop.Reaches.invariant` is the rule for what holds at every start of the body,
`Loop.exists_returns` the one for termination.
-/

namespace BallotBox

/-- What one run of a loop's body comes to. -/
inductive Round (σ α : Type*)
  | again (s : σ)
  | leave (a : α) (s : σ)

namespace Loop

variable {σ α : Type*} {body : σ → Round σ α}

/-- The body is started in the second state when the loop is entered in the first. -/
def Reaches (body : σ → Round σ α) : σ → σ → Prop :=
  Relation.ReflTransGen fun s s' => body s = .again s'

/-- The loop, entered in a state, returns. -/
def Returns (body : σ → Round σ α) (s : σ) (a : α) (s' : σ) : Prop :=
  ∃ t, Reaches body s t ∧ body t = .leave a s'

lemma Reaches.invariant {I : σ → Prop} (hstep : ∀ s s', I s → body s = .again s' → I s') {s s' : σ}
    (hreaches : Reaches body s s') (h : I s) : I s' := by
  induction hreaches with
  | refl => exact h
  | tail _ hagain ih => exact hstep _ _ ih hagain

lemma exists_returns {I : σ → Prop} (hstep : ∀ s s', I s → body s = .again s' → I s') (μ : σ → ℕ)
    (hdecreases : ∀ s s', I s → body s = .again s' → μ s' < μ s) {s : σ} (h : I s) :
    ∃ a s', Returns body s a s' := by
  -- induction on the measure: the state after a round that goes on has a smaller one
  induction hn : μ s using Nat.strong_induction_on generalizing s with
  | _ n ih =>
    cases hround : body s with
    | leave a s' => exact ⟨a, s', s, Relation.ReflTransGen.refl, hround⟩
    | again s' =>
      have hlt := hdecreases s s' h hround
      obtain ⟨a, final, t, hreaches, hleave⟩ := ih (μ s') (hn ▸ hlt) (hstep s s' h hround) rfl
      exact ⟨a, final, t, Relation.ReflTransGen.head hround hreaches, hleave⟩

end Loop

end BallotBox
