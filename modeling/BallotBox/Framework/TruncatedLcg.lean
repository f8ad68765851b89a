import Mathlib

/-!
# Truncated linear congruential generators

A truncated generator steps its state by `x ↦ a * x + c` modulo `m` and shows only `x / t`.  Two
runs with the same outputs are a short vector of the lattice spanned by `(1, a, a², …)` modulo `m`.
-/

namespace BallotBox

open Finset

/-! ## Outputs of a generator -/

section Outputs

variable {σ β : Type*} (step : σ → σ) (out : σ → β)

/-- The outputs at the next `n` states. -/
def outputs : ℕ → σ → List β
  | 0, _ => []
  | n + 1, s => out (step s) :: outputs n (step s)

lemma outputs_eq_map (n : ℕ) (s : σ) :
    outputs step out n s = (List.range n).map fun i => out (step^[i] (step s)) := by
  induction n generalizing s with
  | zero => rfl
  | succ n ih =>
    rw [outputs, ih, List.range_succ_eq_map, List.map_cons, List.map_map]
    rfl

lemma outputs_eq_iff (n : ℕ) (s t : σ) :
    outputs step out n s = outputs step out n t ↔
      ∀ i < n, out (step^[i] (step s)) = out (step^[i] (step t)) := by
  rw [outputs_eq_map, outputs_eq_map, List.map_inj_left]
  simp only [List.mem_range]

end Outputs

/-! ## The certificate -/

/-- A certificate that `n` outputs of the generator with multiplier `a`, modulus `m` and truncation
`t` determine its state. -/
structure ShortDual (m t a : ℤ) (n : ℕ) where
  /-- The annihilating vectors. -/
  vec : Fin n → Fin n → ℤ
  annihilates : ∀ k, m ∣ ∑ j, vec k j * a ^ (j : ℕ)
  short : ∀ k, (∑ j, |vec k j|) * (t - 1) < m
  /-- The combination that isolates the first coordinate. -/
  coef : Fin n → ℤ
  isolates : ∀ j : Fin n, ∑ k, coef k * vec k j = if (j : ℕ) = 0 then m else 0

namespace ShortDual

variable {m t a c : ℤ} {n : ℕ}

lemma abs_sub_le_of_div_eq {x y : ℤ} (ht : 0 < t) (h : x / t = y / t) : |x - y| ≤ t - 1 := by
  have hx := Int.emod_add_mul_ediv x t
  have hy := Int.emod_add_mul_ediv y t
  have hx0 := Int.emod_nonneg x ht.ne'
  have hy0 := Int.emod_nonneg y ht.ne'
  have hx1 := Int.emod_lt_of_pos x ht
  have hy1 := Int.emod_lt_of_pos y ht
  rw [h] at hx
  rw [abs_le]
  constructor <;> linarith

lemma sub_modEq_pow_mul {x y : ℕ → ℤ} (hx : ∀ i, x (i + 1) ≡ a * x i + c [ZMOD m])
    (hy : ∀ i, y (i + 1) ≡ a * y i + c [ZMOD m]) (i : ℕ) :
    x i - y i ≡ a ^ i * (x 0 - y 0) [ZMOD m] := by
  induction i with
  | zero => simp
  | succ i ih =>
    calc x (i + 1) - y (i + 1)
        ≡ (a * x i + c) - (a * y i + c) [ZMOD m] := (hx i).sub (hy i)
      _ = a * (x i - y i) := by ring
      _ ≡ a * (a ^ i * (x 0 - y 0)) [ZMOD m] := ih.mul_left a
      _ = a ^ (i + 1) * (x 0 - y 0) := by ring

lemma sum_vec_mul_eq_zero (d : ShortDual m t a n) {e : ℕ → ℤ}
    (hmod : ∀ i, e i ≡ a ^ i * e 0 [ZMOD m]) (hshort : ∀ i < n, |e i| ≤ t - 1) (k : Fin n) :
    ∑ j : Fin n, d.vec k j * e j = 0 := by
  have hdvd : m ∣ ∑ j : Fin n, d.vec k j * e j := by
    have hsum : ∑ j : Fin n, d.vec k j * e j = (∑ j : Fin n, d.vec k j * a ^ (j : ℕ)) * e 0 +
        ∑ j : Fin n, d.vec k j * (e j - a ^ (j : ℕ) * e 0) := by
      rw [sum_mul, ← sum_add_distrib]
      exact sum_congr rfl fun j _ => by ring
    rw [hsum]
    refine dvd_add ((d.annihilates k).mul_right _) (dvd_sum fun j _ => ?_)
    exact ((hmod j).symm.dvd).mul_left _
  have hlt : |∑ j : Fin n, d.vec k j * e j| < m := by
    calc |∑ j : Fin n, d.vec k j * e j|
        ≤ ∑ j : Fin n, |d.vec k j * e j| := abs_sum_le_sum_abs _ _
      _ ≤ ∑ j : Fin n, |d.vec k j| * (t - 1) := by
          refine sum_le_sum fun j _ => ?_
          rw [abs_mul]
          exact mul_le_mul_of_nonneg_left (hshort j j.isLt) (abs_nonneg _)
      _ = (∑ j : Fin n, |d.vec k j|) * (t - 1) := (sum_mul _ _ _).symm
      _ < m := d.short k
  exact Int.eq_zero_of_abs_lt_dvd hdvd hlt

/-- **Truncated outputs determine the state** of two runs that agree on their first `n` outputs. -/
theorem eq_of_div_eq (d : ShortDual m t a n) (hm : m ≠ 0) (ht : 0 < t) (hn : 0 < n)
    {x y : ℕ → ℤ} (hx : ∀ i, x (i + 1) ≡ a * x i + c [ZMOD m])
    (hy : ∀ i, y (i + 1) ≡ a * y i + c [ZMOD m]) (h : ∀ i < n, x i / t = y i / t) :
    x 0 = y 0 := by
  have hzero := d.sum_vec_mul_eq_zero (fun i => sub_modEq_pow_mul hx hy i)
    (fun i hi => abs_sub_le_of_div_eq ht (h i hi))
  have hfirst : m * (x 0 - y 0) = 0 := by
    calc m * (x 0 - y 0)
        = ∑ j : Fin n, (if (j : ℕ) = 0 then m else 0) * (x j - y j) := by
          rw [sum_eq_single ⟨0, hn⟩]
          · simp
          · intro j _ hj
            have : (j : ℕ) ≠ 0 := fun h0 => hj (Fin.ext h0)
            simp [this]
          · simp
      _ = ∑ j : Fin n, ∑ k, d.coef k * (d.vec k j * (x j - y j)) := by
          refine sum_congr rfl fun j _ => ?_
          rw [← d.isolates j, sum_mul]
          exact sum_congr rfl fun k _ => by ring
      _ = ∑ k, d.coef k * ∑ j : Fin n, d.vec k j * (x j - y j) := by
          rw [sum_comm]
          exact sum_congr rfl fun k _ => (mul_sum _ _ _).symm
      _ = 0 := sum_eq_zero fun k _ => by rw [hzero k, mul_zero]
  have := (mul_eq_zero.mp hfirst).resolve_left hm
  linarith

end ShortDual

end BallotBox
