import BallotBox.Construction.Crypto
import BallotBox.Framework.TruncatedLcg

/-!
# When two receipts have the same hash

The placeholder hash shows bits 16 to 19 of 64 states of a generator modulo `2 ^ 32`, which depend
on the low 20 bits of the seed only; nine of the 64 digits already determine these bits
(`receiptDual`).  So two seeds have the same hash if and only if they agree modulo `2 ^ 20`.
-/

namespace BallotBox

open Function

def low20 (s : UInt32) : ℤ := (s.toNat % 2 ^ 20 : ℕ)

/-- A certificate for the generator of `hash_from_seed` modulo `2 ^ 20`, found by lattice
reduction. -/
def receiptDual : ShortDual (2 ^ 20) (2 ^ 16) 1103515245 9 where
  vec := ![![2, 2, 0, 1, 1, 1, 0, 0, 1], ![-2, 2, 0, -1, 1, -1, 2, -2, 1],
    ![-1, 1, 0, -1, 0, 4, 2, 0, 3], ![-3, -1, 2, 3, 0, 2, 0, 1, 0],
    ![2, 0, 5, 2, -2, -1, -1, 0, -1], ![0, 3, 1, -2, -3, 0, -2, 0, -1],
    ![-1, -1, 0, -1, 1, 2, 4, -2, -2], ![1, -1, 2, -2, 4, 0, -1, -1, -2],
    ![-2, 0, 0, 1, -2, 2, -2, -5, 0]]
  annihilates := by decide +kernel
  short := by decide +kernel
  coef := ![122767, -116129, 21814, -161262, 80924, -57364, 36626, -12366, 2022]
  isolates := by decide +kernel

lemma low20_eq_iff {u v : UInt32} : low20 u = low20 v ↔ u.toNat ≡ v.toNat [MOD 2 ^ 20] := by
  rw [low20, low20, Nat.cast_inj, Nat.ModEq]

lemma low20_affine_iff {k : UInt32} (hk : Nat.Coprime (2 ^ 20) k.toNat) (c u v : UInt32) :
    low20 (u * k + c) = low20 (v * k + c) ↔ low20 u = low20 v := by
  have hmod (w : UInt32) : (w * k + c).toNat ≡ w.toNat * k.toNat + c.toNat [MOD 2 ^ 20] := by
    rw [UInt32.toNat_add, UInt32.toNat_mul, Nat.ModEq]
    omega
  rw [low20_eq_iff, low20_eq_iff]
  constructor
  · intro h
    have hsum := ((hmod u).symm.trans h).trans (hmod v)
    exact Nat.ModEq.cancel_right_of_coprime hk (Nat.ModEq.add_right_cancel' _ hsum)
  · intro h
    exact ((hmod u).trans ((h.mul_right _).add_right _)).trans (hmod v).symm

lemma low20_lcgStep (s : UInt32) :
    low20 (lcgStep s) ≡ 1103515245 * low20 s + 12345 [ZMOD 2 ^ 20] := by
  have h : (lcgStep s).toNat % 2 ^ 20 = (1103515245 * (s.toNat % 2 ^ 20) + 12345) % 2 ^ 20 := by
    rw [lcgStep, UInt32.toNat_add, UInt32.toNat_mul, show (1103515245 : UInt32).toNat = 1103515245
      from rfl, show (12345 : UInt32).toNat = 12345 from rfl]
    omega
  unfold low20
  rw [h]
  push_cast
  exact Int.mod_modEq _ _

lemma digit_toNat (s : UInt32) : (((s >>> 16) &&& 0xF).toNat : ℤ) = low20 s / 2 ^ 16 := by
  have h : ((s >>> 16) &&& 0xF).toNat = s.toNat % 2 ^ 20 / 2 ^ 16 := by
    rw [UInt32.toNat_and, UInt32.toNat_shiftRight, show (0xF : UInt32).toNat = 2 ^ 4 - 1 from rfl,
      Nat.and_two_pow_sub_one_eq_mod, Nat.shiftRight_eq_div_pow,
      show (16 : UInt32).toNat % 32 = 16 from rfl]
    omega
  unfold low20
  rw [h]
  push_cast
  rfl

lemma hexDigit_inj {c d : UInt32} (hc : c.toNat < 16) (hd : d.toNat < 16)
    (h : hexDigit c = hexDigit d) : c = d := by
  have hinj : ∀ i < 16, ∀ j < 16, (ascii "0123456789abcdef").getD i 48 =
      (ascii "0123456789abcdef").getD j 48 → i = j := by decide
  exact UInt32.toNat_inj.mp (hinj _ hc _ hd h)

lemma digit_lt (s : UInt32) : ((s >>> 16) &&& 0xF).toNat < 16 := by
  rw [UInt32.toNat_and]
  exact lt_of_le_of_lt Nat.and_le_right (by decide)

def stateDigit (s : UInt32) : UInt8 := hexDigit ((s >>> 16) &&& 0xF)

lemma stateDigit_eq_iff (s t : UInt32) :
    stateDigit s = stateDigit t ↔ low20 s / 2 ^ 16 = low20 t / 2 ^ 16 := by
  rw [← digit_toNat, ← digit_toNat, Nat.cast_inj, UInt32.toNat_inj]
  exact ⟨hexDigit_inj (digit_lt _) (digit_lt _), fun h => by rw [stateDigit, h, stateDigit]⟩

lemma hashLoop_eq_outputs (n : ℕ) (state : UInt32) :
    hashLoop n state = outputs lcgStep stateDigit n state := by
  induction n generalizing state with
  | zero => rfl
  | succ n ih => rw [hashLoop, outputs, ih, stateDigit]

lemma low20_iterate {x y : UInt32} (h : low20 x = low20 y) (i : ℕ) :
    low20 (lcgStep^[i] x) = low20 (lcgStep^[i] y) := by
  induction i with
  | zero => exact h
  | succ i ih =>
    rw [iterate_succ_apply', iterate_succ_apply']
    exact (low20_affine_iff (by decide) _ _ _).mpr ih

lemma hashLoop_eq_iff {n : ℕ} (hn : 9 ≤ n) (x y : UInt32) :
    hashLoop n x = hashLoop n y ↔ low20 (lcgStep x) = low20 (lcgStep y) := by
  have hstep (z : UInt32) (i : ℕ) : low20 (lcgStep^[i + 1] z) ≡
      1103515245 * low20 (lcgStep^[i] z) + 12345 [ZMOD 2 ^ 20] := by
    rw [iterate_succ_apply']
    exact low20_lcgStep _
  rw [hashLoop_eq_outputs, hashLoop_eq_outputs, outputs_eq_iff]
  simp only [stateDigit_eq_iff]
  constructor
  · intro h
    have hfirst := receiptDual.eq_of_div_eq (by norm_num) (by norm_num) (by norm_num)
      (hstep (lcgStep x)) (hstep (lcgStep y)) fun i hi => h i (by omega)
    simpa only [iterate_zero_apply] using hfirst
  · intro h i _
    rw [low20_iterate h]

theorem hashFromSeed_eq_iff (s t : UInt32) :
    hashFromSeed s = hashFromSeed t ↔ s.toNat % 2 ^ 20 = t.toNat % 2 ^ 20 := by
  rw [hashFromSeed, hashFromSeed, hashLoop_eq_iff (by decide), lcgStep, lcgStep,
    low20_affine_iff (by decide), low20_affine_iff (by decide), low20_eq_iff, Nat.ModEq]

end BallotBox
