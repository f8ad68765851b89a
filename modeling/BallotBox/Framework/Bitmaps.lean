import BallotBox.Framework.Bytes

/-!
# Bitmaps

A sequence of bytes as a sequence of bits: bit `i` is bit `i % 8` of byte `i / 8`, counted from the
least significant one.  `getBit_setBit` says that setting or clearing one bit leaves the others.
-/

namespace BallotBox

/-- Whether bit `n` of a byte is set. -/
def testBit (b : UInt8) (n : ℕ) : Bool := b >>> UInt8.ofNat n &&& 1 == 1

/-- A byte with bit `n` set or cleared. -/
def withBit (b : UInt8) (n : ℕ) (value : Bool) : UInt8 :=
  if value then b ||| 1 <<< UInt8.ofNat n else b &&& ~~~(1 <<< UInt8.ofNat n)

/-- Bit `i` of a sequence of bytes. -/
def getBit (bs : Bytes) (i : ℕ) : Bool := testBit (bs.getD (i / 8) 0) (i % 8)

/-- The bytes with bit `i` set or cleared. -/
def setBit (bs : Bytes) (i : ℕ) (value : Bool) : Bytes :=
  bs.modify (i / 8) fun b => withBit b (i % 8) value

@[simp] lemma length_setBit (bs : Bytes) (i : ℕ) (value : Bool) :
    (setBit bs i value).length = bs.length := by
  simp [setBit]

lemma testBit_eq (b : UInt8) : ∀ n < 8, testBit b n = b.toBitVec.getLsbD n := by
  revert b
  decide +kernel

lemma testBit_one_shift : ∀ m < 8, ∀ n < 8,
    testBit (1 <<< UInt8.ofNat m) n = decide (n = m) := by
  decide +kernel

lemma testBit_withBit (b : UInt8) {m n : ℕ} (hm : m < 8) (hn : n < 8) (value : Bool) :
    testBit (withBit b m value) n = if n = m then value else testBit b n := by
  have hone := testBit_one_shift m hm n hn
  rw [testBit_eq _ _ hn] at hone
  rw [testBit_eq _ _ hn, testBit_eq _ _ hn, withBit]
  cases value with
  | true =>
    simp only [if_true, UInt8.toBitVec_or, BitVec.getLsbD_or, hone]
    by_cases h : n = m <;> simp [h]
  | false =>
    simp only [Bool.false_eq_true, if_false, UInt8.toBitVec_and, UInt8.toBitVec_not,
      BitVec.getLsbD_and, BitVec.getLsbD_not, hone]
    by_cases h : n = m <;> simp [h, hn]

lemma getBit_setBit {bs : Bytes} {i : ℕ} (hi : i / 8 < bs.length) (value : Bool) (j : ℕ) :
    getBit (setBit bs i value) j = if j = i then value else getBit bs j := by
  by_cases hbyte : i / 8 = j / 8
  · -- the two bits are in one byte
    have hget : (setBit bs i value).getD (j / 8) 0 = withBit (bs.getD (j / 8) 0) (i % 8) value := by
      rw [← hbyte]
      simp [setBit, List.getD_eq_getElem?_getD, hi]
    have hsame : j % 8 = i % 8 ↔ j = i := by omega
    rw [getBit, hget, testBit_withBit _ (Nat.mod_lt _ (by decide)) (Nat.mod_lt _ (by decide))]
    simp only [hsame, getBit]
  · have hne : j ≠ i := fun h => hbyte (by rw [h])
    simp [getBit, setBit, List.getD_eq_getElem?_getD, hbyte, hne]

lemma getBit_replicate_zero (n i : ℕ) : getBit (List.replicate n 0) i = false := by
  have hzero : (List.replicate n (0 : UInt8)).getD (i / 8) 0 = 0 := by
    simp only [List.getD_eq_getElem?_getD, List.getElem?_replicate]
    split <;> rfl
  rw [getBit, hzero, testBit_eq _ _ (Nat.mod_lt _ (by decide))]
  simp

lemma getBit_replicate_ones {n i : ℕ} (h : i < n * 8) :
    getBit (List.replicate n 0xFF) i = true := by
  have hones : ∀ k < 8, testBit 0xFF k = true := by decide
  have hbyte : (List.replicate n (0xFF : UInt8)).getD (i / 8) 0 = 0xFF := by
    simp only [List.getD_eq_getElem?_getD, List.getElem?_replicate]
    rw [if_pos (by omega), Option.getD_some]
  rw [getBit, hbyte]
  exact hones _ (Nat.mod_lt _ (by decide))

end BallotBox
