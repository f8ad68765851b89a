import BallotBox.Construction.Types

/-!
# The crypto seam

`Crypto` is the seam of `libballotbrain/crypto.h`: certificate checks, decryption and receipts, with
the log lines that belong to their answers.  `stubCrypto` is the implementation the repository has.
-/

namespace BallotBox

/-- The three functions of `crypto.h`, each with the lines it logs. -/
structure Crypto where
  /-- `bb_verify_cert`. -/
  verifyCert : CStr bbCertLen → BbCertStatus × List Bytes
  /-- `bb_decrypt_ballot`: the option index, or an error. -/
  decryptBallot : BbBallot → Except BbErr ℤ × List Bytes
  /-- `bb_issue_receipt` at a given time for a ballot and its version, or an error. -/
  issueReceipt : ℕ → BbBallot → ℤ → Except BbErr BbReceipt × List Bytes

/-! ## The stub -/

def hexDigit (d : UInt32) : UInt8 :=
  (ascii "0123456789abcdef").getD d.toNat 48

/-- One step of the generator in `hash_from_seed`. -/
def lcgStep (state : UInt32) : UInt32 := state * 1103515245 + 12345

/-- The loop of `hash_from_seed`: `n` more digits from a state. -/
def hashLoop : ℕ → UInt32 → Bytes
  | 0, _ => []
  | n + 1, state => hexDigit ((lcgStep state >>> 16) &&& 0xF) :: hashLoop n (lcgStep state)

def hashFromSeed (seed : UInt32) : Bytes := hashLoop (bbHashLen - 1) (seed * 2654435761 + 1)

def fold (s : Bytes) : UInt32 := s.foldl (fun h c => h * 33 + c.toUInt32) 5381

/-- The seed `bb_issue_receipt` hands to `hash_from_seed`. -/
def receiptSeed (nonce : Bytes) (version : ℤ) : UInt32 :=
  fold nonce ^^^ (UInt32.ofInt version * 2246822519)

lemma hexDigit_ne_zero (d : UInt32) : hexDigit d ≠ 0 := by
  unfold hexDigit
  rw [List.getD_eq_getElem?_getD]
  cases h : (ascii "0123456789abcdef")[d.toNat]? with
  | none => decide
  | some c =>
    have hc := List.mem_of_getElem? h
    rintro (rfl : c = 0)
    exact absurd hc (by decide)

lemma length_hashLoop (n : ℕ) (state : UInt32) : (hashLoop n state).length = n := by
  induction n generalizing state with
  | zero => rfl
  | succ n ih => simp [hashLoop, ih]

lemma zero_notMem_hashLoop (n : ℕ) (state : UInt32) : (0 : UInt8) ∉ hashLoop n state := by
  induction n generalizing state with
  | zero => simp [hashLoop]
  | succ n ih =>
    simp only [hashLoop, List.mem_cons, not_or]
    exact ⟨(hexDigit_ne_zero _).symm, ih _⟩

/-- `crypto.c`: any non-empty name verifies, the first payload byte is the option, and the receipt
is a function of nonce and version. -/
def stubCrypto : Crypto where
  verifyCert certName :=
    if certName.bytes = [] then (.invalid, [])
    else (.valid, [ascii "[cert] verify '" ++ certName.bytes ++ ascii "' (placeholder -> VALID)"])
  decryptBallot ballot :=
    (.ok (ballot.payload.head?.elim 0 fun c => c.toNat),
      [ascii "[crypto] decrypt ballot (placeholder, nonce=" ++ ballot.nonce.bytes ++ ascii ")"])
  issueReceipt _ ballot version :=
    let hash := hashFromSeed (receiptSeed ballot.nonce.bytes version)
    (.ok ⟨⟨hash, (length_hashLoop _ _).le, zero_notMem_hashLoop _ _⟩,
        CStr.ofBytes (ascii "1970-01-01T00:00:00Z")⟩,
      [ascii "[crypto] issue receipt v" ++ renderInt version ++ ascii " -> " ++ hash ++
        ascii " (placeholder)"])

end BallotBox
