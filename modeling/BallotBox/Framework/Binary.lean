import BallotBox.Framework.Bytes
import BallotBox.Framework.Program

/-!
# Binary data

Words are written with the most significant byte first (`bigEndian`).  `Decodes p bs a` says that
the reader `p` takes exactly the bytes `bs`, whatever follows them, and returns `a`; composite
readers are built from their parts.
-/

namespace BallotBox

/-! ## Words -/

/-- A number in `n` bytes, the most significant one first. -/
def bigEndian : ℕ → ℕ → Bytes
  | 0, _ => []
  | n + 1, v => UInt8.ofNat (v / 256 ^ n) :: bigEndian n v

/-- The number that the bytes stand for. -/
def ofBigEndian (bs : Bytes) : ℕ := bs.foldl (fun v b => 256 * v + b.toNat) 0

@[simp] lemma length_bigEndian (n v : ℕ) : (bigEndian n v).length = n := by
  induction n with
  | zero => rfl
  | succ n ih => simp [bigEndian, ih]

lemma ofBigEndian_bigEndian {n v : ℕ} (h : v < 256 ^ n) : ofBigEndian (bigEndian n v) = v := by
  -- after some bytes, the accumulator is the part of the number that they stand for
  have hfold (m : ℕ) : ∀ acc, acc = v / 256 ^ m →
      (bigEndian m v).foldl (fun v b => 256 * v + b.toNat) acc = v := by
    induction m with
    | zero =>
      intro acc hacc
      simpa [bigEndian] using hacc
    | succ m ih =>
      intro acc hacc
      refine ih _ ?_
      have hdiv : v / 256 ^ (m + 1) = v / 256 ^ m / 256 := by
        rw [pow_succ, Nat.div_div_eq_div_mul]
      show 256 * acc + (UInt8.ofNat (v / 256 ^ m)).toNat = v / 256 ^ m
      rw [hacc, hdiv, UInt8.toNat_ofNat']
      omega
  exact hfold n 0 (Nat.div_eq_of_lt h).symm

/-! ## Readers -/

/-- Why a reader stops. -/
inductive ReadError
  | eof | failed
deriving DecidableEq

/-- A program that reads from what is left. -/
abbrev Reader (α : Type) := EStateM ReadError Bytes α

/-- The next `n` bytes. -/
def readBytes (n : ℕ) : Reader Bytes := fun bs =>
  if n ≤ bs.length then .ok (bs.take n) (bs.drop n) else .error .eof []

/-- A word of `w` bits in `n` bytes. -/
def readWord (n w : ℕ) : Reader (BitVec w) := do
  return .ofNat w (ofBigEndian (← readBytes n))

/-- The same reader several times. -/
def readMany {α : Type} (p : Reader α) : ℕ → Reader (List α)
  | 0 => pure []
  | n + 1 => do
    let a ← p
    let rest ← readMany p n
    return a :: rest

/-- The same reader until the end of the data, at most `fuel` times. -/
def readUntilEof {α : Type} (p : Reader α) : ℕ → Reader (List α)
  | 0 => throw .failed
  | fuel + 1 => do
    match ← attempt p with
    | .ok a => return a :: (← readUntilEof p fuel)
    | .error .eof => return []
    | .error .failed => throw .failed

/-- The reader takes exactly these bytes, whatever follows, and returns the value. -/
def Decodes {α : Type} (p : Reader α) (bs : Bytes) (a : α) : Prop :=
  ∀ rest, p.run (bs ++ rest) = .ok a rest

variable {α β : Type} {p : Reader α} {bs cs : Bytes} {a : α} {b : β}

lemma Decodes.pure (a : α) : Decodes (Pure.pure a) [] a := fun _ => rfl

lemma Decodes.bind {f : α → Reader β} (hp : Decodes p bs a) (hf : Decodes (f a) cs b) :
    Decodes (p >>= f) (bs ++ cs) b := by
  intro rest
  rw [List.append_assoc, EStateM.run_bind, hp (cs ++ rest)]
  exact hf rest

lemma Decodes.last {f : α → Reader β} (hp : Decodes p bs a) (hf : Decodes (f a) [] b) :
    Decodes (p >>= f) bs b := by
  have h := hp.bind hf
  rwa [List.append_nil] at h

lemma Decodes.map {f : α → β} (hp : Decodes p bs a) : Decodes (do return f (← p)) bs (f a) :=
  hp.last (Decodes.pure (f a))

lemma decodes_bytes (bs : Bytes) : Decodes (readBytes bs.length) bs bs := by
  intro rest
  simp [readBytes, EStateM.run]

lemma decodes_word {n w : ℕ} (hw : 2 ^ w ≤ 256 ^ n) (v : BitVec w) :
    Decodes (readWord n w) (bigEndian n v.toNat) v := by
  have hbytes := decodes_bytes (bigEndian n v.toNat)
  rw [length_bigEndian] at hbytes
  have h := hbytes.map (f := fun bs => BitVec.ofNat w (ofBigEndian bs))
  rwa [ofBigEndian_bigEndian (v.isLt.trans_le hw), BitVec.ofNat_toNat, BitVec.setWidth_eq] at h

lemma decodes_many {encode : α → Bytes} {l : List α} (h : ∀ a ∈ l, Decodes p (encode a) a) :
    Decodes (readMany p l.length) (l.flatMap encode) l := by
  induction l with
  | nil => exact Decodes.pure []
  | cons a l ih =>
    have hrest := ih fun a' ha' => h a' (List.mem_cons_of_mem _ ha')
    exact (h a List.mem_cons_self).bind hrest.map

lemma readUntilEof_nil {rest : Bytes} (h : p.run [] = .error .eof rest) (fuel : ℕ) :
    (readUntilEof p (fuel + 1)).run [] = .ok [] rest := by
  rw [readUntilEof, EStateM.run_bind, attempt_run_error h]
  rfl

lemma readUntilEof_append (h : Decodes p bs a) {fuel : ℕ} {as : List α} {rest last : Bytes}
    (hrest : (readUntilEof p fuel).run rest = .ok as last) :
    (readUntilEof p (fuel + 1)).run (bs ++ rest) = .ok (a :: as) last := by
  rw [readUntilEof, EStateM.run_bind, attempt_run_ok (h rest)]
  show EStateM.run (readUntilEof p fuel >>= fun as => Pure.pure (a :: as)) rest = _
  rw [EStateM.run_bind, hrest]
  rfl

end BallotBox
