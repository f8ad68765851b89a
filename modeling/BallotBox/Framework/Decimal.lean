import BallotBox.Framework.Bytes

/-!
# Decimal numerals and machine integers

`renderInt` writes integers as decimal text, and `strtol`, `atoi` and `JInt.parse?` read them back;
`JInt` is a 32-bit column value.  Each reader inverts the writer on the range of the column, also
through a 24-byte buffer.  `readDigits` reads with a limit.
-/

namespace BallotBox

open List

variable {n : ℤ} {c : UInt8}

/-! ## Digits -/

/-- An ASCII decimal digit. -/
def isDigit (c : UInt8) : Bool := 48 ≤ c && c ≤ 57

/-- The value of a digit character, `c - '0'`. -/
def digitVal (c : UInt8) : ℕ := c.toNat - 48

/-- The character of a digit. -/
def digitChar (d : ℕ) : UInt8 := UInt8.ofNat (48 + d)

/-- The number a digit string denotes. -/
def digitsValue (ds : Bytes) : ℕ := ds.foldl (fun v c => v * 10 + digitVal c) 0

lemma isDigit_digitChar {d : ℕ} (h : d < 10) : isDigit (digitChar d) = true := by
  interval_cases d <;> rfl

lemma digitVal_digitChar {d : ℕ} (h : d < 10) : digitVal (digitChar d) = d := by
  interval_cases d <;> rfl

/-- `n` in decimal, as `%d` prints it. -/
def renderNat (n : ℕ) : Bytes :=
  if n = 0 then [48] else (Nat.digits 10 n).reverse.map digitChar

lemma isDigit_of_mem_renderNat {n : ℕ} (h : c ∈ renderNat n) : isDigit c = true := by
  unfold renderNat at h
  split_ifs at h with h0
  · rw [mem_singleton.mp h]
    rfl
  · obtain ⟨d, hd, rfl⟩ := mem_map.mp h
    exact isDigit_digitChar (Nat.digits_lt_base (by norm_num) (mem_reverse.mp hd))

lemma renderNat_ne_nil (n : ℕ) : renderNat n ≠ [] := by
  unfold renderNat
  split_ifs with h0
  · simp
  · simpa [Nat.digits_eq_nil_iff_eq_zero] using h0

lemma length_renderNat_le {n k : ℕ} (hk : 0 < k) (h : n < 10 ^ k) : (renderNat n).length ≤ k := by
  unfold renderNat
  split_ifs with h0
  · exact hk
  · simpa using (Nat.digits_length_le_iff (by norm_num) n).mpr h

@[simp] lemma digitsValue_renderNat (n : ℕ) : digitsValue (renderNat n) = n := by
  unfold renderNat
  split_ifs with h0
  · rw [h0]
    rfl
  · have hfold : ∀ ds : List ℕ, (∀ d ∈ ds, d < 10) →
        digitsValue (ds.reverse.map digitChar) = Nat.ofDigits 10 ds := by
      intro ds hds
      rw [digitsValue, map_reverse, foldl_reverse, Nat.ofDigits_eq_foldr, foldr_map]
      refine foldr_ext _ _ _ fun d hd v => ?_
      rw [digitVal_digitChar (hds d hd)]
      simp [Nat.mul_comm, Nat.add_comm]
    rw [hfold _ fun d hd => Nat.digits_lt_base (by norm_num) hd, Nat.ofDigits_digits]

lemma isDigit_cases (h : isDigit c = true) : digitVal c < 10 ∧ digitChar (digitVal c) = c := by
  have hall : ∀ c : UInt8, isDigit c = true → digitVal c < 10 ∧ digitChar (digitVal c) = c := by
    decide +kernel
  exact hall c h

lemma ofDigits_reverse (ds : Bytes) :
    Nat.ofDigits 10 (ds.map digitVal).reverse = digitsValue ds := by
  rw [Nat.ofDigits_eq_foldr, foldr_reverse, foldl_map, digitsValue]
  congr 1
  funext v c
  simp [Nat.mul_comm, Nat.add_comm]

lemma renderNat_digitsValue {ds : Bytes} (hne : ds ≠ []) (hdigits : ∀ c ∈ ds, isDigit c = true)
    (hzero : ds.head? = some 48 → ds.length = 1) : renderNat (digitsValue ds) = ds := by
  obtain ⟨c, cs, rfl⟩ := exists_cons_of_ne_nil hne
  by_cases hc : c = 48
  · subst hc
    obtain rfl : cs = [] := by simpa using hzero rfl
    rfl
  · have hfirst : digitVal c ≠ 0 := by
      intro h0
      have hchar := (isDigit_cases (hdigits c mem_cons_self)).2
      rw [h0] at hchar
      exact hc hchar.symm
    have hvalue : Nat.digits 10 (digitsValue (c :: cs)) = ((c :: cs).map digitVal).reverse := by
      rw [← ofDigits_reverse]
      apply Nat.digits_ofDigits 10 (by norm_num)
      · intro d hd
        obtain ⟨b, hb, rfl⟩ := mem_map.mp (mem_reverse.mp hd)
        exact (isDigit_cases (hdigits b hb)).1
      · intro h
        simpa using hfirst
    have hpos : digitsValue (c :: cs) ≠ 0 := by
      intro h0
      rw [h0] at hvalue
      simp at hvalue
    rw [renderNat, if_neg hpos, hvalue, reverse_reverse, map_map]
    refine (map_congr_left fun b hb => ?_).trans (map_id _)
    exact (isDigit_cases (hdigits b hb)).2

lemma head?_renderNat (n : ℕ) (h : (renderNat n).head? = some 48) : (renderNat n).length = 1 := by
  unfold renderNat at h ⊢
  split_ifs with h0
  · rfl
  · rw [if_neg h0, map_reverse, head?_reverse, getLast?_map] at h
    obtain ⟨d, hlast, hd⟩ := Option.map_eq_some_iff.mp h
    have hne : Nat.digits 10 n ≠ [] := by simpa [Nat.digits_eq_nil_iff_eq_zero] using h0
    have hd0 : d ≠ 0 := by
      rw [getLast?_eq_getLast_of_ne_nil hne] at hlast
      rw [← Option.some.inj hlast]
      exact Nat.getLast_digit_ne_zero 10 h0
    have hlt : d < 10 := Nat.digits_lt_base (by norm_num) (mem_of_getLast? hlast)
    have hval := digitVal_digitChar hlt
    rw [hd] at hval
    exact absurd hval.symm hd0

/-! ## Reading with a limit -/

lemma le_foldl_digitVal (ds : Bytes) (v : ℕ) : v ≤ ds.foldl (fun v c => v * 10 + digitVal c) v := by
  induction ds generalizing v with
  | nil => exact le_rfl
  | cons c ds ih => exact le_trans (by omega) (ih (v * 10 + digitVal c))

/-- Reads digits one by one and gives up before the value gets above the limit. -/
def readDigits (limit v : ℕ) : Bytes → Option ℕ
  | [] => some v
  | c :: cs =>
    if !isDigit c then none
    else if (limit - digitVal c) / 10 < v then none
    else readDigits limit (v * 10 + digitVal c) cs

lemma readDigits_eq_some_iff {limit v n : ℕ} {ds : Bytes} (hlimit : 9 ≤ limit) (hv : v ≤ limit) :
    readDigits limit v ds = some n ↔ (∀ c ∈ ds, isDigit c = true) ∧
      n = ds.foldl (fun v c => v * 10 + digitVal c) v ∧ n ≤ limit := by
  induction ds generalizing v with
  | nil =>
    simp only [readDigits, Option.some.injEq, not_mem_nil, IsEmpty.forall_iff, implies_true,
      foldl_nil, true_and]
    constructor
    · rintro rfl
      exact ⟨rfl, hv⟩
    · rintro ⟨rfl, -⟩
      rfl
  | cons c cs ih =>
    rw [readDigits, forall_mem_cons, foldl_cons]
    by_cases hc : isDigit c = true
    · have hlt := (isDigit_cases hc).1
      rw [if_neg (by simp [hc])]
      by_cases hfits : v * 10 + digitVal c ≤ limit
      · rw [if_neg (by omega), ih hfits]
        simp [hc]
      · rw [if_pos (by omega)]
        constructor
        · intro h
          cases h
        · rintro ⟨-, rfl, hn⟩
          have hstep := le_foldl_digitVal cs (v * 10 + digitVal c)
          omega
    · simp [hc]

/-! ## Signed numerals -/

/-- `%d` of an integer. -/
def renderInt (n : ℤ) : Bytes :=
  if n < 0 then 45 :: renderNat n.natAbs else renderNat n.natAbs

lemma renderInt_ne_nil (n : ℤ) : renderInt n ≠ [] := by
  unfold renderInt
  split_ifs
  · simp
  · exact renderNat_ne_nil _

lemma mem_renderInt (h : c ∈ renderInt n) : c = 45 ∨ isDigit c = true := by
  unfold renderInt at h
  split_ifs at h
  · rcases mem_cons.mp h with rfl | h
    · exact .inl rfl
    · exact .inr (isDigit_of_mem_renderNat h)
  · exact .inr (isDigit_of_mem_renderNat h)

lemma clean_renderInt (n : ℤ) : Clean (renderInt n) := by
  have hnot {c : UInt8} (h : c ≠ 45) (h' : isDigit c = false) : c ∉ renderInt n := fun hc => by
    rcases mem_renderInt hc with hc | hc
    · exact h hc
    · exact Bool.false_ne_true (h'.symm.trans hc)
  exact ⟨hnot (by decide) (by decide), hnot (by decide) (by decide), hnot (by decide) (by decide)⟩

lemma length_renderInt_le {k : ℕ} (hk : 0 < k) (h : n.natAbs < 10 ^ k) :
    (renderInt n).length ≤ k + 1 := by
  have hlen := length_renderNat_le hk h
  unfold renderInt
  split_ifs
  · simpa using hlen
  · omega

/-- The blanks `strtol` skips, `isspace` in the C locale. -/
def isSpace (c : UInt8) : Bool := c == 32 || (9 ≤ c && c ≤ 13)

lemma isSpace_of_isDigit (h : isDigit c = true) : isSpace c = false := by
  unfold isDigit at h
  unfold isSpace
  grind

/-- Splits an optional sign off a numeral: the factor it stands for, and the rest. -/
def takeSign : Bytes → ℤ × Bytes
  | [] => (1, [])
  | c :: cs => if c = 45 then (-1, cs) else if c = 43 then (1, cs) else (1, c :: cs)

/-- `strtol (s, &end, 10)` on a 64-bit `long`: the saturated value and the text from `end` on.
Without a digit it is 0 and nothing is consumed. -/
def strtol (s : Bytes) : ℤ × Bytes :=
  let (sign, body) := takeSign (s.dropWhile isSpace)
  let digits := body.takeWhile isDigit
  if digits = [] then (0, s)
  else (max (-2 ^ 63) (min (2 ^ 63 - 1) (sign * digitsValue digits)), body.dropWhile isDigit)

/-- The `int` a wider value is cut to. -/
def wrap32 (n : ℤ) : ℤ := n.bmod (2 ^ 32)

/-- `atoi`. -/
def atoi (s : Bytes) : ℤ := wrap32 (strtol s).1

lemma wrap32_of_range (hl : -2 ^ 31 ≤ n) (hu : n < 2 ^ 31) : wrap32 n = n := by
  unfold wrap32
  exact Int.bmod_eq_of_le (by omega) (by omega)

lemma wrap32_range (n : ℤ) : -2 ^ 31 ≤ wrap32 n ∧ wrap32 n < 2 ^ 31 := by
  have hl := Int.le_bmod (x := n) (m := 2 ^ 32) (by norm_num)
  have hu := Int.bmod_lt (x := n) (m := 2 ^ 32) (by norm_num)
  unfold wrap32
  omega

lemma takeSign_renderInt (n : ℤ) : ∃ sign : ℤ,
    takeSign (renderInt n) = (sign, renderNat n.natAbs) ∧ sign * n.natAbs = n := by
  unfold renderInt
  split_ifs with hn
  · exact ⟨-1, by simp [takeSign], by omega⟩
  · refine ⟨1, ?_, by omega⟩
    obtain ⟨c, cs, hc⟩ := exists_cons_of_ne_nil (renderNat_ne_nil n.natAbs)
    have hdigit : isDigit c = true := isDigit_of_mem_renderNat (n := n.natAbs) (by simp [hc])
    have h45 : c ≠ 45 := by rintro rfl; revert hdigit; decide
    have h43 : c ≠ 43 := by rintro rfl; revert hdigit; decide
    simp [hc, takeSign, h45, h43]

lemma takeSign_append {a : Bytes} (h : a ≠ []) (b : Bytes) :
    takeSign (a ++ b) = ((takeSign a).1, (takeSign a).2 ++ b) := by
  obtain ⟨c, cs, rfl⟩ := exists_cons_of_ne_nil h
  simp only [cons_append, takeSign]
  split_ifs <;> rfl

lemma dropWhile_isSpace_renderInt (n : ℤ) (rest : Bytes) :
    (renderInt n ++ rest).dropWhile isSpace = renderInt n ++ rest := by
  obtain ⟨c, cs, hc⟩ := exists_cons_of_ne_nil (renderInt_ne_nil n)
  have hspace : isSpace c = false := by
    rcases mem_renderInt (n := n) (c := c) (by simp [hc]) with rfl | hd
    · rfl
    · exact isSpace_of_isDigit hd
  rw [hc, cons_append, dropWhile_cons_of_neg (by simp [hspace])]

lemma strtol_renderInt (hl : -2 ^ 63 ≤ n) (hu : n < 2 ^ 63) :
    strtol (renderInt n) = (n, []) := by
  obtain ⟨sign, hsign, hval⟩ := takeSign_renderInt n
  have hall : ∀ c ∈ renderNat n.natAbs, isDigit c = true := fun c hc =>
    isDigit_of_mem_renderNat hc
  have hspace := dropWhile_isSpace_renderInt n []
  rw [append_nil] at hspace
  unfold strtol
  rw [hspace, hsign]
  simp only [takeWhile_eq_self_iff.mpr hall, dropWhile_eq_nil_iff.mpr hall,
    renderNat_ne_nil, if_false, digitsValue_renderNat, hval]
  congr 1
  omega

/-! ## 32-bit columns -/

/-- A value of a 32-bit signed column. -/
structure JInt where
  val : ℤ
  lower : -2 ^ 31 ≤ val
  upper : val < 2 ^ 31
deriving DecidableEq

namespace JInt

@[ext] lemma ext {m n : JInt} (h : m.val = n.val) : m = n := by
  cases m; cases n; simp_all

/-- The column value of an integer, if it is in range. -/
def ofInt? (n : ℤ) : Option JInt :=
  if h : -2 ^ 31 ≤ n ∧ n < 2 ^ 31 then some ⟨n, h.1, h.2⟩ else none

/-- The engine's reading of a numeral: an optional sign and digits, denoting a number in range. -/
def parse? (s : Bytes) : Option JInt :=
  let (sign, digits) := takeSign s
  if digits ≠ [] ∧ digits.all isDigit then ofInt? (sign * digitsValue digits) else none

/-- A column value as text. -/
def render (n : JInt) : Bytes := renderInt n.val

lemma ofInt?_eq_some {j : JInt} : ofInt? n = some j ↔ j.val = n := by
  unfold ofInt?
  split_ifs with h
  · constructor
    · intro hj
      cases hj
      rfl
    · intro hj
      exact congrArg some (JInt.ext hj.symm)
  · constructor
    · intro hj
      cases hj
    · rintro rfl
      exact absurd ⟨j.lower, j.upper⟩ h

@[simp] lemma parse?_renderInt (n : ℤ) : parse? (renderInt n) = ofInt? n := by
  obtain ⟨sign, hsign, hval⟩ := takeSign_renderInt n
  unfold parse?
  rw [hsign]
  simp only [digitsValue_renderNat, hval]
  refine if_pos ⟨renderNat_ne_nil _, all_eq_true.mpr fun c hc => isDigit_of_mem_renderNat hc⟩

@[simp] lemma parse?_render (n : JInt) : parse? n.render = some n := by
  rw [render, parse?_renderInt]
  exact ofInt?_eq_some.mpr rfl

@[simp] lemma atoi_render (n : JInt) : atoi n.render = n.val := by
  have hl := n.lower
  have hu := n.upper
  rw [atoi, render, strtol_renderInt (by omega) (by omega)]
  exact wrap32_of_range hl hu

lemma length_render_le (n : JInt) : n.render.length ≤ 11 := by
  have hl := n.lower
  have hu := n.upper
  exact length_renderInt_le (by norm_num) (by omega)

lemma render_ne_nil (n : JInt) : n.render ≠ [] := renderInt_ne_nil _

end JInt

end BallotBox
