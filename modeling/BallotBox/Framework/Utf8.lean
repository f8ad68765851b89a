import BallotBox.Framework.Bytes

/-!
# Decoding UTF-8 with replacement

A decoder from bytes to UTF-16 code units that puts U+FFFD for what is not well formed, as `new
String (bytes)` does.  `utf8Round` is one round of its loop.
-/

namespace BallotBox

open List

/-- U+FFFD. -/
def replacementUnit : UInt16 := 0xFFFD

/-- A continuation byte. -/
def continues (b : UInt8) : Bool := b &&& 0xC0 == 0x80

/-- A second byte that cannot stand after this first byte of three. -/
def malformed3 (b₁ b₂ : UInt8) : Bool := (b₁ == 0xE0 && b₂ &&& 0xE0 == 0x80) || !continues b₂

/-- A first or second byte of four that cannot stand there. -/
def malformed4 (b₁ b₂ : UInt8) : Bool :=
  0xF4 < b₁ || (b₁ == 0xF0 && (b₂ < 0x90 || 0xBF < b₂)) || (b₁ == 0xF4 && b₂ &&& 0xF0 != 0x80) ||
    !continues b₂

def decode2 (b₁ b₂ : UInt8) : UInt16 :=
  (b₁ &&& 0x1F).toUInt16 <<< 6 ||| (b₂ &&& 0x3F).toUInt16

/-- Surrogates are not characters. -/
def decode3 (b₁ b₂ b₃ : UInt8) : UInt16 :=
  let c := (b₁ &&& 0x0F).toUInt16 <<< 12 ||| (b₂ &&& 0x3F).toUInt16 <<< 6 ||| (b₃ &&& 0x3F).toUInt16
  if c &&& 0xF800 = 0xD800 then replacementUnit else c

/-- The surrogates of a supplementary character. -/
def decode4 (b₁ b₂ b₃ b₄ : UInt8) : List UInt16 :=
  let c := (b₁ &&& 0x07).toUInt32 <<< 18 ||| (b₂ &&& 0x3F).toUInt32 <<< 12 |||
    (b₃ &&& 0x3F).toUInt32 <<< 6 ||| (b₄ &&& 0x3F).toUInt32
  [((c - 0x10000) >>> 10).toUInt16 + 0xD800, (c &&& 0x3FF).toUInt16 + 0xDC00]

/-- One round of the decoder, from the byte `b₁` on. -/
def utf8Round (b₁ : UInt8) (rest : Bytes) : List UInt16 × Bytes :=
  if b₁ < 0x80 then ([b₁.toUInt16], rest)
  else if 0xC2 ≤ b₁ ∧ b₁ < 0xE0 then
    match rest with
    | [] => ([replacementUnit], [])
    | b₂ :: rest₂ => if continues b₂ then ([decode2 b₁ b₂], rest₂) else ([replacementUnit], rest)
  else if 0xE0 ≤ b₁ ∧ b₁ < 0xF0 then
    match rest with
    | [] => ([replacementUnit], [])
    | [b₂] => if malformed3 b₁ b₂ then ([replacementUnit], rest) else ([replacementUnit], [])
    | b₂ :: b₃ :: rest₃ =>
      if malformed3 b₁ b₂ then ([replacementUnit], rest)
      else if !continues b₃ then ([replacementUnit], b₃ :: rest₃)
      else ([decode3 b₁ b₂ b₃], rest₃)
  else if 0xF0 ≤ b₁ ∧ b₁ < 0xF8 then
    match rest with
    | [] => ([replacementUnit], [])
    | [b₂] => if malformed4 b₁ b₂ then ([replacementUnit], rest) else ([replacementUnit], [])
    | [b₂, b₃] =>
      if malformed4 b₁ b₂ then ([replacementUnit], rest)
      else if !continues b₃ then ([replacementUnit], [b₃])
      else ([replacementUnit], [])
    | b₂ :: b₃ :: b₄ :: rest₄ =>
      if malformed4 b₁ b₂ then ([replacementUnit], rest)
      else if !continues b₃ then ([replacementUnit], b₃ :: b₄ :: rest₄)
      else if !continues b₄ then ([replacementUnit], b₄ :: rest₄)
      else (decode4 b₁ b₂ b₃ b₄, rest₄)
  else ([replacementUnit], rest)

/-- The rounds, at most `fuel` of them. -/
def utf8Loop : ℕ → Bytes → List UInt16
  | 0, _ => []
  | _ + 1, [] => []
  | fuel + 1, b :: rest => (utf8Round b rest).1 ++ utf8Loop fuel (utf8Round b rest).2

/-- The units of a text in UTF-8. -/
def utf8Decode (bs : Bytes) : List UInt16 := utf8Loop bs.length bs

/-- A round takes some bytes and puts at most as many units; if as many, then one for one. -/
def OneForOne (b : UInt8) (rest : Bytes) (r : List UInt16 × Bytes) : Prop :=
  ∃ taken, rest = taken ++ r.2 ∧ r.1.length ≤ taken.length + 1 ∧
    (r.1.length = taken.length + 1 →
      taken = [] ∧ (r.1 = [replacementUnit] ∨ b < 0x80 ∧ r.1 = [b.toUInt16]))

lemma oneForOne_replaced (b : UInt8) (rest : Bytes) : OneForOne b rest ([replacementUnit], rest) :=
  ⟨[], rfl, le_rfl, fun _ => ⟨rfl, .inl rfl⟩⟩

lemma oneForOne_longer (b : UInt8) (taken left : Bytes) {out : List UInt16}
    (h : out.length ≤ taken.length) : OneForOne b (taken ++ left) (out, left) :=
  ⟨taken, rfl, by simp only; omega, fun heq => by simp only at heq; omega⟩

lemma utf8Round_spec (b : UInt8) (rest : Bytes) : OneForOne b rest (utf8Round b rest) := by
  unfold utf8Round
  split_ifs with hascii htwo hthree hfour
  · exact ⟨[], rfl, le_rfl, fun _ => ⟨rfl, .inr ⟨hascii, rfl⟩⟩⟩
  · cases rest with
    | nil => exact oneForOne_replaced b []
    | cons b₂ rest₂ =>
      dsimp only
      split_ifs
      · exact oneForOne_longer b [b₂] rest₂ le_rfl
      · exact oneForOne_replaced b _
  · match rest with
    | [] => exact oneForOne_replaced b []
    | [b₂] =>
      dsimp only
      split_ifs
      · exact oneForOne_replaced b _
      · exact oneForOne_longer b [b₂] [] le_rfl
    | b₂ :: b₃ :: rest₃ =>
      dsimp only
      split_ifs
      · exact oneForOne_replaced b _
      · exact oneForOne_longer b [b₂] (b₃ :: rest₃) le_rfl
      · exact oneForOne_longer b [b₂, b₃] rest₃ (by simp)
  · match rest with
    | [] => exact oneForOne_replaced b []
    | [b₂] =>
      dsimp only
      split_ifs
      · exact oneForOne_replaced b _
      · exact oneForOne_longer b [b₂] [] le_rfl
    | [b₂, b₃] =>
      dsimp only
      split_ifs
      · exact oneForOne_replaced b _
      · exact oneForOne_longer b [b₂] [b₃] le_rfl
      · exact oneForOne_longer b [b₂, b₃] [] (by simp)
    | b₂ :: b₃ :: b₄ :: rest₄ =>
      dsimp only
      split_ifs
      · exact oneForOne_replaced b _
      · exact oneForOne_longer b [b₂] (b₃ :: b₄ :: rest₄) le_rfl
      · exact oneForOne_longer b [b₂, b₃] (b₄ :: rest₄) (by simp)
      · exact oneForOne_longer b [b₂, b₃, b₄] rest₄ (by simp [decode4])
  · exact oneForOne_replaced b _

lemma length_utf8Loop_le (fuel : ℕ) (bs : Bytes) : (utf8Loop fuel bs).length ≤ bs.length := by
  induction fuel generalizing bs with
  | zero => simp [utf8Loop]
  | succ fuel ih =>
    cases bs with
    | nil => simp [utf8Loop]
    | cons b rest =>
      obtain ⟨taken, hrest, hle, -⟩ := utf8Round_spec b rest
      have hleft := ih (utf8Round b rest).2
      have hlength := congrArg List.length hrest
      simp only [utf8Loop, length_append, length_cons] at hlength ⊢
      omega

/-- The low byte of a unit, which is what `writeBytes` writes of it. -/
def lowByte (c : UInt16) : UInt8 := c.toUInt8

lemma lowByte_ascii {c : UInt16} (h : c < 0x80) : lowByte c < 0x80 ∧ (lowByte c).toUInt16 = c := by
  have hnat : c.toNat < 128 := h
  have hlow : (lowByte c).toNat = c.toNat := by
    rw [lowByte, UInt16.toNat_toUInt8]
    omega
  refine ⟨?_, UInt16.toNat_inj.mp ?_⟩
  · rw [UInt8.lt_iff_toNat_lt, hlow]
    exact hnat
  · rw [UInt8.toNat_toUInt16, hlow]

lemma utf8Loop_lowBytes_iff {fuel : ℕ} {text : List UInt16} (hfuel : text.length ≤ fuel) :
    utf8Loop fuel (text.map lowByte) = text ↔ ∀ c ∈ text, c < 0x80 ∨ c = replacementUnit := by
  induction fuel generalizing text with
  | zero =>
    obtain rfl := length_eq_zero_iff.mp (Nat.le_zero.mp hfuel)
    simp [utf8Loop]
  | succ fuel ih =>
    cases text with
    | nil => simp [utf8Loop]
    | cons c text =>
      have hfuel' : text.length ≤ fuel := by simpa using hfuel
      have ih := ih hfuel'
      rw [map_cons, utf8Loop, forall_mem_cons]
      constructor
      · intro heq
        -- counting: the round has put one unit for one byte
        obtain ⟨taken, hrest, hle, hone⟩ := utf8Round_spec (lowByte c) (text.map lowByte)
        have hleft := length_utf8Loop_le fuel (utf8Round (lowByte c) (text.map lowByte)).2
        have hcount := congrArg List.length hrest
        have htotal := congrArg List.length heq
        simp only [length_append, length_cons, length_map] at hcount htotal
        obtain ⟨rfl, hput⟩ := hone (by omega)
        rw [← nil_append (utf8Round (lowByte c) (text.map lowByte)).2, ← hrest] at heq
        obtain hput | ⟨hascii, hput⟩ := hput
        · rw [hput, singleton_append] at heq
          obtain ⟨hc, htext⟩ := List.cons.inj heq
          exact ⟨.inr hc.symm, ih.mp htext⟩
        · rw [hput, singleton_append] at heq
          obtain ⟨hc, htext⟩ := List.cons.inj heq
          refine ⟨.inl ?_, ih.mp htext⟩
          rw [← hc]
          revert hascii
          generalize lowByte c = b
          revert b
          decide +kernel
      · rintro ⟨hc, htext⟩
        have hround : utf8Round (lowByte c) (text.map lowByte) = ([c], text.map lowByte) := by
          cases hc with
          | inl hascii =>
            obtain ⟨hlow, hback⟩ := lowByte_ascii hascii
            rw [utf8Round.eq_def, if_pos hlow, hback]
          | inr hrepl =>
            rw [hrepl]
            rfl
        rw [hround, singleton_append, ih.mpr htext]

lemma utf8Decode_lowBytes_iff (text : List UInt16) :
    utf8Decode (text.map lowByte) = text ↔ ∀ c ∈ text, c < 0x80 ∨ c = replacementUnit := by
  rw [utf8Decode, length_map]
  exact utf8Loop_lowBytes_iff le_rfl

end BallotBox
