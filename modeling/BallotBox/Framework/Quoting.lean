import BallotBox.Framework.Bytes

/-!
# Quoted literals and what a lexer makes of them

A string literal stands between single quotes, with every quote inside it doubled (`literal`).  The
lexer knows literals, words and single symbols, and reads byte by byte, so that it can be followed
piece by piece (`lexRun_append`).
-/

namespace BallotBox

open List

/-- The single quote. -/
def quote : UInt8 := 39

/-- Every quote written twice. -/
def doubled (s : Bytes) : Bytes := s.flatMap fun c => if c = quote then [quote, quote] else [c]

/-- The literal that denotes a string. -/
def literal (s : Bytes) : Bytes := quote :: doubled s ++ [quote]

lemma length_doubled_le (s : Bytes) : (doubled s).length ≤ 2 * s.length := by
  induction s with
  | nil => simp [doubled]
  | cons c s ih =>
    have hone : (if c = quote then [quote, quote] else [c]).length ≤ 2 := by split_ifs <;> simp
    simp only [doubled, flatMap_cons, length_append, length_cons] at ih ⊢
    omega

lemma mem_doubled {s : Bytes} {c : UInt8} : c ∈ doubled s ↔ c ∈ s := by
  constructor
  · intro h
    obtain ⟨d, hd, hc⟩ := mem_flatMap.mp h
    split_ifs at hc with hquote
    · obtain rfl : c = quote := by simpa using hc
      exact hquote ▸ hd
    · exact mem_singleton.mp hc ▸ hd
  · intro h
    refine mem_flatMap.mpr ⟨c, h, ?_⟩
    split_ifs with hquote <;> simp [hquote]

/-! ## The lexer -/

/-- The tokens of a statement. -/
inductive Token
  | word (w : Bytes)
  | symbol (c : UInt8)
  | str (s : Bytes)
deriving DecidableEq, Repr

/-- The bytes of words: letters, digits, the underscore and the sign of a numeral. -/
def isWordByte (c : UInt8) : Bool :=
  (97 ≤ c && c ≤ 122) || (65 ≤ c && c ≤ 90) || (48 ≤ c && c ≤ 57) || c = 95 || c = 45

/-- Where the lexer stands: between tokens, in a word, in a literal, or after a quote in a literal,
which ends it unless another follows. -/
inductive LexState
  | gap
  | word (w : Bytes)
  | str (s : Bytes)
  | closing (s : Bytes)
deriving DecidableEq

/-- A byte between tokens. -/
def lexStart (c : UInt8) : List Token × LexState :=
  if c = quote then ([], .str [])
  else if isWordByte c then ([], .word [c])
  else if c = 32 then ([], .gap)
  else ([.symbol c], .gap)

/-- One byte: the tokens it completes, and where the lexer stands after it. -/
def lexStep : LexState → UInt8 → List Token × LexState
  | .gap, c => lexStart c
  | .word w, c =>
    if isWordByte c then ([], .word (w ++ [c])) else (.word w :: (lexStart c).1, (lexStart c).2)
  | .str s, c => if c = quote then ([], .closing s) else ([], .str (s ++ [c]))
  | .closing s, c =>
    if c = quote then ([], .str (s ++ [quote])) else (.str s :: (lexStart c).1, (lexStart c).2)

/-- A text: the tokens it completes, and where the lexer stands after it. -/
def lexRun (st : LexState) : Bytes → List Token × LexState
  | [] => ([], st)
  | c :: text =>
    ((lexStep st c).1 ++ (lexRun (lexStep st c).2 text).1, (lexRun (lexStep st c).2 text).2)

/-- The tokens of a text, unless it ends inside a literal. -/
def tokens (text : Bytes) : Option (List Token) :=
  match lexRun .gap text with
  | (ts, .gap) => some ts
  | (ts, .word w) => some (ts ++ [.word w])
  | (ts, .closing s) => some (ts ++ [.str s])
  | (_, .str _) => none

lemma lexRun_append (st : LexState) (a b : Bytes) : lexRun st (a ++ b) =
    ((lexRun st a).1 ++ (lexRun (lexRun st a).2 b).1, (lexRun (lexRun st a).2 b).2) := by
  induction a generalizing st with
  | nil => simp [lexRun]
  | cons c a ih => simp [lexRun, ih]

/-! ## Slots -/

lemma lexRun_doubled (s before : Bytes) :
    lexRun (.str before) (doubled s) = ([], .str (before ++ s)) := by
  induction s generalizing before with
  | nil => simp [doubled, lexRun]
  | cons c s ih =>
    rw [doubled, flatMap_cons, ← doubled, lexRun_append]
    have hone : lexRun (.str before) (if c = quote then [quote, quote] else [c]) =
        ([], .str (before ++ [c])) := by
      split_ifs with hquote <;> simp [lexRun, lexStep, hquote]
    rw [hone, ih]
    simp

lemma lexRun_literal (s : Bytes) : lexRun .gap (literal s) = ([], .closing s) := by
  have hopen : lexStep .gap quote = ([], .str []) := by decide
  rw [literal, cons_append, lexRun, hopen, lexRun_append, lexRun_doubled]
  simp [lexRun, lexStep]

lemma lexRun_wordBytes {w : Bytes} (h : ∀ c ∈ w, isWordByte c = true) (before : Bytes) :
    lexRun (.word before) w = ([], .word (before ++ w)) := by
  induction w generalizing before with
  | nil => simp [lexRun]
  | cons c w ih =>
    rw [lexRun, lexStep, if_pos (h c (by simp)), ih fun d hd => h d (mem_cons_of_mem _ hd)]
    simp

lemma lexRun_word {w : Bytes} (hne : w ≠ []) (h : ∀ c ∈ w, isWordByte c = true) :
    lexRun .gap w = ([], .word w) := by
  obtain ⟨c, w, rfl⟩ := exists_cons_of_ne_nil hne
  have hc := h c (by simp)
  have hquote : c ≠ quote := by
    rintro rfl
    exact absurd hc (by decide)
  rw [lexRun, lexStep, lexStart, if_neg hquote, if_pos hc,
    lexRun_wordBytes fun d hd => h d (mem_cons_of_mem _ hd)]
  simp

/-! ## Templates -/

/-- What fills a slot. -/
inductive Slot
  | str (s : Bytes)
  | word (w : Bytes)
deriving DecidableEq

namespace Slot

/-- The token a slot should be read as. -/
def token : Slot → Token
  | str s => .str s
  | word w => .word w

/-- The text of a slot. -/
def render : Slot → Bytes
  | str s => literal s
  | word w => w

/-- Any string goes into a literal; a word has to be one. -/
def Ok : Slot → Prop
  | str _ => True
  | word w => w ≠ [] ∧ ∀ c ∈ w, isWordByte c = true

end Slot

lemma lexRun_slot {slot : Slot} (h : slot.Ok) : (lexRun .gap slot.render).1 = [] := by
  cases slot with
  | str s => rw [Slot.render, lexRun_literal]
  | word w => rw [Slot.render, lexRun_word h.1 h.2]

/-- A text with slots: fixed pieces, each but the last followed by a slot. -/
structure Template where
  pieces : List (Bytes × Slot)
  last : Bytes

/-- A fixed piece that does not run into the slots around it. -/
def Spaced (text : Bytes) : Prop :=
  (lexRun .gap text).2 = .gap ∧ ∀ c ∈ text.head?, c ≠ quote ∧ isWordByte c = false

instance (text : Bytes) : Decidable (Spaced text) := by
  unfold Spaced
  infer_instance

lemma lexRun_spaced {text : Bytes} (hne : text ≠ []) (h : Spaced text) (slot : Slot)
    (hslot : slot.Ok) : lexRun (lexRun .gap slot.render).2 text =
      (slot.token :: (lexRun .gap text).1, .gap) := by
  obtain ⟨c, text, rfl⟩ := exists_cons_of_ne_nil hne
  obtain ⟨hgap, hhead⟩ := h
  obtain ⟨hquote, hword⟩ := hhead c rfl
  have hstep : lexStep (lexRun .gap slot.render).2 c =
      (slot.token :: (lexStart c).1, (lexStart c).2) := by
    cases slot with
    | str s => simp [Slot.render, lexRun_literal, lexStep, hquote, Slot.token]
    | word w => simp [Slot.render, lexRun_word hslot.1 hslot.2, lexStep, hword, Slot.token]
  rw [lexRun] at hgap ⊢
  rw [hstep]
  simp only [lexRun, lexStep] at hgap ⊢
  simp [hgap]

/-- Fixed pieces that do not run into the slots between them.  Nothing stands before the first. -/
def Apart (texts : List Bytes) (last : Bytes) : Prop :=
  (∀ text ∈ texts.head?, (lexRun .gap text).2 = .gap) ∧
    (∀ text ∈ texts.tail, text ≠ [] ∧ Spaced text)
    ∧ (texts ≠ [] → last ≠ [] ∧ Spaced last) ∧ (lexRun .gap last).2 = .gap

instance (texts : List Bytes) (last : Bytes) : Decidable (Apart texts last) := by
  unfold Apart
  infer_instance

namespace Template

/-- The text, with the slots filled. -/
def render (t : Template) : Bytes := t.pieces.flatMap (fun p => p.1 ++ p.2.render) ++ t.last

/-- The tokens of the fixed pieces, with one token for each slot. -/
def skeleton (t : Template) : List Token :=
  t.pieces.flatMap (fun p => (lexRun .gap p.1).1 ++ [p.2.token]) ++ (lexRun .gap t.last).1

lemma render_cons (p : Bytes × Slot) (pieces : List (Bytes × Slot)) (last : Bytes) :
    render ⟨p :: pieces, last⟩ = p.1 ++ (p.2.render ++ render ⟨pieces, last⟩) := by
  simp [render]

lemma skeleton_cons (p : Bytes × Slot) (pieces : List (Bytes × Slot)) (last : Bytes) :
    skeleton ⟨p :: pieces, last⟩ = (lexRun .gap p.1).1 ++ p.2.token :: skeleton ⟨pieces, last⟩ := by
  simp [skeleton]

lemma lexRun_after (slot : Slot) (hslot : slot.Ok) (pieces : List (Bytes × Slot)) (last : Bytes)
    (hspaced : ∀ p ∈ pieces, p.1 ≠ [] ∧ Spaced p.1) (hlast : last ≠ [] ∧ Spaced last)
    (hslots : ∀ p ∈ pieces, p.2.Ok) :
    lexRun (lexRun .gap slot.render).2 (render ⟨pieces, last⟩) =
      (slot.token :: skeleton ⟨pieces, last⟩, .gap) := by
  induction pieces generalizing slot with
  | nil =>
    simp only [render, skeleton, flatMap_nil, nil_append]
    exact lexRun_spaced hlast.1 hlast.2 slot hslot
  | cons p pieces ih =>
    obtain ⟨hne, hsp⟩ := hspaced p (by simp)
    have hp := hslots p (by simp)
    have hrest := ih p.2 hp (fun q hq => hspaced q (mem_cons_of_mem _ hq))
      fun q hq => hslots q (mem_cons_of_mem _ hq)
    rw [render_cons, skeleton_cons, lexRun_append, lexRun_spaced hne hsp slot hslot, lexRun_append,
      lexRun_slot hp, hrest]
    simp

/-- **One token for each slot.**  The text of a template is read as its skeleton. -/
theorem tokens_render {t : Template} (h : Apart (t.pieces.map (·.1)) t.last)
    (hslots : ∀ p ∈ t.pieces, p.2.Ok) : tokens t.render = some t.skeleton := by
  obtain ⟨pieces, last⟩ := t
  obtain ⟨hfirst, hspaced, hlast, hends⟩ := h
  have hrun : lexRun .gap (render ⟨pieces, last⟩) = (skeleton ⟨pieces, last⟩, .gap) := by
    cases pieces with
    | nil => exact Prod.ext rfl hends
    | cons p pieces =>
      have hp := hslots p (by simp)
      have hrest := lexRun_after p.2 hp pieces last
        (fun q hq => hspaced q.1 (mem_map_of_mem hq)) (hlast (by simp))
        fun q hq => hslots q (mem_cons_of_mem _ hq)
      rw [render_cons, skeleton_cons, lexRun_append, hfirst p.1 (by simp), lexRun_append,
        lexRun_slot hp, hrest]
      simp
  rw [tokens, hrun]

end Template

end BallotBox
