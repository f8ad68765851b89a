import BallotBox.Construction.Sql
import BallotBox.Properties.Support.Frames

/-!
# Statements keep their shape

The buffers of `db_quote` and of the statements are large enough for whatever the fields of a
command can hold (`dbQuote_eq`, `Stmt.sql_eq`).  So a lexer reads a statement as its format string
with one token in each slot (`Stmt.shaped_of_fits`).
-/

namespace BallotBox

open List

variable {cap : ℕ} {s : Bytes} {c : UInt8} {a : Arg}

/-! ## Arguments -/

lemma quoteLoop_eq (s : Bytes) {w : ℕ} (h : w + (doubled s).length + 2 ≤ cap) :
    quoteLoop cap w s = doubled s := by
  induction s generalizing w with
  | nil => rfl
  | cons c s ih =>
    have hcons : doubled (c :: s) = (if c = quote then [quote, quote] else [c]) ++ doubled s := rfl
    rw [hcons, length_append] at h
    rw [hcons, quoteLoop]
    by_cases hquote : c = quote
    · simp only [hquote, if_true, length_cons, length_nil] at h ⊢
      rw [if_pos (by omega), ih (by omega)]
    · simp only [hquote, if_false, length_cons, length_nil] at h ⊢
      rw [if_pos (by omega), ih (by omega)]

lemma dbQuote_eq (h : 2 * s.length + 3 ≤ cap) : dbQuote cap s = literal s := by
  have hlen := length_doubled_le s
  rw [dbQuote, if_neg (by omega), quoteLoop_eq s (by omega), literal]

def Numeral (w : Bytes) : Prop := w ≠ [] ∧ (∀ c ∈ w, isWordByte c = true) ∧ w.length ≤ 64

lemma isWordByte_of_isDigit (h : isDigit c = true) : isWordByte c = true := by
  have hrange : 48 ≤ c ∧ c ≤ 57 := by simpa [isDigit] using h
  simp [isWordByte, hrange]

lemma numeral_renderInt {n : ℤ} (hl : -2 ^ 31 ≤ n) (hu : n ≤ 2 ^ 31) : Numeral (renderInt n) := by
  refine ⟨renderInt_ne_nil n, fun c hc => ?_, ?_⟩
  · rcases mem_renderInt hc with rfl | hdigit
    · decide
    · exact isWordByte_of_isDigit hdigit
  · have hlen : (renderInt n).length ≤ 10 + 1 :=
      length_renderInt_le (by norm_num) (by norm_num; omega)
    omega

namespace Arg

def Fits : Arg → Prop
  | quoted s => s.length ≤ 64
  | raw w => Numeral w
  | bare s => quote ∉ s ∧ s.length ≤ 64

lemma doubled_of_notMem (h : quote ∉ s) : doubled s = s := by
  induction s with
  | nil => rfl
  | cons c s ih =>
    have hc : c ≠ quote := fun heq => h (by simp [heq])
    have hs : doubled s = s := ih fun hmem => h (mem_cons_of_mem _ hmem)
    rw [doubled, flatMap_cons, if_neg hc, ← doubled, hs, singleton_append]

lemma text_eq (h : a.Fits) : a.text = a.slot.render := by
  cases a with
  | quoted s =>
    have hs : s.length ≤ 64 := h
    exact dbQuote_eq (by simp only [quoteMax]; omega)
  | raw w => rfl
  | bare s => rw [text, slot, Slot.render, literal, doubled_of_notMem h.1]

lemma slot_ok (h : a.Fits) : a.slot.Ok := by
  cases a with
  | quoted s => trivial
  | raw w => exact ⟨h.1, h.2.1⟩
  | bare s => trivial

lemma length_render_le (h : a.Fits) : a.slot.render.length ≤ 130 := by
  have hstr {s : Bytes} (hs : s.length ≤ 64) : (literal s).length ≤ 130 := by
    have hlen := length_doubled_le s
    simp only [literal, cons_append, length_cons, length_append, length_nil]
    omega
  cases a with
  | quoted s => exact hstr h
  | raw w => exact h.2.2.trans (by norm_num)
  | bare s => exact hstr h.2

lemma mem_render (hc : c ≠ quote) : c ∈ a.slot.render ↔ c ∈ a.bytes := by
  cases a <;> simp [slot, Slot.render, bytes, literal, mem_doubled, hc]

end Arg

/-! ## Statements -/

namespace Stmt

def Fits (stmt : Stmt) : Prop := ∀ p ∈ stmt.format.1, p.2.Fits

lemma parts_eq (stmt : Stmt) : stmt.parts = stmt.format.1.map (·.2.bytes) := by
  cases stmt <;> rfl

lemma fixed_spec (stmt : Stmt) :
    Apart (stmt.format.1.map fun p => ascii p.1) (ascii stmt.format.2) ∧
    (stmt.format.1.map fun p => ascii p.1).length ≤ 6 ∧
    ∀ text ∈ ascii stmt.format.2 :: stmt.format.1.map fun p => ascii p.1,
      text.length ≤ 100 ∧ lf ∉ text ∧ cr ∉ text := by
  cases stmt <;> simp only [format, map_cons, map_nil] <;> decide +kernel

lemma render_eq (stmt : Stmt) : stmt.template.render =
    stmt.format.1.flatMap (fun p => ascii p.1 ++ p.2.slot.render) ++ ascii stmt.format.2 := by
  simp [Template.render, template, flatMap_map]

lemma length_render_le {stmt : Stmt} (h : stmt.Fits) : stmt.template.render.length ≤ 1480 := by
  obtain ⟨-, hcount, htexts⟩ := stmt.fixed_spec
  have hpiece (p : String × Arg) (hp : p ∈ stmt.format.1) :
      (ascii p.1 ++ p.2.slot.render).length ≤ 230 := by
    have htext := (htexts (ascii p.1) (mem_cons_of_mem _ (mem_map_of_mem hp))).1
    have hslot := Arg.length_render_le (h p hp)
    rw [length_append]
    omega
  have hsum := sum_le_card_nsmul (stmt.format.1.map fun p =>
    (ascii p.1 ++ p.2.slot.render).length) 230 (fun n hn => by
      obtain ⟨p, hp, rfl⟩ := mem_map.mp hn
      exact hpiece p hp)
  have hlast := (htexts _ mem_cons_self).1
  rw [length_map] at hcount hsum
  rw [render_eq, length_append, length_flatMap]
  rw [smul_eq_mul] at hsum
  omega

/-- **Nothing is cut off.** -/
theorem sql_eq {stmt : Stmt} (h : stmt.Fits) : stmt.sql = stmt.template.render := by
  have htext : stmt.format.1.flatMap (fun p => ascii p.1 ++ p.2.text) =
      stmt.format.1.flatMap fun p => ascii p.1 ++ p.2.slot.render :=
    flatMap_congr fun p hp => by rw [Arg.text_eq (h p hp)]
  have hlen := length_render_le h
  rw [sql, htext, ← render_eq, take_of_length_le (by simp only [sqlMax]; omega)]

lemma mem_sql {stmt : Stmt} (h : stmt.Fits) (hc : c = lf ∨ c = cr) :
    c ∈ stmt.sql ↔ ∃ part ∈ stmt.parts, c ∈ part := by
  obtain ⟨-, -, htexts⟩ := stmt.fixed_spec
  have hfixed {text : Bytes} (htext : text ∈ ascii stmt.format.2 ::
      stmt.format.1.map fun p => ascii p.1) : c ∉ text := by
    rcases hc with rfl | rfl
    · exact (htexts text htext).2.1
    · exact (htexts text htext).2.2
  have hquote : c ≠ quote := by rcases hc with rfl | rfl <;> decide
  rw [sql_eq h, render_eq, parts_eq]
  simp only [mem_append, mem_flatMap, mem_map, Arg.mem_render hquote]
  constructor
  · rintro (⟨p, hp, hmem | hmem⟩ | hmem)
    · exact absurd hmem (hfixed (mem_cons_of_mem _ (mem_map_of_mem hp)))
    · exact ⟨_, ⟨p, hp, rfl⟩, hmem⟩
    · exact absurd hmem (hfixed mem_cons_self)
  · rintro ⟨_, ⟨p, hp, rfl⟩, hmem⟩
    exact .inl ⟨p, hp, .inr hmem⟩

theorem hasBreak_iff {stmt : Stmt} (h : stmt.Fits) :
    stmt.hasBreak = true ↔ lf ∈ stmt.sql ∨ cr ∈ stmt.sql := by
  rw [mem_sql h (.inl rfl), mem_sql h (.inr rfl)]
  simp only [hasBreak, any_eq_true, Bool.or_eq_true, contains_iff_mem]
  constructor
  · rintro ⟨part, hpart, hmem | hmem⟩
    · exact .inl ⟨part, hpart, hmem⟩
    · exact .inr ⟨part, hpart, hmem⟩
  · rintro (⟨part, hpart, hmem⟩ | ⟨part, hpart, hmem⟩)
    · exact ⟨part, hpart, .inl hmem⟩
    · exact ⟨part, hpart, .inr hmem⟩

/-- The text is one line with the tokens of the format string, and one for each argument: the string
itself, or the numeral. -/
def Shaped (stmt : Stmt) : Prop :=
  lf ∉ stmt.sql ∧ cr ∉ stmt.sql ∧ tokens stmt.sql = some stmt.template.skeleton

/-- **Shape.**  A statement that fits and is sent has its shape. -/
theorem shaped_of_fits {stmt : Stmt} (h : stmt.Fits) (hsent : stmt.hasBreak = false) :
    stmt.Shaped := by
  have hbreak : ¬ (lf ∈ stmt.sql ∨ cr ∈ stmt.sql) := by simp [← hasBreak_iff h, hsent]
  refine ⟨fun hlf => hbreak (.inl hlf), fun hcr => hbreak (.inr hcr), ?_⟩
  rw [sql_eq h]
  refine Template.tokens_render ?_ fun p hp => ?_
  · simpa [template, Function.comp_def] using stmt.fixed_spec.1
  · obtain ⟨q, hq, rfl⟩ := mem_map.mp hp
    exact Arg.slot_ok (h q hq)

end Stmt

/-! ## The statements of the commands -/

def DbCmd.ints : DbCmd → List ℤ
  | .appendBallot _ row => [row.optionIndex, row.version, row.superseded]
  | .setOwner _ _ _ version => [version]
  | _ => []

def DbCmd.splices : DbCmd → Bool
  | .updateState .. | .markSuperseded .. => true
  | _ => false

variable {cmd : DbCmd} {stmt : Stmt}

lemma DbCmd.Emits.fits (h : cmd.Emits stmt)
    (hraw : ∀ p ∈ stmt.format.1, ∀ w, p.2 = .raw w → Numeral w) : stmt.Fits := by
  have hlen {cap : ℕ} (s : CStr cap) (hcap : cap ≤ 65) : s.bytes.length ≤ 64 :=
    s.fits.trans (by omega)
  have hstate (s : BbState) : quote ∉ bbStateStr s ∧ (bbStateStr s).length ≤ 64 := by
    cases s <;> decide
  have hdraft : quote ∉ ascii "DRAFT" ∧ (ascii "DRAFT").length ≤ 64 := by decide
  intro p hp
  have hword := hraw p hp
  obtain ⟨text, arg⟩ := p
  cases arg with
  | raw w => exact hword w rfl
  | quoted s =>
    cases h <;> simp [Stmt.format] at hp
    all_goals grind [Arg.Fits]
  | bare s =>
    cases h <;> simp [Stmt.format] at hp
    all_goals grind [Arg.Fits]

lemma DbCmd.Emits.numerals (h : cmd.Emits stmt)
    (hints : ∀ n ∈ cmd.ints, -2 ^ 31 ≤ n ∧ n ≤ 2 ^ 31) (hsplice : cmd.splices = false) :
    ∀ p ∈ stmt.format.1, ∀ w, p.2 = .raw w → Numeral w := by
  cases h with
  | insertElection eid config =>
    have hseq : Numeral (renderInt (idSeq eid.bytes)) := by
      have hrange : -2 ^ 31 ≤ idSeq eid.bytes ∧ idSeq eid.bytes < 2 ^ 31 := by
        unfold idSeq
        split
        · norm_num
        · dsimp only
          split_ifs
          · norm_num
          · exact wrap32_range _
      exact numeral_renderInt hrange.1 hrange.2.le
    simpa [Stmt.format] using hseq
  | insertOption eid config opt i hi =>
    have hlen : config.options.length ≤ 16 := config.options_le
    have hidx : Numeral (renderInt i) := numeral_renderInt (by omega) (by omega)
    simpa [Stmt.format] using hidx
  | insertBallot eid row =>
    have hint (n : ℤ) (hn : n ∈ (DbCmd.appendBallot eid row).ints) : Numeral (renderInt n) :=
      numeral_renderInt (hints n hn).1 (hints n hn).2
    have hopt := hint row.optionIndex (by simp [DbCmd.ints])
    have hver := hint row.version (by simp [DbCmd.ints])
    have hsup := hint row.superseded (by simp [DbCmd.ints])
    simpa [Stmt.format] using ⟨hopt, hver, hsup⟩
  | insertOwner eid cert hash version =>
    have hrange := hints version (by simp [DbCmd.ints])
    have hver := numeral_renderInt hrange.1 hrange.2
    simpa [Stmt.format] using hver
  | selectElectionRest | deleteElection | reinsertElection | selectBallot | deleteBallot
  | reinsertBallot => cases hsplice
  | _ => simp [Stmt.format]

end BallotBox
