import Mathlib

/-!
# Bytes, C strings and line-oriented text

The vocabulary every other module is written in.  A string in a `char[cap]` array is a `CStr cap`:
it contains no NUL and leaves room for its terminator.  The one place where a copy can truncate is
`CStr.ofBytes`.
-/

namespace BallotBox

open List

variable {b line w : Bytes} {sep : UInt8}

/-- A byte buffer. -/
abbrev Bytes := List UInt8

/-- The bytes of an ASCII literal. -/
def ascii (s : String) : Bytes := s.toList.map fun c => UInt8.ofNat c.toNat

/-- What holds of every byte of a text is decided along the text, not over all 256 bytes. -/
instance decidableForallByte {p : UInt8 → Prop} [DecidablePred p] (b : Bytes) :
    Decidable (∀ c ∈ b, p c) :=
  List.decidableBAll p b

instance decidableForallOptionByte {p : UInt8 → Prop} [DecidablePred p] (o : Option UInt8) :
    Decidable (∀ c ∈ o, p c) :=
  Option.decidableForallMem o

/-- Line feed. -/
abbrev lf : UInt8 := 10

/-- Carriage return. -/
abbrev cr : UInt8 := 13

/-- Horizontal tab. -/
abbrev tab : UInt8 := 9

/-- The C string a buffer holds: everything before its first NUL. -/
def cstr (b : Bytes) : Bytes := b.takeWhile (· ≠ 0)

lemma zero_notMem_cstr (b : Bytes) : (0 : UInt8) ∉ cstr b := by
  intro h
  simpa using mem_takeWhile_imp h

lemma cstr_eq_self (h : (0 : UInt8) ∉ b) : cstr b = b := by
  refine takeWhile_eq_self_iff.mpr fun c hc => ?_
  simpa using fun h0 : c = 0 => h (h0 ▸ hc)

lemma cstr_sublist (b : Bytes) : (cstr b).Sublist b := (List.takeWhile_prefix _).sublist

lemma take_take_append (n : ℕ) (a b : Bytes) : (a.take n ++ b).take n = (a ++ b).take n := by
  rw [take_append, take_append, take_take, min_self, length_take]
  congr 2
  omega

/-! ## Strings in fixed arrays -/

/-- The contents of a `char[cap]` array holding a NUL-terminated string. -/
structure CStr (cap : ℕ) where
  bytes : Bytes
  fits : bytes.length ≤ cap - 1
  noNul : (0 : UInt8) ∉ bytes
deriving DecidableEq

namespace CStr

variable {cap : ℕ}

@[ext] lemma ext {s t : CStr cap} (h : s.bytes = t.bytes) : s = t := by
  cases s; cases t; simp_all

/-- The empty string, which is also what a zeroed array holds. -/
def empty : CStr cap := ⟨[], by simp, by simp⟩

instance : Inhabited (CStr cap) := ⟨empty⟩

/-- A bounded copy into a `char[cap]`: at most `cap - 1` bytes, up to the first NUL among them. -/
def ofBytes (b : Bytes) : CStr cap where
  bytes := cstr (b.take (cap - 1))
  fits := (cstr_sublist _).length_le.trans (by simp)
  noNul := zero_notMem_cstr _

lemma ofBytes_bytes (hfit : b.length ≤ cap - 1) (hnul : (0 : UInt8) ∉ b) :
    (ofBytes b : CStr cap).bytes = b := by
  simp only [ofBytes, take_of_length_le hfit, cstr_eq_self hnul]

@[simp] lemma ofBytes_self (s : CStr cap) : (ofBytes s.bytes : CStr cap) = s :=
  ext (ofBytes_bytes s.fits s.noNul)

lemma ofBytes_eq {s : CStr cap} (h : b = s.bytes) : ofBytes b = s := by
  rw [h, ofBytes_self]

lemma mem_of_mem_ofBytes {c : UInt8} (h : c ∈ (ofBytes b : CStr cap).bytes) : c ∈ b :=
  mem_of_mem_take ((cstr_sublist _).subset h)

end CStr

/-! ## Strings that fit on one line -/

/-- No byte of `b` ends a C string or a line. -/
def Clean (b : Bytes) : Prop := (0 : UInt8) ∉ b ∧ cr ∉ b ∧ lf ∉ b

instance (b : Bytes) : Decidable (Clean b) := inferInstanceAs (Decidable (_ ∧ _ ∧ _))

lemma Clean.of_subset {c : Bytes} (hc : Clean c) (h : b ⊆ c) : Clean b :=
  ⟨fun hb => hc.1 (h hb), fun hb => hc.2.1 (h hb), fun hb => hc.2.2 (h hb)⟩

/-- A string column: one-line text. -/
structure Text where
  bytes : Bytes
  clean : Clean bytes
deriving DecidableEq

namespace Text

@[ext] lemma ext {s t : Text} (h : s.bytes = t.bytes) : s = t := by
  cases s; cases t; simp_all

/-- The text a literal denotes, if it fits on one line. -/
def ofBytes? (b : Bytes) : Option Text := if h : Clean b then some ⟨b, h⟩ else none

lemma ofBytes?_eq_some {t : Text} : ofBytes? b = some t ↔ t.bytes = b := by
  unfold ofBytes?
  split_ifs with h
  · constructor
    · intro ht
      cases ht
      rfl
    · intro ht
      exact congrArg some (Text.ext ht.symm)
  · constructor
    · intro ht
      cases ht
    · rintro rfl
      exact absurd t.clean h

lemma ofBytes?_clean (h : Clean b) : ofBytes? b = some ⟨b, h⟩ := dif_pos h

@[simp] lemma ofBytes?_bytes (t : Text) : ofBytes? t.bytes = some t := ofBytes?_eq_some.mpr rfl

end Text

/-! ## Lines -/

/-- Lines as they stand in a stream, each with its line feed. -/
def unlines (ls : List Bytes) : Bytes := ls.flatMap (· ++ [lf])

@[simp] lemma unlines_nil : unlines [] = [] := rfl

@[simp] lemma unlines_cons (l : Bytes) (ls : List Bytes) :
    unlines (l :: ls) = l ++ lf :: unlines ls := by
  simp [unlines]

@[simp] lemma unlines_append (ls ms : List Bytes) :
    unlines (ls ++ ms) = unlines ls ++ unlines ms := by
  simp [unlines]

lemma length_le_length_unlines (ls : List Bytes) : ls.length ≤ (unlines ls).length := by
  induction ls with
  | nil => simp
  | cons l ls ih => simp only [unlines_cons, length_append, length_cons]; omega

lemma intercalate_cons_eq (sep : UInt8) (l : Bytes) (ls : List Bytes) :
    [sep].intercalate (l :: ls) = l ++ ls.flatMap (sep :: ·) := by
  induction ls generalizing l with
  | nil => simp [List.intercalate]
  | cons m ls ih =>
    have hstep : [sep].intercalate (l :: m :: ls) = l ++ sep :: [sep].intercalate (m :: ls) := by
      simp [List.intercalate, List.intersperse]
    rw [hstep, ih]
    simp

lemma append_eq_line_cases {a rest : Bytes} (h : a ++ b = line ++ lf :: rest) :
    (∃ r, a = line ++ lf :: r ∧ rest = r ++ b) ∨ (∃ l, line = a ++ l ∧ b = l ++ lf :: rest) := by
  rcases append_eq_append_iff.mp h with ⟨l, hl, hb⟩ | ⟨c, ha, hc⟩
  · exact .inr ⟨l, hl, hb⟩
  · cases c with
    | nil => exact .inr ⟨[], by simpa using ha.symm, by simpa using hc.symm⟩
    | cons x r =>
      simp only [cons_append, List.cons.injEq] at hc
      obtain ⟨rfl, rfl⟩ := hc
      exact .inl ⟨r, ha, rfl⟩

lemma length_intercalate_succ (l : Bytes) (ls : List Bytes) :
    ([lf].intercalate (l :: ls)).length + 1 = (unlines (l :: ls)).length := by
  rw [intercalate_cons_eq]
  induction ls generalizing l with
  | nil => simp
  | cons m ls ih =>
    have := ih m
    simp only [unlines_cons, flatMap_cons, length_append, length_cons] at this ⊢
    omega

lemma length_unlines_map_le {g : Bytes → Bytes} (hg : ∀ l, (g l).length ≤ l.length)
    (ls : List Bytes) : (unlines (ls.map g)).length ≤ (unlines ls).length := by
  induction ls with
  | nil => simp
  | cons l ls ih =>
    have := hg l
    simp only [map_cons, unlines_cons, length_append, length_cons]
    omega

lemma prefix_of_prefix_append {p f g : Bytes} (hg : ∀ c, g.head? = some c → c ∉ p)
    (h : p <+: f ++ g) : p <+: f := by
  rcases prefix_or_prefix_of_prefix h (prefix_append f g) with hp | ⟨q, rfl⟩
  · exact hp
  · cases q with
    | nil => simp
    | cons c q =>
      obtain ⟨g', rfl⟩ := (prefix_append_right_inj f).mp h
      exact absurd (by simp) (hg c rfl)

lemma splitOn_append_cons (h : sep ∉ line) (rest : Bytes) :
    (line ++ sep :: rest).splitOn sep = line :: rest.splitOn sep := by
  refine splitOnP_append_cons_of_forall_mem (fun c hc => ?_) sep (by simp) rest
  simpa using fun hs : c = sep => h (hs ▸ hc)

lemma splitOn_eq_singleton (h : sep ∉ line) : line.splitOn sep = [line] := by
  have hsplit : ([sep].intercalate [line]).splitOn sep = [line] :=
    splitOn_intercalate sep (by simpa using h) (by simp)
  simpa using hsplit

lemma not_mem_of_mem_splitOn :
    ∀ {b : Bytes} {piece : Bytes}, piece ∈ b.splitOn sep → sep ∉ piece := by
  intro b
  induction b with
  | nil => simp [splitOn_nil]
  | cons c b ih =>
    intro piece hp
    unfold List.splitOn at hp ih
    rw [splitOnP_cons_eq_if_modifyHead] at hp
    split_ifs at hp with hc
    · rcases mem_cons.mp hp with rfl | hp
      · simp
      · exact ih hp
    · obtain ⟨p, ps, hps⟩ := exists_cons_of_ne_nil (splitOnP_ne_nil (· == sep) b)
      rw [hps] at hp ih
      rcases mem_cons.mp hp with rfl | hp
      · have hp' : sep ∉ p := ih (by simp)
        have : sep ≠ c := fun h => hc (by simp [h])
        simp [this, hp']
      · exact ih (mem_cons_of_mem _ hp)

lemma infix_append_cons_iff (hw : sep ∉ w) (a b : Bytes) :
    w <:+: a ++ sep :: b ↔ w <:+: a ∨ w <:+: b := by
  constructor
  · rintro ⟨u, v, heq⟩
    rw [append_assoc] at heq
    obtain ⟨d, rfl, hd⟩ | ⟨d, rfl, hd⟩ := append_eq_append_iff.mp heq
    · -- the word starts before the separator
      obtain ⟨d', rfl, hd'⟩ | ⟨d', rfl, hd'⟩ := append_eq_append_iff.mp hd
      · exact .inl ⟨u, d', by simp⟩
      · cases d' with
        | nil => exact .inl ⟨u, [], by simp⟩
        | cons c d' =>
          obtain ⟨rfl, -⟩ := List.cons.inj hd'
          exact absurd (by simp) hw
    · cases d with
      | nil =>
        cases w with
        | nil => exact .inl nil_infix
        | cons c w =>
          obtain ⟨rfl, -⟩ := List.cons.inj hd
          exact absurd (by simp) hw
      | cons c d =>
        obtain ⟨rfl, rfl⟩ := List.cons.inj hd
        exact .inr ⟨d, v, by simp⟩
  · intro h
    cases h with
    | inl h => exact h.trans (prefix_append a _).isInfix
    | inr h =>
      have hsuffix : b <:+ a ++ sep :: b := ⟨a ++ [sep], by simp⟩
      exact h.trans hsuffix.isInfix

lemma cons_infix_append_cons_iff {a : Bytes} (ha : sep ∉ a) (b : Bytes) :
    sep :: w <:+: a ++ sep :: b ↔ w <+: b ∨ sep :: w <:+: b := by
  induction a with
  | nil => rw [nil_append, infix_cons_iff, cons_prefix_cons, eq_self, true_and]
  | cons c a ih =>
    obtain ⟨hc, ha⟩ : sep ≠ c ∧ sep ∉ a := by simpa using ha
    rw [cons_append, infix_cons_iff, cons_prefix_cons, ih ha]
    simp [hc]

lemma exists_piece_prefix_iff (hw : sep ∉ w) (text : Bytes) :
    (∃ piece ∈ text.splitOn sep, w <+: piece) ↔ w <+: text ∨ sep :: w <:+: text := by
  by_cases hmem : sep ∈ text
  · obtain ⟨a, b, htext, ha⟩ := eq_append_cons_of_mem hmem
    have hshorter : b.length < text.length := by
      rw [htext, length_append, length_cons]
      omega
    have ih := exists_piece_prefix_iff hw b
    have hfirst : w <+: a ++ sep :: b ↔ w <+: a :=
      ⟨prefix_of_prefix_append (by simpa using hw), fun h => h.trans (prefix_append _ _)⟩
    rw [htext, splitOn_append_cons ha, cons_infix_append_cons_iff ha, hfirst, ← ih]
    simp
  · have hnone : ¬ sep :: w <:+: text := fun h => hmem (h.subset (by simp))
    rw [splitOn_eq_singleton hmem]
    simp [hnone]
termination_by text.length

end BallotBox
