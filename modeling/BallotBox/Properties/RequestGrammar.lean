import BallotBox.Properties.WireFidelity

/-!
# The grammar of requests

`RequestTokens.Grammatical` is the grammar of requests, written down without the parser.  The parser
accepts exactly the texts of such requests, provided no NUL byte comes before the body
(`request_grammar`).
-/

namespace BallotBox

open List

variable {c : UInt8} {rest line : Bytes} {tokens : List HeaderToken} {t : RequestTokens}

/-! ## The grammar -/

/-- A token of a length within bounds that does not contain a delimiter or a line end. -/
structure GrammarToken (shortest longest : ℕ) (delimiter : Option UInt8) (token : Bytes) :
    Prop where
  long : shortest ≤ token.length
  short : token.length ≤ longest
  delimited : ∀ c ∈ delimiter, c ∉ token
  line : ¬ crlf <:+: token

/-- The first Content-Length declares the length of the body in at most 32 digits; without one there
is no body. -/
def DeclaresLength (headers : List HeaderToken) (body : Bytes) : Prop :=
  match headers.find? fun h => ciEq h.key (ascii "Content-Length") with
  | none => body = []
  | some h => (h.value ≠ [] ∧ h.value.length ≤ 32 ∧ ∀ c ∈ h.value, isDigit c = true) ∧
      digitsValue h.value = body.length ∧ body.length < 2 ^ 32

/-- A request of the grammar. -/
structure RequestTokens.Grammatical (t : RequestTokens) : Prop where
  method : GrammarToken 1 15 (some 32) t.method
  path : GrammarToken 1 255 (some 32) t.path
  count : t.headers.length ≤ 32
  key : ∀ h ∈ t.headers, GrammarToken 1 63 (some 58) h.key
  value : ∀ h ∈ t.headers, GrammarToken 0 255 none h.value
  length : DeclaresLength t.headers t.body

def beforeBody : Bytes → Bytes
  | [] => []
  | c :: rest => if crlf ++ crlf <+: c :: rest then [] else c :: beforeBody rest

/-- The fields of a request are the tokens. -/
structure RequestTokens.Reported (t : RequestTokens) (req : HtttpRequest) : Prop where
  method : req.method.bytes = t.method
  path : req.path.bytes = t.path
  headers : req.headers.map (fun h => (h.key.bytes, h.value.bytes)) =
    t.headers.map fun h => (h.key, h.value)
  body : req.body = t.body

/-! ## Line ends in tokens -/

lemma crlf_infix_append_cons {a b : Bytes} (hcr : c ≠ cr) (hlf : c ≠ lf) :
    crlf <:+: a ++ c :: b ↔ crlf <:+: a ∨ crlf <:+: b := by
  induction a with
  | nil => simp [infix_cons_iff, crlf, hcr.symm]
  | cons d a ih =>
    have hstart : crlf <+: d :: a ++ c :: b ↔ crlf <+: d :: a := by
      cases a with
      | nil => simp [crlf, hlf.symm]
      | cons e a => simp [crlf]
    rw [cons_append, infix_cons_iff, infix_cons_iff, ih, ← cons_append, hstart, or_assoc]

lemma HeaderToken.line_iff (h : HeaderToken) :
    ¬ crlf <:+: h.text ↔ ¬ crlf <:+: h.key ∧ ¬ crlf <:+: h.value := by
  have htext : h.text = h.key ++ 58 :: ([] ++ 32 :: h.value) := rfl
  have hnil : ¬ crlf <:+: [] := by decide
  rw [htext, crlf_infix_append_cons (by decide) (by decide),
    crlf_infix_append_cons (by decide) (by decide)]
  simp [hnil]

lemma RequestTokens.line_iff (t : RequestTokens) :
    ¬ crlf <:+: t.line ↔ ¬ crlf <:+: t.method ∧ ¬ crlf <:+: t.path := by
  have hversion : ¬ crlf <:+: htttpVersion := by decide
  rw [RequestTokens.line, crlf_infix_append_cons (by decide) (by decide),
    crlf_infix_append_cons (by decide) (by decide)]
  simp [hversion]

lemma GrammarToken.iff_ne_nil {longest : ℕ} {delimiter : UInt8} {token : Bytes} :
    GrammarToken 1 longest (some delimiter) token ↔
      token ≠ [] ∧ delimiter ∉ token ∧ token.length < longest + 1 ∧ ¬ crlf <:+: token := by
  constructor
  · intro h
    exact ⟨length_pos_iff.mp h.long, h.delimited _ rfl, Nat.lt_succ_of_le h.short, h.line⟩
  · rintro ⟨hne, hnot, hlt, hline⟩
    exact ⟨length_pos_iff.mpr hne, Nat.le_of_lt_succ hlt, by simpa using hnot, hline⟩

lemma HeaderToken.ok_iff_tokens (h : HeaderToken) :
    h.Ok ↔ GrammarToken 1 63 (some 58) h.key ∧ GrammarToken 0 255 none h.value := by
  rw [GrammarToken.iff_ne_nil, HeaderToken.ok_iff, h.line_iff]
  constructor
  · rintro ⟨hne, hcolon, ⟨hkey, hvalue⟩, hkfits, hvfits⟩
    exact ⟨⟨hne, hcolon, hkfits, hkey⟩, Nat.zero_le _, Nat.le_of_lt_succ hvfits, by simp, hvalue⟩
  · rintro ⟨⟨hne, hcolon, hkfits, hkey⟩, hvalue⟩
    exact ⟨hne, hcolon, ⟨hkey, hvalue.line⟩, hkfits, Nat.lt_succ_of_le hvalue.short⟩

lemma RequestTokens.grammatical_iff (t : RequestTokens) :
    t.Grammatical ↔ t.Ok ∧ DeclaresLength t.headers t.body := by
  constructor
  · intro h
    obtain ⟨hm, hmspace, hmfits, hmline⟩ := GrammarToken.iff_ne_nil.mp h.method
    obtain ⟨hp, hpspace, hpfits, hpline⟩ := GrammarToken.iff_ne_nil.mp h.path
    refine ⟨⟨hm, hmspace, hmfits, hp, hpspace, hpfits, t.line_iff.mpr ⟨hmline, hpline⟩,
      h.count, ?_⟩,
      h.length⟩
    exact fun g hg => g.ok_iff_tokens.mpr ⟨h.key g hg, h.value g hg⟩
  · rintro ⟨hok, hlength⟩
    obtain ⟨hmline, hpline⟩ := t.line_iff.mp hok.line
    exact ⟨GrammarToken.iff_ne_nil.mpr ⟨hok.method_ne, hok.method_space, hok.method_fits, hmline⟩,
      GrammarToken.iff_ne_nil.mpr ⟨hok.path_ne, hok.path_space, hok.path_fits, hpline⟩, hok.count,
      fun g hg => (g.ok_iff_tokens.mp (hok.headers g hg)).1,
      fun g hg => (g.ok_iff_tokens.mp (hok.headers g hg)).2, hlength⟩

/-! ## What comes before the body -/

lemma beforeBody_cons (h : ¬ crlf ++ crlf <+: c :: rest) :
    beforeBody (c :: rest) = c :: beforeBody rest := if_neg h

lemma not_crlf_prefix (hline : ¬ crlf <:+: line) (hne : line ≠ [])
    (hrest : rest.head? ≠ some lf) : ¬ crlf <+: line ++ rest := by
  intro hstart
  match line, hne with
  | [c], _ =>
    obtain ⟨tail, htail⟩ := hstart
    obtain ⟨-, rfl⟩ : cr = c ∧ lf :: tail = rest := List.cons.inj htail
    exact hrest rfl
  | c :: d :: line, _ =>
    have hshort : crlf.length ≤ (c :: d :: line).length := by simp [crlf]
    exact hline (prefix_of_prefix_length_le hstart (prefix_append _ _) hshort).isInfix

lemma beforeBody_append (hline : ¬ crlf <:+: line) (rest : Bytes) :
    beforeBody (line ++ (crlf ++ rest)) = line ++ beforeBody (crlf ++ rest) := by
  induction line with
  | nil => rfl
  | cons c line ih =>
    have hfirst : ¬ crlf <+: c :: (line ++ (crlf ++ rest)) :=
      not_crlf_prefix hline (by simp) (by simp [crlf, cr, lf])
    have hcons : ¬ crlf ++ crlf <+: c :: (line ++ (crlf ++ rest)) := fun h =>
      hfirst ((prefix_append _ _).trans h)
    rw [cons_append, beforeBody_cons hcons, ih fun h => hline (infix_cons h), cons_append]

lemma beforeBody_crlf (hrest : ¬ crlf <+: rest) :
    beforeBody (crlf ++ rest) = crlf ++ beforeBody rest := by
  have hcr : ¬ crlf ++ crlf <+: cr :: lf :: rest := fun h =>
    hrest ((prefix_append_right_inj crlf).mp h)
  have hlf : ¬ crlf ++ crlf <+: lf :: rest := by simp [crlf, cr, lf]
  have hcons : crlf ++ rest = cr :: lf :: rest := rfl
  rw [hcons, beforeBody_cons hcr, beforeBody_cons hlf]
  rfl

lemma text_subset_beforeBody (hok : ∀ t ∈ tokens, t.Ok) (body : Bytes) :
    ∀ t ∈ tokens, t.text ⊆ beforeBody (crlf ++ (headerBlock tokens ++ body)) := by
  induction tokens with
  | nil => simp
  | cons t tokens ih =>
    rw [forall_mem_cons] at hok
    have hblock : headerBlock (t :: tokens) ++ body =
        t.text ++ (crlf ++ (headerBlock tokens ++ body)) := by
      simp [headerBlock, lineBlock]
    have hnext : ¬ crlf <+: t.text ++ (crlf ++ (headerBlock tokens ++ body)) :=
      not_crlf_prefix hok.1.line hok.1.blockLine.1 (by simp [crlf, cr, lf])
    rw [hblock, beforeBody_crlf hnext, beforeBody_append hok.1.line, forall_mem_cons]
    refine ⟨?_, fun u hu => ?_⟩
    · exact fun c hc => mem_append_right _ (mem_append_left _ hc)
    · exact fun c hc => mem_append_right _ (mem_append_right _ (ih hok.2 u hu hc))

lemma RequestTokens.Ok.nulFree (hok : t.Ok) (hnul : (0 : UInt8) ∉ beforeBody t.text) :
    ((0 : UInt8) ∉ t.method ∧ (0 : UInt8) ∉ t.path) ∧ ∀ h ∈ t.headers, h.NulFree := by
  rw [RequestTokens.text, beforeBody_append hok.line, mem_append, not_or] at hnul
  obtain ⟨hline, hheaders⟩ := hnul
  refine ⟨?_, fun h hh => ?_⟩
  · simp only [RequestTokens.line, mem_append, mem_cons, not_or] at hline
    exact ⟨hline.1, hline.2.2.1⟩
  · have htext : (0 : UInt8) ∉ h.text := fun h0 =>
      hheaders (text_subset_beforeBody hok.headers t.body h hh h0)
    simp only [HeaderToken.text, mem_append, not_or] at htext
    exact ⟨htext.1, htext.2.2⟩

/-! ## The parser -/

lemma lengthOk_reported_iff {body : Bytes} (hok : ∀ t ∈ tokens, t.Ok)
    (hfree : ∀ t ∈ tokens, t.NulFree) :
    LengthOk (tokens.map HeaderToken.reported) body ↔ DeclaresLength tokens body := by
  have hget : htttpHeaderGet (tokens.map HeaderToken.reported) (ascii "Content-Length") =
      (tokens.find? fun h => ciEq h.key (ascii "Content-Length")).map fun h =>
        h.reported.value := by
    rw [htttpHeaderGet, find?_map, Option.map_map]
    congr 1
    refine find?_congr fun t ht => ?_
    simp only [Function.comp_apply, (hok t ht).reported_key (hfree t ht)]
  rw [LengthOk, DeclaresLength, hget]
  cases hfind : tokens.find? fun h => ciEq h.key (ascii "Content-Length") with
  | none => rfl
  | some t =>
    have ht := mem_of_find?_eq_some hfind
    simp only [Option.map_some, (hok t ht).reported_value (hfree t ht), parseUint_eq_ok_iff]

lemma RequestTokens.Ok.reported_eq (hok : t.Ok)
    (hnul : (0 : UInt8) ∉ beforeBody t.text) : t.Reported t.reported := by
  obtain ⟨⟨hmethod, hpath⟩, hheaders⟩ := hok.nulFree hnul
  refine ⟨CStr.ofBytes_bytes (Nat.le_sub_one_of_lt hok.method_fits) hmethod,
    CStr.ofBytes_bytes (Nat.le_sub_one_of_lt hok.path_fits) hpath, ?_, rfl⟩
  simp only [RequestTokens.reported, map_map]
  refine map_congr_left fun h hh => ?_
  rw [Function.comp_apply, (hok.headers h hh).reported_key (hheaders h hh),
    (hok.headers h hh).reported_value (hheaders h hh)]

lemma RequestTokens.Reported.unique {req req' : HtttpRequest}
    (h : t.Reported req) (h' : t.Reported req') : req = req' := by
  have hinj : Function.Injective fun h : HtttpHeader => (h.key.bytes, h.value.bytes) := by
    intro g g' heq
    obtain ⟨hkey, hvalue⟩ := Prod.mk.inj heq
    rw [HtttpHeader.mk.injEq]
    exact ⟨CStr.ext hkey, CStr.ext hvalue⟩
  obtain ⟨method, path, headers, body⟩ := req
  obtain ⟨method', path', headers', body'⟩ := req'
  rw [HtttpRequest.mk.injEq]
  exact ⟨CStr.ext (h.method.trans h'.method.symm), CStr.ext (h.path.trans h'.path.symm),
    map_injective_iff.mpr hinj (h.headers.trans h'.headers.symm), h.body.trans h'.body.symm⟩

/-- **The request parser accepts exactly the grammar**, and reports the tokens. -/
theorem request_grammar (buf : Bytes) (hnul : (0 : UInt8) ∉ beforeBody buf) :
    ((∃ req, htttpParseRequest buf = .ok req) ↔
      ∃ t : RequestTokens, t.Grammatical ∧ buf = t.text) ∧
    ∀ req, htttpParseRequest buf = .ok req ↔
      ∃ t : RequestTokens, t.Grammatical ∧ buf = t.text ∧ t.Reported req := by
  have hreads (req : HtttpRequest) : htttpParseRequest buf = .ok req ↔
      ∃ t : RequestTokens, t.Grammatical ∧ buf = t.text ∧ t.Reported req := by
    rw [htttpParseRequest_eq_ok_iff]
    constructor
    · rintro ⟨t, hok, rfl, rfl, hlength⟩
      have hdeclares := (lengthOk_reported_iff hok.headers (hok.nulFree hnul).2).mp hlength
      exact ⟨t, t.grammatical_iff.mpr ⟨hok, hdeclares⟩, rfl, hok.reported_eq hnul⟩
    · rintro ⟨t, hgrammar, rfl, hreported⟩
      obtain ⟨hok, hdeclares⟩ := t.grammatical_iff.mp hgrammar
      obtain rfl := hreported.unique (hok.reported_eq hnul)
      exact ⟨t, hok, rfl, rfl,
        (lengthOk_reported_iff hok.headers (hok.nulFree hnul).2).mpr hdeclares⟩
  refine ⟨?_, hreads⟩
  constructor
  · rintro ⟨req, hreq⟩
    obtain ⟨t, hgrammar, htext, -⟩ := (hreads req).mp hreq
    exact ⟨t, hgrammar, htext⟩
  · rintro ⟨t, hgrammar, rfl⟩
    have hok := (t.grammatical_iff.mp hgrammar).1
    exact ⟨t.reported, (hreads _).mpr ⟨t, hgrammar, rfl, hok.reported_eq hnul⟩⟩

def greeting : RequestTokens where
  method := ascii "GET"
  path := ascii "/x"
  headers := [⟨ascii "CONTENT-LENGTH", ascii "002"⟩]
  body := ascii "hi"

theorem greeting_parsed :
    ∃ req, htttpParseRequest greeting.text = .ok req ∧ greeting.Reported req := by
  have hok : greeting.Ok := by decide +kernel
  have hlength : DeclaresLength greeting.headers greeting.body := by
    have hfind : greeting.headers.find? (fun h => ciEq h.key (ascii "Content-Length")) =
        some ⟨ascii "CONTENT-LENGTH", ascii "002"⟩ := find?_cons_of_pos (by decide +kernel)
    rw [DeclaresLength, hfind]
    decide +kernel
  have hnul : (0 : UInt8) ∉ beforeBody greeting.text := by decide +kernel
  have hgrammar := greeting.grammatical_iff.mpr ⟨hok, hlength⟩
  exact ⟨_, ((request_grammar _ hnul).2 _).mpr ⟨_, hgrammar, rfl, hok.reported_eq hnul⟩,
    hok.reported_eq hnul⟩

end BallotBox
