import BallotBox.Properties.Support.RequestFrames

/-!
# The tokens of a message

A line is what stands before the first line end, a request line is three tokens between two spaces,
a header line a key and a value around `: `.  Each function of the parser accepts exactly the texts
of that form, and the text determines the tokens (`lineBlock_inj`).
-/

namespace BallotBox

open List Option

/-! ## Lines -/

lemma findCrlf_eq_some_iff {buf line rest : Bytes} :
    findCrlf buf = some (line, rest) ↔ buf = line ++ (crlf ++ rest) ∧ ¬ crlf <:+: line := by
  induction buf generalizing line with
  | nil => simp [findCrlf, crlf]
  | cons c buf ih =>
    by_cases hend : c = cr ∧ buf.head? = some lf
    · obtain ⟨rfl, hhead⟩ := hend
      obtain ⟨after, rfl⟩ : ∃ after, buf = lf :: after := head?_eq_some_iff.mp hhead
      rw [findCrlf, if_pos ⟨rfl, rfl⟩]
      constructor
      · intro h
        obtain ⟨rfl, rfl⟩ := Prod.mk.inj (some.inj h)
        exact ⟨rfl, by simp [crlf]⟩
      · rintro ⟨hbuf, hfirst⟩
        cases line with
        | nil => simpa [crlf] using hbuf
        | cons d line =>
          -- the line would have the line end in it
          obtain ⟨rfl, htail⟩ := List.cons.inj hbuf
          refine absurd ?_ hfirst
          cases line with
          | nil => exact absurd (List.cons.inj htail).1 (by decide)
          | cons e line =>
            obtain ⟨rfl, -⟩ := List.cons.inj htail
            exact ⟨[], line, rfl⟩
    · rw [findCrlf, if_neg hend, map_eq_some_iff]
      constructor
      · rintro ⟨⟨line', rest'⟩, hfind, heq⟩
        obtain ⟨rfl, rfl⟩ := Prod.mk.inj heq
        obtain ⟨rfl, hfirst⟩ := ih.mp hfind
        refine ⟨rfl, fun hline => ?_⟩
        rcases infix_cons_iff.mp hline with ⟨after, hhere⟩ | hline
        · obtain ⟨rfl, htail⟩ := List.cons.inj hhere
          refine hend ⟨rfl, ?_⟩
          rw [← htail]
          rfl
        · exact hfirst hline
      · rintro ⟨hbuf, hfirst⟩
        cases line with
        | nil =>
          obtain ⟨rfl, rfl⟩ := List.cons.inj hbuf
          exact absurd ⟨rfl, rfl⟩ hend
        | cons d line =>
          obtain ⟨rfl, hrest⟩ := List.cons.inj hbuf
          refine ⟨(line, rest), ih.mpr ⟨hrest, fun hline => hfirst ?_⟩, rfl⟩
          exact infix_cons hline

lemma findCrlf_first {line : Bytes} (h : ¬ crlf <:+: line) (rest : Bytes) :
    findCrlf (line ++ (crlf ++ rest)) = some (line, rest) :=
  findCrlf_eq_some_iff.mpr ⟨rfl, h⟩

lemma no_crlf_of_no_cr {line : Bytes} (h : cr ∉ line) : ¬ crlf <:+: line := by
  intro hline
  exact h (hline.subset (by simp [crlf]))

def lineBlock (lines : List Bytes) : Bytes := lines.flatMap (· ++ crlf) ++ crlf

def BlockLine (line : Bytes) : Prop := line ≠ [] ∧ ¬ crlf <:+: line

lemma findCrlf_lineBlock_nil (rest : Bytes) : findCrlf (lineBlock [] ++ rest) = some ([], rest) :=
  findCrlf_eq_some_iff.mpr ⟨rfl, by simp [crlf]⟩

lemma findCrlf_lineBlock_cons {line : Bytes} (h : BlockLine line) (lines : List Bytes)
    (rest : Bytes) :
    findCrlf (lineBlock (line :: lines) ++ rest) = some (line, lineBlock lines ++ rest) :=
  findCrlf_eq_some_iff.mpr ⟨by simp [lineBlock], h.2⟩

lemma lineBlock_inj {lines lines' : List Bytes} {rest rest' : Bytes}
    (h : ∀ line ∈ lines, BlockLine line) (h' : ∀ line ∈ lines', BlockLine line)
    (heq : lineBlock lines ++ rest = lineBlock lines' ++ rest') : lines = lines' ∧
      rest = rest' := by
  induction lines generalizing lines' with
  | nil =>
    have hfind := findCrlf_lineBlock_nil rest
    rw [heq] at hfind
    cases lines' with
    | nil =>
      rw [findCrlf_lineBlock_nil] at hfind
      exact ⟨rfl, (Prod.mk.inj (some.inj hfind)).2.symm⟩
    | cons line' lines' =>
      rw [findCrlf_lineBlock_cons (h' _ mem_cons_self)] at hfind
      exact absurd (Prod.mk.inj (some.inj hfind)).1 (h' _ mem_cons_self).1
  | cons line lines ih =>
    have hfind := findCrlf_lineBlock_cons (h _ mem_cons_self) lines rest
    rw [heq] at hfind
    cases lines' with
    | nil =>
      rw [findCrlf_lineBlock_nil] at hfind
      exact absurd (Prod.mk.inj (some.inj hfind)).1.symm (h _ mem_cons_self).1
    | cons line' lines' =>
      rw [findCrlf_lineBlock_cons (h' _ mem_cons_self)] at hfind
      obtain ⟨rfl, hrest⟩ := Prod.mk.inj (some.inj hfind)
      obtain ⟨rfl, rfl⟩ := ih (fun l hl => h l (mem_cons_of_mem _ hl))
        (fun l hl => h' l (mem_cons_of_mem _ hl)) hrest.symm
      exact ⟨rfl, rfl⟩

/-! ## Tokens -/

lemma takeWhile_split {line token rest : Bytes} {c : UInt8}
    (hdrop : line.drop (line.takeWhile (· ≠ c)).length = rest)
    (htoken : line.takeWhile (· ≠ c) = token) : line = token ++ rest ∧ c ∉ token := by
  constructor
  · rw [← hdrop, ← htoken]
    exact (prefix_iff_eq_append.mp (List.takeWhile_prefix _)).symm
  · intro hc
    rw [← htoken] at hc
    simpa using mem_takeWhile_imp hc

lemma splitSpace_eq_ok_iff {line token rest : Bytes} : splitSpace line = .ok (token, rest) ↔
    line = token ++ 32 :: rest ∧ token ≠ [] ∧ (32 : UInt8) ∉ token := by
  constructor
  · intro h
    unfold splitSpace at h
    dsimp only at h
    split at h
    · rename_i rest' hdrop
      split_ifs at h with hne
      obtain ⟨rfl, rfl⟩ := Prod.mk.inj (Except.ok.inj h)
      obtain ⟨hline, hnot⟩ := takeWhile_split hdrop rfl
      exact ⟨hline, hne, hnot⟩
    · cases h
  · rintro ⟨rfl, hne, hnot⟩
    exact splitSpace_token hne hnot

lemma splitHeader_eq_ok_iff {line key value : Bytes} : splitHeader line = .ok (key, value) ↔
    line = key ++ (ascii ": " ++ value) ∧ key ≠ [] ∧ (58 : UInt8) ∉ key := by
  constructor
  · intro h
    unfold splitHeader at h
    dsimp only at h
    split at h
    · rename_i value' hdrop
      split_ifs at h with hne
      obtain ⟨rfl, rfl⟩ := Prod.mk.inj (Except.ok.inj h)
      obtain ⟨hline, hnot⟩ := takeWhile_split hdrop rfl
      exact ⟨hline, hne, hnot⟩
    · cases h
  · rintro ⟨rfl, hne, hnot⟩
    exact splitHeader_line hne hnot

lemma copyToken_eq_ok_iff {cap : ℕ} {src : Bytes} {s : CStr cap} :
    copyToken cap src = .ok s ↔ src.length < cap ∧ s = .ofBytes src := by
  unfold copyToken
  split_ifs with hcap
  · constructor
    · intro h
      cases h
    · intro h
      omega
  · constructor
    · intro h
      exact ⟨by omega, (Except.ok.inj h).symm⟩
    · rintro ⟨-, rfl⟩
      rfl

/-- A header line on the wire. -/
structure HeaderToken where
  key : Bytes
  value : Bytes

namespace HeaderToken

def text (h : HeaderToken) : Bytes := h.key ++ (ascii ": " ++ h.value)

/-- The key ends at the first colon, the line at the first line end, and both parts fit their
fields. -/
@[mk_iff]
structure Ok (h : HeaderToken) : Prop where
  key_ne : h.key ≠ []
  colon : (58 : UInt8) ∉ h.key
  line : ¬ crlf <:+: h.text
  key_fits : h.key.length < htttpMaxKey
  value_fits : h.value.length < htttpMaxValue

instance (h : HeaderToken) : Decidable h.Ok := decidable_of_iff _ (ok_iff h).symm

def reported (h : HeaderToken) : HtttpHeader := ⟨.ofBytes h.key, .ofBytes h.value⟩

lemma Ok.blockLine {h : HeaderToken} (hok : h.Ok) : BlockLine h.text := by
  refine ⟨?_, hok.line⟩
  intro hnil
  exact hok.key_ne (append_eq_nil_iff.mp hnil).1

lemma Ok.splitHeader_text {h : HeaderToken} (hok : h.Ok) :
    splitHeader h.text = .ok (h.key, h.value) :=
  splitHeader_line hok.key_ne hok.colon

lemma Ok.eq_of_text {h h' : HeaderToken} (hok : h.Ok) (hok' : h'.Ok) (heq : h.text = h'.text) :
    h = h' := by
  have hsplit := hok.splitHeader_text
  rw [heq, hok'.splitHeader_text] at hsplit
  obtain ⟨hkey, hvalue⟩ := Prod.mk.inj (Except.ok.inj hsplit)
  cases h
  cases h'
  simp_all

end HeaderToken

def headerBlock (tokens : List HeaderToken) : Bytes := lineBlock (tokens.map HeaderToken.text)

lemma headerBlock_inj {tokens tokens' : List HeaderToken} {rest rest' : Bytes}
    (h : ∀ t ∈ tokens, t.Ok) (h' : ∀ t ∈ tokens', t.Ok)
    (heq : headerBlock tokens ++ rest = headerBlock tokens' ++ rest') :
    tokens = tokens' ∧ rest = rest' := by
  have hlines (ts : List HeaderToken) (hts : ∀ t ∈ ts, t.Ok) :
      ∀ line ∈ ts.map HeaderToken.text, BlockLine line := by
    rw [List.forall_mem_map]
    exact fun t ht => (hts t ht).blockLine
  obtain ⟨htexts, hrest⟩ := lineBlock_inj (hlines tokens h) (hlines tokens' h') heq
  refine ⟨?_, hrest⟩
  clear heq
  induction tokens generalizing tokens' with
  | nil => simpa using htexts.symm
  | cons t tokens ih =>
    cases tokens' with
    | nil => simp at htexts
    | cons t' tokens' =>
      obtain ⟨htext, htexts⟩ := List.cons.inj htexts
      rw [(h t mem_cons_self).eq_of_text (h' t' mem_cons_self) htext,
        ih (fun u hu => h u (mem_cons_of_mem _ hu))
          (fun u hu => h' u (mem_cons_of_mem _ hu)) htexts]

/-! ## The header block -/

lemma parseHeaders_line {slots : ℕ} {buf line rest : Bytes} (hne : line ≠ [])
    (hfind : findCrlf buf = some (line, rest)) {headers : List HtttpHeader} {body : Bytes} :
    parseHeaders slots buf = .ok (headers, body) ↔ ∃ n, ∃ token : HeaderToken, slots = n + 1 ∧
      token.text = line ∧ token.Ok ∧ ∃ headers', headers = token.reported :: headers' ∧
        parseHeaders n rest = .ok (headers', body) := by
  obtain ⟨c, cs, rfl⟩ := exists_cons_of_ne_nil hne
  have hline := (findCrlf_eq_some_iff.mp hfind).2
  constructor
  · intro h
    unfold parseHeaders at h
    rw [hfind] at h
    dsimp only at h
    obtain ⟨⟨key, value⟩, hsplit, h⟩ := bind_eq_ok.mp h
    dsimp only at h
    obtain ⟨htext, hkey, hcolon⟩ := splitHeader_eq_ok_iff.mp hsplit
    cases slots with
    | zero => cases h
    | succ n =>
      dsimp only at h
      obtain ⟨k, hk, h⟩ := bind_eq_ok.mp h
      obtain ⟨v, hv, h⟩ := bind_eq_ok.mp h
      obtain ⟨⟨headers', body'⟩, hrest, h⟩ := bind_eq_ok.mp h
      obtain ⟨rfl, rfl⟩ := Prod.mk.inj (Except.ok.inj h)
      obtain ⟨hkfits, rfl⟩ := copyToken_eq_ok_iff.mp hk
      obtain ⟨hvfits, rfl⟩ := copyToken_eq_ok_iff.mp hv
      refine ⟨n, ⟨key, value⟩, rfl, htext.symm, ⟨hkey, hcolon, ?_, hkfits, hvfits⟩, headers', rfl,
        hrest⟩
      rw [HeaderToken.text, ← htext]
      exact hline
  · rintro ⟨n, token, rfl, htext, hok, headers', rfl, hrest⟩
    unfold parseHeaders
    rw [hfind]
    dsimp only
    rw [← htext, hok.splitHeader_text, ok_bind]
    dsimp only
    rw [copyToken_eq_ok_iff.mpr ⟨hok.key_fits, rfl⟩, ok_bind,
      copyToken_eq_ok_iff.mpr ⟨hok.value_fits, rfl⟩, ok_bind, hrest, ok_bind]
    rfl

lemma parseHeaders_eq_ok_iff {slots : ℕ} {buf rest : Bytes} {headers : List HtttpHeader} :
    parseHeaders slots buf = .ok (headers, rest) ↔ ∃ tokens : List HeaderToken,
      tokens.length ≤ slots ∧ (∀ t ∈ tokens, t.Ok) ∧ buf = headerBlock tokens ++ rest ∧
        headers = tokens.map HeaderToken.reported := by
  constructor
  · intro h
    induction slots using Nat.strong_induction_on generalizing buf headers with
    | _ slots ih =>
      cases hfind : findCrlf buf with
      | none =>
        unfold parseHeaders at h
        rw [hfind] at h
        cases h
      | some found =>
        obtain ⟨line, after⟩ := found
        by_cases hne : line = []
        · subst hne
          unfold parseHeaders at h
          rw [hfind] at h
          obtain ⟨rfl, rfl⟩ := Prod.mk.inj (Except.ok.inj h)
          exact ⟨[], Nat.zero_le _, by simp, (findCrlf_eq_some_iff.mp hfind).1, rfl⟩
        · obtain ⟨n, t, rfl, htext, hok, headers', rfl, hrest⟩ := (parseHeaders_line hne hfind).mp h
          obtain ⟨tokens, hlength, hoks, rfl, rfl⟩ := ih n (Nat.lt_succ_self n) hrest
          refine ⟨t :: tokens, Nat.succ_le_succ hlength, forall_mem_cons.mpr ⟨hok, hoks⟩, ?_, rfl⟩
          rw [(findCrlf_eq_some_iff.mp hfind).1, ← htext]
          simp [headerBlock, lineBlock]
  · rintro ⟨tokens, hslots, hok, rfl, rfl⟩
    induction tokens generalizing slots with
    | nil =>
      unfold parseHeaders
      rw [headerBlock, map_nil, findCrlf_lineBlock_nil]
      rfl
    | cons t tokens ih =>
      obtain ⟨ht, htokens⟩ := forall_mem_cons.mp hok
      cases slots with
      | zero => simp at hslots
      | succ n =>
        have hfind := findCrlf_lineBlock_cons ht.blockLine (tokens.map HeaderToken.text) rest
        refine (parseHeaders_line ht.blockLine.1 hfind).mpr ⟨n, t, rfl, rfl, ht, _, rfl, ?_⟩
        exact ih (Nat.le_of_succ_le_succ hslots) htokens

def LengthOk (headers : List HtttpHeader) (body : Bytes) : Prop :=
  match htttpHeaderGet headers (ascii "Content-Length") with
  | none => body = []
  | some cl => parseUint cl.bytes = .ok body.length

lemma parseTail_eq_ok_iff {buf body : Bytes} {headers : List HtttpHeader} :
    parseTail buf = .ok (headers, body) ↔ ∃ tokens : List HeaderToken,
      tokens.length ≤ htttpMaxHeaders ∧ (∀ t ∈ tokens, t.Ok) ∧ buf = headerBlock tokens ++ body ∧
        headers = tokens.map HeaderToken.reported ∧ LengthOk headers body := by
  unfold parseTail
  rw [bind_eq_ok]
  constructor
  · rintro ⟨⟨headers', rest⟩, hparse, hrest⟩
    obtain ⟨tokens, hcount, hok, hbuf, hheaders⟩ := parseHeaders_eq_ok_iff.mp hparse
    dsimp only at hrest
    have hlength : headers' = headers ∧ rest = body ∧ LengthOk headers body := by
      cases hget : htttpHeaderGet headers' (ascii "Content-Length") with
      | none =>
        simp only [hget] at hrest
        split_ifs at hrest with hne
        obtain ⟨rfl, rfl⟩ := Prod.mk.inj (Except.ok.inj hrest)
        exact ⟨rfl, not_not.mp hne, by simp [LengthOk, hget]⟩
      | some cl =>
        simp only [hget] at hrest
        cases hdeclared : parseUint cl.bytes with
        | error e =>
          rw [hdeclared] at hrest
          cases hrest
        | ok declared =>
          rw [hdeclared] at hrest
          dsimp only at hrest
          split_ifs at hrest with hne
          obtain ⟨rfl, rfl⟩ := Prod.mk.inj (Except.ok.inj hrest)
          exact ⟨rfl, rfl, by simpa [LengthOk, hget, hdeclared] using hne⟩
    obtain ⟨rfl, rfl, hlength⟩ := hlength
    exact ⟨tokens, hcount, hok, hbuf, hheaders, hlength⟩
  · rintro ⟨tokens, hcount, hok, hbuf, hheaders, hlength⟩
    refine ⟨(headers, body), parseHeaders_eq_ok_iff.mpr ⟨tokens, hcount, hok, hbuf, hheaders⟩, ?_⟩
    unfold LengthOk at hlength
    dsimp only
    cases hget : htttpHeaderGet headers (ascii "Content-Length") with
    | none =>
      rw [hget] at hlength
      subst hlength
      rfl
    | some cl =>
      rw [hget] at hlength
      simp [hlength, pure, Except.pure]

/-! ## Requests and responses -/

/-- A request on the wire. -/
structure RequestTokens where
  method : Bytes
  path : Bytes
  headers : List HeaderToken
  body : Bytes

namespace RequestTokens

def line (t : RequestTokens) : Bytes := t.method ++ 32 :: (t.path ++ 32 :: htttpVersion)

def text (t : RequestTokens) : Bytes := t.line ++ (crlf ++ (headerBlock t.headers ++ t.body))

/-- Every token ends where the first byte of its delimiter is, and fits. -/
@[mk_iff]
structure Ok (t : RequestTokens) : Prop where
  method_ne : t.method ≠ []
  method_space : (32 : UInt8) ∉ t.method
  method_fits : t.method.length < htttpMaxMethod
  path_ne : t.path ≠ []
  path_space : (32 : UInt8) ∉ t.path
  path_fits : t.path.length < htttpMaxPath
  line : ¬ crlf <:+: t.line
  count : t.headers.length ≤ htttpMaxHeaders
  headers : ∀ h ∈ t.headers, h.Ok

instance (t : RequestTokens) : Decidable t.Ok := decidable_of_iff _ (ok_iff t).symm

def reported (t : RequestTokens) : HtttpRequest :=
  ⟨.ofBytes t.method, .ofBytes t.path, t.headers.map HeaderToken.reported, t.body⟩

lemma Ok.findCrlf_text {t : RequestTokens} (h : t.Ok) :
    findCrlf t.text = some (t.line, headerBlock t.headers ++ t.body) := findCrlf_first h.line _

end RequestTokens

/-- **Requests.**  Exactly the texts of this form are accepted. -/
theorem htttpParseRequest_eq_ok_iff {buf : Bytes} {req : HtttpRequest} :
    htttpParseRequest buf = .ok req ↔ ∃ t : RequestTokens, t.Ok ∧ buf = t.text ∧
      req = t.reported ∧ LengthOk req.headers req.body := by
  unfold htttpParseRequest
  constructor
  · intro h
    split at h
    · cases h
    · rename_i line rest hfind
      obtain ⟨rfl, hline⟩ := findCrlf_eq_some_iff.mp hfind
      obtain ⟨⟨method, line'⟩, hsplit, h₁⟩ := bind_eq_ok.mp h
      dsimp only at h₁
      obtain ⟨m, hm, h₂⟩ := bind_eq_ok.mp h₁
      obtain ⟨⟨path, version⟩, hsplit', h₃⟩ := bind_eq_ok.mp h₂
      dsimp only at h₃
      obtain ⟨p, hp, h₄⟩ := bind_eq_ok.mp h₃
      obtain ⟨hversion, h₅⟩ := ite_throw_eq_ok.mp h₄
      obtain ⟨⟨headers, body⟩, htail, h₆⟩ := bind_eq_ok.mp h₅
      obtain rfl := Except.ok.inj h₆
      obtain ⟨rfl, hmethod⟩ := splitSpace_eq_ok_iff.mp hsplit
      obtain ⟨rfl, hpath⟩ := splitSpace_eq_ok_iff.mp hsplit'
      obtain ⟨mfits, rfl⟩ := copyToken_eq_ok_iff.mp hm
      obtain ⟨pfits, rfl⟩ := copyToken_eq_ok_iff.mp hp
      obtain ⟨tokens, hcount, hok, rfl, rfl, hlength⟩ := parseTail_eq_ok_iff.mp htail
      obtain rfl := not_not.mp hversion
      exact ⟨⟨method, path, tokens, body⟩, ⟨hmethod.1, hmethod.2, mfits, hpath.1, hpath.2, pfits,
        hline, hcount, hok⟩, rfl, rfl, hlength⟩
  · rintro ⟨t, hok, rfl, rfl, hlength⟩
    have hmethod : splitSpace t.line = .ok (t.method, t.path ++ 32 :: htttpVersion) :=
      splitSpace_token hok.method_ne hok.method_space
    have htail : parseTail (headerBlock t.headers ++ t.body) =
        .ok (t.headers.map HeaderToken.reported, t.body) :=
      parseTail_eq_ok_iff.mpr ⟨t.headers, hok.count, hok.headers, rfl, rfl, hlength⟩
    rw [hok.findCrlf_text]
    dsimp only
    rw [hmethod, ok_bind]
    dsimp only
    rw [copyToken_eq_ok_iff.mpr ⟨hok.method_fits, rfl⟩, ok_bind,
      splitSpace_token hok.path_ne hok.path_space, ok_bind]
    dsimp only
    rw [copyToken_eq_ok_iff.mpr ⟨hok.path_fits, rfl⟩, ok_bind, if_neg (by simp)]
    rw [htail]
    rfl

/-- A response on the wire. -/
structure ResponseTokens where
  digits : Bytes
  reason : Bytes
  headers : List HeaderToken
  body : Bytes

namespace ResponseTokens

def line (t : ResponseTokens) : Bytes := htttpVersion ++ 32 :: (t.digits ++ 32 :: t.reason)

def text (t : ResponseTokens) : Bytes := t.line ++ (crlf ++ (headerBlock t.headers ++ t.body))

structure Ok (t : ResponseTokens) : Prop where
  digits_ne : t.digits ≠ []
  digits_space : (32 : UInt8) ∉ t.digits
  line : ¬ crlf <:+: t.line
  count : t.headers.length ≤ htttpMaxHeaders
  headers : ∀ h ∈ t.headers, h.Ok

def reported (t : ResponseTokens) (status : ℕ) : HtttpResponse :=
  ⟨status, t.headers.map HeaderToken.reported, t.body⟩

lemma Ok.findCrlf_text {t : ResponseTokens} (h : t.Ok) :
    findCrlf t.text = some (t.line, headerBlock t.headers ++ t.body) := findCrlf_first h.line _

end ResponseTokens

/-- **Responses.** -/
theorem htttpParseResponse_eq_ok_iff {buf : Bytes} {res : HtttpResponse} :
    htttpParseResponse buf = .ok res ↔ ∃ t : ResponseTokens, t.Ok ∧ buf = t.text ∧
      parseUint t.digits = .ok res.status ∧ 100 ≤ res.status ∧ res.status ≤ 599 ∧
      res = t.reported res.status ∧ LengthOk res.headers res.body := by
  unfold htttpParseResponse
  constructor
  · intro h
    split at h
    · cases h
    · rename_i line rest hfind
      obtain ⟨rfl, hline⟩ := findCrlf_eq_some_iff.mp hfind
      obtain ⟨hversion, h₁⟩ := ite_throw_eq_ok.mp h
      rw [not_or, not_not, not_not] at hversion
      obtain ⟨after, hafter⟩ := head?_eq_some_iff.mp hversion.2
      obtain rfl : line = htttpVersion ++ 32 :: after := by
        rw [← take_append_drop htttpVersion.length line, hversion.1, hafter]
      have hdrop : (htttpVersion ++ 32 :: after).drop (htttpVersion.length + 1) = after := by
        rw [drop_append, drop_eq_nil_of_le (by simp)]
        simp
      rw [hdrop] at h₁
      obtain ⟨⟨digits, reason⟩, hsplit, h₂⟩ := bind_eq_ok.mp h₁
      dsimp only at h₂
      obtain ⟨rfl, hdigits⟩ := splitSpace_eq_ok_iff.mp hsplit
      cases hstatus : parseUint digits with
      | error e =>
        rw [hstatus] at h₂
        cases h₂
      | ok status =>
        rw [hstatus] at h₂
        obtain ⟨hrange, h₃⟩ := ite_throw_eq_ok.mp h₂
        obtain ⟨⟨headers, body⟩, htail, h₄⟩ := bind_eq_ok.mp h₃
        obtain rfl := Except.ok.inj h₄
        obtain ⟨tokens, hcount, hok, rfl, rfl, hlength⟩ := parseTail_eq_ok_iff.mp htail
        rw [not_or, not_lt, not_lt] at hrange
        exact ⟨⟨digits, reason, tokens, body⟩, ⟨hdigits.1, hdigits.2, hline, hcount, hok⟩, rfl,
          hstatus, hrange.1, hrange.2, rfl, hlength⟩
  · rintro ⟨t, hok, rfl, hstatus, hlow, hhigh, hres, hlength⟩
    have htake : t.line.take htttpVersion.length = htttpVersion := take_left
    have hhead : (t.line.drop htttpVersion.length).head? = some 32 := by
      rw [ResponseTokens.line, drop_left]
      rfl
    have hdrop : t.line.drop (htttpVersion.length + 1) = t.digits ++ 32 :: t.reason := by
      rw [ResponseTokens.line, drop_append, drop_eq_nil_of_le (by simp)]
      simp
    rw [hok.findCrlf_text]
    dsimp only
    rw [if_neg (by simp [htake, hhead]), hdrop,
      splitSpace_token hok.digits_ne hok.digits_space, ok_bind]
    dsimp only
    rw [hstatus]
    dsimp only
    rw [if_neg (by omega)]
    rw [hres] at hlength
    have htail : parseTail (headerBlock t.headers ++ t.body) =
        .ok (t.headers.map HeaderToken.reported, t.body) :=
      parseTail_eq_ok_iff.mpr ⟨t.headers, hok.count, hok.headers, rfl, rfl, hlength⟩
    rw [htail, ok_bind, hres]
    rfl

end BallotBox
