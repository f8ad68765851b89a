import BallotBox.Properties.Support.WireTokens

/-!
# What the parser reports is what was on the wire

A token is reported as a C string, which ends at the first NUL byte.  So one without NUL bytes is
reported as it is, and one with a NUL byte is cut there (`reported_as_on_wire`); a frame can so have
a header that none of its lines is named.
-/

namespace BallotBox

open CStr List

variable {h : HeaderToken} {tokens : List HeaderToken} {t t' : RequestTokens} {buf : Bytes}

/-! ## One token -/

lemma length_reported_iff {cap : ℕ} {token : Bytes} (h : token.length < cap) :
    (ofBytes token : CStr cap).bytes.length = token.length ↔ (0 : UInt8) ∉ token := by
  have htake : token.take (cap - 1) = token := take_of_length_le (by omega)
  have hbytes : (ofBytes token : CStr cap).bytes = cstr token := by
    simp only [ofBytes, htake]
  rw [hbytes]
  constructor
  · intro hlength
    rw [← (cstr_sublist token).eq_of_length hlength]
    exact zero_notMem_cstr token
  · intro hnul
    rw [cstr_eq_self hnul]

def HeaderToken.NulFree (h : HeaderToken) : Prop := (0 : UInt8) ∉ h.key ∧ (0 : UInt8) ∉ h.value
deriving Decidable

lemma HeaderToken.Ok.reported_key (hok : h.Ok) (hfree : h.NulFree) : h.reported.key.bytes = h.key :=
  ofBytes_bytes (Nat.le_sub_one_of_lt hok.key_fits) hfree.1

lemma HeaderToken.Ok.reported_value (hok : h.Ok) (hfree : h.NulFree) :
    h.reported.value.bytes = h.value :=
  ofBytes_bytes (Nat.le_sub_one_of_lt hok.value_fits) hfree.2

/-- The reported headers have the lengths of the tokens, and one is found exactly if a line has the
whole name. -/
structure HeadersFaithful (tokens : List HeaderToken) (headers : List HtttpHeader) : Prop where
  lengths : List.Forall₂ (fun token h => h.key.bytes.length = token.key.length ∧
    h.value.bytes.length = token.value.length) tokens headers
  found : ∀ name, (htttpHeaderGet headers name).isSome = true ↔
    ∃ token ∈ tokens, ciEq token.key name = true

lemma headerGet_isSome (headers : List HtttpHeader) (name : Bytes) :
    (htttpHeaderGet headers name).isSome = true ↔ ∃ h ∈ headers, ciEq h.key.bytes name = true := by
  simp [htttpHeaderGet]

lemma headersFaithful_iff (hok : ∀ t ∈ tokens, t.Ok) :
    HeadersFaithful tokens (tokens.map HeaderToken.reported) ↔ ∀ t ∈ tokens, t.NulFree := by
  constructor
  · intro h t ht
    have hlengths := forall₂_map_right_iff.mp h.lengths
    have hone := (forall₂_same.mp hlengths) t ht
    exact ⟨(length_reported_iff (hok t ht).key_fits).mp hone.1,
      (length_reported_iff (hok t ht).value_fits).mp hone.2⟩
  · intro hfree
    refine ⟨forall₂_map_right_iff.mpr (forall₂_same.mpr fun t ht => ?_), fun name => ?_⟩
    · exact ⟨(length_reported_iff (hok t ht).key_fits).mpr (hfree t ht).1,
        (length_reported_iff (hok t ht).value_fits).mpr (hfree t ht).2⟩
    · rw [headerGet_isSome]
      constructor
      · rintro ⟨h, hh, hname⟩
        obtain ⟨t, ht, rfl⟩ := mem_map.mp hh
        rw [(hok t ht).reported_key (hfree t ht)] at hname
        exact ⟨t, ht, hname⟩
      · rintro ⟨t, ht, hname⟩
        refine ⟨t.reported, mem_map_of_mem ht, ?_⟩
        rw [(hok t ht).reported_key (hfree t ht)]
        exact hname

lemma headers_eq_of_reported {tokens' : List HeaderToken} (hok : ∀ t ∈ tokens, t.Ok)
    (hok' : ∀ t ∈ tokens', t.Ok) (hfree : ∀ t ∈ tokens, t.NulFree)
    (hfree' : ∀ t ∈ tokens', t.NulFree)
    (heq : tokens.map HeaderToken.reported = tokens'.map HeaderToken.reported) :
    tokens = tokens' := by
  induction tokens generalizing tokens' with
  | nil => simpa using heq.symm
  | cons t tokens ih =>
    cases tokens' with
    | nil => simp at heq
    | cons t' tokens' =>
      rw [forall_mem_cons] at hok hok' hfree hfree'
      obtain ⟨hone, hrest⟩ := List.cons.inj heq
      have hkey : t.key = t'.key := by
        rw [← hok.1.reported_key hfree.1, ← hok'.1.reported_key hfree'.1, hone]
      have hvalue : t.value = t'.value := by
        rw [← hok.1.reported_value hfree.1, ← hok'.1.reported_value hfree'.1, hone]
      have ht : t = t' := by
        cases t
        cases t'
        simp_all
      rw [ht, ih hok.2 hok'.2 hfree.2 hfree'.2 hrest]

/-! ## Messages -/

lemma RequestTokens.Ok.eq_of_text (hok : t.Ok) (hok' : t'.Ok)
    (heq : t.text = t'.text) : t = t' := by
  have hfind := hok.findCrlf_text
  rw [heq, hok'.findCrlf_text] at hfind
  obtain ⟨hline, hrest⟩ := Prod.mk.inj (Option.some.inj hfind)
  obtain ⟨hheaders, hbody⟩ := headerBlock_inj hok'.headers hok.headers hrest
  have hmethod : splitSpace t.line = .ok (t.method, t.path ++ 32 :: htttpVersion) :=
    splitSpace_token hok.method_ne hok.method_space
  have hmethod' : splitSpace t'.line = .ok (t'.method, t'.path ++ 32 :: htttpVersion) :=
    splitSpace_token hok'.method_ne hok'.method_space
  rw [← hline, hmethod'] at hmethod
  obtain ⟨hm, hp⟩ := Prod.mk.inj (Except.ok.inj hmethod)
  have hpath : t'.path = t.path := append_cancel_right hp
  cases t
  cases t'
  simp_all

lemma ResponseTokens.Ok.eq_of_text {t t' : ResponseTokens} (hok : t.Ok) (hok' : t'.Ok)
    (heq : t.text = t'.text) : t = t' := by
  have hfind := hok.findCrlf_text
  rw [heq, hok'.findCrlf_text] at hfind
  obtain ⟨hline, hrest⟩ := Prod.mk.inj (Option.some.inj hfind)
  obtain ⟨hheaders, hbody⟩ := headerBlock_inj hok'.headers hok.headers hrest
  have hstatus : splitSpace (t.digits ++ 32 :: t.reason) = .ok (t.digits, t.reason) :=
    splitSpace_token hok.digits_ne hok.digits_space
  have hsame : t'.digits ++ 32 :: t'.reason = t.digits ++ 32 :: t.reason :=
    (List.cons.inj (append_cancel_left hline)).2
  rw [← hsame, splitSpace_token hok'.digits_ne hok'.digits_space] at hstatus
  obtain ⟨hd, hr⟩ := Prod.mk.inj (Except.ok.inj hstatus)
  cases t
  cases t'
  simp_all

def RequestTokens.OnWire (t : RequestTokens) (buf : Bytes) : Prop := t.Ok ∧ buf = t.text

def ResponseTokens.OnWire (t : ResponseTokens) (buf : Bytes) : Prop := t.Ok ∧ buf = t.text

/-- Every string of a request has the length of its token, and headers are found by their whole
names. -/
structure RequestTokens.Faithful (t : RequestTokens) (req : HtttpRequest) : Prop where
  method : req.method.bytes.length = t.method.length
  path : req.path.bytes.length = t.path.length
  headers : HeadersFaithful t.headers req.headers

/-- No NUL byte in a token. -/
@[mk_iff]
structure RequestTokens.NulFree (t : RequestTokens) : Prop where
  method : (0 : UInt8) ∉ t.method
  path : (0 : UInt8) ∉ t.path
  headers : ∀ h ∈ t.headers, h.NulFree

instance (t : RequestTokens) : Decidable t.NulFree := decidable_of_iff _ (t.nulFree_iff).symm

lemma RequestTokens.Ok.faithful_iff (hok : t.Ok) : t.Faithful t.reported ↔ t.NulFree := by
  constructor
  · intro h
    exact ⟨(length_reported_iff hok.method_fits).mp h.method,
      (length_reported_iff hok.path_fits).mp h.path, (headersFaithful_iff hok.headers).mp h.headers⟩
  · intro h
    exact ⟨(length_reported_iff hok.method_fits).mpr h.method,
      (length_reported_iff hok.path_fits).mpr h.path,
        (headersFaithful_iff hok.headers).mpr h.headers⟩

lemma RequestTokens.Ok.eq_of_reported (hok : t.Ok) (hok' : t'.Ok)
    (hfree : t.NulFree) (hfree' : t'.NulFree) (hmethod : t.reported.method = t'.reported.method)
    (hpath : t.reported.path = t'.reported.path)
    (hheaders : t.reported.headers = t'.reported.headers) :
    (t.method, t.path, t.headers) = (t'.method, t'.path, t'.headers) := by
  have hm {t : RequestTokens} (hok : t.Ok) (hfree : t.NulFree) :
      t.reported.method.bytes = t.method :=
    ofBytes_bytes (Nat.le_sub_one_of_lt hok.method_fits) hfree.method
  have hp {t : RequestTokens} (hok : t.Ok) (hfree : t.NulFree) : t.reported.path.bytes = t.path :=
    ofBytes_bytes (Nat.le_sub_one_of_lt hok.path_fits) hfree.path
  rw [← hm hok hfree, ← hm hok' hfree', ← hp hok hfree, ← hp hok' hfree', hmethod, hpath,
    headers_eq_of_reported hok.headers hok'.headers hfree.headers hfree'.headers hheaders]

lemma tokens_of_request {req : HtttpRequest} (h : htttpParseRequest buf = .ok req) :
    ∃ t : RequestTokens, t.OnWire buf ∧ (∀ t', t'.OnWire buf → t' = t) ∧ req = t.reported := by
  obtain ⟨t, hok, rfl, hreq, -⟩ := htttpParseRequest_eq_ok_iff.mp h
  exact ⟨t, ⟨hok, rfl⟩, fun t' h' => h'.1.eq_of_text hok h'.2.symm, hreq⟩

lemma tokens_of_response {res : HtttpResponse} (h : htttpParseResponse buf = .ok res) :
    ∃ t : ResponseTokens, t.OnWire buf ∧ (∀ t', t'.OnWire buf → t' = t) ∧
      res.headers = t.headers.map HeaderToken.reported := by
  obtain ⟨t, hok, rfl, -, -, -, hres, -⟩ := htttpParseResponse_eq_ok_iff.mp h
  exact ⟨t, ⟨hok, rfl⟩, fun t' h' => h'.1.eq_of_text hok h'.2.symm, by rw [hres]; rfl⟩

/-- **What is reported is what was on the wire.**  The tokens of an accepted message are determined
by its bytes.  Every string that is reported has the length of its token, and headers are found
exactly under the names of the header lines, if and only if there is no NUL byte in the tokens; and
messages without NUL bytes in their tokens that differ in one of these are reported differently. -/
theorem reported_as_on_wire (buf : Bytes) :
    (∀ req, htttpParseRequest buf = .ok req → ∃ t : RequestTokens, t.OnWire buf ∧
      (∀ t', t'.OnWire buf → t' = t) ∧ (t.Faithful req ↔ t.NulFree)) ∧
    (∀ res, htttpParseResponse buf = .ok res → ∃ t : ResponseTokens, t.OnWire buf ∧
      (∀ t', t'.OnWire buf → t' = t) ∧
      (HeadersFaithful t.headers res.headers ↔ ∀ h ∈ t.headers, h.NulFree)) ∧
    (∀ (t t' : RequestTokens) buf' req req', t.OnWire buf → t'.OnWire buf' →
      htttpParseRequest buf = .ok req → htttpParseRequest buf' = .ok req' → t.NulFree → t'.NulFree →
      (t.method, t.path, t.headers) ≠ (t'.method, t'.path, t'.headers) →
      (req.method, req.path, req.headers) ≠ (req'.method, req'.path, req'.headers)) ∧
    ∀ (t t' : ResponseTokens) buf' res res', t.OnWire buf → t'.OnWire buf' →
      htttpParseResponse buf = .ok res → htttpParseResponse buf' = .ok res' →
      (∀ h ∈ t.headers, h.NulFree) → (∀ h ∈ t'.headers, h.NulFree) → t.headers ≠ t'.headers →
      res.headers ≠ res'.headers := by
  refine ⟨fun req h => ?_, fun res h => ?_, ?_, ?_⟩
  · obtain ⟨t, hwire, hunique, rfl⟩ := tokens_of_request h
    exact ⟨t, hwire, hunique, hwire.1.faithful_iff⟩
  · obtain ⟨t, hwire, hunique, hheaders⟩ := tokens_of_response h
    rw [hheaders]
    exact ⟨t, hwire, hunique, headersFaithful_iff hwire.1.headers⟩
  · intro t t' buf' req req' hwire hwire' h h' hfree hfree' hne heq
    obtain ⟨u, -, hunique, rfl⟩ := tokens_of_request h
    obtain ⟨u', -, hunique', rfl⟩ := tokens_of_request h'
    obtain rfl := hunique t hwire
    obtain rfl := hunique' t' hwire'
    obtain ⟨hmethod, hrest⟩ := Prod.mk.inj heq
    obtain ⟨hpath, hheaders⟩ := Prod.mk.inj hrest
    exact hne (hwire.1.eq_of_reported hwire'.1 hfree hfree' hmethod hpath hheaders)
  · intro t t' buf' res res' hwire hwire' h h' hfree hfree' hne heq
    obtain ⟨u, -, hunique, hheaders⟩ := tokens_of_response h
    obtain ⟨u', -, hunique', hheaders'⟩ := tokens_of_response h'
    obtain rfl := hunique t hwire
    obtain rfl := hunique' t' hwire'
    rw [hheaders, hheaders'] at heq
    exact hne (headers_eq_of_reported hwire.1.headers hwire'.1.headers hfree hfree' heq)

/-- A plain request and its tokens. -/
theorem greeting_as_on_wire :
    let t : RequestTokens :=
      ⟨ascii "GET", ascii "/x", [⟨ascii "Content-Length", ascii "2"⟩], ascii "hi"⟩
    htttpParseRequest t.text = .ok t.reported ∧ t.NulFree ∧
      ∃ t' : RequestTokens, t'.OnWire t.text ∧ t'.Faithful t.reported := by
  intro t
  have hparse : htttpParseRequest t.text = .ok t.reported := by decide +kernel
  have hok : t.Ok := by decide +kernel
  have hfree : t.NulFree := by decide +kernel
  obtain ⟨t', hwire, hunique, hfaithful⟩ := (reported_as_on_wire t.text).1 t.reported hparse
  obtain rfl := hunique t ⟨hok, rfl⟩
  exact ⟨hparse, hfree, t, hwire, hfaithful.mpr hfree⟩

/-- A NUL byte in the method and one in the only header's name: the method is reported as `GET`, and
a length is found that no line is named for. -/
theorem nul_cuts_tokens : let t : RequestTokens := ⟨ascii "GET" ++ 0 :: ascii "X", ascii "/x",
      [⟨ascii "Content-Length" ++ 0 :: ascii "X", ascii "0"⟩], []⟩
    htttpParseRequest t.text = .ok t.reported ∧ t.OnWire t.text ∧
      t.reported.method.bytes = ascii "GET" ∧ ¬ t.Faithful t.reported ∧
      (htttpHeaderGet t.reported.headers (ascii "Content-Length")).isSome = true ∧
      ∀ h ∈ t.headers, ciEq h.key (ascii "Content-Length") = false := by
  intro t
  have hok : t.Ok := by decide +kernel
  refine ⟨by decide +kernel, ⟨hok, rfl⟩, by decide +kernel, fun h => ?_, by decide +kernel,
    by decide +kernel⟩
  exact absurd h.method (by decide +kernel)

end BallotBox
