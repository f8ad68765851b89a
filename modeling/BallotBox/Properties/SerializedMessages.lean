import BallotBox.Properties.Support.WireTokens

/-!
# What the serializer writes, read by the parser

A message that was serialized is accepted exactly if the header lines written, the generated ones
included, are at most as many as the parser has slots, and no key has a colon
(`serialized_accepted_iff`); then it is read as it was written.
-/

namespace BallotBox

open List

variable {h : HtttpHeader} {cap status : ℕ} {req : HtttpRequest} {out rest reason : Bytes}
  {res : HtttpResponse}
variable {date : CStr 48} {headers : List HtttpHeader} {body : Bytes}

/-! ## What is written -/

lemma HtttpHeader.Written.plain (hw : h.Written) (hcolon : (58 : UInt8) ∉ h.key.bytes) : h.Plain :=
  ⟨hw.key_ne, hw.key, hw.value, hcolon, hw.notLength⟩

lemma length_le_tailBytes (body : Bytes) : body.length ≤ (tailBytes body).length := by
  by_cases hbody : body = []
  · simp [hbody]
  · simp only [tailBytes, if_neg hbody, bodyBytes, length_append]
    omega

lemma frame_of_serializeRequest (h : htttpSerializeRequest cap req = .ok out) :
    (req.method.bytes ≠ [] ∧ validField req.method.bytes false = true) ∧
      (req.path.bytes ≠ [] ∧ validField req.path.bytes false = true) ∧
      (∀ g ∈ emitted false req.headers, g.Written) ∧ req.body.length ≤ cap ∧
      out = requestFrame { req with headers := emitted false req.headers } := by
  obtain ⟨hreq, hroom, rfl⟩ := htttpSerializeRequest_eq_ok_iff.mp h
  have hbody := length_le_tailBytes req.body
  simp only [HtttpRequest.frame, requestFrame, length_append] at hroom
  exact ⟨hreq.line.1, hreq.line.2, hreq.headers.2, by omega, rfl⟩

lemma frame_of_serializeResponse (h : htttpSerializeResponse cap date res = .ok out) :
    ∃ reason, htttpReason res.status = some reason ∧
      (∀ g ∈ emitted true res.headers, g.Written) ∧ res.body.length ≤ cap ∧
      out = responseFrame reason (responseHeaders date res) res := by
  obtain ⟨reason, hreason, hheaders, hroom, rfl⟩ := htttpSerializeResponse_eq_ok_iff.mp h
  have hbody := length_le_tailBytes res.body
  simp only [responseFrame, length_append] at hroom
  exact ⟨reason, hreason, hheaders.2, by omega, rfl⟩

/-! ## What is accepted -/

def HtttpHeader.token (h : HtttpHeader) : HeaderToken := ⟨h.key.bytes, h.value.bytes⟩

lemma headerBytes_crlf (headers : List HtttpHeader) :
    headerBytes headers ++ crlf = headerBlock (headers.map HtttpHeader.token) := by
  simp [headerBytes, headerBlock, lineBlock, headerLine, HtttpHeader.token, HeaderToken.text,
    flatMap_map]

lemma blockLine_of_cr (hne : h.key.bytes ≠ []) (hkey : cr ∉ h.key.bytes)
    (hvalue : cr ∉ h.value.bytes) : BlockLine h.token.text := by
  constructor
  · intro hnil
    exact hne (append_eq_nil_iff.mp hnil).1
  · apply no_crlf_of_no_cr
    have hsep : cr ∉ ascii ": " := by decide
    simp [HtttpHeader.token, HeaderToken.text, hkey, hvalue, hsep]

lemma HtttpHeader.Written.blockLine (hw : h.Written) : BlockLine h.token.text :=
  blockLine_of_cr hw.key_ne (notMem_of_validField hw.key (by decide))
    (notMem_of_validField hw.value (by decide))

lemma HtttpHeader.Written.colon (hw : h.Written) {t : HeaderToken} (hok : t.Ok)
    (htext : t.text = h.token.text) : (58 : UInt8) ∉ h.key.bytes := by
  intro hmem
  have hsplit : t.key ++ 58 :: 32 :: t.value = h.key.bytes ++ 58 :: 32 :: h.value.bytes := htext
  rcases append_eq_append_iff.mp hsplit with ⟨more, hkey, htail⟩ | ⟨more, hkey, -⟩
  · match more, htail with
    | [], _ =>
      rw [hkey, append_nil] at hmem
      exact hok.colon hmem
    | [_], htail => simp at htail
    | _ :: c :: more, htail =>
      obtain ⟨-, hspace⟩ := List.cons.inj htail
      obtain ⟨rfl, -⟩ := List.cons.inj hspace
      exact space_notMem_of_validField hw.key (by simp [hkey])
  · exact hok.colon (by simp [hkey, hmem])

lemma parseTail_written_iff (hwritten : ∀ h ∈ headers, h.Written)
    (hlen : body.length < 2 ^ 32) {tail : List HtttpHeader × Bytes} :
    parseTail (headerBytes headers ++ tailBytes body) = .ok tail ↔
      ((headers ++ lengthHeaders body).length ≤ htttpMaxHeaders ∧
        ∀ h ∈ headers, (58 : UInt8) ∉ h.key.bytes) ∧
          tail = (headers ++ lengthHeaders body, body) := by
  have hread (hcount : (headers ++ lengthHeaders body).length ≤ htttpMaxHeaders)
      (hcolon : ∀ h ∈ headers, (58 : UInt8) ∉ h.key.bytes) :
      parseTail (headerBytes headers ++ tailBytes body) =
        .ok (headers ++ lengthHeaders body, body) :=
    parseTail_eq (fun h hh => (hwritten h hh).plain (hcolon h hh)) hcount hlen
  constructor
  · intro htail
    obtain ⟨headers', body'⟩ := tail
    obtain ⟨tokens, hcount, hok, htext, -⟩ := parseTail_eq_ok_iff.mp htail
    have hblock : headerBlock ((headers ++ lengthHeaders body).map HtttpHeader.token) ++ body =
        headerBlock tokens ++ body' := by
      rw [← htext, tailBytes_eq hlen, ← headerBytes_crlf]
      simp [headerBytes]
    have hlines : ∀ line ∈ ((headers ++ lengthHeaders body).map HtttpHeader.token).map
        HeaderToken.text, BlockLine line := by
      rw [forall_mem_map, forall_mem_map, forall_mem_append]
      refine ⟨fun h hh => (hwritten h hh).blockLine, fun h hh => ?_⟩
      have hread := lengthHeaders_readable hlen h hh
      exact blockLine_of_cr hread.key_ne hread.key hread.value
    have hlines' : ∀ line ∈ tokens.map HeaderToken.text, BlockLine line := by
      rw [forall_mem_map]
      exact fun t ht => (hok t ht).blockLine
    obtain ⟨htexts, -⟩ := lineBlock_inj hlines hlines' hblock
    have hlength := congrArg List.length htexts
    simp only [length_map] at hlength
    have hcolon (h : HtttpHeader) (hh : h ∈ headers) : (58 : UInt8) ∉ h.key.bytes := by
      have hmem : h.token.text ∈ tokens.map HeaderToken.text := by
        rw [← htexts]
        exact mem_map_of_mem (mem_map_of_mem (mem_append_left _ hh))
      obtain ⟨t, ht, htext⟩ := mem_map.mp hmem
      exact (hwritten h hh).colon (hok t ht) htext
    rw [← hlength] at hcount
    exact ⟨⟨hcount, hcolon⟩, Except.ok.inj (htail.symm.trans (hread hcount hcolon))⟩
  · rintro ⟨⟨hcount, hcolon⟩, rfl⟩
    exact hread hcount hcolon

lemma htttpParseRequest_line_iff {method path : Bytes}
    (hmethod : (method ≠ [] ∧ method.length < htttpMaxMethod) ∧ validField method false = true)
    (hpath : (path ≠ [] ∧ path.length < htttpMaxPath) ∧ validField path false = true) :
    htttpParseRequest (method ++ 32 :: (path ++ 32 :: htttpVersion) ++ (crlf ++ rest)) = .ok req ↔
      ∃ headers body, parseTail rest = .ok (headers, body) ∧
        req = ⟨.ofBytes method, .ofBytes path, headers, body⟩ := by
  have hline : ¬ crlf <:+: method ++ 32 :: (path ++ 32 :: htttpVersion) := by
    apply no_crlf_of_no_cr
    have hversion : cr ∉ htttpVersion := by decide
    have hspace : cr ≠ 32 := by decide
    have hcr : cr < 32 := by decide
    simp [notMem_of_validField hmethod.2 hcr, notMem_of_validField hpath.2 hcr, hversion, hspace]
  have htokens {headers : List HeaderToken} {body : Bytes}
      (hcount : headers.length ≤ htttpMaxHeaders) (hok : ∀ h ∈ headers, h.Ok) :
      RequestTokens.Ok ⟨method, path, headers, body⟩ :=
    ⟨hmethod.1.1, space_notMem_of_validField hmethod.2, hmethod.1.2, hpath.1.1,
      space_notMem_of_validField hpath.2, hpath.1.2, hline, hcount, hok⟩
  have hparse {headers : List HtttpHeader} {body : Bytes}
    (htail : parseTail rest = .ok (headers, body)) :
      htttpParseRequest (method ++ 32 :: (path ++ 32 :: htttpVersion) ++ (crlf ++ rest)) =
        .ok ⟨.ofBytes method, .ofBytes path, headers, body⟩ := by
    obtain ⟨tokens, hcount, hok, rfl, rfl, hlength⟩ := parseTail_eq_ok_iff.mp htail
    exact htttpParseRequest_eq_ok_iff.mpr ⟨_, htokens hcount hok, rfl, rfl, hlength⟩
  constructor
  · intro hreq
    obtain ⟨t, hok, htext, rfl, hlength⟩ := htttpParseRequest_eq_ok_iff.mp hreq
    have hfind := hok.findCrlf_text
    rw [← htext, findCrlf_first hline] at hfind
    obtain rfl := (Prod.mk.inj (Option.some.inj hfind)).2
    have htail : parseTail (headerBlock t.headers ++ t.body) = .ok (t.reported.headers, t.body) :=
      parseTail_eq_ok_iff.mpr ⟨t.headers, hok.count, hok.headers, rfl, rfl, hlength⟩
    exact ⟨_, _, htail, Except.ok.inj (hreq.symm.trans (hparse htail))⟩
  · rintro ⟨headers, body, htail, rfl⟩
    exact hparse htail

lemma status_of_htttpReason (h : htttpReason status = some reason) :
    (100 ≤ status ∧ status ≤ 599) ∧ cr ∉ reason := by
  unfold htttpReason at h
  split at h
  all_goals first
    | (obtain rfl := Option.some.inj h; decide)
    | cases h

lemma statusLine_spec (hreason : htttpReason status = some reason) :
    ¬ crlf <:+: htttpVersion ++ 32 :: (renderNat status ++ 32 :: reason) ∧
      (32 : UInt8) ∉ renderNat status := by
  have hnot {c : UInt8} (hdigit : isDigit c = false) : c ∉ renderNat status := fun hc =>
    Bool.false_ne_true (hdigit.symm.trans (isDigit_of_mem_renderNat hc))
  refine ⟨no_crlf_of_no_cr ?_, hnot (by decide)⟩
  have hversion : cr ∉ htttpVersion := by decide
  have hspace : cr ≠ 32 := by decide
  have hdigits : cr ∉ renderNat status := hnot (by decide)
  simp [hversion, hspace, hdigits, (status_of_htttpReason hreason).2]

lemma htttpParseResponse_line
    (hreason : htttpReason status = some reason) (htail : parseTail rest = .ok (headers, body)) :
    htttpParseResponse
      (htttpVersion ++ 32 :: (renderNat status ++ 32 :: reason) ++ (crlf ++ rest)) =
      .ok ⟨status, headers, body⟩ := by
  obtain ⟨hstatus, -⟩ := status_of_htttpReason hreason
  obtain ⟨hline, hdigits⟩ := statusLine_spec hreason
  obtain ⟨tokens, hcount, hok, rfl, rfl, hlength⟩ := parseTail_eq_ok_iff.mp htail
  let t : ResponseTokens := ⟨renderNat status, reason, tokens, body⟩
  have ht : t.Ok := ⟨renderNat_ne_nil _, hdigits, hline, hcount, hok⟩
  have huint : parseUint (renderNat status) = .ok status := parseUint_renderNat (by omega)
  exact htttpParseResponse_eq_ok_iff.mpr ⟨t, ht, rfl, huint, hstatus.1, hstatus.2, rfl, hlength⟩

lemma htttpParseResponse_line_iff (hreason : htttpReason status = some reason) :
    htttpParseResponse
      (htttpVersion ++ 32 :: (renderNat status ++ 32 :: reason) ++ (crlf ++ rest)) =
      .ok res ↔
      ∃ headers body, parseTail rest = .ok (headers, body) ∧ res = ⟨status, headers, body⟩ := by
  constructor
  · intro hparse
    obtain ⟨t, hok, htext, -, -, -, hres, hlength⟩ := htttpParseResponse_eq_ok_iff.mp hparse
    have hfind := hok.findCrlf_text
    rw [← htext, findCrlf_first (statusLine_spec hreason).1] at hfind
    obtain rfl := (Prod.mk.inj (Option.some.inj hfind)).2
    rw [hres] at hlength
    have htail := parseTail_eq_ok_iff.mpr ⟨t.headers, hok.count, hok.headers, rfl, rfl, hlength⟩
    exact ⟨_, _, htail, Except.ok.inj (hparse.symm.trans (htttpParseResponse_line hreason htail))⟩
  · rintro ⟨headers, body, htail, rfl⟩
    exact htttpParseResponse_line hreason htail

def requestLines (req : HtttpRequest) : List HtttpHeader :=
  emitted false req.headers ++ lengthHeaders req.body

def responseLines (date : CStr 48) (res : HtttpResponse) : List HtttpHeader :=
  responseHeaders date res ++ lengthHeaders res.body

def LinesReadable (lines callers : List HtttpHeader) : Prop :=
  lines.length ≤ htttpMaxHeaders ∧ ∀ h ∈ callers, (58 : UInt8) ∉ h.key.bytes

lemma parse_serializedRequest_iff (hcap : cap < 2 ^ 32) {req' : HtttpRequest}
    (h : htttpSerializeRequest cap req = .ok out) :
    htttpParseRequest out = .ok req' ↔
      LinesReadable (requestLines req) (emitted false req.headers) ∧
        req' = { req with headers := requestLines req } := by
  obtain ⟨hmethod, hpath, hwritten, hbody, rfl⟩ := frame_of_serializeRequest h
  have hmfits : req.method.bytes.length < htttpMaxMethod := req.method.fits.trans_lt (by norm_num)
  have hpfits : req.path.bytes.length < htttpMaxPath := req.path.fits.trans_lt (by norm_num)
  have hframe : requestFrame { req with headers := emitted false req.headers } =
      req.method.bytes ++ 32 :: (req.path.bytes ++ 32 :: htttpVersion) ++
        (crlf ++ (headerBytes (emitted false req.headers) ++ tailBytes req.body)) := by
    simp [requestFrame]
  rw [hframe, htttpParseRequest_line_iff ⟨⟨hmethod.1, hmfits⟩, hmethod.2⟩
    ⟨⟨hpath.1, hpfits⟩, hpath.2⟩]
  simp only [parseTail_written_iff hwritten (hbody.trans_lt hcap), CStr.ofBytes_self]
  constructor
  · rintro ⟨headers, body, ⟨hread, htail⟩, rfl⟩
    obtain ⟨rfl, rfl⟩ := Prod.mk.inj htail
    exact ⟨hread, rfl⟩
  · rintro ⟨hread, rfl⟩
    exact ⟨_, _, ⟨hread, rfl⟩, rfl⟩

lemma parse_serializedResponse_iff (hcap : cap < 2 ^ 32)
    (hdate : validField date.bytes true = true) {res' : HtttpResponse}
    (h : htttpSerializeResponse cap date res = .ok out) :
    htttpParseResponse out = .ok res' ↔
      LinesReadable (responseLines date res) (emitted true res.headers) ∧
        res' = { res with headers := responseLines date res } := by
  obtain ⟨reason, hreason, hwritten, hbody, rfl⟩ := frame_of_serializeResponse h
  have hdated : ∀ g ∈ responseHeaders date res, g.Written := by
    rw [responseHeaders, forall_mem_cons]
    refine ⟨⟨?_, ?_, ?_, ?_⟩, hwritten⟩
    · rw [dateKey_bytes]
      decide
    · rw [dateKey_bytes]
      decide
    · rw [dateValue_bytes]
      exact hdate
    · rw [dateKey_bytes]
      decide
  have hcolon : (∀ h ∈ responseHeaders date res, (58 : UInt8) ∉ h.key.bytes) ↔
      ∀ h ∈ emitted true res.headers, (58 : UInt8) ∉ h.key.bytes := by
    have hkey : (58 : UInt8) ∉ ascii "Date" := by decide
    simp [responseHeaders, dateKey_bytes, hkey]
  rw [responseFrame, htttpParseResponse_line_iff hreason]
  simp only [parseTail_written_iff hdated (hbody.trans_lt hcap), hcolon]
  constructor
  · rintro ⟨headers, body, ⟨hread, htail⟩, rfl⟩
    obtain ⟨rfl, rfl⟩ := Prod.mk.inj htail
    exact ⟨hread, rfl⟩
  · rintro ⟨hread, rfl⟩
    exact ⟨_, _, ⟨hread, rfl⟩, rfl⟩

/-- **The parser on what was serialized.**  A request or response that the serializer writes is
accepted by the parser exactly if the header lines, the generated ones included, are at most as many
as the parser has slots for, and no key of a header that is written has a colon. -/
theorem serialized_accepted_iff {cap : ℕ} (hcap : cap < 2 ^ 32) :
    (∀ req out, htttpSerializeRequest cap req = .ok out →
      ((∃ req', htttpParseRequest out = .ok req') ↔ (requestLines req).length ≤ htttpMaxHeaders ∧
        ∀ h ∈ emitted false req.headers, (58 : UInt8) ∉ h.key.bytes)) ∧
    ∀ date : CStr 48, validField date.bytes true = true →
      ∀ res out, htttpSerializeResponse cap date res = .ok out →
        ((∃ res', htttpParseResponse out = .ok res') ↔
          (responseLines date res).length ≤ htttpMaxHeaders ∧
            ∀ h ∈ emitted true res.headers, (58 : UInt8) ∉ h.key.bytes) := by
  constructor
  · intro req out h
    simp only [parse_serializedRequest_iff hcap h, exists_and_left, exists_eq, and_true]
    rfl
  · intro date hdate res out h
    simp only [parse_serializedResponse_iff hcap hdate h, exists_and_left, exists_eq, and_true]
    rfl

lemma exists_ok_of_any {ε α : Type} {x : Except ε α} {p : α → Prop} [DecidablePred p]
    (h : x.toOption.any (fun a => decide (p a)) = true) : ∃ a, x = .ok a ∧ p a := by
  cases x with
  | error e => simp [Except.toOption] at h
  | ok a => exact ⟨a, rfl, by simpa [Except.toOption] using h⟩

/-- A small request and a small response, read back. -/
theorem greeting_accepted :
    (∃ out, htttpSerializeRequest 128 ⟨.ofBytes (ascii "GET"), .ofBytes (ascii "/x"),
        [⟨.ofBytes (ascii "Cert-Name"), .ofBytes (ascii "a b")⟩], ascii "hi"⟩ = .ok out ∧
      ∃ req, htttpParseRequest out = .ok req) ∧
    ∃ out, htttpSerializeResponse 128 (.ofBytes (ascii "Thu, 01 Jan 1970 00:00:00 GMT"))
        ⟨200, [], ascii "hi"⟩ = .ok out ∧ ∃ res, htttpParseResponse out = .ok res := by
  have hcap : 128 < 2 ^ 32 := by norm_num
  constructor
  · obtain ⟨out, hout, -⟩ := exists_ok_of_any (p := fun _ => True)
      (x := htttpSerializeRequest 128 ⟨.ofBytes (ascii "GET"), .ofBytes (ascii "/x"),
        [⟨.ofBytes (ascii "Cert-Name"), .ofBytes (ascii "a b")⟩], ascii "hi"⟩) (by decide +kernel)
    exact ⟨out, hout, ((serialized_accepted_iff hcap).1 _ _ hout).mpr (by decide +kernel)⟩
  · obtain ⟨out, hout, -⟩ := exists_ok_of_any (p := fun _ => True)
      (x := htttpSerializeResponse 128 (.ofBytes (ascii "Thu, 01 Jan 1970 00:00:00 GMT"))
        ⟨200, [], ascii "hi"⟩) (by decide +kernel)
    exact ⟨out, hout, ((serialized_accepted_iff hcap).2 _ (by decide +kernel) _ _ hout).mpr
      (by decide +kernel)⟩

/-- 32 headers and a date are 33 lines; and the line of a key with a colon is refused. -/
theorem serialized_refused :
    (∃ out, htttpSerializeResponse 4096 (.ofBytes (ascii "Thu, 01 Jan 1970 00:00:00 GMT"))
        ⟨200, List.replicate 32 ⟨.ofBytes (ascii "k"), .ofBytes (ascii "v")⟩, []⟩ = .ok out ∧
      htttpParseResponse out = .error .tooLong) ∧
    ∃ out, htttpSerializeRequest 128 ⟨.ofBytes (ascii "GET"), .ofBytes (ascii "/x"),
        [⟨.ofBytes (ascii "a:b"), .ofBytes (ascii "v")⟩], []⟩ = .ok out ∧
      htttpParseRequest out = .error .malformed :=
  ⟨exists_ok_of_any (by decide +kernel), exists_ok_of_any (by decide +kernel)⟩

/-- **Round trips.**  If a message is serialized and the bytes are accepted, then what is read is
what was written: the headers of the caller that are not generated, in their order, and the
generated ones, the date before them and the length after them. -/
theorem serialized_round_trip {cap : ℕ} (hcap : cap < 2 ^ 32) :
    (∀ req out req', htttpSerializeRequest cap req = .ok out → htttpParseRequest out = .ok req' →
      req'.method = req.method ∧ req'.path = req.path ∧ req'.body = req.body ∧
        req'.headers = emitted false req.headers ++ lengthHeaders req.body) ∧
    ∀ date : CStr 48, validField date.bytes true = true →
      ∀ res out res', htttpSerializeResponse cap date res = .ok out →
        htttpParseResponse out = .ok res' →
        res'.status = res.status ∧ res'.body = res.body ∧
          res'.headers = ⟨.ofBytes (ascii "Date"), .ofBytes date.bytes⟩ ::
            emitted true res.headers ++ lengthHeaders res.body := by
  constructor
  · intro req out req' hout hparse
    obtain ⟨-, rfl⟩ := (parse_serializedRequest_iff hcap hout).mp hparse
    exact ⟨rfl, rfl, rfl, rfl⟩
  · intro date hdate res out res' hout hparse
    obtain ⟨-, rfl⟩ := (parse_serializedResponse_iff hcap hdate hout).mp hparse
    exact ⟨rfl, rfl, rfl⟩

def mislabelled : HtttpRequest :=
  ⟨.ofBytes (ascii "GET"), .ofBytes (ascii "/x"),
    [⟨.ofBytes (ascii "content-length"), .ofBytes (ascii "99")⟩,
      ⟨.ofBytes (ascii "Cert-Name"), .ofBytes (ascii "a b")⟩], ascii "hi"⟩

theorem mislabelled_round_trip :
    ∃ out req, htttpSerializeRequest 128 mislabelled = .ok out ∧ htttpParseRequest out = .ok req ∧
      req.body = ascii "hi" ∧
      req.headers = [⟨.ofBytes (ascii "Cert-Name"), .ofBytes (ascii "a b")⟩,
        ⟨.ofBytes (ascii "Content-Length"), .ofBytes (ascii "2")⟩] := by
  obtain ⟨out, hout, hread⟩ := exists_ok_of_any (x := htttpSerializeRequest 128 mislabelled)
    (p := fun out => (htttpParseRequest out).toOption.any (fun _ => decide True) = true)
    (by decide +kernel)
  obtain ⟨req, hreq, -⟩ := exists_ok_of_any hread
  obtain ⟨-, -, hbody, hheaders⟩ := (serialized_round_trip (by norm_num)).1 _ _ _ hout hreq
  refine ⟨out, req, hout, hreq, hbody, hheaders.trans ?_⟩
  decide +kernel

end BallotBox
