import BallotBox.Properties.Support.RequestFrames
import BallotBox.Properties.Support.Runs

/-!
# Requests over the wire and back

The client encodes a request, the daemon parses and decodes it.  The id of an election is a body
value in a `CREATE` and a path segment ever after, the name is a header, and a body value is cut to
319 bytes, while a payload of 160 bytes has 320 hexadecimal digits.
-/

namespace BallotBox

open BclRequest CStr List Option

/-! ## Encoding -/

/-- The path has an election id. -/
def BclOp.isRouted : BclOp → Bool
  | .create | .adminNextId => false
  | _ => true

/-- The headers of a request. -/
def BclRequest.headers (req : BclRequest) : List HtttpHeader :=
  if req.certName.bytes = [] then []
  else [⟨.ofBytes (ascii "Cert-Name"), .ofBytes req.certName.bytes⟩]

/-- The message of a request. -/
def BclRequest.http (req : BclRequest) : HtttpRequest :=
  ⟨.ofBytes (methodFromOp req.op), .ofBytes (requestPath req), req.headers,
    (requestTexts req).flatten⟩

/-- The fields of a request can be written. -/
structure BclRequest.Encodable (req : BclRequest) : Prop where
  id : validField req.electionId.bytes false = true
  certName : validField req.certName.bytes true = true
  texts : ∀ x ∈ requestTexts req, OneLine x

variable {req : BclRequest}

lemma validField_append (a b : Bytes) (space : Bool) :
    validField (a ++ b) space = (validField a space && validField b space) := by
  simp [validField]

def BclOp.suffix : BclOp → Bytes
  | .cast | .update => ascii "/ballot"
  | .check | .adminCheck => ascii "/check"
  | _ => []

lemma requestPath_eq (hop : req.op.isRouted = true) :
    requestPath req = ascii "/election/" ++ req.electionId.bytes ++ req.op.suffix := by
  unfold requestPath
  cases h : req.op <;> simp_all [BclOp.suffix, BclOp.isRouted]

lemma BclOp.suffix_spec (op : BclOp) : validField op.suffix false = true ∧ op.suffix.length ≤ 7 ∧
    (0 : UInt8) ∉ op.suffix ∧ (op.suffix = [] ∨ op.suffix.head? = some 47) := by
  cases op <;> decide

lemma path_bytes (hop : req.op.isRouted = true) :
    (ofBytes (requestPath req) : CStr htttpMaxPath).bytes =
      ascii "/election/" ++ req.electionId.bytes ++ req.op.suffix := by
  obtain ⟨-, hlen, hnul, -⟩ := req.op.suffix_spec
  have hid : req.electionId.bytes.length ≤ 15 := req.electionId.fits
  have hstem : (ascii "/election/").length = 10 ∧ (0 : UInt8) ∉ ascii "/election/" := by decide
  rw [requestPath_eq hop]
  refine ofBytes_bytes ?_ ?_
  · simp only [length_append, htttpMaxPath]
    omega
  · simp [hstem.2, hnul, req.electionId.noNul]

lemma method_bytes (op : BclOp) :
    (ofBytes (methodFromOp op) : CStr htttpMaxMethod).bytes = methodFromOp op ∧
    methodFromOp op ≠ [] ∧ validField (methodFromOp op) false = true ∧
    (methodFromOp op).length ≤ 13 ∧ opFromMethod (methodFromOp op) = some op := by
  cases op <;> decide

lemma certValue_bytes (req : BclRequest) :
    (ofBytes req.certName.bytes : CStr htttpMaxValue).bytes = req.certName.bytes :=
  ofBytes_bytes (req.certName.fits.trans (by norm_num)) req.certName.noNul

lemma headers_plain (h : validField req.certName.bytes true = true) :
    ∀ g ∈ req.headers, g.Plain := by
  unfold headers
  split_ifs
  · simp
  · have hkey : (ofBytes (ascii "Cert-Name") : CStr htttpMaxKey).bytes = ascii "Cert-Name" := by
      decide
    rw [forall_mem_singleton]
    refine ⟨?_, ?_, ?_, ?_, ?_⟩
    · rw [hkey]; decide
    · rw [hkey]; decide
    · rwa [certValue_bytes]
    · rw [hkey]; decide
    · rw [hkey]; decide

lemma headerSet_eq (h : validField req.certName.bytes true = true) :
    htttpHeaderSet [] (ascii "Cert-Name") req.certName.bytes =
      .ok [⟨.ofBytes (ascii "Cert-Name"), .ofBytes req.certName.bytes⟩] := by
  have hlen : req.certName.bytes.length ≤ 31 := req.certName.fits
  have hkey : ascii "Cert-Name" ≠ [] ∧ validField (ascii "Cert-Name") false = true ∧
      (ascii "Cert-Name").length = 9 := by decide
  rw [htttpHeaderSet, if_neg hkey.1, if_neg (by simp [hkey.2.1, h]), if_neg (by simp)]
  dsimp only
  rw [copyToken, if_neg (by rw [hkey.2.2]; norm_num), ok_bind, copyToken,
    if_neg (by simp only [htttpMaxValue]; omega), ok_bind]
  rfl

lemma validField_of_headerSet {headers out : List HtttpHeader} {key value : Bytes}
    (h : htttpHeaderSet headers key value = .ok out) : validField value true = true := by
  by_contra hvalue
  unfold htttpHeaderSet at h
  rw [if_pos (c := (!validField key false || !validField value true) = true)
    (by simp [hvalue])] at h
  split_ifs at h <;> cases h

lemma length_requestTexts (hop : req.op.isRouted = true) :
    (requestTexts req).flatten.length ≤ 560 := by
  have hnonce : (kvLine "nonce" req.ballot.nonce.bytes).length ≤ 39 := by
    have hfits : req.ballot.nonce.bytes.length ≤ 32 := req.ballot.nonce.fits
    rw [length_kvLine, show (ascii "nonce").length = 5 from rfl]
    omega
  have hpayload : (kvLine "payload" (hexEncode req.ballot.payload)).length ≤ 521 := by
    have hfits := req.ballot.payload_le
    simp only [bbCiphertextMax] at hfits
    rw [length_kvLine, length_hexEncode, show (ascii "payload").length = 7 from rfl]
    omega
  have hhash : (kvLine "hash" req.hash.bytes).length ≤ 70 := by
    have hfits : req.hash.bytes.length ≤ 64 := req.hash.fits
    rw [length_kvLine, show (ascii "hash").length = 4 from rfl]
    omega
  unfold requestTexts
  cases h : req.op with
  | create | adminNextId => simp [h, BclOp.isRouted] at hop
  | cast | update =>
    simp only [flatten_cons, flatten_nil, length_append, length_nil]
    omega
  | check | adminCheck =>
    simp only [flatten_cons, flatten_nil, length_append, length_nil]
    omega
  | _ => simp

lemma length_requestFrame (hbody : (requestTexts req).flatten.length < codecBodyMax) :
    (requestFrame req.http).length ≤ 65536 := by
  simp only [codecBodyMax] at hbody
  have hpath : (ofBytes (requestPath req) : CStr htttpMaxPath).bytes.length ≤ 255 :=
    fits _
  have hcert : req.certName.bytes.length ≤ 31 := req.certName.fits
  obtain ⟨hmethod, -, -, hlen, -⟩ := method_bytes req.op
  have hconst : htttpVersion.length = 9 ∧ crlf.length = 2 ∧ (ascii ": ").length = 2 ∧
      (ascii "Content-Length").length = 14 ∧
      (ofBytes (ascii "Cert-Name") : CStr htttpMaxKey).bytes.length = 9 := by decide
  have hheaders : (headerBytes req.headers).length ≤ 50 := by
    unfold headers
    split_ifs
    · simp [headerBytes]
    · simp only [headerBytes, headerLine, flatMap_cons, flatMap_nil, append_nil,
        length_append, certValue_bytes]
      omega
  have htail : (tailBytes (requestTexts req).flatten).length ≤ 8300 := by
    unfold tailBytes
    split_ifs
    · omega
    · have hcount : (renderNat (requestTexts req).flatten.length).length ≤ 4 :=
        length_renderNat_le (by norm_num) (by omega)
      simp only [bodyBytes, headerLine, length_append]
      omega
  simp only [requestFrame, http, length_append, length_singleton, hmethod]
  omega

lemma bclEncodeRequest_eq {cap : ℕ} {body : Bytes}
    (hbody : bodyAppendAll [] (requestTexts req) = some body)
    (hcert : validField req.certName.bytes true = true) :
    bclEncodeRequest cap req = (htttpSerializeRequest cap ⟨.ofBytes (methodFromOp req.op),
      .ofBytes (requestPath req), req.headers, body⟩).toOption := by
  simp only [bclEncodeRequest, hbody, bind_eq_bind, bind_some, headers]
  split_ifs with hempty
  · rfl
  · simp only [headerSet_eq hcert, Except.toOption, bind_some]

lemma validField_of_encode {cap : ℕ} {frame : Bytes} (h : bclEncodeRequest cap req = some frame) :
    validField req.certName.bytes true = true := by
  obtain ⟨body, -, h⟩ := bind_eq_some_iff.mp h
  by_cases hempty : req.certName.bytes = []
  · simp [hempty, validField]
  · cases hset : htttpHeaderSet [] (ascii "Cert-Name") req.certName.bytes with
    | error e => simp [hset, hempty, Except.toOption] at h
    | ok out => exact validField_of_headerSet hset

/-- The path can be sent. -/
def BclRequest.PathOk (req : BclRequest) : Prop :=
  req.http.path.bytes ≠ [] ∧ validField req.http.path.bytes false = true

lemma BclRequest.length_headers_lt (req : BclRequest) : req.headers.length < htttpMaxHeaders := by
  unfold headers
  split_ifs <;> simp

lemma bclEncodeRequest_frame (hpath : req.PathOk)
    (hcert : validField req.certName.bytes true = true) (htexts : ∀ x ∈ requestTexts req, OneLine x)
    (hlen : (requestTexts req).flatten.length < codecBodyMax) :
    bclEncodeRequest 65536 req = some (requestFrame req.http) := by
  obtain ⟨hmethod, hne, hvalid, -⟩ := method_bytes req.op
  have hbody : bodyAppendAll [] (requestTexts req) = some (requestTexts req).flatten := by
    rw [bodyAppendAll_eq htexts (by simpa using hlen), nil_append]
  rw [bclEncodeRequest_eq hbody hcert]
  change (htttpSerializeRequest 65536 req.http).toOption = _
  rw [htttpSerializeRequest_eq ?_ hpath (headers_plain hcert) req.length_headers_lt.le
    (length_requestFrame hlen)]
  · rfl
  · rw [http, hmethod]
    exact ⟨hne, hvalid⟩

lemma htttpParseRequest_http (hpath : req.PathOk)
    (hcert : validField req.certName.bytes true = true)
    (hlen : (requestTexts req).flatten.length < codecBodyMax) :
    htttpParseRequest (requestFrame req.http) =
      .ok { req.http with headers := req.headers ++ lengthHeaders (requestTexts req).flatten } := by
  obtain ⟨hmethod, hne, hvalid, -⟩ := method_bytes req.op
  refine htttpParseRequest_frame ?_ hpath (headers_plain hcert) req.length_headers_lt ?_
  · rw [http, hmethod]
    exact ⟨hne, hvalid⟩
  · exact hlen.trans (by norm_num [codecBodyMax])

lemma path_valid (hop : req.op.isRouted = true) :
    validField (ofBytes (requestPath req) : CStr htttpMaxPath).bytes false =
      validField req.electionId.bytes false := by
  have hstem : validField (ascii "/election/") false = true := by decide
  rw [path_bytes hop]
  simp [validField_append, hstem, req.op.suffix_spec.1]

lemma BclRequest.Encodable.pathOk (hreq : req.Encodable) (hop : req.op.isRouted = true) :
    req.PathOk := by
  have hstem : ascii "/election/" ≠ [] := by decide
  refine ⟨?_, (path_valid hop).trans hreq.id⟩
  rw [http, path_bytes hop]
  simp [hstem]

lemma requestTexts_fits (hop : req.op.isRouted = true) :
    (requestTexts req).flatten.length < codecBodyMax :=
  (length_requestTexts hop).trans_lt (by norm_num [codecBodyMax])

/-- **Encoding.**  A request on an election is encoded into its frame, if its fields can be
written. -/
theorem bclEncodeRequest_iff (hop : req.op.isRouted = true) {frame : Bytes} :
    bclEncodeRequest 65536 req = some frame ↔ req.Encodable ∧ frame = requestFrame req.http := by
  have hserialize (hreq : req.Encodable) :
      bclEncodeRequest 65536 req = some (requestFrame req.http) :=
    bclEncodeRequest_frame (hreq.pathOk hop) hreq.certName hreq.texts (requestTexts_fits hop)
  constructor
  · intro h
    have hcert := validField_of_encode h
    obtain ⟨body, hbody, -⟩ := bind_eq_some_iff.mp h
    have hid : validField req.electionId.bytes false = true := by
      have hser := h
      rw [bclEncodeRequest_eq hbody hcert] at hser
      cases hout : htttpSerializeRequest 65536 ⟨.ofBytes (methodFromOp req.op),
          .ofBytes (requestPath req), req.headers, body⟩ with
      | error e => simp [hout, Except.toOption] at hser
      | ok out =>
        exact (path_valid hop).symm.trans (htttpSerializeRequest_eq_ok_iff.mp hout).1.line.2.2
    have hreq : req.Encodable := ⟨hid, hcert, oneLine_of_bodyAppendAll hbody⟩
    exact ⟨hreq, some.inj (h.symm.trans (hserialize hreq))⟩
  · rintro ⟨hreq, rfl⟩
    exact hserialize hreq

/-! ## Decoding -/

lemma BclRequest.Encodable.parse (hreq : req.Encodable) (hop : req.op.isRouted = true) :
    htttpParseRequest (requestFrame req.http) =
      .ok { req.http with headers := req.headers ++ lengthHeaders (requestTexts req).flatten } :=
  htttpParseRequest_http (hreq.pathOk hop) hreq.certName (requestTexts_fits hop)

lemma pathElectionId_eq (hop : req.op.isRouted = true) :
    pathElectionId (req.http.path.bytes) =
      if req.electionId.bytes.takeWhile (· ≠ 47) = [] then none
      else some (.ofBytes (req.electionId.bytes.takeWhile (· ≠ 47))) := by
  have hid : req.electionId.bytes.length ≤ 15 := req.electionId.fits
  obtain ⟨-, -, -, hsuffix⟩ := req.op.suffix_spec
  have hstop (a rest : Bytes) : (a ++ 47 :: rest).takeWhile (· ≠ 47) = a.takeWhile (· ≠ 47) := by
    induction a with
    | nil => simp
    | cons c a ih => simp only [cons_append, takeWhile_cons, ih]
  have htake : (req.electionId.bytes ++ req.op.suffix).takeWhile (· ≠ 47) =
      req.electionId.bytes.takeWhile (· ≠ 47) := by
    rcases hsuffix with hnil | hhead
    · rw [hnil, append_nil]
    · obtain ⟨rest, hrest⟩ := head?_eq_some_iff.mp hhead
      rw [hrest, hstop]
  have hlen : (req.electionId.bytes.takeWhile (· ≠ 47)).length ≤ bbIdLen - 1 :=
    (List.takeWhile_prefix _).length_le.trans hid
  have hpath :
      req.http.path.bytes = ascii "/election/" ++ (req.electionId.bytes ++ req.op.suffix) :=
    (path_bytes hop).trans (append_assoc ..)
  simp only [pathElectionId, hpath, prefix_append, if_true, drop_left, htake,
    take_of_length_le hlen]

/-- An id that survives in a path. -/
def RouteSafe (id : Bytes) : Prop := id ≠ [] ∧ ∀ c ∈ id, 33 ≤ c ∧ c ≤ 126 ∧ c ≠ 47

instance (id : Bytes) : Decidable (RouteSafe id) := inferInstanceAs (Decidable (_ ∧ _))

lemma routeSafe_iff {id : Bytes} :
    RouteSafe id ↔ validField id false = true ∧ id ≠ [] ∧ (47 : UInt8) ∉ id := by
  simp only [RouteSafe, validField, Bool.false_and, Bool.or_false, List.all_eq_true,
    Bool.and_eq_true, decide_eq_true_eq]
  constructor
  · rintro ⟨hne, h⟩
    exact ⟨fun c hc => ⟨(h c hc).1, (h c hc).2.1⟩, hne, fun hmem => (h 47 hmem).2.2 rfl⟩
  · rintro ⟨hvalid, hne, h47⟩
    exact ⟨hne, fun c hc => ⟨(hvalid c hc).1, (hvalid c hc).2, fun heq => h47 (heq ▸ hc)⟩⟩

lemma pathElectionId_eq_some_iff (hop : req.op.isRouted = true) :
    pathElectionId req.http.path.bytes = some req.electionId ↔
      req.electionId.bytes ≠ [] ∧ (47 : UInt8) ∉ req.electionId.bytes := by
  have hlen : (req.electionId.bytes.takeWhile (· ≠ 47)).length ≤ bbIdLen - 1 :=
    (List.takeWhile_prefix _).length_le.trans req.electionId.fits
  have hnul : (0 : UInt8) ∉ req.electionId.bytes.takeWhile (· ≠ 47) := fun h =>
    req.electionId.noNul ((List.takeWhile_prefix _).subset h)
  rw [pathElectionId_eq hop]
  constructor
  · intro h
    split_ifs at h with hnil
    have hbytes : req.electionId.bytes.takeWhile (· ≠ 47) = req.electionId.bytes := by
      have hid := congrArg bytes (some.inj h)
      rwa [ofBytes_bytes hlen hnul] at hid
    rw [hbytes] at hnil
    refine ⟨hnil, fun hmem => ?_⟩
    simpa using takeWhile_eq_self_iff.mp hbytes 47 hmem
  · rintro ⟨hne, h47⟩
    have hbytes : req.electionId.bytes.takeWhile (· ≠ 47) = req.electionId.bytes :=
      takeWhile_eq_self_iff.mpr fun c hc => by
        simpa using fun heq : c = 47 => h47 (heq ▸ hc)
    rw [hbytes, if_neg hne, ofBytes_eq rfl]

lemma decoded_certName (req : BclRequest) (body : Bytes) :
    ((htttpHeaderGet (req.headers ++ lengthHeaders body) (ascii "Cert-Name")).map
      fun v => (.ofBytes v.bytes : CStr bbCertLen)).getD default = req.certName := by
  by_cases hempty : req.certName.bytes = []
  · have hnone : htttpHeaderGet (req.headers ++ lengthHeaders body) (ascii "Cert-Name") = none := by
      have hkey : ciEq (ofBytes (ascii "Content-Length") : CStr htttpMaxKey).bytes
          (ascii "Cert-Name") = false := by decide
      rw [headers, if_pos hempty, lengthHeaders]
      split_ifs <;> simp [htttpHeaderGet, hkey]
    rw [hnone]
    exact ext hempty.symm
  · have hkey : ciEq (ofBytes (ascii "Cert-Name") : CStr htttpMaxKey).bytes
        (ascii "Cert-Name") = true := by decide
    have hget : htttpHeaderGet (req.headers ++ lengthHeaders body) (ascii "Cert-Name") =
        some (.ofBytes req.certName.bytes) := by
      simp [headers, hempty, htttpHeaderGet, hkey]
    rw [hget]
    exact ofBytes_eq (certValue_bytes req)

/-- What the daemon decodes. -/
def received (req : BclRequest) : Option BclRequest := do
  let frame ← bclEncodeRequest 65536 req
  let http ← (htttpParseRequest frame).toOption
  bclDecodeRequest http

def BclRequest.parsed (req : BclRequest) : HtttpRequest :=
  { req.http with headers := req.headers ++ lengthHeaders (requestTexts req).flatten }

lemma received_eq_some_iff (hop : req.op.isRouted = true) {req' : BclRequest} :
    received req = some req' ↔ req.Encodable ∧ bclDecodeRequest req.parsed = some req' := by
  constructor
  · intro h
    obtain ⟨frame, hframe, h⟩ := bind_eq_some_iff.mp h
    obtain ⟨hreq, rfl⟩ := (bclEncodeRequest_iff hop).mp hframe
    rw [hreq.parse hop] at h
    exact ⟨hreq, h⟩
  · rintro ⟨hreq, h⟩
    rw [received, (bclEncodeRequest_iff hop).mpr ⟨hreq, rfl⟩, bind_eq_bind, bind_some,
      hreq.parse hop]
    exact h

/-- The fields that an operation sends. -/
def BclRequest.essence (req : BclRequest) : BclRequest :=
  match req.op with
  | .cast | .update =>
    ⟨req.op, req.certName, req.electionId, { req.ballot with certName := req.certName }, default,
      default⟩
  | .check | .adminCheck => ⟨req.op, req.certName, req.electionId, default, req.hash, default⟩
  | _ => ⟨req.op, req.certName, req.electionId, default, default, default⟩

/-- The fields of a request, but for the id, that its operation sends come back. -/
structure BclRequest.Sendable (req : BclRequest) : Prop where
  certName : validField req.certName.bytes true = true
  ballot : req.op = .cast ∨ req.op = .update →
    (cr ∉ req.ballot.nonce.bytes ∧ lf ∉ req.ballot.nonce.bytes) ∧ req.ballot.payload.length ≤ 159
  hash : req.op = .check ∨ req.op = .adminCheck →
    req.hash.bytes ≠ [] ∧ cr ∉ req.hash.bytes ∧ lf ∉ req.hash.bytes

lemma bodyKvs_ballot (hop : req.op = .cast ∨ req.op = .update) (hreq : req.Encodable) :
    bodyKvs (requestTexts req).flatten = [(ascii "nonce", req.ballot.nonce.bytes),
      (ascii "payload", (hexEncode req.ballot.payload).take 319)] := by
  have htexts : requestTexts req = [kvLine "nonce" req.ballot.nonce.bytes,
      kvLine "payload" (hexEncode req.ballot.payload)] := by
    rcases hop with h | h <;> simp [requestTexts, h]
  have hline := hreq.texts
  rw [htexts] at hline ⊢
  have hnonce : Clean req.ballot.nonce.bytes :=
    clean_of_oneLine_kvLine req.ballot.nonce.noNul (hline (kvLine "nonce" _) (by simp))
  have hhex : Clean (hexEncode req.ballot.payload) := clean_hexEncode _
  have hlen : req.ballot.nonce.bytes.length ≤ 319 := req.ballot.nonce.fits.trans (by norm_num)
  rw [flatten_cons, bodyKvs_kvLine (by decide) hnonce, flatten_cons,
    bodyKvs_kvLine (by decide) hhex, flatten_nil, bodyKvs_nil, take_of_length_le hlen]

lemma foldl_ballotKv_sent (ballot : BbBallot) (cert : CStr bbCertLen) :
    [(ascii "nonce", ballot.nonce.bytes),
      (ascii "payload", (hexEncode ballot.payload).take 319)].foldl
        ballotKv ({ (default : BbBallot) with certName := cert }, false) =
      if ballot.payload.length ≤ 159 then ({ ballot with certName := cert }, true)
      else ({ (default : BbBallot) with certName := cert, nonce := ballot.nonce }, false) := by
  have hkey : ascii "payload" ≠ ascii "nonce" := by decide
  have hfull := ballot.payload_le
  split_ifs with hlen
  · have hdecode : hexDecode bbCiphertextMax ((hexEncode ballot.payload).take 319) =
        (ballot.payload, true) := by
      rw [take_of_length_le (by rw [length_hexEncode]; omega), hexDecode_hexEncode hfull]
    simp [ballotKv, hkey, hdecode]
  · have hodd : hexDecode bbCiphertextMax ((hexEncode ballot.payload).take 319) = ([], false) := by
      have hcut : ((hexEncode ballot.payload).take 319).length = 319 := by
        rw [length_take, length_hexEncode]
        omega
      rw [hexDecode, hcut, if_pos (by norm_num)]
    have hoverlay : overlay [] ([] : Bytes) = [] := rfl
    have hnil : (default : BbBallot).payload = [] := rfl
    simp [ballotKv, hkey, hodd, hnil, hoverlay]

lemma foldl_hashKv_sent (hop : req.op = .check ∨ req.op = .adminCheck) (hreq : req.Encodable) :
    (bodyKvs (requestTexts req).flatten).foldl hashKv default = req.hash := by
  have htexts : requestTexts req = [kvLine "hash" req.hash.bytes] := by
    rcases hop with h | h <;> simp [requestTexts, h]
  have hline := hreq.texts
  rw [htexts] at hline ⊢
  have hclean : Clean req.hash.bytes :=
    clean_of_oneLine_kvLine req.hash.noNul (hline (kvLine "hash" _) (by simp))
  have hlen : req.hash.bytes.length ≤ 319 := req.hash.fits.trans (by norm_num)
  rw [flatten_cons, bodyKvs_kvLine (by decide) hclean, flatten_nil, bodyKvs_nil,
    take_of_length_le hlen]
  simp [hashKv]

def BclRequest.Complete (req : BclRequest) : Prop :=
  (req.op = .cast ∨ req.op = .update → req.ballot.payload.length ≤ 159) ∧
    (req.op = .check ∨ req.op = .adminCheck → req.hash.bytes ≠ [])

instance (req : BclRequest) : Decidable req.Complete := inferInstanceAs (Decidable (_ ∧ _))

/-- **Decoding.**  The daemon reads the fields of the operation, and the id as far as it goes. -/
theorem bclDecodeRequest_parsed (hop : req.op.isRouted = true) (hreq : req.Encodable) :
    bclDecodeRequest req.parsed = (pathElectionId req.http.path.bytes).bind fun id =>
      if req.Complete then some { req.essence with electionId := id } else none := by
  obtain ⟨hmethod, -, -, -, hname⟩ := method_bytes req.op
  have hopname : opFromMethod req.parsed.method.bytes = some req.op := by
    rw [parsed, http, hmethod, hname]
  have hcert := decoded_certName req (requestTexts req).flatten
  have hheaders :
      req.parsed.headers = req.headers ++ lengthHeaders (requestTexts req).flatten := rfl
  have hpath : req.parsed.path = req.http.path := rfl
  have hbody : req.parsed.body = (requestTexts req).flatten := rfl
  unfold bclDecodeRequest
  rw [hopname, bind_eq_bind, bind_some, hheaders, hcert, hpath, hbody]
  cases h : req.op with
  | create | adminNextId => simp [h, BclOp.isRouted] at hop
  | cast | update =>
    have hballot : req.op = .cast ∨ req.op = .update := by simp [h]
    have hfold := foldl_ballotKv_sent req.ballot req.certName
    rw [bodyKvs_ballot hballot hreq]
    dsimp only at hfold ⊢
    rw [hfold]
    by_cases hlen : req.ballot.payload.length ≤ 159
    · simp [Complete, essence, h, hlen]
    · simp [Complete, h, hlen]
  | check | adminCheck =>
    have hcheck : req.op = .check ∨ req.op = .adminCheck := by simp [h]
    rw [foldl_hashKv_sent hcheck hreq]
    by_cases hempty : req.hash.bytes = []
    · simp [Complete, h, hempty]
    · simp [Complete, essence, h, hempty]
  | _ => simp [Complete, essence, h]

/-! ## There and back -/

lemma essence_op (req : BclRequest) : req.essence.op = req.op := by
  unfold essence
  split <;> rfl

lemma essence_electionId (req : BclRequest) : req.essence.electionId = req.electionId := by
  unfold essence
  split <;> rfl

lemma sendable_iff (hop : req.op.isRouted = true) :
    req.Sendable ↔ validField req.certName.bytes true = true ∧
      (∀ x ∈ requestTexts req, OneLine x) ∧ req.Complete := by
  have hline {key : String} {cap : ℕ} {s : CStr cap} (hkey : Clean (ascii key)) :
      OneLine (kvLine key s.bytes) ↔ cr ∉ s.bytes ∧ lf ∉ s.bytes :=
    ⟨fun h => (clean_of_oneLine_kvLine s.noNul h).2, fun h => oneLine_kvLine hkey ⟨s.noNul, h⟩⟩
  have hnonce : OneLine (kvLine "nonce" req.ballot.nonce.bytes) ↔ _ := hline (by decide)
  have hhash : OneLine (kvLine "hash" req.hash.bytes) ↔ _ := hline (by decide)
  have hpayload : OneLine (kvLine "payload" (hexEncode req.ballot.payload)) :=
    oneLine_kvLine (by decide) (clean_hexEncode _)
  have hfields : req.Sendable ↔ validField req.certName.bytes true = true ∧
      (req.op = .cast ∨ req.op = .update →
        (cr ∉ req.ballot.nonce.bytes ∧ lf ∉ req.ballot.nonce.bytes) ∧
          req.ballot.payload.length ≤ 159) ∧
      (req.op = .check ∨ req.op = .adminCheck →
        req.hash.bytes ≠ [] ∧ cr ∉ req.hash.bytes ∧ lf ∉ req.hash.bytes) :=
    ⟨fun h => ⟨h.certName, h.ballot, h.hash⟩, fun h => ⟨h.1, h.2.1, h.2.2⟩⟩
  rw [hfields, and_congr_right_iff]
  intro _
  cases h : req.op with
  | create | adminNextId => simp [h, BclOp.isRouted] at hop
  | cast | update => simp [Complete, requestTexts, h, hnonce, hpayload]
  | check | adminCheck => simp [Complete, requestTexts, h, hhash, and_comm]
  | _ => simp [Complete, requestTexts, h]

lemma received_eq (hop : req.op.isRouted = true) (hid : RouteSafe req.electionId.bytes)
    (hsend : req.Sendable) : received req = some req.essence := by
  obtain ⟨hvalid, hne, h47⟩ := routeSafe_iff.mp hid
  obtain ⟨hcert, htexts, hcomplete⟩ := (sendable_iff hop).mp hsend
  have hreq : req.Encodable := ⟨hvalid, hcert, htexts⟩
  refine (received_eq_some_iff hop).mpr ⟨hreq, ?_⟩
  rw [bclDecodeRequest_parsed hop hreq, (pathElectionId_eq_some_iff hop).mpr ⟨hne, h47⟩,
    bind_some, if_pos hcomplete, ← essence_electionId req]

lemma routeSafe_of_received (hop : req.op.isRouted = true) {req' : BclRequest}
    (h : received req = some req') (hid : req'.electionId = req.electionId) :
    RouteSafe req.electionId.bytes ∧ req.Sendable := by
  obtain ⟨hreq, hdecode⟩ := (received_eq_some_iff hop).mp h
  rw [bclDecodeRequest_parsed hop hreq] at hdecode
  obtain ⟨id, hpath, hbody⟩ := bind_eq_some_iff.mp hdecode
  split_ifs at hbody with hcomplete
  obtain rfl := some.inj hbody
  have hsame : id = req.electionId := hid
  obtain ⟨hne, h47⟩ := (pathElectionId_eq_some_iff hop).mp (hsame ▸ hpath)
  exact ⟨routeSafe_iff.mpr ⟨hreq.id, hne, h47⟩,
    (sendable_iff hop).mpr ⟨hreq.certName, hreq.texts, hcomplete⟩⟩

/-- **Routing.**  The daemon receives a request for the election the client named exactly if the
id is printable and has no slash, and the other fields of the request come through. -/
theorem routed_iff (req : BclRequest) (hop : req.op.isRouted = true) :
    (∃ req', received req = some req' ∧ req'.op = req.op ∧ req'.electionId = req.electionId) ↔
      RouteSafe req.electionId.bytes ∧ req.Sendable := by
  constructor
  · rintro ⟨req', hrecv, -, hid⟩
    exact routeSafe_of_received hop hrecv hid
  · rintro ⟨hid, hsend⟩
    exact ⟨req.essence, received_eq hop hid hsend, essence_op req, essence_electionId req⟩

def plainRequest (op : BclOp) (id : String) : BclRequest :=
  ⟨op, default, .ofBytes (ascii id), default, default, default⟩

theorem plain_id_routed : ∃ req', received (plainRequest .opening "E-101") = some req' ∧
    req'.op = .opening ∧ req'.electionId = .ofBytes (ascii "E-101") :=
  (routed_iff (plainRequest .opening "E-101") rfl).mpr
    ⟨by decide +kernel, ⟨by decide +kernel, by decide, by decide⟩⟩

/-- An election with a slash in its id is created, and then opening it opens another one; an
election with a blank in its id is created, and then no request for it can be encoded. -/
theorem slash_id_misrouted :
    let create (id : String) : BclRequest := { plainRequest .create id with config := smallConfig }
    (received (create "a/b") = some (create "a/b") ∧
      (ballotdDispatch direct stubCrypto (create "a/b") (World.start calm)).resp.status = .ok ∧
      received (plainRequest .opening "a/b") = some (plainRequest .opening "a")) ∧
    received (create "a b") = some (create "a b") ∧
      (ballotdDispatch direct stubCrypto (create "a b") (World.start calm)).resp.status = .ok ∧
      bclEncodeRequest 65536 (plainRequest .opening "a b") = none := by
  decide +kernel

/-! ## Ballots -/

/-- **Ballots.**  A ballot survives the wire exactly if its payload has at most 159 bytes, and the
voter's name is printable. -/
theorem ballot_survives_iff (req : BclRequest) (hop : req.op = .cast ∨ req.op = .update)
    (hid : RouteSafe req.electionId.bytes)
    (hnonce : cr ∉ req.ballot.nonce.bytes ∧ lf ∉ req.ballot.nonce.bytes) :
    (∃ req', received req = some req' ∧ req'.op = req.op ∧ req'.electionId = req.electionId ∧
      req'.ballot.nonce = req.ballot.nonce ∧ req'.ballot.payload = req.ballot.payload) ↔
      req.ballot.payload.length ≤ 159 ∧ validField req.certName.bytes true = true := by
  have hrouted : req.op.isRouted = true := by rcases hop with h | h <;> rw [h] <;> rfl
  have hballot : req.essence.ballot = { req.ballot with certName := req.certName } := by
    rcases hop with h | h <;> simp [BclRequest.essence, h]
  constructor
  · rintro ⟨req', hrecv, -, hsame, -⟩
    have hsend := (routeSafe_of_received hrouted hrecv hsame).2
    exact ⟨(hsend.ballot hop).2, hsend.certName⟩
  · rintro ⟨hlen, hcert⟩
    have hcheck : ¬ (req.op = .check ∨ req.op = .adminCheck) := by
      rcases hop with h | h <;> simp [h]
    have hsend : req.Sendable := ⟨hcert, fun _ => ⟨hnonce, hlen⟩, fun h => absurd h hcheck⟩
    exact ⟨req.essence, received_eq hrouted hid hsend, essence_op req, essence_electionId req,
      by rw [hballot], by rw [hballot]⟩

def castOf (n : ℕ) (h : n ≤ bbCiphertextMax) : BclRequest :=
  { plainRequest .cast "E-101" with
    ballot := ⟨default, .ofBytes (ascii "n1"), List.replicate n 255, by simpa using h⟩ }

theorem short_ballot_survives : ∃ req', received (castOf 159 (by decide)) = some req' ∧
    req'.op = .cast ∧ req'.electionId = .ofBytes (ascii "E-101") ∧
    req'.ballot.nonce = .ofBytes (ascii "n1") ∧ req'.ballot.payload = List.replicate 159 255 :=
  (ballot_survives_iff (castOf 159 (by decide)) (by decide) (by decide +kernel)
    (by decide +kernel)).mpr ⟨by simp [castOf], by decide +kernel⟩

/-- A payload of 160 bytes is encoded, and refused by the decoder. -/
theorem long_ballot_refused : (bclEncodeRequest 65536 (castOf 160 (by decide))).isSome = true ∧
    received (castOf 160 (by decide)) = none := by
  decide +kernel

end BallotBox