import BallotBox.Construction.Session
import BallotBox.Properties.SerializedMessages
import BallotBox.Properties.Support.Responses

/-!
# Responses over the wire and back

The daemon encodes a response, the client parses the frame and decodes it.  What a client reads is
the fold of `response_kv` over the fields the operation carries (`decoded_encoded`).
-/

namespace BallotBox

open CStr List

variable {cap : ℕ} {date : HtttpDate} {r : BbResult} {name frame : Bytes}

/-! ## Frames -/

/-- The `Date` header. -/
def HtttpDate.header (date : HtttpDate) : HtttpHeader :=
  ⟨.ofBytes (ascii "Date"), .ofBytes date.text.bytes⟩

lemma HtttpDate.header_plain (date : HtttpDate) : date.header.Plain := by
  have hkey : ascii "Date" ≠ [] ∧ validField (ascii "Date") false = true ∧
      (58 : UInt8) ∉ ascii "Date" ∧ ciEq (ascii "Date") (ascii "Content-Length") = false := by
        decide
  rw [← dateKey_bytes] at hkey
  exact ⟨hkey.1, hkey.2.1, (dateValue_bytes date.text).symm ▸ date.printable, hkey.2.2.1,
    hkey.2.2.2⟩

theorem htttpParseResponse_serialized {status : ℕ} {body out : Bytes}
    (hcap : cap < 2 ^ 32) (h : htttpSerializeResponse cap date.text ⟨status, [], body⟩ = .ok out) :
    ∃ headers, htttpParseResponse out = .ok ⟨status, headers, body⟩ := by
  obtain ⟨reason, hreason, -, hbody, rfl⟩ := frame_of_serializeResponse h
  have hheaders : responseHeaders date.text ⟨status, [], body⟩ = [date.header] := rfl
  have hcount : ([date.header] ++ lengthHeaders body).length ≤ htttpMaxHeaders := by
    have hone := length_lengthHeaders_le body
    simp only [length_append, length_singleton, htttpMaxHeaders]
    omega
  have htail := parseTail_eq (forall_mem_singleton.mpr date.header_plain) hcount
    (hbody.trans_lt hcap)
  rw [hheaders]
  exact ⟨_, htttpParseResponse_line hreason htail⟩

/-! ## Bodies -/

/-- The fields of a response to a voter. -/
def voterFields (op : BclOp) (resp : BclResponse) : List (String × Bytes) :=
  match op with
  | .join =>
    if resp.election.id.bytes = [] then []
    else
      [("election_id", resp.election.id.bytes), ("title", resp.election.title.bytes),
        ("state", bbStateStr resp.election.state), ("open_time", resp.election.openTime.bytes),
        ("close_time", resp.election.closeTime.bytes),
        ("has_prior_ballot", fmtInt (flag resp.hasPriorBallot)),
        ("prior_ballot_version", fmtInt resp.priorBallotVersion)] ++
      (resp.election.options.toList.take resp.election.optionCount).map fun o => ("option", o.bytes)
  | .cast | .update =>
    if resp.receipt.hash.bytes = [] then []
    else [("hash", resp.receipt.hash.bytes), ("issued_at", resp.receipt.issuedAt.bytes)]
  | .check =>
    ("found", fmtInt (flag resp.found)) ::
    if resp.found then
      [("found_option", fmtInt resp.foundOption), ("found_option_name", resp.foundOptionName.bytes)]
    else []
  | _ => []

/-- The tally, separated by commas. -/
def tallyValue (tally : List ℤ) : Bytes := [44].intercalate (tally.map fmtInt)

/-- The value of a row line. -/
def rowValue (h : BbBallotHash) : Bytes :=
  h.hash.bytes ++ [44] ++ fmtInt h.optionIndex ++ [44] ++ fmtInt h.version ++ [44] ++
    fmtInt h.superseded

/-- The fields of a results response. -/
def resultFields (resp : BclResponse) : List (String × Bytes) :=
  [("election_id", resp.election.id.bytes), ("title", resp.election.title.bytes),
    ("tally_count", fmtInt resp.optionCount)] ++
  (if resp.optionCount = 0 then []
    else ("tally", tallyValue (resp.tally.toList.take resp.optionCount)) ::
      (resp.options.toList.take resp.optionCount).map fun o => ("result_option", o.bytes)) ++
  ("hash_count", fmtInt resp.hashes.length) :: resp.hashes.map fun h => ("row", rowValue h)

/-- The fields that an operation carries. -/
def responseFields (op : BclOp) (resp : BclResponse) : List (String × Bytes) :=
  match op with
  | .create | .adminNextId =>
    if resp.election.id.bytes = [] then [] else [("election_id", resp.election.id.bytes)]
  | .opening | .close | .publish => []
  | .join | .cast | .update | .check => voterFields op resp
  | .adminCheck => voterFields .check resp
  | .results | .adminResults => resultFields resp

variable {op : BclOp} {resp : BclResponse}

lemma flatten_tallyTexts (t : ℤ) (ts : List ℤ) :
    (tallyTexts (t :: ts)).flatten = tallyValue (t :: ts) := by
  rw [tallyValue, map_cons, intercalate_cons_eq, tallyTexts, flatten_cons, flatMap_map, flatMap_def]
  rfl

lemma tallyLine_eq (tally : List ℤ) (hne : tally ≠ []) :
    ascii "tally=" ++ ((tallyTexts tally).flatten ++ [lf]) = kvLine "tally" (tallyValue tally) := by
  obtain ⟨t, ts, rfl⟩ := exists_cons_of_ne_nil hne
  rw [flatten_tallyTexts]
  rfl

lemma flatten_responseTexts :
    (responseTexts op resp).flatten = bodyOf (responseFields op resp) := by
  cases op with
  | create | adminNextId =>
    simp only [responseTexts, responseFields]
    split_ifs <;> simp [bodyOf]
  | opening | close | publish => rfl
  | join =>
    simp only [responseTexts, responseFields, voterFields, bodyOf]
    split_ifs
    · rfl
    · rw [map_append, map_map]
      rfl
  | cast | update =>
    simp only [responseTexts, responseFields, voterFields]
    split_ifs <;> simp [bodyOf]
  | check | adminCheck =>
    simp only [responseTexts, responseFields, voterFields]
    split_ifs <;> simp [bodyOf]
  | results | adminResults =>
    have hrows : resp.hashes.map rowLine =
        (resp.hashes.map fun h => ("row", rowValue h)).map fun kv => kvLine kv.1 kv.2 := by
      rw [map_map]
      rfl
    simp only [responseTexts, responseFields, resultFields, bodyOf, hrows]
    by_cases hcount : resp.optionCount = 0
    · simp [hcount]
    · have htally : resp.tally.toList.take resp.optionCount ≠ [] := by
        simpa using hcount
      simp [hcount, ← tallyLine_eq _ htally, Function.comp_def]

lemma Clean.flatMap {f : Bytes → Bytes} {l : List Bytes} (h : ∀ x ∈ l, Clean (f x)) :
    Clean (l.flatMap f) := by
  simp only [Clean, mem_flatMap, not_exists, not_and]
  exact ⟨fun x hx => (h x hx).1, fun x hx => (h x hx).2.1, fun x hx => (h x hx).2.2⟩

lemma tallyValue_readable {tally : List ℤ} (h : tally.length ≤ bbMaxOptions) :
    Clean (tallyValue tally) ∧ (tallyValue tally).length ≤ 319 := by
  cases tally with
  | nil => decide
  | cons t ts =>
    have hlen := length_tallyTexts (t :: ts) h
    rw [flatten_tallyTexts] at hlen
    refine ⟨?_, hlen.trans (by norm_num)⟩
    rw [tallyValue, map_cons, intercalate_cons_eq]
    refine (clean_fmtInt t).append (Clean.flatMap ?_)
    rw [forall_mem_map]
    exact fun n _ => (by decide : Clean [44]).append (clean_fmtInt n)

lemma rowValue_readable {h : BbBallotHash} (hhash : Clean h.hash.bytes) :
    Clean (rowValue h) ∧ (rowValue h).length ≤ 319 := by
  have hcomma : Clean [44] := by decide
  have hlen := length_rowLine_le h
  rw [rowLine, length_kvLine] at hlen
  refine ⟨(((((hhash.append hcomma).append (clean_fmtInt _)).append hcomma).append
    (clean_fmtInt _)).append hcomma).append (clean_fmtInt _), ?_⟩
  unfold rowValue
  omega

lemma fmtInt_readable (n : ℤ) : Clean (fmtInt n) ∧ (fmtInt n).length ≤ 319 :=
  ⟨clean_fmtInt n, (length_fmtInt_le n).trans (by norm_num)⟩

lemma CStr.readable {cap : ℕ} {s : CStr cap} (hclean : Clean s.bytes)
    (hcap : cap - 1 ≤ 319 := by norm_num) : Clean s.bytes ∧ s.bytes.length ≤ 319 :=
  ⟨hclean, s.fits.trans hcap⟩

lemma voterFields_readable (h : resp.Printable) :
    ∀ kv ∈ voterFields op resp, PlainKey kv.1 ∧ Clean kv.2 ∧ kv.2.length ≤ 319 := by
  have hstate : Clean (bbStateStr resp.election.state) ∧
      (bbStateStr resp.election.state).length ≤ 319 := by
    cases resp.election.state <;> decide
  have hoptions : ∀ kv ∈ (resp.election.options.toList.take resp.election.optionCount).map
      (fun o => ("option", o.bytes)), PlainKey kv.1 ∧ Clean kv.2 ∧ kv.2.length ≤ 319 := by
    rw [forall_mem_map]
    intro o ho
    exact ⟨(by decide : PlainKey "option"),
      readable (h.electionOptions o (mem_of_mem_take ho))⟩
  unfold voterFields
  cases op with
  | join =>
    dsimp only
    split_ifs
    · simp
    · rw [forall_mem_append]
      refine ⟨?_, hoptions⟩
      simp only [forall_mem_cons]
      exact ⟨⟨by decide, readable h.id⟩, ⟨by decide, readable h.title⟩,
        ⟨by decide, hstate⟩, ⟨by decide, readable h.openTime⟩,
        ⟨by decide, readable h.closeTime⟩, ⟨by decide, fmtInt_readable _⟩,
          ⟨by decide, fmtInt_readable _⟩,
        by simp⟩
  | cast | update =>
    dsimp only
    split_ifs
    · simp
    · simp only [forall_mem_cons]
      exact ⟨⟨by decide, readable h.hash⟩, ⟨by decide, readable h.issuedAt⟩, by simp⟩
  | check =>
    simp only [forall_mem_cons]
    refine ⟨⟨by decide, fmtInt_readable _⟩, ?_⟩
    split_ifs
    · simp only [forall_mem_cons]
      exact ⟨⟨by decide, fmtInt_readable _⟩, ⟨by decide, readable h.foundOptionName⟩, by simp⟩
    · simp
  | _ => simp

lemma responseFields_readable (h : resp.Printable) :
    ∀ kv ∈ responseFields op resp, PlainKey kv.1 ∧ Clean kv.2 ∧ kv.2.length ≤ 319 := by
  cases op with
  | create | adminNextId =>
    simp only [responseFields]
    split_ifs
    · simp
    · rw [forall_mem_singleton]
      exact ⟨(by decide : PlainKey "election_id"), readable h.id⟩
  | opening | close | publish => simp [responseFields]
  | join => exact @voterFields_readable .join resp h
  | cast => exact @voterFields_readable .cast resp h
  | update => exact @voterFields_readable .update resp h
  | check | adminCheck => exact @voterFields_readable .check resp h
  | results | adminResults =>
    simp only [responseFields, resultFields, forall_mem_append, forall_mem_cons, forall_mem_map]
    refine ⟨⟨⟨⟨by decide, readable h.id⟩, ⟨by decide, readable h.title⟩,
      ⟨by decide, fmtInt_readable _⟩, by simp⟩, ?_⟩, ⟨by decide, fmtInt_readable _⟩,
      fun row hrow => ⟨by decide, rowValue_readable (h.hashes row hrow)⟩⟩
    split_ifs
    · simp
    · rw [forall_mem_cons, forall_mem_map]
      refine ⟨⟨(by decide : PlainKey "tally"), tallyValue_readable (by simp)⟩, fun o ho => ?_⟩
      exact ⟨(by decide : PlainKey "result_option"),
        readable (h.options o (mem_of_mem_take ho))⟩

/-! ## Decoding -/

/-- The decoder after the status line. -/
def RespCtx.ofStatus (status : BbResult) : RespCtx :=
  { (default : RespCtx) with
    resp := { (default : BclResponse) with status := status }
    statusValid := true }

lemma resultFromName_nameFromResult
    (h : nameFromResult r = some name) : resultFromName name = some r := by
  cases r with
  | ok =>
    cases h
    decide
  | err e => cases e <;> cases h <;> decide

lemma responseKv_status (c : RespCtx) (h : nameFromResult r = some name) :
    responseKv c (ascii "status", name) =
      { c with resp := { c.resp with status := r }, statusValid := true } := by
  unfold responseKv
  dsimp only
  rw [if_pos rfl, resultFromName_nameFromResult h]

lemma responseKv_row (c : RespCtx) (v : Bytes) : responseKv c (ascii "row", v) =
      if c.resp.hashes.length < bbMaxVoters then
        (scanRow v).elim c fun h =>
          { c with resp := { c.resp with hashes := c.resp.hashes ++ [h] } }
      else c := by
  unfold responseKv
  dsimp only
  cases scanRow v with
  | none => rfl
  | some h => rfl

/-- The decoder after all lines. -/
def responseCtx (op : BclOp) (resp : BclResponse) : RespCtx :=
  ((responseFields op resp).map fun kv => (ascii kv.1, kv.2)).foldl responseKv
    (.ofStatus resp.status)

lemma statusValid_ite {p : Prop} [Decidable p] {c c' : RespCtx} (h : c.statusValid = true)
    (h' : c'.statusValid = true) : (if p then c else c').statusValid = true := by
  split
  · exact h
  · exact h'

lemma responseKv_statusValid (c : RespCtx) (kv : Bytes × Bytes) (h : c.statusValid = true) :
    (responseKv c kv).statusValid = true := by
  unfold responseKv
  repeat' apply statusValid_ite
  all_goals first
    | exact h
    | (split <;> first | exact h | rfl)

lemma responseCtx_statusValid (op : BclOp) (resp : BclResponse) :
    (responseCtx op resp).statusValid = true := by
  have hstart : (RespCtx.ofStatus resp.status).statusValid = true := rfl
  exact List.foldlRecOn _ responseKv hstart fun c hc kv _ => responseKv_statusValid c kv hc

/-- **Replies.** A frame with a response is parsed into a message with its body, which is decoded as
the operation's fields. -/
theorem decoded_encoded (hcap : cap < 2 ^ 32)
    (h : resp.Printable) (henc : bclEncodeResponse cap date.text op resp = some frame) :
    ∃ http name, nameFromResult resp.status = some name ∧ htttpParseResponse frame = .ok http ∧
      http.body = bodyOf (("status", name) :: responseFields op resp) ∧
      bclDecodeResponse http = some (responseCtx op resp).clamp := by
  obtain ⟨name, hname, henc⟩ := Option.bind_eq_some_iff.mp henc
  obtain ⟨hbody, -⟩ := bodyAppendAll_response op h hname
  rw [hbody, Option.bind_eq_bind, Option.bind_some] at henc
  have hlines :
      responseBody name op resp = bodyOf (("status", name) :: responseFields op resp) := by
    rw [responseBody, flatten_responseTexts]
    rfl
  have hkvs : bodyKvs (responseBody name op resp) =
      (ascii "status", name) :: (responseFields op resp).map fun kv => (ascii kv.1, kv.2) := by
    obtain ⟨hclean, hlen⟩ := clean_of_nameFromResult hname
    rw [hlines, bodyKvs_lines, map_cons]
    rw [forall_mem_cons]
    exact ⟨⟨(by decide : PlainKey "status"), hclean, hlen.trans (by norm_num)⟩,
      responseFields_readable h⟩
  cases hout : htttpSerializeResponse cap date.text
      ⟨bclHttpStatus resp.status, [], responseBody name op resp⟩ with
  | error e => simp [hout, Except.toOption] at henc
  | ok out =>
    obtain rfl : out = frame := by simpa [hout, Except.toOption] using henc
    obtain ⟨headers, hparse⟩ := htttpParseResponse_serialized hcap hout
    refine ⟨_, name, hname, hparse, hlines, ?_⟩
    simp only [bclDecodeResponse, hkvs, foldl_cons]
    rw [responseKv_status _ hname]
    exact if_pos (responseCtx_statusValid op resp)

/-! ## What the client learns -/

lemma atoi_fmtInt (n : ℤ) : atoi (fmtInt n) = wrap32 n := by
  obtain ⟨hlower, hupper⟩ := wrap32_range n
  exact JInt.atoi_render ⟨wrap32 n, hlower, hupper⟩

section Lines

variable (c : RespCtx) (v : Bytes)

lemma responseKv_electionId : responseKv c (ascii "election_id", v) =
    { c with resp := { c.resp with election := { c.resp.election with id := .ofBytes v } } } := rfl

lemma responseKv_title : responseKv c (ascii "title", v) =
    { c with resp :=
      { c.resp with election := { c.resp.election with title := .ofBytes v } } } := rfl

lemma responseKv_openTime : responseKv c (ascii "open_time", v) =
    { c with resp :=
      { c.resp with election := { c.resp.election with openTime := .ofBytes v } } } :=
  rfl

lemma responseKv_closeTime : responseKv c (ascii "close_time", v) =
    { c with resp :=
      { c.resp with election := { c.resp.election with closeTime := .ofBytes v } } } :=
  rfl

lemma responseKv_option : responseKv c (ascii "option", v) =
    { c with resp := { c.resp with election := c.resp.election.addOption v } } := rfl

lemma responseKv_hash : responseKv c (ascii "hash", v) =
    { c with resp := { c.resp with receipt := { c.resp.receipt with hash := .ofBytes v } } } := rfl

lemma responseKv_issuedAt : responseKv c (ascii "issued_at", v) =
    { c with resp :=
      { c.resp with receipt := { c.resp.receipt with issuedAt := .ofBytes v } } } := rfl

lemma responseKv_state (s : BbState) : responseKv c (ascii "state", bbStateStr s) =
    { c with resp := { c.resp with election := { c.resp.election with state := s } } } := by
  cases s <;> rfl

lemma responseKv_hasPriorBallot (b : Bool) :
    responseKv c (ascii "has_prior_ballot", fmtInt (flag b)) =
      { c with resp := { c.resp with hasPriorBallot := b } } := by
  cases b <;> rfl

lemma responseKv_priorBallotVersion (n : ℤ) :
    responseKv c (ascii "prior_ballot_version", fmtInt n) =
      { c with resp := { c.resp with priorBallotVersion := wrap32 n } } := by
  rw [← atoi_fmtInt]
  rfl

end Lines

lemma foldl_responseKv_options (c : RespCtx) (options : List (CStr bbOptionLen)) :
    ((options.map fun o => ("option", o.bytes)).map fun kv =>
      (ascii kv.1, kv.2)).foldl responseKv c =
      { c with resp := { c.resp with
        election := options.foldl (fun e o => e.addOption o.bytes) c.resp.election } } := by
  induction options generalizing c with
  | nil => rfl
  | cons o options ih =>
    rw [map_cons, map_cons, foldl_cons, responseKv_option, ih, foldl_cons]

end BallotBox
