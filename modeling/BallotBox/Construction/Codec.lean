import BallotBox.Construction.Htttp
import BallotBox.Construction.Types

/-!
# The request and response codec

`libballotclient/codec.c`: how a `bcl_request_t` and a `bcl_response_t` travel as HTTTP messages.
Both bodies are lines `key=value`; `bodyAppend` is the only way a string gets into one and refuses
a string that would break its line, and `bodyKvs` reads the lines back in order.
-/

namespace BallotBox

/-! ## Names -/

/-- The operations in the order of `OP_NAMES`. -/
def bclOps : List BclOp :=
  [.join, .cast, .update, .results, .check, .create, .opening, .close, .publish, .adminResults,
    .adminCheck, .adminNextId]

def methodFromOp : BclOp → Bytes
  | .join => ascii "JOIN"
  | .cast => ascii "CAST"
  | .update => ascii "UPDATE"
  | .results => ascii "RESULTS"
  | .check => ascii "CHECK"
  | .create => ascii "CREATE"
  | .opening => ascii "OPEN"
  | .close => ascii "CLOSE"
  | .publish => ascii "PUBLISH"
  | .adminResults => ascii "ADMIN_RESULTS"
  | .adminCheck => ascii "ADMIN_CHECK"
  | .adminNextId => ascii "ADMIN_NEXT_ID"

def opFromMethod (m : Bytes) : Option BclOp := bclOps.find? fun op => methodFromOp op = m

/-- `name_from_result`; `RESULT_NAMES` has no entry for `BB_ERR_RETRY`. -/
def nameFromResult : BbResult → Option Bytes
  | .ok => some (ascii "BB_OK")
  | .err .configTitle => some (ascii "BB_ERR_CONFIG_TITLE")
  | .err .configOptions => some (ascii "BB_ERR_CONFIG_OPTIONS")
  | .err .configTime => some (ascii "BB_ERR_CONFIG_TIME")
  | .err .configIdTaken => some (ascii "BB_ERR_CONFIG_ID_TAKEN")
  | .err .illegalTransition => some (ascii "BB_ERR_ILLEGAL_TRANSITION")
  | .err .notOpen => some (ascii "BB_ERR_NOT_OPEN")
  | .err .closed => some (ascii "BB_ERR_CLOSED")
  | .err .notPublished => some (ascii "BB_ERR_NOT_PUBLISHED")
  | .err .notEligible => some (ascii "BB_ERR_NOT_ELIGIBLE")
  | .err .certInvalid => some (ascii "BB_ERR_CERT_INVALID")
  | .err .certExpired => some (ascii "BB_ERR_CERT_EXPIRED")
  | .err .badOption => some (ascii "BB_ERR_BAD_OPTION")
  | .err .replay => some (ascii "BB_ERR_REPLAY")
  | .err .decrypt => some (ascii "BB_ERR_DECRYPT")
  | .err .notFound => some (ascii "BB_ERR_NOT_FOUND")
  | .err .notJoined => some (ascii "BB_ERR_NOT_JOINED")
  | .err .db => some (ascii "BB_ERR_DB")
  | .err .notImplemented => some (ascii "BB_ERR_NOT_IMPLEMENTED")
  | .err .retry => none

/-- The results in the order of `RESULT_NAMES`. -/
def bbResults : List BbResult :=
  [.ok, .err .configTitle, .err .configOptions, .err .configTime, .err .configIdTaken,
    .err .illegalTransition, .err .notOpen, .err .closed, .err .notPublished, .err .notEligible,
    .err .certInvalid, .err .certExpired, .err .badOption, .err .replay, .err .decrypt,
    .err .notFound, .err .notJoined, .err .db, .err .notImplemented]

def resultFromName (s : Bytes) : Option BbResult :=
  bbResults.find? fun r => nameFromResult r = some s

def stateFromName (s : Bytes) : Option BbState :=
  [BbState.draft, .opened, .closed, .published].find? fun st => bbStateStr st = s

def bclHttpStatus : BbResult → ℕ
  | .ok => 200
  | .err .configTitle | .err .configOptions | .err .configTime | .err .badOption
  | .err .decrypt => 400
  | .err .notEligible | .err .certInvalid | .err .certExpired => 403
  | .err .notFound => 404
  | .err .illegalTransition | .err .notOpen | .err .closed | .err .notPublished | .err .replay
  | .err .notJoined | .err .configIdTaken => 409
  | .err .db | .err .notImplemented | .err .retry => 500

/-! ## Hexadecimal payloads -/

/-- A digit of `hex_encode`. -/
def nibbleChar (d : UInt8) : UInt8 := (ascii "0123456789abcdef").getD d.toNat 48

def hexEncode (src : Bytes) : Bytes :=
  src.flatMap fun c : UInt8 => [nibbleChar (c >>> 4), nibbleChar (c &&& 15)]

def hexNibble (c : UInt8) : Option UInt8 :=
  if 48 ≤ c ∧ c ≤ 57 then some (c - 48)
  else if 97 ≤ c ∧ c ≤ 102 then some (c - 97 + 10)
  else if 65 ≤ c ∧ c ≤ 70 then some (c - 65 + 10)
  else none

/-- The loop of `hex_decode`: the bytes written, and whether every digit was one. -/
def hexDecodeLoop : Bytes → Bytes × Bool
  | hi :: lo :: rest =>
    match hexNibble hi, hexNibble lo with
    | some h, some l =>
      let (out, ok) := hexDecodeLoop rest
      ((h <<< 4 ||| l) :: out, ok)
    | _, _ => ([], false)
  | _ => ([], true)

/-- `hex_decode` into an array of `cap` bytes.  A bad digit leaves the bytes before it written. -/
def hexDecode (cap : ℕ) (hex : Bytes) : Bytes × Bool :=
  if hex.length % 2 ≠ 0 ∨ cap < hex.length / 2 then ([], false) else hexDecodeLoop hex

/-! ## Bodies -/

def codecBodyMax : ℕ := 8192

/-- `body_append`: a line break anywhere but at the end is refused. -/
def bodyAppend (body text : Bytes) : Option Bytes :=
  if codecBodyMax - body.length ≤ text.length then none
  else if cr ∈ text ∨ lf ∈ text.dropLast then none
  else some (body ++ text)

/-- `key=value` and a line feed. -/
def kvLine (key : String) (value : Bytes) : Bytes := ascii key ++ [61] ++ value ++ [lf]

def fmtInt (n : ℤ) : Bytes := renderInt (wrap32 n)

/-- Appends texts one after another. -/
def bodyAppendAll (body : Bytes) : List Bytes → Option Bytes
  | [] => some body
  | text :: texts => do bodyAppendAll (← bodyAppend body text) texts

/-- The key and the value of one line, if it has both. -/
def kvOfLine (line : Bytes) : Option (Bytes × Bytes) :=
  let line := if line.getLast? = some cr then line.dropLast else line
  let key := line.takeWhile (· ≠ 61)
  match line.drop key.length with
  | _ :: value => if key = [] then none else some (cstr (key.take 63), cstr (value.take 319))
  | [] => none

/-- `body_for_each`: the keys and values of a body. -/
def bodyKvs (body : Bytes) : List (Bytes × Bytes) := (body.splitOn lf).filterMap kvOfLine

/-! ## Requests -/

/-- `sscanf (path, "/election/%15[^/]", out)`. -/
def pathElectionId (path : Bytes) : Option (CStr bbIdLen) :=
  let stem := ascii "/election/"
  if stem <+: path then
    let id := ((path.drop stem.length).takeWhile (· ≠ 47)).take (bbIdLen - 1)
    if id = [] then none else some (.ofBytes id)
  else none

/-- The texts of a request body. -/
def requestTexts (req : BclRequest) : List Bytes :=
  match req.op with
  | .create =>
    (if req.electionId.bytes = [] then [] else [kvLine "election_id" req.electionId.bytes]) ++
      [kvLine "title" req.config.title.bytes, kvLine "open_time" req.config.openTime.bytes,
        kvLine "close_time" req.config.closeTime.bytes] ++
      req.config.options.map (fun o => kvLine "option" o.bytes) ++
      req.config.eligible.map (fun c => kvLine "eligible" c.bytes)
  | .cast | .update =>
    [kvLine "nonce" req.ballot.nonce.bytes, kvLine "payload" (hexEncode req.ballot.payload)]
  | .check | .adminCheck => [kvLine "hash" req.hash.bytes]
  | .opening | .close | .publish | .join | .results | .adminResults | .adminNextId => []

def requestPath (req : BclRequest) : Bytes :=
  match req.op with
  | .create => ascii "/election"
  | .opening | .close | .publish | .join | .results | .adminResults =>
    ascii "/election/" ++ req.electionId.bytes
  | .cast | .update => ascii "/election/" ++ req.electionId.bytes ++ ascii "/ballot"
  | .check | .adminCheck => ascii "/election/" ++ req.electionId.bytes ++ ascii "/check"
  | .adminNextId => ascii "/election/next-id"

/-- `bcl_encode_request` into a buffer of `cap` bytes. -/
def bclEncodeRequest (cap : ℕ) (req : BclRequest) : Option Bytes := do
  let body ← bodyAppendAll [] (requestTexts req)
  let headers ← if req.certName.bytes = [] then some []
    else (htttpHeaderSet [] (ascii "Cert-Name") req.certName.bytes).toOption
  (htttpSerializeRequest cap ⟨.ofBytes (methodFromOp req.op), .ofBytes (requestPath req), headers,
    body⟩).toOption

/-- One more option, if there is room. -/
def BbConfig.addOption (cfg : BbConfig) (v : Bytes) : BbConfig :=
  if h : cfg.options.length < bbMaxOptions then
    { cfg with options := cfg.options ++ [.ofBytes v], options_le := by simpa using h }
  else cfg

/-- One more eligible name, if there is room. -/
def BbConfig.addEligible (cfg : BbConfig) (v : Bytes) : BbConfig :=
  if h : cfg.eligible.length < bbMaxVoters then
    { cfg with eligible := cfg.eligible ++ [.ofBytes v], eligible_le := by simpa using h }
  else cfg

def createKv (req : BclRequest) : Bytes × Bytes → BclRequest
  | (k, v) =>
    if k = ascii "election_id" then { req with electionId := .ofBytes v }
    else if k = ascii "title" then { req with config := { req.config with title := .ofBytes v } }
    else if k = ascii "open_time" then
      { req with config := { req.config with openTime := .ofBytes v } }
    else if k = ascii "close_time" then
      { req with config := { req.config with closeTime := .ofBytes v } }
    else if k = ascii "option" then { req with config := req.config.addOption v }
    else if k = ascii "eligible" then { req with config := req.config.addEligible v }
    else req

/-- What a failed decode leaves of the payload that was there: its first bytes are overwritten. -/
def overlay (out payload : Bytes) : Bytes := out.take payload.length ++ payload.drop out.length

lemma length_overlay (out payload : Bytes) : (overlay out payload).length = payload.length := by
  simp [overlay]
  omega

lemma length_hexDecodeLoop (hex : Bytes) : (hexDecodeLoop hex).1.length ≤ hex.length / 2 := by
  fun_induction hexDecodeLoop hex with
  | case1 hi lo rest h hlo hhi l out ok heq ih => simp_all; omega
  | case2 hi lo rest hbad => simp
  | case3 => simp

lemma length_hexDecode_le (cap : ℕ) (hex : Bytes) : (hexDecode cap hex).1.length ≤ cap := by
  unfold hexDecode
  split_ifs with h
  · simp
  · have := length_hexDecodeLoop hex
    omega

/-- `ballot_kv`, with `got_payload`. -/
def ballotKv : BbBallot × Bool → Bytes × Bytes → BbBallot × Bool
  | (ballot, got), (k, v) =>
    if k = ascii "nonce" then ({ ballot with nonce := .ofBytes v }, got)
    else if k = ascii "payload" then
      if (hexDecode bbCiphertextMax v).2 then
        ({ ballot with payload := (hexDecode bbCiphertextMax v).1
                       payload_le := length_hexDecode_le _ _ }, true)
      else ({ ballot with payload := overlay (hexDecode bbCiphertextMax v).1 ballot.payload
                          payload_le := (length_overlay _ _).trans_le ballot.payload_le }, got)
    else (ballot, got)

def hashKv (hash : CStr bbHashLen) : Bytes × Bytes → CStr bbHashLen
  | (k, v) => if k = ascii "hash" then .ofBytes v else hash

def bclDecodeRequest (http : HtttpRequest) : Option BclRequest := do
  let op ← opFromMethod http.method.bytes
  let cert : CStr bbCertLen :=
    ((htttpHeaderGet http.headers (ascii "Cert-Name")).map fun v => .ofBytes v.bytes).getD default
  let req : BclRequest := ⟨op, cert, default, default, default, default⟩
  match op with
  | .create => return (bodyKvs http.body).foldl createKv req
  | .adminNextId => return req
  | .opening | .close | .publish | .join | .results | .adminResults =>
    return { req with electionId := ← pathElectionId http.path.bytes }
  | .cast | .update =>
    let id ← pathElectionId http.path.bytes
    let (ballot, got) := (bodyKvs http.body).foldl ballotKv
      ({ (default : BbBallot) with certName := cert }, false)
    if got then return { req with electionId := id, ballot := ballot } else none
  | .check | .adminCheck =>
    let id ← pathElectionId http.path.bytes
    let hash := (bodyKvs http.body).foldl hashKv default
    if hash.bytes ≠ [] then return { req with electionId := id, hash := hash } else none

/-! ## Responses -/

/-- The texts after `tally=`: the counts, with a comma before each but the first. -/
def tallyTexts : List ℤ → List Bytes
  | [] => []
  | t :: ts => fmtInt t :: ts.map fun t => [44] ++ fmtInt t

/-- A row of the receipt table. -/
def rowLine (h : BbBallotHash) : Bytes :=
  kvLine "row" (h.hash.bytes ++ [44] ++ fmtInt h.optionIndex ++ [44] ++ fmtInt h.version ++ [44] ++
    fmtInt h.superseded)

/-- An `int` used as a flag. -/
def flag (b : Bool) : ℤ := if b then 1 else 0

/-- The texts of a response body after the `status=` line. -/
def responseTexts (op : BclOp) (resp : BclResponse) : List Bytes :=
  match op with
  | .create | .adminNextId =>
    if resp.election.id.bytes = [] then [] else [kvLine "election_id" resp.election.id.bytes]
  | .opening | .close | .publish => []
  | .join =>
    if resp.election.id.bytes = [] then []
    else
      [kvLine "election_id" resp.election.id.bytes, kvLine "title" resp.election.title.bytes,
        kvLine "state" (bbStateStr resp.election.state),
        kvLine "open_time" resp.election.openTime.bytes,
        kvLine "close_time" resp.election.closeTime.bytes,
        kvLine "has_prior_ballot" (fmtInt (flag resp.hasPriorBallot)),
        kvLine "prior_ballot_version" (fmtInt resp.priorBallotVersion)] ++
      (resp.election.options.toList.take resp.election.optionCount).map
        fun o => kvLine "option" o.bytes
  | .cast | .update =>
    if resp.receipt.hash.bytes = [] then []
    else [kvLine "hash" resp.receipt.hash.bytes, kvLine "issued_at" resp.receipt.issuedAt.bytes]
  | .results | .adminResults =>
    [kvLine "election_id" resp.election.id.bytes, kvLine "title" resp.election.title.bytes,
      kvLine "tally_count" (fmtInt resp.optionCount)] ++
    (if resp.optionCount = 0 then []
      else [ascii "tally="] ++ tallyTexts (resp.tally.toList.take resp.optionCount) ++ [[lf]] ++
        (resp.options.toList.take resp.optionCount).map fun o => kvLine "result_option" o.bytes) ++
    [kvLine "hash_count" (fmtInt resp.hashes.length)] ++ resp.hashes.map rowLine
  | .check | .adminCheck =>
    [kvLine "found" (fmtInt (flag resp.found))] ++
    if resp.found then
      [kvLine "found_option" (fmtInt resp.foundOption),
        kvLine "found_option_name" resp.foundOptionName.bytes]
    else []

/-- The date of a response as `strftime` prints it. -/
structure HtttpDate where
  text : CStr 48
  printable : validField text.bytes true = true

/-- `bcl_encode_response` into a buffer of `cap` bytes. -/
def bclEncodeResponse (cap : ℕ) (date : CStr 48) (op : BclOp) (resp : BclResponse) :
    Option Bytes := do
  let sname ← nameFromResult resp.status
  let body ← bodyAppendAll [] (kvLine "status" sname :: responseTexts op resp)
  (htttpSerializeResponse cap date ⟨bclHttpStatus resp.status, [], body⟩).toOption

/-- What `bcl_decode_response` carries from line to line: the response, the claimed counts as they
came, and the tables as they filled. -/
structure RespCtx where
  resp : BclResponse
  optionCount : ℤ
  resultOptions : ℕ
  hashCount : ℤ
  statusValid : Bool
deriving Inhabited

/-- `%d` of `sscanf`: skips blanks and needs a digit. -/
def scanInt (s : Bytes) : Option (ℤ × Bytes) :=
  let (sign, body) := takeSign (s.dropWhile isSpace)
  if body.takeWhile isDigit = [] then none
  else some (wrap32 (sign * digitsValue (body.takeWhile isDigit)), body.dropWhile isDigit)

def scanCommaInt : Bytes → Option (ℤ × Bytes)
  | 44 :: s => scanInt s
  | _ => none

/-- `sscanf (v, "%64[^,],%d,%d,%d", …) == 4`. -/
def scanRow (v : Bytes) : Option BbBallotHash := do
  let hash := (v.takeWhile (· ≠ 44)).take 64
  if hash = [] then none
  let (opt, v) ← scanCommaInt (v.drop hash.length)
  let (ver, v) ← scanCommaInt v
  let (sup, _) ← scanCommaInt v
  return ⟨.ofBytes hash, opt, ver, sup⟩

/-- The loop that reads `tally=` into the array from index `i` on. -/
def scanTally (tally : Vector ℤ bbMaxOptions) (i : ℕ) : List Bytes → Vector ℤ bbMaxOptions
  | [] => tally
  | [p] => if p = [] then tally else tally.setIfInBounds i (atoi p)
  | p :: ps => scanTally (tally.setIfInBounds i (atoi p)) (i + 1) ps

/-- One more option of an election, if there is room. -/
def BbElection.addOption (e : BbElection) (v : Bytes) : BbElection :=
  if h : e.optionCount < bbMaxOptions then
    { e with options := e.options.set e.optionCount (.ofBytes v)
             optionCount := e.optionCount + 1
             optionCount_le := h }
  else e

def responseKv (c : RespCtx) : Bytes × Bytes → RespCtx
  | (k, v) =>
    let r := c.resp
    if k = ascii "status" then
      match resultFromName v with
      | some st => { c with resp := { r with status := st }, statusValid := true }
      | none => c
    else if k = ascii "election_id" then
      { c with resp := { r with election := { r.election with id := .ofBytes v } } }
    else if k = ascii "title" then
      { c with resp := { r with election := { r.election with title := .ofBytes v } } }
    else if k = ascii "state" then
      match stateFromName v with
      | some st => { c with resp := { r with election := { r.election with state := st } } }
      | none => c
    else if k = ascii "open_time" then
      { c with resp := { r with election := { r.election with openTime := .ofBytes v } } }
    else if k = ascii "close_time" then
      { c with resp := { r with election := { r.election with closeTime := .ofBytes v } } }
    else if k = ascii "has_prior_ballot" then
      { c with resp := { r with hasPriorBallot := decide (atoi v ≠ 0) } }
    else if k = ascii "prior_ballot_version" then
      { c with resp := { r with priorBallotVersion := atoi v } }
    else if k = ascii "option" then
      { c with resp := { r with election := r.election.addOption v } }
    else if k = ascii "hash" then
      { c with resp := { r with receipt := { r.receipt with hash := .ofBytes v } } }
    else if k = ascii "issued_at" then
      { c with resp := { r with receipt := { r.receipt with issuedAt := .ofBytes v } } }
    else if k = ascii "tally_count" then { c with optionCount := atoi v }
    else if k = ascii "result_option" then
      if c.resultOptions < bbMaxOptions then
        { c with resp := { r with options := r.options.setIfInBounds c.resultOptions (.ofBytes v) }
                 resultOptions := c.resultOptions + 1 }
      else c
    else if k = ascii "tally" then
      { c with resp := { r with tally := scanTally r.tally 0 (v.splitOn 44) } }
    else if k = ascii "hash_count" then { c with hashCount := atoi v }
    else if k = ascii "row" then
      if r.hashes.length < bbMaxVoters then
        match scanRow v with
        | some h => { c with resp := { r with hashes := r.hashes ++ [h] } }
        | none => c
      else c
    else if k = ascii "found" then { c with resp := { r with found := decide (atoi v ≠ 0) } }
    else if k = ascii "found_option" then { c with resp := { r with foundOption := atoi v } }
    else if k = ascii "found_option_name" then
      { c with resp := { r with foundOptionName := .ofBytes v } }
    else c

/-- The claimed counts are cut to what arrived. -/
def RespCtx.clamp (c : RespCtx) : BclResponse :=
  { c.resp with
    hashes := if c.hashCount < 0 ∨ c.resp.hashes.length < c.hashCount then c.resp.hashes
      else c.resp.hashes.take c.hashCount.toNat
    optionCount := if c.optionCount < 0 ∨ bbMaxOptions < c.optionCount then c.resultOptions
      else c.optionCount.toNat }

def bclDecodeResponse (http : HtttpResponse) : Option BclResponse :=
  let c := (bodyKvs http.body).foldl responseKv default
  if c.statusValid then some c.clamp else none

end BallotBox
