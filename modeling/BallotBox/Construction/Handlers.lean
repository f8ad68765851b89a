import BallotBox.Construction.Brain

/-!
# The request handlers

`config.c`, `lifecycle.c`, `handlers.c` and `bb_alloc_id` of `libballotbrain`, over the storage
seam and the crypto seam.  Each handler is its source function read top to bottom; an early
return is a `throw` of the code it returns.
-/

namespace BallotBox

/-! ## Configuration -/

def strcmpLe : Bytes → Bytes → Bool
  | [], _ => true
  | _ :: _, [] => false
  | a :: s, b :: t => if a < b then true else if b < a then false else strcmpLe s t

def bbValidateConfig (config : BbConfig) : Except BbErr Unit :=
  if config.title.bytes = [] then .error .configTitle
  else if config.options.length < 2 then .error .configOptions
  else if strcmpLe config.closeTime.bytes config.openTime.bytes then .error .configTime
  else .ok ()

/-- The numeric value of an error code. -/
def BbErr.code : BbErr → ℕ
  | .configTitle => 1 | .configOptions => 2 | .configTime => 3 | .configIdTaken => 4
  | .illegalTransition => 5 | .notOpen => 6 | .closed => 7 | .notPublished => 8
  | .notEligible => 9 | .certInvalid => 10 | .certExpired => 11
  | .badOption => 12 | .replay => 13 | .decrypt => 14
  | .notFound => 15 | .notJoined => 16 | .db => 17 | .notImplemented => 18 | .retry => 19

/-! ## Lifecycle -/

/-- `bb_is_legal_transition`. -/
def bbIsLegalTransition (source target : BbState) : Bool :=
  match source with
  | .draft => target = .opened
  | .opened => target = .closed
  | .closed => target = .published
  | .published => false

variable {ι : Type} (ch : Channel ι)

def bbTransitionState (eid : CStr bbIdLen) (target : BbState) : BrainM ι PUnit := do
  let res ← dbExec ch (.getElection eid)
  if !res.found then throw .notFound
  let source := res.election.state
  if !bbIsLegalTransition source target then
    bbLog (ascii "[lifecycle] reject " ++ bbStateStr source ++ ascii " -> " ++ bbStateStr target ++
      ascii " on '" ++ eid.bytes ++ ascii "'")
    throw .illegalTransition
  let _ ← dbExec ch (.updateState eid target)

def bbPublishResults (eid : CStr bbIdLen) : BrainM ι PUnit := bbTransitionState ch eid .published

/-! ## Creating elections -/

/-- The id number after the one a `select max(seq)` reply names. -/
def nextSeq (reply : Reply) : ℤ :=
  match reply.rowFields 0 with
  | some (f :: _) =>
    let (v, rest) := strtol (CStr.ofBytes f : CStr 24).bytes
    if rest = [] ∧ 0 ≤ v then wrap32 (wrap32 v + 1) else 100
  | _ => 100

/-- `bb_alloc_id`: 100 is the first number, also when the store cannot be asked. -/
def bbAllocId : BrainM ι (CStr bbIdLen) := do
  let next := match ← attempt (onFresh ch (execStmt ch 4096 .selectMaxSeq)) with
    | .ok reply => nextSeq reply
    | .error _ => 100
  return .ofBytes (ascii "E-" ++ renderInt next)

def loadElection (eid : CStr bbIdLen) : BrainM ι BbElection := do
  let res ← dbExec ch (.getElection eid)
  if !res.found then throw .notFound
  return res.election

/-- The id `bb_create_election` will use: the desired one if it is free, or a new one. -/
def chooseId (desired : CStr bbIdLen) : BrainM ι (CStr bbIdLen) := do
  if desired.bytes = [] then bbAllocId ch
  else match ← attempt (loadElection ch desired) with
    | .ok _ =>
      bbLog (ascii "[create] rejected: id '" ++ desired.bytes ++ ascii "' already exists")
      throw .configIdTaken
    | .error .notFound => return desired
    | .error e => throw e

def bbCreateElection (config : BbConfig) (desired : CStr bbIdLen) : BrainM ι (CStr bbIdLen) := do
  match bbValidateConfig config with
  | .error e =>
    bbLog (ascii "[create] rejected config (err=" ++ renderNat e.code ++ ascii ")")
    throw e
  | .ok () =>
    let id ← chooseId ch desired
    let _ ← dbExec ch (.insertElection id config)
    return id

/-! ## Joining -/

/-- `bb_check_eligibility`. -/
def bbCheckEligibility (election : BbElection) (cert : CStr bbCertLen) : Bool :=
  election.eligible.any (·.bytes = cert.bytes)

/-- What a refused voter leaves in the log: the name presented and the list it is not on. -/
def ineligibleLines (tag eid cert : Bytes) (election : BbElection) : List Bytes :=
  (tag ++ ascii " '" ++ eid ++ ascii "': cert [" ++ cert ++ ascii "] not on the " ++
      renderNat election.eligible.length ++ ascii "-entry eligible list") ::
    election.eligible.zipIdx.map fun (entry, i) =>
      tag ++ ascii "   eligible[" ++ renderNat i ++ ascii "] = [" ++ entry.bytes ++ ascii "]"

variable (crypto : Crypto)

/-- `bb_join`, with the out-parameters of the dispatcher. -/
def bbJoin (eid : CStr bbIdLen) (cert : CStr bbCertLen) : BrainM ι PUnit := do
  let election ← loadElection ch eid
  let (status, lines) := crypto.verifyCert cert
  bbLogAll lines
  match status with
  | .invalid => throw .certInvalid
  | .expired => throw .certExpired
  | .notEligible => throw .notEligible
  | .valid =>
    if !bbCheckEligibility election cert then
      bbLogAll (ineligibleLines (ascii "[join]") eid.bytes cert.bytes election)
      throw .notEligible
    if election.state ≠ .opened then
      bbLog (ascii "[join] '" ++ eid.bytes ++ ascii "' is " ++ bbStateStr election.state ++
        ascii ", not OPEN")
      throw .notOpen
    modify fun w => { w with resp := { w.resp with election := election } }
    let prior ← dbExec ch (.getPriorBallot eid cert)
    modify fun w => { w with resp := { w.resp with
      hasPriorBallot := prior.found
      priorBallotVersion := if prior.found then prior.row.version else 0 } }

/-! ## Recording ballots -/

/-- The checks of `record_ballot_locked` that come before any write, up to the option index. -/
def admitBallot (eid : CStr bbIdLen) (ballot : BbBallot) : BrainM ι ℤ := do
  let election ← loadElection ch eid
  if election.state = .closed ∨ election.state = .published then throw .closed
  if election.state ≠ .opened then throw .notOpen
  if !bbCheckEligibility election ballot.certName then
    bbLogAll (ineligibleLines (ascii "[cast]") eid.bytes ballot.certName.bytes election)
    throw .notEligible
  let (option, lines) := crypto.decryptBallot ballot
  bbLogAll lines
  match option with
  | .error e => throw e
  | .ok optionIndex =>
    if optionIndex < 0 ∨ (election.optionCount : ℤ) ≤ optionIndex then throw .badOption
    return optionIndex

/-- `bb_issue_receipt` into the caller's receipt. -/
def issueReceipt (ballot : BbBallot) (version : ℤ) : BrainM ι BbReceipt := do
  let (receipt, lines) := crypto.issueReceipt (← get).server.clock ballot version
  bbLogAll lines
  match receipt with
  | .error e => throw e
  | .ok receipt =>
    modify fun w => { w with resp := { w.resp with receipt := receipt } }
    return receipt

/-- The writes of `record_ballot_locked`: new row, prior row superseded, owner row and nonce. -/
def writeBallot (eid : CStr bbIdLen) (ballot : BbBallot) (optionIndex : ℤ) (prior : DbResult)
    (version : ℤ) (receipt : BbReceipt) : BrainM ι PUnit := do
  let _ ← dbExec ch (.appendBallot eid ⟨receipt.hash, optionIndex, version, 0⟩)
  if prior.found then
    let _ ← dbExec ch (.markSuperseded eid prior.row.hash)
  let _ ← dbExec ch (.setOwner eid ballot.certName receipt.hash version)
  let _ ← dbExec ch (.nonceMark eid ballot.nonce)

/-- `record_ballot_locked`. -/
def recordBallotLocked (eid : CStr bbIdLen) (ballot : BbBallot) : BrainM ι PUnit := do
  let optionIndex ← admitBallot ch crypto eid ballot
  let seen ← dbExec ch (.nonceSeen eid ballot.nonce)
  if seen.found then throw .replay
  let prior ← dbExec ch (.getPriorBallot eid ballot.certName)
  let version := if prior.found then prior.row.version + 1 else 1
  let receipt ← issueReceipt crypto ballot version
  writeBallot ch eid ballot optionIndex prior version receipt

def bbTxnAttempts : ℕ := 3

/-- The retry loop of `bb_record_ballot`, with the code of the last round and the rounds left. -/
def recordLoop (eid : CStr bbIdLen) (ballot : BbBallot) (last : BbErr) : ℕ → BrainM ι PUnit
  | 0 => throw last
  | rounds + 1 => do
    bbDbBegin ch
    match ← attempt (recordBallotLocked ch crypto eid ballot) with
    | .error .retry =>
      bbDbRollback ch
      recordLoop eid ballot .retry rounds
    | .error e =>
      bbDbRollback ch
      throw e
    | .ok _ =>
      match ← attempt (bbDbCommit ch) with
      | .ok _ => return ⟨⟩
      | .error .retry => recordLoop eid ballot .retry rounds
      | .error e => throw e

def bbRecordBallot (eid : CStr bbIdLen) (ballot : BbBallot) : BrainM ι PUnit :=
  recordLoop ch crypto eid ballot .db bbTxnAttempts

/-! ## Reading results -/

def fetchResults (eid : CStr bbIdLen) (election : BbElection) : BrainM ι BbResults := do
  let tally ← dbExec ch (.getTally eid)
  let hashes ← dbExec ch (.getHashes eid)
  return { title := election.title
           tally := .ofFn fun i => if i < election.optionCount then tally.tally[i] else 0
           optionCount := election.optionCount
           options :=
             .ofFn fun i => if i < election.optionCount then election.options[i] else default
           hashes := hashes.hashes
           hashes_le := hashes.hashes_le }

def bbGetResults (eid : CStr bbIdLen) (cert : CStr bbCertLen) : BrainM ι BbResults := do
  let election ← loadElection ch eid
  if election.state ≠ .published then throw .notPublished
  if !bbCheckEligibility election cert then throw .notEligible
  fetchResults ch eid election

/-- `bb_get_results_admin`. -/
def bbGetResultsAdmin (eid : CStr bbIdLen) : BrainM ι BbResults := do
  let election ← loadElection ch eid
  if election.state ≠ .published then throw .notPublished
  fetchResults ch eid election

/-- `bb_lookup_hash`: the row and the name of its option. -/
def bbLookupHash (eid : CStr bbIdLen) (hash : CStr bbHashLen) :
    BrainM ι (BbBallotHash × CStr bbOptionLen) := do
  let election ← loadElection ch eid
  let res ← dbExec ch (.findHash eid hash)
  if !res.found then throw .notFound
  let idx := res.row.optionIndex
  return (res.row,
    if 0 ≤ idx ∧ idx < election.optionCount then election.options[idx.toNat]?.getD default
    else default)

/-! ## Dispatching requests -/

/-- Copies results into the response. -/
def fillResults (eid : CStr bbIdLen) (results : BbResults) (resp : BclResponse) : BclResponse :=
  { resp with
    election := { resp.election with id := eid, title := results.title }
    optionCount := results.optionCount
    tally := results.tally
    options := results.options
    hashes := results.hashes }

/-- The switch of `ballotd_dispatch`, except for the status. -/
def dispatchOp (req : BclRequest) : BrainM ι PUnit :=
  match req.op with
  | .create => do
    let id ← bbCreateElection ch req.config req.electionId
    modify fun w => { w with resp := { w.resp with election := { w.resp.election with id := id } } }
  | .adminNextId => do
    let id ← bbAllocId ch
    modify fun w => { w with resp := { w.resp with election := { w.resp.election with id := id } } }
  | .opening => bbTransitionState ch req.electionId .opened
  | .close => bbTransitionState ch req.electionId .closed
  | .publish => bbPublishResults ch req.electionId
  | .join => bbJoin ch crypto req.electionId req.certName
  | .cast | .update => bbRecordBallot ch crypto req.electionId req.ballot
  | .results => do
    let results ← bbGetResults ch req.electionId req.certName
    modify fun w => { w with resp := fillResults req.electionId results w.resp }
  | .adminResults => do
    let results ← bbGetResultsAdmin ch req.electionId
    modify fun w => { w with resp := fillResults req.electionId results w.resp }
  | .check | .adminCheck => do
    let (row, name) ← bbLookupHash ch req.electionId req.hash
    modify fun w => { w with resp := { w.resp with
      found := true, foundOption := row.optionIndex, foundOptionName := name } }

/-- `ballotd_dispatch`: the response starts zeroed, and the handler's result is its status. -/
def ballotdDispatch (req : BclRequest) (w : World ι) : World ι :=
  match dispatchOp ch crypto req { w with resp := default } with
  | .ok _ w' => { w' with resp := { w'.resp with status := .ok } }
  | .error e w' => { w' with resp := { w'.resp with status := .err e } }

end BallotBox
