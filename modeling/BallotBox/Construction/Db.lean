import BallotBox.Construction.Server

/-!
# The storage operations

The `run_*` functions of `libballotbrain/db.c`: each storage command as the statements it sends and
what it makes of the replies, written once for every channel.
-/

namespace BallotBox

inductive DbCmd
  | insertElection (electionId : CStr bbIdLen) (config : BbConfig)
  | getElection (electionId : CStr bbIdLen)
  | updateState (electionId : CStr bbIdLen) (newState : BbState)
  | appendBallot (electionId : CStr bbIdLen) (hashRow : BbBallotHash)
  | markSuperseded (electionId : CStr bbIdLen) (hash : CStr bbHashLen)
  | nonceMark (electionId : CStr bbIdLen) (nonce : CStr bbNonceLen)
  | setOwner (electionId : CStr bbIdLen) (certName : CStr bbCertLen) (hash : CStr bbHashLen)
      (version : ℤ)
  | getTally (electionId : CStr bbIdLen)
  | getHashes (electionId : CStr bbIdLen)
  | findHash (electionId : CStr bbIdLen) (hash : CStr bbHashLen)
  | nonceSeen (electionId : CStr bbIdLen) (nonce : CStr bbNonceLen)
  | getPriorBallot (electionId : CStr bbIdLen) (certName : CStr bbCertLen)
deriving DecidableEq

/-- `bb_db_result_t`. -/
@[ext] structure DbResult where
  found : Bool
  election : BbElection
  tally : Vector ℤ bbMaxOptions
  hashes : List BbBallotHash
  hashes_le : hashes.length ≤ bbMaxVoters
  row : BbBallotHash

instance : DecidableEq DbResult := fun _ _ => decidable_of_iff _ DbResult.ext_iff.symm

instance : Inhabited DbResult :=
  ⟨⟨false, default, Vector.replicate _ 0, [], Nat.zero_le _, default⟩⟩

def DbCmd.isWrite : DbCmd → Bool
  | .insertElection .. | .updateState .. | .appendBallot .. | .markSuperseded .. | .nonceMark ..
  | .setOwner .. => true
  | _ => false

/-! ## Helpers -/

/-- `unsafe`: the string contains a tab, a line feed or a carriage return. -/
def unsafeText (s : Bytes) : Bool := s.any fun c => c == tab || c == lf || c == cr

/-- `field_int`, through its 24-byte buffer. -/
def fieldInt (f : Bytes) : ℤ := atoi (CStr.ofBytes f : CStr 24).bytes

def parseState (text : Bytes) : Option BbState :=
  if text = ascii "DRAFT" then some .draft
  else if text = ascii "OPEN" then some .opened
  else if text = ascii "CLOSED" then some .closed
  else if text = ascii "PUBLISHED" then some .published
  else none

/-- `strrchr (s, '-') + 1`, if there is a dash. -/
def afterLastDash (s : Bytes) : Option Bytes :=
  if (45 : UInt8) ∈ s then some (s.reverse.takeWhile (· ≠ 45)).reverse else none

def idSeq (id : Bytes) : ℤ :=
  match afterLastDash id with
  | none => 0
  | some digits =>
    let (v, rest) := strtol digits
    if rest ≠ [] ∨ v < 0 then 0 else wrap32 v

/-! ## Operations -/

variable {ι : Type} (ch : Channel ι)

def runInsertElection (eid : CStr bbIdLen) (cfg : BbConfig) :
    EStateM BbErr (Link ι) DbResult := do
  if unsafeText eid.bytes || unsafeText cfg.title.bytes || unsafeText cfg.openTime.bytes ||
      unsafeText cfg.closeTime.bytes then
    throw .db
  let _ ← execStmt ch 0 (.insertElection (renderInt (idSeq eid.bytes)) eid.bytes cfg.title.bytes
    (ascii "DRAFT") cfg.openTime.bytes cfg.closeTime.bytes)
  cfg.options.zipIdx.forM fun (opt, i) => do
    if unsafeText opt.bytes then throw .db
    let _ ← execStmt ch 0 (.insertOption eid.bytes (renderInt i) opt.bytes)
  cfg.eligible.forM fun cert => do
    if unsafeText cert.bytes then throw .db
    let _ ← execStmt ch 0 (.insertEligible eid.bytes cert.bytes)
  return default

/-- Copies one row of the option select into the `options` array. -/
def placeOption (options : Vector (CStr bbOptionLen) bbMaxOptions) (fields : Row) :
    Vector (CStr bbOptionLen) bbMaxOptions :=
  match fields with
  | idx :: name :: _ =>
    if 0 ≤ fieldInt idx then options.setIfInBounds (fieldInt idx).toNat (.ofBytes name)
    else options
  | _ => options

/-- The eligible entry one row of the select yields; a row without fields leaves it empty. -/
def eligibleEntry (fields : Row) : CStr bbCertLen := .ofBytes (fields.headD [])

def runGetElection (eid : CStr bbIdLen) : EStateM BbErr (Link ι) DbResult := do
  let reply ← execStmt ch bodyMax (.selectElection eid.bytes)
  if reply.rowCount < 0 then throw .db
  if reply.rowCount = 0 then return default
  match reply.rowFields 0 with
  | some (_ :: id :: title :: state :: openTime :: closeTime :: _) =>
    match parseState (CStr.ofBytes state : CStr 16).bytes with
    | none => throw .db
    | some state =>
      let options ← execStmt ch bodyMax (.selectOptions eid.bytes)
      let optionRows := options.getD []
      let eligible ← execStmt ch bodyMax (.selectEligible eid.bytes)
      let eligibleRows := eligible.getD []
      return { (default : DbResult) with
        found := true
        election :=
          { id := .ofBytes id
            title := .ofBytes title
            state := state
            options := optionRows.foldl placeOption (Vector.replicate _ default)
            optionCount := min optionRows.length bbMaxOptions
            optionCount_le := Nat.min_le_right _ _
            eligible := (eligibleRows.take bbMaxVoters).map eligibleEntry
            eligible_le := by simp
            openTime := .ofBytes openTime
            closeTime := .ofBytes closeTime } }
  | _ => throw .db

def runUpdateState (eid : CStr bbIdLen) (newState : BbState) :
    EStateM BbErr (Link ι) DbResult := do
  let reply ← execStmt ch bodyMax (.selectElectionRest eid.bytes)
  if reply.rowCount ≤ 0 then throw .db
  match reply.rowFields 0 with
  | some (seq :: title :: openTime :: closeTime :: _) =>
    let _ ← execStmt ch 0 (.deleteElection eid.bytes)
    let _ ← execStmt ch 0 (.insertElection (CStr.ofBytes seq : CStr 24).bytes eid.bytes
      (CStr.ofBytes title : CStr bbTitleLen).bytes (bbStateStr newState)
      (CStr.ofBytes openTime : CStr bbTimeLen).bytes
      (CStr.ofBytes closeTime : CStr bbTimeLen).bytes)
    return default
  | _ => throw .db

def runAppendBallot (eid : CStr bbIdLen) (row : BbBallotHash) :
    EStateM BbErr (Link ι) DbResult := do
  let _ ← execStmt ch 0 (.insertBallot eid.bytes row.hash.bytes (renderInt row.optionIndex)
    (renderInt row.version) (renderInt row.superseded))
  return default

def runMarkSuperseded (eid : CStr bbIdLen) (hash : CStr bbHashLen) :
    EStateM BbErr (Link ι) DbResult := do
  let reply ← execStmt ch bodyMax (.selectBallot eid.bytes hash.bytes)
  if reply.rowCount ≤ 0 then throw .db
  match reply.rowFields 0 with
  | some (opt :: ver :: _) =>
    let _ ← execStmt ch 0 (.deleteBallot eid.bytes hash.bytes)
    let _ ← execStmt ch 0 (.insertBallot eid.bytes hash.bytes (CStr.ofBytes opt : CStr 24).bytes
      (CStr.ofBytes ver : CStr 24).bytes (renderInt 1))
    return default
  | _ => throw .db

def runNonceMark (eid : CStr bbIdLen) (nonce : CStr bbNonceLen) :
    EStateM BbErr (Link ι) DbResult := do
  let _ ← execStmt ch 0 (.insertNonce eid.bytes nonce.bytes)
  return default

def runSetOwner (eid : CStr bbIdLen) (cert : CStr bbCertLen) (hash : CStr bbHashLen)
    (version : ℤ) : EStateM BbErr (Link ι) DbResult := do
  let _ ← execStmt ch 0 (.deleteOwner eid.bytes cert.bytes)
  let _ ← execStmt ch 0 (.insertOwner eid.bytes cert.bytes hash.bytes (renderInt version))
  return default

/-- Counts one row of the tally select. -/
def countVote (tally : Vector ℤ bbMaxOptions) (fields : Row) : Vector ℤ bbMaxOptions :=
  match fields with
  | idx :: _ =>
    if 0 ≤ fieldInt idx then
      tally.setIfInBounds (fieldInt idx).toNat (tally[(fieldInt idx).toNat]?.getD 0 + 1)
    else tally
  | [] => tally

def runGetTally (eid : CStr bbIdLen) : EStateM BbErr (Link ι) DbResult := do
  let reply ← execStmt ch bodyMax (.selectTally eid.bytes)
  return { (default : DbResult) with
    tally := (reply.getD []).foldl countVote (Vector.replicate _ 0) }

/-- The hash row one row of a select yields. -/
def hashRowOf : Row → Option BbBallotHash
  | hash :: opt :: ver :: sup :: _ =>
    some ⟨.ofBytes hash, fieldInt opt, fieldInt ver, fieldInt sup⟩
  | _ => none

def runGetHashes (eid : CStr bbIdLen) : EStateM BbErr (Link ι) DbResult := do
  let reply ← execStmt ch bodyMax (.selectHashes eid.bytes)
  return { (default : DbResult) with
    hashes := ((reply.getD []).filterMap hashRowOf).take bbMaxVoters
    hashes_le := by simp }

def runFindHash (eid : CStr bbIdLen) (hash : CStr bbHashLen) :
    EStateM BbErr (Link ι) DbResult := do
  let reply ← execStmt ch bodyMax (.selectHash eid.bytes hash.bytes)
  if reply.rowCount ≤ 0 then return default
  match (reply.rowFields 0).bind hashRowOf with
  | some row => return { (default : DbResult) with found := true, row := row }
  | none => throw .db

def runNonceSeen (eid : CStr bbIdLen) (nonce : CStr bbNonceLen) :
    EStateM BbErr (Link ι) DbResult := do
  let reply ← execStmt ch bodyMax (.selectNonce eid.bytes nonce.bytes)
  return { (default : DbResult) with found := 0 < reply.rowCount }

/-- `run_get_prior_ballot`. -/
def runGetPriorBallot (eid : CStr bbIdLen) (cert : CStr bbCertLen) :
    EStateM BbErr (Link ι) DbResult := do
  let reply ← execStmt ch bodyMax (.selectPrior eid.bytes cert.bytes)
  if reply.rowCount ≤ 0 then return default
  match reply.rowFields 0 with
  | some (hash :: version :: _) =>
    return { (default : DbResult) with
      found := true
      row := { (default : BbBallotHash) with hash := .ofBytes hash, version := fieldInt version } }
  | _ => throw .db

def runOp : DbCmd → EStateM BbErr (Link ι) DbResult
  | .insertElection eid config => runInsertElection ch eid config
  | .updateState eid newState => runUpdateState ch eid newState
  | .appendBallot eid row => runAppendBallot ch eid row
  | .markSuperseded eid hash => runMarkSuperseded ch eid hash
  | .nonceMark eid nonce => runNonceMark ch eid nonce
  | .setOwner eid cert hash version => runSetOwner ch eid cert hash version
  | .getElection eid => runGetElection ch eid
  | .getTally eid => runGetTally ch eid
  | .getHashes eid => runGetHashes ch eid
  | .findHash eid hash => runFindHash ch eid hash
  | .nonceSeen eid nonce => runNonceSeen ch eid nonce
  | .getPriorBallot eid cert => runGetPriorBallot ch eid cert

end BallotBox
