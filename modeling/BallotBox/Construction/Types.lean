import BallotBox.Framework.Decimal

/-!
# The domain model

`libballotbrain/types.h` and the request and response records of `libballotclient/client.h`.
Strings are `CStr`s; an array with a count is a bounded list, except the options of an election,
which may have holes.
-/

namespace BallotBox

/-! ## Capacities -/

abbrev bbIdLen : ℕ := 16
abbrev bbTitleLen : ℕ := 64
abbrev bbOptionLen : ℕ := 32
abbrev bbCertLen : ℕ := 32
abbrev bbTimeLen : ℕ := 32
abbrev bbHashLen : ℕ := 65
abbrev bbNonceLen : ℕ := 33
abbrev bbMaxOptions : ℕ := 16
abbrev bbMaxVoters : ℕ := 64
abbrev bbCiphertextMax : ℕ := 256

lemma two_le_bbMaxOptions : 2 ≤ bbMaxOptions := by decide

lemma one_le_bbMaxVoters : 1 ≤ bbMaxVoters := by decide

/-! ## Enumerations -/

inductive BbState
  | draft | opened | closed | published
deriving DecidableEq, Repr, Inhabited

inductive BbCertStatus
  | invalid | expired | notEligible | valid
deriving DecidableEq, Repr

/-- The error codes of `bb_result_t`. -/
inductive BbErr
  | configTitle | configOptions | configTime | configIdTaken
  | illegalTransition | notOpen | closed | notPublished
  | notEligible | certInvalid | certExpired
  | badOption | replay | decrypt
  | notFound | notJoined | db | notImplemented | retry
deriving DecidableEq, Repr

inductive BbResult
  | ok
  | err (code : BbErr)
deriving DecidableEq, Repr, Inhabited

inductive BclOp
  | join | cast | update | results | check
  | create | opening | close | publish
  | adminResults | adminCheck | adminNextId
deriving DecidableEq, Repr

/-! ## Records -/

/-- `bb_config_t`. -/
structure BbConfig where
  title : CStr bbTitleLen
  options : List (CStr bbOptionLen)
  options_le : options.length ≤ bbMaxOptions
  eligible : List (CStr bbCertLen)
  eligible_le : eligible.length ≤ bbMaxVoters
  openTime : CStr bbTimeLen
  closeTime : CStr bbTimeLen
deriving DecidableEq

instance : Inhabited BbConfig :=
  ⟨⟨default, [], by simp, [], by simp, default, default⟩⟩

/-- `bb_election_t`. -/
structure BbElection where
  id : CStr bbIdLen
  title : CStr bbTitleLen
  state : BbState
  options : Vector (CStr bbOptionLen) bbMaxOptions
  optionCount : ℕ
  optionCount_le : optionCount ≤ bbMaxOptions
  eligible : List (CStr bbCertLen)
  eligible_le : eligible.length ≤ bbMaxVoters
  openTime : CStr bbTimeLen
  closeTime : CStr bbTimeLen
deriving DecidableEq

instance : Inhabited BbElection :=
  ⟨⟨default, default, default, Vector.replicate _ default, 0, by simp, [], by simp, default,
    default⟩⟩

/-- `bb_ballot_t`. -/
structure BbBallot where
  certName : CStr bbCertLen
  nonce : CStr bbNonceLen
  payload : Bytes
  payload_le : payload.length ≤ bbCiphertextMax
deriving DecidableEq

instance : Inhabited BbBallot := ⟨⟨default, default, [], by simp⟩⟩

/-- `bb_ballot_hash_t`. -/
structure BbBallotHash where
  hash : CStr bbHashLen
  optionIndex : ℤ
  version : ℤ
  superseded : ℤ
deriving DecidableEq, Inhabited

/-- `bb_receipt_t`. -/
structure BbReceipt where
  hash : CStr bbHashLen
  issuedAt : CStr bbTimeLen
deriving DecidableEq, Inhabited

/-- `bb_results_t`. -/
structure BbResults where
  title : CStr bbTitleLen
  tally : Vector ℤ bbMaxOptions
  optionCount : ℕ
  options : Vector (CStr bbOptionLen) bbMaxOptions
  hashes : List BbBallotHash
  hashes_le : hashes.length ≤ bbMaxVoters
deriving DecidableEq

instance : Inhabited BbResults :=
  ⟨⟨default, Vector.replicate _ 0, 0, Vector.replicate _ default, [], by simp⟩⟩

/-- `bcl_request_t`. -/
structure BclRequest where
  op : BclOp
  certName : CStr bbCertLen
  electionId : CStr bbIdLen
  ballot : BbBallot
  hash : CStr bbHashLen
  config : BbConfig
deriving DecidableEq

/-- `bcl_response_t`. -/
structure BclResponse where
  status : BbResult
  election : BbElection
  hasPriorBallot : Bool
  priorBallotVersion : ℤ
  receipt : BbReceipt
  tally : Vector ℤ bbMaxOptions
  optionCount : ℕ
  options : Vector (CStr bbOptionLen) bbMaxOptions
  hashes : List BbBallotHash
  found : Bool
  foundOption : ℤ
  foundOptionName : CStr bbOptionLen
deriving DecidableEq

instance : Inhabited BclResponse :=
  ⟨⟨default, default, false, 0, default, Vector.replicate _ 0, 0, Vector.replicate _ default, [],
    false, 0, default⟩⟩

def bbStateStr : BbState → Bytes
  | .draft => ascii "DRAFT"
  | .opened => ascii "OPEN"
  | .closed => ascii "CLOSED"
  | .published => ascii "PUBLISHED"

end BallotBox
