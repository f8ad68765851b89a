import BallotBox.Construction.Rows

/-!
# The six tables and the statements that touch them

The schema at the top of `libballotbrain/db.c`.  A table is a list of rows; a select may return them
in any order (`RowOrder`).  A string column holds one-line text, an `int` column a 32-bit value.
-/

namespace BallotBox

/-! ## Rows -/

/-- `election(seq int, id string, title string, state string, open_time string, close_time
string)`. -/
structure ElectionRow where
  seq : JInt
  id : Text
  title : Text
  state : Text
  openTime : Text
  closeTime : Text
deriving DecidableEq

/-- `election_option(election_id string, idx int, name string)`. -/
structure OptionRow where
  electionId : Text
  idx : JInt
  name : Text
deriving DecidableEq

/-- `election_eligible(election_id string, cert_name string)`. -/
structure EligibleRow where
  electionId : Text
  certName : Text
deriving DecidableEq

/-- `ballot(election_id string, hash string, option_index int, version int, superseded int)`. -/
@[ext] structure BallotRow where
  electionId : Text
  hash : Text
  optionIndex : JInt
  version : JInt
  superseded : JInt
deriving DecidableEq

/-- `ballot_owner(election_id string, cert_name string, hash string, version int)`. -/
structure OwnerRow where
  electionId : Text
  certName : Text
  hash : Text
  version : JInt
deriving DecidableEq

/-- `nonce(election_id string, nonce string)`. -/
structure NonceRow where
  electionId : Text
  nonce : Text
deriving DecidableEq

/-- The contents of the six tables. -/
structure Tables where
  elections : List ElectionRow
  options : List OptionRow
  eligibles : List EligibleRow
  ballots : List BallotRow
  owners : List OwnerRow
  nonces : List NonceRow
deriving DecidableEq

def Tables.empty : Tables := ⟨[], [], [], [], [], []⟩

/-! ## Statements -/

/-- The statements the daemon sends. -/
inductive Stmt
  | setTransaction
  | commit
  | rollback
  | insertElection (seq id title state openTime closeTime : Bytes)
  | insertOption (electionId idx name : Bytes)
  | insertEligible (electionId certName : Bytes)
  | insertBallot (electionId hash optionIndex version superseded : Bytes)
  | insertOwner (electionId certName hash version : Bytes)
  | insertNonce (electionId nonce : Bytes)
  | deleteElection (id : Bytes)
  | deleteBallot (electionId hash : Bytes)
  | deleteOwner (electionId certName : Bytes)
  /-- `select seq, id, title, state, open_time, close_time from election where id = ..` -/
  | selectElection (id : Bytes)
  /-- `select seq, title, open_time, close_time from election where id = ..` -/
  | selectElectionRest (id : Bytes)
  /-- `select idx, name from election_option where election_id = ..` -/
  | selectOptions (electionId : Bytes)
  /-- `select cert_name from election_eligible where election_id = ..` -/
  | selectEligible (electionId : Bytes)
  /-- `select option_index, version from ballot where election_id = .. and hash = ..` -/
  | selectBallot (electionId hash : Bytes)
  /-- `select option_index from ballot where election_id = .. and superseded = 0` -/
  | selectTally (electionId : Bytes)
  /-- `select hash, option_index, version, superseded from ballot where election_id = .. and
  superseded = 0` -/
  | selectHashes (electionId : Bytes)
  /-- The same with `and hash = ..`. -/
  | selectHash (electionId hash : Bytes)
  /-- `select nonce from nonce where election_id = .. and nonce = ..` -/
  | selectNonce (electionId nonce : Bytes)
  /-- `select hash, version from ballot_owner where election_id = .. and cert_name = ..` -/
  | selectPrior (electionId certName : Bytes)
  /-- `select max(seq) from election` -/
  | selectMaxSeq
deriving DecidableEq

namespace Stmt

/-- The texts a statement is built from. -/
def parts : Stmt → List Bytes
  | setTransaction | commit | rollback | selectMaxSeq => []
  | insertElection seq id title state openTime closeTime =>
    [seq, id, title, state, openTime, closeTime]
  | insertOption eid idx name => [eid, idx, name]
  | insertEligible eid cert => [eid, cert]
  | insertBallot eid hash opt ver sup => [eid, hash, opt, ver, sup]
  | insertOwner eid cert hash ver => [eid, cert, hash, ver]
  | insertNonce eid nonce => [eid, nonce]
  | deleteElection id => [id]
  | deleteBallot eid hash => [eid, hash]
  | deleteOwner eid cert => [eid, cert]
  | selectElection id | selectElectionRest id => [id]
  | selectOptions eid | selectEligible eid | selectTally eid | selectHashes eid => [eid]
  | selectBallot eid hash | selectHash eid hash => [eid, hash]
  | selectNonce eid nonce => [eid, nonce]
  | selectPrior eid cert => [eid, cert]

/-- `strpbrk (sql, "\n\r") != NULL`: some text in the statement breaks its line. -/
def hasBreak (s : Stmt) : Bool := s.parts.any fun p => p.contains lf || p.contains cr

/-- The column names of the reply. -/
def columns : Stmt → List String
  | selectElection _ => ["election.seq", "election.id", "election.title", "election.state",
      "election.open_time", "election.close_time"]
  | selectElectionRest _ => ["election.seq", "election.title", "election.open_time",
      "election.close_time"]
  | selectOptions _ => ["election_option.idx", "election_option.name"]
  | selectEligible _ => ["election_eligible.cert_name"]
  | selectBallot _ _ => ["ballot.option_index", "ballot.version"]
  | selectTally _ => ["ballot.option_index"]
  | selectHashes _ | selectHash _ _ => ["ballot.hash", "ballot.option_index", "ballot.version",
      "ballot.superseded"]
  | selectNonce _ _ => ["nonce.nonce"]
  | selectPrior _ _ => ["ballot_owner.hash", "ballot_owner.version"]
  | selectMaxSeq => ["max (election.seq)"]
  | _ => ["null"]

/-- The header of the reply. -/
def desc (s : Stmt) : TupleDesc where
  names := s.columns.map ascii
  nonempty := by cases s <;> simp [columns]
  plain := by cases s <;> simp only [columns] <;> decide

end Stmt

/-! ## The engine on one statement -/

/-- A row with its columns as text, in the order of the select list. -/
abbrev Row := List Bytes

namespace Tables

variable (t : Tables)

/-- The rows `select seq, .. from election where id = ..` matches. -/
def electionsOf (id : Bytes) : List ElectionRow := t.elections.filter (·.id.bytes = id)

/-- The option rows of an election. -/
def optionsOf (eid : Bytes) : List OptionRow := t.options.filter (·.electionId.bytes = eid)

/-- The eligible rows of an election. -/
def eligiblesOf (eid : Bytes) : List EligibleRow := t.eligibles.filter (·.electionId.bytes = eid)

/-- The ballot rows of an election with a given hash. -/
def ballotsWith (eid hash : Bytes) : List BallotRow :=
  t.ballots.filter fun b => b.electionId.bytes = eid ∧ b.hash.bytes = hash

/-- The live ballot rows of an election. -/
def liveBallots (eid : Bytes) : List BallotRow :=
  t.ballots.filter fun b => b.electionId.bytes = eid ∧ b.superseded.val = 0

/-- The owner rows of a voter in an election. -/
def ownersOf (eid cert : Bytes) : List OwnerRow :=
  t.owners.filter fun o => o.electionId.bytes = eid ∧ o.certName.bytes = cert

/-- The rows of a nonce in an election. -/
def noncesOf (eid nonce : Bytes) : List NonceRow :=
  t.nonces.filter fun n => n.electionId.bytes = eid ∧ n.nonce.bytes = nonce

/-- The largest `seq`, if there is an election. -/
def maxSeq : Option ℤ := (t.elections.map (·.seq.val)).max?

end Tables

/-- The reply to an insert or a delete: the number of rows it touched. -/
def countReply (n : ℕ) : List Row := [[renderNat n]]

/-- The hash row of a ballot, in the order `hash, option_index, version, superseded`. -/
def BallotRow.hashRow (b : BallotRow) : Row :=
  [b.hash.bytes, b.optionIndex.render, b.version.render, b.superseded.render]

namespace Stmt

/-- The tables after a statement and its rows; `none` if the engine rejects it. Transaction
statements are the connection's affair. -/
def run (t : Tables) : Stmt → Option (Tables × List Row)
  | setTransaction | commit | rollback => some (t, [])
  | insertElection seq id title state openTime closeTime => do
    let row : ElectionRow := ⟨← JInt.parse? seq, ← Text.ofBytes? id, ← Text.ofBytes? title,
      ← Text.ofBytes? state, ← Text.ofBytes? openTime, ← Text.ofBytes? closeTime⟩
    some ({ t with elections := t.elections ++ [row] }, countReply 1)
  | insertOption eid idx name => do
    let row : OptionRow := ⟨← Text.ofBytes? eid, ← JInt.parse? idx, ← Text.ofBytes? name⟩
    some ({ t with options := t.options ++ [row] }, countReply 1)
  | insertEligible eid cert => do
    let row : EligibleRow := ⟨← Text.ofBytes? eid, ← Text.ofBytes? cert⟩
    some ({ t with eligibles := t.eligibles ++ [row] }, countReply 1)
  | insertBallot eid hash opt ver sup => do
    let row : BallotRow := ⟨← Text.ofBytes? eid, ← Text.ofBytes? hash, ← JInt.parse? opt,
      ← JInt.parse? ver, ← JInt.parse? sup⟩
    some ({ t with ballots := t.ballots ++ [row] }, countReply 1)
  | insertOwner eid cert hash ver => do
    let row : OwnerRow := ⟨← Text.ofBytes? eid, ← Text.ofBytes? cert, ← Text.ofBytes? hash,
      ← JInt.parse? ver⟩
    some ({ t with owners := t.owners ++ [row] }, countReply 1)
  | insertNonce eid nonce => do
    let row : NonceRow := ⟨← Text.ofBytes? eid, ← Text.ofBytes? nonce⟩
    some ({ t with nonces := t.nonces ++ [row] }, countReply 1)
  | deleteElection id =>
    some ({ t with elections := t.elections.filter (·.id.bytes ≠ id) },
      countReply (t.electionsOf id).length)
  | deleteBallot eid hash =>
    some ({ t with ballots := t.ballots.filter fun b =>
        ¬ (b.electionId.bytes = eid ∧ b.hash.bytes = hash) },
      countReply (t.ballotsWith eid hash).length)
  | deleteOwner eid cert =>
    some ({ t with owners := t.owners.filter fun o =>
        ¬ (o.electionId.bytes = eid ∧ o.certName.bytes = cert) },
      countReply (t.ownersOf eid cert).length)
  | selectElection id => some (t, (t.electionsOf id).map fun r =>
      [r.seq.render, r.id.bytes, r.title.bytes, r.state.bytes, r.openTime.bytes,
        r.closeTime.bytes])
  | selectElectionRest id => some (t, (t.electionsOf id).map fun r =>
      [r.seq.render, r.title.bytes, r.openTime.bytes, r.closeTime.bytes])
  | selectOptions eid => some (t, (t.optionsOf eid).map fun r => [r.idx.render, r.name.bytes])
  | selectEligible eid => some (t, (t.eligiblesOf eid).map fun r => [r.certName.bytes])
  | selectBallot eid hash =>
    some (t, (t.ballotsWith eid hash).map fun b => [b.optionIndex.render, b.version.render])
  | selectTally eid => some (t, (t.liveBallots eid).map fun b => [b.optionIndex.render])
  | selectHashes eid => some (t, (t.liveBallots eid).map BallotRow.hashRow)
  | selectHash eid hash =>
    some (t, ((t.liveBallots eid).filter (·.hash.bytes = hash)).map BallotRow.hashRow)
  | selectNonce eid nonce => some (t, (t.noncesOf eid nonce).map fun n => [n.nonce.bytes])
  | selectPrior eid cert =>
    some (t, (t.ownersOf eid cert).map fun o => [o.hash.bytes, o.version.render])
  | selectMaxSeq => some (t, t.maxSeq.toList.map fun n => [renderInt n])

end Stmt

end BallotBox
