import BallotBox.Construction.Crypto
import BallotBox.Construction.Db

/-!
# The election logic

`libballotbrain`: the storage seam `db_exec` with its own transactions and retries, the explicit
transactions of `txn.c`, the lifecycle, and the request handlers.
-/

namespace BallotBox

variable {ι : Type}

/-- What a handler works on. -/
structure World (ι : Type) where
  server : Server
  txnConn : Option (Conn ι)
  log : List Bytes
  resp : BclResponse

/-- A handler: `BB_OK` with a value, or an error code. -/
abbrev BrainM (ι : Type) := EStateM BbErr (World ι)

def bbLog (line : Bytes) : BrainM ι PUnit := modify fun w => { w with log := w.log ++ [line] }

/-- The lines a seam function logs. -/
def bbLogAll (lines : List Bytes) : BrainM ι PUnit :=
  modify fun w => { w with log := w.log ++ lines }

/-! ## `db.c`: one command -/

/-- The line `log_cmd` writes for a command. -/
def logCmd : DbCmd → Bytes
  | .insertElection eid _ => ascii "[db] insert into election(id, title, state) values ('" ++
      eid.bytes ++ ascii "', ?, 'DRAFT')"
  | .getElection eid => ascii "[db] select * from election where id = '" ++ eid.bytes ++ ascii "'"
  | .updateState eid state => ascii "[db] election '" ++ eid.bytes ++ ascii "': state -> '" ++
      bbStateStr state ++ ascii "' (delete + reinsert, no UPDATE in SimpleDB)"
  | .appendBallot eid row =>
      ascii "[db] insert into ballot(election_id, hash, option_index, version, superseded) values ('"
        ++ eid.bytes ++ ascii "', '" ++ row.hash.bytes ++ ascii "', " ++
          renderInt row.optionIndex ++
        ascii ", " ++ renderInt row.version ++ ascii ", " ++ renderInt row.superseded ++ ascii ")"
  | .markSuperseded eid hash => ascii "[db] ballot '" ++ hash.bytes ++ ascii "' in '" ++
      eid.bytes ++ ascii "': superseded -> 1 (delete + reinsert)"
  | .nonceMark eid nonce => ascii "[db] insert into nonce(election_id, nonce) values ('" ++
      eid.bytes ++ ascii "', '" ++ nonce.bytes ++ ascii "')"
  | .setOwner eid _ hash version => ascii "[db] ballot_owner('" ++ eid.bytes ++
      ascii "', cert=?) -> hash='" ++ hash.bytes ++ ascii "' version=" ++ renderInt version
  | .getTally eid => ascii "[db] select option_index from ballot where election_id = '" ++
      eid.bytes ++ ascii "' and superseded = 0"
  | .getHashes eid => ascii "[db] select hash, option_index from ballot where election_id = '" ++
      eid.bytes ++ ascii "' and superseded = 0"
  | .findHash eid hash => ascii "[db] select 1 from ballot where election_id = '" ++ eid.bytes ++
      ascii "' and hash = '" ++ hash.bytes ++ ascii "' and superseded = 0"
  | .nonceSeen eid nonce => ascii "[db] select 1 from nonce where election_id = '" ++ eid.bytes ++
      ascii "' and nonce = '" ++ nonce.bytes ++ ascii "'"
  | .getPriorBallot eid _ =>
    ascii "[db] select hash, version from ballot_owner where election_id = '"
      ++ eid.bytes ++ ascii "' and cert=?"

/-- Runs a program of the connection level on the transaction's connection. -/
def onTxn {α : Type} (c : Conn ι) (x : EStateM BbErr (Link ι) α) : BrainM ι α := fun w =>
  match x ⟨c, w.server⟩ with
  | .ok a l => .ok a { w with server := l.server, txnConn := some l.conn }
  | .error e l => .error e { w with server := l.server, txnConn := some l.conn }

/-- Opens a connection, runs a program on it and closes it again, whatever happens. -/
def onFresh {α : Type} (ch : Channel ι) (x : EStateM BbErr (Link ι) α) : BrainM ι α := fun w =>
  match dbSocketOpen ch w.server with
  | (none, server) => .error .db { w with server := server }
  | (some c, server) =>
    match x ⟨c, server⟩ with
    | .ok a l => .ok a { w with server := l.server }
    | .error e l => .error e { w with server := l.server }

variable (ch : Channel ι)

/-- One self-owned attempt: a write is a transaction, committed on success and rolled back on an
error other than a retry. -/
def wrapWrite (x : EStateM BbErr (Link ι) DbResult) : EStateM BbErr (Link ι) DbResult := do
  let r ← attempt (do
    let _ ← execStmt ch 0 .setTransaction
    x)
  match r with
  | .ok out =>
    let _ ← execStmt ch 0 .commit
    return out
  | .error .retry => throw .retry
  | .error e =>
    let _ ← attempt (execStmt ch 0 .rollback)
    throw e

def oneShotAttempt (cmd : DbCmd) : BrainM ι DbResult :=
  onFresh ch (if cmd.isWrite then wrapWrite ch (runOp ch cmd) else runOp ch cmd)

def selfRetryAttempts : ℕ := 3

/-- The retry loop of `db_exec`, with the attempts left. -/
def selfRetry (cmd : DbCmd) : ℕ → BrainM ι DbResult
  | 0 => throw .db
  | attempts + 1 => do
    match ← attempt (oneShotAttempt ch cmd) with
    | .ok out => return out
    | .error .retry => selfRetry cmd attempts
    | .error e => throw e

/-- `db_exec`: in an explicit transaction, or up to three times on a connection of its own. -/
def dbExec (cmd : DbCmd) : BrainM ι DbResult := do
  bbLog (logCmd cmd)
  match (← get).txnConn with
  | some c => onTxn c (runOp ch cmd)
  | none => selfRetry ch cmd selfRetryAttempts

/-! ## `txn.c`: explicit transactions -/

def bbDbBegin : BrainM ι PUnit := fun w =>
  match w.txnConn with
  | some _ => .error .db w
  | none =>
    match dbSocketOpen ch w.server with
    | (none, server) => .error .db { w with server := server }
    | (some c, server) =>
      match execStmt ch 0 .setTransaction ⟨c, server⟩ with
      | .ok _ l => .ok ⟨⟩ { w with server := l.server, txnConn := some l.conn }
      | .error e l => .error e { w with server := l.server }

def bbDbCommit : BrainM ι PUnit := fun w =>
  match w.txnConn with
  | none => .error .db w
  | some c =>
    match execStmt ch 0 .commit ⟨c, w.server⟩ with
    | .ok _ l => .ok ⟨⟩ { w with server := l.server, txnConn := none }
    | .error e l => .error e { w with server := l.server, txnConn := none }

def bbDbRollback : BrainM ι PUnit := fun w =>
  match w.txnConn with
  | none => .ok ⟨⟩ w
  | some c =>
    match execStmt ch 0 .rollback ⟨c, w.server⟩ with
    | .ok _ l => .ok ⟨⟩ { w with server := l.server, txnConn := none }
    | .error _ l => .ok ⟨⟩ { w with server := l.server, txnConn := none }

end BallotBox
