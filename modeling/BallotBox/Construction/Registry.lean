import BallotBox.Construction.Session
import BallotBox.Construction.Server
import BallotBox.Framework.Processes

/-!
# Registering accounts

`account_register` of `libtetrisauth/lib/account.c`, any number of calls at a time.  A call is a
`Process` cut at its system calls and statements; the `Registry` is what they share: the semaphore,
the table and the connections.
-/

namespace BallotBox

/-! ## The table and its statements -/

/-- `TETRISAUTH_DB_SCHEMA`: `user(id int, name string, salt string, digest string, iters int,
created_at int)`. -/
structure UserRow where
  id : JInt
  name : Text
  salt : Text
  digest : Text
  iters : JInt
  createdAt : JInt
deriving DecidableEq

/-- The statements of `register_txn`; a string is what its literal denotes. -/
inductive UserStmt
  | setTransaction
  | commit
  | rollback
  /-- `select max(id) from user` -/
  | selectMaxId
  /-- `select id from user where name = ..` -/
  | selectName (name : Bytes)
  | insert (id : ℤ) (name salt digest : Bytes) (iters createdAt : ℤ)
deriving DecidableEq

namespace UserStmt

/-- `strpbrk (sql, "\n\r") != NULL`. -/
def hasBreak : UserStmt → Bool
  | selectName name => name.contains lf || name.contains cr
  | insert _ name salt digest _ _ =>
    [name, salt, digest].any fun text => text.contains lf || text.contains cr
  | _ => false

/-- The rows a data statement adds to the table it sees, and those it returns; `none` if it is
rejected. -/
def run (rows : List UserRow) : UserStmt → Option (List UserRow × List Row)
  | setTransaction | commit | rollback => none
  | selectMaxId => some ([], (rows.map (·.id.val)).max?.toList.map fun n => [renderInt n])
  | selectName name => some ([], (rows.filter (·.name.bytes = name)).map fun r => [r.id.render])
  | insert id name salt digest iters createdAt => do
    let row : UserRow := ⟨← JInt.ofInt? id, ← Text.ofBytes? name, ← Text.ofBytes? salt,
      ← Text.ofBytes? digest, ← JInt.ofInt? iters, ← JInt.ofInt? createdAt⟩
    some ([row], countReply 1)

end UserStmt

/-! ## What is shared -/

/-- A connection: the rows its open transaction has inserted, and the failure it is stuck on. -/
structure UserConn where
  txn : Option (List UserRow)
  failed : Option Terminal
deriving DecidableEq

/-- A connection on which nothing has happened yet. -/
def UserConn.fresh : UserConn := ⟨none, none⟩

/-- The shared state of the calls `ι`. -/
structure Registry (ι : Type) where
  /-- The value of the semaphore `/tetrish_register`. -/
  value : ℕ
  /-- Who has passed the semaphore and not posted it since. -/
  holders : List ι
  /-- The committed rows. -/
  rows : List UserRow
  /-- Which call committed which rows. -/
  log : List (ι × UserRow)
  conns : ι → Option UserConn

/-- What becomes of a statement: its status, and whether a commit not answered `ok` took effect all
the same. -/
structure Fate where
  status : DbStatus
  applied : Bool
deriving DecidableEq

namespace Registry

/-- The semaphore is free and nobody is connected. -/
def start {ι : Type} (rows : List UserRow) : Registry ι := ⟨1, [], rows, [], fun _ => none⟩

variable {ι : Type} [DecidableEq ι] (s : Registry ι)

/-- The rows of the log that a call has committed. -/
def addedBy (i : ι) : List UserRow := (s.log.filter (·.1 = i)).map (·.2)

def setConn (i : ι) (conn : Option UserConn) : Registry ι :=
  { s with conns := Function.update s.conns i conn }

/-- Rows of a call become visible. -/
def publish (i : ι) (rows : List UserRow) : Registry ι :=
  { s with rows := s.rows ++ rows, log := s.log ++ rows.map fun r => (i, r) }

/-- A statement that the engine carries out, or `none` if it rejects it. -/
def carryOut (i : ι) (conn : UserConn) : UserStmt → Option (Reply × Registry ι)
  | .setTransaction =>
    if conn.txn.isSome then none else some (none, s.setConn i (some { conn with txn := some [] }))
  | .commit => conn.txn.map fun rows => (none, (s.publish i rows).setConn i (some .fresh))
  | .rollback => conn.txn.map fun _ => (none, s.setConn i (some .fresh))
  | stmt =>
    match conn.txn with
    | some mine => (stmt.run (s.rows ++ mine)).map fun (new, reply) =>
        (some reply, s.setConn i (some { conn with txn := some (mine ++ new) }))
    -- outside a transaction a statement is one of its own
    | none => (stmt.run s.rows).map fun (new, reply) => (some reply, s.publish i new)

/-- A statement that is not answered `ok`. -/
def giveUp (i : ι) (conn : UserConn) (stmt : UserStmt) (fate : Fate) : Registry ι :=
  let s := if stmt = .commit ∧ fate.applied then s.publish i (conn.txn.getD []) else s
  s.setConn i (some ⟨none, fate.status.terminal?⟩)

/-- `db_socket_exec` on the connection of a call. -/
def exec (i : ι) (stmt : UserStmt) (fate : Fate) : (DbStatus × Reply) × Registry ι :=
  match s.conns i with
  | none => ((.io, none), s)
  | some conn =>
    match conn.failed with
    | some why => ((why.status, none), s)
    | none =>
      if stmt.hasBreak then ((.error, none), s)
      else if fate.status = .ok then
        match s.carryOut i conn stmt with
        | some (reply, s') => ((.ok, reply), s')
        | none => ((.error, none), s.giveUp i conn stmt ⟨.error, false⟩)
      else ((fate.status, none), s.giveUp i conn stmt fate)

end Registry

/-! ## Calls on the environment -/

/-- What `account_register` calls. -/
inductive RegCall
  /-- `RAND_bytes` for a salt. -/
  | randBytes
  /-- `password_hash`: PBKDF2 of a password under a salt in hexadecimal digits. -/
  | passwordHash (pass saltHex : Bytes) (iters : ℤ)
  | semOpen
  | semTrywait
  | semPost
  /-- `conn_open`. -/
  | connOpen
  | connClose
  | exec (stmt : UserStmt)
  | time

abbrev RegCall.Answer : RegCall → Type
  | randBytes => Option (Vector UInt8 16)
  | passwordHash .. => Option (Vector UInt8 32)
  | semOpen | semTrywait | connOpen => Bool
  | semPost | connClose => Unit
  | exec _ => DbStatus × Reply
  | time => ℤ

/-- What the world contributes to a call. -/
inductive RegChoice
  | salt (bytes : Option (Vector UInt8 16))
  | digest (bytes : Option (Vector UInt8 32))
  | succeeds (b : Bool)
  | fate (fate : Fate)
  | clock (t : ℤ)

/-- Whether a commit is to take effect without the answer `ok`. -/
def RegChoice.applied : RegChoice → Bool
  | .fate f => f.applied
  | _ => false

/-- The answer to a call, and the registry after it; `none` if the choice is not one for it. -/
def Registry.respond {ι : Type} [DecidableEq ι] (s : Registry ι) (i : ι) :
    (c : RegCall) → RegChoice → Option (c.Answer × Registry ι)
  | .randBytes, .salt bytes => some (bytes, s)
  | .passwordHash .., .digest bytes => some (bytes, s)
  | .semOpen, .succeeds b => some (b, s)
  | .semTrywait, .succeeds true =>
    if 0 < s.value then some (true, { s with value := s.value - 1, holders := i :: s.holders })
    else none
  | .semTrywait, .succeeds false => some (false, s)
  | .semPost, .succeeds _ =>
    some ((), { s with value := s.value + 1, holders := s.holders.erase i })
  | .connOpen, .succeeds b => some (b, if b then s.setConn i (some .fresh) else s)
  | .connClose, .succeeds _ => some ((), s.setConn i none)
  | .exec stmt, .fate fate => some (s.exec i stmt fate)
  | .time, .clock t => some (t, s)
  | _, _ => none

/-! ## `account_register` -/

/-- A process of `account.c`. -/
abbrev RegProc (α : Type) := Process RegCall RegCall.Answer α

namespace RegProc

def randBytes : RegProc (Option (Vector UInt8 16)) := Process.ask RegCall.randBytes

def passwordHash (pass saltHex : Bytes) (iters : ℤ) : RegProc (Option (Vector UInt8 32)) :=
  Process.ask (RegCall.passwordHash pass saltHex iters)

def semOpen : RegProc Bool := Process.ask RegCall.semOpen

def semTrywait : RegProc Bool := Process.ask RegCall.semTrywait

def semPost : RegProc Unit := Process.ask RegCall.semPost

def connOpen : RegProc Bool := Process.ask RegCall.connOpen

def connClose : RegProc Unit := Process.ask RegCall.connClose

def exec (stmt : UserStmt) : RegProc (DbStatus × Reply) := Process.ask (RegCall.exec stmt)

def time : RegProc ℤ := Process.ask RegCall.time

end RegProc

def dbNextId (reply : Reply) : ℤ :=
  if reply.rowCount < 0 then -1
  else if reply.rowCount = 0 then 1
  else match reply.rowFields 0 with
    | some (f :: _) =>
      if f = [] ∨ 32 ≤ f.length then -1
      else
        let (v, rest) := strtol (cstr f)
        if rest ≠ [] then -1 else if v < 0 then 1 else v + 1
    | _ => -1

/-- What `register_txn` returns: the status, whether the name is taken, and the new id. -/
abbrev TxnResult := DbStatus × Bool × Option ℤ

/-- `st = db_socket_exec (..); if (st != DB_OK) goto done;` and then the rest. -/
def execOrDone (stmt : UserStmt) (rest : Reply → RegProc TxnResult) : RegProc TxnResult := do
  let (st, body) ← RegProc.exec stmt
  if st ≠ .ok then return (st, false, none)
  rest body

def registerTxn (name saltHex digestHex : Bytes) (iters : ℤ) : RegProc TxnResult :=
  execOrDone .setTransaction fun _ =>
  execOrDone .selectMaxId fun body =>
  let next := dbNextId body
  if next < 0 then return (.error, false, none)
  else execOrDone (.selectName name) fun body =>
  if body.rowCount < 0 then return (.error, false, none)
  else if 0 < body.rowCount then do
    let _ ← RegProc.exec .rollback
    return (.ok, true, none)
  else do
    let now ← RegProc.time
    execOrDone (.insert next name saltHex digestHex iters now) fun _ =>
    execOrDone .commit fun _ =>
    return (.ok, false, some next)

/-- The loop of `reg_acquire`, by the number of tries left. -/
def regPoll : ℕ → RegProc Bool
  | 0 => return false
  | n + 1 => do
    if ← RegProc.semTrywait then return true else regPoll n

/-- The tries of `reg_acquire`: as many naps of `poll_delay_us` as fit into `REG_WAIT_MS`. -/
def regTries (pid : ℕ) : ℕ := (5000 * 1000 + (1000 + pid % 4000) - 1) / (1000 + pid % 4000)

def regAcquire (pid : ℕ) : RegProc Bool := do
  if ← RegProc.semOpen then regPoll (regTries pid) else return false

/-- The attempts of `account_register`, by their number: the status, and the new id. -/
def registerAttempts (name saltHex digestHex : Bytes) (iters : ℤ) : ℕ → RegProc (ℕ × Option ℤ)
  | 0 => return (500, none)
  | n + 1 => do
    let (st, taken, id) ← registerTxn name saltHex digestHex iters
    if st = .retry then registerAttempts name saltHex digestHex iters n
    else if st ≠ .ok then return (500, id)
    else return (if taken then 409 else 200, id)

/-- The part of `account_register` between `reg_acquire` and `reg_release`. -/
def registerConnected (name saltHex digestHex : Bytes) (iters : ℤ) : RegProc (ℕ × Option ℤ) := do
  if ← RegProc.connOpen then
    let result ← registerAttempts name saltHex digestHex iters 3
    RegProc.connClose
    return result
  else return (500, none)

/-- The arguments of `account_register`, the process id and the setting `pbkdf2_iters`. -/
structure RegArgs where
  name : CStr maxUserName
  pass : Bytes
  pid : ℕ
  iters : ℤ

/-- `account_register`: the status, and the new id. -/
def accountRegister (args : RegArgs) : RegProc (ℕ × Option ℤ) := do
  if args.pass.length < 8 ∨ 128 < args.pass.length then return (400, none)
  match ← RegProc.randBytes with
  | none => return (500, none)
  | some salt =>
    let saltHex := hexEncode salt.toList
    match ← RegProc.passwordHash args.pass saltHex args.iters with
    | none => return (500, none)
    | some digest =>
      if ← regAcquire args.pid then
        let result ← registerConnected args.name.bytes saltHex (hexEncode digest.toList) args.iters
        RegProc.semPost
        return result
      else return (500, none)

/-- Calls of `account_register` that are about to start. -/
def Registry.pool {ι : Type} (rows : List UserRow) (args : ι → RegArgs) :
    Process.Pool RegCall RegCall.Answer (ℕ × Option ℤ) ι (Registry ι) where
  shared := Registry.start rows
  procs i := accountRegister (args i)

end BallotBox
