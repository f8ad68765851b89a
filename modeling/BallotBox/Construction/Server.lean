import BallotBox.Construction.Store
import BallotBox.Construction.Types
import BallotBox.Framework.Program

/-!
# The database server as the daemon sees it

Whether a statement succeeds, fails, is told to retry or is never answered is drawn from a schedule
(`Outcome`, `Server`).  A transaction works on a copy of the tables that replaces them at commit; a
commit that is not answered `ok` did not take effect.
-/

namespace BallotBox

/-! ## Outcomes -/

/-- An order in which a select may return its rows. -/
structure RowOrder where
  apply : List Row → List Row
  perm : ∀ rows, (apply rows).Perm rows

/-- The order in which the rows are stored. -/
def RowOrder.stored : RowOrder := ⟨id, fun _ => List.Perm.refl _⟩

instance : Inhabited RowOrder := ⟨.stored⟩

/-- The two ways a connection is lost: the deadline passes, or the socket breaks. -/
inductive Terminal
  | timeout | io
deriving DecidableEq, Repr

/-- The status a lost connection reports. -/
def Terminal.status : Terminal → DbStatus
  | .timeout => .timeout
  | .io => .io

/-- Whether a status means that the connection is lost. -/
def DbStatus.terminal? : DbStatus → Option Terminal
  | .timeout => some .timeout
  | .io => some .io
  | _ => none

/-- What becomes of a statement. -/
inductive Outcome
  | ok (order : RowOrder)
  | error
  | retry
  | lost (why : Terminal)

/-- The statement is answered with its result. -/
def Outcome.isOk : Outcome → Bool
  | .ok _ => true
  | _ => false

/-- The server: committed tables, schedule, and the statements answered so far with the status the
caller saw, latest first. -/
structure Server where
  store : Tables
  sched : ℕ → Outcome
  clock : ℕ
  trace : List (Stmt × DbStatus)

/-- The next outcome of the schedule. -/
def Server.next (s : Server) : Outcome := s.sched s.clock

/-- One entry of the schedule is used up. -/
def Server.tick (s : Server) : Server := { s with clock := s.clock + 1 }

/-! ## Answers and how they are read -/

/-- What a statement prints when it succeeds: a table, or a line of text. -/
inductive Answer
  | table (desc : TupleDesc) (rows : List Row)
  | note (line : Bytes)

/-- What the server says about a statement. -/
inductive Verdict
  | ok (answer : Answer)
  | error
  | retry

/-- What the caller sees of a reply: the rows of `db_row_fields`, or `none` if `db_row_count` finds
no table. -/
abbrev Reply := Option (List Row)

/-- `db_row_count` of a reply. -/
def Reply.rowCount : Reply → ℤ
  | none => -1
  | some rows => rows.length

/-- `db_row_fields` of a reply. -/
def Reply.rowFields (r : Reply) (i : ℕ) : Option Row := r.bind (·[i]?)

/-- How answers reach the caller: the unread input of a new connection, and the reading of one
answer into a body. -/
structure Channel (ι : Type) where
  fresh : ι
  deliver : ℕ → ι → Verdict → (DbStatus × Reply) × ι

/-- The reply an answer stands for. -/
def Answer.reply : Answer → Reply
  | .table _ rows => some rows
  | .note _ => none

/-- Answers arrive as they are. -/
def direct : Channel Unit where
  fresh := ()
  deliver _ _ verdict := match verdict with
    | .ok answer => ((.ok, answer.reply), ())
    | .error => ((.error, none), ())
    | .retry => ((.retry, none), ())

/-- The lines of an answer. -/
def Answer.lines : Answer → List Bytes
  | .table desc rows => queryLines desc rows
  | .note line => [line]

/-- The lines the server sends, the marker last. -/
def Verdict.lines : Verdict → List Bytes
  | .ok answer => answer.lines ++ [dbMarkOk]
  | .error => [dbMarkError]
  | .retry => [dbMarkRetry]

/-- The rows a body holds, as `db_row_count` and `db_row_fields` find them. -/
def readRows (body : Bytes) : Reply :=
  if dbRowCount body < 0 then none
  else some ((List.range (dbRowCount body).toNat).map fun i => (dbRowFields body i).getD [])

/-- Answers arrive as text behind the unread bytes of the connection. -/
def wire : Channel Bytes where
  fresh := []
  deliver cap inbox verdict :=
    let ((status, body), w) := dbWireResponse ⟨inbox ++ unlines verdict.lines, []⟩ cap
    ((status, readRows body), w.buffered)

/-! ## Connections -/

/-- `db_socket_t`: the open transaction, the unread input, and the terminal status it is stuck on.
-/
structure Conn (ι : Type) where
  view : Option Tables
  inbox : ι
  failed : Option Terminal

/-- A connection and the server at its other end. -/
structure Link (ι : Type) where
  conn : Conn ι
  server : Server

variable {ι : Type}

/-- `db_socket_open`: a connection, or `NULL` if the server cannot be reached. -/
def dbSocketOpen (ch : Channel ι) (s : Server) : Option (Conn ι) × Server :=
  match s.next with
  | .lost _ => (none, s.tick)
  | _ => (some ⟨none, ch.fresh, none⟩, s.tick)

/-- A statement on rows, run on the open transaction if there is one and on the committed tables if
not. -/
def Link.runData (l : Link ι) (order : RowOrder) (stmt : Stmt) :
    Option (Option Tables × Tables × Answer) :=
  match l.conn.view with
  | some view => (stmt.run view).map fun (view', rows) =>
      (some view', l.server.store, .table stmt.desc (order.apply rows))
  | none => (stmt.run l.server.store).map fun (store', rows) =>
      (none, store', .table stmt.desc (order.apply rows))

/-- The server's side of an answered statement: new view and store, and the answer; `none` if it
fails. -/
def Link.execute (l : Link ι) (order : RowOrder) (stmt : Stmt) :
    Option (Option Tables × Tables × Answer) :=
  match stmt with
  | .setTransaction =>
    match l.conn.view with
    | none => some (some l.server.store, l.server.store, .note (ascii "Started a new transaction"))
    | some _ => none
  | .commit => l.conn.view.map fun view => (none, view, .note (ascii "Transaction committed."))
  | .rollback => l.conn.view.map fun _ =>
      (none, l.server.store, .note (ascii "Transaction aborted."))
  | stmt => l.runData order stmt

/-- The caller's side: the verdict is read from the channel, and the connection is stuck if that
fails. -/
def Link.receive (ch : Channel ι) (cap : ℕ) (l : Link ι) (stmt : Stmt) (view : Option Tables)
    (store : Tables) (verdict : Verdict) : (DbStatus × Reply) × Link ι :=
  let ((status, reply), inbox) := ch.deliver cap l.conn.inbox verdict
  ((status, reply),
    { conn := ⟨view, inbox, status.terminal?⟩,
      server := { l.server.tick with store := store, trace := (stmt, status) :: l.server.trace } })

/-- The connection breaks before an answer: the transaction is gone, and nothing was changed. -/
def Link.lose (l : Link ι) (stmt : Stmt) (why : Terminal) : (DbStatus × Reply) × Link ι :=
  ((why.status, none),
    { conn := ⟨none, l.conn.inbox, some why⟩,
      server := { l.server.tick with trace := (stmt, why.status) :: l.server.trace } })

/-- `db_socket_exec`. A failed connection stays failed; a statement that does not fit on a line is
not sent. -/
def dbSocketExec (ch : Channel ι) (cap : ℕ) (stmt : Stmt) (l : Link ι) :
    (DbStatus × Reply) × Link ι :=
  match l.conn.failed with
  | some why => ((why.status, none), l)
  | none =>
    if stmt.hasBreak then ((.error, none), l)
    else match l.server.next with
      | .lost why => l.lose stmt why
      | .error => l.receive ch cap stmt none l.server.store .error
      | .retry => l.receive ch cap stmt none l.server.store .retry
      | .ok order =>
        match l.execute order stmt with
        | none => l.receive ch cap stmt none l.server.store .error
        | some (view, store, answer) => l.receive ch cap stmt view store (.ok answer)

/-- `map_status`: the error a status stands for. -/
def mapStatus : DbStatus → Option BbErr
  | .ok => none
  | .retry => some .retry
  | _ => some .db

def bodyMax : ℕ := 16384

/-- `exec_stmt`, with the capacity of the body buffer (0 for `NULL`). -/
def execStmt (ch : Channel ι) (cap : ℕ) (stmt : Stmt) : EStateM BbErr (Link ι) Reply := fun l =>
  let ((status, reply), l') := dbSocketExec ch cap stmt l
  match mapStatus status with
  | none => .ok reply l'
  | some e => .error e l'

end BallotBox
