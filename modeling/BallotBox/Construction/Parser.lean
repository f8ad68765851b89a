import BallotBox.Construction.Rows
import BallotBox.Construction.Storage

/-!
# SQL sessions

`simpledb/Parser.java` runs one statement at a time, in a transaction of its own or in one that the
client has opened; `simpledb/StatementSession.java` reads the outcome off what the statement prints.
-/

namespace BallotBox.SimpleDb

/-! ## Failures -/

/-- The classes of exceptions that `processNextStatement` tells apart. -/
inductive FailureKind
  | parsing | zqlParse | tokenMgr | io | db | transactionAborted
  | other (className : Bytes)
deriving DecidableEq

/-- A `Throwable`; the message may be null. -/
structure Failure where
  kind : FailureKind
  message : Option Bytes
deriving DecidableEq

def FailureKind.className : FailureKind → Bytes
  | parsing => ascii "simpledb.ParsingException"
  | zqlParse => ascii "Zql.ParseException"
  | tokenMgr => ascii "Zql.TokenMgrError"
  | io => ascii "java.io.IOException"
  | db => ascii "simpledb.common.DbException"
  | transactionAborted => ascii "simpledb.transaction.TransactionAbortedException"
  | other className => className

def Failure.toText (f : Failure) : Bytes :=
  match f.message with
  | none => f.kind.className
  | some m => f.kind.className ++ ascii ": " ++ m

/-- A `ParsingException` with a message of the parser's own. -/
def Failure.parsing (message : String) : Failure := ⟨.parsing, some (ascii message)⟩

/-- What the inner handler of `processNextStatement` throws for a failure. -/
def Failure.rethrown (f : Failure) : Failure :=
  match f.kind with
  | .parsing | .zqlParse => ⟨.parsing, some f.toText⟩
  | .tokenMgr => f
  | _ => ⟨.db, f.message⟩

/-! ## Output -/

def println (text : Bytes) : Bytes := text ++ [lf]

/-- `printStackTrace`, by its first line. -/
def Failure.stackTrace (f : Failure) : Bytes := println f.toText

/-- What has been printed to `System.out` and to `System.err`. -/
structure Console where
  out : Bytes
  err : Bytes
deriving DecidableEq

/-! ## Statements -/

/-- The sections of a data statement; `evict` is the one in which `getPage` makes room. -/
inductive StorageAct (π α : Type)
  | lock (p : π) (exclusive : Bool)
  | release (p : π)
  | fetch (p : π)
  | edit (p : π) (data : α)
  | append (p : π)
  | evict (p : π)
deriving DecidableEq

/-- The section for a transaction. -/
def StorageAct.event {τ π α : Type} (t : τ) : StorageAct π α → StorageEvent τ π α
  | lock p exclusive => .lock t p exclusive
  | release p => .release t p
  | fetch p => .fetch t p
  | edit p data => .edit t p data
  | append p => .append t p
  | evict p => .evict p

/-- What planning and running a data statement comes to. -/
structure Execution (π α : Type) where
  acts : List (StorageAct π α)
  printed : Console
  failure : Option Failure
deriving DecidableEq

/-- The types of a `ZTransactStmt`. -/
inductive TransactStmt
  | commit | rollback | setTransaction | other
deriving DecidableEq

/-- What `readStatement` comes to. -/
inductive Statement (π α : Type)
  | unreadable (f : Failure)
  | transact (stmt : TransactStmt)
  | data (e : Execution π α)
deriving DecidableEq

/-! ## `Parser` -/

/-- A parser over the storage. `nextTid` is the counter of `TransactionId`; nothing reads `history`.
-/
structure SqlSession (π α : Type) where
  storage : Storage ℕ π α
  history : List (StorageEvent ℕ π α)
  nextTid : ℕ
  curtrans : Option ℕ
  inUserTrans : Bool
  lastStatementFailure : Option Failure

/-- The pages that `flushPages` flushes. -/
def dirtyPages {τ π α : Type} [DecidableEq τ] (s : Storage τ π α) (t : τ) : List π :=
  (s.pool.entries.filter fun e => e.2.dirty = some t).map (·.1)

/-- `commit` of a transaction: `flushPages` and the rest of `transactionComplete`, and the
record. -/
def commitEvents {τ π α : Type} [DecidableEq τ] (s : Storage τ π α) (t : τ) :
    List (StorageEvent τ π α) :=
  (dirtyPages s t).map .flush ++ [.complete t, .logCommit t]

/-- `abort` of a transaction. -/
def abortEvents {τ π α : Type} (t : τ) : List (StorageEvent τ π α) := [.logAbort t, .discard t]

namespace SqlSession

variable {π α : Type} [DecidableEq π] (size : LogRecord ℕ π α → ℕ) (blank : α) (s : SqlSession π α)

/-- A parser over a storage that nobody has used yet. -/
def init (storage : Storage ℕ π α) : SqlSession π α := ⟨storage, [], 0, none, false, none⟩

/-- Runs sections of the storage. -/
def run (evs : List (StorageEvent ℕ π α)) : Option (SqlSession π α) :=
  (execAll (Storage.step size blank) s.storage evs).map fun storage =>
    { s with storage := storage, history := s.history ++ evs }

/-- `curtrans = new Transaction (); curtrans.start ();` -/
def begin : Option (SqlSession π α) :=
  ({ s with nextTid := s.nextTid + 1, curtrans := some s.nextTid } : SqlSession π α).run size blank
    [.start s.nextTid]

/-- `handleTransactStatement`: what it prints, what it throws, and the session after it. -/
def handleTransactStatement : TransactStmt → Option (Bytes × Option Failure × SqlSession π α)
  | .commit =>
    match s.curtrans with
    | none => some ([], some (.parsing "No transaction is currently running"), s)
    | some t =>
      (s.run size blank (commitEvents s.storage t)).map fun s =>
        (println (ascii "Transaction " ++ renderNat t ++ ascii " committed."), none,
          { s with curtrans := none, inUserTrans := false })
  | .rollback =>
    match s.curtrans with
    | none => some ([], some (.parsing "No transaction is currently running"), s)
    | some t =>
      (s.run size blank (abortEvents t)).map fun s =>
        (println (ascii "Transaction " ++ renderNat t ++ ascii " aborted."), none,
          { s with curtrans := none, inUserTrans := false })
  | .setTransaction =>
    if s.curtrans.isSome then
      some ([], some (.parsing
        "Can't start new transactions until current transaction has been committed or rolledback."), s)
    else
      (s.begin size blank).map fun s' =>
        (println (ascii "Started a new transaction tid = " ++ renderNat s.nextTid), none,
          { s' with inUserTrans := true })
  | .other => some ([], some (.parsing "Unsupported operation"), s)

/-- The end of a data statement that has not failed: a transaction of its own commits. -/
def succeed (t : ℕ) : Option (Bytes × SqlSession π α) :=
  if s.inUserTrans then some ([], s)
  else
    (s.run size blank (commitEvents s.storage t)).map fun s =>
      (println (ascii "Transaction " ++ renderNat t ++ ascii " committed."),
        { s with curtrans := none })

/-- The handler of a data statement that has failed, with the `finally` after it. -/
def fail (t : ℕ) (f : Failure) : Option (Bytes × SqlSession π α) :=
  (s.run size blank (abortEvents t)).map fun s =>
    (println (ascii "Transaction " ++ renderNat t ++ ascii " aborted because of unhandled error"),
      { s with curtrans := none, inUserTrans := false, lastStatementFailure := some f })

/-- A data statement in the transaction `t`. -/
def runData (t : ℕ) (e : Execution π α) : Option (Console × Option Failure × SqlSession π α) := do
  let s ← s.run size blank (e.acts.map (·.event t))
  match e.failure with
  | none =>
    let (out, s) ← s.succeed size blank t
    some (⟨e.printed.out ++ out, e.printed.err⟩, none, s)
  | some f =>
    let (out, s) ← s.fail size blank t f
    some (⟨e.printed.out ++ out, e.printed.err⟩, some f.rethrown, s)

/-- The `else` branch of `processNextStatement`. -/
def handleData (e : Execution π α) : Option (Console × Option Failure × SqlSession π α) :=
  if s.inUserTrans then
    match s.curtrans with
    | some t => s.runData size blank t e
    -- curtrans.getId () on null, with nothing to abort
    | none =>
      let f : Failure := ⟨.other (ascii "java.lang.NullPointerException"), none⟩
      some (⟨[], []⟩, some f.rethrown,
        { s with inUserTrans := false, lastStatementFailure := some f })
  else do
    let s' ← s.begin size blank
    let (console, thrown, s') ← s'.runData size blank s.nextTid e
    some (⟨println (ascii "Started a new transaction tid = " ++ renderNat s.nextTid) ++ console.out,
      console.err⟩, thrown, s')

/-- The outer handlers of `processNextStatement`: their output, whether the failure escapes, the
session after them. -/
def caught (f : Failure) : Console × Option Failure × SqlSession π α :=
  let s' := { s with lastStatementFailure := s.lastStatementFailure.or (some f) }
  let message := f.message.getD (ascii "null")
  match f.kind with
  | .io | .db => (⟨[], f.stackTrace⟩, none, s')
  | .parsing => (⟨println (ascii "Invalid SQL expression: \n \t" ++ message), []⟩, none, s')
  | .zqlParse | .tokenMgr =>
    (⟨println (ascii "Invalid SQL expression: \n \t " ++ f.toText), []⟩, none, s')
  | .transactionAborted | .other _ => (⟨[], []⟩, some f, s)

/-- The body of the outer `try`. -/
def attempt : Statement π α → Option (Console × Option Failure × SqlSession π α)
  | .unreadable f => some (⟨[], []⟩, some f, s)
  | .transact stmt =>
    (s.handleTransactStatement size blank stmt).map fun (out, thrown, s) => (⟨out, []⟩, thrown, s)
  | .data e => s.handleData size blank e

/-- `processNextStatement`: what is printed, the failure that escapes, and the session after it. -/
def processNextStatement (stmt : Statement π α) :
    Option (Console × Option Failure × SqlSession π α) :=
  (attempt size blank { s with lastStatementFailure := none } stmt).map fun (console, thrown, s) =>
    match thrown with
    | none => (console, none, s)
    | some f =>
      let (report, escaped, s) := s.caught f
      (⟨console.out ++ report.out, console.err ++ report.err⟩, escaped, s)

end SqlSession

/-! ## `StatementSession` -/

inductive StatementStatus
  | ok | error | retry
deriving DecidableEq

def errorLinePrefixes : List Bytes := [ascii "Invalid SQL expression", ascii "Can't parse "]

def hasErrorLine (text : Bytes) : Bool :=
  (text.splitOn lf).any fun line => errorLinePrefixes.any fun pre => pre.isPrefixOf line

/-- One of the two texts of `join`. -/
def joinPart (part : Bytes) : Bytes :=
  if part = [] then [] else if part.getLast? = some lf then part else part ++ [lf]

/-- `execute`: the status, the body of the reply, and the session after it. -/
def SqlSession.execute {π α : Type} [DecidableEq π] (size : LogRecord ℕ π α → ℕ) (blank : α)
    (s : SqlSession π α) (stmt : Statement π α) :
    Option (StatementStatus × Bytes × SqlSession π α) :=
  (s.processNextStatement size blank stmt).map fun (console, escaped, s) =>
    let out := match escaped with
      | none => console.out
      | some f => console.out ++ println (ascii "ERROR: " ++ f.toText)
    let failed := escaped.isSome || console.err ≠ [] || hasErrorLine out
    let status :=
      if !failed then .ok
      else if s.lastStatementFailure.any (·.kind = .transactionAborted) then .retry
      else .error
    (status, joinPart out ++ joinPart console.err, s)

/-! ## Select statements -/

/-- A name or an operator of a statement, which has no line feed in it. -/
structure Word where
  bytes : Bytes
  plain : lf ∉ bytes
deriving DecidableEq

/-- The lines that `parseQueryLogicalPlan` and the `add` methods of `LogicalPlan` print. -/
inductive Notice
  | addScan (name : Word)
  | addJoin (field₁ field₂ : Word)
  | addSubplanJoin (field : Word)
  | groupBy (field : Word)
  | aggregate (field function : Word)
  | addProjectField (field : Word)
  | aggregator (function : Word)
deriving DecidableEq

def Notice.text : Notice → Bytes
  | addScan name => ascii "Added scan of table " ++ name.bytes
  | addJoin field₁ field₂ =>
    ascii "Added join between " ++ field₁.bytes ++ ascii " and " ++ field₂.bytes
  | addSubplanJoin field => ascii "Added subplan join on " ++ field.bytes
  | groupBy field => ascii "GROUP BY FIELD : " ++ field.bytes
  | aggregate field function =>
    ascii "Aggregate field is " ++ field.bytes ++ ascii ", agg fun is : " ++ function.bytes
  | addProjectField field => ascii "Added select list field " ++ field.bytes
  | aggregator function => ascii "\t with aggregator " ++ function.bytes

/-- A select that could be planned. `drawn` is the tree of the `QueryPlanVisualizer`, with the
statement's literals, or the failure of its call by reflection; `rows` is what was printed at the
end or the failure. -/
structure PlannedSelect where
  drawn : Except Failure Bytes
  td : TupleDesc
  /-- The header line starts with a column `t.x` or an aggregate `max (t.x)`, not like a message. -/
  plainHeader : hasErrorLine td.header = false
  rows : List (List Bytes)
  failure : Option Failure

/-- A select statement: its sections, what the planner prints, and what the plan comes to; without a
plan there may be a trace besides the failure. -/
structure Select (π α : Type) where
  acts : List (StorageAct π α)
  notices : List Notice
  planned : Except (Failure × Bytes) PlannedSelect

/-- The text of some lines. -/
def printLines (lines : List Bytes) : Bytes := lines.flatMap println

/-- What `Query.execute` prints, up to its failure if it has one. -/
def PlannedSelect.resultText (q : PlannedSelect) : Bytes :=
  printLines (match q.failure with
    | none => queryLines q.td q.rows
    | some _ => q.td.header :: q.td.rule :: q.rows.map tupleLine)

/-- What `handleQueryStatement` prints about the plan. -/
def PlannedSelect.planText (q : PlannedSelect) : Console :=
  match q.drawn with
  | .ok tree => ⟨println (ascii "The query plan is:") ++ println tree, []⟩
  | .error f => ⟨println (ascii "The query plan is:"), f.stackTrace⟩

/-- The select as a data statement. -/
def Select.execution {π α : Type} (q : Select π α) : Execution π α :=
  match q.planned with
  | .error (f, trace) => ⟨q.acts, ⟨printLines (q.notices.map Notice.text), trace⟩, some f⟩
  | .ok p =>
    ⟨q.acts, ⟨printLines (q.notices.map Notice.text) ++ p.planText.out ++ p.resultText,
      p.planText.err⟩, p.failure⟩

end BallotBox.SimpleDb
