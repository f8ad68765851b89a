import BallotBox.Construction.Store
import BallotBox.Framework.Quoting

/-!
# The text of a statement

`libballotbrain/db.c` writes a statement with `snprintf` into a buffer of `SQL_MAX` bytes: fixed
text, strings quoted by `db_quote` in a buffer of `QUOTE_MAX` bytes, numbers, and in two statements
columns that were read earlier.
-/

namespace BallotBox

def quoteMax : ℕ := 512

def sqlMax : ℕ := 4096

/-- The loop of `db_quote`, with the bytes written so far: a byte is copied while it, the closing
quote and the NUL fit. -/
def quoteLoop (cap : ℕ) : ℕ → Bytes → Bytes
  | _, [] => []
  | w, c :: src =>
    if w + (if c = quote then 2 else 1) + 2 ≤ cap then
      (if c = quote then [quote, c] else [c]) ++
        quoteLoop cap (w + if c = quote then 2 else 1) src
    else []

/-- `db_quote` into a `char[cap]`. -/
def dbQuote (cap : ℕ) (src : Bytes) : Bytes :=
  if cap < 3 then [] else quote :: quoteLoop cap 1 src ++ [quote]

/-- What is printed for a `%s` or a `%d`: a string from `db_quote`, a number or column read earlier,
or a state, which the format string quotes. -/
inductive Arg
  | quoted (s : Bytes)
  | raw (w : Bytes)
  | bare (s : Bytes)

namespace Arg

/-- The text of an argument. -/
def text : Arg → Bytes
  | quoted s => dbQuote quoteMax s
  | raw w => w
  | bare s => quote :: s ++ [quote]

/-- The bytes an argument is made from. -/
def bytes : Arg → Bytes
  | quoted s => s
  | raw w => w
  | bare s => s

/-- The token an argument is meant as. -/
def slot : Arg → Slot
  | quoted s => .str s
  | raw w => .word w
  | bare s => .str s

end Arg

namespace Stmt

/-- The format string of a statement, taken apart at its arguments. -/
def format : Stmt → List (String × Arg) × String
  | setTransaction => ([], "set transaction read write;")
  | commit => ([], "commit;")
  | rollback => ([], "rollback;")
  | insertElection seq id title state openTime closeTime =>
    ([("insert into election values (", .raw seq), (", ", .quoted id), (", ", .quoted title),
      (", ", .bare state), (", ", .quoted openTime), (", ", .quoted closeTime)], ");")
  | insertOption eid idx name =>
    ([("insert into election_option values (", .quoted eid), (", ", .raw idx),
      (", ", .quoted name)], ");")
  | insertEligible eid cert =>
    ([("insert into election_eligible values (", .quoted eid), (", ", .quoted cert)], ");")
  | insertBallot eid hash opt ver sup =>
    ([("insert into ballot values (", .quoted eid), (", ", .quoted hash), (", ", .raw opt),
      (", ", .raw ver), (", ", .raw sup)], ");")
  | insertOwner eid cert hash ver =>
    ([("insert into ballot_owner values (", .quoted eid), (", ", .quoted cert),
      (", ", .quoted hash), (", ", .raw ver)], ");")
  | insertNonce eid nonce =>
    ([("insert into nonce values (", .quoted eid), (", ", .quoted nonce)], ");")
  | deleteElection id => ([("delete from election where id = ", .quoted id)], ";")
  | deleteBallot eid hash =>
    ([("delete from ballot where election_id = ", .quoted eid), (" and hash = ", .quoted hash)],
      ";")
  | deleteOwner eid cert =>
    ([("delete from ballot_owner where election_id = ", .quoted eid),
      (" and cert_name = ", .quoted cert)], ";")
  | selectElection id =>
    ([("select seq, id, title, state, open_time, close_time from election where id = ",
      .quoted id)], ";")
  | selectElectionRest id =>
    ([("select seq, title, open_time, close_time from election where id = ", .quoted id)], ";")
  | selectOptions eid =>
    ([("select idx, name from election_option where election_id = ", .quoted eid)], ";")
  | selectEligible eid =>
    ([("select cert_name from election_eligible where election_id = ", .quoted eid)], ";")
  | selectBallot eid hash =>
    ([("select option_index, version from ballot where election_id = ", .quoted eid),
      (" and hash = ", .quoted hash)], ";")
  | selectTally eid =>
    ([("select option_index from ballot where election_id = ", .quoted eid)],
      " and superseded = 0;")
  | selectHashes eid =>
    ([("select hash, option_index, version, superseded from ballot where election_id = ",
      .quoted eid)], " and superseded = 0;")
  | selectHash eid hash =>
    ([("select hash, option_index, version, superseded from ballot where election_id = ",
      .quoted eid), (" and hash = ", .quoted hash)], " and superseded = 0;")
  | selectNonce eid nonce =>
    ([("select nonce from nonce where election_id = ", .quoted eid),
      (" and nonce = ", .quoted nonce)], ";")
  | selectPrior eid cert =>
    ([("select hash, version from ballot_owner where election_id = ", .quoted eid),
      (" and cert_name = ", .quoted cert)], ";")
  | selectMaxSeq => ([], "select max(seq) from election;")

/-- The statement as it stands in the buffer. -/
def sql (stmt : Stmt) : Bytes :=
  (stmt.format.1.flatMap (fun p => ascii p.1 ++ p.2.text) ++ ascii stmt.format.2).take (sqlMax - 1)

/-- The format string with a slot for each argument. -/
def template (stmt : Stmt) : Template where
  pieces := stmt.format.1.map fun p => (ascii p.1, p.2.slot)
  last := ascii stmt.format.2

end Stmt

end BallotBox
