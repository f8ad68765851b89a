import BallotBox.Construction.Registry
import BallotBox.Framework.Loops

/-!
# The retry loop of the gate

`auth_retry_handler` of `libtetrisauth/auth.c` takes frames off its connection until an attempt
succeeds, the stream breaks or the attempts are used up.  `Retry` is where the loop stands,
`Retry.round` one run of its body.
-/

namespace BallotBox

/-! ## `session_recv` -/

/-- What a peer may send where a frame is expected. -/
inductive WireFrame
  /-- A length above `SESSION_MAX_FRAME`. -/
  | oversized
  /-- The stream ends before the frame does. -/
  | cutShort
  /-- A token that `session_decrypt` refuses. -/
  | forged
  /-- A token, by its plaintext. -/
  | token (plain : Bytes)
deriving DecidableEq

/-- `SESSION_OK` with the plaintext, or the error. -/
inductive SessionRc
  | ok (plain : Bytes)
  | io | tooBig | crypto | noSpace | proto
deriving DecidableEq

/-- What `session_recv` reads of a `session_t`. -/
structure SessionHandle where
  established : Bool
  recvDead : Bool
deriving DecidableEq

/-- A session that `session_accept` has set up. -/
def SessionHandle.accepted : SessionHandle := ⟨true, false⟩

/-- `session_recv` into a buffer of `cap` bytes. -/
def sessionRecv (cap : ℕ) (sh : SessionHandle) (stream : List WireFrame) :
    SessionRc × SessionHandle × List WireFrame :=
  if !sh.established || sh.recvDead then (.proto, sh, stream)
  else match stream with
    | [] => (.io, sh, [])
    | .cutShort :: rest => (.io, sh, rest)
    -- the body of the frame is not read, so the stream is out of step from here on
    | .oversized :: rest => (.tooBig, { sh with recvDead := true }, rest)
    | .forged :: rest => (.crypto, sh, rest)
    | .token plain :: rest => (if cap < plain.length then .noSpace else .ok plain, sh, rest)

/-! ## `account_login` -/

/-- What `account_login` calls. -/
inductive LoginCall
  | connOpen
  | connClose
  /-- `select id, salt, digest, iters from user where name = ..`, by `db_socket_exec`. -/
  | exec (name : CStr maxUserName)
  | passwordHash (pass saltHex : Bytes) (iters : ℤ)

/-- The answers to a call; `db_socket_exec` answers with the text of the reply. -/
abbrev LoginCall.Answer : LoginCall → Type
  | connOpen => Bool
  | connClose => Unit
  | exec _ => DbStatus × Bytes
  | passwordHash .. => Option (Vector UInt8 32)

/-- The columns of the row of a user. -/
structure LoginRow where
  uid : ℤ
  saltHex : Bytes
  digestHex : Bytes
  iters : ℤ
deriving DecidableEq

/-- `copy_text` into a buffer of 32 bytes. -/
def copyText (src : Bytes) : Option Bytes := if src = [] ∨ 32 ≤ src.length then none else some src

/-- `parse_login_db_result`: the row, or the status. -/
def parseLoginDbResult (st : DbStatus) (body : Bytes) : Except ℕ LoginRow :=
  if st ≠ .ok then .error 500
  else if dbRowCount body < 0 then .error 500
  else if dbRowCount body = 0 then .error 404
  else if (dbRowFieldsInto body 0 4).1 ≠ 4 then .error 500
  else match (dbRowFieldsInto body 0 4).2 with
    | [id, salt, digest, iters] =>
      if salt.length ≠ 32 ∨ digest.length ≠ 64 then .error 500
      else match copyText id, copyText iters with
        | some id, some iters =>
          if wrap32 (strtol (cstr iters)).1 < 1 then .error 500
          else .ok ⟨(strtol (cstr id)).1, salt, digest, wrap32 (strtol (cstr iters)).1⟩
        | _, _ => .error 500
    | _ => .error 500

/-- A process of `account_login`. -/
abbrev LoginProc (α : Type) := Process LoginCall LoginCall.Answer α

/-- The select of `account_login`, repeated once on `DB_RETRY`. -/
def loginSelect (name : CStr maxUserName) : LoginProc (DbStatus × Bytes) := do
  let first ← Process.ask (LoginCall.exec name)
  if first.1 = .retry then Process.ask (LoginCall.exec name) else return first

/-- The end of `account_login`, on what the select has come to. -/
def loginReplied (pass : Bytes) (st : DbStatus) (body : Bytes) : LoginProc (ℕ × Option ℤ) :=
  match parseLoginDbResult st body with
  | .error status => return (status, none)
  | .ok row => do
    match ← Process.ask (LoginCall.passwordHash pass row.saltHex row.iters) with
    | none => return (500, none)
    | some want =>
      if hexEncode want.toList = row.digestHex then return (200, some row.uid)
      else return (401, none)

/-- `account_login`: the status, and the id. -/
def accountLogin (name : CStr maxUserName) (pass : Bytes) : LoginProc (ℕ × Option ℤ) := do
  if ← Process.ask LoginCall.connOpen then
    let (st, body) ← loginSelect name
    Process.ask LoginCall.connClose
    loginReplied pass st body
  else return (500, none)

/-! ## The gate over a store -/

/-- The calls of `auth_handler` on the account functions. -/
inductive AccountCall
  | login (name : CStr maxUserName) (pass : Bytes)
  | register (name : CStr maxUserName) (pass : Bytes)
deriving DecidableEq

/-- The call gets past the length check of `account_register`; `account_login` has none. -/
def AccountCall.reachesStore : AccountCall → Bool
  | login _ _ => true
  | register _ pass => 8 ≤ pass.length && pass.length ≤ 128

/-- What the gate asks of its surroundings: settings, process id, and what each check and minting
comes to. -/
structure AccountStore where
  maxAttempts : Option ℤ
  pbkdf2Iters : ℤ
  pid : ℕ
  login : ∀ (_n : ℕ) (name : CStr maxUserName) (pass : Bytes),
    { r // (accountLogin name pass).Returns r }
  register : ∀ (_n : ℕ) (name : CStr maxUserName) (pass : Bytes),
    { r // (accountRegister ⟨name, pass, pid, pbkdf2Iters⟩).Returns r }
  tokenMint : ℕ → CStr maxUserName → Bool

def AccountCall.status (store : AccountStore) (n : ℕ) : AccountCall → ℕ
  | login name pass => (store.login n name pass).val.1
  | register name pass => (store.register n name pass).val.1

/-- The surroundings as `Construction/Session` sees them. -/
def AccountStore.accounts (store : AccountStore) : Accounts where
  maxAttempts := store.maxAttempts
  accountLogin n name pass := (AccountCall.login name pass).status store n
  accountRegister n name pass := (AccountCall.register name pass).status store n
  tokenMint := store.tokenMint

/-- Where the loop of `auth_retry_handler` stands. -/
structure Retry where
  sh : SessionHandle
  /-- What has not been read yet. -/
  stream : List WireFrame
  /-- The counter of the loop. -/
  spent : ℕ
  gate : Gate
  statuses : List ℤ
  calls : List AccountCall
deriving DecidableEq

/-- The loop is entered after the handshake. -/
def Retry.start (stream : List WireFrame) (gate : Gate) : Retry :=
  ⟨.accepted, stream, 0, gate, [], []⟩

/-- The account checks so far that reached the store. -/
def Retry.checks (s : Retry) : List AccountCall := s.calls.filter (·.reachesStore)

/-- `auth_session_parser` on what `session_recv` returned: a status, or the method and both parts of
the body. -/
def authSessionParser (store : AccountStore) (rc : SessionRc) (gate : Gate) :
    Except ℤ (AuthMethod × Bytes × Bytes) × Gate :=
  match rc with
  | .io | .tooBig => (.error (-1), gate)
  | .crypto | .noSpace | .proto => (.error 400, gate)
  | .ok buf =>
    match htttpParseRequest buf with
    | .error _ => (.error 400, gate)
    | .ok req =>
      match authMethodOf req with
      | .guest => (.error 200, { gate with name := default })
      | .none => (.error 401, gate)
      | method =>
        let gate := authConfLoad store.accounts gate
        match reqBodySplit req.body with
        | none => (.error 400, gate)
        | some (user, pass) => (.ok (method, user, pass), gate)

/-- A call on an account function with what `auth_handler` does about its status, `token_handler`
included. -/
def Retry.check (store : AccountStore) (s : Retry) (call : AccountCall) (name : CStr maxUserName) :
    ℤ × Retry :=
  let status := call.status store s.statuses.length
  let s := { s with calls := s.calls ++ [call] }
  if status ≠ 200 then (status, s)
  else if store.tokenMint s.statuses.length name then
    (200, { s with gate := { s.gate with name := name } })
  else (500, s)

/-- `auth_handler`: the status. -/
def Retry.attempt (store : AccountStore) (s : Retry) : ℤ × Retry :=
  let (rc, sh, stream) := sessionRecv sessionMaxFrame s.sh s.stream
  let (parsed, gate) := authSessionParser store rc s.gate
  let s := { s with sh := sh, stream := stream, gate := gate }
  match parsed with
  | .error status => (status, s)
  | .ok (method, user, pass) =>
    match userNameFold user with
    | none => (400, s)
    | some name =>
      match method with
      | .login => s.check store (.login name pass) name
      | .register => s.check store (.register name pass) name
      | _ => (500, s)

/-- `AUTH_OK` and `AUTH_DROP`. -/
inductive AuthResult
  | ok | drop
deriving DecidableEq

/-- The condition and the body of the loop of `auth_retry_handler`. -/
def Retry.round (store : AccountStore) (s : Retry) : Round Retry AuthResult :=
  if s.gate.maxAttempts ≤ s.spent then .leave .drop s
  else
    let (status, s) := s.attempt store
    let s := { s with statuses := s.statuses ++ [status] }
    if status = 200 then .leave .ok s
    else if status < 0 then .leave .drop s
    else .again { s with spent := if status ≠ 400 then s.spent + 1 else s.spent }

end BallotBox
