import BallotBox.Construction.Codec

/-!
# The two intake channels

A voter's connection (`ballotd/session.c`) first has to pass the gate of `libtetrisauth`; then
`handleRequest` lets the five voter operations through, under the name the gate left behind.
`handleConn` of `ballotd/control_plane.c` lets the other seven through.
-/

namespace BallotBox

abbrev maxUserName : ℕ := 16

abbrev sessionMaxFrame : ℕ := 65536

/-! ## Forwarding -/

def isVoterOp : BclOp → Bool
  | .join | .cast | .update | .results | .check => true
  | _ => false

/-- The operations `handle_conn` lets through. -/
def isAdminOp : BclOp → Bool
  | .create | .opening | .close | .publish | .adminResults | .adminCheck | .adminNextId => true
  | _ => false

/-- A request under the name of a connection. -/
def BclRequest.stamp (req : BclRequest) (certName : CStr maxUserName) : BclRequest :=
  { req with
    certName := .ofBytes certName.bytes
    ballot := { req.ballot with certName := .ofBytes certName.bytes } }

/-- What `handle_request` forwards to the admin thread; `none` if it answers 400 itself. -/
def handleRequest (certName : CStr maxUserName) (buf : Bytes) : Option BclRequest := do
  let http ← (htttpParseRequest buf).toOption
  let req ← bclDecodeRequest http
  if isVoterOp req.op then some (req.stamp certName) else none

/-- What `handle_conn` forwards to the admin thread. -/
def handleConn (frame : Bytes) : Option BclRequest := do
  let http ← (htttpParseRequest frame).toOption
  let req ← bclDecodeRequest http
  if isAdminOp req.op then some req else none

/-! ## The gate -/

/-- What `session_recv` returns: a frame, an error that ends the stream (`SESSION_ERR_IO`,
`SESSION_ERR_TOOBIG`), or one that spoils a frame. -/
inductive Recv
  | frame (buf : Bytes)
  | broken
  | garbled
deriving DecidableEq

inductive AuthMethod
  | none | guest | login | register
deriving DecidableEq

def authMethodOf (req : HtttpRequest) : AuthMethod :=
  if req.method.bytes = ascii "GUEST" then .guest
  else if req.method.bytes = ascii "LOGIN" then .login
  else if req.method.bytes = ascii "REGISTER" then .register
  else .none

/-- `req_body_split`: the user name up to the first line feed, and the password after it. -/
def reqBodySplit (body : Bytes) : Option (Bytes × Bytes) :=
  let user := body.takeWhile (· ≠ lf)
  match body.drop user.length with
  | [] => none
  | _ :: pass => if user = [] ∨ pass = [] then none else some (user, pass)

def userNameCharOk (c : UInt8) : Bool :=
  (97 ≤ c && c ≤ 122) || (65 ≤ c && c ≤ 90) || (48 ≤ c && c ≤ 57) || c == 95 || c == 45

def userNameOk (s : Bytes) : Bool :=
  s ≠ [] && s.length ≤ maxUserName - 1 && s.all userNameCharOk

def userNameFold (s : Bytes) : Option (CStr maxUserName) :=
  if userNameOk s then some (.ofBytes (s.map lowerByte)) else none

/-- What the gate asks of its surroundings at the `n`-th frame: `auth_max_attempts`, the status of
an account check, whether a token can be minted. -/
structure Accounts where
  maxAttempts : Option ℤ
  accountLogin : ℕ → CStr maxUserName → Bytes → ℕ
  accountRegister : ℕ → CStr maxUserName → Bytes → ℕ
  tokenMint : ℕ → CStr maxUserName → Bool

/-- The globals of the gate: `glb_name`, and of `glb_conf` the number of attempts. -/
structure Gate where
  name : CStr maxUserName
  maxAttempts : ℕ
  frozen : Bool
deriving DecidableEq

/-- `AUTH_DEFAULT_MAX_ATTEMPTS`. -/
def authDefaultMaxAttempts : ℕ := 5

/-- `auth_conf_load`: the setting is read once. -/
def authConfLoad (env : Accounts) (g : Gate) : Gate :=
  if g.frozen then g
  else { g with
    maxAttempts := match env.maxAttempts with
      | some n => if 1 ≤ n ∧ n ≤ 100 then n.toNat else authDefaultMaxAttempts
      | none => authDefaultMaxAttempts
    frozen := true }

/-- The part of `auth_handler` that a login and a registration share, with `token_handler`. -/
def enter (env : Accounts) (n : ℕ) (check : CStr maxUserName → Bytes → ℕ) (body : Bytes)
    (g : Gate) : ℕ × Gate :=
  match reqBodySplit body with
  | none => (400, g)
  | some (user, pass) =>
    match userNameFold user with
    | none => (400, g)
    | some name =>
      if check name pass ≠ 200 then (check name pass, g)
      else if env.tokenMint n name then (200, { g with name := name })
      else (500, g)

/-- `auth_handler`: the status, `none` for the negative one of a broken stream. -/
def authHandler (env : Accounts) (n : ℕ) (rx : Recv) (g : Gate) : Option ℕ × Gate :=
  match rx with
  | .broken => (none, g)
  | .garbled => (some 400, g)
  | .frame buf =>
    match htttpParseRequest buf with
    | .error _ => (some 400, g)
    | .ok req =>
      match authMethodOf req with
      | .guest => (some 200, { g with name := default })
      | .none => (some 401, g)
      | .login => (enter env n (env.accountLogin n) req.body (authConfLoad env g)).map some id
      | .register =>
        (enter env n (env.accountRegister n) req.body (authConfLoad env g)).map some id

/-! ## A connection -/

/-- Where a connection is: in `auth_retry_handler` with the attempts spent, in `session_main`, or
gone. -/
inductive Session
  | authenticating (spent : ℕ) (g : Gate)
  | serving (certName : CStr maxUserName)
  | closed
deriving DecidableEq

/-- A connection after the handshake. -/
def Session.start : Session := .authenticating 0 ⟨default, authDefaultMaxAttempts, false⟩

/-- One `session_recv` of `session_main`, with the request it makes the session forward. -/
def sessionStep (env : Accounts) (n : ℕ) (rx : Recv) : Session → Session × Option BclRequest
  | .authenticating spent g =>
    match authHandler env n rx g with
    | (none, _) => (.closed, none)
    | (some status, g') =>
      if status = 200 then (.serving g'.name, none)
      else
        -- a refusal that checked nothing costs no attempt
        let spent' := if status = 400 then spent else spent + 1
        (if spent' < g'.maxAttempts then .authenticating spent' g' else .closed, none)
  | .serving certName =>
    match rx with
    | .frame buf => (.serving certName, handleRequest certName buf)
    | .garbled => (.serving certName, none)
    | .broken => (.closed, none)
  | .closed => (.closed, none)

/-- A connection after a sequence of receptions. -/
def sessionAfter (env : Accounts) (rxs : List Recv) : Session :=
  rxs.zipIdx.foldl (fun s (rx, n) => (sessionStep env n rx s).1) .start

/-- The request the session forwards when it has received `rxs` and `rx` comes next. -/
def forwards (env : Accounts) (rxs : List Recv) (rx : Recv) : Option BclRequest :=
  (sessionStep env rxs.length rx (sessionAfter env rxs)).2

end BallotBox
