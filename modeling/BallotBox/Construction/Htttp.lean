import BallotBox.Framework.Decimal

/-!
# HTTTP messages

`libhtttp/htttp.c`: the grammar of requests and responses.  The parser works on the bytes that are
left instead of on an offset: `findCrlf` is `find_crlf`, split there.
-/

namespace BallotBox

def htttpVersion : Bytes := ascii "HTTTP/1.0"

abbrev htttpMaxMethod : ℕ := 16
abbrev htttpMaxPath : ℕ := 256
abbrev htttpMaxHeaders : ℕ := 32
abbrev htttpMaxKey : ℕ := 64
abbrev htttpMaxValue : ℕ := 256

def crlf : Bytes := [cr, lf]

/-- The failures of `htttp_err_t`. -/
inductive HtttpErr
  | malformed | tooLong | length | noSpace
deriving DecidableEq, Repr

/-- `htttp_header_t`. -/
structure HtttpHeader where
  key : CStr htttpMaxKey
  value : CStr htttpMaxValue
deriving DecidableEq

/-- `htttp_request_t`; no body is an empty one. -/
structure HtttpRequest where
  method : CStr htttpMaxMethod
  path : CStr htttpMaxPath
  headers : List HtttpHeader
  body : Bytes
deriving DecidableEq

/-- `htttp_response_t`. -/
structure HtttpResponse where
  status : ℕ
  headers : List HtttpHeader
  body : Bytes
deriving DecidableEq

/-! ## Helpers -/

def lowerByte (c : UInt8) : UInt8 := if 65 ≤ c ∧ c ≤ 90 then c - 65 + 97 else c

def ciEq (a b : Bytes) : Bool := a.map lowerByte = b.map lowerByte

/-- `find_crlf`: the bytes before the next line end, and those after it. -/
def findCrlf : Bytes → Option (Bytes × Bytes)
  | [] => none
  | c :: rest =>
    if c = cr ∧ rest.head? = some lf then some ([], rest.tail)
    else (findCrlf rest).map fun (line, after) => (c :: line, after)

def copyToken (cap : ℕ) (src : Bytes) : Except HtttpErr (CStr cap) :=
  if cap ≤ src.length then .error .tooLong else .ok (.ofBytes src)

/-- The loop of `parse_uint`. -/
def parseUintLoop (value : ℕ) : Bytes → Except HtttpErr ℕ
  | [] => .ok value
  | c :: rest =>
    if !isDigit c then .error .malformed
    else if (2 ^ 32 - 1 - digitVal c) / 10 < value then .error .tooLong
    else parseUintLoop (value * 10 + digitVal c) rest

def parseUint (src : Bytes) : Except HtttpErr ℕ :=
  if src = [] then .error .malformed
  else if 32 < src.length then .error .tooLong
  else parseUintLoop 0 src

def htttpHeaderGet (headers : List HtttpHeader) (key : Bytes) : Option (CStr htttpMaxValue) :=
  (headers.find? fun h => ciEq h.key.bytes key).map (·.value)

def htttpReason : ℕ → Option Bytes
  | 200 => some (ascii "OK")
  | 201 => some (ascii "Created")
  | 400 => some (ascii "Bad Request")
  | 401 => some (ascii "Unauthorized")
  | 403 => some (ascii "Forbidden")
  | 404 => some (ascii "Not Found")
  | 409 => some (ascii "Conflict")
  | 413 => some (ascii "Payload Too Large")
  | 429 => some (ascii "Too Many Requests")
  | 500 => some (ascii "Internal Server Error")
  | 501 => some (ascii "Not Implemented")
  | _ => none

/-! ## Parsing -/

/-- A header line as key and value. -/
def splitHeader (line : Bytes) : Except HtttpErr (Bytes × Bytes) :=
  let key := line.takeWhile (· ≠ 58)
  match line.drop key.length with
  | 58 :: 32 :: value => if key = [] then .error .malformed else .ok (key, value)
  | _ => .error .malformed

/-- The header lines up to the blank one, with the number of slots left; and what follows. -/
def parseHeaders : ℕ → Bytes → Except HtttpErr (List HtttpHeader × Bytes)
  | slots, buf =>
    match findCrlf buf with
    | none => .error .malformed
    | some ([], rest) => .ok ([], rest)
    | some (line, rest) => do
      let (key, value) ← splitHeader line
      match slots with
      | 0 => throw .tooLong
      | slots + 1 =>
        let header : HtttpHeader := ⟨← copyToken _ key, ← copyToken _ value⟩
        let (headers, body) ← parseHeaders slots rest
        return (header :: headers, body)

/-- `parse_tail`: the header block and the body. -/
def parseTail (buf : Bytes) : Except HtttpErr (List HtttpHeader × Bytes) := do
  let (headers, rest) ← parseHeaders htttpMaxHeaders buf
  match htttpHeaderGet headers (ascii "Content-Length") with
  | none => if rest ≠ [] then throw .length else return (headers, [])
  | some cl =>
    match parseUint cl.bytes with
    | .error _ => throw .malformed
    | .ok declared => if declared ≠ rest.length then throw .length else return (headers, rest)

/-- Splits a line at its first space; both parts have to be there, the first not empty. -/
def splitSpace (line : Bytes) : Except HtttpErr (Bytes × Bytes) :=
  let token := line.takeWhile (· ≠ 32)
  match line.drop token.length with
  | 32 :: rest => if token = [] then .error .malformed else .ok (token, rest)
  | _ => .error .malformed

def htttpParseRequest (buf : Bytes) : Except HtttpErr HtttpRequest :=
  match findCrlf buf with
  | none => .error .malformed
  | some (line, rest) => do
    let (method, line) ← splitSpace line
    let method ← copyToken _ method
    let (path, version) ← splitSpace line
    let path ← copyToken _ path
    if version ≠ htttpVersion then throw .malformed
    let (headers, body) ← parseTail rest
    return ⟨method, path, headers, body⟩

/-- `htttp_parse_response`. -/
def htttpParseResponse (buf : Bytes) : Except HtttpErr HtttpResponse :=
  match findCrlf buf with
  | none => .error .malformed
  | some (line, rest) => do
    if line.take htttpVersion.length ≠ htttpVersion ∨
        (line.drop htttpVersion.length).head? ≠ some 32 then
      throw .malformed
    let (digits, _) ← splitSpace (line.drop (htttpVersion.length + 1))
    match parseUint digits with
    | .error _ => throw .malformed
    | .ok status =>
      if status < 100 ∨ 599 < status then throw .malformed
      let (headers, body) ← parseTail rest
      return ⟨status, headers, body⟩

/-! ## Serializing -/

def validField (s : Bytes) (allowSpace : Bool) : Bool :=
  s.all fun c => (33 ≤ c && c ≤ 126) || (allowSpace && c == 32)

def htttpHeaderSet (headers : List HtttpHeader) (key value : Bytes) :
    Except HtttpErr (List HtttpHeader) := do
  if key = [] then throw .malformed
  if !validField key false || !validField value true then throw .malformed
  if htttpMaxHeaders ≤ headers.length then throw .tooLong
  return headers ++ [⟨← copyToken _ key, ← copyToken _ value⟩]

def bufAppend (cap : ℕ) (out src : Bytes) : Except HtttpErr Bytes :=
  if cap - out.length < src.length then .error .noSpace else .ok (out ++ src)

def emitHeader (cap : ℕ) (out key value : Bytes) : Except HtttpErr Bytes := do
  let out ← bufAppend cap out key
  let out ← bufAppend cap out (ascii ": ")
  let out ← bufAppend cap out value
  bufAppend cap out crlf

/-- The loop of `emit_headers`. -/
def emitHeaderLoop (cap : ℕ) (skipDate : Bool) (out : Bytes) :
    List HtttpHeader → Except HtttpErr Bytes
  | [] => .ok out
  | h :: headers =>
    if ciEq h.key.bytes (ascii "Content-Length") then emitHeaderLoop cap skipDate out headers
    else if skipDate && ciEq h.key.bytes (ascii "Date") then
      emitHeaderLoop cap skipDate out headers
    else if h.key.bytes = [] then .error .malformed
    else if !validField h.key.bytes false || !validField h.value.bytes true then .error .malformed
    else do
      let out ← emitHeader cap out h.key.bytes h.value.bytes
      emitHeaderLoop cap skipDate out headers

def emitHeaders (cap : ℕ) (skipDate : Bool) (out : Bytes) (headers : List HtttpHeader) :
    Except HtttpErr Bytes :=
  if htttpMaxHeaders < headers.length then .error .tooLong
  else emitHeaderLoop cap skipDate out headers

def emitBody (cap : ℕ) (out body : Bytes) : Except HtttpErr Bytes := do
  let out ← if body = [] then pure out
    else emitHeader cap out (ascii "Content-Length") (renderNat body.length)
  let out ← bufAppend cap out crlf
  bufAppend cap out body

/-- `htttp_serialize_request` into a buffer of `cap` bytes. -/
def htttpSerializeRequest (cap : ℕ) (req : HtttpRequest) : Except HtttpErr Bytes := do
  if req.method.bytes = [] ∨ req.path.bytes = [] then throw .malformed
  if !validField req.method.bytes false || !validField req.path.bytes false then throw .malformed
  let out ← bufAppend cap [] req.method.bytes
  let out ← bufAppend cap out [32]
  let out ← bufAppend cap out req.path.bytes
  let out ← bufAppend cap out [32]
  let out ← bufAppend cap out htttpVersion
  let out ← bufAppend cap out crlf
  let out ← emitHeaders cap false out req.headers
  emitBody cap out req.body

/-- `htttp_serialize_response` into a buffer of `cap` bytes, at a given date. -/
def htttpSerializeResponse (cap : ℕ) (date : CStr 48) (res : HtttpResponse) :
    Except HtttpErr Bytes :=
  match htttpReason res.status with
  | none => .error .malformed
  | some reason => do
    let out ← bufAppend cap [] htttpVersion
    let out ← bufAppend cap out [32]
    let out ← bufAppend cap out (renderNat res.status)
    let out ← bufAppend cap out [32]
    let out ← bufAppend cap out reason
    let out ← bufAppend cap out crlf
    let out ← emitHeader cap out (ascii "Date") date.bytes
    let out ← emitHeaders cap true out res.headers
    emitBody cap out res.body

end BallotBox
