import BallotBox.Construction.Htttp
import BallotBox.Framework.BoundedOutput

/-!
# The request serializer in memory

The serializer of requests as the code has it: the helpers write through a pointer, at an offset
that each of them advances, and `*out_len` is the capacity on entry and the bytes written on
success.
-/

namespace BallotBox.HtttpBuffer

/-- `htttp_request_t`, with the first `n_headers` of its headers, and the memory behind `body`. -/
structure Request where
  method : CStr htttpMaxMethod
  path : CStr htttpMaxPath
  headers : List HtttpHeader
  body : Option (ℕ → UInt8)
  bodyLen : UInt32

/-- The first `n` bytes behind a pointer. -/
def bytesAt (mem : Option (ℕ → UInt8)) (n : ℕ) : Bytes :=
  match mem with
  | none => []
  | some mem => (List.range n).map mem

/-- What `out` and `out_len` point to. -/
structure OutParams where
  out : ℕ → UInt8
  outLen : UInt32

def sizeSub (a b : ℕ) : ℕ := (UInt64.ofNat a - UInt64.ofNat b).toNat

/-- A helper of the serializer: it can fail, and changes the buffer and the offset. -/
abbrev Emit := EStateM HtttpErr (Cursor UInt8) PUnit

def bufAppend (cap : ℕ) (src : Bytes) : Emit := do
  if src.length = 0 then pure ⟨⟩
  else
    let c ← get
    if sizeSub cap c.off < src.length then throw .noSpace
    else set (c.write src)

def emitHeader (cap : ℕ) (key value : Bytes) : Emit := do
  bufAppend cap key
  bufAppend cap (ascii ": ")
  bufAppend cap value
  bufAppend cap crlf

/-- The loop of `emit_headers`. -/
def emitHeaderLoop (cap : ℕ) (skipDate : Bool) : List HtttpHeader → Emit
  | [] => pure ⟨⟩
  | h :: headers =>
    if ciEq h.key.bytes (ascii "Content-Length") then emitHeaderLoop cap skipDate headers
    else if skipDate && ciEq h.key.bytes (ascii "Date") then emitHeaderLoop cap skipDate headers
    else if h.key.bytes = [] then throw .malformed
    else if !validField h.key.bytes false || !validField h.value.bytes true then throw .malformed
    else do
      emitHeader cap h.key.bytes h.value.bytes
      emitHeaderLoop cap skipDate headers

def emitHeaders (cap : ℕ) (skipDate : Bool) (headers : List HtttpHeader) : Emit :=
  if htttpMaxHeaders < headers.length then throw .tooLong
  else emitHeaderLoop cap skipDate headers

/-- The generated `Content-Length`, printed into 16 bytes. -/
def emitLength (cap bodyLen : ℕ) : Emit :=
  if 16 ≤ (renderNat bodyLen).length then throw .malformed
  else emitHeader cap (ascii "Content-Length") (renderNat bodyLen)

def emitBody (cap : ℕ) (body : Option (ℕ → UInt8)) (bodyLen : ℕ) : Emit := do
  if 0 < bodyLen then emitLength cap bodyLen
  bufAppend cap crlf
  bufAppend cap (bytesAt body bodyLen)

/-- Everything `htttp_serialize_request` writes. -/
def emitRequest (cap : ℕ) (req : Request) : Emit := do
  bufAppend cap req.method.bytes
  bufAppend cap [32]
  bufAppend cap req.path.bytes
  bufAppend cap [32]
  bufAppend cap htttpVersion
  bufAppend cap crlf
  emitHeaders cap false req.headers
  emitBody cap req.body req.bodyLen.toNat

/-- Runs the helpers at `out`, with an offset of their own, and returns the offset. -/
def onBuffer (x : Emit) : EStateM HtttpErr OutParams ℕ := fun a =>
  match x ⟨a.out, 0⟩ with
  | .ok _ c => .ok c.off { a with out := c.mem }
  | .error e c => .error e { a with out := c.mem }

/-- `htttp_serialize_request`. -/
def htttpSerializeRequest (req : Request) : EStateM HtttpErr OutParams PUnit := do
  if req.body.isNone && 0 < req.bodyLen then throw .malformed
  if req.method.bytes = [] ∨ req.path.bytes = [] then throw .malformed
  if !validField req.method.bytes false || !validField req.path.bytes false then throw .malformed
  let a ← get
  let off ← onBuffer (emitRequest a.outLen.toNat req)
  modify fun a => { a with outLen := UInt32.ofNat off }

end BallotBox.HtttpBuffer
