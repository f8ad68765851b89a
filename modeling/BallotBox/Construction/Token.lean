import BallotBox.Construction.Codec

/-!
# Authentication tokens

`libtetrisauth/lib/token.c`: a token is the claims in plain text, one per line, and the hexadecimal
digits of a MAC over these lines.  `Hmac` is HMAC-SHA256, any function to 32 bytes.
-/

namespace BallotBox

abbrev tokenSecretMinLen : ℕ := 32
abbrev tokenNameMax : ℕ := 15
abbrev tokenSigLen : ℕ := 32
abbrev tokenSigHexLen : ℕ := 64
abbrev tokenMaxLen : ℕ := 256

/-- `HMAC(EVP_sha256(), …)`: the code of a message under a secret. -/
abbrev Hmac := Bytes → Bytes → Vector UInt8 tokenSigLen

/-- `token_claims_t`. -/
structure TokenClaims where
  sub : Int64
  name : CStr (tokenNameMax + 1)
  iat : Int64
  exp : Int64
deriving DecidableEq

/-- The failures of `token_result_t`. -/
inductive TokenErr
  | malformed | signature | claims | expired
deriving DecidableEq, Repr

def isNameOk (s : Bytes) : Bool :=
  s ≠ [] && s.length ≤ tokenNameMax && s.all fun c =>
    (65 ≤ c && c ≤ 90) || (97 ≤ c && c ≤ 122) || (48 ≤ c && c ≤ 57) || c == 95 || c == 45

def secretOk (secret : Bytes) : Bool :=
  tokenSecretMinLen ≤ secret.length && secret.length ≤ 2 ^ 31 - 1

/-! ## Minting -/

/-- The text of `write_claims`. -/
def claimsText (claims : TokenClaims) : Bytes :=
  renderInt claims.sub.toInt ++ lf :: (claims.name.bytes ++ lf :: (renderInt claims.iat.toInt ++
    lf :: (renderInt claims.exp.toInt ++ [lf])))

/-- `write_claims`; that the name is terminated is part of its type. -/
def writeClaims (cap : ℕ) (claims : TokenClaims) : Option Bytes :=
  if !isNameOk claims.name.bytes then none
  else if cap ≤ (claimsText claims).length then none
  else some (claimsText claims)

def writeToken (hmac : Hmac) (cap : ℕ) (claims : TokenClaims) (secret : Bytes) : Option Bytes := do
  let text ← writeClaims cap claims
  if cap < text.length + tokenSigHexLen + 1 then none
  else some (text ++ hexEncode (hmac secret text).toList)

/-- `token_mint` into a buffer of `outLen` bytes. -/
def tokenMint (hmac : Hmac) (outLen : ℕ) (claims : TokenClaims) (secret : Bytes) :
    Option Bytes := do
  if outLen = 0 ∨ !secretOk secret then none
  else
    let token ← writeToken hmac tokenMaxLen claims secret
    if outLen < token.length + 1 then none else some token

/-! ## Verifying -/

/-- `token_parts_t`. -/
structure TokenParts where
  sub : Bytes
  name : Bytes
  iat : Bytes
  exp : Bytes
  sig : Bytes
  /-- The claims and their last separator. -/
  signing : Bytes

/-- The loop of `split_token`: the fields up to the last separator, and what follows it. -/
def splitFields : ℕ → Bytes → Except TokenErr (List Bytes × Bytes)
  | slots, p =>
    if lf ∈ p then
      match slots with
      -- a separator inside the MAC field
      | 0 => .error .malformed
      | slots + 1 => do
        let field := p.takeWhile (· ≠ lf)
        let (fields, rest) ← splitFields slots (p.drop (field.length + 1))
        return (field :: fields, rest)
    else .ok ([], p)

def splitToken (token : Bytes) : Except TokenErr TokenParts := do
  let (fields, sig) ← splitFields 4 token
  match fields with
  | [sub, name, iat, exp] =>
    if sig.length ≠ tokenSigHexLen then throw .malformed
    return { sub, name, iat, exp, sig, signing := token.take (token.length - sig.length) }
  | _ => throw .malformed

def checkSignature (hmac : Hmac) (parts : TokenParts) (secret : Bytes) : Except TokenErr Unit :=
  if hexEncode (hmac secret parts.signing).toList = parts.sig then .ok () else .error .signature

def parsePosLl (s : Bytes) : Option Int64 :=
  if s = [] then none
  else if s.head? = some 48 ∧ 1 < s.length then none
  else (readDigits (2 ^ 63 - 1) 0 s).map fun n => Int64.ofNat n

def readClaims (parts : TokenParts) : Except TokenErr TokenClaims :=
  match parsePosLl parts.sub, parsePosLl parts.iat, parsePosLl parts.exp with
  | some sub, some iat, some exp =>
    if isNameOk parts.name then .ok ⟨sub, .ofBytes parts.name, iat, exp⟩ else .error .claims
  | _, _, _ => .error .claims

/-- `token_verify` at a given time. -/
def tokenVerify (hmac : Hmac) (token secret : Bytes) (now : Int64) :
    Except TokenErr TokenClaims := do
  if !secretOk secret then throw .malformed
  let token := cstr token
  if tokenMaxLen ≤ token.length then throw .malformed
  let parts ← splitToken token
  checkSignature hmac parts secret
  let claims ← readClaims parts
  if claims.exp ≤ now then throw .expired
  return claims

end BallotBox
