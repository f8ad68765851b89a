import BallotBox.Construction.Token
import BallotBox.Properties.Support.RequestFrames

/-!
# Tokens are canonical

A token verifies to claims exactly if it is, byte for byte, the token that is minted for them and
has not expired (`tokens_canonical`): the reader of each field accepts only what the writer prints.
-/

namespace BallotBox

open List Option

variable {claims : TokenClaims} {secret token : Bytes}
variable {s p rest : Bytes} {slots : ℕ} {hmac : Hmac} {parts : TokenParts}

/-! ## The fields -/

lemma parsePosLl_eq_some_iff {v : Int64} :
    parsePosLl s = some v ↔ 0 ≤ v.toInt ∧ s = renderInt v.toInt := by
  constructor
  · intro h
    unfold parsePosLl at h
    split_ifs at h with hnil hzero
    obtain ⟨n, hread, rfl⟩ := map_eq_some_iff.mp h
    obtain ⟨hdigits, hn, hle⟩ := (readDigits_eq_some_iff (by norm_num) (by norm_num)).mp hread
    have hvalue : (Int64.ofNat n).toInt = n := Int64.toInt_ofNat_of_lt (by omega)
    have hcanonical : renderNat (digitsValue s) = s := by
      refine renderNat_digitsValue hnil hdigits fun hhead => ?_
      have hone : ¬ 1 < s.length := fun hlt => hzero ⟨hhead, hlt⟩
      have hpos := List.length_pos_iff.mpr hnil
      omega
    rw [hvalue, renderInt, if_neg (by omega), Int.natAbs_natCast, hn]
    exact ⟨by omega, hcanonical.symm⟩
  · rintro ⟨hpos, rfl⟩
    obtain ⟨n, hn⟩ := Int.eq_ofNat_of_zero_le hpos
    have hlt := v.toInt_lt
    have hrender : renderInt v.toInt = renderNat n := by
      rw [hn, renderInt, if_neg (by omega)]
      rfl
    have hread : readDigits (2 ^ 63 - 1) 0 (renderNat n) = some n :=
      (readDigits_eq_some_iff (by norm_num) (by norm_num)).mpr
        ⟨fun c => isDigit_of_mem_renderNat, (digitsValue_renderNat n).symm, by omega⟩
    have hzero : ¬ ((renderNat n).head? = some 48 ∧ 1 < (renderNat n).length) := by
      rintro ⟨hhead, hlong⟩
      rw [head?_renderNat n hhead] at hlong
      exact absurd hlong (by norm_num)
    rw [hrender, parsePosLl, if_neg (renderNat_ne_nil n), if_neg hzero, hread, map_some]
    rw [← Int64.ofInt_eq_ofNat, ← hn, Int64.ofInt_toInt]

lemma splitFields_last (slots : ℕ) (h : lf ∉ p) : splitFields slots p = .ok ([], p) := by
  unfold splitFields
  rw [if_neg h]

lemma splitFields_line {field : Bytes} (h : lf ∉ field) :
    splitFields (slots + 1) (field ++ lf :: rest) =
      (splitFields slots rest).map fun r => (field :: r.1, r.2) := by
  have htake : (field ++ lf :: rest).takeWhile (· ≠ lf) = field := by
    rw [takeWhile_append_of_pos (by
      intro c hc
      simpa using fun heq : c = lf => h (heq ▸ hc))]
    simp
  rw [splitFields, if_pos (by simp)]
  dsimp only
  rw [htake, drop_append, drop_eq_nil_of_le (by omega)]
  have hdrop : (lf :: rest).drop (field.length + 1 - field.length) = rest := by simp
  rw [hdrop, nil_append]
  cases splitFields slots rest <;> rfl

lemma splitFields_eq_ok_iff {fields : List Bytes} :
    splitFields slots p = .ok (fields, rest) ↔ fields.length ≤ slots ∧ (∀ f ∈ fields, lf ∉ f) ∧
      lf ∉ rest ∧ p = unlines fields ++ rest := by
  constructor
  · intro h
    induction slots generalizing p fields with
    | zero =>
      by_cases hp : lf ∈ p
      · rw [splitFields, if_pos hp] at h
        cases h
      · rw [splitFields_last _ hp] at h
        obtain ⟨rfl, rfl⟩ := Prod.mk.inj (Except.ok.inj h)
        exact ⟨le_rfl, by simp, hp, rfl⟩
    | succ slots ih =>
      by_cases hp : lf ∈ p
      · obtain ⟨field, after, rfl, hfield⟩ := eq_append_cons_of_mem hp
        rw [splitFields_line hfield] at h
        cases hafter : splitFields slots after with
        | error e =>
          rw [hafter] at h
          cases h
        | ok r =>
          obtain ⟨fields', rest'⟩ := r
          rw [hafter] at h
          obtain ⟨rfl, rfl⟩ := Prod.mk.inj (Except.ok.inj h)
          obtain ⟨hlength, hfields, hrest, rfl⟩ := ih hafter
          exact ⟨Nat.succ_le_succ hlength, List.forall_mem_cons.mpr ⟨hfield, hfields⟩, hrest,
            by simp⟩
      · rw [splitFields_last _ hp] at h
        obtain ⟨rfl, rfl⟩ := Prod.mk.inj (Except.ok.inj h)
        exact ⟨Nat.zero_le _, by simp, hp, rfl⟩
  · rintro ⟨hlength, hfields, hrest, rfl⟩
    induction fields generalizing slots with
    | nil => exact splitFields_last _ hrest
    | cons f fields ih =>
      obtain ⟨hf, hfields⟩ := List.forall_mem_cons.mp hfields
      obtain ⟨slots, rfl⟩ : ∃ n, slots = n + 1 := Nat.exists_eq_succ_of_ne_zero (by
        rw [length_cons] at hlength
        omega)
      rw [unlines_cons, append_assoc, cons_append, splitFields_line hf,
        ih (Nat.le_of_succ_le_succ hlength) hfields]
      rfl

/-! ## The whole token -/

def tokenText (hmac : Hmac) (claims : TokenClaims) (secret : Bytes) : Bytes :=
  claimsText claims ++ hexEncode (hmac secret (claimsText claims)).toList

/-- Claims that can be written and read. -/
structure TokenClaims.Ok (claims : TokenClaims) : Prop where
  name : isNameOk claims.name.bytes = true
  sub : 0 ≤ claims.sub.toInt
  iat : 0 ≤ claims.iat.toInt
  exp : 0 ≤ claims.exp.toInt

def TokenClaims.fields (claims : TokenClaims) : List Bytes :=
  [renderInt claims.sub.toInt, claims.name.bytes, renderInt claims.iat.toInt,
    renderInt claims.exp.toInt]

lemma claimsText_eq (claims : TokenClaims) : claimsText claims = unlines claims.fields := by
  simp [claimsText, TokenClaims.fields]

lemma clean_of_isNameOk (h : isNameOk s = true) : Clean s := by
  have hall : ∀ c ∈ s, c ≠ 0 ∧ c ≠ cr ∧ c ≠ lf := by
    intro c hc
    simp only [isNameOk, Bool.and_eq_true, List.all_eq_true] at h
    have hbyte := h.2 c hc
    refine ⟨?_, ?_, ?_⟩
    all_goals
      rintro rfl
      revert hbyte
      decide
  exact ⟨fun hc => (hall _ hc).1 rfl, fun hc => (hall _ hc).2.1 rfl, fun hc => (hall _ hc).2.2 rfl⟩

lemma TokenClaims.Ok.clean_fields (hok : claims.Ok) : ∀ f ∈ claims.fields, Clean f := by
  intro f hf
  simp only [TokenClaims.fields, mem_cons, not_mem_nil, or_false] at hf
  rcases hf with rfl | rfl | rfl | rfl
  · exact clean_renderInt _
  · exact clean_of_isNameOk hok.name
  · exact clean_renderInt _
  · exact clean_renderInt _

lemma length_claimsText_le (claims : TokenClaims) : (claimsText claims).length ≤ 79 := by
  have hnumber (v : Int64) : (renderInt v.toInt).length ≤ 20 := by
    have hlow := v.le_toInt
    have hhigh := v.toInt_lt
    exact length_renderInt_le (k := 19) (by norm_num) (by omega)
  have hsub := hnumber claims.sub
  have hiat := hnumber claims.iat
  have hexp := hnumber claims.exp
  have hname : claims.name.bytes.length ≤ 15 := claims.name.fits
  simp only [claimsText, length_append, length_cons, length_nil]
  omega

lemma length_mac (hmac : Hmac) (secret text : Bytes) :
    (hexEncode (hmac secret text).toList).length = tokenSigHexLen := by
  rw [length_hexEncode, Vector.length_toList]
  rfl

lemma length_tokenText (hmac : Hmac) (claims : TokenClaims) (secret : Bytes) :
    (tokenText hmac claims secret).length = (claimsText claims).length + tokenSigHexLen := by
  rw [tokenText, length_append, length_mac]

lemma writeToken_eq (hmac : Hmac) (claims : TokenClaims) (secret : Bytes) :
    writeToken hmac tokenMaxLen claims secret =
      if isNameOk claims.name.bytes = true then some (tokenText hmac claims secret) else none := by
  have hlength := length_claimsText_le claims
  have hmax : tokenMaxLen = 256 := rfl
  have hsig : tokenSigHexLen = 64 := rfl
  unfold writeToken writeClaims
  by_cases hname : isNameOk claims.name.bytes = true
  · rw [if_neg (by simp [hname]), if_neg (by omega), if_pos hname]
    exact if_neg (by omega)
  · rw [if_pos (by simp [hname]), if_neg hname]
    rfl

/-- **Minting.** -/
lemma tokenMint_eq_some_iff {outLen : ℕ} :
    tokenMint hmac outLen claims secret = some token ↔ secretOk secret = true ∧
      isNameOk claims.name.bytes = true ∧ token = tokenText hmac claims secret ∧
        token.length < outLen := by
  unfold tokenMint
  rw [writeToken_eq]
  constructor
  · intro h
    split_ifs at h with hargs hname
    · obtain ⟨t, ht, hfits⟩ := bind_eq_some_iff.mp h
      obtain rfl := some.inj ht
      split_ifs at hfits with hlong
      obtain rfl := some.inj hfits
      have hsecret : secretOk secret = true := by
        by_contra hnot
        exact hargs (.inr (by simp [hnot]))
      exact ⟨hsecret, hname, rfl, by omega⟩
    · cases h
  · rintro ⟨hsecret, hname, rfl, hlength⟩
    rw [if_neg (by rw [hsecret]; simp; omega), if_pos hname]
    exact if_neg (by omega)

/-! ## Verifying -/

lemma splitToken_eq_ok_iff : splitToken token = .ok parts ↔
      (∀ f ∈ [parts.sub, parts.name, parts.iat, parts.exp], lf ∉ f) ∧ lf ∉ parts.sig ∧
        parts.sig.length = tokenSigHexLen ∧
        parts.signing = unlines [parts.sub, parts.name, parts.iat, parts.exp] ∧
        token = parts.signing ++ parts.sig := by
  unfold splitToken
  rw [bind_eq_ok]
  constructor
  · rintro ⟨⟨fields, sig⟩, hsplit, h⟩
    obtain ⟨-, hfields, hsig, rfl⟩ := splitFields_eq_ok_iff.mp hsplit
    dsimp only at h
    split at h
    · split_ifs at h with hlength
      · obtain ⟨_, hthrow, -⟩ := bind_eq_ok.mp h
        cases hthrow
      · obtain rfl := Except.ok.inj h
        have htake (a b : Bytes) : (a ++ b).take ((a ++ b).length - b.length) = a := by
          rw [length_append, Nat.add_sub_cancel, take_left]
        dsimp only
        rw [htake]
        exact ⟨hfields, hsig, not_not.mp hlength, rfl, rfl⟩
    · cases h
  · rintro ⟨hfields, hsig, hlength, hsigning, rfl⟩
    refine ⟨([parts.sub, parts.name, parts.iat, parts.exp], parts.sig),
      splitFields_eq_ok_iff.mpr ⟨le_rfl, hfields, hsig, by rw [hsigning]⟩, ?_⟩
    dsimp only
    rw [if_neg (by simp [hlength]), length_append, Nat.add_sub_cancel, take_left]
    rfl

lemma readClaims_eq_ok_iff :
    readClaims parts = .ok claims ↔ claims.Ok ∧ parts.sub = renderInt claims.sub.toInt ∧
      parts.name = claims.name.bytes ∧ parts.iat = renderInt claims.iat.toInt ∧
      parts.exp = renderInt claims.exp.toInt := by
  constructor
  · intro h
    unfold readClaims at h
    split at h
    · rename_i sub iat exp hsub hiat hexp
      split_ifs at h with hname
      obtain rfl := Except.ok.inj h
      obtain ⟨hsub0, hsub⟩ := parsePosLl_eq_some_iff.mp hsub
      obtain ⟨hiat0, hiat⟩ := parsePosLl_eq_some_iff.mp hiat
      obtain ⟨hexp0, hexp⟩ := parsePosLl_eq_some_iff.mp hexp
      have hbytes : (CStr.ofBytes parts.name : CStr (tokenNameMax + 1)).bytes = parts.name := by
        refine CStr.ofBytes_bytes ?_ (clean_of_isNameOk hname).1
        simp only [isNameOk, Bool.and_eq_true, decide_eq_true_eq] at hname
        exact hname.1.2
      exact ⟨⟨by rw [hbytes]; exact hname, hsub0, hiat0, hexp0⟩, hsub, hbytes.symm, hiat, hexp⟩
    · cases h
  · rintro ⟨hok, hsub, hname, hiat, hexp⟩
    unfold readClaims
    rw [parsePosLl_eq_some_iff.mpr ⟨hok.sub, hsub⟩, parsePosLl_eq_some_iff.mpr ⟨hok.iat, hiat⟩,
      parsePosLl_eq_some_iff.mpr ⟨hok.exp, hexp⟩]
    dsimp only
    rw [hname, if_pos hok.name, CStr.ofBytes_eq rfl]

def tokenParts (hmac : Hmac) (claims : TokenClaims) (secret : Bytes) : TokenParts where
  sub := renderInt claims.sub.toInt
  name := claims.name.bytes
  iat := renderInt claims.iat.toInt
  exp := renderInt claims.exp.toInt
  sig := hexEncode (hmac secret (claimsText claims)).toList
  signing := claimsText claims

/-- **Verifying what was minted.** -/
lemma tokenVerify_tokenText (hmac : Hmac) (hok : claims.Ok)
    (hsecret : secretOk secret = true) (now : Int64) :
    tokenVerify hmac (tokenText hmac claims secret) secret now =
      if claims.exp ≤ now then .error .expired else .ok claims := by
  have hmac_clean : Clean (hexEncode (hmac secret (claimsText claims)).toList) := clean_hexEncode _
  have hnul : (0 : UInt8) ∉ tokenText hmac claims secret := by
    rw [tokenText, mem_append, not_or]
    refine ⟨?_, hmac_clean.1⟩
    rw [claimsText_eq]
    simp only [unlines, mem_flatMap, mem_append, mem_singleton, not_exists, not_and,
      not_or]
    exact fun f hf => ⟨(hok.clean_fields f hf).1, by decide⟩
  have hlength := length_claimsText_le claims
  have hsplit : splitToken (tokenText hmac claims secret) = .ok (tokenParts hmac claims secret) :=
    splitToken_eq_ok_iff.mpr ⟨fun f hf => (hok.clean_fields f hf).2.2, hmac_clean.2.2,
      length_mac _ _ _, claimsText_eq claims, rfl⟩
  have hcheck : checkSignature hmac (tokenParts hmac claims secret) secret = .ok () := if_pos rfl
  have hread : readClaims (tokenParts hmac claims secret) = .ok claims :=
    readClaims_eq_ok_iff.mpr ⟨hok, rfl, rfl, rfl, rfl⟩
  have hlong : ¬ tokenMaxLen ≤ (tokenText hmac claims secret).length := by
    rw [length_tokenText]
    have hmax : tokenMaxLen = 256 := rfl
    have hsig : tokenSigHexLen = 64 := rfl
    omega
  unfold tokenVerify
  rw [if_neg (by simp [hsecret])]
  dsimp only
  rw [cstr_eq_self hnul, if_neg hlong]
  rw [hsplit, ok_bind, hcheck, ok_bind, hread, ok_bind]
  split_ifs <;> rfl

/-- **What verifies was minted.** -/
lemma of_tokenVerify {now : Int64} (h : tokenVerify hmac token secret now = .ok claims) :
    secretOk secret = true ∧ claims.Ok ∧ cstr token = tokenText hmac claims secret := by
  unfold tokenVerify at h
  obtain ⟨hsecret, h⟩ := ite_throw_eq_ok.mp h
  obtain ⟨-, h⟩ := ite_throw_eq_ok.mp h
  obtain ⟨parts, hsplit, h⟩ := bind_eq_ok.mp h
  obtain ⟨_, hcheck, h⟩ := bind_eq_ok.mp h
  obtain ⟨claims', hread, h⟩ := bind_eq_ok.mp h
  obtain ⟨-, h⟩ := ite_throw_eq_ok.mp h
  obtain rfl := Except.ok.inj h
  obtain ⟨-, -, -, hsigning, htoken⟩ := splitToken_eq_ok_iff.mp hsplit
  obtain ⟨hok, hsub, hname, hiat, hexp⟩ := readClaims_eq_ok_iff.mp hread
  have htext : parts.signing = claimsText claims' := by
    rw [hsigning, claimsText_eq, hsub, hname, hiat, hexp]
    rfl
  unfold checkSignature at hcheck
  split_ifs at hcheck with hmac_eq
  rw [htoken, ← hmac_eq, htext]
  exact ⟨by simpa using hsecret, hok, rfl⟩

/-- **Tokens.**  A token that was minted for claims without negative numbers verifies to exactly
these claims at every time before they expire, and has expired from then on; and whatever verifies
to claims is the token that is minted for them, so that no two strings verify to the same claims. -/
theorem tokens_canonical (hmac : Hmac) (secret : Bytes) :
    (∀ outLen claims token, 0 ≤ claims.sub.toInt → 0 ≤ claims.iat.toInt → 0 ≤ claims.exp.toInt →
      tokenMint hmac outLen claims secret = some token → ∀ now,
        (now < claims.exp → tokenVerify hmac token secret now = .ok claims) ∧
        (claims.exp ≤ now → tokenVerify hmac token secret now = .error .expired)) ∧
    (∀ token now claims, tokenVerify hmac token secret now = .ok claims →
      ∀ outLen, (cstr token).length < outLen →
        tokenMint hmac outLen claims secret = some (cstr token)) ∧
    ∀ token token' now now' claims, tokenVerify hmac token secret now = .ok claims →
      tokenVerify hmac token' secret now' = .ok claims → cstr token = cstr token' := by
  refine ⟨?_, ?_, ?_⟩
  · intro outLen claims token hsub hiat hexp hmint now
    obtain ⟨hsecret, hname, rfl, -⟩ := tokenMint_eq_some_iff.mp hmint
    rw [tokenVerify_tokenText hmac ⟨hname, hsub, hiat, hexp⟩ hsecret]
    exact ⟨fun hnow => if_neg (Int64.not_le.mpr hnow), fun hnow => if_pos hnow⟩
  · intro token now claims hverify outLen hlength
    obtain ⟨hsecret, hok, htoken⟩ := of_tokenVerify hverify
    exact tokenMint_eq_some_iff.mpr ⟨hsecret, hok.name, htoken, hlength⟩
  · intro token token' now now' claims hverify hverify'
    rw [(of_tokenVerify hverify).2.2, (of_tokenVerify hverify').2.2]

/-- A token for `ann` under a MAC that is always zero. -/
theorem annToken_canonical : let hmac : Hmac := fun _ _ => Vector.replicate _ 0
    let secret : Bytes := List.replicate 32 7
    let claims : TokenClaims := ⟨3, .ofBytes (ascii "ann"), 100, 200⟩
    ∃ token, tokenMint hmac tokenMaxLen claims secret = some token ∧
      tokenVerify hmac token secret 199 = .ok claims ∧
      tokenVerify hmac token secret 200 = .error .expired := by
  intro hmac secret claims
  have hmint : (tokenMint hmac tokenMaxLen claims secret).isSome = true := by decide +kernel
  obtain ⟨token, htoken⟩ := isSome_iff_exists.mp hmint
  have hverify := (tokens_canonical hmac secret).1 tokenMaxLen claims token (by decide) (by decide)
    (by decide) htoken
  exact ⟨token, htoken, (hverify 199).1 (by decide), (hverify 200).2 (by decide)⟩

end BallotBox
