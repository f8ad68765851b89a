import BallotBox.Properties.Support.Messages

/-!
# Requests that can be written, and what is read back

The frame of a request is its request line, its headers, a blank line and its body (`requestFrame`).
A request with valid fields is serialized into that, and parsing it gives the request back.
-/

namespace BallotBox

open List

variable {headers : List HtttpHeader} {cap n : ℕ} {value s body : Bytes}

/-! ## Serializing -/

/-- A header the serializer writes as it is. -/
structure HtttpHeader.Plain (h : HtttpHeader) : Prop where
  key_ne : h.key.bytes ≠ []
  key : validField h.key.bytes false = true
  value : validField h.value.bytes true = true
  colon : (58 : UInt8) ∉ h.key.bytes
  notLength : ciEq h.key.bytes (ascii "Content-Length") = false

lemma emitted_plain (hplain : ∀ h ∈ headers, h.Plain) : emitted false headers = headers := by
  apply filter_eq_self.mpr
  intro h hh
  simp [(hplain h hh).notLength]

lemma htttpSerializeRequest_eq {req : HtttpRequest}
    (hmethod : req.method.bytes ≠ [] ∧ validField req.method.bytes false = true)
    (hpath : req.path.bytes ≠ [] ∧ validField req.path.bytes false = true)
    (hplain : ∀ h ∈ req.headers, h.Plain) (hcount : req.headers.length ≤ htttpMaxHeaders)
    (hcap : (requestFrame req).length ≤ cap) :
    htttpSerializeRequest cap req = .ok (requestFrame req) := by
  have hemitted := emitted_plain hplain
  have hframe : req.frame = requestFrame req := by rw [HtttpRequest.frame, hemitted]
  have hwritten : ∀ h ∈ emitted false req.headers, h.Written := by
    intro h hh
    obtain ⟨hne, hkey, hvalue, -, hlength⟩ := hplain h (hemitted ▸ hh)
    exact ⟨hne, hkey, hvalue, hlength⟩
  rw [← hframe] at hcap ⊢
  exact htttpSerializeRequest_eq_ok_iff.mpr ⟨⟨⟨hmethod, hpath⟩, hcount, hwritten⟩, hcap, rfl⟩

/-! ## Parsing -/

lemma findCrlf_line {line rest : Bytes} (h : cr ∉ line) :
    findCrlf (line ++ (crlf ++ rest)) = some (line, rest) := by
  induction line with
  | nil => simp [findCrlf, crlf]
  | cons c line ih =>
    rw [mem_cons, not_or] at h
    rw [cons_append, findCrlf, if_neg (fun hc => h.1 hc.1.symm), ih h.2]
    rfl

lemma splitSpace_token {token rest : Bytes} (hne : token ≠ []) (h : (32 : UInt8) ∉ token) :
    splitSpace (token ++ 32 :: rest) = .ok (token, rest) := by
  have htake : (token ++ 32 :: rest).takeWhile (· ≠ 32) = token := by
    rw [takeWhile_append_of_pos (by
      intro c hc
      simpa using fun heq : c = 32 => h (heq ▸ hc))]
    simp
  simp only [splitSpace]
  rw [htake, drop_left]
  simp [hne]

lemma splitHeader_line {key : Bytes} (hne : key ≠ []) (h : (58 : UInt8) ∉ key) :
    splitHeader (key ++ (ascii ": " ++ value)) = .ok (key, value) := by
  have htake : (key ++ (ascii ": " ++ value)).takeWhile (· ≠ 58) = key := by
    rw [takeWhile_append_of_pos (by
      intro c hc
      simpa using fun heq : c = 58 => h (heq ▸ hc))]
    have hcons : ascii ": " ++ value = 58 :: 32 :: value := rfl
    rw [hcons]
    simp
  simp only [splitHeader]
  rw [htake, drop_left]
  have hcons : ascii ": " ++ value = 58 :: 32 :: value := rfl
  rw [hcons]
  simp [hne]

lemma copyToken_eq (s : CStr cap) (hcap : 0 < cap) : copyToken cap s.bytes = .ok s := by
  have hfits := s.fits
  rw [copyToken, if_neg (by omega), CStr.ofBytes_eq rfl]

lemma parseUintLoop_eq_ok_iff {ds : Bytes} {v : ℕ} (hv : v < 2 ^ 32) :
    parseUintLoop v ds = .ok n ↔ (∀ c ∈ ds, isDigit c = true) ∧
      ds.foldl (fun v c => v * 10 + digitVal c) v = n ∧ n < 2 ^ 32 := by
  induction ds generalizing v with
  | nil =>
    constructor
    · intro h
      obtain rfl := Except.ok.inj h
      exact ⟨by simp, rfl, hv⟩
    · rintro ⟨-, rfl, -⟩
      rfl
  | cons c ds ih =>
    have hstep := le_foldl_digitVal ds (v * 10 + digitVal c)
    rw [parseUintLoop, forall_mem_cons, foldl_cons]
    cases hdigit : isDigit c with
    | false => simp
    | true =>
      by_cases hfits : (2 ^ 32 - 1 - digitVal c) / 10 < v
      · rw [if_neg (by simp), if_pos hfits]
        constructor
        · intro h
          cases h
        · rintro ⟨-, rfl, hlt⟩
          omega
      · have hbyte : digitVal c < 256 := (Nat.sub_le _ _).trans_lt c.toNat_lt
        rw [if_neg (by simp), if_neg hfits, ih (by omega)]
        simp

lemma parseUint_eq_ok_iff :
    parseUint s = .ok n ↔ (s ≠ [] ∧ s.length ≤ 32 ∧ ∀ c ∈ s, isDigit c = true) ∧
      digitsValue s = n ∧ n < 2 ^ 32 := by
  unfold parseUint
  split_ifs with hnil hlong
  · simp [hnil]
  · simp only [false_iff]
    intro h
    omega
  · rw [parseUintLoop_eq_ok_iff (by norm_num), digitsValue]
    simp [hnil, Nat.le_of_not_lt hlong]

lemma parseUint_renderNat (h : n < 2 ^ 32) : parseUint (renderNat n) = .ok n := by
  have hlen : (renderNat n).length ≤ 10 := length_renderNat_le (by norm_num) (by omega)
  exact parseUint_eq_ok_iff.mpr ⟨⟨renderNat_ne_nil n, by omega, fun c => isDigit_of_mem_renderNat⟩,
    digitsValue_renderNat n, h⟩

lemma notMem_of_validField {space : Bool} (h : validField s space = true) {c : UInt8}
    (hc : c < 32) : c ∉ s := by
  intro hmem
  have hvalid := all_eq_true.mp h c hmem
  simp only [Bool.or_eq_true, Bool.and_eq_true, decide_eq_true_eq, beq_iff_eq] at hvalid
  rcases hvalid with ⟨h33, -⟩ | ⟨-, rfl⟩
  · have hlt : c.toNat < 32 := UInt8.lt_iff_toNat_lt.mp hc
    have hge : 33 ≤ c.toNat := UInt8.le_iff_toNat_le.mp h33
    omega
  · exact absurd hc (by decide)

lemma space_notMem_of_validField (h : validField s false = true) : (32 : UInt8) ∉ s := by
  intro hmem
  simpa using all_eq_true.mp h 32 hmem

/-- A header line the parser reads back. -/
structure HtttpHeader.Readable (h : HtttpHeader) : Prop where
  key_ne : h.key.bytes ≠ []
  colon : (58 : UInt8) ∉ h.key.bytes
  key : cr ∉ h.key.bytes
  value : cr ∉ h.value.bytes

lemma HtttpHeader.Plain.readable {h : HtttpHeader} (hp : h.Plain) : h.Readable :=
  ⟨hp.key_ne, hp.colon, notMem_of_validField hp.key (by decide),
    notMem_of_validField hp.value (by decide)⟩

lemma parseHeaders_eq (hread : ∀ h ∈ headers, h.Readable)
    {slots : ℕ} (hslots : headers.length ≤ slots) (rest : Bytes) :
    parseHeaders slots (headerBytes headers ++ (crlf ++ rest)) = .ok (headers, rest) := by
  induction headers generalizing slots with
  | nil =>
    have hblank : findCrlf (headerBytes [] ++ (crlf ++ rest)) = some ([], rest) :=
      findCrlf_line not_mem_nil
    unfold parseHeaders
    rw [hblank]
  | cons h headers ih =>
    obtain ⟨hne, hcolon, hkey, hvalue⟩ := hread h mem_cons_self
    obtain ⟨slots, rfl⟩ : ∃ n, slots = n + 1 := Nat.exists_eq_succ_of_ne_zero (by
      rw [length_cons] at hslots
      omega)
    have hline : cr ∉ h.key.bytes ++ (ascii ": " ++ h.value.bytes) := by
      have hsep : cr ∉ ascii ": " := by decide
      simp [hkey, hvalue, hsep]
    have hfind : findCrlf (headerBytes (h :: headers) ++ (crlf ++ rest)) =
        some (h.key.bytes ++ (ascii ": " ++ h.value.bytes),
          headerBytes headers ++ (crlf ++ rest)) := by
      rw [← findCrlf_line hline]
      simp [headerBytes, headerLine]
    obtain ⟨c, cs, hcons⟩ : ∃ c cs, h.key.bytes ++ (ascii ": " ++ h.value.bytes) = c :: cs :=
      exists_cons_of_ne_nil (by simp [hne])
    have hsplit : splitHeader (h.key.bytes ++ (ascii ": " ++ h.value.bytes)) =
        .ok (h.key.bytes, h.value.bytes) := splitHeader_line hne hcolon
    unfold parseHeaders
    rw [hfind, hcons]
    rw [hcons] at hsplit
    dsimp only
    rw [hsplit, ok_bind]
    dsimp only
    rw [copyToken_eq _ (by norm_num), ok_bind, copyToken_eq _ (by norm_num), ok_bind,
      ih (fun g hg => hread g (mem_cons_of_mem _ hg)) (by simpa using hslots), ok_bind]
    rfl

def lengthHeaders (body : Bytes) : List HtttpHeader :=
  if body = [] then [] else [⟨.ofBytes (ascii "Content-Length"), .ofBytes (renderNat body.length)⟩]

lemma clean_renderNat (n : ℕ) : Clean (renderNat n) := by
  have hnot {c : UInt8} (hdigit : isDigit c = false) : c ∉ renderNat n := fun hc =>
    Bool.false_ne_true (hdigit.symm.trans (isDigit_of_mem_renderNat hc))
  exact ⟨hnot (by decide), hnot (by decide), hnot (by decide)⟩

lemma lengthValue_bytes (h : n < 2 ^ 32) :
    (CStr.ofBytes (renderNat n) : CStr htttpMaxValue).bytes = renderNat n := by
  have hlen : (renderNat n).length ≤ 10 := length_renderNat_le (by norm_num) (by omega)
  exact CStr.ofBytes_bytes (hlen.trans (by norm_num)) (clean_renderNat n).1

lemma tailBytes_eq (h : body.length < 2 ^ 32) :
    tailBytes body = headerBytes (lengthHeaders body) ++ (crlf ++ body) := by
  by_cases hbody : body = []
  · simp [tailBytes, lengthHeaders, headerBytes, hbody]
  · have hkey : (CStr.ofBytes (ascii "Content-Length") : CStr htttpMaxKey).bytes =
        ascii "Content-Length" := by decide
    simp [tailBytes, lengthHeaders, headerBytes, bodyBytes, hbody, lengthValue_bytes h, hkey]

lemma lengthHeaders_readable (h : body.length < 2 ^ 32) : ∀ g ∈ lengthHeaders body, g.Readable := by
  unfold lengthHeaders
  split_ifs
  · simp
  · have hkey : ascii "Content-Length" ≠ [] ∧ (58 : UInt8) ∉ ascii "Content-Length" ∧
        cr ∉ ascii "Content-Length" := by decide
    rw [forall_mem_singleton]
    refine ⟨hkey.1, hkey.2.1, hkey.2.2, ?_⟩
    rw [lengthValue_bytes h]
    exact (clean_renderNat _).2.1

lemma length_lengthHeaders_le (body : Bytes) : (lengthHeaders body).length ≤ 1 := by
  unfold lengthHeaders
  split_ifs <;> simp

lemma parseTail_eq (hplain : ∀ h ∈ headers, h.Plain)
    (hcount : (headers ++ lengthHeaders body).length ≤ htttpMaxHeaders)
    (hlen : body.length < 2 ^ 32) :
    parseTail (headerBytes headers ++ tailBytes body) =
      .ok (headers ++ lengthHeaders body, body) := by
  have hread : ∀ h ∈ headers ++ lengthHeaders body, h.Readable := by
    rw [forall_mem_append]
    exact ⟨fun h hh => (hplain h hh).readable, lengthHeaders_readable hlen⟩
  have hparse := parseHeaders_eq hread hcount body
  have htext : headerBytes headers ++ tailBytes body =
      headerBytes (headers ++ lengthHeaders body) ++ (crlf ++ body) := by
    rw [tailBytes_eq hlen]
    simp [headerBytes]
  have hget : htttpHeaderGet (headers ++ lengthHeaders body) (ascii "Content-Length") =
      htttpHeaderGet (lengthHeaders body) (ascii "Content-Length") := by
    have hnone : headers.find? (fun h => ciEq h.key.bytes (ascii "Content-Length")) = none := by
      rw [find?_eq_none]
      intro h hh
      simp [(hplain h hh).notLength]
    rw [htttpHeaderGet, find?_append, hnone]
    rfl
  rw [htext, parseTail, hparse, ok_bind]
  dsimp only
  rw [hget]
  by_cases hbody : body = []
  · simp [htttpHeaderGet, lengthHeaders, hbody]
    rfl
  · have hfind : htttpHeaderGet (lengthHeaders body) (ascii "Content-Length") =
        some (.ofBytes (renderNat body.length)) := by
      have hkey : ciEq (CStr.ofBytes (ascii "Content-Length") : CStr htttpMaxKey).bytes
          (ascii "Content-Length") = true := by decide
      simp [htttpHeaderGet, lengthHeaders, hbody, hkey]
    rw [hfind]
    dsimp only
    rw [lengthValue_bytes hlen, parseUint_renderNat hlen]
    exact if_neg (by simp)

/-- **Frames.**  A request with valid fields is read back from its frame. -/
theorem htttpParseRequest_frame {req : HtttpRequest}
    (hmethod : req.method.bytes ≠ [] ∧ validField req.method.bytes false = true)
    (hpath : req.path.bytes ≠ [] ∧ validField req.path.bytes false = true)
    (hplain : ∀ h ∈ req.headers, h.Plain) (hcount : req.headers.length < htttpMaxHeaders)
    (hlen : req.body.length < 2 ^ 32) :
    htttpParseRequest (requestFrame req) =
      .ok { req with headers := req.headers ++ lengthHeaders req.body } := by
  have hline : cr ∉ req.method.bytes ++ 32 :: (req.path.bytes ++ 32 :: htttpVersion) := by
    have hversion : cr ∉ htttpVersion := by decide
    have hspace : cr ≠ 32 := by decide
    simp [notMem_of_validField hmethod.2 (c := cr) (by decide),
      notMem_of_validField hpath.2 (c := cr) (by decide), hversion, hspace]
  have hfind : findCrlf (requestFrame req) =
      some (req.method.bytes ++ 32 :: (req.path.bytes ++ 32 :: htttpVersion),
        headerBytes req.headers ++ tailBytes req.body) := by
    rw [← findCrlf_line hline]
    simp [requestFrame]
  unfold htttpParseRequest
  rw [hfind]
  dsimp only
  rw [splitSpace_token hmethod.1 (space_notMem_of_validField hmethod.2), ok_bind]
  dsimp only
  rw [copyToken_eq _ (by norm_num), ok_bind,
    splitSpace_token hpath.1 (space_notMem_of_validField hpath.2), ok_bind]
  dsimp only
  rw [copyToken_eq _ (by norm_num), ok_bind, if_neg (by simp)]
  have hslots : (req.headers ++ lengthHeaders req.body).length ≤ htttpMaxHeaders := by
    have hone := length_lengthHeaders_le req.body
    rw [length_append]
    omega
  rw [parseTail_eq hplain hslots hlen]
  rfl

/-! ## Payloads -/

lemma hexNibble_nibbleChar (c : UInt8) :
    hexNibble (nibbleChar (c >>> 4)) = some (c >>> 4) ∧
    hexNibble (nibbleChar (c &&& 15)) = some (c &&& 15) ∧ (c >>> 4) <<< 4 ||| (c &&& 15) = c := by
  have hall : ∀ b : BitVec 8, let c := UInt8.ofBitVec b
      hexNibble (nibbleChar (c >>> 4)) = some (c >>> 4) ∧
      hexNibble (nibbleChar (c &&& 15)) = some (c &&& 15) ∧
      (c >>> 4) <<< 4 ||| (c &&& 15) = c := by
    decide +kernel
  exact hall c.toBitVec

@[simp] lemma length_hexEncode (p : Bytes) : (hexEncode p).length = 2 * p.length := by
  induction p with
  | nil => rfl
  | cons c p ih =>
    simp only [hexEncode, flatMap_cons, length_append, length_cons, length_nil] at ih ⊢
    omega

lemma clean_hexEncode (p : Bytes) : Clean (hexEncode p) := by
  have hdigit (d : UInt8) : nibbleChar d ≠ 0 ∧ nibbleChar d ≠ cr ∧ nibbleChar d ≠ lf := by
    have hall : ∀ b : BitVec 8, nibbleChar (.ofBitVec b) ≠ 0 ∧ nibbleChar (.ofBitVec b) ≠ cr ∧
        nibbleChar (.ofBitVec b) ≠ lf := by
      decide +kernel
    exact hall d.toBitVec
  have hnot {c : UInt8} (hc : ∀ d, nibbleChar d ≠ c) : c ∉ hexEncode p := by
    intro hmem
    obtain ⟨d, -, hd⟩ := mem_flatMap.mp hmem
    rcases mem_pair.mp hd with hd | hd
    · exact hc _ hd.symm
    · exact hc _ hd.symm
  exact ⟨hnot fun d => (hdigit d).1, hnot fun d => (hdigit d).2.1, hnot fun d => (hdigit d).2.2⟩

lemma hexDecodeLoop_hexEncode (p : Bytes) : hexDecodeLoop (hexEncode p) = (p, true) := by
  induction p with
  | nil => rfl
  | cons c p ih =>
    obtain ⟨hhi, hlo, hbyte⟩ := hexNibble_nibbleChar c
    have hcons : hexEncode (c :: p) =
        nibbleChar (c >>> 4) :: nibbleChar (c &&& 15) :: hexEncode p := rfl
    rw [hcons, hexDecodeLoop, hhi, hlo]
    dsimp only
    rw [ih, hbyte]

lemma hexDecode_hexEncode {p : Bytes} (h : p.length ≤ cap) :
    hexDecode cap (hexEncode p) = (p, true) := by
  rw [hexDecode, length_hexEncode, if_neg (by omega), hexDecodeLoop_hexEncode]

/-! ## Bodies -/

def PlainKey (key : String) : Prop :=
  ascii key ≠ [] ∧ (61 : UInt8) ∉ ascii key ∧ (ascii key).length ≤ 63 ∧ Clean (ascii key)

instance (key : String) : Decidable (PlainKey key) := inferInstanceAs (Decidable (_ ∧ _))

lemma bodyKvs_kvLine {key : String} (hkey : PlainKey key) (hvalue : Clean value) (rest : Bytes) :
    bodyKvs (kvLine key value ++ rest) = (ascii key, value.take 319) :: bodyKvs rest := by
  obtain ⟨hne, heq, hlen, hnul, hcr, hlf⟩ := hkey
  have hline : lf ∉ ascii key ++ 61 :: value := by
    have h61 : lf ≠ 61 := by decide
    simp [hlf, hvalue.2.2, h61]
  have hlast : (ascii key ++ 61 :: value).getLast? ≠ some cr := by
    intro h
    have h61 : cr ≠ 61 := by decide
    have hmem : cr ∈ ascii key ++ 61 :: value := mem_of_getLast? h
    simp [hcr, hvalue.2.1, h61] at hmem
  have htake : (ascii key ++ 61 :: value).takeWhile (· ≠ 61) = ascii key := by
    rw [takeWhile_append_of_pos (by
      intro c hc
      simpa using fun h : c = 61 => heq (h ▸ hc))]
    simp
  have hkv : kvOfLine (ascii key ++ 61 :: value) = some (ascii key, value.take 319) := by
    simp only [kvOfLine]
    rw [if_neg hlast, htake, drop_left]
    dsimp only
    rw [if_neg hne, take_of_length_le hlen, cstr_eq_self hnul,
      cstr_eq_self fun h => hvalue.1 (mem_of_mem_take h)]
  have hsplit :
      (kvLine key value ++ rest).splitOn lf = (ascii key ++ 61 :: value) :: rest.splitOn lf := by
    rw [← splitOn_append_cons hline rest]
    simp [kvLine]
  rw [bodyKvs, hsplit, filterMap_cons_some hkv, ← bodyKvs]

lemma bodyKvs_nil : bodyKvs [] = [] := by decide

def bodyOf (fields : List (String × Bytes)) : Bytes :=
  (fields.map fun kv => kvLine kv.1 kv.2).flatten

lemma bodyKvs_lines {fields : List (String × Bytes)}
    (h : ∀ kv ∈ fields, PlainKey kv.1 ∧ Clean kv.2 ∧ kv.2.length ≤ 319) :
    bodyKvs (bodyOf fields) = fields.map fun kv => (ascii kv.1, kv.2) := by
  induction fields with
  | nil => exact bodyKvs_nil
  | cons kv fields ih =>
    rw [forall_mem_cons] at h
    obtain ⟨⟨hkey, hclean, hlen⟩, hrest⟩ := h
    rw [bodyOf, map_cons, flatten_cons, bodyKvs_kvLine hkey hclean, map_cons,
      ← ih hrest, take_of_length_le hlen, bodyOf]

lemma oneLine_of_bodyAppendAll {texts : List Bytes} {out : Bytes}
    (h : bodyAppendAll body texts = some out) : ∀ x ∈ texts, OneLine x := by
  induction texts generalizing body with
  | nil => simp
  | cons x texts ih =>
    rw [bodyAppendAll] at h
    obtain ⟨body', hbody, hrest⟩ := Option.bind_eq_some_iff.mp h
    unfold bodyAppend at hbody
    split_ifs at hbody with hlen hline
    rw [forall_mem_cons]
    exact ⟨⟨fun hcr => hline (.inl hcr), fun hlf => hline (.inr hlf)⟩, ih hrest⟩

lemma clean_of_oneLine_kvLine {key : String} (hnul : (0 : UInt8) ∉ value)
    (h : OneLine (kvLine key value)) : Clean value := by
  obtain ⟨hcr, hlf⟩ := h
  have hdrop : (kvLine key value).dropLast = ascii key ++ [61] ++ value := by
    rw [kvLine, dropLast_concat]
  rw [hdrop] at hlf
  simp only [kvLine, mem_append, not_or] at hcr hlf
  exact ⟨hnul, hcr.1.2, hlf.2⟩

end BallotBox
