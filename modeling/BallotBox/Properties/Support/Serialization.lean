import BallotBox.Construction.Htttp
import BallotBox.Framework.BoundedOutput

/-!
# What the serializers write

A serializer is a sequence of bounded appends (`Emits`) and checks that do not look at the buffer;
so a message either has a frame, which is written if there is room, or is refused whatever the
buffer is.
-/

namespace BallotBox

open List

variable {skipDate : Bool} {headers : List HtttpHeader} {req : HtttpRequest} {date : CStr 48}
  {res : HtttpResponse}
variable {cap : ℕ} {out reason : Bytes}

/-! ## Lines and bodies -/

def headerLine (key value : Bytes) : Bytes := key ++ ascii ": " ++ value ++ crlf

def bodyBytes (body : Bytes) : Bytes :=
  headerLine (ascii "Content-Length") (renderNat body.length) ++ crlf ++ body

def headerBytes (headers : List HtttpHeader) : Bytes :=
  headers.flatMap fun h => headerLine h.key.bytes h.value.bytes

def tailBytes (body : Bytes) : Bytes := if body = [] then crlf else bodyBytes body

lemma bufAppend_emits (src : Bytes) :
    Emits .noSpace (fun cap out => bufAppend cap out src) src := by
  intro cap out
  simp only [bufAppend, ← Nat.not_le, ite_not]

lemma emitHeader_emits (key value : Bytes) :
    Emits .noSpace (fun cap out => emitHeader cap out key value) (headerLine key value) := by
  have hline := (bufAppend_emits key).andThen ((bufAppend_emits (ascii ": ")).andThen
    ((bufAppend_emits value).andThen (bufAppend_emits crlf)))
  simp only [headerLine, append_assoc]
  exact hline

lemma emitBody_emits (body : Bytes) :
    Emits .noSpace (fun cap out => emitBody cap out body) (tailBytes body) := by
  have hend := (bufAppend_emits crlf).andThen (bufAppend_emits body)
  by_cases hbody : body = []
  · subst hbody
    exact hend
  · have hall := (emitHeader_emits (ascii "Content-Length") (renderNat body.length)).andThen hend
    intro cap out
    simp only [emitBody, tailBytes, if_neg hbody, bodyBytes, append_assoc _ crlf body]
    exact hall cap out

/-! ## Headers -/

def emitted (skipDate : Bool) (headers : List HtttpHeader) : List HtttpHeader :=
  headers.filter fun h => !ciEq h.key.bytes (ascii "Content-Length") &&
    !(skipDate && ciEq h.key.bytes (ascii "Date"))

/-- A header that passes the checks of `emit_headers`. -/
structure HtttpHeader.Written (h : HtttpHeader) : Prop where
  key_ne : h.key.bytes ≠ []
  key : validField h.key.bytes false = true
  value : validField h.value.bytes true = true
  notLength : ciEq h.key.bytes (ascii "Content-Length") = false

lemma emitHeaderLoop_cons (skipDate : Bool) (h : HtttpHeader) (headers : List HtttpHeader) :
    (emitted skipDate (h :: headers) = emitted skipDate headers ∧
      ∀ cap out, emitHeaderLoop cap skipDate out (h :: headers) =
        emitHeaderLoop cap skipDate out headers) ∨
    emitted skipDate (h :: headers) = h :: emitted skipDate headers ∧
      (h.Written ∧ (∀ cap out, emitHeaderLoop cap skipDate out (h :: headers) =
          emitHeader cap out h.key.bytes h.value.bytes >>= fun out =>
            emitHeaderLoop cap skipDate out headers) ∨
        ¬ h.Written ∧ ∀ cap out, emitHeaderLoop cap skipDate out (h :: headers) =
          .error .malformed) := by
  simp only [emitHeaderLoop, emitted]
  split_ifs with hlength hdate hne hvalid
  · exact .inl ⟨filter_cons_of_neg (by simp [hlength]), fun _ _ => rfl⟩
  · exact .inl ⟨filter_cons_of_neg (by simp [hdate]), fun _ _ => rfl⟩
  all_goals refine .inr ⟨filter_cons_of_pos (by simp [hlength, hdate]), ?_⟩
  · exact .inr ⟨fun hw => hw.key_ne hne, fun _ _ => rfl⟩
  · refine .inr ⟨fun hw => ?_, fun _ _ => rfl⟩
    simp [hw.key, hw.value] at hvalid
  · simp only [Bool.or_eq_true, Bool.not_eq_true', not_or, Bool.not_eq_false] at hvalid
    exact .inl ⟨⟨hne, hvalid.1, hvalid.2, by simpa using hlength⟩, fun _ _ => rfl⟩

lemma emitHeaderLoop_emits (hwritten : ∀ h ∈ emitted skipDate headers, h.Written) :
    Emits .noSpace (fun cap out => emitHeaderLoop cap skipDate out headers)
      (headerBytes (emitted skipDate headers)) := by
  induction headers with
  | nil => exact Emits.nil
  | cons h headers ih =>
    intro cap out
    beta_reduce
    obtain ⟨hskip, hloop⟩ | ⟨hkeep, ⟨-, hloop⟩ | ⟨hnot, -⟩⟩ :=
      emitHeaderLoop_cons skipDate h headers
    · rw [hskip] at hwritten ⊢
      rw [hloop]
      exact ih hwritten cap out
    · rw [hkeep, forall_mem_cons] at hwritten
      rw [hkeep, hloop]
      exact (emitHeader_emits h.key.bytes h.value.bytes).andThen (ih hwritten.2) cap out
    · rw [hkeep, forall_mem_cons] at hwritten
      exact absurd hwritten.1 hnot

lemma emitHeaderLoop_refuses (hwritten : ¬ ∀ h ∈ emitted skipDate headers, h.Written) :
    Refuses fun cap out => emitHeaderLoop cap skipDate out headers := by
  induction headers with
  | nil => exact absurd (forall_mem_nil _) hwritten
  | cons h headers ih =>
    intro cap out
    beta_reduce
    obtain ⟨hskip, hloop⟩ | ⟨hkeep, ⟨hw, hloop⟩ | ⟨-, hloop⟩⟩ :=
      emitHeaderLoop_cons skipDate h headers
    · rw [hskip] at hwritten
      rw [hloop]
      exact ih hwritten cap out
    · rw [hkeep, forall_mem_cons] at hwritten
      rw [hloop]
      exact (emitHeader_emits h.key.bytes h.value.bytes).refuses
        (ih fun hrest => hwritten ⟨hw, hrest⟩) cap out
    · exact ⟨.malformed, hloop cap out⟩

def HeadersOk (skipDate : Bool) (headers : List HtttpHeader) : Prop :=
  headers.length ≤ htttpMaxHeaders ∧ ∀ h ∈ emitted skipDate headers, h.Written

lemma emitHeaders_emits (hok : HeadersOk skipDate headers) :
    Emits .noSpace (fun cap out => emitHeaders cap skipDate out headers)
      (headerBytes (emitted skipDate headers)) := by
  intro cap out
  simp only [emitHeaders, if_neg hok.1.not_gt]
  exact emitHeaderLoop_emits hok.2 cap out

lemma emitHeaders_refuses (hok : ¬ HeadersOk skipDate headers) :
    Refuses fun cap out => emitHeaders cap skipDate out headers := by
  intro cap out
  by_cases hcount : htttpMaxHeaders < headers.length
  · exact ⟨.tooLong, if_pos hcount⟩
  · simp only [emitHeaders, if_neg hcount]
    exact emitHeaderLoop_refuses (fun h => hok ⟨not_lt.mp hcount, h⟩) cap out

/-! ## Requests -/

def requestFrame (req : HtttpRequest) : Bytes :=
  req.method.bytes ++ [32] ++ req.path.bytes ++ [32] ++ htttpVersion ++ crlf ++
    headerBytes req.headers ++ tailBytes req.body

def LineOk (method path : Bytes) : Prop :=
  (method ≠ [] ∧ validField method false = true) ∧ path ≠ [] ∧ validField path false = true

lemma lineOk_iff {method path : Bytes} : LineOk method path ↔ ¬ (method = [] ∨ path = []) ∧
      ¬ (!validField method false || !validField path false) = true := by
  simp only [LineOk, not_or, Bool.or_eq_true, Bool.not_eq_true', Bool.not_eq_false]
  tauto

/-- What `htttp_serialize_request` asks of a request. -/
structure HtttpRequest.Serializable (req : HtttpRequest) : Prop where
  line : LineOk req.method.bytes req.path.bytes
  headers : HeadersOk false req.headers

def HtttpRequest.frame (req : HtttpRequest) : Bytes :=
  requestFrame { req with headers := emitted false req.headers }

def requestWriter (req : HtttpRequest) : Writer HtttpErr UInt8 :=
  .andThen (bufAppend · · req.method.bytes) <| .andThen (bufAppend · · [32]) <|
  .andThen (bufAppend · · req.path.bytes) <| .andThen (bufAppend · · [32]) <|
  .andThen (bufAppend · · htttpVersion) <| .andThen (bufAppend · · crlf) <|
  .andThen (emitHeaders · false · req.headers) (emitBody · · req.body)

lemma requestWriter_emits (hok : HeadersOk false req.headers) :
    Emits .noSpace (requestWriter req) req.frame := by
  have hall := (bufAppend_emits req.method.bytes).andThen <| (bufAppend_emits [32]).andThen <|
    (bufAppend_emits req.path.bytes).andThen <| (bufAppend_emits [32]).andThen <|
    (bufAppend_emits htttpVersion).andThen <| (bufAppend_emits crlf).andThen <|
    (emitHeaders_emits hok).andThen (emitBody_emits req.body)
  simp only [HtttpRequest.frame, requestFrame, append_assoc]
  exact hall

lemma requestWriter_refuses (hok : ¬ HeadersOk false req.headers) : Refuses (requestWriter req) :=
  (bufAppend_emits _).refuses <| (bufAppend_emits _).refuses <| (bufAppend_emits _).refuses <|
    (bufAppend_emits _).refuses <| (bufAppend_emits _).refuses <| (bufAppend_emits _).refuses <|
    (emitHeaders_refuses hok).andThen _

lemma htttpSerializeRequest_eq_writer (hline : LineOk req.method.bytes req.path.bytes) (cap : ℕ) :
    htttpSerializeRequest cap req = requestWriter req cap [] := by
  obtain ⟨hempty, hvalid⟩ := lineOk_iff.mp hline
  unfold htttpSerializeRequest
  rw [if_neg hempty, if_neg hvalid]
  rfl

lemma htttpSerializeRequest_malformed (hline : ¬ LineOk req.method.bytes req.path.bytes) (cap : ℕ) :
    htttpSerializeRequest cap req = .error .malformed := by
  unfold htttpSerializeRequest
  by_cases hempty : req.method.bytes = [] ∨ req.path.bytes = []
  · rw [if_pos hempty]
    rfl
  · have hvalid := not_not.mp fun hvalid => hline (lineOk_iff.mpr ⟨hempty, hvalid⟩)
    rw [if_neg hempty, if_pos hvalid]
    rfl

lemma htttpSerializeRequest_of_serializable (hreq : req.Serializable) (cap : ℕ) :
    htttpSerializeRequest cap req =
      if req.frame.length ≤ cap then .ok req.frame else .error .noSpace := by
  rw [htttpSerializeRequest_eq_writer hreq.line, requestWriter_emits hreq.headers]
  rfl

lemma htttpSerializeRequest_refused (hreq : ¬ req.Serializable) (cap : ℕ) :
    ∃ e, htttpSerializeRequest cap req = .error e := by
  by_cases hline : LineOk req.method.bytes req.path.bytes
  · rw [htttpSerializeRequest_eq_writer hline]
    exact requestWriter_refuses (fun hok => hreq ⟨hline, hok⟩) cap []
  · exact ⟨.malformed, htttpSerializeRequest_malformed hline cap⟩

lemma htttpSerializeRequest_eq_ok_iff : htttpSerializeRequest cap req = .ok out ↔
      req.Serializable ∧ req.frame.length ≤ cap ∧ out = req.frame := by
  by_cases hreq : req.Serializable
  · rw [htttpSerializeRequest_of_serializable hreq]
    split_ifs with hroom
    · simp [hreq, hroom, eq_comm]
    · simp [hroom]
  · obtain ⟨e, he⟩ := htttpSerializeRequest_refused hreq cap
    simp [hreq, he]

/-! ## Responses -/

def responseHeaders (date : CStr 48) (res : HtttpResponse) : List HtttpHeader :=
  ⟨.ofBytes (ascii "Date"), .ofBytes date.bytes⟩ :: emitted true res.headers

def responseFrame (reason : Bytes) (headers : List HtttpHeader) (res : HtttpResponse) : Bytes :=
  htttpVersion ++ 32 :: (renderNat res.status ++ 32 :: reason) ++
    (crlf ++ (headerBytes headers ++ tailBytes res.body))

lemma dateKey_bytes : (CStr.ofBytes (ascii "Date") : CStr htttpMaxKey).bytes = ascii "Date" := by
  decide

lemma dateValue_bytes (date : CStr 48) :
    (CStr.ofBytes date.bytes : CStr htttpMaxValue).bytes = date.bytes :=
  CStr.ofBytes_bytes (date.fits.trans (by norm_num)) date.noNul

def responseWriter (reason : Bytes) (date : CStr 48) (res : HtttpResponse) :
    Writer HtttpErr UInt8 :=
  .andThen (bufAppend · · htttpVersion) <| .andThen (bufAppend · · [32]) <|
  .andThen (bufAppend · · (renderNat res.status)) <| .andThen (bufAppend · · [32]) <|
  .andThen (bufAppend · · reason) <| .andThen (bufAppend · · crlf) <|
  .andThen (emitHeader · · (ascii "Date") date.bytes) <|
  .andThen (emitHeaders · true · res.headers) (emitBody · · res.body)

lemma responseWriter_emits (hok : HeadersOk true res.headers) :
    Emits .noSpace (responseWriter reason date res)
      (responseFrame reason (responseHeaders date res) res) := by
  have hall := (bufAppend_emits htttpVersion).andThen <| (bufAppend_emits [32]).andThen <|
    (bufAppend_emits (renderNat res.status)).andThen <| (bufAppend_emits [32]).andThen <|
    (bufAppend_emits reason).andThen <| (bufAppend_emits crlf).andThen <|
    (emitHeader_emits (ascii "Date") date.bytes).andThen <|
    (emitHeaders_emits hok).andThen (emitBody_emits res.body)
  have hframe : responseFrame reason (responseHeaders date res) res = htttpVersion ++ ([32] ++
      (renderNat res.status ++ ([32] ++ (reason ++ (crlf ++ (headerLine (ascii "Date") date.bytes ++
        (headerBytes (emitted true res.headers) ++ tailBytes res.body))))))) := by
    simp [responseFrame, responseHeaders, headerBytes, dateKey_bytes, dateValue_bytes]
  rw [hframe]
  exact hall

lemma responseWriter_refuses
    (hok : ¬ HeadersOk true res.headers) : Refuses (responseWriter reason date res) :=
  (bufAppend_emits _).refuses <| (bufAppend_emits _).refuses <| (bufAppend_emits _).refuses <|
    (bufAppend_emits _).refuses <| (bufAppend_emits _).refuses <| (bufAppend_emits _).refuses <|
    (emitHeader_emits _ _).refuses <| (emitHeaders_refuses hok).andThen _

lemma htttpSerializeResponse_eq_ok_iff : htttpSerializeResponse cap date res = .ok out ↔
      ∃ reason, htttpReason res.status = some reason ∧ HeadersOk true res.headers ∧
        (responseFrame reason (responseHeaders date res) res).length ≤ cap ∧
        out = responseFrame reason (responseHeaders date res) res := by
  cases hreason : htttpReason res.status with
  | none => simp [htttpSerializeResponse, hreason]
  | some reason =>
    have hwriter : htttpSerializeResponse cap date res = responseWriter reason date res cap [] := by
      unfold htttpSerializeResponse
      rw [hreason]
      rfl
    simp only [Option.some.injEq, exists_eq_left', hwriter]
    by_cases hok : HeadersOk true res.headers
    · rw [(responseWriter_emits hok).eq_ok_iff]
      simp [hok]
    · simp [hok, (responseWriter_refuses hok).ne_ok]

end BallotBox
