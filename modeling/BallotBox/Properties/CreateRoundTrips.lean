import BallotBox.Properties.RoundTrips

/-!
# The request to create an election, over the wire and back

A `CREATE` carries up to 84 strings in one body, a line for each.  Only a line break in a string or
a name that is no header value keeps it from being sent, and what is sent is what is read
(`foldl_createKv_fields`).
-/

namespace BallotBox

open List

variable {req : BclRequest}

/-! ## The fields -/

/-- The single fields of a `CREATE`. -/
def configFields (cfg : BbConfig) : List (String × Bytes) :=
  [("title", cfg.title.bytes), ("open_time", cfg.openTime.bytes),
    ("close_time", cfg.closeTime.bytes)]

/-- The options and the eligible names of a `CREATE`. -/
def listFields (cfg : BbConfig) : List (String × Bytes) :=
  (cfg.options.map fun o => ("option", o.bytes)) ++
    cfg.eligible.map fun c => ("eligible", c.bytes)

/-- The lines of a `CREATE`. -/
def createFields (req : BclRequest) : List (String × Bytes) :=
  (if req.electionId.bytes = [] then [] else [("election_id", req.electionId.bytes)]) ++
    configFields req.config ++ listFields req.config

lemma requestTexts_create (hop : req.op = .create) :
    requestTexts req = (createFields req).map fun kv => kvLine kv.1 kv.2 := by
  simp only [requestTexts, hop, createFields, configFields, listFields, map_append, map_map]
  split_ifs <;> simp [Function.comp_def]

/-- No string of the request breaks a line. -/
structure BclRequest.LineSafe (req : BclRequest) : Prop where
  id : Clean req.electionId.bytes
  title : Clean req.config.title.bytes
  openTime : Clean req.config.openTime.bytes
  closeTime : Clean req.config.closeTime.bytes
  options : ∀ o ∈ req.config.options, Clean o.bytes
  eligible : ∀ c ∈ req.config.eligible, Clean c.bytes

lemma forall_createFields {p : String → Bytes → Prop} (hid : p "election_id" req.electionId.bytes)
    (htitle : p "title" req.config.title.bytes) (hopen : p "open_time" req.config.openTime.bytes)
    (hclose : p "close_time" req.config.closeTime.bytes)
    (hoptions : ∀ o ∈ req.config.options, p "option" o.bytes)
    (heligible : ∀ c ∈ req.config.eligible, p "eligible" c.bytes) :
    ∀ kv ∈ createFields req, p kv.1 kv.2 := by
  unfold createFields configFields listFields
  simp only [forall_mem_append, forall_mem_cons, forall_mem_map]
  refine ⟨⟨?_, htitle, hopen, hclose, by simp⟩, hoptions, heligible⟩
  split_ifs
  · simp
  · simpa using hid

lemma length_le_319 {cap : ℕ} (s : CStr cap) (hcap : cap ≤ 320) : s.bytes.length ≤ 319 :=
  s.fits.trans (by omega)

lemma BclRequest.LineSafe.readable (h : req.LineSafe) :
    ∀ kv ∈ createFields req, PlainKey kv.1 ∧ Clean kv.2 ∧ kv.2.length ≤ 319 :=
  forall_createFields (p := fun k v => PlainKey k ∧ Clean v ∧ v.length ≤ 319)
    ⟨by decide, h.id, length_le_319 _ (by norm_num)⟩
    ⟨by decide, h.title, length_le_319 _ (by norm_num)⟩
    ⟨by decide, h.openTime, length_le_319 _ (by norm_num)⟩
    ⟨by decide, h.closeTime, length_le_319 _ (by norm_num)⟩
    (fun o ho => ⟨by decide, h.options o ho, length_le_319 o (by norm_num)⟩)
    fun c hc => ⟨by decide, h.eligible c hc, length_le_319 c (by norm_num)⟩

lemma texts_oneLine_iff (hop : req.op = .create) :
    (∀ x ∈ requestTexts req, OneLine x) ↔ req.LineSafe := by
  rw [requestTexts_create hop, forall_mem_map]
  constructor
  · intro h
    simp only [createFields, configFields, listFields, forall_mem_append,
      forall_mem_cons, forall_mem_map] at h
    obtain ⟨⟨hid, htitle, hopen, hclose, -⟩, hoptions, heligible⟩ := h
    have hclean {cap : ℕ} (s : CStr cap) {key : String} (h : OneLine (kvLine key s.bytes)) :
        Clean s.bytes := clean_of_oneLine_kvLine s.noNul h
    refine ⟨?_, hclean _ htitle, hclean _ hopen, hclean _ hclose,
      fun o ho => hclean o (hoptions o ho), fun c hc => hclean c (heligible c hc)⟩
    split_ifs at hid with hempty
    · rw [hempty]
      decide
    · exact hclean _ (by simpa using hid)
  · intro h kv hkv
    obtain ⟨hkey, hvalue, -⟩ := h.readable kv hkv
    exact oneLine_kvLine hkey.2.2.2 hvalue

lemma createFields_fits (hop : req.op = .create) :
    (requestTexts req).flatten.length < codecBodyMax := by
  have hline {cap : ℕ} (key : String) (s : CStr cap) :
      (kvLine key s.bytes).length ≤ (ascii key).length + (cap - 1) + 2 := by
    have := s.fits
    rw [length_kvLine]
    omega
  have hoptions : (req.config.options.map fun o => kvLine "option" o.bytes).flatten.length ≤
      16 * 39 := by
    refine length_flatten_le (by simpa using req.config.options_le) ?_
    rw [forall_mem_map]
    exact fun o _ => hline "option" o
  have heligible : (req.config.eligible.map fun c => kvLine "eligible" c.bytes).flatten.length ≤
      64 * 41 := by
    refine length_flatten_le (by simpa using req.config.eligible_le) ?_
    rw [forall_mem_map]
    exact fun c _ => hline "eligible" c
  have hid : (kvLine "election_id" req.electionId.bytes).length ≤ 28 := hline _ _
  have htitle : (kvLine "title" req.config.title.bytes).length ≤ 70 := hline _ _
  have hopen : (kvLine "open_time" req.config.openTime.bytes).length ≤ 42 := hline _ _
  have hclose : (kvLine "close_time" req.config.closeTime.bytes).length ≤ 43 := hline _ _
  have hfirst : (if req.electionId.bytes = [] then []
      else [kvLine "election_id" req.electionId.bytes]).flatten.length ≤ 28 := by
    split_ifs
    · simp
    · simpa using hid
  simp only [requestTexts, hop, flatten_append, flatten_cons, flatten_nil,
    length_append, length_nil, codecBodyMax]
  omega

/-! ## Reading the lines back -/

lemma createKv_option (r : BclRequest) (v : Bytes) :
    createKv r (ascii "option", v) = { r with config := r.config.addOption v } := rfl

lemma createKv_eligible (r : BclRequest) (v : Bytes) :
    createKv r (ascii "eligible", v) = { r with config := r.config.addEligible v } := rfl

lemma foldl_createKv_options (r : BclRequest) (options : List (CStr bbOptionLen))
    (h : (r.config.options ++ options).length ≤ bbMaxOptions) :
    (options.map fun o => (ascii "option", o.bytes)).foldl createKv r = { r with config :=
        { r.config with options := r.config.options ++ options, options_le := h } } := by
  induction options generalizing r with
  | nil => simp
  | cons o options ih =>
    have hroom : r.config.options.length < bbMaxOptions := by
      rw [length_append, length_cons] at h
      omega
    have hstep : r.config.addOption o.bytes = { r.config with
        options := r.config.options ++ [o], options_le := by simpa using hroom } := by
      simp only [BbConfig.addOption, dif_pos hroom, CStr.ofBytes_self]
    rw [map_cons, foldl_cons, createKv_option, hstep, ih _ (by simpa using h)]
    simp

lemma foldl_createKv_eligible (r : BclRequest) (eligible : List (CStr bbCertLen))
    (h : (r.config.eligible ++ eligible).length ≤ bbMaxVoters) :
    (eligible.map fun c => (ascii "eligible", c.bytes)).foldl createKv r = { r with config :=
        { r.config with eligible := r.config.eligible ++ eligible, eligible_le := h } } := by
  induction eligible generalizing r with
  | nil => simp
  | cons c eligible ih =>
    have hroom : r.config.eligible.length < bbMaxVoters := by
      rw [length_append, length_cons] at h
      omega
    have hstep : r.config.addEligible c.bytes = { r.config with
        eligible := r.config.eligible ++ [c], eligible_le := by simpa using hroom } := by
      simp only [BbConfig.addEligible, dif_pos hroom, CStr.ofBytes_self]
    rw [map_cons, foldl_cons, createKv_eligible, hstep, ih _ (by simpa using h)]
    simp

lemma foldl_createKv_config (r : BclRequest) (cfg : BbConfig) :
    ((configFields cfg).map fun kv => (ascii kv.1, kv.2)).foldl createKv r =
      { r with config := { r.config with
        title := cfg.title, openTime := cfg.openTime, closeTime := cfg.closeTime } } := by
  have htitle (r : BclRequest) (v : Bytes) : createKv r (ascii "title", v) =
      { r with config := { r.config with title := .ofBytes v } } := rfl
  have hopen (r : BclRequest) (v : Bytes) : createKv r (ascii "open_time", v) =
      { r with config := { r.config with openTime := .ofBytes v } } := rfl
  have hclose (r : BclRequest) (v : Bytes) : createKv r (ascii "close_time", v) =
      { r with config := { r.config with closeTime := .ofBytes v } } := rfl
  simp only [configFields, map_cons, map_nil, foldl_cons, foldl_nil, htitle,
    hopen, hclose, CStr.ofBytes_self]

lemma foldl_createKv_fields (op : BclOp) (cert : CStr bbCertLen) :
    ((createFields req).map fun kv => (ascii kv.1, kv.2)).foldl createKv
        ⟨op, cert, default, default, default, default⟩ =
      ⟨op, cert, req.electionId, default, default, req.config⟩ := by
  have hid :
      ((if req.electionId.bytes = [] then [] else [("election_id", req.electionId.bytes)]).map
      fun kv : String × Bytes => (ascii kv.1, kv.2)).foldl createKv
        ⟨op, cert, default, default, default, default⟩ =
      ⟨op, cert, req.electionId, default, default, default⟩ := by
    split_ifs with hempty
    · have : req.electionId = default := CStr.ext hempty
      rw [this]
      rfl
    · have hkv (r : BclRequest) (v : Bytes) :
          createKv r (ascii "election_id", v) = { r with electionId := .ofBytes v } := rfl
      simp only [map_cons, map_nil, foldl_cons, foldl_nil, hkv, CStr.ofBytes_self]
  have hlists : (listFields req.config).map (fun kv => (ascii kv.1, kv.2)) =
      (req.config.options.map fun o => (ascii "option", o.bytes)) ++
        req.config.eligible.map fun c => (ascii "eligible", c.bytes) := by
    simp [listFields, Function.comp_def]
  have hoptions := foldl_createKv_options ⟨op, cert, req.electionId, default, default,
    { (default : BbConfig) with title := req.config.title, openTime := req.config.openTime
                                closeTime := req.config.closeTime }⟩
    req.config.options req.config.options_le
  rw [createFields, map_append, map_append, foldl_append, foldl_append, hid,
    foldl_createKv_config, hlists, foldl_append]
  refine (congrArg (fun r => List.foldl createKv r _) hoptions).trans ?_
  refine (foldl_createKv_eligible _ req.config.eligible ?_).trans rfl
  exact req.config.eligible_le

/-! ## Round trips -/

lemma pathOk_create (hop : req.op = .create) : req.PathOk := by
  have hpath : req.http.path = .ofBytes (ascii "/election") := by
    simp only [BclRequest.http, requestPath, hop]
  rw [BclRequest.PathOk, hpath]
  decide

lemma bclDecodeRequest_create (hop : req.op = .create) (h : req.LineSafe) :
    bclDecodeRequest req.parsed =
      some ⟨.create, req.certName, req.electionId, default, default, req.config⟩ := by
  obtain ⟨hmethod, -, -, -, hname⟩ := method_bytes req.op
  have hopname : opFromMethod req.parsed.method.bytes = some .create := by
    rw [← hop, ← hname, ← hmethod]
    rfl
  have hbody : bodyKvs req.parsed.body = (createFields req).map fun kv => (ascii kv.1, kv.2) := by
    change bodyKvs (requestTexts req).flatten = _
    rw [requestTexts_create hop]
    exact bodyKvs_lines h.readable
  have hheaders :
      req.parsed.headers = req.headers ++ lengthHeaders (requestTexts req).flatten := rfl
  unfold bclDecodeRequest
  rw [hopname, Option.bind_eq_bind, Option.bind_some, hheaders, decoded_certName, hbody]
  exact congrArg some (foldl_createKv_fields .create req.certName)

/-- **`CREATE` over the wire.**  What the daemon reads is the id and the configuration that were
sent, with nothing added; and a request is sent whenever its strings break no line and the name is
printable. -/
theorem create_round_trips (req : BclRequest) (hop : req.op = .create) :
    (∀ frame, bclEncodeRequest 65536 req = some frame →
      ∃ http req', htttpParseRequest frame = .ok http ∧ bclDecodeRequest http = some req' ∧
        req'.op = .create ∧ req'.electionId = req.electionId ∧ req'.config = req.config) ∧
    (req.LineSafe → (req.certName.bytes ≠ [] → validField req.certName.bytes true = true) →
      (bclEncodeRequest 65536 req).isSome = true) := by
  have hfits := createFields_fits hop
  constructor
  · intro frame henc
    have hcert := validField_of_encode henc
    obtain ⟨body, happend, -⟩ := Option.bind_eq_some_iff.mp henc
    have htexts := oneLine_of_bodyAppendAll happend
    have hframe := bclEncodeRequest_frame (pathOk_create hop) hcert htexts hfits
    obtain rfl : requestFrame req.http = frame := Option.some.inj (hframe.symm.trans henc)
    exact ⟨req.parsed, _, htttpParseRequest_http (pathOk_create hop) hcert hfits,
      bclDecodeRequest_create hop ((texts_oneLine_iff hop).mp htexts), rfl, rfl, rfl⟩
  · intro hsafe hname
    have hcert : validField req.certName.bytes true = true := by
      by_cases hempty : req.certName.bytes = []
      · simp [hempty, validField]
      · exact hname hempty
    rw [bclEncodeRequest_frame (pathOk_create hop) hcert ((texts_oneLine_iff hop).mpr hsafe) hfits]
    rfl

def trickyCreate : BclRequest where
  op := .create
  certName := .ofBytes (ascii "admin")
  electionId := default
  ballot := default
  hash := default
  config :=
    { title := .ofBytes (ascii "eligible=mallory")
      options := [.ofBytes (ascii "a=b"), .ofBytes []]
      options_le := by decide
      eligible := [.ofBytes (ascii "ann")]
      eligible_le := by decide
      openTime := default
      closeTime := default }

theorem trickyCreate_round_trips :
    ∃ frame http req', bclEncodeRequest 65536 trickyCreate = some frame ∧
      htttpParseRequest frame = .ok http ∧ bclDecodeRequest http = some req' ∧
      req'.config = trickyCreate.config := by
  have hsafe : trickyCreate.LineSafe := by
    constructor <;> decide
  obtain ⟨hback, hsend⟩ := create_round_trips trickyCreate rfl
  obtain ⟨frame, hframe⟩ := Option.isSome_iff_exists.mp (hsend hsafe (fun _ => by decide))
  obtain ⟨http, req', hparse, hdecode, -, -, hconfig⟩ := hback frame hframe
  exact ⟨frame, http, req', hframe, hparse, hdecode, hconfig⟩

end BallotBox
