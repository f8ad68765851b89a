import BallotBox.Properties.ResponseRoundTrips
import BallotBox.Properties.Support.FaithfulRuns

/-!
# The responses of the dispatcher, over the wire and back

`Carries op resp out` says that a client holds in `out` what the daemon put into `resp`.  Every kind
of line has a lemma that says what it comes to in the decoder; the repeated ones are read back in
order.
-/

namespace BallotBox

open CStr

open List (foldl_cons foldl_nil length_cons map_cons map_nil)

variable {op : BclOp} {resp : BclResponse}

/-! ## Repeated lines -/

lemma take_set_succ {α : Type} {l : List α} {i : ℕ} (h : i < l.length) (a : α) :
    (l.set i a).take (i + 1) = l.take i ++ [a] := by
  have hlen : (l.take i).length = i := by simp; omega
  rw [List.set_eq_take_append_cons_drop, if_pos h, List.take_append, hlen]
  simp

lemma scanTally_fmtInt (ts : List ℤ) (tally : Vector ℤ bbMaxOptions) (i : ℕ)
    (h : i + ts.length ≤ bbMaxOptions) :
    (scanTally tally i (ts.map fmtInt)).toList.take (i + ts.length) =
      tally.toList.take i ++ ts.map wrap32 := by
  induction ts generalizing tally i with
  | nil => simp [scanTally]
  | cons t ts ih =>
    rw [length_cons] at h
    have hset : (tally.setIfInBounds i (wrap32 t)).toList.take (i + 1) =
        tally.toList.take i ++ [wrap32 t] := by
      rw [Vector.toList_setIfInBounds]
      exact take_set_succ (by simp; omega) _
    have hne : fmtInt t ≠ [] := renderInt_ne_nil _
    cases ts with
    | nil =>
      simp only [map_cons, map_nil, scanTally, hne, if_false, atoi_fmtInt]
      exact hset
    | cons u us =>
      have hstep : scanTally tally i ((t :: u :: us).map fmtInt) =
          scanTally (tally.setIfInBounds i (wrap32 t)) (i + 1) ((u :: us).map fmtInt) := by
        rw [map_cons, map_cons, scanTally, atoi_fmtInt]
        simp
      have hlen : i + (t :: u :: us).length = i + 1 + (u :: us).length := by
        simp only [length_cons]
        omega
      rw [hstep, hlen, ih _ _ (by simpa [Nat.add_comm, Nat.add_left_comm] using h), hset]
      simp

lemma comma_notMem_fmtInt (n : ℤ) : (44 : UInt8) ∉ fmtInt n := by
  intro h
  rcases mem_renderInt h with h | h
  · exact absurd h (by decide)
  · exact absurd h (by decide)

lemma responseKv_tally (c : RespCtx) {ts : List ℤ} (hne : ts ≠ []) :
    responseKv c (ascii "tally", tallyValue ts) =
      { c with resp := { c.resp with tally := scanTally c.resp.tally 0 (ts.map fmtInt) } } := by
  have hsplit : (tallyValue ts).splitOn 44 = ts.map fmtInt := by
    refine List.splitOn_intercalate 44 ?_ (by simpa using hne)
    rw [List.forall_mem_map]
    exact fun n _ => comma_notMem_fmtInt n
  rw [← hsplit]
  rfl

lemma foldl_responseKv_resultOptions (c : RespCtx) (options : List (CStr bbOptionLen))
    (h : c.resultOptions + options.length ≤ bbMaxOptions) :
    ∃ filled : Vector (CStr bbOptionLen) bbMaxOptions,
      (options.map fun o => (ascii "result_option", o.bytes)).foldl responseKv c =
        { c with resp := { c.resp with options := filled }
                 resultOptions := c.resultOptions + options.length } ∧
      filled.toList.take (c.resultOptions + options.length) =
        c.resp.options.toList.take c.resultOptions ++ options := by
  induction options generalizing c with
  | nil => exact ⟨c.resp.options, rfl, by simp⟩
  | cons o options ih =>
    rw [length_cons] at h
    have hstep : responseKv c (ascii "result_option", o.bytes) =
        { c with resp := { c.resp with options := c.resp.options.setIfInBounds c.resultOptions o }
                 resultOptions := c.resultOptions + 1 } := by
      have hkv : responseKv c (ascii "result_option", o.bytes) =
          if c.resultOptions < bbMaxOptions then
            { c with resp := { c.resp with
                        options := c.resp.options.setIfInBounds c.resultOptions (.ofBytes o.bytes) }
                     resultOptions := c.resultOptions + 1 }
          else c := rfl
      rw [hkv, if_pos (by omega), ofBytes_self]
    obtain ⟨filled, hfold, htake⟩ := ih { c with
      resp := { c.resp with options := c.resp.options.setIfInBounds c.resultOptions o }
      resultOptions := c.resultOptions + 1 } (by dsimp only; omega)
    have hlen : c.resultOptions + (o :: options).length = c.resultOptions + 1 + options.length := by
      rw [length_cons]
      omega
    refine ⟨filled, ?_, ?_⟩
    · rw [map_cons, foldl_cons, hstep, hfold, hlen]
    · rw [hlen, htake]
      dsimp only
      rw [Vector.toList_setIfInBounds, take_set_succ (by simp; omega)]
      simp

lemma scanInt_fmtInt (n : ℤ) {rest : Bytes} (hrest : rest = [] ∨ rest.head? = some 44) :
    scanInt (fmtInt n ++ rest) = some (wrap32 n, rest) := by
  obtain ⟨sign, hsign, hvalue⟩ := takeSign_renderInt (wrap32 n)
  have hdigits : ∀ c ∈ renderNat (wrap32 n).natAbs, isDigit c = true := fun c hc =>
    isDigit_of_mem_renderNat hc
  have hstop : rest.takeWhile isDigit = [] ∧ rest.dropWhile isDigit = rest := by
    cases rest with
    | nil => simp
    | cons c rest =>
      obtain rfl : c = 44 := by simpa using hrest
      exact ⟨rfl, rfl⟩
  have hwrap : wrap32 (wrap32 n) = wrap32 n := by
    obtain ⟨hlower, hupper⟩ := wrap32_range n
    exact wrap32_of_range hlower hupper
  simp only [scanInt, fmtInt, dropWhile_isSpace_renderInt,
    takeSign_append (renderInt_ne_nil (wrap32 n)), hsign, List.takeWhile_append_of_pos hdigits,
    List.dropWhile_append_of_pos hdigits, hstop.1, hstop.2, List.append_nil, renderNat_ne_nil,
    if_false, digitsValue_renderNat, hvalue, hwrap]

/-- A receipt that a row can hold: the hash is not empty and has no comma, and the numbers are
`int`s. -/
structure BbBallotHash.RowSafe (h : BbBallotHash) : Prop where
  hash_ne : h.hash.bytes ≠ []
  hash_comma : (44 : UInt8) ∉ h.hash.bytes
  optionIndex : wrap32 h.optionIndex = h.optionIndex
  version : wrap32 h.version = h.version
  superseded : wrap32 h.superseded = h.superseded

lemma scanRow_rowValue {h : BbBallotHash} (hsafe : h.RowSafe) : scanRow (rowValue h) = some h := by
  have hvalue : rowValue h = h.hash.bytes ++ 44 :: (fmtInt h.optionIndex ++
      44 :: (fmtInt h.version ++ 44 :: (fmtInt h.superseded ++ []))) := by
    simp [rowValue]
  have hfits : h.hash.bytes.length ≤ 64 := h.hash.fits
  have hhash : (rowValue h).takeWhile (· ≠ 44) = h.hash.bytes := by
    have hall : ∀ c ∈ h.hash.bytes, (c ≠ 44 : Bool) = true := fun c hc => by
      simpa using fun h44 : c = 44 => hsafe.hash_comma (h44 ▸ hc)
    rw [hvalue, List.takeWhile_append_of_pos (by simpa using hall)]
    simp
  have hscan : ∀ (n : ℤ) (rest : Bytes), scanCommaInt (44 :: (fmtInt n ++ 44 :: rest)) =
      some (wrap32 n, 44 :: rest) := fun n rest => scanInt_fmtInt n (.inr rfl)
  have hlast : scanCommaInt (44 :: (fmtInt h.superseded ++ [])) =
      some (wrap32 h.superseded, []) := scanInt_fmtInt _ (.inl rfl)
  unfold scanRow
  rw [hhash, List.take_of_length_le hfits, if_neg hsafe.hash_ne, hvalue, List.drop_left]
  simp only [hscan, hlast, Option.bind_eq_bind, Option.bind_some, hsafe.optionIndex, hsafe.version,
    hsafe.superseded, ofBytes_self]
  rfl

lemma foldl_responseKv_rows (c : RespCtx) (rows : List BbBallotHash)
    (hsafe : ∀ h ∈ rows, h.RowSafe) (hfit : (c.resp.hashes ++ rows).length ≤ bbMaxVoters) :
    (rows.map fun h => (ascii "row", rowValue h)).foldl responseKv c =
      { c with resp := { c.resp with hashes := c.resp.hashes ++ rows } } := by
  induction rows generalizing c with
  | nil => simp
  | cons h rows ih =>
    rw [List.forall_mem_cons] at hsafe
    have hroom : c.resp.hashes.length < bbMaxVoters := by
      rw [List.length_append, length_cons] at hfit
      omega
    have hstep : responseKv c (ascii "row", rowValue h) =
        { c with resp := { c.resp with hashes := c.resp.hashes ++ [h] } } := by
      rw [responseKv_row, if_pos hroom, scanRow_rowValue hsafe.1]
      rfl
    rw [map_cons, foldl_cons, hstep, ih _ hsafe.2 (by simpa using hfit)]
    simp

lemma foldl_addOption_take (e : BbElection) (options : List (CStr bbOptionLen))
    (h : e.optionCount + options.length ≤ bbMaxOptions) :
    ∃ filled, options.foldl (fun e o => e.addOption o.bytes) e =
        { e with options := filled, optionCount := e.optionCount + options.length
                 optionCount_le := h } ∧
      filled.toList.take (e.optionCount + options.length) =
        e.options.toList.take e.optionCount ++ options := by
  induction options generalizing e with
  | nil => exact ⟨e.options, rfl, by simp⟩
  | cons o options ih =>
    rw [length_cons] at h
    have hroom : e.optionCount < bbMaxOptions := by omega
    have hstep : e.addOption o.bytes =
        { e with options := e.options.set e.optionCount o, optionCount := e.optionCount + 1
                 optionCount_le := hroom } := by
      simp only [BbElection.addOption, dif_pos hroom, ofBytes_self]
    obtain ⟨filled, hfold, htake⟩ := ih { e with
      options := e.options.set e.optionCount o, optionCount := e.optionCount + 1
      optionCount_le := hroom } (by dsimp only; omega)
    have hlen : e.optionCount + (o :: options).length = e.optionCount + 1 + options.length := by
      rw [length_cons]
      omega
    refine ⟨filled, ?_, ?_⟩
    · rw [foldl_cons, hstep, hfold]
      simp only [hlen]
    · rw [hlen, htake]
      dsimp only
      rw [Vector.toList_set, take_set_succ (by simp; omega)]
      simp

/-! ## What a client holds -/

/-- The election of a join and the voter's prior ballot, without the list of eligible voters. -/
structure CarriesElection (resp out : BclResponse) : Prop where
  id : out.election.id = resp.election.id
  title : out.election.title = resp.election.title
  state : out.election.state = resp.election.state
  openTime : out.election.openTime = resp.election.openTime
  closeTime : out.election.closeTime = resp.election.closeTime
  optionCount : out.election.optionCount = resp.election.optionCount
  options : out.election.options.toList.take resp.election.optionCount =
    resp.election.options.toList.take resp.election.optionCount
  hasPriorBallot : out.hasPriorBallot = resp.hasPriorBallot
  priorBallotVersion : out.priorBallotVersion = resp.priorBallotVersion

/-- The results: names and counts, as `int`s, of the options there are, and the receipts. -/
structure CarriesResults (resp out : BclResponse) : Prop where
  id : out.election.id = resp.election.id
  title : out.election.title = resp.election.title
  optionCount : out.optionCount = resp.optionCount
  tally : out.tally.toList.take resp.optionCount =
    (resp.tally.toList.take resp.optionCount).map wrap32
  options : out.options.toList.take resp.optionCount = resp.options.toList.take resp.optionCount
  hashes : out.hashes = resp.hashes

/-- The client holds in `out` what the operation carries of `resp`. -/
def Carries (op : BclOp) (resp out : BclResponse) : Prop :=
  out.status = resp.status ∧
    match op with
    | .create | .adminNextId => out.election.id = resp.election.id
    | .opening | .close | .publish => True
    | .join => CarriesElection resp out
    | .cast | .update => out.receipt = resp.receipt
    | .results | .adminResults => CarriesResults resp out
    | .check | .adminCheck =>
      out.found = resp.found ∧ out.foundOption = resp.foundOption ∧
        out.foundOptionName = resp.foundOptionName

/-- What the fields of the response leave out has its default value. -/
def Complete (op : BclOp) (resp : BclResponse) : Prop :=
  match op with
  | .create | .adminNextId | .opening | .close | .publish => True
  | .join =>
    wrap32 resp.priorBallotVersion = resp.priorBallotVersion ∧
      (resp.election.id.bytes = [] →
        resp.election = default ∧ resp.hasPriorBallot = false ∧ resp.priorBallotVersion = 0)
  | .cast | .update => resp.receipt.hash.bytes = [] → resp.receipt = default
  | .results | .adminResults =>
    resp.optionCount ≤ bbMaxOptions ∧ ∀ h ∈ resp.hashes, h.RowSafe
  | .check | .adminCheck =>
    wrap32 resp.foundOption = resp.foundOption ∧
      (resp.found = false → resp.foundOption = 0 ∧ resp.foundOptionName = default)

lemma responseCtx_create (hop : op = .create ∨ op = .adminNextId) :
    Carries op resp (responseCtx op resp).clamp := by
  have hfields : responseFields op resp = if resp.election.id.bytes = [] then []
      else [("election_id", resp.election.id.bytes)] := by
    rcases hop with rfl | rfl <;> rfl
  have hcarries : (responseCtx op resp).clamp.status = resp.status ∧
      (responseCtx op resp).clamp.election.id = resp.election.id := by
    rw [responseCtx, hfields]
    split_ifs with hid
    · exact ⟨rfl, ext hid.symm⟩
    · simp only [map_cons, map_nil, foldl_cons, foldl_nil,
        responseKv_electionId, ofBytes_self]
      exact ⟨rfl, rfl⟩
  rcases hop with rfl | rfl <;> exact hcarries

lemma responseCtx_join (h : Complete .join resp) :
    Carries .join resp (responseCtx .join resp).clamp := by
  obtain ⟨hversion, hempty⟩ := h
  by_cases hid : resp.election.id.bytes = []
  · have hctx : responseCtx .join resp = .ofStatus resp.status := by
      rw [responseCtx, responseFields, voterFields, if_pos hid]
      rfl
    obtain ⟨helection, hprior, hzero⟩ := hempty hid
    rw [hctx]
    refine ⟨rfl, ?_⟩
    constructor <;> simp only [helection, hprior, hzero] <;> rfl
  · -- the single lines, then the options one by one
    have hlen : (resp.election.options.toList.take resp.election.optionCount).length =
        resp.election.optionCount := by
      simpa using resp.election.optionCount_le
    obtain ⟨filled, hfold, htake⟩ := foldl_addOption_take
      { (default : BbElection) with
        id := resp.election.id, title := resp.election.title, state := resp.election.state
        openTime := resp.election.openTime, closeTime := resp.election.closeTime }
      (resp.election.options.toList.take resp.election.optionCount)
      ((Nat.zero_add _).trans_le (hlen.trans_le resp.election.optionCount_le))
    have hcount : (0 : ℕ) + (resp.election.options.toList.take resp.election.optionCount).length =
        resp.election.optionCount := (Nat.zero_add _).trans hlen
    have hctx : (responseCtx .join resp).clamp =
        { (default : BclResponse) with
          status := resp.status
          election := (resp.election.options.toList.take resp.election.optionCount).foldl
            (fun e o => e.addOption o.bytes) { (default : BbElection) with
              id := resp.election.id, title := resp.election.title, state := resp.election.state
              openTime := resp.election.openTime, closeTime := resp.election.closeTime }
          hasPriorBallot := resp.hasPriorBallot
          priorBallotVersion := resp.priorBallotVersion } := by
      rw [responseCtx, responseFields, voterFields, if_neg hid, List.map_append, List.foldl_append,
        foldl_responseKv_options]
      simp only [map_cons, map_nil, foldl_cons, foldl_nil,
        responseKv_electionId, responseKv_title, responseKv_state, responseKv_openTime,
        responseKv_closeTime, responseKv_hasPriorBallot, responseKv_priorBallotVersion,
        ofBytes_self, hversion]
      rfl
    rw [hctx, hfold]
    refine ⟨rfl, rfl, rfl, rfl, rfl, rfl, hcount, ?_, rfl, rfl⟩
    have htake' : filled.toList.take (0 + (resp.election.options.toList.take
        resp.election.optionCount).length) =
        resp.election.options.toList.take resp.election.optionCount := htake
    rwa [hcount] at htake'

lemma responseCtx_vote (hop : op = .cast ∨ op = .update) (h : Complete op resp) :
    Carries op resp (responseCtx op resp).clamp := by
  have hfields : responseFields op resp = if resp.receipt.hash.bytes = [] then []
      else [("hash", resp.receipt.hash.bytes), ("issued_at", resp.receipt.issuedAt.bytes)] := by
    rcases hop with rfl | rfl <;> rfl
  have hempty : resp.receipt.hash.bytes = [] → resp.receipt = default := by
    rcases hop with rfl | rfl <;> exact h
  have hcarries : (responseCtx op resp).clamp.status = resp.status ∧
      (responseCtx op resp).clamp.receipt = resp.receipt := by
    rw [responseCtx, hfields]
    split_ifs with hhash
    · rw [hempty hhash]
      exact ⟨rfl, rfl⟩
    · simp only [map_cons, map_nil, foldl_cons, foldl_nil, responseKv_hash,
        responseKv_issuedAt, ofBytes_self]
      exact ⟨rfl, rfl⟩
  rcases hop with rfl | rfl <;> exact hcarries

lemma responseKv_found (c : RespCtx) (b : Bool) :
    responseKv c (ascii "found", fmtInt (flag b)) =
      { c with resp := { c.resp with found := b } } := by
  cases b <;> rfl

lemma responseKv_foundOption (c : RespCtx) (n : ℤ) :
    responseKv c (ascii "found_option", fmtInt n) =
      { c with resp := { c.resp with foundOption := wrap32 n } } := by
  rw [← atoi_fmtInt]
  rfl

lemma responseKv_foundOptionName (c : RespCtx) (v : Bytes) :
    responseKv c (ascii "found_option_name", v) =
      { c with resp := { c.resp with foundOptionName := .ofBytes v } } := rfl

lemma responseCtx_check (hop : op = .check ∨ op = .adminCheck) (h : Complete op resp) :
    Carries op resp (responseCtx op resp).clamp := by
  have hfields : responseFields op resp = ("found", fmtInt (flag resp.found)) ::
      if resp.found then [("found_option", fmtInt resp.foundOption),
        ("found_option_name", resp.foundOptionName.bytes)] else [] := by
    rcases hop with rfl | rfl <;> rfl
  obtain ⟨hint, hempty⟩ : wrap32 resp.foundOption = resp.foundOption ∧
      (resp.found = false → resp.foundOption = 0 ∧ resp.foundOptionName = default) := by
    rcases hop with rfl | rfl <;> exact h
  have hcarries : (responseCtx op resp).clamp.status = resp.status ∧
      (responseCtx op resp).clamp.found = resp.found ∧
      (responseCtx op resp).clamp.foundOption = resp.foundOption ∧
      (responseCtx op resp).clamp.foundOptionName = resp.foundOptionName := by
    rw [responseCtx, hfields]
    cases hfound : resp.found with
    | false =>
      obtain ⟨hzero, hname⟩ := hempty hfound
      simp only [map_cons, map_nil, foldl_cons, foldl_nil, responseKv_found,
        Bool.false_eq_true, if_false, hzero, hname]
      exact ⟨rfl, rfl, rfl, rfl⟩
    | true =>
      simp only [map_cons, map_nil, foldl_cons, foldl_nil, responseKv_found,
        if_true, responseKv_foundOption, responseKv_foundOptionName, ofBytes_self, hint]
      exact ⟨rfl, rfl, rfl, rfl⟩
  rcases hop with rfl | rfl <;> exact hcarries

lemma responseKv_tallyCount (c : RespCtx) (n : ℤ) :
    responseKv c (ascii "tally_count", fmtInt n) = { c with optionCount := wrap32 n } := by
  rw [← atoi_fmtInt]
  rfl

lemma responseKv_hashCount (c : RespCtx) (n : ℤ) :
    responseKv c (ascii "hash_count", fmtInt n) = { c with hashCount := wrap32 n } := by
  rw [← atoi_fmtInt]
  rfl

lemma foldl_responseKv_tally (c : RespCtx) (hcount : resp.optionCount ≤ bbMaxOptions)
    (hnew : c.resultOptions = 0) :
    ∃ (tally : Vector ℤ bbMaxOptions) (names : Vector (CStr bbOptionLen) bbMaxOptions) (k : ℕ),
      ((if resp.optionCount = 0 then []
        else ("tally", tallyValue (resp.tally.toList.take resp.optionCount)) ::
          (resp.options.toList.take resp.optionCount).map fun o => ("result_option", o.bytes)).map
        fun kv : String × Bytes => (ascii kv.1, kv.2)).foldl responseKv c =
        { c with resp := { c.resp with tally := tally, options := names }, resultOptions := k } ∧
      tally.toList.take resp.optionCount =
        (resp.tally.toList.take resp.optionCount).map wrap32 ∧
      names.toList.take resp.optionCount = resp.options.toList.take resp.optionCount := by
  have htlen : (resp.tally.toList.take resp.optionCount).length = resp.optionCount := by
    simpa using hcount
  have holen : (resp.options.toList.take resp.optionCount).length = resp.optionCount := by
    simpa using hcount
  by_cases hzero : resp.optionCount = 0
  · refine ⟨c.resp.tally, c.resp.options, c.resultOptions, ?_, ?_, ?_⟩
    · rw [if_pos hzero]
      rfl
    · simp [hzero]
    · simp [hzero]
  · have hne : resp.tally.toList.take resp.optionCount ≠ [] := by
      rw [← List.length_pos_iff, htlen]
      omega
    have htally := scanTally_fmtInt (resp.tally.toList.take resp.optionCount) c.resp.tally 0
      (by rw [htlen]; omega)
    obtain ⟨names, hfold, hnames⟩ := foldl_responseKv_resultOptions
      { c with resp := { c.resp with
        tally := scanTally c.resp.tally 0 ((resp.tally.toList.take resp.optionCount).map fmtInt) } }
      (resp.options.toList.take resp.optionCount) (by dsimp only; rw [holen, hnew]; omega)
    refine ⟨scanTally c.resp.tally 0 ((resp.tally.toList.take resp.optionCount).map fmtInt), names,
      c.resultOptions + (resp.options.toList.take resp.optionCount).length, ?_, ?_, ?_⟩
    · rw [if_neg hzero, map_cons, foldl_cons, responseKv_tally c hne, List.map_map]
      exact hfold
    · simpa [htlen] using htally
    · simpa [holen, hnew] using hnames

lemma responseCtx_results (hop : op = .results ∨ op = .adminResults) (hprint : resp.Printable)
    (h : Complete op resp) : Carries op resp (responseCtx op resp).clamp := by
  have hfields : responseFields op resp = resultFields resp := by
    rcases hop with rfl | rfl <;> rfl
  obtain ⟨hcount, hsafe⟩ :
      resp.optionCount ≤ bbMaxOptions ∧ ∀ h ∈ resp.hashes, h.RowSafe := by
    rcases hop with rfl | rfl <;> exact h
  have hints : wrap32 resp.optionCount = resp.optionCount ∧
      wrap32 resp.hashes.length = resp.hashes.length := by
    have hrows := hprint.hashes_le
    simp only [bbMaxOptions, bbMaxVoters] at hcount hrows
    exact ⟨wrap32_of_range (by omega) (by omega), wrap32_of_range (by omega) (by omega)⟩
  -- the id, the title and the number of options come first
  obtain ⟨c, hc⟩ : ∃ c : RespCtx, c = { RespCtx.ofStatus resp.status with
      resp := { (default : BclResponse) with
        status := resp.status
        election := { (default : BbElection) with
          id := resp.election.id, title := resp.election.title } }
      optionCount := resp.optionCount } := ⟨_, rfl⟩
  have hfirst : ([("election_id", resp.election.id.bytes), ("title", resp.election.title.bytes),
      ("tally_count", fmtInt resp.optionCount)].map fun kv : String × Bytes =>
        (ascii kv.1, kv.2)).foldl responseKv (.ofStatus resp.status) = c := by
    simp only [map_cons, map_nil, foldl_cons, foldl_nil,
      responseKv_electionId, responseKv_title, responseKv_tallyCount, ofBytes_self, hints.1, hc]
    rfl
  obtain ⟨tally, names, k, hfold, htally, hnames⟩ := foldl_responseKv_tally c hcount (hc ▸ rfl)
  have hctx : responseCtx op resp = { c with
      resp := { c.resp with tally := tally, options := names, hashes := resp.hashes }
      resultOptions := k, hashCount := resp.hashes.length } := by
    have hnone : c.resp.hashes = [] := hc ▸ rfl
    rw [responseCtx, hfields, resultFields, List.map_append, List.map_append, List.foldl_append,
      List.foldl_append, hfirst, hfold, map_cons, foldl_cons, responseKv_hashCount,
      hints.2, List.map_map]
    refine (foldl_responseKv_rows _ resp.hashes hsafe ?_).trans ?_
    · simpa [hnone] using hprint.hashes_le
    · simp [hnone]
  have hcarries : (responseCtx op resp).clamp.status = resp.status ∧
      CarriesResults resp (responseCtx op resp).clamp := by
    rw [hctx, hc]
    refine ⟨rfl, rfl, rfl, ?_, htally, hnames, ?_⟩
    · show (if (resp.optionCount : ℤ) < 0 ∨ (bbMaxOptions : ℤ) < resp.optionCount then k
        else (resp.optionCount : ℤ).toNat) = resp.optionCount
      rw [if_neg (by omega), Int.toNat_natCast]
    · show (if (resp.hashes.length : ℤ) < 0 ∨ (resp.hashes.length : ℤ) < resp.hashes.length then _
        else resp.hashes.take (resp.hashes.length : ℤ).toNat) = resp.hashes
      rw [if_neg (by omega), Int.toNat_natCast, List.take_length]
  rcases hop with rfl | rfl <;> exact hcarries

/-- **Decoding.**  A response with nothing in it that the encoder leaves out is carried over. -/
theorem responseCtx_carries (hprint : resp.Printable) (h : Complete op resp) :
    Carries op resp (responseCtx op resp).clamp := by
  cases op with
  | create => exact responseCtx_create (.inl rfl)
  | adminNextId => exact responseCtx_create (.inr rfl)
  | opening | close | publish => exact ⟨rfl, trivial⟩
  | join => exact responseCtx_join h
  | cast => exact responseCtx_vote (.inl rfl) h
  | update => exact responseCtx_vote (.inr rfl) h
  | results => exact responseCtx_results (.inl rfl) hprint h
  | adminResults => exact responseCtx_results (.inr rfl) hprint h
  | check => exact responseCtx_check (.inl rfl) h
  | adminCheck => exact responseCtx_check (.inr rfl) h

/-! ## What the dispatcher fills in -/

variable {req : BclRequest} {t t' store : Tables}

/-- A hexadecimal digit. -/
def isHexDigit (c : UInt8) : Bool := isDigit c || (97 ≤ c && c ≤ 102) || (65 ≤ c && c ≤ 70)

/-- The stored hashes are non-empty hexadecimal strings. -/
def HexHashes (t : Tables) : Prop :=
  ∀ b ∈ t.ballots, b.hash.bytes ≠ [] ∧ ∀ c ∈ b.hash.bytes, isHexDigit c = true

lemma ReadsElection.id_eq {eid : CStr bbIdLen} {e : BbElection}
    (h : ReadsElection eid.bytes t e) : e.id = eid := by
  obtain ⟨r, hr, hid, -⟩ := h.row
  rw [hid]
  exact ofBytes_eq (of_decide_eq_true (List.mem_filter.mp hr).2)

lemma published_rowSafe {b : BallotRow} (hne : b.hash.bytes ≠ [])
    (hhex : ∀ c ∈ b.hash.bytes, isHexDigit c = true) : b.published.RowSafe := by
  have hint (n : JInt) : wrap32 n.val = n.val := wrap32_of_range n.lower n.upper
  refine ⟨?_, fun hcomma => ?_, hint _, hint _, hint _⟩
  · obtain ⟨c, cs, hbytes⟩ := List.exists_cons_of_ne_nil hne
    have hnul : c ≠ 0 := fun h0 => b.hash.clean.1 (by simp [hbytes, h0])
    simp [BallotRow.published, ofBytes, hbytes, cstr, hnul]
  · exact absurd (hhex 44 (mem_of_mem_ofBytes hcomma)) (by decide)

lemma hash_ne_nil_of_issued {clock : ℕ} {ballot : BbBallot} {version : ℤ} {receipt : BbReceipt}
    (h : (stubCrypto.issueReceipt clock ballot version).1 = .ok receipt) :
    receipt.hash.bytes ≠ [] := by
  cases h
  exact List.ne_nil_of_length_eq_add_one (length_hashLoop 64 _)

lemma complete_default (op : BclOp) : Complete op default := by
  cases op with
  | results | adminResults => exact ⟨Nat.zero_le _, by simp [default]⟩
  | join => exact ⟨rfl, fun _ => ⟨rfl, rfl, rfl⟩⟩
  | cast | update => exact fun _ => rfl
  | check | adminCheck => exact ⟨rfl, fun _ => ⟨rfl, rfl⟩⟩
  | _ => trivial

lemma Leaves.complete (h : Leaves stubCrypto req store resp)
    (hid : req.op = .join → req.electionId.bytes ≠ []) : Complete req.op resp := by
  cases h with
  | nothing => exact complete_default req.op
  | election e hop hreads =>
    rw [hop]
    refine ⟨rfl, fun hempty => absurd ?_ (hid hop)⟩
    rwa [hreads.id_eq] at hempty
  | receipt receipt hop _ _ hissued =>
    have hhash := hash_ne_nil_of_issued hissued
    rcases hop with hop | hop <;> rw [hop] <;> exact fun hempty => absurd hempty hhash

lemma Does.complete (h : Does stubCrypto req t resp t') (hstatus : resp.status = .ok)
    (hhex : HexHashes t) (hid : req.op = .join → req.electionId.bytes ≠ []) :
    Complete req.op resp := by
  cases h with
  | failed e he => cases he.symm.trans hstatus
  | created _ hop =>
    rw [hop]
    trivial
  | numbered _ hop =>
    rw [hop]
    trivial
  | moved target _ _ _ hop =>
    cases hreq : req.op with
    | opening | close | publish => trivial
    | _ => simp [hreq, BclOp.target?] at hop
  | joined e prior hop hreads _ _ _ hprior =>
    rw [hop]
    refine ⟨?_, fun hempty => absurd ?_ (hid hop)⟩
    · dsimp only
      rcases hprior with ⟨-, ⟨-, hnone⟩ | ⟨hfound, o, -, -, hversion⟩⟩
      · simp [hnone, wrap32]
      · rw [if_pos hfound, hversion]
        exact wrap32_of_range o.version.lower o.version.upper
    · dsimp only at hempty
      rwa [hreads.id_eq] at hempty
  | recorded hop rec =>
    have hhash := hash_ne_nil_of_issued rec.issued
    rcases hop with hop | hop <;> rw [hop] <;> exact fun hempty => absurd hempty hhash
  | reported e tally hashes hop _ _ _ _ hhashes =>
    obtain ⟨-, bs, hbs, hrows⟩ := hhashes
    have hcomplete : e.optionCount ≤ bbMaxOptions ∧ ∀ h ∈ hashes.hashes, h.RowSafe := by
      refine ⟨e.optionCount_le, fun h hh => ?_⟩
      rw [hrows] at hh
      obtain ⟨b, hb, rfl⟩ := List.mem_map.mp (List.mem_of_mem_take hh)
      obtain ⟨hne, hdigits⟩ := hhex b (List.mem_of_mem_filter (hbs.mem_iff.mp hb))
      exact published_rowSafe hne hdigits
    rcases hop with hop | hop <;> rw [hop] <;> exact hcomplete
  | checked e b hop =>
    have hint := wrap32_of_range b.optionIndex.lower b.optionIndex.upper
    rcases hop with hop | hop <;> rw [hop] <;> exact ⟨hint, fun hfound => absurd hfound (by simp)⟩

theorem ballotdDispatch_complete {w : World Unit} (h : w.txnConn = none)
    (hhex : HexHashes w.server.store) (hid : req.op = .join → req.electionId.bytes ≠ []) :
    Complete req.op (ballotdDispatch direct stubCrypto req w).resp := by
  have hidle : World.Idle w.server.store default { w with resp := default } := ⟨h, rfl, rfl⟩
  have hstatus {resp : BclResponse} (s : BbResult) (hresp : Complete req.op resp) :
      Complete req.op { resp with status := s } := by
    cases hop : req.op <;> rw [hop] at hresp <;> exact hresp
  unfold ballotdDispatch
  cases hrun : dispatchOp direct stubCrypto req { w with resp := default } with
  | error e w' =>
    exact hstatus _ (((dispatchOp_leaves req w.server.store).of_error hidle hrun).complete hid)
  | ok a w' =>
    have hdoes := ((dispatchOp_triple stubCrypto req w.server.store).of_ok hidle hrun).2
    exact hdoes.complete rfl hhex hid

/-! ## Round trips -/

/-- An open election with one voter. -/
def boardWorld (eid title : Text) : World Bytes where
  server :=
    { store := { Tables.empty with
        elections := [⟨JInt.one, eid, title, ⟨ascii "OPEN", clean_bbStateStr .opened⟩,
          ⟨ascii "08:30", by decide⟩, ⟨ascii "16:30", by decide⟩⟩]
        eligibles := [⟨eid, ⟨ascii "uma", by decide⟩⟩] }
      sched := fun _ => .ok .stored
      clock := 0
      trace := [] }
  txnConn := none
  log := []
  resp := default

lemma boardWorld_hexHashes (eid title : Text) : HexHashes (boardWorld eid title).server.store := by
  intro b hb
  cases hb

/-- The voter joins the election. -/
def boardJoin (eid : Bytes) : BclRequest :=
  ⟨.join, .ofBytes (ascii "uma"), .ofBytes eid, default, default, default⟩

/-- What the voter is answered. -/
def boardReply (eid title : Text) : BclResponse :=
  (ballotdDispatch wire stubCrypto (boardJoin eid.bytes) (boardWorld eid title)).resp

lemma clean_shiftedId : Clean (tab :: ascii "E") := by decide

/-- The election with the id `<tab>E` and the title `OPEN`.  The tab shifts the fields of its row:
the id is read as empty, the title as the state, and the state as the opening time. -/
def shiftedWorld : World Bytes :=
  boardWorld ⟨tab :: ascii "E", clean_shiftedId⟩ ⟨ascii "OPEN", clean_bbStateStr .opened⟩

/-- What its voter is answered. -/
def shiftedReply : BclResponse :=
  (ballotdDispatch wire stubCrypto (boardJoin (tab :: ascii "E")) shiftedWorld).resp

end BallotBox
