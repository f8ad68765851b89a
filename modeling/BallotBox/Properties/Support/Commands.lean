import BallotBox.Properties.Support.Statements

/-!
# What a storage command means

Each command of the storage seam, read as one atomic step on the six tables: `DbCmd.Means cmd t out
t'` mentions neither statements nor replies.
-/

namespace BallotBox

open Link JInt Option Triple

variable {i : ℕ} {β : Type} {cmd : DbCmd} {t' : Tables}
variable {os : List OptionRow} {Q : β → Link Unit → Prop} {out : DbResult} {rows : List Row}

/-! ## Columns read back -/

@[simp] lemma ofBytes_render (n : JInt) : (CStr.ofBytes n.render : CStr 24).bytes = n.render := by
  refine CStr.ofBytes_bytes ?_ fun h0 => ?_
  · have := n.length_render_le
    omega
  · rcases mem_renderInt h0 with h | h
    · exact absurd h (by decide)
    · exact absurd h (by decide)

@[simp] lemma fieldInt_render (n : JInt) : fieldInt n.render = n.val := by
  rw [fieldInt, ofBytes_render, atoi_render]

def BallotRow.published (b : BallotRow) : BbBallotHash :=
  ⟨.ofBytes b.hash.bytes, b.optionIndex.val, b.version.val, b.superseded.val⟩

@[simp] lemma hashRowOf_hashRow (b : BallotRow) : hashRowOf b.hashRow = some b.published := by
  simp [hashRowOf, BallotRow.hashRow, BallotRow.published]

abbrev OptionRow.columns (o : OptionRow) : Row := [o.idx.render, o.name.bytes]

lemma getElem_placeOption (options : Vector (CStr bbOptionLen) bbMaxOptions) (o : OptionRow)
    (hi : i < bbMaxOptions) : (placeOption options o.columns)[i] =
      if o.idx.val = i then .ofBytes o.name.bytes else options[i] := by
  have hplace : placeOption options o.columns =
      if 0 ≤ o.idx.val then options.setIfInBounds o.idx.val.toNat (.ofBytes o.name.bytes)
      else options := by
    simp [placeOption]
  by_cases hpos : 0 ≤ o.idx.val
  · simp only [hplace, if_pos hpos, Vector.getElem_setIfInBounds]
    exact if_congr (by omega) rfl rfl
  · simp only [hplace, if_neg hpos]
    exact (if_neg (by omega)).symm

lemma getElem_placeOptions_of_ne (hi : i < bbMaxOptions)
    (hos : ∀ o ∈ os, o.idx.val ≠ i) (options : Vector (CStr bbOptionLen) bbMaxOptions) :
    ((os.map OptionRow.columns).foldl placeOption options)[i] = options[i] := by
  induction os generalizing options with
  | nil => rfl
  | cons o os ih =>
    rw [List.map_cons, List.foldl_cons, ih fun x hx => hos x (List.mem_cons_of_mem _ hx),
      getElem_placeOption _ _ hi, if_neg (hos o (by simp))]

lemma getElem_placeOptions (hdistinct : (os.map (·.idx.val)).Nodup)
    {o : OptionRow} (ho : o ∈ os) (hi : i < bbMaxOptions) (hidx : o.idx.val = i)
    (options : Vector (CStr bbOptionLen) bbMaxOptions) :
    ((os.map OptionRow.columns).foldl placeOption options)[i] = .ofBytes o.name.bytes := by
  induction os generalizing options with
  | nil => simp at ho
  | cons x os ih =>
    rw [List.map_cons, List.nodup_cons] at hdistinct
    rw [List.map_cons, List.foldl_cons]
    rcases List.mem_cons.mp ho with rfl | ho
    · rw [getElem_placeOptions_of_ne hi, getElem_placeOption _ _ hi, if_pos hidx]
      intro y hy hyi
      exact hdistinct.1 (List.mem_map.mpr ⟨y, hy, hyi.trans hidx.symm⟩)
    · exact ih hdistinct.2 ho _

/-! ## Meanings -/

/-- The row `b` stores the hash row `row` of an election. -/
structure BallotRow.Stores (b : BallotRow) (eid : Bytes) (row : BbBallotHash) : Prop where
  electionId : b.electionId.bytes = eid
  hash : b.hash.bytes = row.hash.bytes
  optionIndex : b.optionIndex.val = row.optionIndex
  version : b.version.val = row.version
  superseded : b.superseded.val = row.superseded

def JInt.one : JInt := ⟨1, by norm_num, by norm_num⟩

def BallotRow.key (b : BallotRow) : Bytes × Bytes := (b.electionId.bytes, b.hash.bytes)

def OwnerRow.voter (o : OwnerRow) : Bytes × Bytes := (o.electionId.bytes, o.certName.bytes)

def BallotRow.retired (b : BallotRow) : BallotRow := { b with superseded := JInt.one }

namespace Tables

variable (t : Tables)

def supersede (b : BallotRow) : Tables :=
  { t with ballots := upsert BallotRow.key t.ballots b.retired }

def setOwner (o : OwnerRow) : Tables :=
  { t with owners := upsert OwnerRow.voter t.owners o }

def setElection (r : ElectionRow) : Tables :=
  { t with elections := upsert (·.id.bytes) t.elections r }

end Tables

def Creates (eid : Bytes) (cfg : BbConfig) (t t' : Tables) : Prop :=
  ∃ (r : ElectionRow) (os : List OptionRow) (vs : List EligibleRow),
    (r.seq.val = idSeq eid ∧ r.id.bytes = eid ∧ r.title.bytes = cfg.title.bytes ∧
      r.state.bytes = ascii "DRAFT" ∧ r.openTime.bytes = cfg.openTime.bytes ∧
      r.closeTime.bytes = cfg.closeTime.bytes) ∧
    os.map (fun o => (o.electionId.bytes, o.idx.val, o.name.bytes)) =
      cfg.options.zipIdx.map (fun p => (eid, (p.2 : ℤ), p.1.bytes)) ∧
    vs.map (fun v => (v.electionId.bytes, v.certName.bytes)) =
      cfg.eligible.map (fun c => (eid, c.bytes)) ∧
    t' = { t with elections := t.elections ++ [r], options := t.options ++ os,
                  eligibles := t.eligibles ++ vs }

/-- The election read back: one of its rows, its options by index, and the first 64 of its eligible
names, in some order. -/
structure ReadsElection (eid : Bytes) (t : Tables) (e : BbElection) : Prop where
  row : ∃ r ∈ t.electionsOf eid, e.id = .ofBytes r.id.bytes ∧ e.title = .ofBytes r.title.bytes ∧
    parseState (CStr.ofBytes r.state.bytes : CStr 16).bytes = some e.state ∧
    e.openTime = .ofBytes r.openTime.bytes ∧ e.closeTime = .ofBytes r.closeTime.bytes
  options : ∃ os : List OptionRow, os.Perm (t.optionsOf eid) ∧
    e.options = (os.map fun o => [o.idx.render, o.name.bytes]).foldl placeOption
      (Vector.replicate _ default)
  optionCount : e.optionCount = min (t.optionsOf eid).length bbMaxOptions
  eligible : ∃ vs : List EligibleRow, vs.Perm (t.eligiblesOf eid) ∧
    e.eligible = (vs.take bbMaxVoters).map fun v => .ofBytes v.certName.bytes

/-- The row `r'` is the election row `r` in another state. -/
structure ElectionRow.MovesTo (r r' : ElectionRow) (s : BbState) : Prop where
  seq : r'.seq = r.seq
  id : r'.id = r.id
  title : r'.title.bytes = (CStr.ofBytes r.title.bytes : CStr bbTitleLen).bytes
  state : r'.state.bytes = bbStateStr s
  openTime : r'.openTime.bytes = (CStr.ofBytes r.openTime.bytes : CStr bbTimeLen).bytes
  closeTime : r'.closeTime.bytes = (CStr.ofBytes r.closeTime.bytes : CStr bbTimeLen).bytes

def DbCmd.Means (t : Tables) (out : DbResult) (t' : Tables) : DbCmd → Prop
  | .insertElection eid cfg => Creates eid.bytes cfg t t'
  | .updateState eid s =>
    ∃ r r', r ∈ t.electionsOf eid.bytes ∧ r.MovesTo r' s ∧ t' = t.setElection r'
  | .appendBallot eid row =>
    ∃ b : BallotRow, b.Stores eid.bytes row ∧ t' = { t with ballots := t.ballots ++ [b] }
  | .markSuperseded eid hash => ∃ b ∈ t.ballotsWith eid.bytes hash.bytes, t' = t.supersede b
  | .nonceMark eid nonce =>
    ∃ n : NonceRow, n.electionId.bytes = eid.bytes ∧ n.nonce.bytes = nonce.bytes ∧
      t' = { t with nonces := t.nonces ++ [n] }
  | .setOwner eid cert hash version =>
    ∃ o : OwnerRow, o.electionId.bytes = eid.bytes ∧ o.certName.bytes = cert.bytes ∧
      o.hash.bytes = hash.bytes ∧ o.version.val = version ∧ t' = t.setOwner o
  | .getElection eid => t' = t ∧
    ((t.electionsOf eid.bytes = [] ∧ out.found = false) ∨
      (out.found = true ∧ ReadsElection eid.bytes t out.election))
  | .getTally eid => t' = t ∧ ∃ bs : List BallotRow, bs.Perm (t.liveBallots eid.bytes) ∧
      out.tally = (bs.map fun b => [b.optionIndex.render]).foldl countVote (Vector.replicate _ 0)
  | .getHashes eid => t' = t ∧ ∃ bs : List BallotRow, bs.Perm (t.liveBallots eid.bytes) ∧
      out.hashes = (bs.map BallotRow.published).take bbMaxVoters
  | .findHash eid hash => t' = t ∧
    (((t.liveBallots eid.bytes).filter (·.hash.bytes = hash.bytes) = [] ∧ out.found = false) ∨
      (out.found = true ∧ ∃ b ∈ t.liveBallots eid.bytes, b.hash.bytes = hash.bytes ∧
        out.row = b.published))
  | .nonceSeen eid nonce => t' = t ∧ (out.found = true ↔ t.noncesOf eid.bytes nonce.bytes ≠ [])
  | .getPriorBallot eid cert => t' = t ∧
    ((t.ownersOf eid.bytes cert.bytes = [] ∧ out.found = false) ∨
      (out.found = true ∧ ∃ o ∈ t.ownersOf eid.bytes cert.bytes,
        out.row.hash = .ofBytes o.hash.bytes ∧ out.row.version = o.version.val))

/-! ## Reads -/

variable {view : Option Tables} {t store : Tables} {cap : ℕ} {stmt : Stmt}

lemma Triple.select {α : Type} {f : α → Row} {rows : Tables → List α}
    {k : Reply → EStateM BbErr (Link Unit) β}
    (hdata : stmt.isData = true) (hsel : ∀ t, stmt.run t = some (t, (rows t).map f))
    (hk : ∀ l : List α, l.Perm (rows (view.getD store)) →
      Triple (Sees view store) (k (some (l.map f))) Q (Fails store)) :
    Triple (Sees view store) (execStmt direct cap stmt >>= k) Q (Fails store) := by
  refine (execStmt_select hdata hsel).bind fun reply => of_imp ?_
  rintro ⟨m, hm, rfl⟩
  obtain ⟨l, hl, rfl⟩ := exists_perm_map hm
  exact hk l hl

lemma Triple.fail :
    Triple (Sees view store) (MonadExcept.throw .db : EStateM BbErr (Link Unit) β) Q
      (Fails store) :=
  (Triple.throw _).pre fun _ hl => ⟨.inl rfl, hl.store_eq⟩

abbrev Reads (cmd : DbCmd) (view : Option Tables) (store : Tables)
    (x : EStateM BbErr (Link Unit) DbResult) : Prop :=
  Triple (Link.Sees view store) x
    (fun out l => cmd.Means (view.getD store) out (view.getD store) ∧ l.Sees view store)
    (Link.Fails store)

lemma Reads.return (h : cmd.Means (view.getD store) out (view.getD store)) :
    Reads cmd view store (pure out) :=
  (Triple.pure out).pre fun _ hl => ⟨h, hl⟩

lemma runGetElection_reads (eid : CStr bbIdLen) :
    Reads (.getElection eid) view store (runGetElection direct eid) := by
  refine Triple.select rfl (fun _ => rfl) fun rs hrs => ?_
  cases rs with
  | nil => exact Reads.return ⟨rfl, .inl ⟨by simpa using hrs.symm, rfl⟩⟩
  | cons r rs =>
    have hr : r ∈ (view.getD store).electionsOf eid.bytes := hrs.subset List.mem_cons_self
    simp only [Reply.rowCount, Reply.rowFields, List.map_cons, List.length_cons, bind_some,
      List.getElem?_cons_zero]
    rw [if_neg (by omega), if_neg (by omega)]
    cases hs : parseState (CStr.ofBytes r.state.bytes : CStr 16).bytes with
    | none => exact Triple.fail
    | some state =>
      refine Triple.select rfl (fun _ => rfl) fun os hos => ?_
      refine Triple.select rfl (fun _ => rfl) fun vs hvs => ?_
      refine Reads.return ⟨rfl, .inr ⟨rfl, ⟨r, hr, rfl, rfl, hs, rfl, rfl⟩, ⟨os, hos, rfl⟩, ?_,
        vs, hvs, ?_⟩⟩
      · simp [hos.length_eq]
      · simp [← List.map_take, Function.comp_def, eligibleEntry]

lemma runGetTally_reads (eid : CStr bbIdLen) :
    Reads (.getTally eid) view store (runGetTally direct eid) :=
  Triple.select rfl (fun _ => rfl) fun bs hbs => Reads.return ⟨rfl, bs, hbs, rfl⟩

lemma runGetHashes_reads (eid : CStr bbIdLen) :
    Reads (.getHashes eid) view store (runGetHashes direct eid) := by
  refine Triple.select rfl (fun _ => rfl) fun bs hbs => Reads.return ⟨rfl, bs, hbs, ?_⟩
  simp [List.filterMap_map]

lemma runFindHash_reads (eid : CStr bbIdLen) (hash : CStr bbHashLen) :
    Reads (.findHash eid hash) view store (runFindHash direct eid hash) := by
  refine Triple.select rfl (fun _ => rfl) fun bs hbs => ?_
  cases bs with
  | nil => exact Reads.return ⟨rfl, .inl ⟨by simpa using hbs.symm, rfl⟩⟩
  | cons b bs =>
    obtain ⟨hb, hhash⟩ := List.mem_filter.mp (hbs.subset List.mem_cons_self)
    refine Triple.ite (fun h => absurd h ?_) fun _ => ?_
    · simp [Reply.rowCount]
    · simp only [Reply.rowFields, List.map_cons, bind_some, List.getElem?_cons_zero,
        hashRowOf_hashRow]
      exact Reads.return ⟨rfl, .inr ⟨rfl, b, hb, of_decide_eq_true hhash, rfl⟩⟩

lemma runNonceSeen_reads (eid : CStr bbIdLen) (nonce : CStr bbNonceLen) :
    Reads (.nonceSeen eid nonce) view store (runNonceSeen direct eid nonce) := by
  refine Triple.select rfl (fun _ => rfl) fun ns hns => Reads.return ⟨rfl, ?_⟩
  simp [Reply.rowCount, hns.length_eq, List.length_pos_iff]

lemma runGetPriorBallot_reads (eid : CStr bbIdLen) (cert : CStr bbCertLen) :
    Reads (.getPriorBallot eid cert) view store (runGetPriorBallot direct eid cert) := by
  refine Triple.select rfl (fun _ => rfl) fun os hos => ?_
  cases os with
  | nil => exact Reads.return ⟨rfl, .inl ⟨by simpa using hos.symm, rfl⟩⟩
  | cons o os =>
    refine Triple.ite (fun h => absurd h ?_) fun _ => ?_
    · simp [Reply.rowCount]
    · refine Reads.return ⟨rfl, .inr ⟨rfl, o, hos.subset List.mem_cons_self, rfl, ?_⟩⟩
      exact fieldInt_render o.version

lemma runOp_read (h : cmd.isWrite = false) : Reads cmd view store (runOp direct cmd) := by
  cases cmd with
  | getElection eid => exact runGetElection_reads eid
  | getTally eid => exact runGetTally_reads eid
  | getHashes eid => exact runGetHashes_reads eid
  | findHash eid hash => exact runFindHash_reads eid hash
  | nonceSeen eid nonce => exact runNonceSeen_reads eid nonce
  | getPriorBallot eid cert => exact runGetPriorBallot_reads eid cert
  | _ => cases h

/-! ## Writes -/

abbrev Writes (cmd : DbCmd) (t store : Tables) (x : EStateM BbErr (Link Unit) DbResult) : Prop :=
  Triple (Link.Sees (some t) store) x
    (fun out l => ∃ t', cmd.Means t out t' ∧ l.Sees (some t') store) (Link.Fails store)

lemma Triple.write {k : EStateM BbErr (Link Unit) β} (hdata : stmt.isData = true)
    (hk : ∀ t' rows, stmt.run t = some (t', rows) →
      Triple (Sees (some t') store) k Q (Fails store)) :
    Triple (Sees (some t) store) (execStmt direct cap stmt >>= fun _ => k) Q
      (Fails store) := by
  refine (execStmt_write hdata).bind fun _ => exists_elim fun t' => ?_
  exact exists_elim fun rows => of_imp (hk t' rows)

lemma Writes.return {t : Tables} (h : cmd.Means t out t') :
    Triple (Sees (some t') store) (pure out : EStateM BbErr (Link Unit) DbResult)
      (fun out l => ∃ t', cmd.Means t out t' ∧ l.Sees (some t') store)
      (Fails store) :=
  (Triple.pure out).pre fun _ hl => ⟨t', h, hl⟩

lemma run_insertBallot {eid hash opt ver sup : Bytes}
    (h : Stmt.run t (.insertBallot eid hash opt ver sup) = some (t', rows)) :
    ∃ b : BallotRow, (b.electionId.bytes = eid ∧ b.hash.bytes = hash ∧
      parse? opt = some b.optionIndex ∧ parse? ver = some b.version ∧
      parse? sup = some b.superseded) ∧ t' = { t with ballots := t.ballots ++ [b] } := by
  simp only [Stmt.run, bind_eq_bind, bind_eq_some_iff, Text.ofBytes?_eq_some,
    some.injEq, Prod.mk.injEq] at h
  obtain ⟨e, rfl, x, rfl, o, ho, v, hv, s, hs, rfl, -⟩ := h
  exact ⟨⟨e, x, o, v, s⟩, ⟨rfl, rfl, ho, hv, hs⟩, rfl⟩

lemma val_of_parse?_renderInt {i : ℤ} {n : JInt} (h : parse? (renderInt i) = some n) :
    n.val = i := by
  rwa [parse?_renderInt, ofInt?_eq_some] at h

lemma runAppendBallot_writes (eid : CStr bbIdLen) (row : BbBallotHash) :
    Writes (.appendBallot eid row) t store (runAppendBallot direct eid row) := by
  refine Triple.write rfl fun t' rows h => ?_
  obtain ⟨b, ⟨he, hh, ho, hv, hs⟩, rfl⟩ := run_insertBallot h
  exact Writes.return ⟨b, ⟨he, hh, val_of_parse?_renderInt ho, val_of_parse?_renderInt hv,
    val_of_parse?_renderInt hs⟩, rfl⟩

lemma runMarkSuperseded_writes (eid : CStr bbIdLen) (hash : CStr bbHashLen) :
    Writes (.markSuperseded eid hash) t store (runMarkSuperseded direct eid hash) := by
  refine Triple.select rfl (fun _ => rfl) fun bs hbs => ?_
  cases bs with
  | nil => exact Triple.fail
  | cons b bs =>
    have hb : b ∈ t.ballotsWith eid.bytes hash.bytes := hbs.subset List.mem_cons_self
    obtain ⟨heid, hhash⟩ := of_decide_eq_true (List.mem_filter.mp hb).2
    refine Triple.ite (fun h => absurd h ?_) fun _ => ?_
    · simp [Reply.rowCount]
    · refine Triple.write rfl fun t' _ hdel => Triple.write rfl fun t'' _ hins => ?_
      obtain ⟨b', ⟨he, hh, ho, hv, hs⟩, rfl⟩ := run_insertBallot hins
      rw [ofBytes_render, parse?_render, some.injEq] at ho hv
      have hb' : b' = b.retired := by
        refine BallotRow.ext ?_ ?_ ho.symm hv.symm ?_
        · exact Text.ext (he.trans heid.symm)
        · exact Text.ext (hh.trans hhash.symm)
        · exact ext (val_of_parse?_renderInt hs)
      obtain ⟨rfl, -⟩ := hdel
      exact Writes.return ⟨b, hb, by
        simp [Tables.supersede, upsert, BallotRow.key, BallotRow.retired, hb', heid, hhash]⟩

lemma runNonceMark_writes (eid : CStr bbIdLen) (nonce : CStr bbNonceLen) :
    Writes (.nonceMark eid nonce) t store (runNonceMark direct eid nonce) := by
  refine Triple.write rfl fun t' rows h => ?_
  simp only [Stmt.run, bind_eq_bind, bind_eq_some_iff, Text.ofBytes?_eq_some,
    some.injEq, Prod.mk.injEq] at h
  obtain ⟨e, he, n, hn, rfl, -⟩ := h
  exact Writes.return ⟨⟨e, n⟩, he, hn, rfl⟩

lemma runSetOwner_writes (eid : CStr bbIdLen) (cert : CStr bbCertLen) (hash : CStr bbHashLen)
    (version : ℤ) :
    Writes (.setOwner eid cert hash version) t store
      (runSetOwner direct eid cert hash version) := by
  refine Triple.write rfl fun t' _ hdel => Triple.write rfl fun t'' _ hins => ?_
  obtain ⟨rfl, -⟩ := hdel
  simp only [Stmt.run, bind_eq_bind, bind_eq_some_iff, Text.ofBytes?_eq_some,
    some.injEq, Prod.mk.injEq] at hins
  obtain ⟨e, he, c, hc, x, hx, v, hv, rfl, -⟩ := hins
  refine Writes.return ⟨⟨e, c, x, v⟩, he, hc, hx, val_of_parse?_renderInt hv, ?_⟩
  simp [Tables.setOwner, upsert, OwnerRow.voter, he, hc]

lemma run_insertElection {seq id title state openTime closeTime : Bytes}
    (h : Stmt.run t (.insertElection seq id title state openTime closeTime) = some (t', rows)) :
    ∃ r : ElectionRow, (parse? seq = some r.seq ∧ r.id.bytes = id ∧ r.title.bytes = title ∧
      r.state.bytes = state ∧ r.openTime.bytes = openTime ∧ r.closeTime.bytes = closeTime) ∧
      t' = { t with elections := t.elections ++ [r] } := by
  simp only [Stmt.run, bind_eq_bind, bind_eq_some_iff, Text.ofBytes?_eq_some,
    some.injEq, Prod.mk.injEq] at h
  obtain ⟨q, hq, i, hi, n, hn, s, hs, a, ha, b, hb, rfl, -⟩ := h
  exact ⟨⟨q, i, n, s, a, b⟩, ⟨hq, hi, hn, hs, ha, hb⟩, rfl⟩

lemma runUpdateState_writes (eid : CStr bbIdLen) (newState : BbState) :
    Writes (.updateState eid newState) t store (runUpdateState direct eid newState) := by
  refine Triple.select rfl (fun _ => rfl) fun rs hrs => ?_
  cases rs with
  | nil => exact Triple.fail
  | cons r rs =>
    have hr : r ∈ t.electionsOf eid.bytes := hrs.subset List.mem_cons_self
    have hid : r.id.bytes = eid.bytes := of_decide_eq_true (List.mem_filter.mp hr).2
    refine Triple.ite (fun h => absurd h ?_) fun _ => ?_
    · simp [Reply.rowCount]
    · refine Triple.write rfl fun t' _ hdel => Triple.write rfl fun t'' _ hins => ?_
      obtain ⟨r', ⟨hseq, hid', htitle, hstate, hopen, hclose⟩, rfl⟩ := run_insertElection hins
      rw [ofBytes_render, parse?_render, some.injEq] at hseq
      obtain ⟨rfl, -⟩ := hdel
      refine Writes.return ⟨r, r', hr, ⟨hseq.symm, Text.ext (hid'.trans hid.symm), htitle, hstate,
        hopen, hclose⟩, ?_⟩
      simp [Tables.setElection, upsert, hid']

/-! ## Inserting an election -/

lemma clean_of_safe {n : ℕ} {s : CStr n} (h : unsafeText s.bytes = false) : Clean s.bytes := by
  have hc (c : UInt8) (hc : c ∈ s.bytes) := List.any_eq_false.mp h c hc
  exact ⟨s.noNul, fun hcr => by simpa using hc _ hcr, fun hlf => by simpa using hc _ hlf⟩

/-- The texts of a configuration pass the check an election insert makes. -/
structure BbConfig.Safe (cfg : BbConfig) : Prop where
  title : unsafeText cfg.title.bytes = false
  openTime : unsafeText cfg.openTime.bytes = false
  closeTime : unsafeText cfg.closeTime.bytes = false
  options : ∀ opt ∈ cfg.options, unsafeText opt.bytes = false
  eligible : ∀ cert ∈ cfg.eligible, unsafeText cert.bytes = false

lemma idSeq_range (id : Bytes) : -2 ^ 31 ≤ idSeq id ∧ idSeq id < 2 ^ 31 := by
  unfold idSeq
  split
  · norm_num
  · dsimp only
    split_ifs
    · norm_num
    · exact wrap32_range _

section Inserting

variable {ι : Type} {ch : Channel ι} {S : Tables → Link ι → Prop} {E : BbErr → Link ι → Prop}

/-- Inserts of one-line texts are done, if the engine accepts them. `S t`: the connection works on
the tables `t`. -/
def DoesInserts (ch : Channel ι) (S : Tables → Link ι → Prop) (E : BbErr → Link ι → Prop) : Prop :=
  ∀ (stmt : Stmt) (t t' : Tables), stmt.isData = true → (∀ p ∈ stmt.parts, Clean p) →
    stmt.run t = some (t', countReply 1) → Triple (S t) (execStmt ch 0 stmt) (fun _ => S t') E

variable (hins : DoesInserts ch S E) {eid : CStr bbIdLen} {cfg : BbConfig}
  (hrough : ¬ (unsafeText eid.bytes = false ∧ cfg.Safe) → ∀ t l, S t l → E .db l)

include hins hrough

lemma insertOptions_adds (heid : unsafeText eid.bytes = false) : Triple (S t)
      (cfg.options.zipIdx.forM fun (opt, i) => do
        if unsafeText opt.bytes then throw .db
        let _ ← execStmt ch 0 (.insertOption eid.bytes (renderInt i) opt.bytes))
      (fun _ l => ∃ os : List OptionRow,
        os.map (fun o => (o.electionId.bytes, o.idx.val, o.name.bytes)) =
          cfg.options.zipIdx.map (fun p => (eid.bytes, (p.2 : ℤ), p.1.bytes)) ∧
        S { t with options := t.options ++ os } l) E := by
  refine Triple.pre (Triple.forM (I := fun (done : List (CStr bbOptionLen × ℕ)) l =>
    ∃ os : List OptionRow, os.map (fun o => (o.electionId.bytes, o.idx.val, o.name.bytes)) =
      done.map (fun p => (eid.bytes, (p.2 : ℤ), p.1.bytes)) ∧
    S { t with options := t.options ++ os } l) ?_) fun l hl => ⟨[], rfl, by simpa using hl⟩
  rintro done ⟨opt, i⟩ rest hl
  obtain ⟨hi, hopt⟩ : i < cfg.options.length ∧ opt ∈ cfg.options := by
    have hmem : (opt, i) ∈ cfg.options.zipIdx := by simp [hl]
    exact ⟨by simpa using List.snd_lt_add_of_mem_zipIdx hmem, List.fst_mem_of_mem_zipIdx hmem⟩
  refine exists_elim fun os => of_imp fun hos => ?_
  refine Triple.ite (fun hbad => (Triple.throw _).pre (hrough ?_ _)) fun hsafe => ?_
  · exact fun h => by simp [h.2.options opt hopt] at hbad
  have hlen := cfg.options_le
  have hclean : Clean opt.bytes := clean_of_safe (by simpa using hsafe)
  let row : OptionRow := ⟨⟨eid.bytes, clean_of_safe heid⟩,
    ⟨i, by omega, by simp only [bbMaxOptions] at hlen; omega⟩, ⟨opt.bytes, hclean⟩⟩
  have hidx : parse? (renderInt i) = some row.idx := parse?_render row.idx
  refine (hins _ _ { t with options := t.options ++ (os ++ [row]) } rfl ?_ ?_).bind
    fun _ => (Triple.pure _).pre fun l hl => ⟨os ++ [row], by simp [hos, row], hl⟩
  · simpa [Stmt.parts] using ⟨clean_of_safe heid, clean_renderInt _, hclean⟩
  · simp [Stmt.run, hidx, Text.ofBytes?_clean (clean_of_safe heid), Text.ofBytes?_clean hclean, row]

lemma insertEligibles_adds (heid : unsafeText eid.bytes = false) : Triple (S t)
      (cfg.eligible.forM fun cert => do
        if unsafeText cert.bytes then throw .db
        let _ ← execStmt ch 0 (.insertEligible eid.bytes cert.bytes))
      (fun _ l => ∃ vs : List EligibleRow,
        vs.map (fun v => (v.electionId.bytes, v.certName.bytes)) =
          cfg.eligible.map (fun c => (eid.bytes, c.bytes)) ∧
        S { t with eligibles := t.eligibles ++ vs } l) E := by
  refine Triple.pre (Triple.forM (I := fun (done : List (CStr bbCertLen)) l =>
    ∃ vs : List EligibleRow, vs.map (fun v => (v.electionId.bytes, v.certName.bytes)) =
      done.map (fun c => (eid.bytes, c.bytes)) ∧
    S { t with eligibles := t.eligibles ++ vs } l) ?_) fun l hl => ⟨[], rfl, by simpa using hl⟩
  intro done cert rest hl
  refine exists_elim fun vs => of_imp fun hvs => ?_
  refine Triple.ite (fun hbad => (Triple.throw _).pre (hrough ?_ _)) fun hsafe => ?_
  · exact fun h => by simp [h.2.eligible cert (by simp [hl])] at hbad
  have hclean : Clean cert.bytes := clean_of_safe (by simpa using hsafe)
  let row : EligibleRow := ⟨⟨eid.bytes, clean_of_safe heid⟩, ⟨cert.bytes, hclean⟩⟩
  refine (hins _ _ { t with eligibles := t.eligibles ++ (vs ++ [row]) } rfl ?_ ?_).bind
    fun _ => (Triple.pure _).pre fun l hl => ⟨vs ++ [row], by simp [hvs, row], hl⟩
  · simpa [Stmt.parts] using ⟨clean_of_safe heid, hclean⟩
  · simp [Stmt.run, Text.ofBytes?_clean (clean_of_safe heid), Text.ofBytes?_clean hclean, row]

lemma runInsertElection_creates : Triple (S t) (runInsertElection ch eid cfg)
    (fun _ l => ∃ t', (unsafeText eid.bytes = false ∧ Creates eid.bytes cfg t t') ∧ S t' l) E := by
  refine Triple.ite (fun hbad => (Triple.throw _).pre (hrough ?_ _)) fun hsafe => ?_
  · exact fun h => by simp [h.1, h.2.title, h.2.openTime, h.2.closeTime] at hbad
  simp only [Bool.or_eq_true, not_or, Bool.not_eq_true] at hsafe
  obtain ⟨⟨⟨hid, htitle⟩, hopen⟩, hclose⟩ := hsafe
  let row : ElectionRow := ⟨⟨idSeq eid.bytes, (idSeq_range _).1, (idSeq_range _).2⟩,
    ⟨eid.bytes, clean_of_safe hid⟩, ⟨cfg.title.bytes, clean_of_safe htitle⟩,
    ⟨ascii "DRAFT", by decide⟩, ⟨cfg.openTime.bytes, clean_of_safe hopen⟩,
    ⟨cfg.closeTime.bytes, clean_of_safe hclose⟩⟩
  have hseq : parse? (renderInt (idSeq eid.bytes)) = some row.seq :=
    parse?_render row.seq
  refine (hins _ _ { t with elections := t.elections ++ [row] } rfl ?_ ?_).bind fun _ => ?_
  · simpa [Stmt.parts] using ⟨clean_renderInt _, clean_of_safe hid, clean_of_safe htitle,
      row.state.clean, clean_of_safe hopen, clean_of_safe hclose⟩
  · simp [Stmt.run, hseq, Text.ofBytes?_clean (clean_of_safe hid),
      Text.ofBytes?_clean (clean_of_safe htitle), Text.ofBytes?_clean row.state.clean,
      Text.ofBytes?_clean (clean_of_safe hopen), Text.ofBytes?_clean (clean_of_safe hclose), row]
  refine (insertOptions_adds hins hrough hid).bind fun _ =>
    exists_elim fun os => of_imp fun hos => ?_
  refine (insertEligibles_adds hins hrough hid).bind fun _ =>
    exists_elim fun vs => of_imp fun hvs => ?_
  exact (Triple.pure _).pre fun l hl => ⟨_, ⟨hid, row, os, vs, ⟨rfl, rfl, rfl, rfl, rfl, rfl⟩, hos,
    hvs, rfl⟩, hl⟩

end Inserting

lemma runInsertElection_writes (eid : CStr bbIdLen) (cfg : BbConfig) :
    Writes (.insertElection eid cfg) t store (runInsertElection direct eid cfg) := by
  refine (runInsertElection_creates (S := fun t => Sees (some t) store) ?_
    fun _ _ l hl => ⟨.inl rfl, hl.store_eq⟩).post fun _ l ⟨t', hcreates, hl⟩ => ⟨t', hcreates.2, hl⟩
  intro stmt t t' hdata _ hrun
  refine (execStmt_write hdata).post fun _ l hl => ?_
  obtain ⟨t'', rows, hrun', hl⟩ := hl
  obtain ⟨rfl, -⟩ := Prod.mk.inj (some.inj (hrun.symm.trans hrun'))
  exact hl

lemma runOp_inTxn (cmd : DbCmd) : Writes cmd t store (runOp direct cmd) := by
  cases cmd with
  | insertElection eid cfg => exact runInsertElection_writes eid cfg
  | updateState eid s => exact runUpdateState_writes eid s
  | appendBallot eid row => exact runAppendBallot_writes eid row
  | markSuperseded eid hash => exact runMarkSuperseded_writes eid hash
  | nonceMark eid nonce => exact runNonceMark_writes eid nonce
  | setOwner eid cert hash version => exact runSetOwner_writes eid cert hash version
  | _ => exact (runOp_read rfl).post fun _ l hl => ⟨t, hl⟩

end BallotBox
