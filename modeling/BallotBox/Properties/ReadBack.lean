import BallotBox.Construction.Handlers
import BallotBox.Properties.Support.OwnConnection

/-!
# A created election reads back as configured

`BB_DB_INSERT_ELECTION` spreads a configuration over three tables, and `BB_DB_GET_ELECTION` puts it
together again from the unquoted text of three replies.
-/

namespace BallotBox

open Link Option Function

open List (length_append mem_map)

/-! ## The property -/

/-- The operation found the election, with everything the configuration says. -/
structure AsConfigured (cfg : BbConfig) (out : DbResult) : Prop where
  found : out.found = true
  state : out.election.state = .draft
  title : out.election.title = cfg.title
  times : out.election.openTime = cfg.openTime ∧ out.election.closeTime = cfg.closeTime
  optionCount : out.election.optionCount = cfg.options.length
  options : ∀ (i : ℕ) (name : CStr bbOptionLen), cfg.options[i]? = some name →
    out.election.options[i]? = some name
  eligible : out.election.eligible.Perm cfg.eligible

/-- The id has no election, option or eligible rows. -/
def Tables.Unused (t : Tables) (id : Bytes) : Prop :=
  t.electionsOf id = [] ∧ t.optionsOf id = [] ∧ t.eligiblesOf id = []

/-- After an insert under a fresh id that returned `BB_OK`, a get returns the election as
configured, if its statements are answered. -/
def ReadsBackAs (cfg : BbConfig) : Prop :=
  ∀ (id : CStr bbIdLen) (w w' : World Bytes) (out : DbResult), w.txnConn = none →
    w.server.store.Unused id.bytes → (dbExec wire (.insertElection id cfg)).run w = .ok out w' →
    (w'.server.Answering → ∃ got w'', (dbExec wire (.getElection id)).run w' = .ok got w'') ∧
    ∀ got w'', (dbExec wire (.getElection id)).run w' = .ok got w'' → AsConfigured cfg got

/-- No name is empty or starts with `<<END `. -/
def BbConfig.NamesReadable (cfg : BbConfig) : Prop :=
  ∀ cert ∈ cfg.eligible, cert.bytes ≠ [] ∧ ¬ dbMarkEnd <+: cert.bytes

/-! ## What the tables hold -/

/-- The rows of the election, as the configuration says. -/
structure StoresElection (eid : Bytes) (cfg : BbConfig) (t : Tables) : Prop where
  row : ∃ r, t.electionsOf eid = [r] ∧ r.id.bytes = eid ∧ r.title.bytes = cfg.title.bytes ∧
    r.state.bytes = ascii "DRAFT" ∧ r.openTime.bytes = cfg.openTime.bytes ∧
    r.closeTime.bytes = cfg.closeTime.bytes
  options : (t.optionsOf eid).map (fun o => (o.idx.val, o.name.bytes)) =
    cfg.options.zipIdx.map fun p => ((p.2 : ℤ), p.1.bytes)
  eligibles : (t.eligiblesOf eid).map (·.certName.bytes) = cfg.eligible.map (·.bytes)

lemma Creates.storesElection {eid : Bytes} {cfg : BbConfig} {t t' : Tables}
    (h : Creates eid cfg t t') (hunused : t.Unused eid) : StoresElection eid cfg t' := by
  obtain ⟨r, os, vs, ⟨-, hid, htitle, hstate, hopen, hclose⟩, hos, hvs, rfl⟩ := h
  obtain ⟨helections, hoptions, heligibles⟩ := hunused
  have hos' : os.filter (·.electionId.bytes = eid) = os := by
    refine List.filter_eq_self.mpr fun o ho => decide_eq_true ?_
    have hmem := List.mem_map_of_mem (f := fun o : OptionRow =>
      (o.electionId.bytes, o.idx.val, o.name.bytes)) ho
    rw [hos] at hmem
    obtain ⟨p, -, hp⟩ := mem_map.mp hmem
    exact (Prod.mk.inj hp).1.symm
  have hvs' : vs.filter (·.electionId.bytes = eid) = vs := by
    refine List.filter_eq_self.mpr fun v hv => decide_eq_true ?_
    have hmem := List.mem_map_of_mem (f := fun v : EligibleRow =>
      (v.electionId.bytes, v.certName.bytes)) hv
    rw [hvs] at hmem
    obtain ⟨c, -, hc⟩ := mem_map.mp hmem
    exact (Prod.mk.inj hc).1.symm
  refine ⟨⟨r, ?_, hid, htitle, hstate, hopen, hclose⟩, ?_, ?_⟩
  · have hrow : ([r] : List ElectionRow).filter (·.id.bytes = eid) = [r] := by simp [hid]
    rw [Tables.electionsOf] at helections ⊢
    rw [List.filter_append, helections, hrow, List.nil_append]
  · rw [Tables.optionsOf] at hoptions ⊢
    rw [List.filter_append, hoptions, hos', List.nil_append]
    have := congrArg (List.map Prod.snd) hos
    simpa [comp_def] using this
  · rw [Tables.eligiblesOf] at heligibles ⊢
    rw [List.filter_append, heligibles, hvs', List.nil_append]
    have := congrArg (List.map Prod.snd) hvs
    simpa [comp_def] using this

lemma StoresElection.run_selectEligible {eid : Bytes} {cfg : BbConfig} {t : Tables}
    (h : StoresElection eid cfg t) : (Stmt.selectEligible eid).run t =
      some (t, (cfg.eligible.map (·.bytes)).map fun name => [name]) := by
  rw [← h.eligibles]
  simp [Stmt.run]

/-! ## Reading it back -/

lemma tab_notMem_of_safe {s : Bytes} (h : unsafeText s = false) : tab ∉ s := fun htab => by
  simpa using List.any_eq_false.mp h tab htab

section Get

variable {eid : CStr bbIdLen} {cfg : BbConfig} {t : Tables} {calm : Prop}
  (heid : unsafeText eid.bytes = false) (hsafe : cfg.Safe) (h : StoresElection eid.bytes cfg t)

include heid hsafe h

lemma select_election (calm : Prop) : ∃ r : ElectionRow,
    (r.title.bytes = cfg.title.bytes ∧ r.state.bytes = ascii "DRAFT" ∧
      r.openTime.bytes = cfg.openTime.bytes ∧ r.closeTime.bytes = cfg.closeTime.bytes) ∧
    Triple (Clear calm none t) (execStmt wire bodyMax (.selectElection eid.bytes))
      (fun reply l => reply = some [[r.seq.render, r.id.bytes, r.title.bytes, r.state.bytes,
        r.openTime.bytes, r.closeTime.bytes]] ∧ l.Clear calm none t)
      (Disturbed calm t) := by
  obtain ⟨r, hone, hid, htitle, hstate, hopen, hclose⟩ := h.row
  refine ⟨r, ⟨htitle, hstate, hopen, hclose⟩, ?_⟩
  have hrow : ReadsBack 6 170 [r.seq.render, r.id.bytes, r.title.bytes, r.state.bytes,
      r.openTime.bytes, r.closeTime.bytes] := by
    refine ⟨rfl, ?_, not_markEnd_render r.seq, by simp, ?_⟩
    · have htabs : tab ∉ r.id.bytes ∧ tab ∉ r.title.bytes ∧ tab ∉ r.state.bytes ∧
          tab ∉ r.openTime.bytes ∧ tab ∉ r.closeTime.bytes := by
        rw [hid, htitle, hstate, hopen, hclose]
        exact ⟨tab_notMem_of_safe heid, tab_notMem_of_safe hsafe.title, by decide,
          tab_notMem_of_safe hsafe.openTime, tab_notMem_of_safe hsafe.closeTime⟩
      simpa [JInt.render, clean_renderInt, Text.clean] using ⟨tab_notMem_render r.seq, htabs⟩
    · have hseq := r.seq.length_render_le
      have hid' : eid.bytes.length ≤ 15 := eid.fits
      have htitle' : cfg.title.bytes.length ≤ 63 := cfg.title.fits
      have hopen' : cfg.openTime.bytes.length ≤ 31 := cfg.openTime.fits
      have hclose' : cfg.closeTime.bytes.length ≤ 31 := cfg.closeTime.fits
      have hdraft : (ascii "DRAFT").length = 5 := by decide
      simp only [tupleLine, intercalate_cons_eq, List.flatMap_cons, List.flatMap_nil,
        length_append, List.length_cons, List.length_nil, hid, htitle, hstate, hopen, hclose]
      omega
  have hrun : (Stmt.selectElection eid.bytes).run ((none : Option Tables).getD t) =
      some (t, [[r.seq.render, r.id.bytes, r.title.bytes, r.state.bytes, r.openTime.bytes,
        r.closeTime.bytes]]) := by
    simp [Stmt.run, hone]
  refine (execStmt_clear_select rfl (fun _ => ?_) hrun fun m hm => ?_).post ?_
  · simpa [Stmt.parts] using clean_of_safe heid
  · refine wire_deliver_small (n := 1) (k := 170) hm (fun row hmem => ?_) (by simp) (by decide)
      (by decide) (by decide)
    rw [List.mem_singleton.mp hmem]
    exact hrow
  · rintro reply l ⟨⟨m, hm, rfl⟩, hl⟩
    rw [List.perm_singleton.mp hm]
    exact ⟨rfl, hl⟩

lemma select_options : Triple (Clear calm none t)
    (execStmt wire bodyMax (.selectOptions eid.bytes))
    (fun reply l => (∃ os : List OptionRow, os.Perm (t.optionsOf eid.bytes) ∧
      reply = some (os.map OptionRow.columns)) ∧ l.Clear calm none t)
    (Disturbed calm t) := by
  have hlen : (t.optionsOf eid.bytes).length = cfg.options.length := by
    simpa using congrArg List.length h.options
  refine (execStmt_clear_select rfl (fun _ => ?_) rfl fun m hm => ?_).post ?_
  · simpa [Stmt.parts] using clean_of_safe heid
  · refine wire_deliver_small (n := 16) (k := 43) hm (fun row hrow => ?_) ?_ (by decide) (by decide)
      (by decide)
    · obtain ⟨o, ho, rfl⟩ := mem_map.mp hrow
      obtain ⟨p, hp, hname⟩ : ∃ p ∈ cfg.options.zipIdx, p.1.bytes = o.name.bytes := by
        have hmem := List.mem_map_of_mem (f := fun o : OptionRow => (o.idx.val, o.name.bytes)) ho
        rw [getD_none, h.options] at hmem
        obtain ⟨p, hp, heq⟩ := mem_map.mp hmem
        exact ⟨p, hp, (Prod.mk.inj heq).2⟩
      have hsafe' := hsafe.options p.1 (List.fst_mem_of_mem_zipIdx hp)
      refine ⟨rfl, ?_, not_markEnd_render o.idx, by simp, ?_⟩
      · simpa [JInt.render, clean_renderInt, Text.clean] using
          ⟨tab_notMem_render o.idx, hname ▸ tab_notMem_of_safe hsafe'⟩
      · have hidx := o.idx.length_render_le
        have hfits : p.1.bytes.length ≤ 31 := p.1.fits
        simp only [tupleLine, intercalate_cons_eq, List.flatMap_cons, List.flatMap_nil,
          length_append, List.length_cons, List.length_nil, ← hname]
        omega
    · have := cfg.options_le
      simpa [hlen] using this
  · rintro reply l ⟨⟨m, hm, rfl⟩, hl⟩
    obtain ⟨os, hos, rfl⟩ := exists_perm_map hm
    exact ⟨⟨os, hos, rfl⟩, hl⟩

lemma select_eligible (hnames : cfg.NamesReadable) : Triple (Clear calm none t)
    (execStmt wire bodyMax (.selectEligible eid.bytes))
    (fun reply l => (∃ names : List Bytes, names.Perm (cfg.eligible.map (·.bytes)) ∧
      reply = some (names.map fun name => [name])) ∧ l.Clear calm none t)
    (Disturbed calm t) := by
  have hrun : (Stmt.selectEligible eid.bytes).run ((none : Option Tables).getD t) = some (_, _) :=
    h.run_selectEligible
  refine (execStmt_clear_select rfl (fun _ => ?_) hrun fun m hm => ?_).post ?_
  · simpa [Stmt.parts] using clean_of_safe heid
  · refine wire_deliver_small (n := 64) (k := 31) hm (fun row hrow => ?_) ?_ (by decide) (by decide)
      (by decide)
    · obtain ⟨name, hname, rfl⟩ := mem_map.mp hrow
      obtain ⟨cert, hcert, rfl⟩ := mem_map.mp hname
      have hsafe' := hsafe.eligible cert hcert
      obtain ⟨hne, hmark⟩ := hnames cert hcert
      have hfits : cert.bytes.length ≤ 31 := cert.fits
      refine ⟨rfl, ?_, by simpa using hmark, by simpa using hne, by simpa [tupleLine] using hfits⟩
      simpa using ⟨clean_of_safe hsafe', tab_notMem_of_safe hsafe'⟩
    · simpa using cfg.eligible_le
  · rintro reply l ⟨⟨m, hm, rfl⟩, hl⟩
    obtain ⟨names, hperm, rfl⟩ := exists_perm_map hm
    exact ⟨⟨names, hperm, rfl⟩, hl⟩

lemma runGetElection_stored {R : Link Bytes → Prop} {P : Reply → Prop}
    (heligible : Triple (Clear calm none t) (execStmt wire bodyMax (.selectEligible eid.bytes))
      (fun reply l => P reply ∧ R l) (Disturbed calm t)) :
    Triple (Clear calm none t) (runGetElection wire eid) (fun out l => (∃ reply, P reply ∧
        out.election.eligible = ((reply.getD []).take bbMaxVoters).map eligibleEntry ∧
        (out.election.eligible.Perm cfg.eligible → AsConfigured cfg out)) ∧ R l)
      (Disturbed calm t) := by
  obtain ⟨r, ⟨htitle, hstate, hopen, hclose⟩, hfirst⟩ := select_election heid hsafe h calm
  refine hfirst.bind fun reply => Triple.of_imp ?_
  rintro rfl
  refine Triple.ite (fun hneg => absurd hneg (by simp [Reply.rowCount])) fun _ => ?_
  refine Triple.ite (fun hzero => absurd hzero (by simp [Reply.rowCount])) fun _ => ?_
  have hdraft : parseState (CStr.ofBytes r.state.bytes : CStr 16).bytes = some .draft := by
    rw [hstate]
    decide
  simp only [Reply.rowFields, bind_some, List.getElem?_cons_zero, hdraft]
  refine (select_options heid hsafe h).bind fun reply => Triple.of_imp ?_
  rintro ⟨os, hos, rfl⟩
  refine Triple.bind_imp heligible fun reply hP => ?_
  refine (Triple.pure _).pre fun l hl => ⟨⟨reply, hP, rfl, fun hperm => ?_⟩, hl⟩
  have hpairs : (os.map fun o => (o.idx.val, o.name.bytes)).Perm
      (cfg.options.zipIdx.map fun p => ((p.2 : ℤ), p.1.bytes)) := h.options ▸ hos.map _
  have hdistinct : (os.map (·.idx.val)).Nodup := by
    have hidx : (os.map (·.idx.val)).Perm (cfg.options.zipIdx.map fun p => (p.2 : ℤ)) := by
      simpa [comp_def] using hpairs.map Prod.fst
    have hrange : (cfg.options.zipIdx.map Prod.snd).Nodup := by
      rw [List.zipIdx_map_snd]
      exact List.nodup_range'
    have hcast := hrange.map (Nat.cast_injective (R := ℤ))
    rw [List.map_map] at hcast
    exact hidx.nodup_iff.mpr hcast
  refine ⟨rfl, rfl, ?_, ⟨?_, ?_⟩, ?_, fun i name hi => ?_, hperm⟩
  · exact CStr.ofBytes_eq htitle
  · exact CStr.ofBytes_eq hopen
  · exact CStr.ofBytes_eq hclose
  · have hlen : os.length = cfg.options.length := by simpa using hpairs.length_eq
    have := cfg.options_le
    simpa [hlen] using this
  · obtain ⟨hlt, -⟩ := List.getElem?_eq_some_iff.mp hi
    have hi16 : i < bbMaxOptions := hlt.trans_le cfg.options_le
    obtain ⟨o, ho, heq⟩ := mem_map.mp (hpairs.symm.subset
      (mem_map.mpr ⟨(name, i), List.mem_zipIdx_iff_getElem?.mpr hi, rfl⟩))
    rw [Vector.getElem?_eq_getElem hi16]
    refine congrArg some ?_
    exact (getElem_placeOptions hdistinct ho hi16 (Prod.mk.inj heq).1 _).trans
      (CStr.ofBytes_eq (Prod.mk.inj heq).2)

lemma runGetElection_asConfigured (hnames : cfg.NamesReadable) :
    Triple (Clear calm none t) (runGetElection wire eid)
      (fun out l => AsConfigured cfg out ∧ l.Clear calm none t) (Disturbed calm t) := by
  refine (runGetElection_stored heid hsafe h (select_eligible heid hsafe h hnames)).post ?_
  rintro out l ⟨⟨_, ⟨names, hperm, rfl⟩, heligible, hconfigured⟩, hl⟩
  refine ⟨hconfigured ?_, hl⟩
  have hlen : names.length ≤ bbMaxVoters := by
    rw [hperm.length_eq, List.length_map]
    exact cfg.eligible_le
  have hentries : out.election.eligible = names.map CStr.ofBytes := by
    rw [heligible, getD_some, List.take_of_length_le (by simpa using hlen), List.map_map]
    rfl
  rw [hentries]
  refine (hperm.map _).trans (List.Perm.of_eq ?_)
  simp [comp_def]

end Get

/-! ## Names that are taken for framing -/

lemma length_readRows (body : Bytes) :
    ((readRows body).getD []).length = (dbRowCount body).toNat := by
  unfold readRows
  split_ifs with hneg
  · rw [getD_none, List.length_nil, Int.toNat_of_nonpos hneg.le]
  · simp

lemma deliver_bad_names (td : TupleDesc) (cap : ℕ) {rows : List Row} (hlines : PrintsOnLines rows)
    {row : Row} (hrow : row ∈ rows)
    (hbad : tupleLine row = [] ∨ dbMarkEnd <+: wireLine (tupleLine row))
    (hcap : (unlines (queryLines td rows)).length ≤ cap) (hint : rows.length < 2 ^ 31) :
    ((wire.deliver cap [] (.ok (.table td rows))).1.2.getD []).length < rows.length := by
  have hpos : 0 < rows.length := List.length_pos_of_mem hrow
  by_cases hmark : ∀ row ∈ rows, ¬ dbMarkEnd <+: wireLine (tupleLine row)
  · have hempty : tupleLine row = [] := hbad.resolve_right (hmark row hrow)
    have hcount : dbRowCount (readBody td rows) < _ := dbRowCount_readBody_lt hlines hrow hempty
    rw [wire_deliver_table hlines hmark, length_readRows, tableBody_eq hcap]
    omega
  · simp only [not_forall, not_not] at hmark
    obtain ⟨marker, hmem, hmark⟩ := hmark
    obtain ⟨before, bad, after, w', hsplit, -, hw', -⟩ :=
      dbWireResponse_marker hlines hmem hmark cap
      (readable_arrived (unlines (queryLines td rows ++ [dbMarkOk])))
    have hbefore : before.length < rows.length := by
      rw [hsplit, length_append, List.length_cons]
      omega
    have hcut : dbRowCount (cutBody cap td before) ≤ _ := dbRowCount_cutBody_le
      (fun x hx => hlines x (by simp [hsplit, hx])) ?_ (by omega)
    · have hdeliver : (wire.deliver cap [] (.ok (.table td rows))).1.2 =
          readRows (cutBody cap td before) := by
        simp only [wire, Verdict.lines, Answer.lines, hw']
      rw [hdeliver, length_readRows]
      omega
    · have hquery : queryLines td rows = (td.header :: td.rule :: before.map tupleLine) ++
          ((bad :: after).map tupleLine ++ [[], rowsTrailer rows.length]) := by
        simp [queryLines, hsplit]
      rw [hquery, unlines_append, length_append] at hcap
      omega

section Get

variable {eid : CStr bbIdLen} {cfg : BbConfig} {t : Tables} (heid : unsafeText eid.bytes = false)
  (hsafe : cfg.Safe) (h : StoresElection eid.bytes cfg t) (hnames : ¬ cfg.NamesReadable)

include heid hsafe h hnames

omit heid in
lemma select_bad_names : Triple (Clear False none t)
    (execStmt wire bodyMax (.selectEligible eid.bytes))
    (fun reply l => (reply.getD []).length < cfg.eligible.length ∧ l.Stores t)
    (Disturbed False t) := by
  intro l hl
  obtain ⟨e, l', hrun, hfail⟩ | ⟨order, view, store, answer, hx, hrecv⟩ :=
    execStmt_wire_cases bodyMax (.selectEligible eid.bytes) hl.inbox_eq
  · rw [EStateM.run, hrun]
    exact ⟨id, hfail.1, hfail.2.trans hl.sees.store_eq⟩
  have hsel : (Stmt.selectEligible eid.bytes).run ((none : Option Tables).getD t) = some (_, _) :=
    h.run_selectEligible
  rw [execute_sees rfl hsel l order hl.sees, some.injEq, Prod.mk.injEq, Prod.mk.injEq] at hx
  obtain ⟨rfl, rfl, rfl⟩ := hx
  generalize hm : order.apply ((cfg.eligible.map (·.bytes)).map fun name => [name]) = m at hrecv
  have hperm : m.Perm ((cfg.eligible.map (·.bytes)).map fun name => [name]) := hm ▸ order.perm _
  have hlen : m.length = cfg.eligible.length := by simpa using hperm.length_eq
  have hrow (row : Row) (hmem : row ∈ m) : ∃ cert ∈ cfg.eligible, row = [cert.bytes] := by
    obtain ⟨name, hname, rfl⟩ := mem_map.mp (hperm.subset hmem)
    obtain ⟨cert, hcert, rfl⟩ := mem_map.mp hname
    exact ⟨cert, hcert, rfl⟩
  have hlines : PrintsOnLines m := by
    refine .of_fields fun row hmem f hf => ?_
    obtain ⟨cert, hcert, rfl⟩ := hrow row hmem
    rw [List.mem_singleton.mp hf]
    exact ⟨cert.noNul, (clean_of_safe (hsafe.eligible cert hcert)).2.2⟩
  obtain ⟨cert, hcert, hbad⟩ : ∃ cert ∈ cfg.eligible, cert.bytes = [] ∨
    dbMarkEnd <+: cert.bytes := by
    simpa [BbConfig.NamesReadable, or_iff_not_imp_left] using hnames
  have hfits : cert.bytes.length ≤ 31 := cert.fits
  have hmem : [cert.bytes] ∈ m := hperm.symm.subset (by simpa using ⟨cert, hcert, rfl⟩)
  have hlt := deliver_bad_names (Stmt.selectEligible eid.bytes).desc bodyMax hlines hmem ?_ ?_ ?_
  · cases hdeliver : wire.deliver bodyMax []
        (.ok (.table (Stmt.selectEligible eid.bytes).desc m)) with
    | mk read inbox =>
      obtain ⟨status, reply⟩ := read
      rw [hlen, hdeliver] at hlt
      simp only [EStateM.run, execStmt, hrecv, receive, hl.inbox_eq, hdeliver]
      cases status with
      | ok => exact ⟨hlt, rfl⟩
      | retry => exact ⟨id, .inr rfl, rfl⟩
      | _ => exact ⟨id, .inl rfl, rfl⟩
  · rcases hbad with hnil | hmark
    · exact .inl (by rw [hnil]; rfl)
    · refine .inr ?_
      rw [tupleLine, List.intercalate_singleton, wireLine_eq_self cert.noNul]
      · exact hmark
      · simp only [dbBodyMax]
        omega
  · have hreply := length_reply_le (Stmt.selectEligible eid.bytes).desc (n := 64) (k := 31)
      (hlen.trans_le cfg.eligible_le) (by decide) fun row hmem => by
        obtain ⟨cert, -, rfl⟩ := hrow row hmem
        simpa [tupleLine] using cert.fits
    have hdesc := length_desc_le (Stmt.selectEligible eid.bytes)
    rw [unlines_append, length_append] at hreply
    rw [bodyMax]
    omega
  · have hle := cfg.eligible_le
    rw [hlen]
    simp only [bbMaxVoters] at hle
    omega

lemma dbExec_bad_names : Triple (World.Between (Server.Holds False t))
    (dbExec wire (.getElection eid)) (fun out _ => ¬ AsConfigured cfg out) (fun _ _ => True) := by
  have hget : Triple (Clear False none t) (runOp wire (.getElection eid))
      (fun out _ => ¬ AsConfigured cfg out) (Disturbed False t) := by
    refine (runGetElection_stored heid hsafe h (select_bad_names hsafe h hnames)).post ?_
    rintro out l ⟨⟨reply, hshort, heligible, -⟩, -⟩ hconfigured
    have hlen := hconfigured.eligible.length_eq
    rw [heligible, List.length_map, List.length_take] at hlen
    omega
  have hone : Triple (World.Between (Server.Holds False t)) (oneShotAttempt wire (.getElection eid))
      (fun out => World.Between fun _ => ¬ AsConfigured cfg out)
      (fun e => World.Between (Server.Disturbed False t e)) :=
    onFresh_lift opens_clear (hget.err fun _ _ hl => ⟨hl.1, hl.2.2⟩)
  exact (dbExec_alone (U := fun _ => True) hone (fun s hs => ⟨hs.2, fun h => h.elim⟩)
    (fun _ _ _ => trivial) fun _ _ => trivial).ends (fun _ _ hw => hw.2)
    fun _ _ _ => trivial

end Get

/-! ## The theorem -/

lemma dbExec_insertElection (calm : Prop) {id : CStr bbIdLen} {cfg : BbConfig} {t : Tables}
    (hcalm : calm → unsafeText id.bytes = false ∧ cfg.Safe) :
    Triple (World.Between (Server.Holds calm t)) (dbExec wire (.insertElection id cfg))
      (fun _ => World.Between fun s =>
        ∃ t', (unsafeText id.bytes = false ∧ Creates id.bytes cfg t t') ∧ s.Holds calm t')
      (fun e => World.Between (Server.Disturbed calm t e)) :=
  dbExec_writes rfl <| runInsertElection_creates doesInserts_clear fun hrough _ _ hl =>
    ⟨fun h => hrough (hcalm h), .inl rfl, hl.sees.store_eq⟩

lemma ReadsBackAs.namesReadable {cfg : BbConfig} (h : ReadsBackAs cfg) (hsafe : cfg.Safe) :
    cfg.NamesReadable := by
  by_contra hnames
  let id : CStr bbIdLen := .ofBytes (ascii "E1")
  have hid : unsafeText id.bytes = false := by decide
  let w : World Bytes := ⟨⟨.empty, fun _ => .ok .stored, 0, []⟩, none, [], default⟩
  have hw : w.Between (Server.Holds True .empty) := ⟨rfl, rfl, fun _ _ _ => ⟨_, rfl⟩⟩
  have hunused : w.server.store.Unused id.bytes := ⟨rfl, rfl, rfl⟩
  cases hinsert : (dbExec wire (.insertElection id cfg)).run w with
  | error e w' =>
    exact ((dbExec_insertElection True fun _ => ⟨hid, hsafe⟩).of_error hw hinsert).2.1 trivial
  | ok out w' =>
    obtain ⟨htxn, t, ⟨-, hcreates⟩, rfl, hanswering⟩ :=
      (dbExec_insertElection True fun _ => ⟨hid, hsafe⟩).of_ok hw hinsert
    obtain ⟨hreturns, hconfigured⟩ := h id w w' out rfl hunused hinsert
    obtain ⟨got, w'', hget⟩ := hreturns (hanswering trivial)
    exact (dbExec_bad_names hid hsafe (hcreates.storesElection hunused) hnames).of_ok
      ⟨htxn, rfl, fun h => h.elim⟩ hget (hconfigured got w'' hget)

def twoVoters (first second : String) : BbConfig where
  title := .ofBytes (ascii "Board")
  options := [.ofBytes (ascii "yes"), .ofBytes (ascii "no")]
  options_le := by decide
  eligible := [.ofBytes (ascii first), .ofBytes (ascii second)]
  eligible_le := by simp [bbMaxVoters]
  openTime := .ofBytes (ascii "2025-01-01")
  closeTime := .ofBytes (ascii "2025-02-01")

/-- The eligible list that is read after the insert. -/
def readBack (cfg : BbConfig) : List (CStr bbCertLen) :=
  match ((do
      let _ ← dbExec wire (.insertElection (.ofBytes (ascii "E1")) cfg)
      dbExec wire (.getElection (.ofBytes (ascii "E1")))) : BrainM Bytes DbResult).run
      ⟨⟨.empty, fun _ => .ok .stored, 0, []⟩, none, [], default⟩ with
  | .ok out _ => out.election.eligible
  | .error _ _ => []

end BallotBox
