import BallotBox.Properties.Support.Requests

/-!
# A ballot that nothing stops

When every statement is answered, and a select returns its rows in an order of our choice, a ballot
that passes the checks is recorded (`bbRecordBallot_steady`).  `Recording.Follows` remembers which
owner row counts as the voter's prior ballot.
-/

namespace BallotBox

open World Link List Option Triple

variable {s : Server} {rows : Tables → List Row} {β : Type} {nonce : CStr bbNonceLen}
  {cmd : DbCmd} {hash : CStr bbHashLen} {version : ℤ} {w : World Unit}

/-! ## Schedules without failures -/

/-- The server answers every statement, with rows in a good order, up to the entry `stop`, if any,
where it asks for a retry. -/
structure Server.Calm (good : RowOrder → Prop) (stop : Option ℕ) (s : Server) : Prop where
  answers : ∀ i, s.clock ≤ i → (∀ n ∈ stop, i < n) → ∃ order, good order ∧ s.sched i = .ok order
  stops : ∀ n ∈ stop, s.clock ≤ n ∧ s.sched n = .retry

def Link.Calm (good : RowOrder → Prop) (stop : Option ℕ) (l : Link Unit) : Prop :=
  l.conn.failed = none ∧ l.server.Calm good stop

/-- Such a connection inside a transaction. -/
structure Link.Steady (good : RowOrder → Prop) (stop : Option ℕ) (t store : Tables)
    (l : Link Unit) : Prop where
  sees : l.Sees (some t) store
  calm : l.Calm good stop

def Stopped {σ : Type} (stop : Option ℕ) (e : BbErr) (_ : σ) : Prop :=
  e = .retry ∧ stop.isSome = true

variable {good : RowOrder → Prop} {stop : Option ℕ} {t t' store : Tables} {cap : ℕ} {stmt : Stmt}
  {r : BclResponse}

lemma Server.Calm.tick (h : s.Calm good stop) (hnext : s.next ≠ .retry) :
    s.tick.Calm good stop := by
  refine ⟨fun i hi hlt => h.answers i ((Nat.le_succ _).trans hi) hlt, fun n hn => ?_⟩
  obtain ⟨hle, hretry⟩ := h.stops n hn
  refine ⟨Nat.lt_of_le_of_ne hle ?_, hretry⟩
  rintro rfl
  exact hnext hretry

lemma Server.Calm.next_cases (h : s.Calm good stop) :
    (∃ order, good order ∧ s.next = .ok order) ∨ s.next = .retry ∧ stop.isSome = true := by
  by_cases hlt : ∀ n ∈ stop, s.clock < n
  · exact .inl (h.answers _ le_rfl hlt)
  · obtain ⟨n, hn, hle⟩ : ∃ n ∈ stop, n ≤ s.clock := by simpa using hlt
    obtain ⟨hge, hretry⟩ := h.stops n hn
    obtain rfl : n = s.clock := le_antisymm hle hge
    exact .inr ⟨hretry, isSome_iff_exists.mpr ⟨_, hn⟩⟩

lemma execStmt_calm (view : Option Tables) (answer : RowOrder → Answer)
    {P : Link Unit → Prop} (hP : ∀ l, P l → l.Calm good stop) (hbreak : stmt.hasBreak = false)
    (hx : ∀ l order, P l → l.execute order stmt = some (view, store, answer order)) :
    Triple P (execStmt direct cap stmt)
      (fun reply l => (∃ order, good order ∧ reply = (answer order).reply) ∧
        l.Sees view store ∧ l.Calm good stop)
      (Stopped stop) := by
  intro l hl
  obtain ⟨hfailed, hcalm⟩ := hP l hl
  rw [EStateM.run, execStmt, dbSocketExec]
  obtain ⟨order, hgood, hnext⟩ | ⟨hnext, hstop⟩ := hcalm.next_cases
  · have htick := hcalm.tick (by simp [hnext])
    simp only [hfailed, hbreak, hnext, hx l order hl]
    exact ⟨⟨order, hgood, rfl⟩, ⟨rfl, rfl⟩, rfl, htick.answers, htick.stops⟩
  · simp only [hfailed, hbreak, hnext]
    exact ⟨rfl, hstop⟩

lemma execStmt_steady {rows : List Row} (hdata : stmt.isData = true)
    (hclean : ∀ p ∈ stmt.parts, Clean p) (hrun : stmt.run t = some (t', rows)) :
    Triple (Steady good stop t store) (execStmt direct cap stmt)
      (fun reply l => (∃ order, good order ∧ reply = some (order.apply rows)) ∧
        l.Steady good stop t' store)
      (Stopped stop) := by
  have hx (l : Link Unit) (order : RowOrder) (hl : l.Steady good stop t store) :
      l.execute order stmt = some (some t', store, .table stmt.desc (order.apply rows)) := by
    rw [execute_data hdata, runData, hl.sees.view_eq, hl.sees.store_eq]
    simp [hrun]
  refine (execStmt_calm _ _ (fun l hl => hl.calm) (hasBreak_eq_false hclean) hx).post ?_
  exact fun reply l h => ⟨h.1, h.2.1, h.2.2⟩

/-! ## Commands -/

abbrev ElectionRow.columns (r : ElectionRow) : Row :=
  [r.seq.render, r.id.bytes, r.title.bytes, r.state.bytes, r.openTime.bytes, r.closeTime.bytes]

abbrev OwnerRow.columns (o : OwnerRow) : Row := [o.hash.bytes, o.version.render]

/-- An order in which the selects of a recording show this election and this owner row first, or no
owner row. -/
structure RowOrder.Shows (order : RowOrder) (eid cert : Bytes) (t : Tables) (e : BbElection)
    (o : Option OwnerRow) : Prop where
  row : ∃ (r : ElectionRow) (rest : List Row),
    order.apply ((t.electionsOf eid).map ElectionRow.columns) = r.columns :: rest ∧
    parseState (CStr.ofBytes r.state.bytes : CStr 16).bytes = some e.state
  eligible : ((order.apply ((t.eligiblesOf eid).map fun v => [v.certName.bytes])).take
    bbMaxVoters).map eligibleEntry = e.eligible
  owner : (order.apply ((t.ownersOf eid cert).map OwnerRow.columns)).head? =
    o.map OwnerRow.columns

variable {eid : CStr bbIdLen} {cert : CStr bbCertLen} {e : BbElection} {o : Option OwnerRow}

lemma Triple.select_steady {k : Reply → EStateM BbErr (Link Unit) β} {Q : β → Link Unit → Prop}
    (hdata : stmt.isData = true) (hclean : ∀ p ∈ stmt.parts, Clean p)
    (hsel : ∀ t, stmt.run t = some (t, rows t))
    (hk : ∀ order, good order →
      Triple (Steady good stop t store) (k (some (order.apply (rows t)))) Q (Stopped stop)) :
    Triple (Steady good stop t store) (execStmt direct cap stmt >>= k) Q (Stopped stop) := by
  refine (execStmt_steady hdata hclean (hsel t)).bind fun reply => of_imp ?_
  rintro ⟨order, hgood, rfl⟩
  exact hk order hgood

lemma runGetElection_steady (heid : Clean eid.bytes)
    (h : ∀ order, good order → order.Shows eid.bytes cert.bytes t e o) :
    Triple (Steady good stop t store) (runGetElection direct eid)
      (fun out l => (out.found = true ∧ out.election.state = e.state ∧
        out.election.eligible = e.eligible ∧
        out.election.optionCount = min (t.optionsOf eid.bytes).length bbMaxOptions) ∧
        l.Steady good stop t store)
      (Stopped stop) := by
  refine select_steady rfl (by simpa [Stmt.parts] using heid) (fun _ => rfl) fun order hgood => ?_
  obtain ⟨r, rest, hrows, hstate⟩ := (h order hgood).row
  rw [hrows]
  simp only [Reply.rowCount, Reply.rowFields, length_cons, bind_some, getElem?_cons_zero]
  refine Triple.ite (fun hneg => absurd hneg (by omega)) fun _ => ?_
  refine Triple.ite (fun hzero => absurd hzero (by omega)) fun _ => ?_
  rw [hstate]
  refine select_steady rfl (by simpa [Stmt.parts] using heid) (fun _ => rfl) fun order₂ _ => ?_
  refine select_steady rfl (by simpa [Stmt.parts] using heid) (fun _ => rfl) fun order₃ hgood₃ => ?_
  refine (Triple.pure _).pre fun l hl => ⟨⟨rfl, rfl, (h order₃ hgood₃).eligible, ?_⟩, hl⟩
  simp [(order₂.perm _).length_eq]

lemma runNonceSeen_steady (heid : Clean eid.bytes)
    (hnonce : Clean nonce.bytes) (h : t.noncesOf eid.bytes nonce.bytes = []) :
    Triple (Steady good stop t store) (runNonceSeen direct eid nonce)
      (fun out l => out.found = false ∧ l.Steady good stop t store) (Stopped stop) := by
  refine select_steady rfl (by simpa [Stmt.parts] using ⟨heid, hnonce⟩) (fun _ => rfl)
    fun order _ => ?_
  refine (Triple.pure _).pre fun l hl => ⟨?_, hl⟩
  simp [Reply.rowCount, (order.perm _).length_eq, h]

lemma runGetPriorBallot_steady (heid : Clean eid.bytes) (hcert : Clean cert.bytes)
    (h : ∀ order, good order → order.Shows eid.bytes cert.bytes t e o) :
    Triple (Steady good stop t store) (runGetPriorBallot direct eid cert)
      (fun out l => (DbCmd.Means t out t (.getPriorBallot eid cert) ∧ out.found = o.isSome ∧
        ∀ p ∈ o, out.row.hash.bytes = p.readHash ∧ out.row.version = p.version.val) ∧
        l.Steady good stop t store)
      (Stopped stop) := by
  have hshown : Triple (Steady good stop t store) (runGetPriorBallot direct eid cert)
      (fun out l => (out.found = o.isSome ∧
        ∀ p ∈ o, out.row.hash.bytes = p.readHash ∧ out.row.version = p.version.val) ∧
        l.Steady good stop t store)
      (Stopped stop) := by
    refine select_steady rfl (by simpa [Stmt.parts] using ⟨heid, hcert⟩) (fun _ => rfl)
      fun order hgood => ?_
    have hrows := (h order hgood).owner
    cases o with
    | none =>
      rw [head?_eq_none_iff.mp hrows]
      refine Triple.ite (fun _ => ?_) fun hn => absurd (le_refl 0) hn
      exact (Triple.pure _).pre fun l hl => ⟨⟨rfl, by simp⟩, hl⟩
    | some p =>
      obtain ⟨rest, hrows⟩ := head?_eq_some_iff.mp hrows
      rw [hrows]
      refine Triple.ite (fun hn => absurd hn (by simp [Reply.rowCount])) fun _ => ?_
      refine (Triple.pure _).pre fun l hl => ⟨⟨rfl, ?_⟩, hl⟩
      rintro p' ⟨⟩
      exact ⟨rfl, fieldInt_render p.version⟩
  have hreads :
      Reads (.getPriorBallot eid cert) (some t) store (runGetPriorBallot direct eid cert) :=
    runGetPriorBallot_reads eid cert
  exact (hreads.and hshown).conseq (fun _ hl => ⟨hl.sees, hl⟩)
    (fun _ _ hl => ⟨⟨hl.1.1, hl.2.1⟩, hl.2.2⟩) fun _ _ hl => hl.2

lemma Triple.write_steady {k : EStateM BbErr (Link Unit) β} {Q : β → Link Unit → Prop}
    (hdata : stmt.isData = true) (hclean : ∀ p ∈ stmt.parts, Clean p)
    (hwrite : ∃ t' rows, stmt.run t = some (t', rows))
    (hk : ∀ t', Triple (Steady good stop t' store) k Q (Stopped stop)) :
    Triple (Steady good stop t store) (execStmt direct cap stmt >>= fun _ => k) Q
      (Stopped stop) := by
  obtain ⟨t', rows, hrun⟩ := hwrite
  exact bind_imp (execStmt_steady hdata hclean hrun) fun _ _ => hk t'

lemma Writes.steady {x : EStateM BbErr (Link Unit) DbResult} (hwrites : Writes cmd t store x)
    (hcalm : Triple (Steady good stop t store) x (fun _ => Calm good stop) (Stopped stop)) :
    Triple (Steady good stop t store) x
      (fun out l => ∃ t', cmd.Means t out t' ∧ l.Steady good stop t' store) (Stopped stop) :=
  (hwrites.and hcalm).conseq (fun _ hl => ⟨hl.sees, hl⟩)
    (fun _ _ ⟨⟨t', hmeans, hsees⟩, hcalm⟩ => ⟨t', hmeans, hsees, hcalm⟩) fun _ _ h => h.2

lemma ofBytes?_of_clean {b : Bytes} (h : Clean b) : Text.ofBytes? b = some ⟨b, h⟩ :=
  Text.ofBytes?_eq_some.mpr rfl

lemma parse?_renderInt_of_range {n : ℤ} (h : -2 ^ 31 ≤ n ∧ n < 2 ^ 31) :
    JInt.parse? (renderInt n) = some ⟨n, h.1, h.2⟩ := by
  rw [JInt.parse?_renderInt, JInt.ofInt?_eq_some]

lemma insertBallot_runs {eid hash opt ver sup : Bytes} {o v s : JInt} (heid : Clean eid)
    (hhash : Clean hash) (hopt : JInt.parse? opt = some o) (hver : JInt.parse? ver = some v)
    (hsup : JInt.parse? sup = some s) :
    ∃ t' rows, Stmt.run t (.insertBallot eid hash opt ver sup) = some (t', rows) := by
  simp [Stmt.run, ofBytes?_of_clean heid, ofBytes?_of_clean hhash, hopt, hver, hsup]

lemma runAppendBallot_steady {row : BbBallotHash} (heid : Clean eid.bytes)
    (hhash : Clean row.hash.bytes) (hopt : -2 ^ 31 ≤ row.optionIndex ∧ row.optionIndex < 2 ^ 31)
    (hver : -2 ^ 31 ≤ row.version ∧ row.version < 2 ^ 31)
    (hsup : -2 ^ 31 ≤ row.superseded ∧ row.superseded < 2 ^ 31) :
    Triple (Steady good stop t store) (runAppendBallot direct eid row)
      (fun out l => ∃ t', DbCmd.Means t out t' (.appendBallot eid row) ∧
        l.Steady good stop t' store)
      (Stopped stop) := by
  refine (runAppendBallot_writes eid row).steady (write_steady rfl ?_
    (insertBallot_runs heid hhash (parse?_renderInt_of_range hopt) (parse?_renderInt_of_range hver)
      (parse?_renderInt_of_range hsup)) fun t' => ?_)
  · simp [Stmt.parts, heid, hhash, clean_renderInt]
  · exact (Triple.pure _).pre fun l hl => hl.calm

lemma runMarkSuperseded_steady (heid : Clean eid.bytes)
    (hhash : Clean hash.bytes) (h : t.ballotsWith eid.bytes hash.bytes ≠ []) :
    Triple (Steady good stop t store) (runMarkSuperseded direct eid hash)
      (fun out l => ∃ t', DbCmd.Means t out t' (.markSuperseded eid hash) ∧
        l.Steady good stop t' store)
      (Stopped stop) := by
  refine (runMarkSuperseded_writes eid hash).steady (select_steady rfl
    (by simp [Stmt.parts, heid, hhash]) (fun _ => rfl) fun order _ => ?_)
  obtain ⟨bs, hbs, hrows⟩ := exists_perm_map (order.perm ((t.ballotsWith eid.bytes hash.bytes).map
    fun b => [b.optionIndex.render, b.version.render]))
  rw [hrows]
  cases bs with
  | nil => exact absurd (nil_perm.mp hbs) h
  | cons b bs =>
    refine Triple.ite (fun hzero => absurd hzero (by simp [Reply.rowCount])) fun _ => ?_
    simp only [Reply.rowFields, map_cons, bind_some, getElem?_cons_zero, ofBytes_render]
    refine write_steady rfl (by simp [Stmt.parts, heid, hhash]) ⟨_, _, rfl⟩ fun t₁ => ?_
    refine write_steady rfl ?_ (insertBallot_runs heid hhash (JInt.parse?_render _)
      (JInt.parse?_render _) (parse?_renderInt_of_range (by norm_num))) fun t₂ => ?_
    · simp [Stmt.parts, heid, hhash, JInt.render, clean_renderInt]
    · exact (Triple.pure _).pre fun l hl => hl.calm

lemma runSetOwner_steady (heid : Clean eid.bytes)
    (hcert : Clean cert.bytes) (hhash : Clean hash.bytes)
    (hver : -2 ^ 31 ≤ version ∧ version < 2 ^ 31) :
    Triple (Steady good stop t store) (runSetOwner direct eid cert hash version)
      (fun out l => ∃ t', DbCmd.Means t out t' (.setOwner eid cert hash version) ∧
        l.Steady good stop t' store)
      (Stopped stop) := by
  refine (runSetOwner_writes eid cert hash version).steady (write_steady rfl
    (by simp [Stmt.parts, heid, hcert]) ⟨_, _, rfl⟩ fun t₁ => ?_)
  refine write_steady rfl ?_ ?_ fun t₂ => (Triple.pure _).pre fun l hl => hl.calm
  · simp [Stmt.parts, heid, hcert, hhash, clean_renderInt]
  · simp [Stmt.run, ofBytes?_of_clean heid, ofBytes?_of_clean hcert, ofBytes?_of_clean hhash,
      parse?_renderInt_of_range hver]

lemma runNonceMark_steady (heid : Clean eid.bytes) (hnonce : Clean nonce.bytes) :
    Triple (Steady good stop t store) (runNonceMark direct eid nonce)
      (fun out l => ∃ t', DbCmd.Means t out t' (.nonceMark eid nonce) ∧ l.Steady good stop t' store)
      (Stopped stop) := by
  refine (runNonceMark_writes eid nonce).steady (write_steady rfl ?_ ?_ fun t₁ => ?_)
  · simp [Stmt.parts, heid, hnonce]
  · simp [Stmt.run, ofBytes?_of_clean heid, ofBytes?_of_clean hnonce]
  · exact (Triple.pure _).pre fun l hl => hl.calm

/-! ## In a transaction -/

/-- An explicit transaction on a calm connection, with the tables `t` as its copy. -/
structure World.Steady (good : RowOrder → Prop) (stop : Option ℕ) (t store : Tables)
    (r : BclResponse) (w : World Unit) : Prop where
  conn : ∃ c, w.txnConn = some c ∧ Link.Steady good stop t store ⟨c, w.server⟩
  resp : w.resp = r

lemma World.Steady.inTxn (h : w.Steady good stop t store r) : w.InTxn t store r := by
  obtain ⟨⟨c, hc, hsteady⟩, hresp⟩ := h
  exact ⟨⟨c, hc, hsteady.sees.view_eq⟩, hsteady.sees.store_eq, hresp⟩

lemma World.Steady.of_inTxn (h : w.Steady good stop t store r)
    (ht : w.InTxn t' store r) : w.Steady good stop t' store r := by
  obtain ⟨⟨c, hc, hsteady⟩, hresp⟩ := h
  obtain ⟨⟨c', hc', hview⟩, -⟩ := ht
  obtain rfl : c = c' := some.inj (hc.symm.trans hc')
  exact ⟨⟨c, hc, ⟨⟨hview, hsteady.sees.store_eq⟩, hsteady.calm⟩⟩, hresp⟩

lemma dbExec_steady {R : DbResult → Tables → Prop}
    (hx : Triple (Steady good stop t store) (runOp direct cmd)
      (fun out l => ∃ t', R out t' ∧ l.Steady good stop t' store) (Stopped stop)) :
    Triple (Steady good stop t store r) (dbExec direct cmd)
      (fun out w => ∃ t', R out t' ∧ w.Steady good stop t' store r) (Stopped stop) := by
  refine ((dbExec_lift hx).and (dbExec_keeps_resp (R := (· = r)) cmd)).conseq
    (fun w hw => ⟨hw.conn, hw.resp⟩) ?_ ?_
  · rintro out w ⟨⟨c, hc, t', hR, hl⟩, hresp⟩
    exact ⟨t', hR, ⟨c, hc, hl⟩, hresp⟩
  · rintro e w ⟨⟨c, hc, hstop⟩, -⟩
    exact hstop

lemma dbExec_steady_read {R : DbResult → Prop}
    (hx : Triple (Steady good stop t store) (runOp direct cmd)
      (fun out l => R out ∧ l.Steady good stop t store) (Stopped stop)) :
    Triple (Steady good stop t store r) (dbExec direct cmd)
      (fun out w => R out ∧ w.Steady good stop t store r) (Stopped stop) := by
  have hx' : Triple (Steady good stop t store) (runOp direct cmd)
      (fun out l => ∃ t', (t' = t ∧ R out) ∧ l.Steady good stop t' store) (Stopped stop) :=
    hx.post fun out l hl => ⟨t, ⟨rfl, hl.1⟩, hl.2⟩
  refine (dbExec_steady hx').post ?_
  rintro out w ⟨t', ⟨rfl, hR⟩, hw⟩
  exact ⟨hR, hw⟩

/-! ## The recording -/

/-- A ballot that passes every check of `record_ballot_locked`. -/
structure Admissible (eid : Bytes) (ballot : BbBallot) (t : Tables) (e : BbElection) (opt : ℤ) :
    Prop where
  reads : ReadsElection eid t e
  isOpen : e.state = .opened
  eligible : bbCheckEligibility e ballot.certName = true
  decrypted : (stubCrypto.decryptBallot ballot).1 = .ok opt
  inRange : 0 ≤ opt ∧ opt < e.optionCount
  nonce_new : t.noncesOf eid ballot.nonce.bytes = []
  nonce_clean : Clean ballot.nonce.bytes

variable {ballot : BbBallot} {opt : ℤ}

lemma clean_ofBytes {n : ℕ} (text : Text) : Clean (CStr.ofBytes text.bytes : CStr n).bytes :=
  text.clean.of_subset fun _ hc => CStr.mem_of_mem_ofBytes hc

lemma Admissible.clean_eid {eid : Bytes} (h : Admissible eid ballot t e opt) : Clean eid := by
  obtain ⟨r, hr, -⟩ := h.reads.row
  have hid : r.id.bytes = eid := of_decide_eq_true (mem_filter.mp hr).2
  rw [← hid]
  exact r.id.clean

lemma Admissible.clean_cert {eid : Bytes} (h : Admissible eid ballot t e opt) :
    Clean ballot.certName.bytes := by
  obtain ⟨vs, -, hvs⟩ := h.reads.eligible
  obtain ⟨name, hname, heq⟩ := List.any_eq_true.mp h.eligible
  rw [hvs] at hname
  obtain ⟨v, -, rfl⟩ := List.mem_map.mp hname
  rw [← of_decide_eq_true heq]
  exact clean_ofBytes v.certName

lemma hexDigit_mem (d : UInt32) : hexDigit d ∈ ascii "0123456789abcdef" := by
  unfold hexDigit
  rw [getD_eq_getElem?_getD]
  cases h : (ascii "0123456789abcdef")[d.toNat]? with
  | none => decide
  | some c => exact mem_of_getElem? h

lemma clean_hashLoop (n : ℕ) (state : UInt32) : Clean (hashLoop n state) := by
  have hmem {c : UInt8} (hc : c ∈ hashLoop n state) : c ∈ ascii "0123456789abcdef" := by
    induction n generalizing state with
    | zero => cases hc
    | succ n ih =>
      rcases mem_cons.mp hc with rfl | hc
      · exact hexDigit_mem _
      · exact ih _ hc
  exact Clean.of_subset (by decide) fun c hc => hmem hc

lemma admitBallot_steady (h : Admissible eid.bytes ballot t e opt)
    (hshows : ∀ order, good order → order.Shows eid.bytes ballot.certName.bytes t e o) :
    Triple (Steady good stop t store r) (admitBallot direct stubCrypto eid ballot)
      (fun opt' w => opt' = opt ∧ w.Steady good stop t store r) (Stopped stop) := by
  have hlog (lines : List Bytes) : Triple (Steady good stop t store r) (bbLogAll lines)
      (fun _ => Steady good stop t store r) (Stopped stop) :=
    bbLogAll_keeps (fun _ _ h => ⟨h.conn, h.resp⟩) lines
  have hload : Triple (Steady good stop t store r) (loadElection direct eid)
      (fun e' w => (e'.state = e.state ∧ e'.eligible = e.eligible ∧
        e'.optionCount = e.optionCount) ∧ w.Steady good stop t store r) (Stopped stop) := by
    refine (dbExec_steady_read (runGetElection_steady h.clean_eid hshows)).bind fun res => of_imp ?_
    rintro ⟨hfound, hstate, heligible, hcount⟩
    refine Triple.ite (fun hn => absurd hn (by simp [hfound])) fun _ => ?_
    exact (Triple.pure _).pre fun w hw =>
      ⟨⟨hstate, heligible, hcount.trans h.reads.optionCount.symm⟩, hw⟩
  refine hload.bind fun e' => of_imp ?_
  rintro ⟨hstate, heligible, hcount⟩
  rw [h.isOpen] at hstate
  refine Triple.ite (fun hn => absurd hn (by simp [hstate])) fun _ => ?_
  refine Triple.ite (fun hn => absurd hstate hn) fun _ => ?_
  have hcheck : bbCheckEligibility e' ballot.certName = true := by
    rw [bbCheckEligibility, heligible]
    exact h.eligible
  refine Triple.ite (fun hn => absurd hn (by simp [hcheck])) fun _ => ?_
  refine (hlog _).bind fun _ => ?_
  rw [h.decrypted]
  have hrange := h.inRange
  refine Triple.ite (fun hn => absurd hn (by rw [hcount]; omega)) fun _ => ?_
  exact (Triple.pure opt).pre fun w hw => ⟨rfl, hw⟩

lemma writeBallot_steady {prior : DbResult} {receipt : BbReceipt}
    (h : Admissible eid.bytes ballot t e opt) (hhash : Clean receipt.hash.bytes)
    (hprior : prior.found = true → Clean prior.row.hash.bytes)
      (hver : -2 ^ 31 ≤ version ∧ version < 2 ^ 31)
    (hrow : prior.found = true → t.ballotsWith eid.bytes prior.row.hash.bytes ≠ [] ∨
      receipt.hash.bytes = prior.row.hash.bytes) :
    Triple (Steady good stop t store r) (writeBallot direct eid ballot opt prior version receipt)
      (fun _ w => ∃ t', w.Steady good stop t' store r) (Stopped stop) := by
  have hopt : -2 ^ 31 ≤ opt ∧ opt < 2 ^ 31 := by
    have hle := e.optionCount_le
    have hrange := h.inRange
    simp only [bbMaxOptions] at hle
    omega
  have howner (t₁ : Tables) : Triple (Steady good stop t₁ store r) (do
        let _ ← dbExec direct (.setOwner eid ballot.certName receipt.hash version)
        let _ ← dbExec direct (.nonceMark eid ballot.nonce))
      (fun _ w => ∃ t', w.Steady good stop t' store r) (Stopped stop) := by
    refine (dbExec_steady (runSetOwner_steady h.clean_eid h.clean_cert hhash hver)).bind
      fun _ => exists_elim fun t₂ => of_imp fun _ => ?_
    refine (dbExec_steady (runNonceMark_steady h.clean_eid h.nonce_clean)).bind
      fun _ => exists_elim fun t₃ => of_imp fun _ => ?_
    exact (Triple.pure _).pre fun w hw => ⟨t₃, hw⟩
  refine (dbExec_steady (runAppendBallot_steady h.clean_eid hhash hopt hver
    (by norm_num))).bind fun _ => exists_elim fun t₁ => of_imp ?_
  rintro ⟨b, hb, rfl⟩
  refine Triple.ite (fun hfound => ?_) fun _ => howner _
  have hne : (t.addBallot b).ballotsWith eid.bytes prior.row.hash.bytes ≠ [] := by
    rw [Tables.ballotsWith, Tables.addBallot, filter_append]
    rcases hrow hfound with hold | hnew
    · exact append_ne_nil_of_left_ne_nil hold _
    · refine append_ne_nil_of_right_ne_nil _ ?_
      simp [hb.electionId, hb.hash, hnew]
  refine (dbExec_steady (runMarkSuperseded_steady h.clean_eid (hprior hfound) hne)).bind
    fun _ => exists_elim fun t₂ => of_imp fun _ => howner t₂

def issuedHash (ballot : BbBallot) (version : ℤ) : Bytes :=
  hashFromSeed (receiptSeed ballot.nonce.bytes version)

lemma issueReceipt_steady (version : ℤ) : Triple (Steady good stop t store r)
      (issueReceipt stubCrypto ballot version : BrainM Unit BbReceipt)
      (fun receipt w => (receipt.hash.bytes = issuedHash ballot version ∧
        (stubCrypto.issueReceipt 0 ballot version).1 = .ok receipt) ∧
        w.Steady good stop t store { r with receipt := receipt })
      (Stopped stop) :=
  fun _ hw => ⟨⟨rfl, rfl⟩, hw.conn, by rw [← hw.resp]⟩

def Recording.Continues {eid : Bytes} (rec : Recording stubCrypto eid ballot t) (o : OwnerRow) :
    Prop :=
  ∃ o' x, rec.prior = some (o', x) ∧ o'.readHash = o.readHash ∧ o'.version.val = o.version.val

lemma recordBallotLocked_steady (h : Admissible eid.bytes ballot t e opt)
    (hshows : ∀ order, good order → order.Shows eid.bytes ballot.certName.bytes t e o)
    (hver : ∀ p ∈ o, p.version.val + 1 < 2 ^ 31)
    (hrow : ∀ p ∈ o, t.ballotsWith eid.bytes p.readHash ≠ [] ∨
      issuedHash ballot (p.version.val + 1) = p.readHash) :
    Triple (Steady good stop t store r) (recordBallotLocked direct stubCrypto eid ballot)
      (fun _ w => ∃ rec : Recording stubCrypto eid.bytes ballot t, (∀ p ∈ o, rec.Continues p) ∧
        ∃ r', w.Steady good stop rec.after store r')
      (Stopped stop) := by
  refine (admitBallot_steady h hshows).bind fun opt' => of_imp ?_
  rintro rfl
  refine bind_imp (dbExec_steady_read (runNonceSeen_steady h.clean_eid h.nonce_clean
    h.nonce_new)) fun seen hseen => ?_
  refine Triple.ite (fun hn => absurd (hseen.symm.trans hn) Bool.false_ne_true) fun _ => ?_
  refine (dbExec_steady_read (runGetPriorBallot_steady h.clean_eid h.clean_cert
    hshows)).bind fun prior => of_imp ?_
  rintro ⟨hprior, hfound, hread⟩
  generalize hversion : (if prior.found = true then prior.row.version + 1 else 1) = version
  refine (issueReceipt_steady version).bind fun receipt => of_imp ?_
  rintro ⟨hissued, hok⟩
  -- the version and the row to supersede, if the voter has an owner row
  have hrange : -2 ^ 31 ≤ version ∧ version < 2 ^ 31 := by
    cases o with
    | none =>
      rw [← hversion, hfound]
      norm_num
    | some p =>
      have hlower := p.version.lower
      have hupper := hver p rfl
      rw [← hversion, hfound, isSome_some, if_pos rfl, (hread p rfl).2]
      omega
  have hsuperseded (hf : prior.found = true) : t.ballotsWith eid.bytes prior.row.hash.bytes ≠ [] ∨
        receipt.hash.bytes = prior.row.hash.bytes := by
    obtain ⟨p, hp⟩ := isSome_iff_exists.mp (hfound.symm.trans hf)
    rw [← hversion, if_pos hf, (hread p hp).2] at hissued
    rw [hissued, (hread p hp).1]
    exact hrow p hp
  have hclean (hf : prior.found = true) : Clean prior.row.hash.bytes := by
    obtain ⟨-, ⟨-, hnone⟩ | ⟨-, p, -, hhash, -⟩⟩ := hprior
    · exact absurd (hnone.symm.trans hf) Bool.false_ne_true
    · rw [hhash]
      exact clean_ofBytes p.hash
  have hmeans : Triple (InTxn t store { r with receipt := receipt })
      (writeBallot direct eid ballot opt' prior version receipt) _ _ :=
    writeBallot_triple h.reads h.isOpen h.eligible h.decrypted h.inRange h.nonce_new hprior
      hversion.symm hok
  have hsteady : Triple (Steady good stop t store { r with receipt := receipt })
      (writeBallot direct eid ballot opt' prior version receipt) _ _ :=
    writeBallot_steady h (by rw [hissued]; exact clean_hashLoop _ _) hclean hrange hsuperseded
  refine (hmeans.and hsteady).conseq (fun w hw => ⟨hw.inTxn, hw⟩) ?_ fun _ _ h => h.2
  rintro _ w ⟨⟨rec, -, hfollows, htxn⟩, t', hw⟩
  refine ⟨rec, fun p hp => ?_, _, hw.of_inTxn htxn⟩
  obtain ⟨o', x, hrec, hhash, hversion⟩ := hfollows (hfound.trans (isSome_iff_exists.mpr ⟨p, hp⟩))
  exact ⟨o', x, hrec, hhash.trans (hread p hp).1, hversion.trans (hread p hp).2⟩

/-! ## The transaction around it -/

/-- Between transactions, with a calm server. -/
structure World.Ready (good : RowOrder → Prop) (stop : Option ℕ) (store : Tables) (w : World Unit) :
    Prop where
  txnConn : w.txnConn = none
  store_eq : w.server.store = store
  calm : w.server.Calm good stop

lemma bbDbBegin_steady {S : Server → Prop} (hopen : ∀ s, S s → s.store = store ∧
      (∀ why, s.next ≠ .lost why) ∧ s.tick.Calm good stop) :
    Triple (Between S) (bbDbBegin direct)
      (fun _ w => ∃ r, w.Steady good stop store store r) (Stopped stop) := by
  have hstart : Triple (fun l : Link Unit => l.Sees none store ∧ l.Calm good stop)
      (execStmt direct 0 .setTransaction)
      (fun _ => Steady good stop store store) (Stopped stop) := by
    refine Triple.post (execStmt_calm _ (fun _ => .note (ascii "Started a new transaction"))
      (fun l hl => hl.2) rfl fun l order hl => ?_) fun _ l hl => ⟨hl.2.1, hl.2.2⟩
    rw [execute, hl.1.view_eq, hl.1.store_eq]
  refine (bbDbBegin_lift (T := Stopped stop) (fun s hs => ?_) hstart).ends ?_ fun _ _ h => h.2
  · obtain ⟨hstore, hnext, hcalm⟩ := hopen s hs
    exact .inr ⟨hnext, ⟨rfl, hstore⟩, rfl, hcalm⟩
  · rintro _ w ⟨c, hc, hsteady⟩
    exact ⟨w.resp, ⟨c, hc, hsteady⟩, rfl⟩

lemma bbDbCommit_steady : Triple (Steady good stop t store r) (bbDbCommit direct)
      (fun _ w => w.server.store = t) (Stopped stop) := by
  have hcommit : Triple (Steady good stop t store) (execStmt direct 0 .commit)
      (fun _ l => l.server.store = t) (Stopped stop) := by
    refine Triple.post (execStmt_calm none (fun _ => .note (ascii "Transaction committed."))
      (fun l hl => hl.calm) rfl fun l order hl => ?_) fun _ l hl => hl.2.1.store_eq
    rw [execute, hl.sees.view_eq]
    rfl
  exact (bbDbCommit_lift (S := fun s => s.store = t) (T := Stopped stop) hcommit).conseq
    (fun _ hw => hw.conn) (fun _ _ h => h.2) fun _ _ h => h.2

/-- An admissible ballot that no statement stops is recorded, in place of that of the owner row
shown first. -/
theorem bbRecordBallot_steady (h : Admissible eid.bytes ballot store e opt)
    (hshows : ∀ order, good order → order.Shows eid.bytes ballot.certName.bytes store e o)
    (hver : ∀ p ∈ o, p.version.val + 1 < 2 ^ 31)
    (hrow : ∀ p ∈ o, store.ballotsWith eid.bytes p.readHash ≠ [] ∨
      issuedHash ballot (p.version.val + 1) = p.readHash) :
    Triple (Ready good none store) (bbRecordBallot direct stubCrypto eid ballot)
      (fun _ w => ∃ rec : Recording stubCrypto eid.bytes ballot store,
        (∀ p ∈ o, rec.Continues p) ∧ w.server.store = rec.after)
      (fun _ _ => False) := by
  have hfalse {σ : Type} (err : BbErr) (s : σ) : ¬ Stopped none err s := fun hs => by cases hs.2
  have hopen (s : Server) (hs : s.store = store ∧ s.Calm good none) :
      s.store = store ∧ (∀ why, s.next ≠ .lost why) ∧ s.tick.Calm good none := by
    obtain ⟨order, -, hok⟩ | ⟨-, hsome⟩ := hs.2.next_cases
    · exact ⟨hs.1, by simp [hok], hs.2.tick (by simp [hok])⟩
    · cases hsome
  refine ((bbDbBegin_steady hopen).conseq (fun w hw => ⟨hw.txnConn, hw.store_eq, hw.calm⟩)
    (fun _ _ => id) hfalse).bind fun _ => exists_elim fun r => ?_
  refine attempt_bind (recordBallotLocked_steady h hshows hver hrow) (fun _ => ?_)
    fun err => fun w hs => absurd hs (hfalse err w)
  refine exists_elim fun rec => of_imp fun hcontinues => exists_elim fun r' => ?_
  refine attempt_bind bbDbCommit_steady (fun _ => ?_)
    fun err => fun w hs => absurd hs (hfalse err w)
  exact fun w hw => ⟨rec, hcontinues, hw⟩

/-! ## Choosing the order -/

lemma RowOrder.exists_of_perm {a b c a' b' c' : List Row} (ha : a'.Perm a) (hb : b'.Perm b)
    (hc : c'.Perm c) (hab : a ≠ b) (hac : a ≠ c) (hbc : b ≠ c) :
    ∃ order : RowOrder, order.apply a = a' ∧ order.apply b = b' ∧ order.apply c = c' := by
  refine ⟨⟨fun rows => if rows = a then a' else if rows = b then b' else if rows = c then c' else
    rows, fun rows => ?_⟩, ?_⟩
  · split_ifs with h₁ h₂ h₃
    · exact h₁ ▸ ha
    · exact h₂ ▸ hb
    · exact h₃ ▸ hc
    · exact .refl _
  · simp [hab.symm, hac.symm, hbc.symm]

lemma exists_perm_cons {α : Type} {l : List α} {a : α} (h : a ∈ l) :
    ∃ rest, (a :: rest).Perm l := by
  obtain ⟨s, rest, rfl⟩ := append_of_mem h
  exact ⟨s ++ rest, perm_middle.symm⟩

lemma exists_shows {eid : Bytes} (h : Admissible eid ballot t e opt)
    {p : OwnerRow} (hp : p ∈ t.ownersOf eid ballot.certName.bytes) :
    ∃ order : RowOrder, order.Shows eid ballot.certName.bytes t e (some p) := by
  obtain ⟨r, hr, -, -, hstate, -⟩ := h.reads.row
  obtain ⟨vs, hvs, heligible⟩ := h.reads.eligible
  obtain ⟨rest, hrest⟩ := exists_perm_cons (List.mem_map_of_mem (f := ElectionRow.columns) hr)
  obtain ⟨rest', hrest'⟩ := exists_perm_cons (List.mem_map_of_mem (f := OwnerRow.columns) hp)
  -- the three selects have different numbers of columns
  have hcolumns {l l' : List Row} {n : ℕ} {row : Row} (hl : row ∈ l) (hn : row.length ≠ n)
      (hl' : ∀ row ∈ l', row.length = n) : l ≠ l' := fun heq => hn (hl' row (heq ▸ hl))
  have hone : ∀ row ∈ (t.eligiblesOf eid).map fun v => [v.certName.bytes], row.length = 1 := by
    simp
  have htwo : ∀ row ∈ (t.ownersOf eid ballot.certName.bytes).map OwnerRow.columns,
      row.length = 2 := by
    simp
  obtain ⟨order, h₁, h₂, h₃⟩ := RowOrder.exists_of_perm hrest
    (hvs.map fun v => [v.certName.bytes]) hrest'
    (hcolumns (List.mem_map_of_mem hr) (by simp) hone)
    (hcolumns (List.mem_map_of_mem hr) (by simp) htwo)
    (hcolumns (List.mem_map_of_mem hp) (by simp) hone).symm
  refine ⟨order, ⟨r, rest, h₁, hstate⟩, ?_, by rw [h₃]; rfl⟩
  rw [h₂, heligible, ← map_take, List.map_map]
  rfl

end BallotBox
