import BallotBox.Properties.Support.Frames

/-!
# What a request does

Every dispatched request fails and leaves the tables as they were, or has one of a handful of
effects.  `Does crypto req t resp t'` lists them, with all that the handler checked; the invariants
of the election data are proved from `Does` alone.
-/

namespace BallotBox

open World Triple

variable {ι α : Type} {w : World Unit} {t' : Tables}

/-! ## Effects -/

def Tables.addBallot (t : Tables) (b : BallotRow) : Tables :=
  { t with ballots := t.ballots ++ [b] }

def Tables.addNonce (t : Tables) (n : NonceRow) : Tables :=
  { t with nonces := t.nonces ++ [n] }

def OwnerRow.readHash (o : OwnerRow) : Bytes := (CStr.ofBytes o.hash.bytes : CStr bbHashLen).bytes

/-- A recorded ballot: what was read and checked, and the rows written. `prior` is the voter's owner
row with the ballot row that was superseded for it. -/
structure Recording (crypto : Crypto) (eid : Bytes) (ballot : BbBallot) (t : Tables) where
  election : BbElection
  reads : ReadsElection eid t election
  isOpen : election.state = .opened
  eligible : bbCheckEligibility election ballot.certName = true
  optionIndex : ℤ
  decrypted : (crypto.decryptBallot ballot).1 = .ok optionIndex
  inRange : 0 ≤ optionIndex ∧ optionIndex < election.optionCount
  nonce_new : t.noncesOf eid ballot.nonce.bytes = []
  clock : ℕ
  version : ℤ
  receipt : BbReceipt
  issued : (crypto.issueReceipt clock ballot version).1 = .ok receipt
  row : BallotRow
  row_stores : row.Stores eid ⟨receipt.hash, optionIndex, version, 0⟩
  prior : Option (OwnerRow × BallotRow)
  prior_none : prior = none → t.ownersOf eid ballot.certName.bytes = [] ∧ version = 1
  prior_some : ∀ o x, prior = some (o, x) → o ∈ t.ownersOf eid ballot.certName.bytes ∧
    x ∈ (t.addBallot row).ballotsWith eid o.readHash ∧ version = o.version.val + 1
  owner : OwnerRow
  owner_stores : owner.electionId.bytes = eid ∧ owner.certName.bytes = ballot.certName.bytes ∧
    owner.hash.bytes = receipt.hash.bytes ∧ owner.version.val = version
  nonce : NonceRow
  nonce_stores : nonce.electionId.bytes = eid ∧ nonce.nonce.bytes = ballot.nonce.bytes

namespace Recording

variable {crypto : Crypto} {eid : Bytes} {ballot : BbBallot} {t : Tables}

def counted (rec : Recording crypto eid ballot t) : Tables :=
  match rec.prior with
  | none => t.addBallot rec.row
  | some (_, x) => (t.addBallot rec.row).supersede x

def after (rec : Recording crypto eid ballot t) : Tables :=
  (rec.counted.setOwner rec.owner).addNonce rec.nonce

def Follows (rec : Recording crypto eid ballot t) (prior : DbResult) : Prop :=
  prior.found = true → ∃ o x, rec.prior = some (o, x) ∧ o.readHash = prior.row.hash.bytes ∧
    o.version.val = prior.row.version

end Recording

def BclOp.target? : BclOp → Option BbState
  | .opening => some .opened
  | .close => some .closed
  | .publish => some .published
  | _ => none

def resultsOf (e : BbElection) (tally hashes : DbResult) : BbResults where
  title := e.title
  tally := .ofFn fun i => if i < e.optionCount then getElem tally.tally i.1 i.isLt else 0
  optionCount := e.optionCount
  options := .ofFn fun i => if i < e.optionCount then getElem e.options i.1 i.isLt else default
  hashes := hashes.hashes
  hashes_le := hashes.hashes_le

inductive Does (crypto : Crypto) (req : BclRequest) (t : Tables) : BclResponse → Tables → Prop
  | failed {resp : BclResponse} (e : BbErr) (h : resp.status = .err e) : Does crypto req t resp t
  | created {t' : Tables} (id : CStr bbIdLen) (hop : req.op = .create)
      (hvalid : bbValidateConfig req.config = .ok ()) (h : Creates id.bytes req.config t t') :
      Does crypto req t { (default : BclResponse) with
        status := .ok, election := { (default : BbElection) with id := id } } t'
  | numbered (id : CStr bbIdLen) (hop : req.op = .adminNextId) :
      Does crypto req t { (default : BclResponse) with
        status := .ok, election := { (default : BbElection) with id := id } } t
  | moved (target : BbState) (e : BbElection) (r r' : ElectionRow)
      (hop : req.op.target? = some target) (hreads : ReadsElection req.electionId.bytes t e)
      (hlegal : bbIsLegalTransition e.state target = true)
      (hr : r ∈ t.electionsOf req.electionId.bytes) (hmoves : r.MovesTo r' target) :
      Does crypto req t { (default : BclResponse) with status := .ok } (t.setElection r')
  | joined (e : BbElection) (prior : DbResult) (hop : req.op = .join)
      (hreads : ReadsElection req.electionId.bytes t e) (hopen : e.state = .opened)
      (hcert : (crypto.verifyCert req.certName).1 = .valid)
      (heligible : bbCheckEligibility e req.certName = true)
      (hprior : DbCmd.Means t prior t (.getPriorBallot req.electionId req.certName)) :
      Does crypto req t { (default : BclResponse) with
        status := .ok, election := e, hasPriorBallot := prior.found
        priorBallotVersion := if prior.found then prior.row.version else 0 } t
  | recorded (hop : req.op = .cast ∨ req.op = .update)
      (rec : Recording crypto req.electionId.bytes req.ballot t) :
      Does crypto req t { (default : BclResponse) with status := .ok, receipt := rec.receipt }
        rec.after
  | reported (e : BbElection) (tally hashes : DbResult)
      (hop : req.op = .results ∨ req.op = .adminResults)
      (hreads : ReadsElection req.electionId.bytes t e) (hpublished : e.state = .published)
      (heligible : req.op = .results → bbCheckEligibility e req.certName = true)
      (htally : DbCmd.Means t tally t (.getTally req.electionId))
      (hhashes : DbCmd.Means t hashes t (.getHashes req.electionId)) :
      Does crypto req t
        { fillResults req.electionId (resultsOf e tally hashes) default with status := .ok } t
  | checked (e : BbElection) (b : BallotRow) (hop : req.op = .check ∨ req.op = .adminCheck)
      (hreads : ReadsElection req.electionId.bytes t e)
      (hb : b ∈ t.liveBallots req.electionId.bytes) (hhash : b.hash.bytes = req.hash.bytes) :
      Does crypto req t { (default : BclResponse) with
        status := .ok, found := true, foundOption := b.optionIndex.val
        foundOptionName :=
          if 0 ≤ b.optionIndex.val ∧ b.optionIndex.val < e.optionCount then
            e.options[b.optionIndex.val.toNat]?.getD default
          else default } t

/-! ## Reading an election -/

variable {t store : Tables} {r : BclResponse} {crypto : Crypto}

def World.Rests {ι : Type} (store : Tables) (w : World ι) : Prop :=
  w.txnConn = none ∧ w.server.store = store

lemma World.Idle.rests {w : World ι} (h : w.Idle store r) : w.Rests store :=
  ⟨h.1, h.2.1⟩

lemma dbExec_rests (cmd : DbCmd) : Triple (Idle store r) (dbExec direct cmd)
      (fun out w => ∃ t', cmd.Means store out t' ∧ w.Idle t' r)
      (fun _ w => w.Rests store) :=
  (dbExec_idle cmd).err fun _ _ h => h.2.rests

lemma throw_rests {Q : α → World Unit → Prop} (e : BbErr) :
    Triple (Idle store r) (MonadExcept.throw e : BrainM Unit α) Q (fun _ w => w.Rests store) :=
  (Triple.throw e).pre fun _ hw => hw.rests

lemma loadElection_idle (eid : CStr bbIdLen) : Triple (Idle store r) (loadElection direct eid)
      (fun e w => ReadsElection eid.bytes store e ∧ w.Idle store r)
      (fun e w => (e = .db ∨ (e = .notFound ∧ store.electionsOf eid.bytes = [])) ∧
        w.Idle store r) := by
  refine ((dbExec_idle _).err fun _ _ h => ⟨.inl h.1, h.2⟩).bind fun res => ?_
  refine exists_elim fun t' => of_imp ?_
  rintro ⟨rfl, ⟨hnone, hfound⟩ | ⟨hfound, hreads⟩⟩
  · rw [hfound]
    exact (Triple.throw _).pre fun w hw => ⟨.inr ⟨rfl, hnone⟩, hw⟩
  · rw [hfound]
    exact (Triple.pure _).pre fun w hw => ⟨hreads, hw⟩

lemma loadElection_rests (eid : CStr bbIdLen) :
    Triple (Idle store r) (loadElection direct eid)
      (fun e w => ReadsElection eid.bytes store e ∧ w.Idle store r)
      (fun _ w => w.Rests store) :=
  (loadElection_idle eid).err fun _ _ h => h.2.rests

/-! ## Lifecycle -/

lemma bbTransitionState_triple (eid : CStr bbIdLen) (target : BbState) :
    Triple (Idle store r) (bbTransitionState direct eid target)
      (fun _ w => ∃ e r₀ r', ReadsElection eid.bytes store e ∧
        bbIsLegalTransition e.state target = true ∧ r₀ ∈ store.electionsOf eid.bytes ∧
        r₀.MovesTo r' target ∧ w.Idle (store.setElection r') r)
      (fun _ w => w.Rests store) := by
  refine (dbExec_rests _).bind fun res => exists_elim fun t' => of_imp ?_
  rintro ⟨rfl, ⟨-, hfound⟩ | ⟨hfound, hreads⟩⟩
  · rw [hfound]
    exact throw_rests _
  · refine Triple.ite (fun h => absurd h (by simp [hfound])) fun _ => ?_
    refine Triple.ite (fun _ => (bbLog_keeps (fun _ _ h => h) _).bind fun _ =>
      throw_rests _) fun hlegal => ?_
    refine (dbExec_rests _).bind fun out => exists_elim fun t' => of_imp ?_
    rintro ⟨r₀, r', hr, hmoves, rfl⟩
    exact (Triple.pure _).pre fun w hw =>
      ⟨res.election, r₀, r', hreads, by simpa using hlegal, hr, hmoves, hw⟩

/-! ## Creating elections -/

lemma bbAllocId_triple {E : BbErr → World Unit → Prop} :
    Triple (Idle store r) (bbAllocId direct) (fun _ => Idle store r) E := by
  have hselect : Triple (Idle store r) (onFresh direct (execStmt direct 4096 .selectMaxSeq))
      (fun _ w => ∃ t', t' = store ∧ w.Idle t' r) (fun e w => e.Store ∧ w.Idle store r) :=
    onFresh_triple ((execStmt_select rfl fun _ => rfl).post fun _ l hl =>
      ⟨store, rfl, hl.2.store_eq⟩)
  refine attempt_bind hselect (fun reply => ?_) fun e => ?_
  · exact (Triple.pure _).pre fun w ⟨t', ht, hw⟩ => ht ▸ hw
  · exact (Triple.pure _).pre fun w hw => hw.2

lemma chooseId_triple (desired : CStr bbIdLen) :
    Triple (Idle store r) (chooseId direct desired) (fun _ => Idle store r)
      (fun _ w => w.Rests store) := by
  refine Triple.ite (fun _ => bbAllocId_triple) fun _ => ?_
  refine attempt_bind (loadElection_idle desired) (fun e => ?_) fun e => ?_
  · exact of_imp fun _ =>
      (bbLog_keeps (fun _ _ h => h) _).bind fun _ => throw_rests _
  · refine of_imp ?_
    rintro (rfl | ⟨rfl, -⟩)
    · exact throw_rests _
    · exact fun _ hw => hw

lemma bbCreateElection_triple (config : BbConfig) (desired : CStr bbIdLen) :
    Triple (Idle store r) (bbCreateElection direct config desired)
      (fun id w => ∃ t', bbValidateConfig config = .ok () ∧ Creates id.bytes config store t' ∧
        w.Idle t' r)
      (fun _ w => w.Rests store) := by
  unfold bbCreateElection
  cases bbValidateConfig config with
  | error e => exact (bbLog_keeps (fun _ _ h => h) _).bind fun _ => throw_rests _
  | ok _ =>
    refine (chooseId_triple desired).bind fun id => ?_
    refine (dbExec_rests _).bind fun _ => exists_elim fun t' => ?_
    exact of_imp fun hmeans => (Triple.pure id).pre fun w hw => ⟨t', rfl, hmeans, hw⟩

/-! ## Recording a ballot -/

def World.RecordFailed {ι : Type} (store : Tables) (r : BclResponse) (w : World ι) : Prop :=
  ∃ receipt, w.Broken store { r with receipt := receipt }

lemma World.Broken.recordFailed {w : World ι} (h : w.Broken store r) :
    w.RecordFailed store r := ⟨r.receipt, h⟩

lemma dbExec_recording (cmd : DbCmd) : Triple (InTxn t store r) (dbExec direct cmd)
      (fun out w => ∃ t', cmd.Means t out t' ∧ w.InTxn t' store r)
      (fun _ w => w.RecordFailed store r) :=
  (dbExec_inTxn cmd).err fun _ _ h => h.2.recordFailed

lemma throw_recording {Q : α → World Unit → Prop} (e : BbErr) :
    Triple (InTxn t store r) (MonadExcept.throw e : BrainM Unit α) Q
      (fun _ w => w.RecordFailed store r) :=
  (Triple.throw e).pre fun _ hw => hw.broken.recordFailed

lemma admitBallot_triple (eid : CStr bbIdLen) (ballot : BbBallot) :
    Triple (InTxn t store r) (admitBallot direct crypto eid ballot)
      (fun opt w => (∃ e, ReadsElection eid.bytes t e ∧ e.state = .opened ∧
        bbCheckEligibility e ballot.certName = true ∧
        (crypto.decryptBallot ballot).1 = .ok opt ∧ 0 ≤ opt ∧ opt < e.optionCount) ∧
        w.InTxn t store r)
      (fun _ w => w.RecordFailed store r) := by
  have hload : Triple (InTxn t store r) (loadElection direct eid)
      (fun e w => ReadsElection eid.bytes t e ∧ w.InTxn t store r)
      (fun _ w => w.RecordFailed store r) := by
    refine (dbExec_recording _).bind fun res => exists_elim fun t' =>
      of_imp ?_
    rintro ⟨rfl, ⟨-, hfound⟩ | ⟨hfound, hreads⟩⟩
    · rw [hfound]
      exact throw_recording _
    · rw [hfound]
      exact (Triple.pure _).pre fun w hw => ⟨hreads, hw⟩
  refine
    (admitBallot_rule (fun _ _ _ h => h) (fun _ _ _ _ hw => hw.2.broken.recordFailed) hload).post ?_
  rintro opt w ⟨e, hadmits, hreads, hw⟩
  exact ⟨⟨e, hreads, hadmits⟩, hw⟩

lemma issueReceipt_triple (ballot : BbBallot) (version : ℤ) :
    Triple (InTxn t store r) (issueReceipt crypto ballot version : BrainM Unit BbReceipt)
      (fun receipt w => (∃ clock, (crypto.issueReceipt clock ballot version).1 = .ok receipt) ∧
        w.InTxn t store { r with receipt := receipt })
      (fun _ w => w.RecordFailed store r) :=
  issueReceipt_rule (fun _ _ h => h) (fun _ hw => hw.broken.recordFailed) version
    fun _ clock _ hissue hw => ⟨⟨clock, hissue⟩, hw.1, hw.2.1, by rw [← hw.2.2]⟩

lemma writeOwner_triple (eid : CStr bbIdLen) (ballot : BbBallot) (version : ℤ)
    (receipt : BbReceipt) :
    Triple (InTxn t store r) (do
        let _ ← dbExec direct (.setOwner eid ballot.certName receipt.hash version)
        let _ ← dbExec direct (.nonceMark eid ballot.nonce))
      (fun _ w => ∃ (o : OwnerRow) (n : NonceRow),
        (o.electionId.bytes = eid.bytes ∧ o.certName.bytes = ballot.certName.bytes ∧
          o.hash.bytes = receipt.hash.bytes ∧ o.version.val = version) ∧
        (n.electionId.bytes = eid.bytes ∧ n.nonce.bytes = ballot.nonce.bytes) ∧
        w.InTxn ((t.setOwner o).addNonce n) store r)
      (fun _ w => w.RecordFailed store r) := by
  refine (dbExec_recording _).bind fun _ => exists_elim fun t₂ => of_imp ?_
  rintro ⟨o, he, hc, hh, hv, rfl⟩
  refine (dbExec_recording _).bind fun _ => exists_elim fun t₃ => of_imp ?_
  rintro ⟨n, hne, hn, rfl⟩
  exact (Triple.pure _).pre fun w hw => ⟨o, n, ⟨he, hc, hh, hv⟩, ⟨hne, hn⟩, hw⟩

lemma writeBallot_triple {eid : CStr bbIdLen} {ballot : BbBallot} {opt : ℤ} {prior : DbResult}
    {version : ℤ} {receipt : BbReceipt} {e : BbElection} {clock : ℕ}
    (hreads : ReadsElection eid.bytes t e) (hopen : e.state = .opened)
    (heligible : bbCheckEligibility e ballot.certName = true)
    (hdecrypt : (crypto.decryptBallot ballot).1 = .ok opt)
    (hrange : 0 ≤ opt ∧ opt < e.optionCount)
    (hnonce : t.noncesOf eid.bytes ballot.nonce.bytes = [])
    (hprior : DbCmd.Means t prior t (.getPriorBallot eid ballot.certName))
    (hversion : version = if prior.found then prior.row.version + 1 else 1)
    (hissued : (crypto.issueReceipt clock ballot version).1 = .ok receipt) :
    Triple (InTxn t store r) (writeBallot direct eid ballot opt prior version receipt)
      (fun _ w => ∃ rec : Recording crypto eid.bytes ballot t, rec.receipt = receipt ∧
        rec.Follows prior ∧ w.InTxn rec.after store r)
      (fun _ w => w.RecordFailed store r) := by
  refine (dbExec_recording _).bind fun _ => exists_elim fun t' => of_imp ?_
  rintro ⟨b, hb, rfl⟩
  obtain ⟨-, ⟨hnone, hfound⟩ | ⟨hfound, o, ho, hhash, hversion'⟩⟩ := hprior
  · rw [hfound, if_neg Bool.false_ne_true] at hversion
    rw [hfound]
    refine (writeOwner_triple eid ballot version receipt).post ?_
    rintro _ w ⟨o, n, ho, hn, hw⟩
    exact ⟨⟨e, hreads, hopen, heligible, opt, hdecrypt, hrange, hnonce, clock, version, receipt,
      hissued, b, hb, none, fun _ => ⟨hnone, hversion⟩, by simp, o, ho, n, hn⟩, rfl,
      fun h => absurd (hfound.symm.trans h) Bool.false_ne_true, hw⟩
  · rw [hfound, if_pos rfl, hversion'] at hversion
    rw [hfound]
    refine (dbExec_recording _).bind fun _ => exists_elim fun t' => of_imp ?_
    rintro ⟨x, hx, rfl⟩
    refine (writeOwner_triple eid ballot version receipt).post ?_
    rintro _ w ⟨o', n, ho', hn, hw⟩
    refine ⟨⟨e, hreads, hopen, heligible, opt, hdecrypt, hrange, hnonce, clock, version, receipt,
      hissued, b, hb, some (o, x), by simp, ?_, o', ho', n, hn⟩, rfl, fun _ => ?_, hw⟩
    · rintro o₁ x₁ heq
      obtain ⟨rfl, rfl⟩ : o = o₁ ∧ x = x₁ := by simpa using heq
      refine ⟨ho, ?_, hversion⟩
      rwa [OwnerRow.readHash, ← hhash]
    · exact ⟨o, x, rfl, by rw [OwnerRow.readHash, ← hhash], hversion'.symm⟩

lemma recordBallotLocked_triple (eid : CStr bbIdLen) (ballot : BbBallot) :
    Triple (InTxn t store r) (recordBallotLocked direct crypto eid ballot)
      (fun _ w => ∃ rec : Recording crypto eid.bytes ballot t,
        w.InTxn rec.after store { r with receipt := rec.receipt })
      (fun _ w => w.RecordFailed store r) := by
  refine (admitBallot_triple eid ballot).bind fun opt => of_imp ?_
  rintro ⟨e, hreads, hopen, heligible, hdecrypt, hrange⟩
  refine (dbExec_recording _).bind fun seen => exists_elim fun t' =>
    of_imp ?_
  rintro ⟨rfl, hseen⟩
  refine Triple.ite (fun _ => throw_recording _) fun hnew => ?_
  refine (dbExec_recording _).bind fun prior => exists_elim fun t' =>
    of_imp fun hprior => ?_
  obtain rfl : t' = _ := hprior.1
  refine (issueReceipt_triple ballot _).bind fun receipt => of_imp ?_
  rintro ⟨clock, hissued⟩
  refine (writeBallot_triple (r := { r with receipt := receipt }) hreads hopen heligible hdecrypt
    hrange ?_ hprior rfl hissued).ends ?_ fun _ _ h => h
  · exact not_not.mp fun h => hnew (hseen.mpr h)
  · rintro _ w ⟨rec, rfl, -, hw⟩
    exact ⟨rec, hw⟩

lemma recordLoop_triple (eid : CStr bbIdLen) (ballot : BbBallot) (last : BbErr) (rounds : ℕ) :
    Triple (fun w => ∃ x, w.Idle store { r with receipt := x })
      (recordLoop direct crypto eid ballot last rounds)
      (fun _ w => ∃ rec : Recording crypto eid.bytes ballot store,
        w.Idle rec.after { r with receipt := rec.receipt })
      (fun _ w => w.Rests store) := by
  refine recordLoop_rule (T := fun w => ∃ x, w.InTxn store store { r with receipt := x })
    (exists_elim fun x => bbDbBegin_triple.ends (fun _ w hw => ⟨x, hw⟩) fun _ _ h => h.2.rests)
    (exists_elim fun x => recordBallotLocked_triple eid ballot)
    (exists_elim fun rec => bbDbCommit_triple.ends (fun _ w hw => ⟨rec, hw⟩)
      fun _ _ h => ⟨rec.receipt, h.2⟩)
    (exists_elim fun y => bbDbRollback_triple.post fun _ w hw => ⟨y, hw⟩)
    (fun w ⟨x, hw⟩ => hw.rests) last rounds

/-! ## Reading -/

lemma bbJoin_triple (eid : CStr bbIdLen) (cert : CStr bbCertLen) :
    Triple (Idle store r) (bbJoin direct crypto eid cert)
      (fun _ w => ∃ e prior, ReadsElection eid.bytes store e ∧ e.state = .opened ∧
        (crypto.verifyCert cert).1 = .valid ∧ bbCheckEligibility e cert = true ∧
        DbCmd.Means store prior store (.getPriorBallot eid cert) ∧
        w.Idle store { r with
          election := e, hasPriorBallot := prior.found
          priorBallotVersion := if prior.found then prior.row.version else 0 })
      (fun _ w => w.Rests store) := by
  refine bind_imp (loadElection_rests eid) fun e hreads => ?_
  refine Triple.bind (bbLogAll_keeps (fun _ _ h => h) _) fun _ => ?_
  cases hcert : (crypto.verifyCert cert).1 with
  | valid =>
    refine Triple.ite (fun _ => (bbLogAll_keeps (fun _ _ h => h) _).bind fun _ =>
      throw_rests _) fun heligible => ?_
    refine Triple.ite (fun _ => (bbLog_keeps (fun _ _ h => h) _).bind fun _ =>
      throw_rests _) fun hopen => ?_
    refine Triple.bind (Q := fun _ => Idle store { r with election := e })
      (fun w hw => ⟨hw.1, hw.2.1, by rw [← hw.2.2]⟩) fun _ => ?_
    refine (dbExec_rests _).bind fun prior => exists_elim fun t' =>
      of_imp fun hprior => ?_
    obtain rfl : t' = _ := hprior.1
    refine fun w hw => ⟨e, prior, hreads, by simpa using hopen, rfl, by simpa using heligible,
      hprior, hw.1, hw.2.1, ?_⟩
    simp [hw.2.2]
  | _ => exact throw_rests _

def Reports (eid : CStr bbIdLen) (store : Tables) (e : BbElection) (results : BbResults) : Prop :=
  ∃ tally hashes, DbCmd.Means store tally store (.getTally eid) ∧
    DbCmd.Means store hashes store (.getHashes eid) ∧ results = resultsOf e tally hashes

lemma fetchResults_triple (eid : CStr bbIdLen) (e : BbElection) :
    Triple (Idle store r) (fetchResults direct eid e)
      (fun results w => Reports eid store e results ∧ w.Idle store r)
      (fun _ w => w.Rests store) := by
  refine (dbExec_rests _).bind fun tally => exists_elim fun t' =>
    of_imp fun htally => ?_
  obtain rfl : t' = _ := htally.1
  refine (dbExec_rests _).bind fun hashes => exists_elim fun t'' =>
    of_imp fun hhashes => ?_
  obtain rfl : t'' = _ := hhashes.1
  exact (Triple.pure _).pre fun w hw => ⟨⟨tally, hashes, htally, hhashes, rfl⟩, hw⟩

lemma bbGetResults_triple (eid : CStr bbIdLen) (cert : CStr bbCertLen) :
    Triple (Idle store r) (bbGetResults direct eid cert)
      (fun results w => (∃ e, ReadsElection eid.bytes store e ∧ e.state = .published ∧
        bbCheckEligibility e cert = true ∧ Reports eid store e results) ∧ w.Idle store r)
      (fun _ w => w.Rests store) := by
  refine bind_imp (loadElection_rests eid) fun e hreads => ?_
  refine Triple.ite (fun _ => throw_rests _) fun hpublished => ?_
  refine Triple.ite (fun _ => throw_rests _) fun heligible => ?_
  exact (fetchResults_triple eid e).post fun results w hw =>
    ⟨⟨e, hreads, by simpa using hpublished, by simpa using heligible, hw.1⟩, hw.2⟩

lemma bbGetResultsAdmin_triple (eid : CStr bbIdLen) :
    Triple (Idle store r) (bbGetResultsAdmin direct eid)
      (fun results w => (∃ e, ReadsElection eid.bytes store e ∧ e.state = .published ∧
        Reports eid store e results) ∧ w.Idle store r)
      (fun _ w => w.Rests store) := by
  refine bind_imp (loadElection_rests eid) fun e hreads => ?_
  refine Triple.ite (fun _ => throw_rests _) fun hpublished => ?_
  exact (fetchResults_triple eid e).post fun results w hw =>
    ⟨⟨e, hreads, by simpa using hpublished, hw.1⟩, hw.2⟩

lemma bbLookupHash_triple (eid : CStr bbIdLen) (hash : CStr bbHashLen) :
    Triple (Idle store r) (bbLookupHash direct eid hash)
      (fun found w => (∃ e, ∃ b ∈ store.liveBallots eid.bytes, ReadsElection eid.bytes store e ∧
        b.hash.bytes = hash.bytes ∧ found = (b.published,
          if 0 ≤ b.optionIndex.val ∧ b.optionIndex.val < e.optionCount then
            e.options[b.optionIndex.val.toNat]?.getD default
          else default)) ∧ w.Idle store r)
      (fun _ w => w.Rests store) := by
  refine bind_imp (loadElection_rests eid) fun e hreads => ?_
  refine (dbExec_rests _).bind fun res => exists_elim fun t' => of_imp ?_
  rintro ⟨rfl, ⟨-, hfound⟩ | ⟨hfound, b, hb, hhash, hrow⟩⟩
  · rw [hfound]
    exact throw_rests _
  · refine Triple.ite (fun h => absurd h (by simp [hfound])) fun _ => ?_
    rw [hrow]
    exact (Triple.pure _).pre fun w hw => ⟨⟨e, b, hb, hreads, hhash, rfl⟩, hw⟩

/-! ## The dispatcher -/

variable {req : BclRequest}

def Done (crypto : Crypto) (req : BclRequest) (store : Tables) (_ : PUnit) (w : World Unit) :
    Prop :=
  w.txnConn = none ∧ Does crypto req store { w.resp with status := .ok } w.server.store

lemma Done.of_idle {a : PUnit} (hw : w.Idle t' r)
    (h : Does crypto req store { r with status := .ok } t') : Done crypto req store a w := by
  obtain ⟨htxn, rfl, rfl⟩ := hw
  exact ⟨htxn, h⟩

lemma respond_done {f : BclResponse → BclResponse}
    (h : Does crypto req store { f default with status := .ok } t') :
    Triple (Idle t' default) (modify fun w => { w with resp := f w.resp } : BrainM Unit PUnit)
      (Done crypto req store) (fun _ w => w.Rests store) := by
  rintro w ⟨htxn, rfl, hresp⟩
  refine Done.of_idle (r := f default) ⟨htxn, rfl, ?_⟩ h
  rw [← hresp]

lemma dispatchOp_triple (crypto : Crypto) (req : BclRequest) (store : Tables) :
    Triple (Idle store default) (dispatchOp direct crypto req) (Done crypto req store)
      (fun _ w => w.Rests store) := by
  unfold dispatchOp
  have htransition {target : BbState} (hop : req.op.target? = some target) :
      Triple (Idle store default) (bbTransitionState direct req.electionId target)
        (Done crypto req store) (fun _ w => w.Rests store) := by
    refine (bbTransitionState_triple req.electionId target).post ?_
    rintro _ w ⟨e, r, r', hreads, hlegal, hr, hmoves, hw⟩
    exact .of_idle hw (.moved target e r r' hop hreads hlegal hr hmoves)
  have hrecord (hop : req.op = .cast ∨ req.op = .update) :
      Triple (Idle store default) (bbRecordBallot direct crypto req.electionId req.ballot)
        (Done crypto req store) (fun _ w => w.Rests store) := by
    refine (recordLoop_triple (r := default) req.electionId req.ballot .db bbTxnAttempts).conseq
      (fun w hw => ⟨_, hw⟩) ?_ fun _ _ => id
    rintro _ w ⟨rec, hw⟩
    exact .of_idle hw (.recorded hop rec)
  have hcheck (hop : req.op = .check ∨ req.op = .adminCheck) :
      Triple (Idle store default) (bbLookupHash direct req.electionId req.hash >>= fun row =>
          modify fun w => { w with resp := { w.resp with
            found := true, foundOption := row.1.optionIndex, foundOptionName := row.2 } })
        (Done crypto req store) (fun _ w => w.Rests store) := by
    refine (bbLookupHash_triple _ _).bind fun found => of_imp ?_
    rintro ⟨e, b, hb, hreads, hhash, rfl⟩
    refine respond_done (f := fun resp => { resp with found := true, foundOption := _
                                                      foundOptionName := _ }) ?_
    exact .checked e b hop hreads hb hhash
  cases hop : req.op with
  | create =>
    refine (bbCreateElection_triple _ _).bind fun id => exists_elim fun t' => ?_
    refine of_imp fun hvalid => of_imp fun hcreates => ?_
    exact respond_done (f := fun resp => { resp with election := { resp.election with id := id } })
      (.created id hop hvalid hcreates)
  | adminNextId =>
    refine bbAllocId_triple.bind fun id => ?_
    exact respond_done (f := fun resp => { resp with election := { resp.election with id := id } })
      (.numbered id hop)
  | opening => exact htransition (by rw [hop]; rfl)
  | close => exact htransition (by rw [hop]; rfl)
  | publish => exact htransition (by rw [hop]; rfl)
  | join =>
    refine (bbJoin_triple req.electionId req.certName).post ?_
    rintro _ w ⟨e, prior, hreads, hopen, hcert, heligible, hprior, hw⟩
    exact .of_idle hw (.joined e prior hop hreads hopen hcert heligible hprior)
  | cast => exact hrecord (.inl hop)
  | update => exact hrecord (.inr hop)
  | check => exact hcheck (.inl hop)
  | adminCheck => exact hcheck (.inr hop)
  | results =>
    refine (bbGetResults_triple _ _).bind fun results => of_imp ?_
    rintro ⟨e, hreads, hpublished, heligible, tally, hashes, htally, hhashes, rfl⟩
    exact respond_done (.reported e tally hashes (.inl hop) hreads hpublished
      (fun _ => heligible) htally hhashes)
  | adminResults =>
    refine (bbGetResultsAdmin_triple _).bind fun results => of_imp ?_
    rintro ⟨e, hreads, hpublished, tally, hashes, htally, hhashes, rfl⟩
    exact respond_done (.reported e tally hashes (.inr hop) hreads hpublished
      (fun h => absurd (hop.symm.trans h) (by simp)) htally hhashes)

theorem ballotdDispatch_does (h : w.txnConn = none) :
    (ballotdDispatch direct crypto req w).txnConn = none ∧
    Does crypto req w.server.store (ballotdDispatch direct crypto req w).resp
      (ballotdDispatch direct crypto req w).server.store := by
  have hx := dispatchOp_triple crypto req w.server.store
  have hidle : Idle w.server.store default { w with resp := default } := ⟨h, rfl, rfl⟩
  unfold ballotdDispatch
  cases hrun : dispatchOp direct crypto req { w with resp := default } with
  | ok a w' =>
    obtain ⟨htxn, hdoes⟩ := hx.of_ok hidle hrun
    exact ⟨htxn, hdoes⟩
  | error e w' =>
    obtain ⟨htxn, hstore⟩ := hx.of_error hidle hrun
    refine ⟨htxn, ?_⟩
    simp only [hstore]
    exact .failed e rfl

end BallotBox
