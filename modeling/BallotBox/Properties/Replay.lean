import BallotBox.Properties.Support.AlignedReplies
import BallotBox.Properties.Support.Runs

/-!
# Nonces are used once

`record_ballot_locked` asks for the nonce of a ballot, and a text that cannot be made sense of
counts as "no row".  So replay protection holds if the reply can be made sense of, which depends on
the nonce, and if it is the reply to the select, which depends on what was printed before.  The
last part says what is never taken away.
-/

namespace BallotBox

open Link World List Option Triple

variable {P : Tables → Prop} {w : World Bytes} {cmd : DbCmd} {nonce : CStr bbNonceLen}
  {t : Tables} {req : BclRequest}

open Tables

/-! ## A recording over the wire -/

variable {store : Tables}

/-- The names and the nonces are as stored. -/
def Untouched (store t : Tables) : Prop := t.eligibles = store.eligibles ∧ t.nonces = store.nonces

/-- The nonce has been added. -/
def Marked (eid nonce : Bytes) (store t : Tables) : Prop :=
  t.eligibles = store.eligibles ∧ ∃ n : NonceRow, n.electionId.bytes = eid ∧
    n.nonce.bytes = nonce ∧ t.nonces = store.nonces ++ [n]

/-- No name is the ok marker. -/
def NamesLegible (t : Tables) : Prop := ∀ v ∈ t.eligibles, v.certName.bytes ≠ dbMarkOk

/-- In a transaction whose replies are read in step. -/
def World.AlignedTxn (P : Tables → Prop) (store : Tables) (w : World Bytes) : Prop :=
  ∃ c t, w.txnConn = some c ∧ P t ∧ Link.Aligned t store ⟨c, w.server⟩

/-- In a transaction, over these tables. -/
def World.Held (store : Tables) (w : World Bytes) : Prop :=
  (∃ c, w.txnConn = some c) ∧ w.server.store = store

lemma World.AlignedTxn.held (h : w.AlignedTxn P store) : w.Held store := by
  obtain ⟨c, t, hc, -, hl⟩ := h
  exact ⟨⟨c, hc⟩, hl.sees.store_eq⟩

lemma dbExec_aligned {Q : DbResult → Tables → Prop}
    (hx : ∀ t, P t → Triple (Aligned t store) (runOp wire cmd)
      (fun out l => ∃ t', Q out t' ∧ l.Aligned t' store) (Fails store)) :
    Triple (AlignedTxn P store) (dbExec wire cmd) (fun out => AlignedTxn (Q out) store)
      (fun _ => Held store) := by
  rintro w ⟨c, t, hc, hP, hl⟩
  refine (dbExec_lift (hx t hP)).ends ?_ ?_ w ⟨c, hc, hl⟩
  · rintro out w ⟨c, hc, t', hQ, hl⟩
    exact ⟨c, t', hc, hQ, hl⟩
  · rintro e w ⟨c, hc, hfail⟩
    exact ⟨⟨c, hc⟩, hfail.2⟩

lemma dbExec_untouched (hnames : NamesLegible store) (hplain : cmd.isPlain = true) :
    Triple (AlignedTxn (Untouched store) store) (dbExec wire cmd)
      (fun _ => AlignedTxn (Untouched store) store) (fun _ => Held store) := by
  refine dbExec_aligned fun t ht => ?_
  have hkeeps : Triple (fun l => ∃ t, Untouched store t ∧ l.Aligned t store) (runOp wire cmd)
      (fun _ l => ∃ t, Untouched store t ∧ l.Aligned t store) (Fails store) := by
    refine runOp_keeps (fun l ⟨_, _, hl⟩ => ⟨.inl rfl, hl.sees.store_eq⟩) fun cap stmt hsend => ?_
    refine exists_elim fun t => of_imp fun ht => ?_
    have hdata : stmt.isData = true := by
      cases stmt <;> first | rfl | exact hsend.sends.1.elim
    have hnonce : ∀ e n, stmt ≠ .insertNonce e n := by
      rintro e n rfl
      obtain ⟨e', n', rfl, -⟩ := hsend.sends.1
      simp [DbCmd.isPlain] at hplain
    have hname : ∀ e c, stmt ≠ .insertEligible e c := by
      rintro e c rfl
      obtain ⟨e', config, rfl, -⟩ := hsend.sends.1
      simp [DbCmd.isPlain] at hplain
    have hseen : ∀ e n, stmt ≠ .selectNonce e n := by
      rintro e n rfl
      obtain ⟨e', n', rfl, -⟩ := hsend.sends.1
      simp [DbCmd.isPlain] at hplain
    refine (execStmt_aligned hdata fun t' rows hrun => ?_).post ?_
    · exact Stmt.run_legible (fun _ _ v hv => hnames v (ht.1 ▸ hv))
        (fun e n heq => absurd heq (hseen e n)) hrun
    · rintro _ l ⟨t', rows, m, hrun, -, -, hl⟩
      refine ⟨t', ⟨?_, (Stmt.run_nonces hnonce hrun).trans ht.2⟩, hl⟩
      obtain heq | ⟨e, c, -, heq, -⟩ := Stmt.run_eligibles hrun
      · exact heq.trans ht.1
      · exact absurd heq (hname e c)
  exact hkeeps.pre fun l hl => ⟨t, ht, hl⟩

/-- A nonce that its own reply shows. -/
def NonceLegible (nonce : Bytes) : Prop := nonce ≠ [] ∧ nonce ≠ dbMarkOk

lemma readRows_nonce (eid : Bytes) (hnonce : nonce.bytes ≠ []) (hclean : Clean nonce.bytes) :
    (readRows (tableBody bodyMax (Stmt.selectNonce eid nonce.bytes).desc [[nonce.bytes]])).rowCount
      = 1 := by
  have hlines : PrintsOnLines [[nonce.bytes]] :=
    .of_fields (by simpa using ⟨hclean.1, hclean.2.2⟩)
  have hfits : (unlines (queryLines (Stmt.selectNonce eid nonce.bytes).desc
      [[nonce.bytes]])).length ≤ bodyMax := by
    have hheader : (Stmt.selectNonce eid nonce.bytes).desc.header.length = 12 := by rfl
    have hrule : (Stmt.selectNonce eid nonce.bytes).desc.rule.length = 16 := by rfl
    have htrailer : (rowsTrailer 1).length = 8 := by decide
    have hlen := nonce.fits
    simp only [queryLines, unlines, tupleLine, map_cons, map_nil, cons_append,
      nil_append, flatMap_cons, flatMap_nil, length_append, length_cons,
      length_nil, intercalate_singleton, hheader, hrule, htrailer, bodyMax, bbNonceLen]
      at hlen ⊢
    omega
  have hcount : dbRowCount (readBody (Stmt.selectNonce eid nonce.bytes).desc [[nonce.bytes]]) = 1 :=
    dbRowCount_readBody hlines (by simpa [tupleLine] using hnonce) (by simp)
  rw [tableBody_eq hfits, readRows, hcount]
  simp [Reply.rowCount]

lemma runNonceSeen_aligned {eid : CStr bbIdLen}
    (hnames : NamesLegible t) (hnonce : NonceLegible nonce.bytes)
    (hone : (t.noncesOf eid.bytes nonce.bytes).length ≤ 1) :
    Triple (Aligned t store) (runNonceSeen wire eid nonce)
      (fun out l => (out.found = false → t.noncesOf eid.bytes nonce.bytes = []) ∧ l.Aligned t store)
      (Fails store) := by
  refine (execStmt_aligned rfl fun t' rows hrun => ?_).bind fun reply => ?_
  · refine Stmt.run_legible (fun _ _ => hnames) (fun e n heq => ?_) hrun
    rw [← (Stmt.selectNonce.inj heq).2]
    exact hnonce.2
  · rintro l ⟨t', rows, m, hrun, hperm, hreply, hl⟩
    obtain ⟨rfl, rfl⟩ := Prod.mk.inj (some.inj hrun)
    refine ⟨fun hfound => ?_, hl⟩
    by_contra hne
    obtain ⟨n, hn⟩ := length_eq_one_iff.mp (le_antisymm hone (length_pos_iff.mpr hne))
    have hbytes : n.nonce.bytes = nonce.bytes := by
      have hmem : n ∈ t.noncesOf eid.bytes nonce.bytes := hn ▸ mem_singleton_self n
      exact (of_decide_eq_true (mem_filter.mp hmem).2).2
    rw [hn, map_singleton, perm_singleton, hbytes] at hperm
    rw [hperm] at hreply
    have hcount := readRows_nonce eid.bytes hnonce.1 (hbytes ▸ n.nonce.clean)
    simp [hreply, hcount] at hfound

lemma runNonceMark_aligned {eid : CStr bbIdLen} (hnames : NamesLegible t) :
    Triple (Aligned t store) (runNonceMark wire eid nonce)
      (fun _ l => ∃ t', Marked eid.bytes nonce.bytes t t' ∧ l.Aligned t' store)
      (Fails store) := by
  refine (execStmt_aligned rfl fun t' rows hrun =>
    Stmt.run_legible (fun _ _ => hnames) (fun _ _ heq => by cases heq) hrun).bind fun reply => ?_
  rintro l ⟨t', rows, m, hrun, -, -, hl⟩
  simp only [Stmt.run, bind_eq_bind, bind_eq_some_iff, some.injEq, Prod.mk.injEq] at hrun
  obtain ⟨e, he, n, hn, rfl, -⟩ := hrun
  exact ⟨{ t with nonces := t.nonces ++ [⟨e, n⟩] }, ⟨rfl, ⟨e, n⟩, Text.ofBytes?_eq_some.mp he,
    Text.ofBytes?_eq_some.mp hn, rfl⟩, hl⟩

section Recording

variable {crypto : Crypto} {eid : CStr bbIdLen} {ballot : BbBallot}

lemma throw_held {α : Type} {Q : α → World Bytes → Prop} (e : BbErr) :
    Triple (AlignedTxn P store) (MonadExcept.throw e : BrainM Bytes α) Q
      (fun _ => Held store) :=
  (Triple.throw e).pre fun _ hw => hw.held

lemma admitBallot_aligned (hnames : NamesLegible store) :
    Triple (AlignedTxn (Untouched store) store) (admitBallot wire crypto eid ballot)
      (fun _ => AlignedTxn (Untouched store) store) (fun _ => Held store) := by
  have hload : Triple (AlignedTxn (Untouched store) store) (loadElection wire eid)
      (fun _ => AlignedTxn (Untouched store) store) (fun _ => Held store) :=
    (dbExec_untouched hnames rfl).bind fun res =>
      Triple.ite (fun _ => throw_held _) fun _ => ret _
  refine (admitBallot_rule (fun _ _ _ h => h) (fun _ _ _ _ hw => hw.held) hload).post ?_
  exact fun _ w ⟨_, _, hw⟩ => hw

lemma issueReceipt_aligned (version : ℤ) :
    Triple (AlignedTxn P store) (issueReceipt crypto ballot version : BrainM Bytes BbReceipt)
      (fun _ => AlignedTxn P store) (fun _ => Held store) :=
  issueReceipt_rule (fun _ _ h => h) (fun _ hw => hw.held) version fun _ _ _ _ hw => hw

lemma dbExec_nonceSeen (hnames : NamesLegible store) (hnonce : NonceLegible ballot.nonce.bytes)
    (hone : (store.noncesOf eid.bytes ballot.nonce.bytes).length ≤ 1) :
    Triple (AlignedTxn (Untouched store) store) (dbExec wire (.nonceSeen eid ballot.nonce))
      (fun out w => (out.found = false → store.noncesOf eid.bytes ballot.nonce.bytes = []) ∧
        w.AlignedTxn (Untouched store) store) (fun _ => Held store) := by
  have hx : Triple (AlignedTxn (Untouched store) store)
      (dbExec wire (.nonceSeen eid ballot.nonce)) (fun out => AlignedTxn (fun t =>
        (out.found = false → store.noncesOf eid.bytes ballot.nonce.bytes = []) ∧
          Untouched store t) store) (fun _ => Held store) := by
    refine dbExec_aligned fun t ht => ?_
    have hsame : t.noncesOf eid.bytes ballot.nonce.bytes =
        store.noncesOf eid.bytes ballot.nonce.bytes := by rw [noncesOf, ht.2, ← noncesOf]
    refine (runNonceSeen_aligned (fun v hv => hnames v (ht.1 ▸ hv)) hnonce (hsame ▸ hone)).post ?_
    exact fun out l h => ⟨t, ⟨hsame ▸ h.1, ht⟩, h.2⟩
  refine hx.post ?_
  rintro out w ⟨c, t, hc, ⟨hseen, ht⟩, hl⟩
  exact ⟨hseen, c, t, hc, ht, hl⟩

lemma dbExec_nonceMark (hnames : NamesLegible store) :
    Triple (AlignedTxn (Untouched store) store) (dbExec wire (.nonceMark eid ballot.nonce))
      (fun _ => AlignedTxn (Marked eid.bytes ballot.nonce.bytes store) store)
      (fun _ => Held store) := by
  refine dbExec_aligned fun t ht => (runNonceMark_aligned fun v hv => hnames v (ht.1 ▸ hv)).post ?_
  rintro _ l ⟨t', ⟨helig, n, he, hn, hnonces⟩, hl⟩
  exact ⟨t', ⟨helig.trans ht.1, n, he, hn, by rw [hnonces, ht.2]⟩, hl⟩

lemma writeBallot_aligned (hnames : NamesLegible store) (opt : ℤ) (prior : DbResult) (version : ℤ)
    (receipt : BbReceipt) :
    Triple (AlignedTxn (Untouched store) store)
      (writeBallot wire eid ballot opt prior version receipt)
      (fun _ => AlignedTxn (Marked eid.bytes ballot.nonce.bytes store) store)
      (fun _ => Held store) := by
  have htail : Triple (AlignedTxn (Untouched store) store) (do
      let _ ← dbExec wire (.setOwner eid ballot.certName receipt.hash version)
      let _ ← dbExec wire (.nonceMark eid ballot.nonce))
      (fun _ => AlignedTxn (Marked eid.bytes ballot.nonce.bytes store) store)
      (fun _ => Held store) :=
    (dbExec_untouched hnames rfl).bind fun _ =>
      (dbExec_nonceMark hnames).bind fun _ => ret _
  refine (dbExec_untouched hnames rfl).bind fun _ => Triple.ite (fun _ => ?_) fun _ => htail
  exact (dbExec_untouched hnames rfl).bind fun _ => htail

lemma recordBallotLocked_aligned (hnames : NamesLegible store)
    (hnonce : NonceLegible ballot.nonce.bytes)
    (hone : (store.noncesOf eid.bytes ballot.nonce.bytes).length ≤ 1) :
    Triple (AlignedTxn (Untouched store) store) (recordBallotLocked wire crypto eid ballot)
      (fun _ w => store.noncesOf eid.bytes ballot.nonce.bytes = [] ∧
        w.AlignedTxn (Marked eid.bytes ballot.nonce.bytes store) store)
      (fun _ => Held store) := by
  refine (admitBallot_aligned hnames).bind fun opt => ?_
  refine bind_imp (dbExec_nonceSeen hnames hnonce hone) fun seen hseen => ?_
  refine Triple.ite (fun _ => throw_held _) fun hfound => ?_
  refine (dbExec_untouched hnames rfl).bind fun prior => ?_
  refine (issueReceipt_aligned _).bind fun receipt => ?_
  exact (writeBallot_aligned hnames opt prior _ receipt).post fun _ w hw =>
    ⟨hseen (by simpa using hfound), hw⟩

/-! ## The transaction around it -/

lemma bbDbBegin_aligned : Triple (Rests store) (bbDbBegin wire)
    (fun _ => AlignedTxn (Untouched store) store) (fun _ => Rests store) := by
  refine (bbDbBegin_lift (S := fun s => s.store = store) (T := fun _ s => s.store = store)
    (opens_of_tick (fun _ hs => hs) fun _ hs => ⟨⟨rfl, hs⟩, rfl⟩)
    (execStmt_aligned_setTransaction.err fun _ _ hl => hl.2)).ends ?_ fun _ _ hw => hw
  rintro _ w ⟨c, hc, hl⟩
  exact ⟨c, store, hc, ⟨rfl, rfl⟩, hl⟩

lemma bbDbCommit_aligned : Triple (AlignedTxn P store) (bbDbCommit wire)
    (fun _ w => ∃ t, P t ∧ w.Rests t) (fun _ => Rests store) := by
  rintro w ⟨c, t, hc, hP, hl⟩
  refine ((bbDbCommit_lift (S := fun s => s.store = t) (T := fun _ s => s.store = store)
    (execStmt_aligned_commit.err fun _ _ hl => hl.2)).post fun _ w hw => ?_) w ⟨c, hc, hl⟩
  exact ⟨t, hP, hw⟩

lemma bbDbRollback_held {E : BbErr → World Bytes → Prop} :
    Triple (Held store) (bbDbRollback wire) (fun _ => Rests store) E := by
  refine (bbDbRollback_lift (P := Stores store) (S := fun s => s.store = store)
    execStmt_rollback).pre ?_
  rintro w ⟨⟨c, hc⟩, hstore⟩
  exact ⟨c, hc, hstore⟩

lemma recordLoop_aligned (hnames : NamesLegible store) (hnonce : NonceLegible ballot.nonce.bytes)
    (hone : (store.noncesOf eid.bytes ballot.nonce.bytes).length ≤ 1) (last : BbErr) (rounds : ℕ) :
    Triple (Rests store) (recordLoop wire crypto eid ballot last rounds)
      (fun _ w => store.noncesOf eid.bytes ballot.nonce.bytes = [] ∧
        ∃ t, Marked eid.bytes ballot.nonce.bytes store t ∧ w.Rests t)
      (fun _ => Rests store) :=
  recordLoop_rule bbDbBegin_aligned (recordBallotLocked_aligned hnames hnonce hone)
    (of_imp fun hunused => bbDbCommit_aligned.post fun _ _ hw => ⟨hunused, hw⟩)
    bbDbRollback_held (fun _ hw => hw) last rounds

end Recording

/-! ## Along a run -/

/-- The condition on a request. -/
def BclRequest.Legible (req : BclRequest) : Prop :=
  (req.op = .create → ∀ name ∈ req.config.eligible, name.bytes ≠ dbMarkOk) ∧
    (req.op = .cast ∨ req.op = .update → NonceLegible req.ballot.nonce.bytes)

instance : DecidablePred BclRequest.Legible := fun req => by
  unfold BclRequest.Legible NonceLegible
  infer_instance

/-- The nonce is used in the election. -/
def Event.Uses (eid nonce : Bytes) (ev : Event) : Prop :=
  (ev.req.op = .cast ∨ ev.req.op = .update) ∧ ev.req.electionId.bytes = eid ∧
    ev.req.ballot.nonce.bytes = nonce

/-- Once a recording with a nonce has succeeded, every later one with it in the election fails and
changes nothing. -/
def NoncesUsedOnce (evs : List Event) : Prop :=
  evs.Pairwise fun ev ev' => ∀ eid nonce, ev.Uses eid nonce → ev'.Uses eid nonce →
    ev.resp.status = .ok → ev'.resp.status ≠ .ok ∧ ev'.after = ev'.before

/-- The invariant of a run. -/
structure NoncesKept (evs : List Event) (t : Tables) : Prop where
  names : NamesLegible t
  /-- A nonce is stored once. -/
  once : ∀ eid nonce, (t.noncesOf eid nonce).length ≤ 1
  /-- Nonces that were used are stored. -/
  used : ∀ ev ∈ evs, ∀ eid nonce, ev.Uses eid nonce → ev.resp.status = .ok →
    t.noncesOf eid nonce ≠ []

lemma ballotdDispatch_record (crypto : Crypto)
    (hop : req.op = .cast ∨ req.op = .update) (htxn : w.txnConn = none)
    (hnames : NamesLegible w.server.store) (hnonce : NonceLegible req.ballot.nonce.bytes)
    (hone : (w.server.store.noncesOf req.electionId.bytes req.ballot.nonce.bytes).length ≤ 1) :
    (ballotdDispatch wire crypto req w).txnConn = none ∧
    (((ballotdDispatch wire crypto req w).resp.status ≠ .ok ∧
        (ballotdDispatch wire crypto req w).server.store = w.server.store) ∨
      (w.server.store.noncesOf req.electionId.bytes req.ballot.nonce.bytes = [] ∧
        Marked req.electionId.bytes req.ballot.nonce.bytes w.server.store
          (ballotdDispatch wire crypto req w).server.store)) := by
  have hx : Triple _ (bbRecordBallot wire crypto req.electionId req.ballot) _ _ :=
    recordLoop_aligned hnames hnonce hone .db bbTxnAttempts
  have hrests : Rests w.server.store { w with resp := default } := ⟨htxn, rfl⟩
  have hrun :
      dispatchOp wire crypto req = bbRecordBallot wire crypto req.electionId req.ballot := by
    rcases hop with hop | hop <;> simp [dispatchOp, hop]
  unfold ballotdDispatch
  rw [hrun]
  cases hcall : bbRecordBallot wire crypto req.electionId req.ballot { w with resp := default } with
  | ok a w' =>
    obtain ⟨hunused, t, ht, htxn', rfl⟩ := hx.of_ok hrests hcall
    exact ⟨htxn', .inr ⟨hunused, ht⟩⟩
  | error e w' =>
    obtain ⟨htxn', hstore⟩ := hx.of_error hrests hcall
    exact ⟨htxn', .inl ⟨by simp, hstore⟩⟩

lemma Marked.noncesOf {eid nonce : Bytes} {t' : Tables} (h : Marked eid nonce t t') (e n : Bytes) :
    (t'.noncesOf e n).length =
      (t.noncesOf e n).length + if (eid, nonce) = (e, n) then 1 else 0 := by
  obtain ⟨-, row, rfl, rfl, hnonces⟩ := h
  rw [Tables.noncesOf, hnonces, filter_append, length_append, ← Tables.noncesOf]
  congr 1
  by_cases heq : row.electionId.bytes = e ∧ row.nonce.bytes = n <;> simp [heq]

lemma DbCmd.preserves_nonces (hmark : ∀ e n, cmd ≠ .nonceMark e n)
    (hconfig : ∀ e config, cmd = .insertElection e config →
      ∀ name ∈ config.eligible, name.bytes ≠ dbMarkOk) (nonces : List NonceRow) :
    cmd.Preserves fun t => t.nonces = nonces ∧ NamesLegible t := by
  intro stmt hsend t t' rows ht hrun
  constructor
  · refine (Stmt.run_nonces (fun e n heq => ?_) hrun).trans ht.1
    subst heq
    obtain ⟨e', n', hcmd, -⟩ := hsend.1
    exact hmark e' n' hcmd
  · obtain heq | ⟨e, c, v, rfl, hv, heq⟩ := Stmt.run_eligibles hrun
    · exact fun v hv => ht.2 v (heq ▸ hv)
    · obtain ⟨e', config, rfl, name, hname, hbytes⟩ := hsend.1
      intro v' hv'
      rw [heq, mem_append, mem_singleton] at hv'
      rcases hv' with hv' | rfl
      · exact ht.2 v' hv'
      · rw [hv, ← hbytes]
        exact hconfig e' config rfl name hname

lemma ballotdDispatch_nonces (crypto : Crypto)
    (hop : ¬ (req.op = .cast ∨ req.op = .update)) (hreq : req.Legible) (htxn : w.txnConn = none)
    (hnames : NamesLegible w.server.store) :
    (ballotdDispatch wire crypto req w).txnConn = none ∧
      (ballotdDispatch wire crypto req w).server.store.nonces = w.server.store.nonces ∧
      NamesLegible (ballotdDispatch wire crypto req w).server.store := by
  refine ballotdDispatch_keeps (K := fun t => t.nonces = w.server.store.nonces ∧ NamesLegible t)
    (fun cmd hplain => ?_) hop (fun hcreate id => ?_) ⟨htxn, rfl, hnames⟩
  · refine DbCmd.preserves_nonces ?_ ?_ _
    · rintro e n rfl
      simp [DbCmd.isPlain] at hplain
    · rintro e config rfl
      simp [DbCmd.isPlain] at hplain
  · refine DbCmd.preserves_nonces (by simp) (fun e config heq => ?_) _
    rw [← (DbCmd.insertElection.inj heq).2]
    exact hreq.1 hcreate

lemma NoncesKept.step {crypto : Crypto} (hreq : req.Legible) {evs : List Event}
    (htxn : w.txnConn = none) (h : NoncesKept evs w.server.store)
    (honce : NoncesUsedOnce evs) :
    (ballotdDispatch wire crypto req w).txnConn = none ∧
      NoncesKept (evs ++ [eventOf wire crypto req w])
        (ballotdDispatch wire crypto req w).server.store ∧
      NoncesUsedOnce (evs ++ [eventOf wire crypto req w]) := by
  by_cases hop : req.op = .cast ∨ req.op = .update
  · obtain ⟨htxn', hcases⟩ := ballotdDispatch_record crypto hop htxn h.names
      (hreq.2 hop) (h.once _ _)
    refine ⟨htxn', ?_⟩
    obtain ⟨hstatus, hstore⟩ | ⟨hunused, hmarked⟩ := hcases
    · -- nothing happened
      refine ⟨⟨hstore ▸ h.names, hstore ▸ h.once, ?_⟩, ?_⟩
      · simp only [forall_mem_append, forall_mem_singleton]
        exact ⟨hstore ▸ h.used, fun _ _ _ hok => absurd hok hstatus⟩
      · refine pairwise_append.mpr ⟨honce, pairwise_singleton _ _, ?_⟩
        simp only [mem_singleton, forall_eq]
        exact fun _ _ _ _ _ _ _ => ⟨hstatus, hstore⟩
    · refine ⟨⟨fun v hv => h.names v (hmarked.1 ▸ hv), fun e n => ?_, ?_⟩, ?_⟩
      · rw [hmarked.noncesOf]
        split_ifs with heq
        · obtain ⟨rfl, rfl⟩ := Prod.mk.inj heq
          simp [hunused]
        · exact h.once e n
      · simp only [forall_mem_append, forall_mem_singleton]
        refine ⟨fun ev hev e n huses hok => ?_, fun e n huses _ => ?_⟩
        · have hpos := length_pos_iff.mpr (h.used ev hev e n huses hok)
          refine length_pos_iff.mp ?_
          rw [hmarked.noncesOf]
          omega
        · obtain ⟨-, rfl, rfl⟩ := huses
          refine length_pos_iff.mp ?_
          rw [hmarked.noncesOf]
          simp [eventOf]
      · -- no earlier recording can have used the nonce
        refine pairwise_append.mpr ⟨honce, pairwise_singleton _ _, ?_⟩
        simp only [mem_singleton, forall_eq]
        rintro ev hev e n huses ⟨-, rfl, rfl⟩ hok
        exact absurd hunused (h.used ev hev _ _ huses hok)
  · obtain ⟨htxn', hnonces, hnames⟩ := ballotdDispatch_nonces crypto hop hreq htxn h.names
    have hsame (e n : Bytes) : (ballotdDispatch wire crypto req w).server.store.noncesOf e n =
        w.server.store.noncesOf e n := by rw [Tables.noncesOf, hnonces, ← Tables.noncesOf]
    refine ⟨htxn', ⟨hnames, fun e n => hsame e n ▸ h.once e n, ?_⟩, ?_⟩
    · simp only [forall_mem_append, forall_mem_singleton, hsame]
      exact ⟨h.used, fun _ _ huses _ => absurd huses.1 hop⟩
    · refine pairwise_append.mpr ⟨honce, pairwise_singleton _ _, ?_⟩
      simp only [mem_singleton, forall_eq]
      exact fun _ _ _ _ _ huses => absurd huses.1 hop

/-- Nonces are used once: in every run of requests that can be told from the protocol, whatever
becomes of the statements, a nonce that was used in an election is never accepted there again. -/
theorem nonce_used_once (crypto : Crypto) (sched : ℕ → Outcome) (reqs : List BclRequest)
    (hreqs : ∀ req ∈ reqs, req.Legible) :
    NoncesUsedOnce (history wire crypto reqs (World.start sched)) := by
  have hstart : NoncesKept [] Tables.empty :=
    ⟨by simp [NamesLegible, Tables.empty], by simp [Tables.empty, noncesOf], by simp⟩
  exact (history_induction (J := fun evs w => w.txnConn = none ∧
    NoncesKept evs w.server.store ∧ NoncesUsedOnce evs) ⟨rfl, hstart, List.Pairwise.nil⟩ reqs
    fun req hreq evs w hw => hw.2.1.step (hreqs req hreq) hw.1 hw.2.2).2.2

/-! ## Two voters, one nonce -/

def twoBallots (config : BbConfig) (first second nonce : String) : List BclRequest :=
  [{ smallRequest .create "" "" 0 with config := config }, smallRequest .opening "" "" 0,
    smallRequest .cast first nonce 1, smallRequest .cast second nonce 0]

/-- The second ballot with an ordinary nonce is refused. -/
theorem nonce_used_once_small :
    NoncesUsedOnce (history wire stubCrypto (twoBallots smallConfig "ann" "bob" "n1")
      (World.start calm)) ∧
    (history wire stubCrypto (twoBallots smallConfig "ann" "bob" "n1") (World.start calm)).map
      (·.resp.status) = [.ok, .ok, .ok, .err .replay] :=
  ⟨nonce_used_once stubCrypto calm _ (by decide +kernel), by decide +kernel⟩

def trapConfig : BbConfig :=
  { smallConfig with
    eligible := ["ann", "", " 1 rows.", "<<END ok>>", "x", "<<END ok>>"].map fun name =>
      .ofBytes (ascii name)
    eligible_le := by decide }

lemma twoBallots_accepted {config : BbConfig} {first second nonce : String}
    (h : (history wire stubCrypto (twoBallots config first second nonce) (start calm)).map
      (·.resp.status) = [.ok, .ok, .ok, .ok]) :
    ¬ NoncesUsedOnce (history wire stubCrypto (twoBallots config first second nonce)
      (start calm)) := by
  intro honce
  simp only [history, twoBallots, map_cons, map_nil, List.cons.injEq, and_true] at h
  simp only [NoncesUsedOnce, history, twoBallots, pairwise_cons] at honce
  obtain ⟨-, -, hfirst, hsecond⟩ := h
  exact (honce.2.2.1 _ (mem_singleton_self _) _ _ ⟨.inl rfl, rfl, rfl⟩ ⟨.inl rfl, rfl, rfl⟩
    hfirst).1 hsecond

/-- The empty nonce, the nonce `<<END ok>>`, and any nonce in an election with such a list can be
used twice. -/
theorem nonce_used_twice_small :
    (¬ NoncesUsedOnce (history wire stubCrypto (twoBallots smallConfig "ann" "bob" "")
      (World.start calm))) ∧
    (¬ NoncesUsedOnce (history wire stubCrypto (twoBallots smallConfig "ann" "bob" "<<END ok>>")
      (World.start calm))) ∧
    ¬ NoncesUsedOnce (history wire stubCrypto (twoBallots trapConfig "ann" "ann" "n1")
      (World.start calm)) :=
  ⟨twoBallots_accepted (by decide +kernel), twoBallots_accepted (by decide +kernel),
    twoBallots_accepted (by decide +kernel)⟩

/-! ## What is never taken away -/

/-- The tables that only grow. -/
def Tables.Extends (t t' : Tables) : Prop :=
  t.options <+: t'.options ∧ t.eligibles <+: t'.eligibles ∧ t.nonces <+: t'.nonces

lemma Stmt.run_extends {stmt : Stmt} {t' : Tables} {rows : List Row}
    (hrun : stmt.run t = some (t', rows)) : t.Extends t' := by
  cases stmt <;>
    simp only [Stmt.run, bind_eq_bind, bind_eq_some_iff, some.injEq, Prod.mk.injEq] at hrun <;>
    grind [Tables.Extends]

/-- **Append-only tables.**  Over every channel, and whatever becomes of the statements, no request
takes away or changes an option, an eligible voter or a used nonce. -/
theorem tables_append_only {ι : Type} (ch : Channel ι) (crypto : Crypto) (reqs : List BclRequest)
    {w : World ι} (hw : w.txnConn = none) :
    w.server.store.Extends (serve ch crypto reqs w).server.store := by
  have hkeep (cmd : DbCmd) : cmd.Preserves w.server.store.Extends :=
    fun stmt _ t t' rows ht hrun =>
      have h := Stmt.run_extends hrun
      ⟨ht.1.trans h.1, ht.2.1.trans h.2.1, ht.2.2.trans h.2.2⟩
  have hrun (req : BclRequest) :
      BrainM.Keeps w.server.store.Extends (dispatchOp ch crypto req) := by
    by_cases hballot : req.op = .cast ∨ req.op = .update
    · unfold dispatchOp
      rcases hballot with hop | hop <;> rw [hop] <;>
        exact bbRecordBallot_keeps (fun cmd _ => hkeep cmd) crypto req.electionId req.ballot
    · exact dispatchOp_keeps_tables (fun cmd _ _ => hkeep cmd) hballot (fun _ _ => hkeep _)
        fun _ _ => hkeep _
  exact (history_induction (J := fun _ w' => w'.IdleWith w.server.store.Extends)
    ⟨hw, prefix_rfl, prefix_rfl, prefix_rfl⟩ reqs
    fun req _ _ _ hw' => ballotdDispatch_idleWith (hrun req) hw').2

/-- Two more ballots, after an election with two. -/
theorem tables_append_only_small :
    let w := serve wire stubCrypto (twoBallots smallConfig "ann" "bob" "n1") (start calm)
    w.server.store.options ≠ [] ∧ w.server.store.eligibles ≠ [] ∧ w.server.store.nonces ≠ [] ∧
      w.server.store.Extends
        (serve wire stubCrypto (twoBallots smallConfig "ann" "bob" "n2") w).server.store :=
  ⟨by decide +kernel, by decide +kernel, by decide +kernel,
    tables_append_only wire stubCrypto _ (by decide +kernel)⟩

/-- **The nonces are the log of the accepted ballots.**  If replies arrive as they are, the nonces
of an election are those of its accepted ballots, in their order: none is lost, and no refused or
failed request leaves one. -/
theorem nonces_log (crypto : Crypto) (sched : ℕ → Outcome) (reqs : List BclRequest) (eid : Bytes) :
    ((serve direct crypto reqs (start sched)).server.store.nonces.filter
        (·.electionId.bytes = eid)).map (·.nonce.bytes) =
      ((history direct crypto reqs (start sched)).filter (·.Records eid)).map
        (·.req.ballot.nonce.bytes) := by
  refine run_induction (I := fun evs t =>
    (t.nonces.filter (·.electionId.bytes = eid)).map (·.nonce.bytes) =
      (evs.filter (·.Records eid)).map (·.req.ballot.nonce.bytes)) (C := fun _ => True) rfl rfl
    (fun evs ev h _ hdoes => ?_) reqs fun _ _ => trivial
  obtain ⟨hsame, hnot⟩ | ⟨hrecords, rec, -, hafter⟩ := Event.votesOf hdoes eid
  · simp [hsame.nonces, h, hnot]
  · have hnonces : ev.after.nonces = ev.before.nonces ++ [rec.nonce] := by
      rw [hafter, Recording.after, Recording.counted]
      split <;> rfl
    simp [hnonces, rec.nonce_stores, hrecords, h]

end BallotBox
