import BallotBox.Properties.ReceiptCollisions
import BallotBox.Properties.Support.SteadyRuns

/-!
# Recording a ballot is all or nothing

`bb_record_ballot` makes up to three attempts of about a dozen statements each.  After an error it
leaves the tables of before, after a success one new live row with its owner row and nonce, by
exactly one commit (`AllOrNothing`).
-/

namespace BallotBox

open World List Tables

variable {stmt : Stmt} {ι : Type} {w : World Unit} {b : BallotRow} {n : NonceRow} {o' : OwnerRow}

/-! ## Counting commits -/

/-- The commits that were answered. -/
def Server.commits (s : Server) : ℕ := s.trace.count (.commit, .ok)

lemma commits_cons {s : Server} {status : DbStatus} {trace : List (Stmt × DbStatus)}
    (h : s.trace = (stmt, status) :: trace) :
    s.commits = trace.count (.commit, .ok) + if stmt = .commit ∧ status = .ok then 1 else 0 := by
  rw [Server.commits, h, count_cons]
  simp

lemma Exchange.commits {ch : Channel ι} {cap : ℕ} {l : Link ι}
    {res : (DbStatus × Reply) × Link ι} (h : Exchange ch cap stmt l res) :
    res.2.server.commits = l.server.commits + if stmt = .commit ∧ res.1.1 = .ok then 1 else 0 := by
  cases h with
  | unsent status h _ => simp [h]
  | lost why => exact commits_cons rfl
  | failed verdict _ => exact commits_cons rfl
  | ran order view store answer _ _ => exact commits_cons rfl

lemma execStmt_commits (ch : Channel ι) (cap : ℕ) (stmt : Stmt) (n : ℕ) :
    Triple (fun l => l.server.commits = n) (execStmt ch cap stmt)
      (fun _ l => l.server.commits = if stmt = .commit then n + 1 else n)
      (fun _ l => l.server.commits = n) := by
  rintro l rfl
  have hcommits := (dbSocketExec_exchange ch cap stmt l).commits
  rw [EStateM.run, execStmt]
  generalize dbSocketExec ch cap stmt l = res at hcommits ⊢
  obtain ⟨⟨status, reply⟩, l'⟩ := res
  cases status with
  | ok =>
    simp only [mapStatus, hcommits]
    split_ifs <;> simp_all
  | _ => simpa [mapStatus] using hcommits

/-- In a transaction, after `n` commits. -/
def World.Counting (n : ℕ) (w : World Unit) : Prop :=
  (∃ c, w.txnConn = some c) ∧ w.server.commits = n

/-- Between transactions, after `n` commits. -/
def World.Counted (n : ℕ) (w : World Unit) : Prop := w.txnConn = none ∧ w.server.commits = n

lemma World.counting_iff {n : ℕ} : w.Counting n ↔ w.OnTxn fun l => l.server.commits = n := by
  constructor
  · rintro ⟨⟨c, hc⟩, hn⟩
    exact ⟨c, hc, hn⟩
  · rintro ⟨c, hc, hn⟩
    exact ⟨⟨c, hc⟩, hn⟩

lemma dbExec_counting (cmd : DbCmd) (n : ℕ) : Invariant (Counting n) (dbExec direct cmd) := by
  have hop : Invariant (fun l => l.server.commits = n) (runOp direct cmd) := by
    refine runOp_keeps (E := fun _ l => l.server.commits = n) (fun _ hl => hl)
      fun cap stmt hsend => ?_
    refine (execStmt_commits direct cap stmt n).post fun _ l hl => hl.trans (if_neg ?_)
    rintro rfl
    exact hsend.sends.1
  exact (dbExec_lift hop).conseq (fun _ => World.counting_iff.mp)
    (fun _ _ => World.counting_iff.mpr) fun _ _ => World.counting_iff.mpr

lemma bbDbBegin_counting (n : ℕ) :
    Triple (Counted n) (bbDbBegin direct) (fun _ => Counting n)
      (fun _ => Counted n) := by
  refine Triple.post (bbDbBegin_lift (S := fun s => s.commits = n)
    (P := fun l => l.server.commits = n) (T := fun _ s => s.commits = n) (fun s hs => ?_)
    (execStmt_commits direct 0 .setTransaction n)) fun _ _ => World.counting_iff.mpr
  by_cases hlost : ∃ why, s.next = .lost why
  · exact .inl ⟨hlost, hs⟩
  · exact .inr ⟨not_exists.mp hlost, hs⟩

lemma bbDbCommit_counting (n : ℕ) :
    Triple (Counting n) (bbDbCommit direct) (fun _ => Counted (n + 1))
      (fun _ => Counted n) :=
  (bbDbCommit_lift (S := fun s => s.commits = n + 1) (T := fun _ s => s.commits = n)
    (execStmt_commits direct 0 .commit n)).pre fun _ => World.counting_iff.mp

lemma bbDbRollback_counting (n : ℕ) :
    Triple (Counting n) (bbDbRollback direct) (fun _ => Counted n)
      (fun _ => Counted n) :=
  (bbDbRollback_lift (S := fun s => s.commits = n)
    (execStmt_commits direct 0 .rollback n)).pre fun _ => World.counting_iff.mp

lemma recordLoop_commits (crypto : Crypto) (eid : CStr bbIdLen) (ballot : BbBallot) (last : BbErr)
    (rounds n : ℕ) :
    Triple (Counted n) (recordLoop direct crypto eid ballot last rounds)
      (fun _ => Counted (n + 1)) (fun _ => Counted n) :=
  recordLoop_rule (bbDbBegin_counting n)
    (recordBallotLocked_keeps (fun _ _ h => h) (fun cmd _ => dbExec_counting cmd n) crypto eid
      ballot fun _ _ _ _ _ h => h)
    (bbDbCommit_counting n) (bbDbRollback_counting n) (fun _ h => h) last rounds

/-! ## The property -/

/-- The ballot rows of `t'` are those of `t` and a voter's new row `b`, with the row that the
voter's owner row pointed at, if any, superseded. -/
def TakesOver (eid cert : Bytes) (t t' : Tables) (b : BallotRow) : Prop :=
  (t.ownersOf eid cert = [] ∧ b.version.val = 1 ∧ t'.ballots.Perm (b :: t.ballots)) ∨
  ∃ o₀ ∈ t.ownersOf eid cert, ∃ x rest, x.key = (eid, o₀.hash.bytes) ∧ x.superseded.val = 0 ∧
    b.version.val = o₀.version.val + 1 ∧ t.ballots.Perm (x :: rest) ∧
    t'.ballots.Perm (b :: x.retired :: rest)

/-- The tables `t'` are `t` with one ballot recorded: the live row `b`, the owner row `o` pointing
at it, and the nonce row `n`. -/
structure RecordedAs (eid : Bytes) (ballot : BbBallot) (t t' : Tables) (b : BallotRow)
    (o : OwnerRow) (n : NonceRow) : Prop where
  row : b.electionId.bytes = eid ∧ b.superseded.val = 0 ∧
    (stubCrypto.decryptBallot ballot).1 = .ok b.optionIndex.val
  owner : o.voter = (eid, ballot.certName.bytes) ∧ o.hash = b.hash ∧ o.version = b.version
  nonce : n.electionId.bytes = eid ∧ n.nonce.bytes = ballot.nonce.bytes
  ballots : TakesOver eid ballot.certName.bytes t t' b
  owners : t'.owners.Perm (o :: t.owners.filter (OwnerRow.voter · ≠ (eid, ballot.certName.bytes)))
  nonces : t'.nonces.Perm (n :: t.nonces)
  others : t'.elections = t.elections ∧ t'.options = t.options ∧ t'.eligibles = t.eligibles

/-- The ballot was recorded, once. -/
def RecordedOnce (eid : Bytes) (ballot : BbBallot) (t t' : Tables) : Prop :=
  ∃ b o n, RecordedAs eid ballot t t' b o n

/-- Whatever becomes of the statements, recording the ballot changes nothing or records it once, by
one commit, and leaves no transaction open. -/
def AllOrNothing (eid : CStr bbIdLen) (ballot : BbBallot) (t : Tables) : Prop :=
  ∀ w : World Unit, w.txnConn = none → w.server.store = t →
    match (bbRecordBallot direct stubCrypto eid ballot).run w with
    | .error _ w' => w'.txnConn = none ∧ w'.server.store = t ∧
        w'.server.commits = w.server.commits
    | .ok _ w' => w'.txnConn = none ∧ RecordedOnce eid.bytes ballot t w'.server.store ∧
        w'.server.commits = w.server.commits + 1

/-- The hash in the owner row `o` leads to the voter's live ballot only, also once the new ballot is
in; or it leads nowhere, and the recording fails. -/
def Supersedable (eid : Bytes) (ballot : BbBallot) (t : Tables) (o : OwnerRow) : Prop :=
  issuedHash ballot (o.version.val + 1) ≠ o.readHash ∧
  (t.ballotsWith eid o.readHash = [] ∨
    ∃ x, ∃ o₀ ∈ t.ownersOf eid ballot.certName.bytes, t.ballotsWith eid o.readHash = [x] ∧
      x.superseded.val = 0 ∧ o₀.hash.bytes = o.readHash ∧ o₀.version.val = o.version.val)

lemma TakesOver.length_eq {eid cert : Bytes} {t t' : Tables}
    (h : TakesOver eid cert t t' b) : t'.ballots.length = t.ballots.length + 1 := by
  obtain ⟨-, -, hafter⟩ | ⟨-, -, x, rest, -, -, -, hbefore, hafter⟩ := h
  · rw [hafter.length_eq, length_cons]
  · rw [hafter.length_eq, hbefore.length_eq, length_cons, length_cons, length_cons]

/-! ## Recordings -/

namespace Recording

variable {eid : Bytes} {ballot : BbBallot} {t : Tables} (rec : Recording stubCrypto eid ballot t)

lemma admissible : Admissible eid ballot t rec.election rec.optionIndex where
  reads := rec.reads
  isOpen := rec.isOpen
  eligible := rec.eligible
  decrypted := rec.decrypted
  inRange := rec.inRange
  nonce_new := rec.nonce_new
  nonce_clean := rec.nonce_stores.2 ▸ rec.nonce.nonce.clean

lemma receipt_hash : rec.receipt.hash.bytes = issuedHash ballot rec.version := by
  rw [← Except.ok.inj rec.issued]
  rfl

lemma after_owners : rec.after.owners.Perm
    (rec.owner :: t.owners.filter (OwnerRow.voter · ≠ (eid, ballot.certName.bytes))) := by
  have hset : rec.after.owners = upsert OwnerRow.voter t.owners rec.owner :=
    congrArg (upsert OwnerRow.voter · rec.owner) rec.counted_owners
  rw [hset, upsert, rec.voter_owner]
  exact perm_append_singleton _ _

lemma recordedAs (h : TakesOver eid ballot.certName.bytes t rec.after rec.row) :
    RecordedAs eid ballot t rec.after rec.row rec.owner rec.nonce := by
  have hsame : rec.after.nonces = t.nonces ++ [rec.nonce] ∧ rec.after.elections = t.elections ∧
      rec.after.options = t.options ∧ rec.after.eligibles = t.eligibles := by
    rw [after, counted]
    split <;> exact ⟨rfl, rfl, rfl, rfl⟩
  refine ⟨⟨rec.row_stores.electionId, rec.row_stores.superseded, ?_⟩, ⟨rec.voter_owner, ?_, ?_⟩,
    rec.nonce_stores, h, rec.after_owners, ?_, hsame.2⟩
  · rw [rec.decrypted, rec.row_stores.optionIndex]
  · exact Text.ext (rec.owner_stores.2.2.1.trans rec.row_stores.hash.symm)
  · exact JInt.ext (rec.owner_stores.2.2.2.trans rec.row_stores.version.symm)
  · rw [hsame.1]
    exact perm_append_singleton _ _

lemma eq_of_recordedAs {o : OwnerRow}
    (h : RecordedAs eid ballot t rec.after b o n) : b = rec.row := by
  -- the voter has one owner row, and it determines the hash and the version
  have howner : o = rec.owner := by
    have hmem : o ∈ rec.after.ownersOf eid ballot.certName.bytes := by
      rw [Tables.ownersOf_eq]
      exact mem_filter.mpr ⟨h.owners.symm.subset mem_cons_self, by simp [h.owner.1]⟩
    rwa [rec.after_ownersOf, if_pos rfl, mem_singleton] at hmem
  have hopt : b.optionIndex.val = rec.optionIndex :=
    Except.ok.inj (h.row.2.2.symm.trans rec.decrypted)
  refine BallotRow.ext (Text.ext ?_) ?_ (JInt.ext ?_) ?_ (JInt.ext ?_)
  · rw [h.row.1, rec.row_stores.electionId]
  · rw [← h.owner.2.1, howner]
    exact Text.ext (rec.owner_stores.2.2.1.trans rec.row_stores.hash.symm)
  · rw [hopt, rec.row_stores.optionIndex]
  · rw [← h.owner.2.2, howner]
    exact JInt.ext (rec.owner_stores.2.2.2.trans rec.row_stores.version.symm)
  · rw [h.row.2.1, rec.row_stores.superseded]

section Prior

variable {rec} {o : OwnerRow} {x : BallotRow} (hprior : rec.prior = some (o, x))

include hprior

lemma key_prior : x.key = (eid, o.readHash) := by
  obtain ⟨-, hx, -⟩ := rec.prior_some o x hprior
  rw [BallotRow.key, (mem_ballotsWith.mp hx).2.1, (mem_ballotsWith.mp hx).2.2]

lemma after_ballots_prior : rec.after.ballots =
    (t.ballots ++ [rec.row]).filter (BallotRow.key · ≠ (eid, o.readHash)) ++ [x.retired] := by
  rw [after_ballots, counted, hprior, ← key_prior hprior]
  rfl

lemma after_ballots_perm (hne : rec.receipt.hash.bytes ≠ o.readHash) : rec.after.ballots.Perm
      (rec.row :: x.retired :: t.ballots.filter (BallotRow.key · ≠ (eid, o.readHash))) := by
  have hkey : rec.row.key ≠ (eid, o.readHash) := by
    rw [key_row]
    exact fun heq => hne (Prod.mk.inj heq).2
  rw [after_ballots_prior hprior, filter_append, filter_cons_of_pos (by simpa using hkey),
    filter_nil, append_assoc]
  exact perm_append_comm

lemma mem_prior (hne : rec.receipt.hash.bytes ≠ o.readHash) : x ∈ t.ballotsWith eid o.readHash := by
  obtain ⟨-, hx, -⟩ := rec.prior_some o x hprior
  rw [ballotsWith_addBallot, key_row, if_neg fun heq => hne (Prod.mk.inj heq).2, append_nil] at hx
  exact hx

lemma row_version_prior : rec.row.version.val = o.version.val + 1 := by
  obtain ⟨-, -, hversion⟩ := rec.prior_some o x hprior
  rw [rec.row_stores.version, hversion]

lemma receipt_hash_prior : rec.receipt.hash.bytes = issuedHash ballot (o.version.val + 1) := by
  obtain ⟨-, -, hversion⟩ := rec.prior_some o x hprior
  rw [rec.receipt_hash, hversion]

lemma takesOver (h : Supersedable eid ballot t o) :
    TakesOver eid ballot.certName.bytes t rec.after rec.row := by
  obtain ⟨hne, hnone | ⟨x', o₀, ho₀, hone, hlive, hhash, hversion⟩⟩ := h
  · rw [← receipt_hash_prior hprior] at hne
    exact absurd hnone (ne_nil_of_mem (mem_prior hprior hne))
  · rw [← receipt_hash_prior hprior] at hne
    obtain rfl : x = x' := by
      have hx := mem_prior hprior hne
      rwa [hone, mem_singleton] at hx
    refine .inr ⟨o₀, ho₀, x, t.ballots.filter (BallotRow.key · ≠ (eid, o.readHash)), ?_, hlive, ?_,
      ?_, after_ballots_perm hprior hne⟩
    · rw [key_prior hprior, hhash]
    · rw [row_version_prior hprior, hversion]
    · have hsplit := filter_append_perm (BallotRow.key · = (eid, o.readHash)) t.ballots
      rw [← ballotsWith_eq, hone] at hsplit
      simpa using hsplit.symm

lemma supersedable
    (h : RecordedAs eid ballot t rec.after b o' n) : Supersedable eid ballot t o := by
  obtain rfl : b = rec.row := rec.eq_of_recordedAs h
  obtain ⟨ho, -, -⟩ := rec.prior_some o x hprior
  obtain ⟨hnone, -⟩ | ⟨o₀, ho₀, x₀, rest, hkey, hlive, hversion, hbefore, hafter⟩ := h.ballots
  · exact absurd hnone (ne_nil_of_mem ho)
  -- the new row is not among those that were replaced
  have hne : rec.receipt.hash.bytes ≠ o.readHash := by
    intro heq
    have hmem : rec.row ∈ rec.after.ballots := hafter.symm.subset mem_cons_self
    rw [after_ballots_prior hprior, mem_append, mem_filter, key_row, heq] at hmem
    obtain ⟨-, hmem⟩ | hmem := hmem
    · simp at hmem
    · have hretired := congrArg (·.superseded.val) (mem_singleton.mp hmem)
      simp [BallotRow.retired, JInt.one, rec.row_stores.superseded] at hretired
  have hperm : (x.retired :: t.ballots.filter (BallotRow.key · ≠ (eid, o.readHash))).Perm
      (x₀.retired :: rest) :=
    ((after_ballots_perm hprior hne).symm.trans hafter).cons_inv
  -- so exactly one row was
  have hone : t.ballotsWith eid o.readHash = [x] := by
    have hsplit := (filter_append_perm (BallotRow.key · = (eid, o.readHash)) t.ballots).length_eq
    have hlength := hperm.length_eq
    rw [hbefore.length_eq, length_append, ← ballotsWith_eq] at hsplit
    simp only [length_cons, decide_not] at hsplit hlength
    obtain ⟨y, hy⟩ := length_eq_one_iff.mp (by omega : (t.ballotsWith eid o.readHash).length = 1)
    have hx := mem_prior hprior hne
    rw [hy, mem_singleton] at hx
    rw [hy, hx]
  have hkey' : x₀.key = (eid, o.readHash) := by
    by_contra hother
    have hretired (y : BallotRow) : y.retired ≠ x₀ := by
      rintro rfl
      simp [BallotRow.retired, JInt.one] at hlive
    have hcount := hperm.count_eq x₀
    rw [count_cons_of_ne (hretired x), count_cons_of_ne (hretired x₀),
      count_filter (by simpa using hother), hbefore.count_eq, count_cons_self] at hcount
    omega
  have hx₀ : x₀ ∈ t.ballotsWith eid o.readHash := by
    rw [ballotsWith_eq]
    exact mem_filter.mpr ⟨hbefore.symm.subset mem_cons_self, by simp [hkey']⟩
  rw [hone, mem_singleton] at hx₀
  refine ⟨receipt_hash_prior hprior ▸ hne, .inr ⟨x, o₀, ho₀, hone, hx₀ ▸ hlive, ?_, ?_⟩⟩
  · exact (Prod.mk.inj (hkey.symm.trans hkey')).2
  · rw [row_version_prior hprior] at hversion
    omega

end Prior

end Recording

/-! ## The theorem -/

lemma Supersedable.of_eq {eid : Bytes} {ballot : BbBallot} {t : Tables} {o : OwnerRow}
    (h : Supersedable eid ballot t o') (hhash : o'.readHash = o.readHash)
    (hversion : o'.version.val = o.version.val) : Supersedable eid ballot t o := by
  unfold Supersedable at h ⊢
  rwa [hhash, hversion] at h

lemma Recording.recordedOnce {eid : Bytes} {ballot : BbBallot} {t : Tables}
    (rec : Recording stubCrypto eid ballot t)
    (h : ∀ o ∈ t.ownersOf eid ballot.certName.bytes, o.version.val + 1 < 2 ^ 31 →
      Supersedable eid ballot t o) : RecordedOnce eid ballot t rec.after := by
  refine ⟨rec.row, rec.owner, rec.nonce, rec.recordedAs ?_⟩
  cases hprior : rec.prior with
  | none =>
    obtain ⟨hnone, hone⟩ := rec.prior_none hprior
    refine .inl ⟨hnone, rec.row_stores.version.trans hone, ?_⟩
    rw [rec.after_ballots, Recording.counted, hprior]
    exact perm_append_singleton _ _
  | some p =>
    obtain ⟨ho, -, hversion⟩ := rec.prior_some p.1 p.2 hprior
    refine Recording.takesOver hprior (h p.1 ho ?_)
    rw [← hversion, ← rec.owner_stores.2.2.2]
    exact rec.owner.version.upper

lemma AllOrNothing.supersedable {eid : CStr bbIdLen} {ballot : BbBallot} {t : Tables}
    (h : AllOrNothing eid ballot t) {e : BbElection} {opt : ℤ}
    (hadm : Admissible eid.bytes ballot t e opt) {o : OwnerRow}
    (ho : o ∈ t.ownersOf eid.bytes ballot.certName.bytes) (hver : o.version.val + 1 < 2 ^ 31) :
    Supersedable eid.bytes ballot t o := by
  by_contra hbad
  obtain ⟨order, hshows⟩ := exists_shows hadm ho
  have hrow : t.ballotsWith eid.bytes o.readHash ≠ [] ∨
      issuedHash ballot (o.version.val + 1) = o.readHash := by
    by_contra hnot
    obtain ⟨hnone, hne⟩ := not_or.mp hnot
    exact hbad ⟨hne, .inl (not_not.mp hnone)⟩
  let w : World Unit := ⟨⟨t, fun _ => .ok order, 0, []⟩, none, [], default⟩
  have hready : w.Ready (· = order) none t :=
    ⟨rfl, rfl, fun _ _ _ => ⟨order, rfl, rfl⟩, fun _ hn => by cases hn⟩
  have hsteady : Triple (Ready (· = order) none t) _ _ _ :=
    bbRecordBallot_steady hadm (by rintro _ rfl; exact hshows) (by rintro _ ⟨⟩; exact hver)
      (by rintro _ ⟨⟩; exact hrow)
  have hw := h w rfl rfl
  cases hrun : (bbRecordBallot direct stubCrypto eid ballot).run w with
  | error err w' => exact hsteady.of_error hready hrun
  | ok _ w' =>
    obtain ⟨rec, hcontinues, hstore⟩ := hsteady.of_ok hready hrun
    obtain ⟨o', x, hprior, hhash, hversion⟩ := hcontinues o rfl
    rw [hrun] at hw
    obtain ⟨-, ⟨b, o₁, n, hrecorded⟩, -⟩ := hw
    rw [hstore] at hrecorded
    exact hbad ((Recording.supersedable hprior hrecorded).of_eq hhash hversion)

/-- Recording a ballot is all or nothing if and only if, should the ballot be admissible, every
owner row of the voter that a run may go by leads to the right row. -/
theorem allOrNothing_iff (eid : CStr bbIdLen) (ballot : BbBallot) (t : Tables) :
    AllOrNothing eid ballot t ↔
      ((∃ e opt, Admissible eid.bytes ballot t e opt) →
        ∀ o ∈ t.ownersOf eid.bytes ballot.certName.bytes, o.version.val + 1 < 2 ^ 31 →
          Supersedable eid.bytes ballot t o) := by
  constructor
  · rintro h ⟨e, opt, hadm⟩ o ho hver
    exact h.supersedable hadm ho hver
  · rintro h w htxn rfl
    have hidle : ∃ x, w.Idle w.server.store { w.resp with receipt := x } :=
      ⟨w.resp.receipt, htxn, rfl, rfl⟩
    have hcounted : w.Counted w.server.commits := ⟨htxn, rfl⟩
    have hcommits := recordLoop_commits stubCrypto eid ballot .db bbTxnAttempts w.server.commits
    unfold bbRecordBallot
    cases hrun : (recordLoop direct stubCrypto eid ballot .db bbTxnAttempts).run w with
    | error e w' =>
      obtain ⟨htxn', hstore⟩ := (recordLoop_triple eid ballot .db bbTxnAttempts).of_error hidle hrun
      exact ⟨htxn', hstore, (hcommits.of_error hcounted hrun).2⟩
    | ok _ w' =>
      obtain ⟨rec, htxn', hstore, -⟩ :=
        (recordLoop_triple eid ballot .db bbTxnAttempts).of_ok hidle hrun
      refine ⟨htxn', ?_, (hcommits.of_ok hcounted hrun).2⟩
      rw [hstore]
      exact rec.recordedOnce (h ⟨_, _, rec.admissible⟩)

lemma not_allOrNothing {eid : CStr bbIdLen} {ballot : BbBallot}
    (htxn : w.txnConn = none) (hok : succeeds direct eid ballot w = true)
    (hrows : (afterCall direct eid ballot w).server.store.ballots.length =
      w.server.store.ballots.length) : ¬ AllOrNothing eid ballot w.server.store := by
  intro h
  have hw := h w htxn rfl
  unfold succeeds at hok
  unfold afterCall at hrows
  cases hrun : (bbRecordBallot direct stubCrypto eid ballot).run w with
  | error e w' => simp [hrun] at hok
  | ok _ w' =>
    simp only [hrun] at hw hrows
    obtain ⟨-, ⟨b, o, n, hrecorded⟩, -⟩ := hw
    have hlength := hrecorded.ballots.length_eq
    omega

/-- Bob's ballot has got the hash of Ann's. -/
def sharedHash : World Unit :=
  afterCall direct (.ofBytes (ascii "E1")) (smallBallot "bob" "bA")
    (afterCall direct (.ofBytes (ascii "E1")) (smallBallot "ann" "ab") (smallOpen direct))

/-- Ann's second vote succeeds and removes Bob's row: two rows before, two rows after. -/
theorem recording_drops_row_small : sharedHash.server.store.ballots.length = 2 ∧
    succeeds direct (.ofBytes (ascii "E1")) (smallBallot "ann" "n3") sharedHash = true ∧
    ¬ AllOrNothing (.ofBytes (ascii "E1")) (smallBallot "ann" "n3") sharedHash.server.store := by
  have hok :
      succeeds direct (.ofBytes (ascii "E1")) (smallBallot "ann" "n3") sharedHash = true := by
    decide +kernel
  exact ⟨by decide +kernel, hok, not_allOrNothing (by decide +kernel) hok (by decide +kernel)⟩

end BallotBox
