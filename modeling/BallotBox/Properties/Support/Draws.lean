import BallotBox.Properties.Support.Requests

/-!
# How far into the schedule an attempt gets

Every statement sent draws one entry of the schedule.  `Link.Drawn sched c i` is a connection on
which the `i` entries from `c` on were drawn and answered, and `Link.RetriedBy sched c m` says of a
retry that it is one of the `m` entries from `c` on.
-/

namespace BallotBox

open World Link Triple

variable {α : Type} {cert : CStr bbCertLen} {hash : CStr bbHashLen} {version : ℤ}

def AnswersFrom (sched : ℕ → Outcome) (c n : ℕ) : Prop := ∀ i < n, (sched (c + i)).isOk = true

/-- A connection that works, to a server that draws the entry `c` next. -/
structure Link.At (sched : ℕ → Outcome) (c : ℕ) (l : Link Unit) : Prop where
  live : l.conn.failed = none
  sched_eq : l.server.sched = sched
  clock_eq : l.server.clock = c

variable {sched : ℕ → Outcome} {c i m cap : ℕ} {stmt : Stmt}

lemma AnswersFrom.succ (h : AnswersFrom sched c i) (hi : (sched (c + i)).isOk = true) :
    AnswersFrom sched c (i + 1) := by
  intro j hj
  rcases Nat.lt_succ_iff_lt_or_eq.mp hj with hlt | rfl
  · exact h j hlt
  · exact hi

lemma execStmt_at : Triple (At sched c) (execStmt direct cap stmt)
      (fun _ l => (sched c).isOk = true ∧ l.At sched (c + 1))
      (fun e l => e = .retry → sched c = .retry ∧ l.At sched (c + 1)) := by
  rintro l ⟨hlive, rfl, rfl⟩
  rw [EStateM.run, execStmt, dbSocketExec, hlive]
  cases stmt.hasBreak with
  | true => simp [mapStatus]
  | false =>
    simp only [Server.next]
    cases hnext : l.server.sched l.server.clock with
    | lost why => cases why <;> simp [lose, Terminal.status, mapStatus]
    | error => simp [receive, direct, mapStatus]
    | retry => exact fun _ => ⟨rfl, rfl, rfl, rfl⟩
    | ok order =>
      cases hx : l.execute order stmt with
      | none => simp [hx, receive, direct, mapStatus]
      | some out =>
        simp only [hx]
        exact ⟨rfl, rfl, rfl, rfl⟩

def Link.Drawn (sched : ℕ → Outcome) (c i : ℕ) (l : Link Unit) : Prop :=
  AnswersFrom sched c i ∧ l.At sched (c + i)

/-- If the error is a retry, one of the `m` entries from `c` on is to blame, and those before it are
answers. -/
def Link.RetriedBy (sched : ℕ → Outcome) (c m : ℕ) (e : BbErr) (l : Link Unit) : Prop :=
  e = .retry → ∃ n < m, AnswersFrom sched c n ∧ sched (c + n) = .retry ∧ l.At sched (c + n + 1)

/-! ## Commands -/

lemma execStmt_draws (hi : i < m) : Triple (Drawn sched c i) (execStmt direct cap stmt)
      (fun _ => Drawn sched c (i + 1)) (RetriedBy sched c m) := by
  refine fun l hl => execStmt_at.ends ?_ ?_ l hl.2
  · exact fun _ l' h => ⟨hl.1.succ h.1, h.2⟩
  · exact fun e l' h he => ⟨i, hi, hl.1, h he⟩

lemma throw_draws {P : Link Unit → Prop} {Q : α → Link Unit → Prop} :
    Triple P (MonadExcept.throw .db : EStateM BbErr (Link Unit) α) Q (RetriedBy sched c m) :=
  fun _ _ he => by cases he

variable {eid : CStr bbIdLen} {ballot : BbBallot}

lemma runGetElection_draws (hi : i + 3 ≤ m) :
    Triple (Drawn sched c i) (runGetElection direct eid)
      (fun out l => out.found = true → l.Drawn sched c (i + 3)) (RetriedBy sched c m) := by
  refine (execStmt_draws (by omega)).bind fun reply => ?_
  refine Triple.ite (fun _ => throw_draws) fun _ => ?_
  refine Triple.ite (fun _ => (Triple.pure _).pre fun _ _ hfound => by cases hfound) fun _ => ?_
  split
  · split
    · exact throw_draws
    · refine (execStmt_draws (by omega)).bind fun _ => ?_
      refine (execStmt_draws (by omega)).bind fun _ => ?_
      exact (Triple.pure _).pre fun _ hl _ => hl
  · exact throw_draws

lemma runGetPriorBallot_draws (hi : i < m) :
    Triple (Drawn sched c i) (runGetPriorBallot direct eid cert)
      (fun _ => Drawn sched c (i + 1)) (RetriedBy sched c m) := by
  refine (execStmt_draws hi).bind fun reply => ?_
  refine Triple.ite (fun _ => ret _) fun _ => ?_
  split
  · exact ret _
  · exact throw_draws

lemma runMarkSuperseded_draws (hi : i + 3 ≤ m) :
    Triple (Drawn sched c i) (runMarkSuperseded direct eid hash)
      (fun _ => Drawn sched c (i + 3)) (RetriedBy sched c m) := by
  refine (execStmt_draws (by omega)).bind fun reply => ?_
  refine Triple.ite (fun _ => throw_draws) fun _ => ?_
  split
  · refine (execStmt_draws (by omega)).bind fun _ => ?_
    exact (execStmt_draws (by omega)).bind fun _ => ret _
  · exact throw_draws

lemma runSetOwner_draws (hi : i + 2 ≤ m) :
    Triple (Drawn sched c i) (runSetOwner direct eid cert hash version)
      (fun _ => Drawn sched c (i + 2)) (RetriedBy sched c m) := by
  refine (execStmt_draws (by omega)).bind fun _ => ?_
  exact (execStmt_draws (by omega)).bind fun _ => ret _

/-! ## The attempt -/

abbrev World.Drawn (sched : ℕ → Outcome) (c i : ℕ) : World Unit → Prop :=
  World.OnTxn (Link.Drawn sched c i)

abbrev World.RetriedBy (sched : ℕ → Outcome) (c m : ℕ) (e : BbErr) : World Unit → Prop :=
  World.OnTxn (Link.RetriedBy sched c m e)

lemma refuse_draws {Q : α → World Unit → Prop} {e : BbErr} (he : e ≠ .retry) :
    Triple (World.Drawn sched c i) (MonadExcept.throw e : BrainM Unit α) Q
      (RetriedBy sched c m) := by
  rintro w ⟨conn, hconn, -⟩
  exact ⟨conn, hconn, fun hretry => absurd hretry he⟩

lemma admitBallot_draws (hm : 3 ≤ m) :
    Triple (World.Drawn sched c 0) (admitBallot direct stubCrypto eid ballot)
      (fun _ => World.Drawn sched c 3) (RetriedBy sched c m) := by
  have hload : Triple (World.Drawn sched c 0) (loadElection direct eid)
      (fun _ => World.Drawn sched c 3) (RetriedBy sched c m) := by
    refine (dbExec_lift (runGetElection_draws (by omega))).bind fun res => ?_
    rintro w ⟨conn, hconn, hl⟩
    cases hfound : res.found with
    | false => exact ⟨conn, hconn, fun he => by cases he⟩
    | true => exact ⟨conn, hconn, hl hfound⟩
  refine (admitBallot_rule (fun _ _ _ h => h) (fun _ err w herr hw => ?_) hload).post ?_
  · exact refuse_draws (Q := fun (_ : Unit) _ => True) (fun h => nomatch herr h) w hw
  · exact fun _ w ⟨_, _, hw⟩ => hw

lemma writeBallot_draws {opt : ℤ} {prior : DbResult} {receipt : BbReceipt}
    (hm : 5 + (if prior.found then 7 else 4) = m) :
    Triple (World.Drawn sched c 5) (writeBallot direct eid ballot opt prior version receipt)
      (fun _ => World.Drawn sched c m) (RetriedBy sched c m) := by
  have hlast {j : ℕ} (hj : j + 3 = m) : Triple (World.Drawn sched c j) (do
        let _ ← dbExec direct (.setOwner eid ballot.certName receipt.hash version)
        let _ ← dbExec direct (.nonceMark eid ballot.nonce))
      (fun _ => World.Drawn sched c m) (RetriedBy sched c m) := by
    subst hj
    refine (dbExec_lift (runSetOwner_draws (by omega))).bind fun _ => ?_
    exact Triple.bind (dbExec_lift ((execStmt_draws (by omega)).bind fun _ => ret _)) fun _ => ret _
  refine Triple.bind (dbExec_lift ((execStmt_draws (by split_ifs at hm <;> omega)).bind
    fun _ => ret _)) fun _ => ?_
  refine Triple.ite (fun hfound => ?_) fun hfound => hlast (by rw [if_neg hfound] at hm; exact hm)
  rw [if_pos hfound] at hm
  exact (dbExec_lift (runMarkSuperseded_draws (by omega))).bind fun _ => hlast hm

def attemptLength (eid cert : Bytes) (t : Tables) : ℕ := if t.ownersOf eid cert = [] then 9 else 12

/-- An attempt that goes through draws `attemptLength` entries; a retry is due to one of them. -/
theorem recordBallotLocked_draws {t store : Tables} {r : BclResponse}
    (hm : attemptLength eid.bytes ballot.certName.bytes t = m) :
    Triple (fun w => w.InTxn t store r ∧ w.Drawn sched c 0)
      (recordBallotLocked direct stubCrypto eid ballot)
      (fun _ => World.Drawn sched c m) (RetriedBy sched c m) := by
  have hnine : 9 ≤ m := by
    rw [← hm, attemptLength]
    split_ifs <;> omega
  have hadmit : Triple (fun w => w.InTxn t store r ∧ w.Drawn sched c 0)
      (admitBallot direct stubCrypto eid ballot)
      (fun _ w => w.InTxn t store r ∧ w.Drawn sched c 3) (RetriedBy sched c m) :=
    ((admitBallot_triple eid ballot).and (admitBallot_draws (by omega))).ends
      (fun _ _ h => ⟨h.1.2, h.2⟩) fun _ _ h => h.2
  have hseen : Triple (fun w => w.InTxn t store r ∧ w.Drawn sched c 3)
      (dbExec direct (.nonceSeen eid ballot.nonce))
      (fun _ w => w.InTxn t store r ∧ w.Drawn sched c 4) (RetriedBy sched c m) := by
    refine ((dbExec_inTxn _).and (dbExec_lift ((execStmt_draws (by omega)).bind
      fun _ => ret _))).ends ?_ fun _ _ h => h.2
    rintro _ w ⟨⟨t', ⟨rfl, -⟩, htxn⟩, hdrawn⟩
    exact ⟨htxn, hdrawn⟩
  have hprior : Triple (fun w => w.InTxn t store r ∧ w.Drawn sched c 4)
      (dbExec direct (.getPriorBallot eid ballot.certName))
      (fun prior w => 5 + (if prior.found then 7 else 4) = m ∧ w.Drawn sched c 5)
      (RetriedBy sched c m) := by
    refine ((dbExec_inTxn _).and (dbExec_lift (runGetPriorBallot_draws (by omega)))).ends ?_
      fun _ _ h => h.2
    rintro prior w ⟨⟨t', ⟨rfl, ⟨hnone, hfound⟩ | ⟨hfound, o, ho, -⟩⟩, -⟩, hdrawn⟩
    · rw [attemptLength, if_pos hnone] at hm
      exact ⟨by simpa [hfound] using hm, hdrawn⟩
    · rw [attemptLength, if_neg (List.ne_nil_of_mem ho)] at hm
      exact ⟨by simpa [hfound] using hm, hdrawn⟩
  refine hadmit.bind fun opt => hseen.bind fun seen => ?_
  refine Triple.ite (fun _ => (refuse_draws (by simp)).pre fun w hw => hw.2) fun _ => ?_
  refine bind_imp hprior fun prior hcount => ?_
  refine Triple.bind (Q := fun _ => World.Drawn sched c 5) (fun w hw => hw) fun receipt => ?_
  exact writeBallot_draws hcount

end BallotBox
