import BallotBox.Construction.Brain
import BallotBox.Properties.Support.Commands

/-!
# Storage commands inside and outside a transaction

`World.Idle store r` is the world between transactions; `World.InTxn t store r` has a transaction
open whose copy of the tables is `t`; `World.Broken store r` still holds the connection of a
transaction that has seen a failure.
-/

namespace BallotBox

open World EStateM Triple

variable {cmd : DbCmd} {s : Server} {Q : DbResult → Server → Prop}

/-! ## The three kinds of world -/

def World.Idle {ι : Type} (store : Tables) (r : BclResponse) (w : World ι) : Prop :=
  w.txnConn = none ∧ w.server.store = store ∧ w.resp = r

def World.InTxn {ι : Type} (t store : Tables) (r : BclResponse) (w : World ι) : Prop :=
  (∃ c, w.txnConn = some c ∧ c.view = some t) ∧ w.server.store = store ∧ w.resp = r

def World.Broken {ι : Type} (store : Tables) (r : BclResponse) (w : World ι) : Prop :=
  (∃ c, w.txnConn = some c) ∧ w.server.store = store ∧ w.resp = r

lemma World.InTxn.broken {ι : Type} {t store : Tables} {r : BclResponse} {w : World ι}
    (h : w.InTxn t store r) : w.Broken store r :=
  ⟨h.1.imp fun _ hc => hc.1, h.2⟩

lemma bbLogAll_keeps {ι : Type} {P : World ι → Prop} {E : BbErr → World ι → Prop}
    (hP : ∀ w log, P w → P { w with log := log }) (lines : List Bytes) :
    Triple P (bbLogAll lines) (fun _ => P) E :=
  fun w hw => hP w _ hw

lemma bbLog_keeps {ι : Type} {P : World ι → Prop} {E : BbErr → World ι → Prop}
    (hP : ∀ w log, P w → P { w with log := log }) (line : Bytes) :
    Triple P (bbLog line) (fun _ => P) E :=
  bbLogAll_keeps hP [line]

variable {t store : Tables} {r : BclResponse} {α : Type}

/-! ## Any property of the connection -/

section Lifting

variable {ι : Type} {ch : Channel ι} {P : Link ι → Prop} {S : Server → Prop}
  {T : BbErr → Server → Prop}

def World.OnTxn (P : Link ι → Prop) (w : World ι) : Prop :=
  ∃ c, w.txnConn = some c ∧ P ⟨c, w.server⟩

def World.Between (S : Server → Prop) (w : World ι) : Prop := w.txnConn = none ∧ S w.server

lemma onTxn_lift {x : EStateM BbErr (Link ι) α} {Q : α → Link ι → Prop}
    {E : BbErr → Link ι → Prop} {c : Conn ι} (hx : Triple P x Q E) :
    Triple (fun w => P ⟨c, w.server⟩) (onTxn c x) (fun a => OnTxn (Q a))
      (fun e => OnTxn (E e)) := by
  intro w hw
  cases hrun : x ⟨c, w.server⟩ with
  | ok a l =>
    simp only [run, onTxn, hrun]
    exact ⟨l.conn, rfl, hx.of_ok hw hrun⟩
  | error e l =>
    simp only [run, onTxn, hrun]
    exact ⟨l.conn, rfl, hx.of_error hw hrun⟩

lemma dbExec_lift {Q : DbResult → Link ι → Prop} {E : BbErr → Link ι → Prop}
    (hx : Triple P (runOp ch cmd) Q E) :
    Triple (OnTxn P) (dbExec ch cmd) (fun out => OnTxn (Q out)) (fun e => OnTxn (E e)) := by
  refine (bbLog_keeps (fun _ _ h => h) _).bind fun _ => get_bind fun w hw => ?_
  obtain ⟨c, hc, hP⟩ := hw
  rw [hc]
  exact (onTxn_lift hx).pre fun w' hw' => hw' ▸ hP

/-- Opening a connection: the server cannot be reached, or there is a new connection with the
property `P`. -/
def Opens (ch : Channel ι) (S : Server → Prop) (P : Link ι → Prop) (T : BbErr → Server → Prop) :
    Prop :=
  ∀ s, S s → (∃ why, s.next = .lost why) ∧ T .db s.tick ∨
    (∀ why, s.next ≠ .lost why) ∧ P ⟨⟨none, ch.fresh, none⟩, s.tick⟩

lemma dbSocketOpen_eq {ι : Type} (ch : Channel ι) (s : Server) :
    dbSocketOpen ch s = (none, s.tick) ∨
    dbSocketOpen ch s = (some ⟨none, ch.fresh, none⟩, s.tick) := by
  unfold dbSocketOpen
  split
  · exact .inl rfl
  · exact .inr rfl

lemma opens_of_tick (hlost : ∀ s, S s → T .db s.tick)
    (hfresh : ∀ s, S s → P ⟨⟨none, ch.fresh, none⟩, s.tick⟩) : Opens ch S P T := by
  intro s hs
  by_cases hnext : ∃ why, s.next = .lost why
  · exact .inl ⟨hnext, hlost s hs⟩
  · exact .inr ⟨not_exists.mp hnext, hfresh s hs⟩

lemma dbSocketOpen_of_lost {why : Terminal} (h : s.next = .lost why) :
    dbSocketOpen ch s = (none, s.tick) := by
  rw [dbSocketOpen, h]

lemma dbSocketOpen_of_ne (h : ∀ why, s.next ≠ .lost why) :
    dbSocketOpen ch s = (some ⟨none, ch.fresh, none⟩, s.tick) := by
  unfold dbSocketOpen
  split
  · exact absurd ‹_› (h _)
  · rfl

lemma bbDbBegin_lift {Q : Link ι → Prop} (hopen : Opens ch S P T)
    (hx : Triple P (execStmt ch 0 .setTransaction) (fun _ => Q) (fun e l => T e l.server)) :
    Triple (Between S) (bbDbBegin ch) (fun _ => OnTxn Q) (fun e => Between (T e)) := by
  rintro w ⟨htxn, hS⟩
  obtain ⟨⟨why, hlost⟩, hT⟩ | ⟨hnext, hP⟩ := hopen _ hS
  · simp only [run, bbDbBegin, htxn, dbSocketOpen_of_lost hlost]
    exact ⟨rfl, hT⟩
  · cases hrun : execStmt ch 0 .setTransaction ⟨⟨none, ch.fresh, none⟩, w.server.tick⟩ with
    | ok a l =>
      simp only [run, bbDbBegin, htxn, dbSocketOpen_of_ne hnext, hrun]
      exact ⟨l.conn, rfl, hx.of_ok hP hrun⟩
    | error e l =>
      simp only [run, bbDbBegin, htxn, dbSocketOpen_of_ne hnext, hrun]
      exact ⟨rfl, hx.of_error hP hrun⟩

lemma onFresh_lift {x : EStateM BbErr (Link ι) α} {Q : α → Server → Prop} (hopen : Opens ch S P T)
    (hx : Triple P x (fun a l => Q a l.server) (fun e l => T e l.server)) :
    Triple (Between S) (onFresh ch x) (fun a => Between (Q a)) (fun e => Between (T e)) := by
  rintro w ⟨htxn, hS⟩
  obtain ⟨⟨why, hlost⟩, hT⟩ | ⟨hnext, hP⟩ := hopen _ hS
  · simp only [run, onFresh, dbSocketOpen_of_lost hlost]
    exact ⟨htxn, hT⟩
  · cases hrun : x ⟨⟨none, ch.fresh, none⟩, w.server.tick⟩ with
    | ok a l =>
      simp only [run, onFresh, dbSocketOpen_of_ne hnext, hrun]
      exact ⟨htxn, hx.of_ok hP hrun⟩
    | error e l =>
      simp only [run, onFresh, dbSocketOpen_of_ne hnext, hrun]
      exact ⟨htxn, hx.of_error hP hrun⟩

lemma dbExec_alone (hx : Triple (Between S) (oneShotAttempt ch cmd) (fun out => Between (Q out))
      (fun e => Between (T e)))
    (hretry : ∀ s, T .retry s → S s) {U : Server → Prop} (hT : ∀ e s, T e s → U s)
    (hS : ∀ s, S s → U s) :
    Triple (Between S) (dbExec ch cmd) (fun out => Between (Q out)) (fun _ => Between U) := by
  have hself (attempts : ℕ) : Triple (Between S) (selfRetry ch cmd attempts)
      (fun out => Between (Q out)) (fun _ => Between U) := by
    induction attempts with
    | zero => exact (Triple.throw _).pre fun w hw => ⟨hw.1, hS _ hw.2⟩
    | succ attempts ih =>
      refine attempt_bind hx (fun _ _ hw => hw) fun e => ?_
      cases e with
      | retry => exact ih.pre fun w hw => ⟨hw.1, hretry _ hw.2⟩
      | _ => exact (Triple.throw _).pre fun w hw => ⟨hw.1, hT _ _ hw.2⟩
  refine (bbLog_keeps (fun _ _ h => h) _).bind fun _ => get_bind fun w hw => ?_
  rw [hw.1]
  exact (hself selfRetryAttempts).pre fun w' hw' => hw' ▸ hw

lemma dbExec_alone_returns
    (hx : Triple (Between S) (oneShotAttempt ch cmd) (fun out => Between (Q out))
      (fun _ _ => False)) :
    Triple (Between S) (dbExec ch cmd) (fun out => Between (Q out)) (fun _ _ => False) := by
  refine (bbLog_keeps (fun _ _ h => h) _).bind fun _ => get_bind fun w hw => ?_
  rw [hw.1]
  exact (attempt_bind hx (fun _ _ hw => hw) fun _ _ hw => hw.elim).pre fun w' hw' => hw' ▸ hw

lemma bbDbCommit_lift
    (hx : Triple P (execStmt ch 0 .commit) (fun _ l => S l.server) (fun e l => T e l.server)) :
    Triple (OnTxn P) (bbDbCommit ch) (fun _ => Between S) (fun e => Between (T e)) := by
  rintro w ⟨c, hc, hP⟩
  cases hrun : execStmt ch 0 .commit ⟨c, w.server⟩ with
  | ok a l =>
    simp only [run, bbDbCommit, hc, hrun]
    exact ⟨rfl, hx.of_ok hP hrun⟩
  | error e l =>
    simp only [run, bbDbCommit, hc, hrun]
    exact ⟨rfl, hx.of_error hP hrun⟩

lemma bbDbRollback_lift {E : BbErr → World ι → Prop}
    (hx : Triple P (execStmt ch 0 .rollback) (fun _ l => S l.server) (fun _ l => S l.server)) :
    Triple (OnTxn P) (bbDbRollback ch) (fun _ => Between S) E := by
  rintro w ⟨c, hc, hP⟩
  cases hrun : execStmt ch 0 .rollback ⟨c, w.server⟩ with
  | ok a l =>
    simp only [run, bbDbRollback, hc, hrun]
    exact ⟨rfl, hx.of_ok hP hrun⟩
  | error e l =>
    simp only [run, bbDbRollback, hc, hrun]
    exact ⟨rfl, hx.of_error hP hrun⟩

/-! ## The response -/

variable {R : BclResponse → Prop}

lemma onFresh_keeps_resp (x : EStateM BbErr (Link ι) α) :
    Invariant (fun w => R w.resp) (onFresh ch x) := by
  intro w hw
  rcases dbSocketOpen_eq ch w.server with hopen | hopen
  · simpa only [run, onFresh, hopen] using hw
  · cases hrun : x ⟨⟨none, ch.fresh, none⟩, w.server.tick⟩ with
    | ok a l => simpa only [run, onFresh, hopen, hrun] using hw
    | error e l => simpa only [run, onFresh, hopen, hrun] using hw

lemma dbExec_keeps_resp (cmd : DbCmd) : Invariant (fun w => R w.resp) (dbExec ch cmd) := by
  have hself (attempts : ℕ) : Invariant (fun w => R w.resp) (selfRetry ch cmd attempts) := by
    induction attempts with
    | zero => exact raise _
    | succ attempts ih =>
      refine attempt_bind (onFresh_keeps_resp _) (fun _ => ret _) fun e => ?_
      cases e with
      | retry => exact ih
      | _ => exact raise _
  refine (bbLog_keeps (fun _ _ h => h) _).bind fun _ => get_bind fun w hw => ?_
  cases htxn : w.txnConn with
  | none => exact (hself _).pre fun w' hw' => hw' ▸ hw
  | some c =>
    rintro w' rfl
    cases hrun : runOp ch cmd ⟨c, w'.server⟩ with
    | ok out l => simpa only [run, onTxn, hrun] using hw
    | error e l => simpa only [run, onTxn, hrun] using hw

lemma bbDbBegin_keeps_resp : Invariant (fun w => R w.resp) (bbDbBegin ch) := by
  intro w hw
  cases htxn : w.txnConn with
  | some c => simpa only [run, bbDbBegin, htxn] using hw
  | none =>
    rcases dbSocketOpen_eq ch w.server with hopen | hopen
    · simpa only [run, bbDbBegin, htxn, hopen] using hw
    · cases hrun : execStmt ch 0 .setTransaction ⟨⟨none, ch.fresh, none⟩, w.server.tick⟩ with
      | ok a l => simpa only [run, bbDbBegin, htxn, hopen, hrun] using hw
      | error e l => simpa only [run, bbDbBegin, htxn, hopen, hrun] using hw

lemma bbDbCommit_keeps_resp : Invariant (fun w => R w.resp) (bbDbCommit ch) := by
  intro w hw
  cases htxn : w.txnConn with
  | none => simpa only [run, bbDbCommit, htxn] using hw
  | some c =>
    cases hrun : execStmt ch 0 .commit ⟨c, w.server⟩ with
    | ok a l => simpa only [run, bbDbCommit, htxn, hrun] using hw
    | error e l => simpa only [run, bbDbCommit, htxn, hrun] using hw

lemma bbDbRollback_keeps_resp {E : BbErr → World ι → Prop} :
    Triple (fun w => R w.resp) (bbDbRollback ch) (fun _ w => R w.resp) E := by
  intro w hw
  cases htxn : w.txnConn with
  | none => simpa only [run, bbDbRollback, htxn] using hw
  | some c =>
    cases hrun : execStmt ch 0 .rollback ⟨c, w.server⟩ with
    | ok a l => simpa only [run, bbDbRollback, htxn, hrun] using hw
    | error e l => simpa only [run, bbDbRollback, htxn, hrun] using hw

end Lifting

/-! ## Commands in an explicit transaction -/

theorem dbExec_inTxn (cmd : DbCmd) : Triple (InTxn t store r) (dbExec direct cmd)
      (fun out w => ∃ t', cmd.Means t out t' ∧ w.InTxn t' store r)
      (fun e w => e.Store ∧ w.Broken store r) := by
  have hop : Writes cmd t store (runOp direct cmd) := runOp_inTxn cmd
  refine ((dbExec_lift hop).and (dbExec_keeps_resp (R := (· = r)) cmd)).conseq ?_ ?_ ?_
  · rintro w ⟨⟨c, hc, hview⟩, hstore, hresp⟩
    exact ⟨⟨c, hc, hview, hstore⟩, hresp⟩
  · rintro out w ⟨⟨c, hc, t', hmeans, hsees⟩, hresp⟩
    exact ⟨t', hmeans, ⟨c, hc, hsees.view_eq⟩, hsees.store_eq, hresp⟩
  · rintro e w ⟨⟨c, hc, he, hstores⟩, hresp⟩
    exact ⟨he, ⟨c, hc⟩, hstores, hresp⟩

/-! ## Commands on a connection of their own -/

lemma opens_stores : Opens direct (fun s => s.store = store) (Link.Sees none store)
    (fun e s => e.Store ∧ s.store = store) :=
  opens_of_tick (fun _ hs => ⟨.inl rfl, hs⟩) fun _ hs => ⟨rfl, hs⟩

lemma onFresh_triple {x : EStateM BbErr (Link Unit) α} {R : α → Tables → Prop}
    (hx : Triple (Link.Sees none store) x (fun a l => ∃ t', R a t' ∧ l.Stores t')
      (Link.Fails store)) :
    Triple (Idle store r) (onFresh direct x) (fun a w => ∃ t', R a t' ∧ w.Idle t' r)
      (fun e w => e.Store ∧ w.Idle store r) := by
  refine ((onFresh_lift (Q := fun a s => ∃ t', R a t' ∧ s.store = t') opens_stores hx).and
    (onFresh_keeps_resp (R := (· = r)) x)).conseq (fun w hw => ⟨⟨hw.1, hw.2.1⟩, hw.2.2⟩) ?_ ?_
  · rintro a w ⟨⟨htxn, t', hR, hstore⟩, hresp⟩
    exact ⟨t', hR, htxn, hstore, hresp⟩
  · rintro e w ⟨⟨htxn, he, hstore⟩, hresp⟩
    exact ⟨he, htxn, hstore, hresp⟩

lemma wrapWrite_lift {ι : Type} {ch : Channel ι} {x : EStateM BbErr (Link ι) DbResult}
    {P P' : Link ι → Prop} {Q D : DbResult → Link ι → Prop} {E : BbErr → Link ι → Prop}
    (hset : Triple P (execStmt ch 0 .setTransaction) (fun _ => P') E) (hx : Triple P' x Q E)
    (hcommit : ∀ out, Triple (Q out) (execStmt ch 0 .commit) (fun _ => D out) E)
    (hrollback : ∀ e, Invariant (E e) (execStmt ch 0 .rollback)) :
    Triple P (wrapWrite ch x) D E := by
  refine attempt_bind (hset.bind fun _ => hx)
    (fun out => (hcommit out).bind fun _ => Triple.pure out) fun e => ?_
  -- a retry passes the error on, anything else rolls back first
  have hback : Triple (E e) (attempt (execStmt ch 0 .rollback) >>= fun _ => throw e) D E :=
    attempt_bind (hrollback e) (fun _ => Triple.throw e) fun _ => Triple.throw e
  cases e with
  | retry => exact Triple.throw BbErr.retry
  | _ => exact hback

lemma wrapWrite_triple {x : EStateM BbErr (Link Unit) DbResult} (hx : Writes cmd store store x) :
    Triple (Link.Sees none store) (wrapWrite direct x)
      (fun out l => ∃ t', cmd.Means store out t' ∧ l.Stores t') (Link.Fails store) := by
  refine wrapWrite_lift execStmt_setTransaction hx (fun out => ?_) fun e => of_imp fun he =>
    execStmt_rollback.ends (fun _ _ hl => ⟨he, hl⟩) fun _ _ hl => ⟨he, hl⟩
  refine exists_elim fun t' => of_imp fun hmeans => ?_
  exact execStmt_commit.post fun _ l hl => ⟨t', hmeans, hl⟩

lemma oneShotAttempt_triple (cmd : DbCmd) : Triple (Idle store r) (oneShotAttempt direct cmd)
      (fun out w => ∃ t', cmd.Means store out t' ∧ w.Idle t' r)
      (fun e w => e.Store ∧ w.Idle store r) := by
  refine onFresh_triple (Triple.ite (fun _ => wrapWrite_triple (runOp_inTxn cmd)) fun hread => ?_)
  refine (runOp_read (by simpa using hread)).post ?_
  exact fun out l ⟨hmeans, hl⟩ => ⟨store, hmeans, hl.store_eq⟩

lemma selfRetry_triple (cmd : DbCmd) (attempts : ℕ) :
    Triple (Idle store r) (selfRetry direct cmd attempts)
      (fun out w => ∃ t', cmd.Means store out t' ∧ w.Idle t' r)
      (fun e w => e = .db ∧ w.Idle store r) := by
  induction attempts with
  | zero => exact (Triple.throw _).pre fun _ hw => ⟨rfl, hw⟩
  | succ attempts ih =>
    refine attempt_bind (oneShotAttempt_triple cmd) (fun _ _ hw => hw) fun e => ?_
    refine of_imp ?_
    rintro (rfl | rfl)
    · exact (Triple.throw _).pre fun _ hw => ⟨rfl, hw⟩
    · exact ih

theorem dbExec_idle (cmd : DbCmd) : Triple (Idle store r) (dbExec direct cmd)
      (fun out w => ∃ t', cmd.Means store out t' ∧ w.Idle t' r)
      (fun e w => e = .db ∧ w.Idle store r) := by
  refine (bbLog_keeps (fun _ _ h => h) _).bind fun _ => get_bind fun w hw => ?_
  rw [hw.1]
  exact (selfRetry_triple cmd selfRetryAttempts).pre fun w' hw' => hw' ▸ hw

/-! ## Explicit transactions -/

lemma bbDbBegin_triple : Triple (Idle store r) (bbDbBegin direct)
      (fun _ => InTxn store store r) (fun e w => e.Store ∧ w.Idle store r) := by
  refine ((bbDbBegin_lift opens_stores execStmt_setTransaction).and
    (bbDbBegin_keeps_resp (R := (· = r)))).conseq (fun w hw => ⟨⟨hw.1, hw.2.1⟩, hw.2.2⟩) ?_ ?_
  · rintro _ w ⟨⟨c, hc, hsees⟩, hresp⟩
    exact ⟨⟨c, hc, hsees.view_eq⟩, hsees.store_eq, hresp⟩
  · rintro e w ⟨⟨htxn, he, hstore⟩, hresp⟩
    exact ⟨he, htxn, hstore, hresp⟩

lemma bbDbCommit_triple : Triple (InTxn t store r) (bbDbCommit direct)
      (fun _ => Idle t r) (fun e w => e.Store ∧ w.Idle store r) := by
  refine ((bbDbCommit_lift (S := fun s => s.store = t)
    (T := fun e s => e.Store ∧ s.store = store) execStmt_commit).and
    (bbDbCommit_keeps_resp (R := (· = r)))).conseq ?_ ?_ ?_
  · rintro w ⟨⟨c, hc, hview⟩, hstore, hresp⟩
    exact ⟨⟨c, hc, hview, hstore⟩, hresp⟩
  · rintro _ w ⟨⟨htxn, hstore⟩, hresp⟩
    exact ⟨htxn, hstore, hresp⟩
  · rintro e w ⟨⟨htxn, he, hstore⟩, hresp⟩
    exact ⟨he, htxn, hstore, hresp⟩

lemma bbDbRollback_triple {E : BbErr → World Unit → Prop} :
    Triple (Broken store r) (bbDbRollback direct) (fun _ => Idle store r) E := by
  refine ((bbDbRollback_lift (S := fun s => s.store = store) (E := fun _ _ => False)
    execStmt_rollback).and (bbDbRollback_keeps_resp (R := (· = r))
      (E := fun _ _ => True))).conseq ?_ ?_ fun _ _ h => h.1.elim
  · rintro w ⟨⟨c, hc⟩, hstore, hresp⟩
    exact ⟨⟨c, hc, hstore⟩, hresp⟩
  · rintro _ w ⟨⟨htxn, hstore⟩, hresp⟩
    exact ⟨htxn, hstore, hresp⟩

end BallotBox
