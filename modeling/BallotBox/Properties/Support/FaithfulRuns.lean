import BallotBox.Properties.Support.ReadableTables
import BallotBox.Properties.Support.Runs

/-!
# Runs over the text protocol

On readable tables a request is handled over the text protocol as it is when answers arrive as they
are (`ballotdDispatch_onWire`), and so is a run all of whose requests find readable tables
(`run_onWire`): one statement is (`select_agrees`, `execStmt_discards`), hence every command and
every handler.
-/

namespace BallotBox

open Link List World

/-! ## One statement -/

/-- A connection of the text protocol with nothing unread. -/
def Conn.onWire (c : Conn Unit) : Conn Bytes := ⟨c.view, [], c.failed⟩

/-- A link of the text protocol with nothing unread. -/
def Link.onWire (l : Link Unit) : Link Bytes := ⟨l.conn.onWire, l.server⟩

/-- The world with nothing unread on the transaction's connection. -/
def World.onWire (w : World Unit) : World Bytes :=
  ⟨w.server, w.txnConn.map Conn.onWire, w.log, w.resp⟩

variable {cap : ℕ} {stmt : Stmt} {view : Option Tables} {store t : Tables} {r : BclResponse}

lemma execute_onWire (l : Link Unit) (order : RowOrder) (stmt : Stmt) :
    l.onWire.execute order stmt = l.execute order stmt := by
  cases stmt <;> rfl

/-- A statement agrees if every answer to it is read as `R` demands. -/
lemma execStmt_mirrors {P : Link Unit → Prop} {R : Reply → Reply → Prop}
    (hread : ∀ l order view store answer, P l → l.execute order stmt = some (view, store, answer) →
      ∃ reply, wire.deliver cap [] (.ok answer) = ((.ok, reply), []) ∧ R answer.reply reply) :
    Mirrors Link.onWire P R (execStmt direct cap stmt) (execStmt wire cap stmt) := by
  intro l hl
  have hfailed : l.onWire.conn.failed = l.conn.failed := rfl
  have hnext : l.onWire.server.next = l.server.next := rfl
  have hinbox : l.onWire.conn.inbox = [] := rfl
  simp only [EStateM.run, execStmt, dbSocketExec, hfailed, hnext, execute_onWire]
  cases l.conn.failed with
  | some why => cases why <;> exact ⟨rfl, rfl⟩
  | none =>
    dsimp only
    split_ifs
    · exact ⟨rfl, rfl⟩
    cases l.server.next with
    | lost why => cases why <;> exact ⟨rfl, rfl⟩
    | error =>
      simp only [receive, hinbox, wire_deliver_error]
      exact ⟨rfl, rfl⟩
    | retry =>
      simp only [receive, hinbox, wire_deliver_retry]
      exact ⟨rfl, rfl⟩
    | ok order =>
      dsimp only
      cases hx : l.execute order stmt with
      | none =>
        simp only [receive, hinbox, wire_deliver_error]
        exact ⟨rfl, rfl⟩
      | some result =>
        obtain ⟨view, store, answer⟩ := result
        obtain ⟨reply, hreply, hR⟩ := hread l order view store answer hl hx
        simp only [receive, hinbox, hreply]
        exact ⟨hR, rfl⟩

/-- A select whose reply is carried gives the same rows. -/
lemma select_agrees (hsel : stmt.isSelect = true)
    (hcarried : ∀ rows, stmt.run (view.getD store) = some (view.getD store, rows) →
      Carried cap stmt.desc rows) :
    Agrees Link.onWire (Sees view store) (execStmt direct cap stmt) (execStmt wire cap stmt) := by
  refine execStmt_mirrors fun l order v s answer hl hx => ?_
  have hdata : stmt.isData = true := by cases stmt <;> first | rfl | cases hsel
  obtain ⟨rows, hrun⟩ : ∃ rows, stmt.run (view.getD store) = some (view.getD store, rows) := by
    cases stmt <;> first | exact ⟨_, rfl⟩ | cases hsel
  obtain rfl : Answer.table stmt.desc (order.apply rows) = answer := by
    rw [execute_data hdata, runData, hl.view_eq, hl.store_eq] at hx
    cases view <;> simp_all
  exact ⟨_, wire_deliver_carried ((hcarried rows hrun).perm (order.perm rows)), rfl⟩

/-- A statement whose reply is thrown away does the same. -/
lemma execStmt_discards (stmt : Stmt) (hsel : stmt.isSelect = false) :
    Mirrors Link.onWire (fun _ => True) (fun _ _ => True) (execStmt direct 0 stmt)
      (execStmt wire 0 stmt) := by
  refine execStmt_mirrors fun l order v s answer _ hx => ?_
  have hcount (t t' : Tables) (rows : List Row) (hdata : stmt.isData = true)
      (hrun : stmt.run t = some (t', rows)) : ∃ n, rows = countReply n := by
    cases stmt with
    | insertElection _ _ _ _ _ _ | insertOption _ _ _ | insertEligible _ _ | insertBallot _ _ _ _ _
    | insertOwner _ _ _ _ | insertNonce _ _ =>
      refine ⟨1, ?_⟩
      simp only [Stmt.run, Option.bind_eq_bind, Option.bind_eq_some_iff, Option.some.injEq,
        Prod.mk.injEq] at hrun
      grind
    | deleteElection _ | deleteBallot _ _ | deleteOwner _ _ =>
      exact ⟨_, (Prod.mk.inj (Option.some.inj hrun)).2.symm⟩
    | setTransaction | commit | rollback => cases hdata
    | _ => cases hsel
  have hnote {line : Bytes} (h : lf ∉ line ∧ ¬ dbMarkEnd <+: wireLine line) :
      ∃ reply, wire.deliver 0 [] (.ok (.note line)) = ((.ok, reply), []) ∧ True := by
    obtain ⟨reply, hreply⟩ := wire_deliver_note line h 0
    exact ⟨reply, hreply, trivial⟩
  have hdata (h : stmt.isData = true) : ∃ reply, wire.deliver 0 [] (.ok answer) =
      ((.ok, reply), []) ∧ True := by
    rw [execute_data h, runData] at hx
    cases hv : l.conn.view with
    | none =>
      rw [hv] at hx
      obtain ⟨⟨t', rows⟩, hrun, hx⟩ := Option.map_eq_some_iff.mp hx
      obtain ⟨n, rfl⟩ := hcount _ _ _ h hrun
      obtain ⟨-, -, rfl⟩ : _ ∧ _ ∧ _ = answer := by simpa using hx
      obtain ⟨reply, hreply⟩ := wire_deliver_count stmt.desc order n 0
      exact ⟨reply, hreply, trivial⟩
    | some t =>
      rw [hv] at hx
      obtain ⟨⟨t', rows⟩, hrun, hx⟩ := Option.map_eq_some_iff.mp hx
      obtain ⟨n, rfl⟩ := hcount _ _ _ h hrun
      obtain ⟨-, -, rfl⟩ : _ ∧ _ ∧ _ = answer := by simpa using hx
      obtain ⟨reply, hreply⟩ := wire_deliver_count stmt.desc order n 0
      exact ⟨reply, hreply, trivial⟩
  cases stmt with
  | setTransaction | commit | rollback =>
    cases hv : l.conn.view <;> simp only [execute, hv, Option.map_some, Option.map_none,
      Option.some.injEq, Prod.mk.injEq, reduceCtorEq] at hx
    all_goals
      obtain ⟨-, -, rfl⟩ := hx
      exact hnote (by decide)
  | _ => exact hdata rfl

/-! ## Commands -/

variable {eid : CStr bbIdLen} {cmd : DbCmd}

lemma select_readable (h : (view.getD store).Readable) (hsel : stmt.isSelect = true) :
    Agrees Link.onWire (Sees view store) (execStmt direct bodyMax stmt)
      (execStmt wire bodyMax stmt) :=
  select_agrees hsel fun rows hrun => (h stmt rows hsel hrun).mono (by decide)

lemma runInsertElection_agrees (eid : CStr bbIdLen) (cfg : BbConfig) :
    Agrees Link.onWire (fun _ => True) (runInsertElection direct eid cfg)
      (runInsertElection wire eid cfg) := by
  refine .ite (fun _ => .throw _) fun _ => .discard (execStmt_discards _ rfl) ?_
  refine .andThen (.forM (fun _ => ?_) _) fun _ => .andThen (.forM (fun _ => ?_) _) fun _ => .pure _
  · exact .ite (fun _ => .throw _) fun _ => .discard (execStmt_discards _ rfl) (.pure _)
  · exact .ite (fun _ => .throw _) fun _ => .discard (execStmt_discards _ rfl) (.pure _)

lemma runGetElection_agrees (h : (view.getD store).Readable) :
    Agrees Link.onWire (Sees view store) (runGetElection direct eid) (runGetElection wire eid) := by
  have hkeeps {stmt : Stmt} {rows : Tables → List Row} (hdata : stmt.isData = true)
      (hsel : ∀ t, stmt.run t = some (t, rows t)) : Triple (Sees view store)
      (execStmt direct bodyMax stmt) (fun _ => Sees view store) (Fails store) :=
    (execStmt_select hdata hsel).post fun _ _ hl => hl.2
  refine (select_readable h rfl).bind (hkeeps rfl fun _ => rfl) fun reply => ?_
  refine .ite (fun _ => .throw _) fun _ => .ite (fun _ => .pure _) fun _ => ?_
  split
  · split
    · exact .throw _
    · refine (select_readable h rfl).bind (hkeeps rfl fun _ => rfl) fun options => ?_
      exact (select_readable h rfl).andThen fun eligible => .pure _
  · exact .throw _

/-- What a command needs of the tables it finds. -/
def DbCmd.ReadableIn (t : Tables) : DbCmd → Prop
  | .insertElection .. | .appendBallot .. | .nonceMark .. | .setOwner .. => True
  | .markSuperseded eid hash => Carried bodyMax (Stmt.selectBallot eid.bytes hash.bytes).desc
      ((t.ballotsWith eid.bytes hash.bytes).map fun b => [b.optionIndex.render, b.version.render])
  | _ => t.Readable

/-- Every storage command does the same over both channels. -/
lemma runOp_agrees (view : Option Tables) (store : Tables) (h : cmd.ReadableIn (view.getD store)) :
    Agrees Link.onWire (Sees view store) (runOp direct cmd) (runOp wire cmd) := by
  have hdiscard {stmt : Stmt} (hsel : stmt.isSelect = false) : Mirrors Link.onWire (Sees view store)
      (fun _ _ => True) (execStmt direct 0 stmt) (execStmt wire 0 stmt) :=
    (execStmt_discards _ hsel).pre fun _ _ => trivial
  cases cmd with
  | insertElection eid cfg => exact (runInsertElection_agrees eid cfg).pre fun _ _ => trivial
  | getElection eid => exact runGetElection_agrees h
  | updateState eid state =>
    refine (select_readable h rfl).andThen fun _ => .ite (fun _ => .throw _) fun _ => ?_
    split
    · exact .discard (execStmt_discards _ rfl) (.discard (execStmt_discards _ rfl) (.pure _))
    · exact .throw _
  | markSuperseded eid hash =>
    have hselect : Agrees Link.onWire (Sees view store) (execStmt direct bodyMax
        (.selectBallot eid.bytes hash.bytes)) (execStmt wire bodyMax _) :=
      select_agrees rfl fun rows hrun => (Prod.mk.inj (Option.some.inj hrun)).2 ▸ h
    refine hselect.andThen fun _ => .ite (fun _ => .throw _) fun _ => ?_
    split
    · exact .discard (execStmt_discards _ rfl) (.discard (execStmt_discards _ rfl) (.pure _))
    · exact .throw _
  | appendBallot eid row => exact .discard (hdiscard rfl) (.pure _)
  | nonceMark eid nonce => exact .discard (hdiscard rfl) (.pure _)
  | setOwner eid cert hash version =>
    exact .discard (hdiscard rfl) (.discard (execStmt_discards _ rfl) (.pure _))
  | getTally eid => exact (select_readable h rfl).andThen fun _ => .pure _
  | getHashes eid => exact (select_readable h rfl).andThen fun _ => .pure _
  | nonceSeen eid nonce => exact (select_readable h rfl).andThen fun _ => .pure _
  | findHash eid hash =>
    refine (select_readable h rfl).andThen fun _ => .ite (fun _ => .pure _) fun _ => ?_
    split
    · exact .pure _
    · exact .throw _
  | getPriorBallot eid cert =>
    refine (select_readable h rfl).andThen fun _ => .ite (fun _ => .pure _) fun _ => ?_
    split
    · exact .pure _
    · exact .throw _

lemma wrapWrite_agrees {x : EStateM BbErr (Link Unit) DbResult}
    {y : EStateM BbErr (Link Bytes) DbResult}
      (h : Agrees Link.onWire (Sees (some store) store) x y) :
    Agrees Link.onWire (Sees none store) (wrapWrite direct x) (wrapWrite wire y) := by
  have hbegin : Agrees Link.onWire (Sees none store)
      (do
        let _ ← execStmt direct 0 .setTransaction
        x)
      (do
        let _ ← execStmt wire 0 .setTransaction
        y) :=
    Mirrors.bind_rel ((execStmt_discards _ rfl).pre fun _ _ => trivial) execStmt_setTransaction
      fun _ _ _ => h
  refine hbegin.attempt_bind Triple.ends_anyhow ?_ fun e => ?_
  · rintro out _ rfl
    exact .discard (execStmt_discards _ rfl) (.pure _)
  · have hback : Mirrors Link.onWire (fun _ => True) Eq
        (attempt (execStmt direct 0 .rollback) >>= fun _ => throw e)
        (attempt (execStmt wire 0 .rollback) >>= fun _ => throw e :
          EStateM BbErr (Link Bytes) DbResult) :=
      (execStmt_discards _ rfl).attempt_bind Triple.ends_anyhow (fun _ _ _ => .throw _)
        fun _ => .throw _
    cases e with
    | retry => exact .throw _
    | _ => exact hback

/-! ## Connections of the brain -/

variable {α : Type} {x : EStateM BbErr (Link Unit) α} {y : EStateM BbErr (Link Bytes) α}
  {P : Link Unit → Prop}

lemma onTxn_agrees (h : Agrees Link.onWire P x y) (c : Conn Unit) :
    Agrees World.onWire (fun w => P ⟨c, w.server⟩) (onTxn c x) (onTxn c.onWire y) := by
  intro w hw
  have hstart : (⟨c.onWire, w.onWire.server⟩ : Link Bytes) = Link.onWire ⟨c, w.server⟩ := rfl
  simp only [EStateM.run, onTxn, hstart]
  rcases h.cases hw with ⟨a, b, l, hx, hy, rfl⟩ | ⟨e, l, hx, hy⟩
  · rw [EStateM.run] at hx hy
    rw [hx, hy]
    exact ⟨rfl, rfl⟩
  · rw [EStateM.run] at hx hy
    rw [hx, hy]
    exact ⟨rfl, rfl⟩

/-- Opening a connection goes the same way. -/
lemma dbSocketOpen_onWire (s : Server) :
    (dbSocketOpen direct s = (none, s.tick) ∧ dbSocketOpen wire s = (none, s.tick)) ∨
    (dbSocketOpen direct s = (some ⟨none, (), none⟩, s.tick) ∧
      dbSocketOpen wire s = (some ⟨none, [], none⟩, s.tick)) := by
  unfold dbSocketOpen
  split
  · exact .inl ⟨rfl, rfl⟩
  · exact .inr ⟨rfl, rfl⟩

lemma onFresh_agrees (h : Agrees Link.onWire (Sees none store) x y) :
    Agrees World.onWire (fun w => w.server.store = store) (onFresh direct x) (onFresh wire y) := by
  intro w hw
  have hserver : w.onWire.server = w.server := rfl
  rcases dbSocketOpen_onWire w.server with ⟨hd, hw'⟩ | ⟨hd, hw'⟩
  · simp only [EStateM.run, onFresh, hserver, hd, hw']
    exact ⟨rfl, rfl⟩
  · rcases h.cases (s := ⟨⟨none, (), none⟩, w.server.tick⟩) ⟨rfl, hw⟩ with
      ⟨a, b, l, hx, hy, rfl⟩ | ⟨e, l, hx, hy⟩
    · have hy' : y ⟨⟨none, [], none⟩, w.server.tick⟩ = .ok a l.onWire := hy
      have hx' : x ⟨⟨none, (), none⟩, w.server.tick⟩ = .ok a l := hx
      simp only [EStateM.run, onFresh, hserver, hd, hw', hx', hy']
      exact ⟨rfl, rfl⟩
    · have hy' : y ⟨⟨none, [], none⟩, w.server.tick⟩ = .error e l.onWire := hy
      have hx' : x ⟨⟨none, (), none⟩, w.server.tick⟩ = .error e l := hx
      simp only [EStateM.run, onFresh, hserver, hd, hw', hx', hy']
      exact ⟨rfl, rfl⟩

lemma bbLogAll_agrees {P : World Unit → Prop} (lines : List Bytes) :
    Agrees World.onWire P (bbLogAll lines) (bbLogAll lines) :=
  .modify fun _ => rfl

lemma bbLog_agrees {P : World Unit → Prop} (line : Bytes) :
    Agrees World.onWire P (bbLog line) (bbLog line) :=
  bbLogAll_agrees [line]

lemma selfRetry_agrees (h : cmd.ReadableIn store) (attempts : ℕ) :
    Agrees World.onWire (Idle store r) (selfRetry direct cmd attempts)
      (selfRetry wire cmd attempts) := by
  have hone : Agrees World.onWire (Idle store r) (oneShotAttempt direct cmd)
      (oneShotAttempt wire cmd) :=
    (onFresh_agrees (.ite (fun _ => wrapWrite_agrees (runOp_agrees (some _) _ h)) fun _ =>
      runOp_agrees none _ h)).pre fun _ hw => hw.2.1
  induction attempts with
  | zero => exact .throw _
  | succ attempts ih =>
    refine hone.attempt_bind (oneShotAttempt_triple cmd) ?_ fun e => ?_
    · rintro out _ rfl
      exact .pure _
    · cases e with
      | retry => exact ih.pre fun _ hw => hw.2
      | _ => exact .throw _

/-- A command outside a transaction. -/
lemma dbExec_agrees (cmd : DbCmd) (h : cmd.ReadableIn store) :
    Agrees World.onWire (Idle store r) (dbExec direct cmd) (dbExec wire cmd) := by
  refine (bbLog_agrees _).bind (bbLog_keeps (E := fun _ _ => True) (fun _ _ hw => hw) _) fun _ =>
    .get_bind fun w hw => ?_
  have htxn : w.onWire.txnConn = none := by simp [World.onWire, hw.1]
  rw [hw.1, htxn]
  exact (selfRetry_agrees h _).pre fun _ hw' => hw' ▸ hw

/-- A command in a transaction. -/
lemma dbExec_txn_agrees (cmd : DbCmd) (h : cmd.ReadableIn t) :
    Agrees World.onWire (InTxn t store r) (dbExec direct cmd) (dbExec wire cmd) := by
  refine (bbLog_agrees _).bind (bbLog_keeps (E := fun _ _ => True) (fun _ _ hw => hw) _) fun _ =>
    .get_bind fun w hw => ?_
  obtain ⟨⟨c, hc, hview⟩, hstore, -⟩ := hw
  have htxn : w.onWire.txnConn = some c.onWire := by simp [World.onWire, hc]
  rw [hc, htxn]
  refine (onTxn_agrees (runOp_agrees (some t) store h) c).pre ?_
  rintro _ rfl
  exact ⟨hview, hstore⟩

lemma bbDbBegin_agrees :
    Agrees World.onWire (Idle store r) (bbDbBegin direct) (bbDbBegin wire) := by
  intro w hw
  have hserver : w.onWire.server = w.server := rfl
  have htxn : w.onWire.txnConn = none := by simp [World.onWire, hw.1]
  rcases dbSocketOpen_onWire w.server with ⟨hd, hw'⟩ | ⟨hd, hw'⟩
  · simp only [EStateM.run, bbDbBegin, hw.1, htxn, hserver, hd, hw']
    exact ⟨rfl, rfl⟩
  · rcases (execStmt_discards .setTransaction rfl).cases
      (s := ⟨⟨none, (), none⟩, w.server.tick⟩) trivial with ⟨a, b, l, hx, hy, -⟩ | ⟨e, l, hx, hy⟩
    · have hy' : execStmt wire 0 .setTransaction ⟨⟨none, [], none⟩, w.server.tick⟩ =
        .ok b l.onWire := hy
      have hx' : execStmt direct 0 .setTransaction ⟨⟨none, (), none⟩, w.server.tick⟩ = .ok a l := hx
      simp only [EStateM.run, bbDbBegin, hw.1, htxn, hserver, hd, hw', hx', hy']
      exact ⟨rfl, rfl⟩
    · have hy' : execStmt wire 0 .setTransaction ⟨⟨none, [], none⟩, w.server.tick⟩ =
        .error e l.onWire := hy
      have hx' : execStmt direct 0 .setTransaction ⟨⟨none, (), none⟩, w.server.tick⟩ =
        .error e l := hx
      simp only [EStateM.run, bbDbBegin, hw.1, htxn, hserver, hd, hw', hx', hy']
      exact ⟨rfl, rfl⟩

lemma bbDbCommit_agrees {P : World Unit → Prop} :
    Agrees World.onWire P (bbDbCommit direct) (bbDbCommit wire) := by
  intro w _
  have hserver : w.onWire.server = w.server := rfl
  cases hc : w.txnConn with
  | none =>
    have htxn : w.onWire.txnConn = none := by simp [World.onWire, hc]
    simp only [EStateM.run, bbDbCommit, hc, htxn]
    exact ⟨rfl, rfl⟩
  | some c =>
    have htxn : w.onWire.txnConn = some c.onWire := by simp [World.onWire, hc]
    rcases (execStmt_discards .commit rfl).cases (s := ⟨c, w.server⟩) trivial with
      ⟨a, b, l, hx, hy, -⟩ | ⟨e, l, hx, hy⟩
    · have hy' : execStmt wire 0 .commit ⟨c.onWire, w.server⟩ = .ok b l.onWire := hy
      have hx' : execStmt direct 0 .commit ⟨c, w.server⟩ = .ok a l := hx
      simp only [EStateM.run, bbDbCommit, hc, htxn, hserver, hx', hy']
      exact ⟨rfl, rfl⟩
    · have hy' : execStmt wire 0 .commit ⟨c.onWire, w.server⟩ = .error e l.onWire := hy
      have hx' : execStmt direct 0 .commit ⟨c, w.server⟩ = .error e l := hx
      simp only [EStateM.run, bbDbCommit, hc, htxn, hserver, hx', hy']
      exact ⟨rfl, rfl⟩

lemma bbDbRollback_agrees {P : World Unit → Prop} :
    Agrees World.onWire P (bbDbRollback direct) (bbDbRollback wire) := by
  intro w _
  have hserver : w.onWire.server = w.server := rfl
  cases hc : w.txnConn with
  | none =>
    have htxn : w.onWire.txnConn = none := by simp [World.onWire, hc]
    simp only [EStateM.run, bbDbRollback, hc, htxn]
    exact ⟨rfl, rfl⟩
  | some c =>
    have htxn : w.onWire.txnConn = some c.onWire := by simp [World.onWire, hc]
    rcases (execStmt_discards .rollback rfl).cases (s := ⟨c, w.server⟩) trivial with
      ⟨a, b, l, hx, hy, -⟩ | ⟨e, l, hx, hy⟩
    · have hy' : execStmt wire 0 .rollback ⟨c.onWire, w.server⟩ = .ok b l.onWire := hy
      have hx' : execStmt direct 0 .rollback ⟨c, w.server⟩ = .ok a l := hx
      simp only [EStateM.run, bbDbRollback, hc, htxn, hserver, hx', hy']
      exact ⟨rfl, rfl⟩
    · have hy' : execStmt wire 0 .rollback ⟨c.onWire, w.server⟩ = .error e l.onWire := hy
      have hx' : execStmt direct 0 .rollback ⟨c, w.server⟩ = .error e l := hx
      simp only [EStateM.run, bbDbRollback, hc, htxn, hserver, hx', hy']
      exact ⟨rfl, rfl⟩

/-! ## Handlers -/

section Handlers

variable (h : store.Readable)

include h

lemma loadElection_agrees (eid : CStr bbIdLen) :
    Agrees World.onWire (Idle store r) (loadElection direct eid) (loadElection wire eid) :=
  (dbExec_agrees (.getElection eid) h).andThen fun _ => .ite (fun _ => .throw _) fun _ => .pure _

lemma bbTransitionState_agrees (eid : CStr bbIdLen) (target : BbState) :
    Agrees World.onWire (Idle store r) (bbTransitionState direct eid target)
      (bbTransitionState wire eid target) := by
  refine (dbExec_agrees (.getElection eid) h).bind (dbExec_idle _) fun res =>
    .exists_elim fun t' => ?_
  refine .ite (fun _ => .throw _) fun _ => .ite (fun _ => ?_) fun _ => ?_
  · exact (bbLog_agrees _).andThen fun _ => .throw _
  · have hupdate : Agrees World.onWire (Idle store r)
        (do let _ ← dbExec direct (.updateState eid target)) (do
          let _ ← dbExec wire (.updateState eid target)) :=
      (dbExec_agrees (.updateState eid target) h).andThen fun _ => .pure _
    refine hupdate.pre ?_
    rintro w ⟨⟨rfl, -⟩, hw⟩
    exact hw

omit h in
lemma bbAllocId_agrees :
    Agrees World.onWire (Idle store r) (bbAllocId direct) (bbAllocId wire) := by
  have hselect : Agrees Link.onWire (Sees none store) (execStmt direct 4096 .selectMaxSeq)
      (execStmt wire 4096 .selectMaxSeq) := by
    refine select_agrees rfl fun rows hrun => ?_
    obtain ⟨-, rfl⟩ := Prod.mk.inj (Option.some.inj hrun)
    refine Carried.of_short (n := 1) (k := 11) (fun row hrow => ?_) ?_ (by decide) (by decide)
      (by decide)
    · obtain ⟨n, hn, rfl⟩ := mem_map.mp hrow
      obtain ⟨r, -, rfl⟩ := mem_map.mp (max?_mem (Option.mem_toList.mp hn))
      exact readsBack_seq r.seq
    · cases store.maxSeq <;> simp
  refine Mirrors.attempt_bind ((onFresh_agrees hselect).pre fun _ hw => hw.2.1)
    Triple.ends_anyhow ?_ fun e => .pure _
  rintro reply _ rfl
  exact .pure _

lemma chooseId_agrees (desired : CStr bbIdLen) :
    Agrees World.onWire (Idle store r) (chooseId direct desired) (chooseId wire desired) := by
  refine .ite (fun _ => bbAllocId_agrees) fun _ =>
    (loadElection_agrees h _).attempt_bind Triple.ends_anyhow ?_ fun e => ?_
  · rintro election _ rfl
    exact (bbLog_agrees _).andThen fun _ => .throw _
  · cases e with
    | notFound => exact .pure _
    | _ => exact .throw _

lemma bbCreateElection_agrees (config : BbConfig) (desired : CStr bbIdLen) :
    Agrees World.onWire (Idle store r) (bbCreateElection direct config desired)
      (bbCreateElection wire config desired) := by
  unfold bbCreateElection
  split
  · exact (bbLog_agrees _).andThen fun _ => .throw _
  · refine (chooseId_agrees h desired).bind (chooseId_triple desired) fun id => ?_
    exact .andThen (dbExec_agrees (.insertElection id config) trivial) fun _ => .pure _

lemma bbJoin_agrees (crypto : Crypto) (eid : CStr bbIdLen) (cert : CStr bbCertLen) :
    Agrees World.onWire (Idle store r) (bbJoin direct crypto eid cert)
      (bbJoin wire crypto eid cert) := by
  refine (loadElection_agrees h eid).bind (loadElection_idle eid) fun election => ?_
  refine (bbLogAll_agrees _).bind (bbLogAll_keeps (E := fun _ _ => True) (fun _ _ hw => hw) _)
    fun _ => ?_
  split
  · exact .throw _
  · exact .throw _
  · exact .throw _
  · refine .ite (fun _ => (bbLogAll_agrees _).andThen fun _ => .throw _) fun _ =>
      .ite (fun _ => (bbLog_agrees _).andThen fun _ => .throw _) fun _ => ?_
    have hcopied : Triple (fun w => ReadsElection eid.bytes store election ∧ w.Idle store r)
        (modify fun w => { w with resp := { w.resp with election := election } } :
          BrainM Unit PUnit) (fun _ => Idle store { r with election := election })
        (fun _ _ => True) :=
      fun w hw => ⟨hw.2.1, hw.2.2.1, by rw [← hw.2.2.2]⟩
    refine Mirrors.bind (.modify fun _ => rfl) hcopied fun _ => ?_
    exact (dbExec_agrees (.getPriorBallot eid cert) h).andThen fun _ => .modify fun _ => rfl

lemma admitBallot_agrees (crypto : Crypto) (eid : CStr bbIdLen) (ballot : BbBallot)
    {store' : Tables} :
    Agrees World.onWire (InTxn store store' r) (admitBallot direct crypto eid ballot)
      (admitBallot wire crypto eid ballot) := by
  have hload : Agrees World.onWire (InTxn store store' r) (loadElection direct eid)
      (loadElection wire eid) :=
    (dbExec_txn_agrees (.getElection eid) h).andThen fun _ =>
      .ite (fun _ => .throw _) fun _ => .pure _
  refine hload.andThen fun election => .ite (fun _ => .throw _) fun _ =>
    .ite (fun _ => .throw _) fun _ =>
    .ite (fun _ => (bbLogAll_agrees _).andThen fun _ => .throw _) fun _ => ?_
  refine (bbLogAll_agrees _).andThen fun _ => ?_
  split
  · exact .throw _
  · exact .ite (fun _ => .throw _) fun _ => .pure _

omit h in
lemma issueReceipt_agrees {P : World Unit → Prop} (crypto : Crypto) (ballot : BbBallot)
    (version : ℤ) : Agrees World.onWire P (issueReceipt crypto ballot version)
      (issueReceipt crypto ballot version) := by
  refine .get_bind fun w _ => ?_
  have hclock : w.onWire.server.clock = w.server.clock := rfl
  rw [hclock]
  refine (bbLogAll_agrees _).andThen fun _ => ?_
  split
  · exact .throw _
  · exact .andThen (.modify fun _ => rfl) fun _ => .pure _

/-- The writes of a recording: only the select of the superseded ballot is read, on the tables with
the new one. -/
lemma writeBallot_agrees (eid : CStr bbIdLen) (ballot : BbBallot) (optionIndex : ℤ)
    (prior : DbResult) (version : ℤ) (receipt : BbReceipt) {store' : Tables} :
    Agrees World.onWire (InTxn store store' r)
      (writeBallot direct eid ballot optionIndex prior version receipt)
      (writeBallot wire eid ballot optionIndex prior version receipt) := by
  have hlast {t : Tables} : Agrees World.onWire (InTxn t store' r)
      (do
        let _ ← dbExec direct (.setOwner eid ballot.certName receipt.hash version)
        let _ ← dbExec direct (.nonceMark eid ballot.nonce))
      (do
        let _ ← dbExec wire (.setOwner eid ballot.certName receipt.hash version)
        let _ ← dbExec wire (.nonceMark eid ballot.nonce)) := by
    refine (dbExec_txn_agrees (.setOwner eid ballot.certName receipt.hash version) trivial).bind
      (dbExec_inTxn _) fun _ => .exists_elim fun t' => ?_
    exact ((dbExec_txn_agrees (.nonceMark eid ballot.nonce) trivial).andThen fun _ => .pure _).pre
      fun _ hw => hw.2
  refine (dbExec_txn_agrees (.appendBallot eid ⟨receipt.hash, optionIndex, version, 0⟩)
    trivial).bind (dbExec_inTxn _) fun _ => .exists_elim fun t' => ?_
  refine .ite (fun _ => ?_) fun _ => hlast.pre fun _ hw => hw.2
  intro w hw
  obtain ⟨⟨b, -, rfl⟩, hw⟩ := hw
  refine Mirrors.bind (dbExec_txn_agrees (.markSuperseded eid prior.row.hash)
    (h.selectBallot b _ _)) (dbExec_inTxn _) (fun _ => .exists_elim fun t'' => ?_) w hw
  exact hlast.pre fun _ hw => hw.2

lemma recordBallotLocked_agrees (crypto : Crypto) (eid : CStr bbIdLen) (ballot : BbBallot)
    {store' : Tables} :
    Agrees World.onWire (InTxn store store' r) (recordBallotLocked direct crypto eid ballot)
      (recordBallotLocked wire crypto eid ballot) := by
  refine (admitBallot_agrees h crypto eid ballot).bind (admitBallot_triple eid ballot) fun opt => ?_
  have hread {cmd : DbCmd} (hkeep : ∀ {out t'}, cmd.Means store out t' → t' = store) :
      Triple (InTxn store store' r) (dbExec direct cmd) (fun _ => InTxn store store' r)
        (fun _ _ => True) :=
    (dbExec_inTxn _).ends (fun _ _ ⟨_, hmeans, hw⟩ => hkeep hmeans ▸ hw) fun _ _ _ => trivial
  refine ((dbExec_txn_agrees (.nonceSeen eid ballot.nonce) h).pre fun _ hw => hw.2).bind
    ((hread And.left).pre fun _ hw => hw.2) fun seen => .ite (fun _ => .throw _) fun _ => ?_
  refine (dbExec_txn_agrees (.getPriorBallot eid ballot.certName) h).bind (hread And.left)
    fun prior => ?_
  refine (issueReceipt_agrees crypto _ _).bind (issueReceipt_triple ballot _) fun receipt => ?_
  exact (writeBallot_agrees h eid ballot opt prior _ receipt).pre fun _ hw => hw.2

lemma recordLoop_agrees (crypto : Crypto) (eid : CStr bbIdLen) (ballot : BbBallot) (last : BbErr)
    (rounds : ℕ) :
    Agrees World.onWire (Idle store r) (recordLoop direct crypto eid ballot last rounds)
      (recordLoop wire crypto eid ballot last rounds) := by
  induction rounds generalizing last r with
  | zero => exact .throw _
  | succ rounds ih =>
    refine bbDbBegin_agrees.bind bbDbBegin_triple fun _ => ?_
    refine (recordBallotLocked_agrees h crypto eid ballot).attempt_bind
      (recordBallotLocked_triple eid ballot) ?_ fun e => ?_
    · rintro _ _ -
      refine .exists_elim fun rec => bbDbCommit_agrees.attempt_bind bbDbCommit_triple ?_ fun e => ?_
      · rintro _ _ -
        exact .pure _
      · cases e with
        | retry => exact (ih .retry).pre fun _ hw => hw.2
        | _ => exact .throw _
    · cases e with
      | retry =>
        refine .exists_elim fun receipt => bbDbRollback_agrees.bind
          (bbDbRollback_triple (E := fun _ _ => True)) fun _ => ih .retry
      | _ => exact bbDbRollback_agrees.andThen fun _ => .throw _

lemma fetchResults_agrees (eid : CStr bbIdLen) (election : BbElection) :
    Agrees World.onWire (Idle store r) (fetchResults direct eid election)
      (fetchResults wire eid election) := by
  have htally : Triple (Idle store r) (dbExec direct (.getTally eid)) (fun _ => Idle store r)
      (fun _ _ => True) :=
    (dbExec_idle _).ends (fun _ _ ⟨_, hmeans, hw⟩ => hmeans.1 ▸ hw) fun _ _ _ => trivial
  exact (dbExec_agrees (.getTally eid) h).bind htally fun _ =>
    (dbExec_agrees (.getHashes eid) h).andThen fun _ => .pure _

lemma bbLookupHash_agrees (eid : CStr bbIdLen) (hash : CStr bbHashLen) :
    Agrees World.onWire (Idle store r) (bbLookupHash direct eid hash)
      (bbLookupHash wire eid hash) := by
  refine (loadElection_agrees h eid).bind (loadElection_idle eid) fun election => ?_
  have hfind : Agrees World.onWire (Idle store r)
      (dbExec direct (.findHash eid hash)) (dbExec wire (.findHash eid hash)) :=
    dbExec_agrees (.findHash eid hash) h
  exact (hfind.pre fun _ hw => hw.2).andThen fun _ => .ite (fun _ => .throw _) fun _ => .pure _

/-- Every request is handled over the text protocol as if answers arrived as they are. -/
lemma dispatchOp_agrees (crypto : Crypto) (req : BclRequest) :
    Agrees World.onWire (Idle store r) (dispatchOp direct crypto req)
      (dispatchOp wire crypto req) := by
  unfold dispatchOp
  split
  · exact (bbCreateElection_agrees h _ _).andThen fun _ => .modify fun _ => rfl
  · exact (bbAllocId_agrees).andThen fun _ => .modify fun _ => rfl
  · exact bbTransitionState_agrees h _ _
  · exact bbTransitionState_agrees h _ _
  · exact bbTransitionState_agrees h _ _
  · exact bbJoin_agrees h crypto _ _
  · exact recordLoop_agrees h crypto _ _ _ _
  · exact recordLoop_agrees h crypto _ _ _ _
  · refine Mirrors.andThen ?_ fun _ => .modify fun _ => rfl
    refine (loadElection_agrees h _).bind (loadElection_idle _) fun _ =>
      .ite (fun _ => .throw _) fun _ =>
      .ite (fun _ => .throw _) fun _ => ?_
    exact (fetchResults_agrees h _ _).pre fun _ hw => hw.2
  · refine Mirrors.andThen ?_ fun _ => .modify fun _ => rfl
    refine (loadElection_agrees h _).bind (loadElection_idle _) fun _ =>
      .ite (fun _ => .throw _) fun _ => ?_
    exact (fetchResults_agrees h _ _).pre fun _ hw => hw.2
  · exact (bbLookupHash_agrees h _ _).andThen fun _ => .modify fun _ => rfl
  · exact (bbLookupHash_agrees h _ _).andThen fun _ => .modify fun _ => rfl

end Handlers

/-! ## Requests and runs -/

variable {crypto : Crypto} {w : World Unit}

/-- **On readable tables the text protocol does not show in a request.** -/
theorem ballotdDispatch_onWire (crypto : Crypto) (req : BclRequest) (htxn : w.txnConn = none)
    (h : w.server.store.Readable) :
    ballotdDispatch wire crypto req w.onWire = (ballotdDispatch direct crypto req w).onWire := by
  have hstart : ({ w.onWire with resp := default } : World Bytes) =
      World.onWire { w with resp := default } := rfl
  rw [ballotdDispatch, ballotdDispatch, hstart]
  have hidle : Idle w.server.store default ({ w with resp := default } : World Unit) :=
    ⟨htxn, rfl, rfl⟩
  rcases (dispatchOp_agrees h crypto req).cases hidle with
    ⟨_, _, w', hx, hy, -⟩ | ⟨e, w', hx, hy⟩ <;> simp only [EStateM.run] at hx hy <;>
    rw [hx, hy] <;> rfl

/-- **On readable tables the text protocol does not show in a run.** -/
theorem run_onWire {reqs : List BclRequest} (htxn : w.txnConn = none)
    (h : ∀ ev ∈ history wire crypto reqs w.onWire, ev.before.Readable) :
    serve wire crypto reqs w.onWire = (serve direct crypto reqs w).onWire ∧
      history wire crypto reqs w.onWire = history direct crypto reqs w := by
  induction reqs generalizing w with
  | nil => exact ⟨rfl, rfl⟩
  | cons req reqs ih =>
    rw [history, forall_mem_cons] at h
    have hstep := ballotdDispatch_onWire crypto req htxn h.1
    rw [hstep] at h
    obtain ⟨hserve, hhistory⟩ := ih (ballotdDispatch_does htxn).1 h.2
    constructor
    · simpa only [serve, foldl_cons, hstep] using hserve
    · simp only [history, hstep, hhistory]
      rfl

/-- The run from empty tables. -/
lemma start_onWire {reqs : List BclRequest} {sched : ℕ → Outcome}
    (h : ∀ ev ∈ history wire crypto reqs (World.start sched), ev.before.Readable) :
    (serve wire crypto reqs (World.start sched)).server.store =
        (serve direct crypto reqs (World.start sched)).server.store ∧
      history wire crypto reqs (World.start sched) =
        history direct crypto reqs (World.start sched) := by
  obtain ⟨hserve, hhistory⟩ := run_onWire (w := World.start sched) rfl h
  exact ⟨congrArg (·.server.store) hserve, hhistory⟩

/-- A daemon between requests, without the text protocol. -/
def World.forget (w : World Bytes) : World Unit := ⟨w.server, none, w.log, w.resp⟩

lemma World.forget_onWire {w : World Bytes} (h : w.txnConn = none) : w.forget.onWire = w := by
  cases w
  cases h
  rfl

/-- The response and the tables are those without the text protocol. -/
lemma ballotdDispatch_forget {w : World Bytes} (crypto : Crypto) (req : BclRequest)
    (htxn : w.txnConn = none) (h : w.server.store.Readable) :
    (ballotdDispatch wire crypto req w).resp = (ballotdDispatch direct crypto req w.forget).resp ∧
      (ballotdDispatch wire crypto req w).server =
        (ballotdDispatch direct crypto req w.forget).server := by
  have hwire := ballotdDispatch_onWire crypto req (w := w.forget) rfl h
  rw [World.forget_onWire htxn] at hwire
  rw [hwire]
  exact ⟨rfl, rfl⟩

end BallotBox
