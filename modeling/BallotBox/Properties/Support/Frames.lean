import BallotBox.Construction.Handlers
import BallotBox.Properties.Support.Transactions

/-!
# What a request leaves alone

Whatever a reply is taken for, a program can change the tables only by the statements it sends:
nonces are inserted by `NONCE_MARK` alone, and names go on an eligible list only with their
election.
-/

namespace BallotBox

open Link World Option Triple

variable {cmd : DbCmd} {stmt : Stmt} {α : Type} {eid : CStr bbIdLen} {R : BclResponse → Prop}
  {crypto : Crypto} {req : BclRequest}
variable {config : BbConfig} {t t' : Tables} {rows : List Row} {cap : ℕ} {ballot : BbBallot}

/-! ## The statements of a command -/

def DbCmd.MaySend (cmd : DbCmd) : Stmt → Prop
  | .insertNonce eid nonce => ∃ e n, cmd = .nonceMark e n ∧ e.bytes = eid ∧ n.bytes = nonce
  | .insertEligible _ cert =>
    ∃ e config, cmd = .insertElection e config ∧ ∃ name ∈ config.eligible, name.bytes = cert
  | .selectNonce eid nonce => ∃ e n, cmd = .nonceSeen e n ∧ e.bytes = eid ∧ n.bytes = nonce
  | .setTransaction | .commit | .rollback => False
  | _ => True

inductive Half
  | registry | votes
deriving DecidableEq

def Stmt.half? : Stmt → Option Half
  | .insertElection .. | .insertOption .. | .insertEligible .. | .deleteElection .. =>
    some .registry
  | .insertBallot .. | .insertOwner .. | .insertNonce .. | .deleteBallot .. | .deleteOwner .. =>
    some .votes
  | _ => none

def DbCmd.half? : DbCmd → Option Half
  | .insertElection .. | .updateState .. => some .registry
  | .appendBallot .. | .markSuperseded .. | .nonceMark .. | .setOwner .. => some .votes
  | _ => none

def DbCmd.Sends (cmd : DbCmd) (stmt : Stmt) : Prop :=
  cmd.MaySend stmt ∧ (stmt.half? = none ∨ stmt.half? = cmd.half?)

/-- The statements a command sends, exactly. Those that insert a row again fill it with columns of a
reply, which may be anything that fits a buffer. -/
inductive DbCmd.Emits : DbCmd → Stmt → Prop
  | insertElection (eid : CStr bbIdLen) (config : BbConfig) :
    Emits (.insertElection eid config) (.insertElection (renderInt (idSeq eid.bytes)) eid.bytes
      config.title.bytes (ascii "DRAFT") config.openTime.bytes config.closeTime.bytes)
  | insertOption (eid : CStr bbIdLen) (config : BbConfig) (opt : CStr bbOptionLen) (i : ℕ)
      (hi : i < config.options.length) :
    Emits (.insertElection eid config) (.insertOption eid.bytes (renderInt i) opt.bytes)
  | insertEligible (eid : CStr bbIdLen) (config : BbConfig) (cert : CStr bbCertLen)
      (hcert : cert ∈ config.eligible) (hsafe : unsafeText cert.bytes = false) :
    Emits (.insertElection eid config) (.insertEligible eid.bytes cert.bytes)
  | selectElection (eid : CStr bbIdLen) : Emits (.getElection eid) (.selectElection eid.bytes)
  | selectOptions (eid : CStr bbIdLen) : Emits (.getElection eid) (.selectOptions eid.bytes)
  | selectEligible (eid : CStr bbIdLen) : Emits (.getElection eid) (.selectEligible eid.bytes)
  | selectElectionRest (eid : CStr bbIdLen) (s : BbState) :
    Emits (.updateState eid s) (.selectElectionRest eid.bytes)
  | deleteElection (eid : CStr bbIdLen) (s : BbState) :
    Emits (.updateState eid s) (.deleteElection eid.bytes)
  | reinsertElection (eid : CStr bbIdLen) (s : BbState) (seq : CStr 24) (title : CStr bbTitleLen)
      (openTime closeTime : CStr bbTimeLen) :
    Emits (.updateState eid s) (.insertElection seq.bytes eid.bytes title.bytes (bbStateStr s)
      openTime.bytes closeTime.bytes)
  | insertBallot (eid : CStr bbIdLen) (row : BbBallotHash) :
    Emits (.appendBallot eid row) (.insertBallot eid.bytes row.hash.bytes
      (renderInt row.optionIndex) (renderInt row.version) (renderInt row.superseded))
  | selectBallot (eid : CStr bbIdLen) (hash : CStr bbHashLen) :
    Emits (.markSuperseded eid hash) (.selectBallot eid.bytes hash.bytes)
  | deleteBallot (eid : CStr bbIdLen) (hash : CStr bbHashLen) :
    Emits (.markSuperseded eid hash) (.deleteBallot eid.bytes hash.bytes)
  | reinsertBallot (eid : CStr bbIdLen) (hash : CStr bbHashLen) (opt ver : CStr 24) :
    Emits (.markSuperseded eid hash) (.insertBallot eid.bytes hash.bytes opt.bytes ver.bytes
      (renderInt 1))
  | insertNonce (eid : CStr bbIdLen) (nonce : CStr bbNonceLen) :
    Emits (.nonceMark eid nonce) (.insertNonce eid.bytes nonce.bytes)
  | deleteOwner (eid : CStr bbIdLen) (cert : CStr bbCertLen) (hash : CStr bbHashLen) (version : ℤ) :
    Emits (.setOwner eid cert hash version) (.deleteOwner eid.bytes cert.bytes)
  | insertOwner (eid : CStr bbIdLen) (cert : CStr bbCertLen) (hash : CStr bbHashLen) (version : ℤ) :
    Emits (.setOwner eid cert hash version) (.insertOwner eid.bytes cert.bytes hash.bytes
      (renderInt version))
  | selectTally (eid : CStr bbIdLen) : Emits (.getTally eid) (.selectTally eid.bytes)
  | selectHashes (eid : CStr bbIdLen) : Emits (.getHashes eid) (.selectHashes eid.bytes)
  | selectHash (eid : CStr bbIdLen) (hash : CStr bbHashLen) :
    Emits (.findHash eid hash) (.selectHash eid.bytes hash.bytes)
  | selectNonce (eid : CStr bbIdLen) (nonce : CStr bbNonceLen) :
    Emits (.nonceSeen eid nonce) (.selectNonce eid.bytes nonce.bytes)
  | selectPrior (eid : CStr bbIdLen) (cert : CStr bbCertLen) :
    Emits (.getPriorBallot eid cert) (.selectPrior eid.bytes cert.bytes)

lemma DbCmd.Emits.sends (h : cmd.Emits stmt) : cmd.Sends stmt := by
  cases h with
  | insertEligible eid config cert hcert _ =>
    exact ⟨⟨eid, config, rfl, cert, hcert, rfl⟩, .inr rfl⟩
  | insertNonce eid nonce => exact ⟨⟨eid, nonce, rfl, rfl, rfl⟩, .inr rfl⟩
  | selectNonce eid nonce => exact ⟨⟨eid, nonce, rfl, rfl, rfl⟩, .inl rfl⟩
  | insertElection | insertOption | deleteElection | reinsertElection | insertBallot | deleteBallot
  | reinsertBallot | deleteOwner | insertOwner => exact ⟨trivial, .inr rfl⟩
  | _ => exact ⟨trivial, .inl rfl⟩

section Commands

variable {ι : Type} {ch : Channel ι} {J : Link ι → Prop} {E : BbErr → Link ι → Prop}
  (hthrow : ∀ l, J l → E .db l)

include hthrow

lemma throw_keeps : Triple J (MonadExcept.throw .db : EStateM BbErr (Link ι) α) (fun _ => J) E :=
  (Triple.throw _).pre hthrow

lemma runInsertElection_keeps (hstmt : ∀ cap stmt, DbCmd.Emits (.insertElection eid config) stmt →
      Triple J (execStmt ch cap stmt) (fun _ => J) E) :
    Triple J (runInsertElection ch eid config) (fun _ => J) E := by
  refine Triple.ite (fun _ => throw_keeps hthrow) fun _ => ?_
  refine (hstmt _ _ (.insertElection eid config)).bind fun _ => ?_
  refine (forM_mem (I := J) ?_).bind fun _ => ?_
  · rintro ⟨opt, i⟩ hmem
    have hi : i < config.options.length := by simpa using List.snd_lt_add_of_mem_zipIdx hmem
    exact Triple.ite (fun _ => throw_keeps hthrow) fun _ =>
      (hstmt _ _ (.insertOption eid config opt i hi)).bind fun _ => ret _
  · refine (forM_mem (I := J) fun cert hcert => ?_).bind fun _ => ret _
    exact Triple.ite (fun _ => throw_keeps hthrow) fun hsafe => Triple.bind
      (hstmt _ _ (.insertEligible eid config cert hcert (by simpa using hsafe))) fun _ => ret _

lemma runGetElection_keeps (hstmt : ∀ cap stmt, DbCmd.Emits (.getElection eid) stmt →
      Triple J (execStmt ch cap stmt) (fun _ => J) E) :
    Triple J (runGetElection ch eid) (fun _ => J) E := by
  refine (hstmt _ _ (.selectElection eid)).bind fun reply => ?_
  refine Triple.ite (fun _ => throw_keeps hthrow) fun _ => ?_
  refine Triple.ite (fun _ => ret _) fun _ => ?_
  split
  · split
    · exact throw_keeps hthrow
    · refine (hstmt _ _ (.selectOptions eid)).bind fun _ => ?_
      exact (hstmt _ _ (.selectEligible eid)).bind fun _ => ret _
  · exact throw_keeps hthrow

theorem runOp_keeps (hstmt : ∀ cap stmt, cmd.Emits stmt →
      Triple J (execStmt ch cap stmt) (fun _ => J) E) :
    Triple J (runOp ch cmd) (fun _ => J) E := by
  cases cmd with
  | insertElection eid config => exact runInsertElection_keeps hthrow hstmt
  | getElection eid => exact runGetElection_keeps hthrow hstmt
  | updateState eid s =>
    refine (hstmt _ _ (.selectElectionRest eid s)).bind fun reply => ?_
    refine Triple.ite (fun _ => throw_keeps hthrow) fun _ => ?_
    split
    · refine (hstmt _ _ (.deleteElection eid s)).bind fun _ => ?_
      exact (hstmt _ _ (.reinsertElection eid s _ _ _ _)).bind fun _ => ret _
    · exact throw_keeps hthrow
  | markSuperseded eid hash =>
    refine (hstmt _ _ (.selectBallot eid hash)).bind fun reply => ?_
    refine Triple.ite (fun _ => throw_keeps hthrow) fun _ => ?_
    split
    · refine (hstmt _ _ (.deleteBallot eid hash)).bind fun _ => ?_
      exact (hstmt _ _ (.reinsertBallot eid hash _ _)).bind fun _ => ret _
    · exact throw_keeps hthrow
  | findHash eid hash =>
    refine (hstmt _ _ (.selectHash eid hash)).bind fun reply => ?_
    refine Triple.ite (fun _ => ret _) fun _ => ?_
    split
    · exact ret _
    · exact throw_keeps hthrow
  | getPriorBallot eid cert =>
    refine (hstmt _ _ (.selectPrior eid cert)).bind fun reply => ?_
    refine Triple.ite (fun _ => ret _) fun _ => ?_
    split
    · exact ret _
    · exact throw_keeps hthrow
  | nonceMark eid nonce =>
    exact (hstmt _ _ (.insertNonce eid nonce)).bind fun _ => ret _
  | nonceSeen eid nonce =>
    exact (hstmt _ _ (.selectNonce eid nonce)).bind fun _ => ret _
  | setOwner eid cert hash version =>
    refine (hstmt _ _ (.deleteOwner eid cert hash version)).bind fun _ => ?_
    exact (hstmt _ _ (.insertOwner eid cert hash version)).bind fun _ => ret _
  | appendBallot eid row =>
    exact (hstmt _ _ (.insertBallot eid row)).bind fun _ => ret _
  | getTally eid => exact (hstmt _ _ (.selectTally eid)).bind fun _ => ret _
  | getHashes eid => exact (hstmt _ _ (.selectHashes eid)).bind fun _ => ret _

end Commands

/-! ## What statements preserve -/

lemma Stmt.run_nonces
    (hstmt : ∀ eid nonce, stmt ≠ .insertNonce eid nonce) (hrun : stmt.run t = some (t', rows)) :
    t'.nonces = t.nonces := by
  cases stmt with
  | insertNonce eid nonce => exact absurd rfl (hstmt eid nonce)
  | insertElection _ _ _ _ _ _ | insertOption _ _ _ | insertEligible _ _ | insertBallot _ _ _ _ _
  | insertOwner _ _ _ _ =>
    simp only [Stmt.run, bind_eq_bind, bind_eq_some_iff, some.injEq, Prod.mk.injEq] at hrun
    grind
  | _ =>
    obtain ⟨rfl, -⟩ := Prod.mk.inj (some.inj hrun)
    rfl

lemma Stmt.run_eligibles (hrun : stmt.run t = some (t', rows)) :
    t'.eligibles = t.eligibles ∨ ∃ eid cert v, stmt = .insertEligible eid cert ∧
      v.certName.bytes = cert ∧ t'.eligibles = t.eligibles ++ [v] := by
  cases stmt with
  | insertEligible eid cert =>
    simp only [Stmt.run, bind_eq_bind, bind_eq_some_iff, some.injEq, Prod.mk.injEq] at hrun
    obtain ⟨e, he, c, hc, rfl, -⟩ := hrun
    exact .inr ⟨eid, cert, ⟨e, c⟩, rfl, Text.ofBytes?_eq_some.mp hc, rfl⟩
  | insertElection _ _ _ _ _ _ | insertOption _ _ _ | insertNonce _ _ | insertBallot _ _ _ _ _
  | insertOwner _ _ _ _ =>
    simp only [Stmt.run, bind_eq_bind, bind_eq_some_iff, some.injEq, Prod.mk.injEq] at hrun
    grind
  | _ =>
    obtain ⟨rfl, -⟩ := Prod.mk.inj (some.inj hrun)
    exact .inl rfl

variable {ι : Type} {ch : Channel ι} {K : Tables → Prop}

def Stmt.Preserves (K : Tables → Prop) (stmt : Stmt) : Prop :=
  ∀ t t' rows, K t → stmt.run t = some (t', rows) → K t'

def Link.Keeps (K : Tables → Prop) (l : Link ι) : Prop :=
  K l.server.store ∧ ∀ t, l.conn.view = some t → K t

lemma Link.Keeps.execute {l : Link ι} (h : l.Keeps K) {order : RowOrder}
    (hstmt : stmt.Preserves K) {view : Option Tables} {store : Tables} {answer : Answer}
    (hx : l.execute order stmt = some (view, store, answer)) : K store ∧ ∀ t, view = some t →
      K t := by
  have hdata (hx : l.runData order stmt = some (view, store, answer)) :
      K store ∧ ∀ t, view = some t → K t := by
    unfold runData at hx
    cases hview : l.conn.view with
    | none =>
      rw [hview] at hx
      obtain ⟨⟨t', rows⟩, hrun, heq⟩ := map_eq_some_iff.mp hx
      obtain ⟨rfl, rfl, -⟩ : none = view ∧ t' = store ∧ _ := by simpa using heq
      exact ⟨hstmt _ _ _ h.1 hrun, by simp⟩
    | some t =>
      rw [hview] at hx
      obtain ⟨⟨t', rows⟩, hrun, heq⟩ := map_eq_some_iff.mp hx
      obtain ⟨rfl, rfl, -⟩ : some t' = view ∧ l.server.store = store ∧ _ := by simpa using heq
      refine ⟨h.1, fun t'' ht'' => ?_⟩
      obtain rfl : t' = t'' := by simpa using ht''
      exact hstmt _ _ _ (h.2 t hview) hrun
  cases stmt with
  | setTransaction =>
    unfold execute at hx
    cases hview : l.conn.view with
    | none =>
      obtain ⟨rfl, rfl, -⟩ : some l.server.store = view ∧ l.server.store = store ∧ _ := by
        simpa [hview] using hx
      exact ⟨h.1, fun t ht => some.inj ht ▸ h.1⟩
    | some t => simp [hview] at hx
  | commit =>
    obtain ⟨t, hview, heq⟩ := map_eq_some_iff.mp hx
    obtain ⟨rfl, rfl, -⟩ : none = view ∧ t = store ∧ _ := by simpa using heq
    exact ⟨h.2 t hview, by simp⟩
  | rollback =>
    obtain ⟨t, hview, heq⟩ := map_eq_some_iff.mp hx
    obtain ⟨rfl, rfl, -⟩ : none = view ∧ l.server.store = store ∧ _ := by simpa using heq
    exact ⟨h.1, by simp⟩
  | _ => exact hdata hx

lemma execStmt_keeps (hstmt : stmt.Preserves K) :
    Invariant (Keeps K) (execStmt ch cap stmt) := by
  intro l hl
  have hkeeps : (dbSocketExec ch cap stmt l).2.Keeps K := by
    have hx := dbSocketExec_exchange ch cap stmt l
    generalize dbSocketExec ch cap stmt l = r at hx
    cases hx with
    | unsent status _ _ => exact hl
    | lost why => exact ⟨hl.1, by simp [lose]⟩
    | failed verdict _ => exact ⟨hl.1, by simp [receive]⟩
    | ran order view store answer _ h => exact hl.execute hstmt h
  unfold execStmt
  simp only [EStateM.run]
  cases mapStatus (dbSocketExec ch cap stmt l).1.1 <;> exact hkeeps

/-! ## Requests without a transaction of their own -/

def World.IdleWith (K : Tables → Prop) (w : World ι) : Prop := w.txnConn = none ∧ K w.server.store

def BrainM.Keeps {α : Type} (K : Tables → Prop) (x : BrainM ι α) : Prop :=
  Triple (World.IdleWith K) x (fun _ => World.IdleWith K) (fun _ => World.IdleWith K)

def DbCmd.Preserves (K : Tables → Prop) (cmd : DbCmd) : Prop :=
  ∀ stmt, cmd.Sends stmt → stmt.Preserves K

lemma onFresh_keeps {x : EStateM BbErr (Link ι) α} (hx : Invariant (Keeps K) x) :
    BrainM.Keeps K (onFresh ch x) :=
  onFresh_lift (S := fun s => K s.store) (T := fun _ s => K s.store) (Q := fun _ s => K s.store)
    (opens_of_tick (fun _ hs => hs) fun _ hs => ⟨hs, by simp⟩)
    (hx.ends (fun _ _ hl => hl.1) fun _ _ hl => hl.1)

lemma execStmt_control_keeps (hcontrol : stmt.isData = false) :
    Invariant (Keeps K) (execStmt ch cap stmt) := by
  refine execStmt_keeps fun t t' rows hK hrun => ?_
  cases stmt with
  | setTransaction | commit | rollback =>
    obtain ⟨rfl, -⟩ := Prod.mk.inj (some.inj hrun)
    exact hK
  | _ => cases hcontrol

lemma wrapWrite_keeps {x : EStateM BbErr (Link ι) DbResult} (hx : Invariant (Keeps K) x) :
    Invariant (Keeps K) (wrapWrite ch x) := by
  refine attempt_bind ((execStmt_control_keeps rfl).bind fun _ => hx) (fun out => ?_) fun e => ?_
  · exact (execStmt_control_keeps rfl).bind fun _ => ret _
  · have hback : Triple (Keeps K) (attempt (execStmt ch 0 .rollback) >>= fun _ => throw e)
        (fun (_ : DbResult) => Keeps K) (fun _ => Keeps K) :=
      attempt_bind (execStmt_control_keeps rfl) (fun _ => raise e) fun _ => raise e
    cases e with
    | retry => exact raise _
    | _ => exact hback

lemma Stmt.preserves_select (h : stmt.half? = none) : stmt.Preserves K := by
  intro t t' rows hK hrun
  cases stmt with
  | insertElection _ _ _ _ _ _ | insertOption _ _ _ | insertEligible _ _ | insertBallot _ _ _ _ _
  | insertOwner _ _ _ _ | insertNonce _ _ | deleteElection _ | deleteBallot _ _
  | deleteOwner _ _ => cases h
  | _ =>
    obtain ⟨rfl, -⟩ := Prod.mk.inj (some.inj hrun)
    exact hK

lemma dbExec_keeps_emits (hcmd : ∀ stmt, cmd.Emits stmt → stmt.Preserves K) :
    BrainM.Keeps K (dbExec ch cmd) := by
  have hop : Invariant (Keeps K) (runOp ch cmd) :=
    runOp_keeps (E := fun _ => Keeps K) (fun _ hl => hl) fun cap stmt hsend =>
      execStmt_keeps (hcmd stmt hsend)
  have hself (attempts : ℕ) : BrainM.Keeps K (selfRetry ch cmd attempts) := by
    induction attempts with
    | zero => exact raise _
    | succ attempts ih =>
      refine attempt_bind (onFresh_keeps (Triple.ite (fun _ => wrapWrite_keeps hop)
        fun _ => hop)) (fun _ => ret _) fun e => ?_
      cases e with
      | retry => exact ih
      | _ => exact raise _
  refine (bbLog_keeps (fun _ _ h => h) _).bind fun _ => Triple.get_bind fun w hw => ?_
  rw [hw.1]
  exact (hself _).pre fun w' hw' => hw' ▸ hw

lemma dbExec_keeps (hcmd : cmd.Preserves K) : BrainM.Keeps K (dbExec ch cmd) :=
  dbExec_keeps_emits fun stmt hsend => hcmd stmt hsend.sends

/-! ## Handlers -/

section Handlers

def DbCmd.isPlain : DbCmd → Bool
  | .insertElection .. | .nonceMark .. | .nonceSeen .. => false
  | _ => true

abbrev BrainM.Stays {α : Type} (W : World ι → Prop) (G : BbErr → Prop) (x : BrainM ι α) : Prop :=
  Triple W x (fun _ => W) (fun e w => G e ∧ W w)

variable {W : World ι → Prop} {G : BbErr → Prop} (hG : ∀ e, e ≠ .retry → G e)
  (hlog : ∀ w log, W w → W { w with log := log })
  (hexec : ∀ cmd : DbCmd, cmd.isPlain = true → cmd.isWrite = false →
    BrainM.Stays W G (dbExec ch cmd))
  (halloc : BrainM.Stays W (fun _ => True) (onFresh ch (execStmt ch 4096 .selectMaxSeq)))

include hG in
lemma refuse_keeps {Q : α → World ι → Prop} {e : BbErr} (he : e ≠ .retry) :
    Triple W (MonadExcept.throw e : BrainM ι α) Q (fun e w => G e ∧ W w) :=
  (Triple.throw e).pre fun _ hw => ⟨hG e he, hw⟩

include hG hexec in
lemma loadElection_keeps (eid : CStr bbIdLen) : BrainM.Stays W G (loadElection ch eid) := by
  refine (hexec _ rfl rfl).bind fun res => ?_
  exact Triple.ite (fun _ => refuse_keeps hG (by simp)) fun _ => ret _

include hG hlog hexec in
lemma bbTransitionState_keeps {target : BbState}
    (hmove : BrainM.Stays W G (dbExec ch (.updateState eid target))) :
    BrainM.Stays W G (bbTransitionState ch eid target) := by
  refine (hexec _ rfl rfl).bind fun res => ?_
  refine Triple.ite (fun _ => refuse_keeps hG (by simp)) fun _ => ?_
  refine Triple.ite (fun _ => (bbLog_keeps hlog _).bind fun _ =>
    refuse_keeps hG (by simp)) fun _ => ?_
  exact hmove.bind fun _ => ret _

include halloc in
lemma bbAllocId_keeps : BrainM.Stays W G (bbAllocId ch) :=
  attempt_bind halloc (fun _ => ret _) fun _ =>
    of_imp fun _ => ret _

include hG hlog hexec halloc in
lemma chooseId_keeps (desired : CStr bbIdLen) : BrainM.Stays W G (chooseId ch desired) := by
  refine Triple.ite (fun _ => bbAllocId_keeps halloc) fun _ => ?_
  refine attempt_bind (loadElection_keeps hG hexec desired) (fun _ => ?_) fun e => ?_
  · exact (bbLog_keeps hlog _).bind fun _ => refuse_keeps hG (by simp)
  · cases e with
    | notFound => exact of_imp fun _ => ret _
    | _ => exact fun _ hw => hw

include hG hlog hexec halloc in
lemma bbCreateElection_keeps
    (hconfig : ∀ id, BrainM.Stays W G (dbExec ch (.insertElection id config)))
    (desired : CStr bbIdLen) : BrainM.Stays W G (bbCreateElection ch config desired) := by
  have hvalid {e : BbErr} (he : bbValidateConfig config = .error e) : e ≠ .retry := by
    unfold bbValidateConfig at he
    rintro rfl
    split_ifs at he <;> cases he
  unfold bbCreateElection
  cases hconf : bbValidateConfig config with
  | error e => exact (bbLog_keeps hlog _).bind fun _ => refuse_keeps hG (hvalid hconf)
  | ok _ =>
    refine (chooseId_keeps hG hlog hexec halloc desired).bind fun id => ?_
    exact (hconfig id).bind fun _ => ret _

include hG hlog hexec in
lemma bbJoin_keeps (hresp : ∀ w resp, W w → W { w with resp := resp }) (crypto : Crypto)
    (eid : CStr bbIdLen) (cert : CStr bbCertLen) :
    BrainM.Stays W G (bbJoin ch crypto eid cert) := by
  refine (loadElection_keeps hG hexec eid).bind fun e => ?_
  refine Triple.bind (bbLogAll_keeps hlog _) fun _ => ?_
  cases (crypto.verifyCert cert).1 with
  | valid =>
    refine Triple.ite (fun _ => (bbLogAll_keeps hlog _).bind fun _ =>
      refuse_keeps hG (by simp)) fun _ => ?_
    refine Triple.ite (fun _ => (bbLog_keeps hlog _).bind fun _ =>
      refuse_keeps hG (by simp)) fun _ => ?_
    refine Triple.bind (Q := fun _ => W) (fun w hw => hresp w _ hw) fun _ => ?_
    exact Triple.bind (hexec _ rfl rfl) fun _ w hw => hresp w _ hw
  | _ => exact refuse_keeps hG (by simp)

include hexec in
lemma fetchResults_keeps (eid : CStr bbIdLen) (e : BbElection) :
    BrainM.Stays W G (fetchResults ch eid e) :=
  (hexec _ rfl rfl).bind fun _ => (hexec _ rfl rfl).bind fun _ => ret _

include hG hexec in
lemma bbGetResults_keeps (eid : CStr bbIdLen) (cert : CStr bbCertLen) :
    BrainM.Stays W G (bbGetResults ch eid cert) := by
  refine (loadElection_keeps hG hexec eid).bind fun e => ?_
  refine Triple.ite (fun _ => refuse_keeps hG (by simp)) fun _ => ?_
  exact Triple.ite (fun _ => refuse_keeps hG (by simp)) fun _ => fetchResults_keeps hexec eid e

include hG hexec in
lemma bbGetResultsAdmin_keeps (eid : CStr bbIdLen) :
    BrainM.Stays W G (bbGetResultsAdmin ch eid) := by
  refine (loadElection_keeps hG hexec eid).bind fun e => ?_
  exact Triple.ite (fun _ => refuse_keeps hG (by simp)) fun _ => fetchResults_keeps hexec eid e

include hG hexec in
lemma bbLookupHash_keeps (eid : CStr bbIdLen) (hash : CStr bbHashLen) :
    BrainM.Stays W G (bbLookupHash ch eid hash) := by
  refine (loadElection_keeps hG hexec eid).bind fun e => ?_
  refine (hexec _ rfl rfl).bind fun res => ?_
  exact Triple.ite (fun _ => refuse_keeps hG (by simp)) fun _ => ret _

def World.Answered (W : World ι → Prop) (w : World ι) : Prop :=
  ∃ w₀ resp, W w₀ ∧ w = { w₀ with resp := resp }

include hG hlog hexec halloc in
lemma dispatchOp_keeps (hjoin : req.op ≠ .join) (hballot : ¬ (req.op = .cast ∨ req.op = .update))
    (hmove : req.op = .opening ∨ req.op = .close ∨ req.op = .publish →
      ∀ target, BrainM.Stays W G (dbExec ch (.updateState req.electionId target)))
    (hconfig : req.op = .create →
      ∀ id, BrainM.Stays W G (dbExec ch (.insertElection id req.config))) :
    Triple W (dispatchOp ch crypto req) (fun _ => Answered W) (fun e w => G e ∧ W w) := by
  have hdone {f : World ι → BclResponse} :
      Triple W (modify fun w => { w with resp := f w } : BrainM ι PUnit)
        (fun _ => Answered W) (fun e w => G e ∧ W w) :=
    fun w hw => ⟨w, f w, hw, rfl⟩
  have hmoved (hreq : req.op = .opening ∨ req.op = .close ∨ req.op = .publish)
      (target : BbState) : Triple W (bbTransitionState ch req.electionId target)
        (fun _ => Answered W) (fun e w => G e ∧ W w) :=
    (bbTransitionState_keeps hG hlog hexec (hmove hreq target)).post
      fun _ w hw => ⟨w, w.resp, hw, rfl⟩
  unfold dispatchOp
  cases hreq : req.op with
  | create =>
    exact (bbCreateElection_keeps hG hlog hexec halloc (hconfig hreq) _).bind fun _ => hdone
  | adminNextId => exact (bbAllocId_keeps halloc).bind fun _ => hdone
  | opening => exact hmoved (.inl hreq) .opened
  | close => exact hmoved (.inr (.inl hreq)) .closed
  | publish => exact hmoved (.inr (.inr hreq)) .published
  | join => exact absurd hreq hjoin
  | cast => exact absurd (.inl hreq) hballot
  | update => exact absurd (.inr hreq) hballot
  | results => exact (bbGetResults_keeps hG hexec _ _).bind fun _ => hdone
  | adminResults => exact (bbGetResultsAdmin_keeps hG hexec _).bind fun _ => hdone
  | check | adminCheck => exact (bbLookupHash_keeps hG hexec _ _).bind fun _ => hdone

include hG hlog hexec halloc in
lemma dispatchOp_stays (hresp : ∀ w resp, W w → W { w with resp := resp })
    (hballot : ¬ (req.op = .cast ∨ req.op = .update))
    (hmove : req.op = .opening ∨ req.op = .close ∨ req.op = .publish →
      ∀ target, BrainM.Stays W G (dbExec ch (.updateState req.electionId target)))
    (hconfig : req.op = .create →
      ∀ id, BrainM.Stays W G (dbExec ch (.insertElection id req.config))) :
    BrainM.Stays W G (dispatchOp ch crypto req) := by
  by_cases hjoin : req.op = .join
  · unfold dispatchOp
    rw [hjoin]
    exact bbJoin_keeps hG hlog hexec hresp crypto _ _
  · refine (dispatchOp_keeps hG hlog hexec halloc hjoin hballot hmove hconfig).post ?_
    rintro _ _ ⟨w₀, resp, hw₀, rfl⟩
    exact hresp _ _ hw₀

end Handlers

lemma ballotdDispatch_idleWith
    (hrun : BrainM.Keeps K (dispatchOp ch crypto req)) {w : World ι} (hw : w.IdleWith K) :
    (ballotdDispatch ch crypto req w).IdleWith K := by
  have hw' : IdleWith K { w with resp := default } := hw
  unfold ballotdDispatch
  cases hx : dispatchOp ch crypto req { w with resp := default } with
  | ok a w' =>
    have h : w'.IdleWith K := hrun.of_ok hw' hx
    exact h
  | error e w' =>
    have h : w'.IdleWith K := hrun.of_error hw' hx
    exact h

lemma dispatchOp_keeps_tables (hread : ∀ cmd : DbCmd, cmd.isPlain = true → cmd.isWrite = false →
      cmd.Preserves K)
    (hop : ¬ (req.op = .cast ∨ req.op = .update))
    (hmove : req.op = .opening ∨ req.op = .close ∨ req.op = .publish →
      ∀ target, (DbCmd.updateState req.electionId target).Preserves K)
    (hconfig : req.op = .create → ∀ id, (DbCmd.insertElection id req.config).Preserves K) :
    BrainM.Keeps K (dispatchOp ch crypto req) := by
  have hstays {α : Type} {x : BrainM ι α} (hx : BrainM.Keeps K x) :
      BrainM.Stays (IdleWith K) (fun _ => True) x :=
    Triple.conseq hx (fun _ => id) (fun _ _ => id) fun _ _ h => ⟨trivial, h⟩
  have hselect : Stmt.Preserves K .selectMaxSeq :=
    hread (.getElection default) rfl rfl _ ⟨trivial, .inl rfl⟩
  have hrun : BrainM.Stays (IdleWith K) (fun _ => True) (dispatchOp ch crypto req) :=
    dispatchOp_stays (fun _ _ => trivial) (fun _ _ h => h)
      (fun cmd hplain hcmd => hstays (dbExec_keeps (hread cmd hplain hcmd)))
      (hstays (onFresh_keeps (execStmt_keeps hselect))) (fun _ _ h => h) hop
      (fun hreq target => hstays (dbExec_keeps (hmove hreq target)))
      fun hcreate id => hstays (dbExec_keeps (hconfig hcreate id))
  exact hrun.err fun _ _ h => h.2

theorem ballotdDispatch_keeps (hplain : ∀ cmd : DbCmd, cmd.isPlain = true → cmd.Preserves K)
    (hop : ¬ (req.op = .cast ∨ req.op = .update))
    (hconfig : req.op = .create → ∀ id, (DbCmd.insertElection id req.config).Preserves K)
    {w : World ι} (hw : w.IdleWith K) : (ballotdDispatch ch crypto req w).IdleWith K :=
  ballotdDispatch_idleWith (dispatchOp_keeps_tables (fun cmd hcmd _ => hplain cmd hcmd) hop
    (fun _ _ => hplain _ rfl) hconfig) hw

/-! ## Inside the transaction of a recording -/

lemma admitBallot_rule {W₀ : World ι → Prop} {W : BbElection → World ι → Prop}
    {F : BbErr → World ι → Prop} (hlog : ∀ e w log, W e w → W e { w with log := log })
    (hfail : ∀ e err w, (err = .retry → (crypto.decryptBallot ballot).1 = .error .retry) → W e w →
      F err w) (hload : Triple W₀ (loadElection ch eid) W F) :
    Triple W₀ (admitBallot ch crypto eid ballot)
      (fun opt w => ∃ e : BbElection, (e.state = .opened ∧
      bbCheckEligibility e ballot.certName = true ∧ (crypto.decryptBallot ballot).1 = .ok opt ∧
      0 ≤ opt ∧ opt < e.optionCount) ∧ W e w) F := by
  have hrefuse {α : Type} {Q : α → World ι → Prop} {e : BbElection} (err : BbErr)
      (herr : err = .retry → (crypto.decryptBallot ballot).1 = .error .retry) :
      Triple (W e) (MonadExcept.throw err : BrainM ι α) Q F :=
    (Triple.throw err).pre fun w => hfail e err w herr
  refine hload.bind fun e => Triple.ite (fun _ => hrefuse _ nofun) fun _ => ?_
  refine Triple.ite (fun _ => hrefuse _ nofun) fun hopen => ?_
  refine Triple.ite (fun _ => (bbLogAll_keeps (hlog e) _).bind fun _ => hrefuse _ nofun)
    fun heligible => ?_
  refine (bbLogAll_keeps (hlog e) _).bind fun _ => ?_
  cases hdecrypt : (crypto.decryptBallot ballot).1 with
  | error err => exact hrefuse err fun herr => herr ▸ hdecrypt
  | ok opt =>
    refine Triple.ite (fun _ => hrefuse _ nofun) fun hrange => ?_
    refine (Triple.pure opt).pre fun w hw => ⟨e, ⟨?_, ?_, rfl, ?_⟩, hw⟩
    · simpa using hopen
    · simpa using heligible
    · omega

lemma issueReceipt_rule {W F : World ι → Prop} {R : BbReceipt → World ι → Prop}
    (hlog : ∀ w log, W w → W { w with log := log }) (hfail : ∀ w, W w → F w) (version : ℤ)
    (hresp : ∀ w clock receipt, (crypto.issueReceipt clock ballot version).1 = .ok receipt → W w →
      R receipt { w with resp := { w.resp with receipt := receipt } }) :
    Triple W (issueReceipt crypto ballot version : BrainM ι BbReceipt) R (fun _ => F) := by
  refine Triple.get_bind fun w hw => Triple.pre ((bbLogAll_keeps (P := W) hlog _).bind
    fun _ => ?_) fun w' hw' => hw' ▸ hw
  cases hissued : (crypto.issueReceipt w.server.clock ballot version).1 with
  | error err => exact (Triple.throw err).pre hfail
  | ok receipt => exact fun w' hw' => hresp _ _ _ hissued hw'

section Recording

variable {W : World ι → Prop} (hlog : ∀ w log, W w → W { w with log := log })
  (hexec : ∀ cmd : DbCmd, cmd.half? ≠ some .registry → Invariant W (dbExec ch cmd))

include hlog hexec

lemma admitBallot_keeps (crypto : Crypto) (eid : CStr bbIdLen) (ballot : BbBallot) :
    Invariant W (admitBallot ch crypto eid ballot) := by
  have hload : Invariant W (loadElection ch eid) :=
    Triple.bind (hexec _ nofun) fun _ => Triple.ite (fun _ => raise _) fun _ => ret _
  refine (admitBallot_rule (W := fun _ => W) (fun _ => hlog) (fun _ _ _ _ hw => hw) hload).post ?_
  exact fun _ w ⟨_, _, hw⟩ => hw

omit hlog in
lemma writeBallot_keeps (eid : CStr bbIdLen) (ballot : BbBallot) (opt : ℤ) (prior : DbResult)
    (version : ℤ) (receipt : BbReceipt) :
    Invariant W (writeBallot ch eid ballot opt prior version receipt) := by
  have hlast : Invariant W (do
      let _ ← dbExec ch (.setOwner eid ballot.certName receipt.hash version)
      let _ ← dbExec ch (.nonceMark eid ballot.nonce)) :=
    Triple.bind (hexec _ nofun) fun _ => Triple.bind (hexec _ nofun) fun _ => ret _
  refine Triple.bind (hexec _ nofun) fun _ => ?_
  exact Triple.ite (fun _ => Triple.bind (hexec _ nofun) fun _ => hlast) fun _ => hlast

lemma recordBallotLocked_keeps (crypto : Crypto) (eid : CStr bbIdLen) (ballot : BbBallot)
    (hresp : ∀ w clock version receipt, (crypto.issueReceipt clock ballot version).1 = .ok receipt →
      W w → W { w with resp := { w.resp with receipt := receipt } }) :
    Invariant W (recordBallotLocked ch crypto eid ballot) := by
  have hissue (version : ℤ) :
      Invariant W (issueReceipt crypto ballot version : BrainM ι BbReceipt) :=
    issueReceipt_rule hlog (fun _ hw => hw) version fun w clock => hresp w clock version
  refine Triple.bind (admitBallot_keeps hlog hexec crypto eid ballot) fun opt => ?_
  refine Triple.bind (hexec _ nofun) fun seen => Triple.ite (fun _ => raise _) fun _ => ?_
  refine Triple.bind (hexec _ nofun) fun prior => Triple.bind (hissue _) fun receipt => ?_
  exact writeBallot_keeps hexec eid ballot opt prior _ receipt

end Recording

lemma recordLoop_rule
    {A T B B' Q F : World ι → Prop} (hbegin : Triple A (bbDbBegin ch) (fun _ => T) (fun _ => F))
    (hattempt : Triple T (recordBallotLocked ch crypto eid ballot) (fun _ => B) (fun _ => B'))
    (hcommit : Triple B (bbDbCommit ch) (fun _ => Q) (fun _ => A))
    (hback : Triple B' (bbDbRollback ch) (fun _ => A) (fun _ => F)) (hfail : ∀ w, A w → F w)
    (last : BbErr) (rounds : ℕ) :
    Triple A (recordLoop ch crypto eid ballot last rounds) (fun _ => Q) (fun _ => F) := by
  induction rounds generalizing last with
  | zero => exact (Triple.throw last).pre hfail
  | succ rounds ih =>
    refine hbegin.bind fun _ => attempt_bind hattempt (fun _ => ?_) fun e => ?_
    · refine attempt_bind hcommit (fun _ => ret _) fun e => ?_
      cases e with
      | retry => exact ih .retry
      | _ => exact (Triple.throw _).pre hfail
    · cases e with
      | retry => exact hback.bind fun _ => ih .retry
      | _ => exact hback.bind fun _ => (Triple.throw _).pre hfail

lemma bbRecordBallot_keeps (hcmd : ∀ cmd : DbCmd, cmd.half? ≠ some .registry → cmd.Preserves K)
    (crypto : Crypto) (eid : CStr bbIdLen) (ballot : BbBallot) :
    BrainM.Keeps K (bbRecordBallot ch crypto eid ballot) := by
  have hexec (cmd : DbCmd) (hhalf : cmd.half? ≠ some .registry) :
      Invariant (OnTxn (Keeps K)) (dbExec ch cmd) :=
    dbExec_lift (runOp_keeps (E := fun _ => Keeps K) (fun _ hl => hl) fun cap stmt hsend =>
      execStmt_keeps (hcmd cmd hhalf stmt hsend.sends))
  have hcontrol {stmt : Stmt} (hstmt : stmt.isData = false) :
      Triple (Keeps K) (execStmt ch 0 stmt) (fun _ l => K l.server.store)
        (fun _ l => K l.server.store) :=
    (execStmt_control_keeps hstmt).ends (fun _ _ h => h.1) fun _ _ h => h.1
  have hbegin : Triple (IdleWith K) (bbDbBegin ch) (fun _ => OnTxn (Keeps K))
      (fun _ => IdleWith K) := by
    refine bbDbBegin_lift (P := Keeps K) (S := fun s => K s.store)
      (T := fun _ s => K s.store) (fun s hs => ?_)
      ((execStmt_control_keeps rfl).err fun _ _ h => h.1)
    by_cases hlost : ∃ why, s.next = .lost why
    · exact .inl ⟨hlost, hs⟩
    · exact .inr ⟨not_exists.mp hlost, hs, by simp⟩
  exact recordLoop_rule hbegin
    (recordBallotLocked_keeps (fun _ _ h => h) hexec crypto eid ballot fun _ _ _ _ _ h => h)
    (bbDbCommit_lift (S := fun s => K s.store) (T := fun _ s => K s.store) (hcontrol rfl))
    (bbDbRollback_lift (S := fun s => K s.store) (hcontrol rfl))
    (fun _ h => h) _ _

end BallotBox
