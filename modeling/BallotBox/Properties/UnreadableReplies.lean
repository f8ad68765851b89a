import BallotBox.Properties.Support.Statements

/-!
# Replies that cannot be read

`db_row_count` has a negative answer for a body in which no table was found.  This module lets a
read operation meet arbitrary bodies, each with an ok marker, and asks whether it ever returns
`BB_OK` on one it cannot read.
-/

namespace BallotBox

open DbCmd Triple

variable {reply : Reply} {eid : CStr bbIdLen} {cmd : DbCmd}

/-! ## Arbitrary replies -/

def Unreadable (body : Bytes) : Prop := dbRowCount body < 0

instance (body : Bytes) : Decidable (Unreadable body) := inferInstanceAs (Decidable (_ < _))

def scripted (replies : ℕ → Bytes) : Channel ℕ where
  fresh := 0
  deliver _ k verdict := match verdict with
    | .ok _ => ((.ok, readRows (replies k)), k + 1)
    | .error => ((.error, none), k)
    | .retry => ((.retry, none), k)

variable {replies : ℕ → Bytes} {cap k : ℕ} {stmt : Stmt}

lemma rowCount_readRows (body : Bytes) : (readRows body).rowCount < 0 ↔ Unreadable body := by
  unfold readRows Unreadable
  split_ifs with h
  · simp [Reply.rowCount, h]
  · simp [Reply.rowCount, h]

lemma execStmt_scripted : Triple (fun l => l.conn.inbox = k) (execStmt (scripted replies) cap stmt)
      (fun reply l => (reply = readRows (replies k) ∧ stmt.hasBreak = false) ∧ l.conn.inbox = k + 1)
      (fun _ _ => True) := by
  intro l hl
  have hx := dbSocketExec_exchange (scripted replies) cap stmt l
  rw [EStateM.run, execStmt]
  generalize dbSocketExec (scripted replies) cap stmt l = r at hx
  cases hx with
  | unsent status hok hretry => cases status <;> simp_all [mapStatus]
  | lost why => cases why <;> simp [Link.lose, Terminal.status, mapStatus]
  | failed verdict h => rcases h with rfl | rfl <;> simp [Link.receive, scripted, mapStatus]
  | ran order view store answer hbreak h =>
    simp [Link.receive, scripted, mapStatus, hbreak, hl]

/-- A connection on which everything is answered, after `k` replies. -/
structure Link.Answers (k : ℕ) (l : Link ℕ) : Prop where
  inbox : l.conn.inbox = k
  failed : l.conn.failed = none
  view : l.conn.view = none
  sched : ∀ n, ∃ order, l.server.sched n = .ok order

lemma execStmt_answers {rows : Tables → List Row} (hsel : ∀ t, stmt.run t = some (t, rows t))
    (hdata : stmt.isData = true) (hbreak : stmt.hasBreak = false) :
    Triple (Link.Answers k) (execStmt (scripted replies) cap stmt)
      (fun reply l => reply = readRows (replies k) ∧ l.Answers (k + 1)) (fun _ _ => False) := by
  intro l hl
  obtain ⟨order, hnext⟩ := hl.sched l.server.clock
  have hrun : l.execute order stmt =
      some (none, l.server.store, .table stmt.desc (order.apply (rows l.server.store))) := by
    rw [Link.execute_data hdata, Link.runData, hl.view]
    simp [hsel]
  simp only [EStateM.run, execStmt, dbSocketExec, hl.failed, hbreak, Server.next, hnext, hrun,
    Link.receive, scripted, mapStatus, hl.inbox]
  exact ⟨rfl, rfl, rfl, rfl, hl.sched⟩

/-! ## The operations -/

def DbCmd.select : DbCmd → Stmt
  | .getElection eid => .selectElection eid.bytes
  | .getTally eid => .selectTally eid.bytes
  | .getHashes eid => .selectHashes eid.bytes
  | .findHash eid hash => .selectHash eid.bytes hash.bytes
  | .nonceSeen eid nonce => .selectNonce eid.bytes nonce.bytes
  | .getPriorBallot eid cert => .selectPrior eid.bytes cert.bytes
  | _ => .selectMaxSeq

/-- The reply names an election in a known state, so its options and eligible names are asked for.
-/
def Reply.namesElection (reply : Reply) : Bool :=
  match reply.rowFields 0 with
  | some (_ :: _ :: _ :: state :: _ :: _ :: _) =>
    (parseState (CStr.ofBytes state : CStr 16).bytes).isSome
  | _ => false

lemma fields_of_namesElection (h : reply.namesElection = true) :
    ∃ seq id title state openTime closeTime rest st,
      reply.rowFields 0 = some (seq :: id :: title :: state :: openTime :: closeTime :: rest) ∧
      parseState (CStr.ofBytes state : CStr 16).bytes = some st := by
  unfold Reply.namesElection at h
  split at h
  · rename_i seq id title state openTime closeTime rest hfields
    obtain ⟨st, hstate⟩ := Option.isSome_iff_exists.mp h
    exact ⟨seq, id, title, state, openTime, closeTime, rest, st, hfields, hstate⟩
  · cases h

def DbCmd.asks (replies : ℕ → Bytes) (cmd : DbCmd) : ℕ :=
  if cmd.select.hasBreak then 0
  else match cmd with
    | .getElection _ => if (readRows (replies 0)).namesElection then 3 else 1
    | _ => 1

def RefusesUnreadable (cmd : DbCmd) (replies : ℕ → Bytes) : Prop :=
  ∀ l : Link ℕ, l.conn.inbox = 0 → ∀ out l', runOp (scripted replies) cmd l = .ok out l' →
    ∀ i < l'.conn.inbox, ¬ Unreadable (replies i)

lemma giveUp {σ α : Type} {P : σ → Prop} {Q : α → σ → Prop} (e : BbErr) :
    Triple P (MonadExcept.throw e : EStateM BbErr σ α) Q (fun _ _ => True) := fun _ _ => trivial

lemma asks_getElection (hbreak : (Stmt.selectElection eid.bytes).hasBreak = false) :
    (getElection eid).asks replies =
      if (readRows (replies 0)).namesElection then 3 else 1 := by
  have hselect : (getElection eid).select.hasBreak = false := hbreak
  simp [asks, hselect]

lemma namesElection_of_rowCount (h : reply.rowCount = 0) : reply.namesElection = false := by
  cases reply with
  | none => rfl
  | some rows =>
    obtain rfl : rows = [] := by simpa [Reply.rowCount] using h
    rfl

lemma runGetElection_scripted (eid : CStr bbIdLen) :
    Triple (fun l => l.conn.inbox = 0) (runGetElection (scripted replies) eid)
      (fun _ l => l.conn.inbox = (getElection eid).asks replies ∧ ¬ Unreadable (replies 0))
      (fun _ _ => True) := by
  refine execStmt_scripted.bind fun reply => of_imp ?_
  rintro ⟨rfl, hbreak⟩
  rw [asks_getElection hbreak]
  refine Triple.ite (fun _ => giveUp _) fun hcount => ?_
  have hreadable : ¬ Unreadable (replies 0) := fun h => hcount ((rowCount_readRows _).mpr h)
  refine Triple.ite (fun hzero => ?_) fun hsome => ?_
  · rw [namesElection_of_rowCount hzero]
    exact (Triple.pure _).pre fun l hl => ⟨hl, hreadable⟩
  · split
    · rename_i fields seq id title state openTime closeTime rest hfields
      cases hstate : parseState (CStr.ofBytes state : CStr 16).bytes with
      | none => exact giveUp _
      | some st =>
        have hnames : (readRows (replies 0)).namesElection = true := by
          simp [Reply.namesElection, hfields, hstate]
        rw [hnames]
        refine bind_imp execStmt_scripted fun options _ => ?_
        refine bind_imp execStmt_scripted fun eligible _ => ?_
        exact (Triple.pure _).pre fun l hl => ⟨hl, hreadable⟩
    · exact giveUp _

lemma runOp_scripted (hread : cmd.isWrite = false) :
    Triple (fun l => l.conn.inbox = 0) (runOp (scripted replies) cmd)
      (fun _ l => l.conn.inbox = cmd.asks replies ∧
        ∀ eid, cmd = .getElection eid → ¬ Unreadable (replies 0))
      (fun _ _ => True) := by
  -- outside `GET_ELECTION`, one reply decides
  have hone {x : Reply → EStateM BbErr (Link ℕ) DbResult} (hother : ∀ eid, cmd ≠ .getElection eid)
      (hx : ∀ reply, Triple (fun l => l.conn.inbox = 1) (x reply) (fun _ l => l.conn.inbox = 1)
        (fun _ _ => True)) :
      Triple (fun l => l.conn.inbox = 0) (execStmt (scripted replies) bodyMax cmd.select >>= x)
        (fun _ l => l.conn.inbox = cmd.asks replies ∧
          ∀ eid, cmd = .getElection eid → ¬ Unreadable (replies 0)) (fun _ _ => True) := by
    refine bind_imp execStmt_scripted fun reply h => ?_
    refine (hx reply).post fun _ l hl => ⟨hl.trans ?_, fun eid heq => absurd heq (hother eid)⟩
    cases cmd <;> simp_all [asks]
  cases cmd with
  | getElection eid =>
    refine (runGetElection_scripted eid).post fun _ l hl => ⟨hl.1, ?_⟩
    exact fun _ _ => hl.2
  | getTally eid | getHashes eid | nonceSeen eid nonce => exact hone (by simp) fun _ => ret _
  | findHash eid hash | getPriorBallot eid cert =>
    refine hone (by simp) fun _ => Triple.ite (fun _ => ret _) fun _ => ?_
    split
    · exact ret _
    · exact giveUp _
  | _ => cases hread

lemma runGetElection_answers (hbreak : (Stmt.selectElection eid.bytes).hasBreak = false)
    (hnames : (readRows (replies 0)).namesElection = true) :
    Triple (Link.Answers 0) (runGetElection (scripted replies) eid) (fun _ => Link.Answers 3)
      (fun _ _ => False) := by
  refine (execStmt_answers (fun _ => rfl) rfl hbreak).bind fun reply => of_imp ?_
  rintro rfl
  obtain ⟨seq, id, title, state, openTime, closeTime, rest, st, hfields, hstate⟩ :=
    fields_of_namesElection hnames
  have hcount : 0 < (readRows (replies 0)).rowCount := by
    cases hrows : readRows (replies 0) with
    | none => simp [hrows, Reply.rowFields] at hfields
    | some rows =>
      cases rows with
      | nil => simp [hrows, Reply.rowFields] at hfields
      | cons row rows => simp [Reply.rowCount]
  refine Triple.ite (fun h => absurd h (by omega)) fun _ => ?_
  refine Triple.ite (fun h => absurd h (by omega)) fun _ => ?_
  rw [hfields]
  dsimp only
  rw [hstate]
  refine Triple.bind (execStmt_answers (fun _ => rfl) rfl hbreak) fun _ => of_imp ?_
  rintro rfl
  refine Triple.bind (execStmt_answers (fun _ => rfl) rfl hbreak) fun _ => of_imp ?_
  rintro rfl
  exact ret _

lemma runOp_answers (hread : cmd.isWrite = false)
    (hother : ∀ eid, cmd ≠ .getElection eid) (hbreak : cmd.select.hasBreak = false)
    (hbad : Unreadable (replies 0)) :
    Triple (Link.Answers 0) (runOp (scripted replies) cmd) (fun _ => Link.Answers 1)
      (fun _ _ => False) := by
  have hcount : (readRows (replies 0)).rowCount ≤ 0 := ((rowCount_readRows _).mpr hbad).le
  cases cmd with
  | getElection eid => exact absurd rfl (hother eid)
  | getTally eid | getHashes eid | nonceSeen eid nonce =>
    refine (execStmt_answers (fun _ => rfl) rfl hbreak).bind fun _ => of_imp ?_
    exact fun _ => ret _
  | findHash eid hash | getPriorBallot eid cert =>
    refine (execStmt_answers (fun _ => rfl) rfl hbreak).bind fun _ => of_imp ?_
    rintro rfl
    exact Triple.ite (fun _ => ret _) fun h => absurd hcount h
  | _ => cases hread

def answeringLink : Link ℕ := ⟨⟨none, 0, none⟩, ⟨.empty, fun _ => .ok .stored, 0, []⟩⟩

lemma answeringLink_answers : answeringLink.Answers 0 := ⟨rfl, rfl, rfl, fun _ => ⟨_, rfl⟩⟩

/-- A read operation refuses the replies it cannot read exactly if these are not among the ones it
gets, except for the first of `GET_ELECTION`. -/
theorem refuses_unreadable_iff (replies : ℕ → Bytes) (cmd : DbCmd) (hread : cmd.isWrite = false) :
    RefusesUnreadable cmd replies ↔ ∀ i < cmd.asks replies, Unreadable (replies i) →
      i = 0 ∧ ∃ eid, cmd = .getElection eid := by
  constructor
  · intro h i hi hbad
    by_contra hsafe
    have hbreak : cmd.select.hasBreak = false := by
      cases hb : cmd.select.hasBreak with
      | false => rfl
      | true => simp [DbCmd.asks, hb] at hi
    by_cases hget : ∃ eid, cmd = .getElection eid
    · -- past its first reply, which then names an election
      obtain ⟨eid, rfl⟩ := hget
      have hpos : i ≠ 0 := fun h0 => hsafe ⟨h0, eid, rfl⟩
      rw [asks_getElection hbreak] at hi
      have hnames : (readRows (replies 0)).namesElection = true := by
        by_contra hnames
        rw [if_neg hnames] at hi
        omega
      obtain ⟨out, l', hrun, hl'⟩ :=
        (runGetElection_answers hbreak hnames).returns answeringLink_answers
      rw [if_pos hnames] at hi
      exact h answeringLink rfl out l' hrun i (hl'.inbox ▸ hi) hbad
    · have hother : ∀ eid, cmd ≠ .getElection eid := not_exists.mp hget
      obtain rfl : i = 0 := by
        cases cmd <;> simp_all [DbCmd.asks]
      obtain ⟨out, l', hrun, hl'⟩ :=
        (runOp_answers hread hother hbreak hbad).returns answeringLink_answers
      exact h answeringLink rfl out l' hrun 0 (hl'.inbox ▸ Nat.zero_lt_one) hbad
  · intro h l hl out l' hrun i hi hbad
    obtain ⟨hinbox, hguard⟩ := (runOp_scripted hread).of_ok hl hrun
    obtain ⟨rfl, eid, heq⟩ := h i (hinbox ▸ hi) hbad
    exact hguard eid heq hbad

def cutTable : Bytes := unlines [ascii "ballot.option_index" ++ [tab], ascii "----", ascii "0"]

/-- `GET_ELECTION` does refuse a first reply that it cannot read. -/
theorem election_row_refused : RefusesUnreadable (.getElection default) fun _ => cutTable := by
  refine (refuses_unreadable_iff _ _ rfl).mpr fun i hi _ => ⟨?_, default, rfl⟩
  have hasks : (DbCmd.getElection default).asks (fun _ => cutTable) = 1 := by decide +kernel
  omega

def electionTable : Bytes :=
  unlines [ascii "election.seq" ++ [tab], ascii "----",
    tupleLine (["1", "E-1", "Board", "OPEN", "09:00", "17:00"].map ascii), [], ascii " 1 rows."]

def DbCmd.answer (replies : ℕ → Bytes) (cmd : DbCmd) : Option DbResult :=
  match runOp (scripted replies) cmd answeringLink with
  | .ok out _ => some out
  | .error _ _ => none

/-- A body that could not be read is reported as no votes, no receipts, a hash that was not found,
a nonce that was not seen, no prior ballot, no options and no eligible names. -/
theorem unreadable_taken_for_empty : Unreadable cutTable ∧
    (∀ cmd ∈ [DbCmd.getTally default, .getHashes default, .findHash default default,
        .nonceSeen default default, .getPriorBallot default default],
      cmd.answer (fun _ => cutTable) = some default) ∧
    ((DbCmd.getElection default).answer fun i => if i = 0 then electionTable else cutTable).map
      (fun out => (out.found, out.election.optionCount, out.election.eligible)) =
        some (true, 0, []) := by
  decide +kernel

end BallotBox
