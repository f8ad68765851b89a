import BallotBox.Properties.Support.Draws
import BallotBox.Properties.Support.FaithfulRuns
import BallotBox.Properties.Support.Responses

/-!
# The retry code at the daemon's boundary

A response with the status `BB_ERR_RETRY` cannot be encoded, so the request is not answered.
`db_exec` turns the code into `BB_ERR_DB` in the end; `bb_record_ballot` returns the code of its
last round.
-/

namespace BallotBox

open World Triple

variable {n : ℕ} {req : BclRequest} {w : World Unit}
variable {E : BbErr → World Unit → Prop}

/-! ## Schedules on which every round retries -/

/-- All remaining rounds, the first at the entry `c`, are told to retry, if a round sends `k`
statements between opening and commit. A round draws an entry for the connection and one for its
transaction; after a retry before the commit it rolls back. -/
def RetriesAll (k : ℕ) (sched : ℕ → Outcome) : ℕ → ℕ → Prop
  | 0, _ => True
  | rounds + 1, c =>
    (∀ why, sched c ≠ .lost why) ∧
    (sched (c + 1) = .retry ∨
      (sched (c + 1)).isOk = true ∧ ∃ n ≤ k, AnswersFrom sched (c + 2) n ∧
        sched (c + 2 + n) = .retry ∧
        RetriesAll k sched rounds (c + 2 + n + 1 + if n = k then 0 else 1))

/-- The server draws the entry `c` of the schedule next. -/
def Server.AtEntry (sched : ℕ → Outcome) (c : ℕ) (s : Server) : Prop :=
  s.sched = sched ∧ s.clock = c

variable {sched : ℕ → Outcome} {c k m cap : ℕ} {stmt : Stmt}

lemma execStmt_ticks (hbreak : stmt.hasBreak = false) :
    Triple (Link.At sched c) (execStmt direct cap stmt)
      (fun _ l => l.server.AtEntry sched (c + 1)) (fun _ l => l.server.AtEntry sched (c + 1)) := by
  rintro l ⟨hlive, rfl, rfl⟩
  rw [EStateM.run, execStmt, dbSocketExec, hlive, hbreak]
  simp only [Server.next]
  cases hnext : l.server.sched l.server.clock with
  | lost why => cases why <;> exact ⟨rfl, rfl⟩
  | error => exact ⟨rfl, rfl⟩
  | retry => exact ⟨rfl, rfl⟩
  | ok order =>
    cases hx : l.execute order stmt with
    | none =>
      simp only [hx]
      exact ⟨rfl, rfl⟩
    | some out =>
      simp only [hx]
      exact ⟨rfl, rfl⟩

/-! ## The rounds -/

lemma bbDbBegin_draws : Triple (Between (Server.AtEntry sched c)) (bbDbBegin direct)
      (fun _ => OnTxn fun l => ((∀ why, sched c ≠ .lost why) ∧
        (sched (c + 1)).isOk = true) ∧ l.Drawn sched (c + 2) 0)
      (fun e => Between fun _ => e = .retry →
        (∀ why, sched c ≠ .lost why) ∧ sched (c + 1) = .retry) := by
  refine bbDbBegin_lift (P := fun l => (∀ why, sched c ≠ .lost why) ∧ l.At sched (c + 1)) ?_ ?_
  · rintro s ⟨rfl, rfl⟩
    by_cases hlost : ∃ why, s.next = .lost why
    · exact .inl ⟨hlost, fun he => by cases he⟩
    · exact .inr ⟨not_exists.mp hlost, not_exists.mp hlost, rfl, rfl, rfl⟩
  · refine of_imp fun hlost => execStmt_at.ends ?_ ?_
    · exact fun _ l hl => ⟨⟨hlost, hl.1⟩, fun i hi => absurd hi (by omega), hl.2⟩
    · exact fun e l hl he => ⟨hlost, (hl he).1⟩

lemma bbDbCommit_draws :
    Triple (Drawn sched c k) (bbDbCommit direct) (fun _ => Between fun _ =>
        (sched (c + k)).isOk = true)
      (fun e => Between fun s => e = .retry →
        sched (c + k) = .retry ∧ s.AtEntry sched (c + k + 1)) := by
  refine bbDbCommit_lift fun l hl => ?_
  refine execStmt_at.ends (fun _ _ h => h.1) ?_ l hl.2
  exact fun e l' h he => ⟨(h he).1, (h he).2.sched_eq, (h he).2.clock_eq⟩

lemma bbDbRollback_draws : Triple (OnTxn (Link.At sched c)) (bbDbRollback direct)
      (fun _ => Between (Server.AtEntry sched (c + 1))) E :=
  bbDbRollback_lift (execStmt_ticks rfl)

variable {eid : CStr bbIdLen} {ballot : BbBallot} {store : Tables}

/-- Between rounds, at the entry `c`. -/
def World.RoundAt (sched : ℕ → Outcome) (c : ℕ) (store : Tables) (w : World Unit) : Prop :=
  w.Rests store ∧ w.server.AtEntry sched c

lemma bbDbBegin_round : Triple (RoundAt sched c store) (bbDbBegin direct)
      (fun _ w => ((∀ why, sched c ≠ .lost why) ∧ (sched (c + 1)).isOk = true) ∧
        ∃ r, w.InTxn store store r ∧ w.Drawn sched (c + 2) 0)
      (fun e _ => e = .retry → (∀ why, sched c ≠ .lost why) ∧ sched (c + 1) = .retry) := by
  intro w hw
  have hbegin : Triple (Idle store w.resp) (bbDbBegin direct) _ _ := bbDbBegin_triple
  refine (hbegin.and bbDbBegin_draws).ends ?_ ?_ w ⟨⟨hw.1.1, hw.1.2, rfl⟩, hw.1.1, hw.2⟩
  · rintro _ w' ⟨htxn, conn, hconn, hround, hdrawn⟩
    exact ⟨hround, w.resp, htxn, conn, hconn, hdrawn⟩
  · exact fun e w' h => h.2.2

lemma bbDbRollback_round :
    Triple (fun w => (∃ r, w.Broken store r) ∧ w.OnTxn (Link.At sched n)) (bbDbRollback direct)
      (fun _ => RoundAt sched (n + 1) store) E := by
  rintro w ⟨⟨r, hbroken⟩, hat⟩
  refine (Triple.and (bbDbRollback_triple (E := E)) (bbDbRollback_draws (E := E))).ends ?_ ?_ w
    ⟨hbroken, hat⟩
  · exact fun _ w' h => ⟨⟨h.1.1, h.1.2.1⟩, h.2.2⟩
  · exact fun _ _ h => h.1

theorem recordLoop_retries (hk : attemptLength eid.bytes ballot.certName.bytes store = k)
    (last : BbErr) (rounds c : ℕ) :
    Triple (RoundAt sched c store) (recordLoop direct stubCrypto eid ballot last rounds)
      (fun _ _ => True) (fun e _ => e = .retry → RetriesAll k sched rounds c) := by
  induction rounds generalizing last c with
  | zero => exact fun _ _ _ => trivial
  | succ rounds ih =>
    refine (bbDbBegin_round.err ?_).bind fun _ => ?_
    · exact fun e w h he => ⟨(h he).1, .inl (h he).2⟩
    refine of_imp fun hround => exists_elim fun r => ?_
    -- a retry at the entry `n` of the attempt leads to the next round
    have hnext (n : ℕ) (hn : n ≤ k) (hanswers : AnswersFrom sched (c + 2) n)
        (hretry : sched (c + 2 + n) = .retry) :
        Triple (RoundAt sched (c + 2 + n + 1 + if n = k then 0 else 1) store)
          (recordLoop direct stubCrypto eid ballot .retry rounds) (fun _ _ => True)
          (fun e _ => e = .retry → RetriesAll k sched (rounds + 1) c) :=
      (ih .retry _).err fun e w h he =>
        ⟨hround.1, .inr ⟨hround.2, n, hn, hanswers, hretry, h he⟩⟩
    refine attempt_bind (((recordBallotLocked_triple eid ballot).and
      (recordBallotLocked_draws hk)).pre fun w hw => ⟨hw.1, hw⟩) (fun _ => ?_) fun e => ?_
    · refine fun w ⟨⟨rec, htxn⟩, hdrawn⟩ => ?_
      refine attempt_bind (bbDbCommit_triple.and bbDbCommit_draws) (fun _ _ _ => trivial)
        (fun e => ?_) w ⟨htxn, hdrawn⟩
      rintro w' ⟨⟨he, hidle⟩, -, hretry⟩
      rcases he with rfl | rfl
      · exact fun he => by cases he
      · obtain ⟨hentry, hat⟩ := hretry rfl
        obtain ⟨conn, -, hanswers, -⟩ := hdrawn
        refine hnext k le_rfl hanswers hentry w' ⟨hidle.rests, ?_⟩
        rwa [if_pos rfl]
    · refine fun w ⟨⟨receipt, hbroken⟩, conn, hconn, hretried⟩ => ?_
      cases e with
      | retry =>
        obtain ⟨n, hn, hanswers, hentry, hat⟩ := hretried rfl
        refine bbDbRollback_round.bind (fun _ => ?_) w ⟨⟨_, hbroken⟩, conn, hconn, hat⟩
        have := hnext n hn.le hanswers hentry
        rwa [if_neg hn.ne] at this
      | _ =>
        refine bbDbRollback_triple.bind (fun _ => ?_) w hbroken
        exact fun _ _ he => by cases he

/-! ## Ballots that nothing else stops -/

variable {e : BbElection} {opt : ℤ} {o : Option OwnerRow}

lemma AnswersFrom.cons (hok : (sched c).isOk = true) (h : AnswersFrom sched (c + 1) n) :
    AnswersFrom sched c (n + 1) := by
  intro i hi
  cases i with
  | zero => exact hok
  | succ i =>
    rw [show c + (i + 1) = c + 1 + i by omega]
    exact h i (by omega)

lemma calm_of_answers (hanswers : AnswersFrom sched c n) (hretry : sched (c + n) = .retry)
    {s : Server} (hs : s.AtEntry sched c) : s.Calm (fun _ => True) (some (c + n)) := by
  obtain ⟨rfl, rfl⟩ := hs
  refine ⟨fun i hi hlt => ?_, ?_⟩
  · obtain ⟨j, rfl⟩ := Nat.exists_eq_add_of_le hi
    have hj : s.clock + j < s.clock + n := hlt _ rfl
    have hok := hanswers j (by omega)
    cases hnext : s.sched (s.clock + j) with
    | ok order => exact ⟨order, trivial, rfl⟩
    | _ => simp [hnext, Outcome.isOk] at hok
  · rintro _ ⟨⟩
    exact ⟨Nat.le_add_right _ _, hretry⟩

lemma AnswersFrom.le_of_retry {n' : ℕ} (h : AnswersFrom sched c n')
    (hretry : sched (c + n) = .retry) : n' ≤ n := by
  by_contra hlt
  have hok := h n (by omega)
  rw [hretry] at hok
  cases hok

/-- A ballot that passes every check ends with the retry code if every round is told to retry. -/
theorem recordLoop_must_retry (h : Admissible eid.bytes ballot store e opt)
    (hshows : ∀ order : RowOrder, order.Shows eid.bytes ballot.certName.bytes store e o)
    (hver : ∀ p ∈ o, p.version.val + 1 < 2 ^ 31)
    (hrow : ∀ p ∈ o, store.ballotsWith eid.bytes p.readHash ≠ [] ∨
      issuedHash ballot (p.version.val + 1) = p.readHash)
    (hk : attemptLength eid.bytes ballot.certName.bytes store = k)
    (last : BbErr) (rounds c : ℕ) (hlast : rounds = 0 → last = .retry)
    (hall : RetriesAll k sched rounds c) :
    Triple (RoundAt sched c store) (recordLoop direct stubCrypto eid ballot last rounds)
      (fun _ _ => False) (fun e _ => e = .retry) := by
  induction rounds generalizing last c with
  | zero => exact fun _ _ => hlast rfl
  | succ rounds ih =>
    obtain ⟨hlost, hcase⟩ := hall
    have hbegin {stop : Option ℕ}
        (hcalm : ∀ s : Server, s.AtEntry sched (c + 1) → s.Calm (fun _ => True) stop) :
        Triple (RoundAt sched c store) (bbDbBegin direct)
          (fun _ w => ∃ r, w.Steady (fun _ => True) stop store store r) (Stopped stop) := by
      refine (bbDbBegin_steady (S := fun s => s.store = store ∧ s.AtEntry sched c)
        fun s hs => ?_).pre fun w hw => ⟨hw.1.1, hw.1.2, hw.2⟩
      obtain ⟨hstore, rfl, rfl⟩ := hs
      exact ⟨hstore, hlost, hcalm _ ⟨rfl, rfl⟩⟩
    rcases hcase with hretry | ⟨hok, n, hn, hanswers, hentry, hrest⟩
    · have hcalm (s : Server) (hs : s.AtEntry sched (c + 1)) :
          s.Calm (fun _ => True) (some (c + 1)) :=
        calm_of_answers (n := 0) (fun i hi => absurd hi (by omega)) hretry hs
      refine Triple.bind (Q := fun _ _ => False) ?_ fun _ _ hfalse => hfalse.elim
      refine (bbDbBegin_round.and (hbegin hcalm)).conseq (fun w hw => ⟨hw, hw⟩) ?_ ?_
      · rintro _ w ⟨⟨⟨-, hok⟩, -⟩, -⟩
        rw [hretry] at hok
        cases hok
      · exact fun e w hw => hw.2.1
    · have hcalm (s : Server) (hs : s.AtEntry sched (c + 1)) :
          s.Calm (fun _ => True) (some (c + 1 + (n + 1))) := by
        refine calm_of_answers (AnswersFrom.cons hok hanswers) ?_ hs
        rwa [show c + 1 + (n + 1) = c + 2 + n by omega]
      refine Triple.bind (Q := fun _ w => (∃ r, w.InTxn store store r ∧ w.Drawn sched (c + 2) 0) ∧
        ∃ r, w.Steady (fun _ => True) (some (c + 1 + (n + 1))) store store r)
        ((bbDbBegin_round.and (hbegin hcalm)).conseq (fun w hw => ⟨hw, hw⟩)
          (fun _ _ hw => ⟨hw.1.2, hw.2⟩) fun e w hw => hw.2.1) fun _ => ?_
      rintro w ⟨⟨r, htxn, hdrawn⟩, r', hsteady⟩
      refine attempt_bind (((recordBallotLocked_triple eid ballot).and
        (recordBallotLocked_draws hk)).and
          (recordBallotLocked_steady h (fun order _ => hshows order)
        hver hrow)) (fun _ => ?_) (fun e => ?_) w ⟨⟨htxn, htxn, hdrawn⟩, hsteady⟩
      · rintro w ⟨⟨⟨rec, htxn⟩, hdrawn⟩, rec', -, r'', hsteady⟩
        have hkn : n = k := by
          obtain ⟨conn, -, hall, -⟩ := hdrawn
          exact le_antisymm hn (hall.le_of_retry hentry)
        subst hkn
        refine attempt_bind ((bbDbCommit_triple.and bbDbCommit_draws).and bbDbCommit_steady)
          (fun _ => ?_) (fun e => ?_) w ⟨⟨htxn, hdrawn⟩, hsteady⟩
        · rintro w ⟨⟨-, -, hok'⟩, -⟩
          rw [hentry] at hok'
          cases hok'
        · rintro w ⟨⟨⟨-, hidle⟩, -, hat⟩, rfl, -⟩
          refine ih .retry _ (fun _ => rfl) hrest w ⟨hidle.rests, ?_⟩
          rw [if_pos rfl]
          exact (hat rfl).2
      · rintro w ⟨⟨⟨receipt, hbroken⟩, conn, hconn, hretried⟩, rfl, -⟩
        obtain ⟨n', hn', hanswers', hentry', hat⟩ := hretried rfl
        obtain rfl : n = n' :=
          le_antisymm (hanswers.le_of_retry hentry') (hanswers'.le_of_retry hentry)
        rw [if_neg hn'.ne] at hrest
        exact bbDbRollback_round.bind (fun _ => ih .retry _ (fun _ => rfl) hrest) w
          ⟨⟨_, hbroken⟩, conn, hconn, hat⟩

/-! ## Requests that are not ballots -/

lemma dbExec_not_retry (cmd : DbCmd) :
    BrainM.Stays (fun w => w.txnConn = none) (· ≠ .retry) (dbExec direct cmd) := by
  intro w hw
  have hx : Triple (Idle w.server.store w.resp) (dbExec direct cmd) _ _ := dbExec_idle cmd
  refine hx.ends ?_ ?_ w ⟨hw, rfl, rfl⟩
  · exact fun _ _ ⟨_, _, hidle⟩ => hidle.1
  · rintro e w' ⟨rfl, hidle⟩
    exact ⟨by simp, hidle.1⟩

lemma dispatchOp_not_retry (hop : ¬ (req.op = .cast ∨ req.op = .update)) :
    BrainM.Stays (fun w => w.txnConn = none) (· ≠ .retry) (dispatchOp direct stubCrypto req) := by
  refine dispatchOp_stays (fun _ => id) (fun _ _ h => h) (fun cmd _ _ => dbExec_not_retry cmd) ?_
    (fun _ _ h => h) hop (fun _ _ => dbExec_not_retry _) fun _ _ => dbExec_not_retry _
  intro w hw
  have hx : BrainM.Keeps (fun _ => True) (onFresh direct (execStmt direct 4096 .selectMaxSeq)) :=
    onFresh_keeps (execStmt_keeps fun _ _ _ _ _ => trivial)
  exact Triple.conseq hx (fun _ h => h) (fun _ _ h => h.1) (fun _ _ h => ⟨trivial, h.1⟩) w
    ⟨hw, trivial⟩

/-! ## The property -/

/-- The status is not the internal code, and the response is encoded within the session's buffer. -/
def Answered (req : BclRequest) (date : CStr 48) (w : World Bytes) : Prop :=
  (ballotdDispatch wire stubCrypto req w).resp.status ≠ .err .retry ∧
  (bclEncodeResponse 65536 date req.op
    (ballotdDispatch wire stubCrypto req w).resp).isSome = true

lemma answered_iff_status {w : World Bytes} {date : CStr 48} (h : w.txnConn = none)
    (hread : w.server.store.Readable) : Answered req date w ↔
      (ballotdDispatch direct stubCrypto req w.forget).resp.status ≠ .err .retry := by
  rw [Answered, (ballotdDispatch_forget stubCrypto req h hread).1,
    bclEncodeResponse_isSome_iff (ballotdDispatch_printable req rfl), and_self]

lemma status_eq_retry : (ballotdDispatch direct stubCrypto req w).resp.status = .err .retry ↔
      ∃ w', dispatchOp direct stubCrypto req { w with resp := default } = .error .retry w' := by
  unfold ballotdDispatch
  cases dispatchOp direct stubCrypto req { w with resp := default } with
  | ok a w' => simp
  | error e w' => simp

lemma dispatchOp_ballot (hop : req.op = .cast ∨ req.op = .update) :
    dispatchOp direct stubCrypto req =
      recordLoop direct stubCrypto req.electionId req.ballot .db bbTxnAttempts := by
  unfold dispatchOp
  rcases hop with hop | hop <;> rw [hop] <;> rfl

/-! ## An election with one voter -/

def loneRow : ElectionRow :=
  ⟨JInt.one, ⟨ascii "E1", by decide⟩, ⟨ascii "Lone", by decide⟩, ⟨ascii "OPEN", by decide⟩,
    ⟨[], by decide⟩, ⟨[], by decide⟩⟩

def loneOption : OptionRow :=
  ⟨⟨ascii "E1", by decide⟩, ⟨0, by norm_num, by norm_num⟩, ⟨ascii "yes", by decide⟩⟩

def loneEligible : EligibleRow := ⟨⟨ascii "E1", by decide⟩, ⟨ascii "ann", by decide⟩⟩

def loneOwner : OwnerRow :=
  ⟨⟨ascii "E1", by decide⟩, ⟨ascii "ann", by decide⟩, ⟨ascii "00", by decide⟩, JInt.one⟩

/-- An open election with one option and one voter, who may have voted. Every select of a recording
returns at most one row. -/
def loneVoter (voted : Bool) : Tables where
  elections := [loneRow]
  options := [loneOption]
  eligibles := [loneEligible]
  ballots := if voted then [⟨loneOwner.electionId, loneOwner.hash, loneOption.idx, JInt.one,
    loneOption.idx⟩] else []
  owners := if voted then [loneOwner] else []
  nonces := []

def loneElection : BbElection where
  id := .ofBytes (ascii "E1")
  title := .ofBytes (ascii "Lone")
  state := .opened
  options := placeOption (Vector.replicate _ default) [loneOption.idx.render, ascii "yes"]
  optionCount := 1
  optionCount_le := by decide
  eligible := [.ofBytes (ascii "ann")]
  eligible_le := one_le_bbMaxVoters
  openTime := .ofBytes []
  closeTime := .ofBytes []

def loneBallot : BbBallot := ⟨.ofBytes (ascii "ann"), .ofBytes (ascii "n1"), [0], by decide⟩

def loneRequest (op : BclOp) : BclRequest :=
  ⟨op, .ofBytes (ascii "ann"), .ofBytes (ascii "E1"), loneBallot, default, default⟩

lemma loneVoter_admissible (voted : Bool) :
    Admissible (ascii "E1") loneBallot (loneVoter voted) loneElection 0 where
  reads :=
    { row := ⟨loneRow, by cases voted <;> decide +kernel, rfl, rfl, rfl, rfl, rfl⟩
      options := ⟨[loneOption], by cases voted <;> decide +kernel, rfl⟩
      optionCount := by cases voted <;> decide +kernel
      eligible := ⟨[loneEligible], by cases voted <;> decide +kernel, rfl⟩ }
  isOpen := rfl
  eligible := by decide +kernel
  decrypted := rfl
  inRange := by decide
  nonce_new := rfl
  nonce_clean := by decide +kernel

lemma RowOrder.apply_singleton (order : RowOrder) (row : Row) : order.apply [row] = [row] :=
  List.perm_singleton.mp (order.perm _)

lemma loneVoter_shows (voted : Bool) (order : RowOrder) :
    order.Shows (ascii "E1") loneBallot.certName.bytes (loneVoter voted) loneElection
      (if voted then some loneOwner else none) where
  row := ⟨loneRow, [], order.apply_singleton _, rfl⟩
  eligible := by
    rw [show (loneVoter voted).eligiblesOf (ascii "E1") = [loneEligible] by
      cases voted <;> decide +kernel]
    rw [List.map_singleton, order.apply_singleton]
    rfl
  owner := by
    cases voted with
    | false =>
      rw [show (loneVoter false).ownersOf (ascii "E1") loneBallot.certName.bytes = [] from rfl]
      rw [List.map_nil, List.perm_nil.mp (order.perm [])]
      rfl
    | true =>
      rw [show (loneVoter true).ownersOf (ascii "E1") loneBallot.certName.bytes = [loneOwner] by
        decide +kernel]
      rw [List.map_singleton, order.apply_singleton]
      rfl

lemma loneVoter_must_retry (voted : Bool) {op : BclOp} (hop : op = .cast ∨ op = .update)
    (hw : w.RoundAt sched c (loneVoter voted))
    (hall : RetriesAll (if voted then 12 else 9) sched bbTxnAttempts c) :
    (ballotdDispatch direct stubCrypto (loneRequest op) w).resp.status = .err .retry := by
  have hloop : Triple (RoundAt sched c (loneVoter voted)) (recordLoop direct stubCrypto
      (.ofBytes (ascii "E1")) loneBallot .db bbTxnAttempts) _ _ :=
    recordLoop_must_retry (loneVoter_admissible voted) (loneVoter_shows voted)
      (by cases voted <;> decide +kernel) (by cases voted <;> decide +kernel)
      (by cases voted <;> decide +kernel) .db bbTxnAttempts c (fun h => by cases h) hall
  rw [status_eq_retry, dispatchOp_ballot hop]
  have hw' : RoundAt sched c (loneVoter voted) { w with resp := default } := hw
  simp only [loneRequest]
  cases hrun : recordLoop direct stubCrypto (.ofBytes (ascii "E1")) loneBallot .db bbTxnAttempts
      { w with resp := default } with
  | ok a w' => exact (hloop.of_ok hw' hrun).elim
  | error e w' =>
    obtain rfl : e = .retry := hloop.of_error hw' hrun
    exact ⟨w', rfl⟩

/-! ## Which schedules leave a request unanswered -/

lemma loneVoter_readable (voted : Bool) : (loneVoter voted).Readable := by
  cases voted <;> exact Tables.Plain.readable (by decide +kernel)

/-- A schedule on which the first select of every round is told to retry, and all else is
answered. -/
def unlucky (i : ℕ) : Outcome := if i % 4 = 2 then .retry else .ok .stored

end BallotBox
