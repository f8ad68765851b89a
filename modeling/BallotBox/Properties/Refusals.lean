import BallotBox.Framework.LineStreams
import BallotBox.Properties.RetryCode
import BallotBox.Properties.DispatchedResponses

/-!
# What a refusal says

The response to a failed request should be just its status line, but two handlers write an
out-parameter before they know whether they will succeed: `bb_join` copies the election, and
`record_ballot_locked` issues the receipt in a round that may be rolled back.
-/

namespace BallotBox

open Triple List

variable {store : Tables} {resp : BclResponse}
variable {kv : String × Bytes} {op : BclOp}

/-! ## Bodies -/

/-- A line without a value, or with the value 0. -/
def BlankLine (line : Bytes) : Prop :=
  ∃ key, (61 : UInt8) ∉ key ∧ lf ∉ key ∧ (line = key ++ ascii "=" ∨ line = key ++ ascii "=0")

/-- A status line and blank lines. -/
def BareBody (body : Bytes) : Prop :=
  ∃ name lines, lf ∉ name ∧ (∀ l ∈ lines, BlankLine l) ∧
    body = unlines ((ascii "status=" ++ name) :: lines)

/-- The line of a field. -/
def fieldLine (kv : String × Bytes) : Bytes := ascii kv.1 ++ 61 :: kv.2

lemma bodyOf_eq_unlines (fields : List (String × Bytes)) :
    bodyOf fields = unlines (fields.map fieldLine) := by
  induction fields with
  | nil => rfl
  | cons kv fields ih =>
    rw [bodyOf, map_cons, flatten_cons, ← bodyOf, ih]
    simp [kvLine, fieldLine]

lemma lf_notMem_fieldLine (hkey : lf ∉ ascii kv.1) (hvalue : lf ∉ kv.2) : lf ∉ fieldLine kv := by
  simpa [fieldLine] using ⟨hkey, by decide, hvalue⟩

lemma blankLine_fieldLine_iff (hkey : PlainKey kv.1) :
    BlankLine (fieldLine kv) ↔ kv.2 = [] ∨ kv.2 = ascii "0" := by
  obtain ⟨-, heq, -, hclean⟩ := hkey
  have hafter {key : Bytes} (h : (61 : UInt8) ∉ key) (value : Bytes) :
      (key ++ 61 :: value).dropWhile (· ≠ 61) = 61 :: value := by
    have hkey (c : UInt8) (hc : c ∈ key) : decide (c ≠ 61) = true := by
      rw [decide_eq_true_iff]
      rintro rfl
      exact h hc
    rw [dropWhile_append_of_pos hkey]
    rfl
  constructor
  · rintro ⟨key, hkey, -, hline | hline⟩
    · have hsplit := congrArg (List.dropWhile (· ≠ 61)) hline
      rw [fieldLine, hafter heq, show ascii "=" = 61 :: [] from rfl, hafter hkey] at hsplit
      exact .inl (List.cons.inj hsplit).2
    · have hsplit := congrArg (List.dropWhile (· ≠ 61)) hline
      rw [fieldLine, hafter heq, show ascii "=0" = 61 :: ascii "0" from rfl, hafter hkey] at hsplit
      exact .inr (List.cons.inj hsplit).2
  · rintro (hvalue | hvalue)
    · exact ⟨ascii kv.1, heq, hclean.2.2, .inl (by rw [fieldLine, hvalue]; rfl)⟩
    · exact ⟨ascii kv.1, heq, hclean.2.2, .inr (by rw [fieldLine, hvalue]; rfl)⟩

lemma bareBody_bodyOf_iff {name : Bytes} {fields : List (String × Bytes)} (hname : lf ∉ name)
    (hfields : ∀ kv ∈ fields, PlainKey kv.1 ∧ lf ∉ kv.2) :
    BareBody (bodyOf (("status", name) :: fields)) ↔
      ∀ kv ∈ fields, kv.2 = [] ∨ kv.2 = ascii "0" := by
  have hstatus : fieldLine ("status", name) = ascii "status=" ++ name := by
    rw [fieldLine, show ascii "status=" = ascii "status" ++ [61] by decide, append_assoc]
    rfl
  have hlines (l : Bytes) (hl : l ∈ fields.map fieldLine) : lf ∉ l := by
    obtain ⟨kv, hkv, rfl⟩ := mem_map.mp hl
    exact lf_notMem_fieldLine (hfields kv hkv).1.2.2.2.2.2 (hfields kv hkv).2
  have hfirst {name : Bytes} (hname : lf ∉ name) : lf ∉ ascii "status=" ++ name := by
    simpa using ⟨by decide, hname⟩
  rw [bodyOf_eq_unlines, map_cons, hstatus]
  constructor
  · rintro ⟨name', lines, hname', hblank, hbody⟩ kv hkv
    have hblanks (l : Bytes) (hl : l ∈ lines) : lf ∉ l := by
      obtain ⟨key, -, hlf, rfl | rfl⟩ := hblank l hl
      · simpa using ⟨hlf, by decide⟩
      · simpa using ⟨hlf, by decide⟩
    have hsame := unlines_inj (forall_mem_cons.mpr ⟨hfirst hname, hlines⟩)
      (forall_mem_cons.mpr ⟨hfirst hname', hblanks⟩) hbody
    refine (blankLine_fieldLine_iff (hfields kv hkv).1).mp (hblank _ ?_)
    rw [← (List.cons.inj hsame).2]
    exact mem_map_of_mem hkv
  · intro hvalues
    refine ⟨name, fields.map fieldLine, hname, ?_, rfl⟩
    rw [forall_mem_map]
    exact fun kv hkv => (blankLine_fieldLine_iff (hfields kv hkv).1).mpr (hvalues kv hkv)

/-! ## Handlers in two halves -/

section Halves

variable {ι : Type} (ch : Channel ι) (crypto : Crypto)

/-- `bb_join` up to the copy of the election. -/
def joinCopy (eid : CStr bbIdLen) (cert : CStr bbCertLen) : BrainM ι PUnit := do
  let election ← loadElection ch eid
  let (status, lines) := crypto.verifyCert cert
  bbLogAll lines
  match status with
  | .invalid => throw .certInvalid
  | .expired => throw .certExpired
  | .notEligible => throw .notEligible
  | .valid =>
    if !bbCheckEligibility election cert then
      bbLogAll (ineligibleLines (ascii "[join]") eid.bytes cert.bytes election)
      throw .notEligible
    if election.state ≠ .opened then
      bbLog (ascii "[join] '" ++ eid.bytes ++ ascii "' is " ++ bbStateStr election.state ++
        ascii ", not OPEN")
      throw .notOpen
    modify fun w => { w with resp := { w.resp with election := election } }

lemma bbJoin_eq (eid : CStr bbIdLen) (cert : CStr bbCertLen) : bbJoin ch crypto eid cert = (do
      joinCopy ch crypto eid cert
      let prior ← dbExec ch (.getPriorBallot eid cert)
      modify fun w => { w with resp := { w.resp with
        hasPriorBallot := prior.found
        priorBallotVersion := if prior.found then prior.row.version else 0 } }) := by
  unfold bbJoin joinCopy
  simp only [bind_assoc]
  congr 1
  funext election
  congr 1
  funext _
  cases (crypto.verifyCert cert).1 with
  | valid => split_ifs <;> rfl
  | _ => rfl

/-- `record_ballot_locked` up to the receipt. -/
def issueBallot (eid : CStr bbIdLen) (ballot : BbBallot) :
    BrainM ι (ℤ × DbResult × BbReceipt) := do
  let optionIndex ← admitBallot ch crypto eid ballot
  let seen ← dbExec ch (.nonceSeen eid ballot.nonce)
  if seen.found then throw .replay
  let prior ← dbExec ch (.getPriorBallot eid ballot.certName)
  let receipt ← issueReceipt crypto ballot (if prior.found then prior.row.version + 1 else 1)
  return (optionIndex, prior, receipt)

lemma recordBallotLocked_eq (eid : CStr bbIdLen) (ballot : BbBallot) :
    recordBallotLocked ch crypto eid ballot = (do
      let (optionIndex, prior, receipt) ← issueBallot ch crypto eid ballot
      writeBallot ch eid ballot optionIndex prior
        (if prior.found then prior.row.version + 1 else 1) receipt) := by
  unfold recordBallotLocked issueBallot
  simp only [bind_assoc]
  congr 1
  funext optionIndex
  congr 1
  funext seen
  split_ifs
  · rfl
  · simp only [bind_assoc, pure_bind]

end Halves

/-! ## Refusals that come late -/

/-- The copy succeeds, and the prior ballot cannot be read. -/
def JoinFailsLate (eid : CStr bbIdLen) (cert : CStr bbCertLen) (w : World Unit) : Prop :=
  ∃ w', joinCopy direct stubCrypto eid cert w = .ok ⟨⟩ w' ∧
    ∃ e w'', dbExec direct (.getPriorBallot eid cert) w' = .error e w''

/-- `record_ballot_locked` after the receipt. -/
def writeIssued (eid : CStr bbIdLen) (ballot : BbBallot) (issue : ℤ × DbResult × BbReceipt) :
    BrainM Unit PUnit :=
  writeBallot direct eid ballot issue.1 issue.2.1
    (if issue.2.1.found then issue.2.1.row.version + 1 else 1) issue.2.2

/-- The world after a rollback. -/
def World.rolledBack (w : World Unit) : World Unit :=
  match bbDbRollback direct w with
  | .ok _ w' => w'
  | .error _ w' => w'

/-- In a round left, a ballot is refused with a code other than retry, and a receipt was issued in
that round or before. -/
def BallotFailsLate (eid : CStr bbIdLen) (ballot : BbBallot) : Bool → ℕ → World Unit → Prop
  | _, 0, _ => False
  | issued, rounds + 1, w =>
    match bbDbBegin direct w with
    | .error e _ => issued = true ∧ e ≠ .retry
    | .ok _ w =>
      match issueBallot direct stubCrypto eid ballot w with
      | .error e w =>
        if e = .retry then BallotFailsLate eid ballot issued rounds w.rolledBack else issued = true
      | .ok issue w =>
        match writeIssued eid ballot issue w with
        | .error e w => e = .retry → BallotFailsLate eid ballot true rounds w.rolledBack
        | .ok _ w =>
          match bbDbCommit direct w with
          | .error e w => e = .retry → BallotFailsLate eid ballot true rounds w
          | .ok _ _ => False

/-- The request fails after its out-parameter was written. -/
def FailsLate (req : BclRequest) (w : World Unit) : Prop :=
  match req.op with
  | .join => req.electionId.bytes ≠ [] ∧ JoinFailsLate req.electionId req.certName w
  | .cast | .update => BallotFailsLate req.electionId req.ballot false bbTxnAttempts w
  | _ => False

/-- What is in the response at an error, if exactly the requests that fail late fill it in. -/
def Leftover (late : Prop) (Filled : BclResponse → Prop) (e : BbErr) (w : World Unit) : Prop :=
  if e = .retry then ¬ late else late ∧ Filled w.resp ∨ ¬ late ∧ w.resp = default

/-! ## Joining -/

variable {eid : CStr bbIdLen} {cert : CStr bbCertLen} {ballot : BbBallot} {w₀ : World Unit}

/-- An election was copied into the response. -/
def Joined (eid : CStr bbIdLen) (resp : BclResponse) : Prop :=
  ∃ e : BbElection, e.id = eid ∧ e.state = .opened ∧
    resp = { (default : BclResponse) with election := e }

lemma joinCopy_triple : Triple (World.Idle store default) (joinCopy direct stubCrypto eid cert)
      (fun _ w => w.txnConn = none ∧ Joined eid w.resp)
      (fun e w => e ≠ .retry ∧ w.resp = default) := by
  have hrefuse {α : Type} {Q : α → World Unit → Prop} {e : BbErr} (he : e ≠ .retry) :
      Triple (World.Idle store default) (MonadExcept.throw e : BrainM Unit α) Q
      (fun e w => e ≠ .retry ∧ w.resp = default) :=
    (Triple.throw e).pre fun w hw => ⟨he, hw.2.2⟩
  refine bind_imp ((loadElection_idle eid).err ?_) fun e hreads => ?_
  · rintro e w ⟨rfl | ⟨rfl, -⟩, hidle⟩
    · exact ⟨by simp, hidle.2.2⟩
    · exact ⟨by simp, hidle.2.2⟩
  refine (bbLogAll_keeps (fun _ _ h => h) _).bind fun _ => ?_
  cases (stubCrypto.verifyCert cert).1 with
  | valid =>
    refine Triple.ite (fun _ => (bbLogAll_keeps (fun _ _ h => h) _).bind fun _ =>
      hrefuse (by simp)) fun _ => ?_
    refine Triple.ite (fun _ => (bbLog_keeps (fun _ _ h => h) _).bind fun _ =>
      hrefuse (by simp)) fun hopen => ?_
    intro w hw
    have hjoined : Joined eid { w.resp with election := e } := by
      rw [hw.2.2]
      exact ⟨e, hreads.id_eq, by simpa using hopen, rfl⟩
    exact ⟨hw.1, hjoined⟩
  | _ => exact hrefuse (by simp)

lemma bbJoin_leftover (h : w₀.Idle store default) :
    Triple (fun w => w = w₀) (bbJoin direct stubCrypto eid cert)
      (fun _ _ => ¬ JoinFailsLate eid cert w₀)
      (Leftover (JoinFailsLate eid cert w₀) (Joined eid)) := by
  rw [bbJoin_eq]
  refine ((joinCopy_triple.and (Triple.runs w₀)).conseq
    (fun w (hw : w = w₀) => ⟨hw ▸ h, hw⟩) (fun _ _ => id) ?_).bind fun _ w₁ hw₁ => ?_
  · rintro e w ⟨⟨he, hresp⟩, hrun⟩
    have hearly : ¬ JoinFailsLate eid cert w₀ := by
      rintro ⟨w', hcopy, -⟩
      cases hcopy.symm.trans hrun
    rw [Leftover, if_neg he]
    exact .inr ⟨hearly, hresp⟩
  · obtain ⟨⟨htxn, hjoined⟩, hrun⟩ := hw₁
    have hprior : Triple (fun w => w = w₁) (dbExec direct (.getPriorBallot eid cert))
        (fun prior w => (dbExec direct (.getPriorBallot eid cert)).run w₁ = .ok prior w)
        (fun e w => (e ≠ .retry ∧ Joined eid w.resp) ∧
          (dbExec direct (.getPriorBallot eid cert)).run w₁ = .error e w) :=
      (((dbExec_not_retry _).and (dbExec_keeps_resp (R := Joined eid) _)).and
        (Triple.runs w₁)).conseq (fun w (hw : w = w₁) => by rw [hw]; exact ⟨⟨htxn, hjoined⟩, rfl⟩)
        (fun _ _ h => h.2) fun _ _ h => ⟨⟨h.1.1.1, h.1.2⟩, h.2⟩
    refine (hprior.err ?_).bind (fun prior w hw => ?_) w₁ rfl
    · rintro e w ⟨⟨he, hfilled⟩, hrefused⟩
      rw [Leftover, if_neg he]
      exact .inl ⟨⟨w₁, hrun, e, w, hrefused⟩, hfilled⟩
    · rintro ⟨w', hcopy, e, w'', hrefused⟩
      obtain rfl : w₁ = w' := (EStateM.Result.ok.inj (hrun.symm.trans hcopy)).2
      cases hw.symm.trans hrefused

/-! ## Recording -/

/-- A receipt was issued into the response. -/
def Receipted (resp : BclResponse) : Prop :=
  ∃ receipt clock version ballot,
    (stubCrypto.issueReceipt clock ballot version).1 = .ok receipt ∧
    resp = { (default : BclResponse) with receipt := receipt }

def Holds (issued : Bool) (resp : BclResponse) : Prop :=
  if issued then Receipted resp else resp = default

lemma Holds.exists_receipt {issued : Bool} (h : Holds issued resp) :
    ∃ receipt, resp = { (default : BclResponse) with receipt := receipt } := by
  cases issued with
  | false => exact ⟨default, h⟩
  | true =>
    obtain ⟨receipt, -, -, -, -, hresp⟩ := h
    exact ⟨receipt, hresp⟩

lemma issueReceipt_receipted {issued : Bool} {version : ℤ} {E : BbErr → World Unit → Prop} :
    Triple (fun w => Holds issued w.resp) (issueReceipt stubCrypto ballot version : BrainM Unit _)
      (fun _ w => Receipted w.resp) E := by
  intro w hw
  obtain ⟨old, hresp⟩ := hw.exists_receipt
  obtain ⟨receipt, hissued⟩ : ∃ receipt,
      (stubCrypto.issueReceipt w.server.clock ballot version).1 = .ok receipt := ⟨_, rfl⟩
  have hfilled : Receipted { w.resp with receipt := receipt } := by
    rw [hresp]
    exact ⟨receipt, _, _, _, hissued, rfl⟩
  cases hissued
  exact hfilled

lemma issueBallot_holds {issued : Bool} :
    Triple (fun w => Holds issued w.resp) (issueBallot direct stubCrypto eid ballot)
      (fun _ w => Receipted w.resp) (fun _ w => Holds issued w.resp) := by
  have hexec (cmd : DbCmd) : Invariant (fun w => Holds issued w.resp) (dbExec direct cmd) :=
    dbExec_keeps_resp cmd
  refine (admitBallot_keeps (fun _ _ h => h) (fun cmd _ => hexec cmd) _ _ _).bind fun opt => ?_
  refine (hexec _).bind fun seen => Triple.ite (fun _ => raise _) fun _ => ?_
  refine (hexec _).bind fun prior => ?_
  exact issueReceipt_receipted.bind fun receipt => ret _

lemma recordBallotLocked_halves {issued : Bool} (h : Holds issued w₀.resp) :
    Triple (fun w => w = w₀) (recordBallotLocked direct stubCrypto eid ballot)
      (fun _ w => Receipted w.resp ∧ ∃ issue w₁, issueBallot direct stubCrypto eid ballot w₀ =
        .ok issue w₁ ∧ writeIssued eid ballot issue w₁ = .ok ⟨⟩ w)
      (fun e w =>
        (Holds issued w.resp ∧ issueBallot direct stubCrypto eid ballot w₀ = .error e w) ∨
        (Receipted w.resp ∧ ∃ issue w₁, issueBallot direct stubCrypto eid ballot w₀ = .ok issue w₁ ∧
          writeIssued eid ballot issue w₁ = .error e w)) := by
  rw [recordBallotLocked_eq]
  refine ((issueBallot_holds.and (Triple.runs w₀)).conseq
    (fun w (hw : w = w₀) => by rw [hw]; exact ⟨h, rfl⟩) (fun _ _ => id) fun _ _ => .inl).bind
    fun issue w₁ hw₁ => ?_
  obtain ⟨hreceipt, hissue⟩ := hw₁
  have hwrite : Invariant (fun w => Receipted w.resp) (writeIssued eid ballot issue) :=
    writeBallot_keeps (fun cmd _ => dbExec_keeps_resp cmd) _ _ _ _ _ _
  refine (hwrite.and (Triple.runs w₁)).ends ?_ ?_ w₁ ⟨hreceipt, rfl⟩
  · exact fun _ w hw => ⟨hw.1, issue, w₁, hissue, hw.2⟩
  · exact fun e w hw => .inr ⟨hw.1, issue, w₁, hissue, hw.2⟩

lemma bbDbRollback_eq (w : World Unit) : bbDbRollback direct w = .ok ⟨⟩ w.rolledBack := by
  unfold World.rolledBack bbDbRollback
  split
  · rfl
  · split <;> rfl

section Rounds

variable {issued : Bool} {rounds : ℕ} {w₁ w₂ w₃ : World Unit} {e : BbErr}
  {issue : ℤ × DbResult × BbReceipt}

lemma failsLate_begin (hbegin : bbDbBegin direct w₀ = .error e w₁) :
    BallotFailsLate eid ballot issued (rounds + 1) w₀ ↔ issued = true ∧ e ≠ .retry := by
  rw [BallotFailsLate, hbegin]

lemma failsLate_issue (hbegin : bbDbBegin direct w₀ = .ok ⟨⟩ w₁)
    (hissue : issueBallot direct stubCrypto eid ballot w₁ = .error e w₂) :
    BallotFailsLate eid ballot issued (rounds + 1) w₀ ↔
      if e = .retry then BallotFailsLate eid ballot issued rounds w₂.rolledBack
      else issued = true := by
  simp only [BallotFailsLate, hbegin, hissue]

lemma failsLate_write (hbegin : bbDbBegin direct w₀ = .ok ⟨⟩ w₁)
    (hissue : issueBallot direct stubCrypto eid ballot w₁ = .ok issue w₂)
    (hwrite : writeIssued eid ballot issue w₂ = .error e w₃) :
    BallotFailsLate eid ballot issued (rounds + 1) w₀ ↔
      (e = .retry → BallotFailsLate eid ballot true rounds w₃.rolledBack) := by
  simp only [BallotFailsLate, hbegin, hissue, hwrite]

lemma failsLate_commit (hbegin : bbDbBegin direct w₀ = .ok ⟨⟩ w₁)
    (hissue : issueBallot direct stubCrypto eid ballot w₁ = .ok issue w₂)
    (hwrite : writeIssued eid ballot issue w₂ = .ok ⟨⟩ w₃) :
    BallotFailsLate eid ballot issued (rounds + 1) w₀ ↔ ∃ e w, bbDbCommit direct w₃ = .error e w ∧
        (e = .retry → BallotFailsLate eid ballot true rounds w) := by
  simp only [BallotFailsLate, hbegin, hissue, hwrite]
  cases bbDbCommit direct w₃ with
  | ok a w => simp
  | error e w => simp

end Rounds

lemma Holds.leftover {issued : Bool} {late : Prop} {e : BbErr} {w : World Unit}
    (h : Holds issued w.resp) (hlate : late ↔ issued = true ∧ e ≠ .retry) :
    Leftover late Receipted e w := by
  rw [Leftover, hlate]
  by_cases he : e = .retry
  · simp [he]
  · cases issued with
    | false =>
      have hempty : w.resp = default := h
      simp [he, hempty]
    | true =>
      have hfilled : Receipted w.resp := h
      simp [he, hfilled]

theorem recordLoop_leftover (issued : Bool) (last : BbErr) (rounds : ℕ)
    (hlast : issued = true → last = .retry) (w₀ : World Unit) (h : Holds issued w₀.resp) :
    Triple (fun w => w = w₀) (recordLoop direct stubCrypto eid ballot last rounds)
      (fun _ _ => ¬ BallotFailsLate eid ballot issued rounds w₀)
      (Leftover (BallotFailsLate eid ballot issued rounds w₀) Receipted) := by
  induction rounds generalizing issued last w₀ with
  | zero =>
    rintro w rfl
    have hlate : BallotFailsLate eid ballot issued 0 w ↔ issued = true ∧ last ≠ .retry := by
      simpa [BallotFailsLate] using hlast
    exact h.leftover hlate
  | succ rounds ih =>
    have hstart : Triple (fun w => w = w₀) (bbDbBegin direct)
        (fun _ w => Holds issued w.resp ∧ bbDbBegin direct w₀ = .ok ⟨⟩ w)
        (fun e w => Holds issued w.resp ∧ bbDbBegin direct w₀ = .error e w) :=
      (bbDbBegin_keeps_resp.and (Triple.runs w₀)).pre fun w hw => by rw [hw]; exact ⟨h, rfl⟩
    refine (hstart.err fun e w hw => hw.1.leftover (failsLate_begin hw.2)).bind fun _ w₁ hw₁ => ?_
    obtain ⟨hholds, hbegin⟩ := hw₁
    have hrolled (w₂ : World Unit) {E : BbErr → World Unit → Prop} :
        Triple (fun w => w = w₂) (bbDbRollback direct) (fun _ w => w = w₂.rolledBack) E := by
      intro w hw
      rw [EStateM.run, hw, bbDbRollback_eq]
    have hkept {again : Bool} {w₂ : World Unit} (hw₂ : Holds again w₂.resp) :
        Holds again w₂.rolledBack.resp :=
      (bbDbRollback_keeps_resp (R := Holds again)).of_ok (E := fun _ _ => True) (s := w₂) hw₂
        (bbDbRollback_eq w₂)
    -- a round that is told to retry leaves it to the next
    have hagain {again : Bool} {w₂ : World Unit} (hw₂ : Holds again w₂.resp)
        (hlate : BallotFailsLate eid ballot issued (rounds + 1) w₀ ↔
          BallotFailsLate eid ballot again rounds w₂) :
        Triple (fun w => w = w₂) (recordLoop direct stubCrypto eid ballot .retry rounds)
          (fun _ _ => ¬ BallotFailsLate eid ballot issued (rounds + 1) w₀)
          (Leftover (BallotFailsLate eid ballot issued (rounds + 1) w₀) Receipted) := by
      rw [hlate]
      exact ih again .retry (fun _ => rfl) w₂ hw₂
    -- any other failure is passed on after the rollback
    have hgiveUp {again : Bool} {e : BbErr} {w₂ : World Unit} (hw₂ : Holds again w₂.resp)
        (hlate : BallotFailsLate eid ballot issued (rounds + 1) w₀ ↔ again = true ∧ e ≠ .retry) :
        Triple (fun w => w = w₂) (do bbDbRollback direct; throw e : BrainM Unit PUnit)
          (fun _ _ => ¬ BallotFailsLate eid ballot issued (rounds + 1) w₀)
          (Leftover (BallotFailsLate eid ballot issued (rounds + 1) w₀) Receipted) := by
      refine (hrolled w₂).bind fun _ w hw => ?_
      rw [hw]
      exact (hkept hw₂).leftover hlate
    refine attempt_bind (recordBallotLocked_halves hholds) (fun _ w₂ hw₂ => ?_)
      (fun e w₂ hw₂ => ?_) w₁ rfl
    · obtain ⟨hreceipt, issue, w', hissue, hwrite⟩ := hw₂
      have hlate : BallotFailsLate eid ballot issued (rounds + 1) w₀ ↔ _ :=
        failsLate_commit hbegin hissue hwrite
      have hcommit : Triple (fun w => w = w₂) (bbDbCommit direct)
          (fun _ w => bbDbCommit direct w₂ = .ok ⟨⟩ w)
          (fun e w => Holds true w.resp ∧ bbDbCommit direct w₂ = .error e w) :=
        ((bbDbCommit_keeps_resp (R := Holds true)).and (Triple.runs w₂)).conseq
          (fun w (hw : w = w₂) => by rw [hw]; exact ⟨hreceipt, rfl⟩) (fun _ _ hw => hw.2)
          fun _ _ => id
      refine attempt_bind hcommit (fun _ w₃ hw₃ => ?_) (fun e w₃ hw₃ => ?_) w₂ rfl
      · intro hfails
        obtain ⟨e, w, herror, -⟩ := hlate.mp hfails
        cases hw₃.symm.trans herror
      · obtain ⟨hfilled, herror⟩ := hw₃
        have hlate : BallotFailsLate eid ballot issued (rounds + 1) w₀ ↔
            (e = .retry → BallotFailsLate eid ballot true rounds w₃) := by
          simp [hlate, herror]
        have hdone (he : e ≠ .retry) :
            Leftover (BallotFailsLate eid ballot issued (rounds + 1) w₀) Receipted e w₃ :=
          hfilled.leftover (by simp [hlate, he])
        cases e with
        | retry => exact hagain hfilled (by simpa using hlate) w₃ rfl
        | _ => exact hdone (by simp)
    · rcases hw₂ with ⟨hw₂, hissue⟩ | ⟨hw₂, issue, w', hissue, hwrite⟩
      · have hlate : BallotFailsLate eid ballot issued (rounds + 1) w₀ ↔ _ :=
          failsLate_issue hbegin hissue
        cases e with
        | retry => exact (hrolled w₂).bind (fun _ => hagain (hkept hw₂) hlate) w₂ rfl
        | _ => exact hgiveUp hw₂ (by simpa using hlate) w₂ rfl
      · have hlate : BallotFailsLate eid ballot issued (rounds + 1) w₀ ↔ _ :=
          failsLate_write hbegin hissue hwrite
        have hfilled : Holds true w₂.resp := hw₂
        cases e with
        | retry =>
          refine (hrolled w₂).bind (fun _ => hagain (hkept hfilled) ?_) w₂ rfl
          simpa using hlate
        | _ => exact hgiveUp hfilled (by simpa using hlate) w₂ rfl

/-! ## The property -/

/-- The frame has a bare body. -/
def EncodesBare (date : HtttpDate) (op : BclOp) (resp : BclResponse) : Prop :=
  ∃ frame http, bclEncodeResponse 65536 date.text op resp = some frame ∧
    htttpParseResponse frame = .ok http ∧ BareBody http.body

lemma responseFields_status (op : BclOp) (resp : BclResponse) (status : BbResult) :
    responseFields op { resp with status := status } = responseFields op resp := by
  cases op <;> rfl

/-- Every field is empty or 0. -/
def BlankFields (op : BclOp) (resp : BclResponse) : Prop :=
  ∀ kv ∈ responseFields op resp, kv.2 = [] ∨ kv.2 = ascii "0"

instance (op : BclOp) (resp : BclResponse) : Decidable (BlankFields op resp) :=
  inferInstanceAs (Decidable (∀ kv ∈ responseFields op resp, _))

lemma encodesBare_iff {date : HtttpDate} (h : resp.Printable)
    (hstatus : resp.status ≠ .err .retry) :
    EncodesBare date op resp ↔ BlankFields op resp := by
  have hsome : (bclEncodeResponse 65536 date.text op resp).isSome = true :=
    (bclEncodeResponse_isSome_iff h).mpr hstatus
  obtain ⟨frame, hframe⟩ := Option.isSome_iff_exists.mp hsome
  obtain ⟨http, name, hname, hparse, hbody, -⟩ := decoded_encoded (by norm_num) h hframe
  have hbare : BareBody http.body ↔ BlankFields op resp := by
    rw [hbody]
    refine bareBody_bodyOf_iff (clean_of_nameFromResult hname).1.2.2 fun kv hkv => ?_
    obtain ⟨hkey, hclean, -⟩ := responseFields_readable h kv hkv
    exact ⟨hkey, hclean.2.2⟩
  rw [← hbare]
  constructor
  · rintro ⟨frame', http', hframe', hparse', hbare'⟩
    obtain rfl := Option.some.inj (hframe.symm.trans hframe')
    obtain rfl := Except.ok.inj (hparse.symm.trans hparse')
    exact hbare'
  · exact fun hbare' => ⟨frame, http, hframe, hparse, hbare'⟩

lemma responseFields_default (op : BclOp) : BlankFields op default := by
  unfold BlankFields
  cases op <;> decide

lemma Joined.blank_iff (h : Joined eid resp) : BlankFields .join resp ↔ eid.bytes = [] := by
  obtain ⟨e, rfl, hopen, rfl⟩ := h
  rw [BlankFields, responseFields, voterFields]
  by_cases hid : e.id.bytes = []
  · simp [hid]
  · simp only [hid, iff_false, not_forall]
    refine ⟨("state", bbStateStr e.state), by simp, ?_⟩
    rw [hopen]
    decide

lemma Receipted.not_blank (hop : op = .cast ∨ op = .update) (h : Receipted resp) :
    ¬ BlankFields op resp := by
  obtain ⟨receipt, clock, version, ballot, hissued, rfl⟩ := h
  have hhash := hash_ne_nil_of_issued hissued
  have hdate : receipt.issuedAt.bytes = ascii "1970-01-01T00:00:00Z" := by
    cases hissued
    rfl
  have hfields : responseFields op { (default : BclResponse) with receipt := receipt } =
      [("hash", receipt.hash.bytes), ("issued_at", receipt.issuedAt.bytes)] := by
    rcases hop with rfl | rfl
    · rw [responseFields, voterFields, if_neg hhash]
    · rw [responseFields, voterFields, if_neg hhash]
  rw [BlankFields, hfields, hdate]
  intro hall
  exact absurd (hall ("issued_at", ascii "1970-01-01T00:00:00Z") (by simp)) (by decide)

lemma dispatchOp_blank (req : BclRequest) {w₀ : World Unit} (h : w₀.Idle store default) :
    Triple (fun w => w = w₀) (dispatchOp direct stubCrypto req) (fun _ _ => ¬ FailsLate req w₀)
      (fun e w => if e = .retry then ¬ FailsLate req w₀
        else (BlankFields req.op w.resp ↔ ¬ FailsLate req w₀)) := by
  by_cases hjoin : req.op = .join
  · have hrun : dispatchOp direct stubCrypto req =
        bbJoin direct stubCrypto req.electionId req.certName := by
      unfold dispatchOp
      rw [hjoin]
    have hlate : FailsLate req w₀ ↔ req.electionId.bytes ≠ [] ∧
        JoinFailsLate req.electionId req.certName w₀ := by
      unfold FailsLate
      rw [hjoin]
    rw [hrun, hlate, hjoin]
    refine (bbJoin_leftover h).ends (fun _ _ hlate => fun hand => hlate hand.2) ?_
    intro e w hleft
    unfold Leftover at hleft
    split_ifs at hleft ⊢ with he
    · exact fun hand => hleft hand.2
    · rcases hleft with ⟨hlate, hjoined⟩ | ⟨hearly, hresp⟩
      · simp [hjoined.blank_iff, hlate]
      · simp [hresp, responseFields_default, hearly]
  by_cases hballot : req.op = .cast ∨ req.op = .update
  · have hlate : FailsLate req w₀ ↔
        BallotFailsLate req.electionId req.ballot false bbTxnAttempts w₀ := by
      unfold FailsLate
      rcases hballot with hop | hop <;> rw [hop]
    rw [dispatchOp_ballot hballot, hlate]
    refine (recordLoop_leftover false .db bbTxnAttempts (fun h => by cases h) w₀ h.2.2).err ?_
    intro e w hleft
    unfold Leftover at hleft
    split_ifs at hleft ⊢ with he
    · exact hleft
    · rcases hleft with ⟨hlate, hreceipt⟩ | ⟨hearly, hresp⟩
      · simp [hreceipt.not_blank hballot, hlate]
      · simp [hresp, responseFields_default, hearly]
  · have hlate : ¬ FailsLate req w₀ := by
      unfold FailsLate
      split
      · exact absurd ‹_› hjoin
      · exact absurd (.inl ‹_›) hballot
      · exact absurd (.inr ‹_›) hballot
      · exact not_false
    refine (dispatchOp_leaves req store).conseq (fun w hw => by rw [hw]; exact h)
      (fun _ _ _ => hlate) fun e w hleaves => ?_
    have hresp : w.resp = default := by
      generalize w.resp = resp at hleaves
      cases hleaves with
      | nothing => rfl
      | election e hop => exact absurd hop hjoin
      | receipt receipt hop => exact absurd hop hballot
    simp [hlate, hresp, responseFields_default]

/-- The lone voter's election, where one entry of the schedule is an error. -/
def loneWorld (refused : ℕ) : World Bytes where
  server :=
    { store := loneVoter false
      sched := fun i => if i = refused then .error else .ok .stored
      clock := 0
      trace := [] }
  txnConn := none
  log := []
  resp := default

/-- The response to the lone voter's request. -/
def loneReply (op : BclOp) (refused : ℕ) : BclResponse :=
  (ballotdDispatch wire stubCrypto (loneRequest op) (loneWorld refused)).resp

lemma loneReply_bare {op : BclOp} {refused : ℕ} (date : HtttpDate)
    (hstatus : (loneReply op refused).status = .err .db) :
    EncodesBare date op (loneReply op refused) ↔ BlankFields op (loneReply op refused) := by
  have hforget : loneReply op refused = (ballotdDispatch direct stubCrypto (loneRequest op)
      (loneWorld refused).forget).resp :=
    (ballotdDispatch_forget stubCrypto _ rfl (loneVoter_readable false)).1
  have hprint : (loneReply op refused).Printable :=
    hforget ▸ ballotdDispatch_printable (loneRequest op) rfl
  exact encodesBare_iff hprint (by simp [hstatus])

lemma loneBallot_blank :
    (loneReply .cast 7).status = .err .db ∧ ¬ BlankFields .cast (loneReply .cast 7) := by
  decide +kernel

end BallotBox
