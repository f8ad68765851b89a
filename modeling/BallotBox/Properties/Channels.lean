import BallotBox.Properties.Authentication
import BallotBox.Properties.Support.Frames

/-!
# What the two channels may do

Voter operations leave the elections, options and eligible lists alone, admin operations the
ballots, owner rows and nonces (`Half`), whatever a reply is taken for.
-/

namespace BallotBox

open Option

variable {t t' : Tables} {half : Half} {stmt : Stmt}

/-! ## What a forwarded request depends on -/

/-- The keys of a body that a voter's request reads. -/
def isVoterKey (key : Bytes) : Bool :=
  key = ascii "nonce" || key = ascii "payload" || key = ascii "hash"

/-- The lines of a body that a voter's request reads. -/
def voterKvs (body : Bytes) : List (Bytes × Bytes) :=
  (bodyKvs body).filter fun kv => isVoterKey kv.1

/-- The ballot under another name. -/
def under (cert : CStr bbCertLen) (c : BbBallot × Bool) : BbBallot × Bool :=
  ({ c.1 with certName := cert }, c.2)

lemma ballotKv_under (cert : CStr bbCertLen) (c : BbBallot × Bool) (kv : Bytes × Bytes) :
    ballotKv (under cert c) kv = under cert (ballotKv c kv) := by
  obtain ⟨ballot, got⟩ := c
  obtain ⟨k, v⟩ := kv
  simp only [ballotKv, under]
  split_ifs <;> rfl

lemma foldl_ballotKv_under (cert : CStr bbCertLen) (kvs : List (Bytes × Bytes))
    (c : BbBallot × Bool) :
    kvs.foldl ballotKv (under cert c) = under cert (kvs.foldl ballotKv c) := by
  induction kvs generalizing c with
  | nil => rfl
  | cons kv kvs ih => rw [List.foldl_cons, ballotKv_under, ih, List.foldl_cons]

lemma foldl_voterKvs {α : Type} {f : α → Bytes × Bytes → α}
    (hf : ∀ a kv, isVoterKey kv.1 = false → f a kv = a) (body : Bytes) (a : α) :
    (bodyKvs body).foldl f a = (voterKvs body).foldl f a := by
  unfold voterKvs
  induction bodyKvs body generalizing a with
  | nil => rfl
  | cons kv kvs ih =>
    cases hkv : isVoterKey kv.1 with
    | true => simp [hkv, ih]
    | false => simp [hkv, ih, hf a kv hkv]

lemma foldl_ballotKv (body : Bytes) (c : BbBallot × Bool) :
    (bodyKvs body).foldl ballotKv c = (voterKvs body).foldl ballotKv c := by
  refine foldl_voterKvs (fun c kv hkv => ?_) body c
  have hkeys : ¬ kv.1 = ascii "nonce" ∧ ¬ kv.1 = ascii "payload" := by
    simp only [isVoterKey, Bool.or_eq_false_iff, decide_eq_false_iff_not] at hkv
    exact hkv.1
  simp only [ballotKv, if_neg hkeys.1, if_neg hkeys.2]

lemma foldl_hashKv (body : Bytes) (hash : CStr bbHashLen) :
    (bodyKvs body).foldl hashKv hash = (voterKvs body).foldl hashKv hash := by
  refine foldl_voterKvs (fun hash kv hkv => ?_) body hash
  have hkey : ¬ kv.1 = ascii "hash" := by
    simp only [isVoterKey, Bool.or_eq_false_iff, decide_eq_false_iff_not] at hkv
    exact hkv.2
  simp only [hashKv, if_neg hkey]

lemma foldl_createKv_op (kvs : List (Bytes × Bytes)) (req : BclRequest) :
    (kvs.foldl createKv req).op = req.op := by
  induction kvs generalizing req with
  | nil => rfl
  | cons kv kvs ih =>
    rw [List.foldl_cons, ih]
    simp only [createKv]
    split_ifs <;> rfl

/-- What `handle_request` makes of a parsed request. -/
def forwardParsed (certName : CStr maxUserName) (http : HtttpRequest) : Option BclRequest := do
  let req ← bclDecodeRequest http
  if isVoterOp req.op then some (req.stamp certName) else none

lemma handleRequest_parsed {certName : CStr maxUserName} {buf : Bytes} {http : HtttpRequest}
    (h : htttpParseRequest buf = .ok http) :
    handleRequest certName buf = forwardParsed certName http := by
  simp [handleRequest, forwardParsed, h, Except.toOption]

lemma forwardParsed_congr (certName : CStr maxUserName) {a b : HtttpRequest}
    (hmethod : a.method = b.method) (hpath : a.path = b.path)
    (hbody : voterKvs a.body = voterKvs b.body) :
    forwardParsed certName a = forwardParsed certName b := by
  unfold forwardParsed bclDecodeRequest
  rw [hmethod, hpath]
  cases opFromMethod b.method.bytes with
  | none => rfl
  | some op =>
    -- the two requests before the body is looked at differ in their names only
    have hballot (cert : CStr bbCertLen) (body : Bytes) :
        (bodyKvs body).foldl ballotKv ({ (default : BbBallot) with certName := cert }, false) =
          under cert ((voterKvs body).foldl ballotKv (default, false)) :=
      (foldl_ballotKv body _).trans (foldl_ballotKv_under cert _ (default, false))
    cases op with
    | join | results =>
      cases pathElectionId b.path.bytes <;> simp [isVoterOp, BclRequest.stamp]
    | cast | update =>
      cases pathElectionId b.path.bytes with
      | none => rfl
      | some id =>
        simp only [hballot, hbody, under, bind_eq_bind, bind_some]
        cases ((voterKvs b.body).foldl ballotKv (default, false)).2 <;>
          simp [isVoterOp, BclRequest.stamp]
    | check =>
      cases pathElectionId b.path.bytes with
      | none => rfl
      | some id =>
        simp only [foldl_hashKv, hbody, bind_eq_bind, bind_some]
        split_ifs <;> simp [isVoterOp, BclRequest.stamp]
    | opening | close | publish | adminResults =>
      cases pathElectionId b.path.bytes <;> simp [isVoterOp]
    | adminCheck =>
      cases pathElectionId b.path.bytes with
      | none => rfl
      | some id =>
        simp only [foldl_hashKv, hbody, bind_eq_bind, bind_some]
        split_ifs <;> simp [isVoterOp]
    | create =>
      simp [foldl_createKv_op, isVoterOp]
    | adminNextId => simp [isVoterOp]

/-! ## What a request writes to -/

/-- One half of the tables is unchanged. -/
def Tables.SameHalf (t : Tables) (t' : Tables) : Half → Prop
  | .registry => t'.elections = t.elections ∧ t'.options = t.options ∧ t'.eligibles = t.eligibles
  | .votes => t'.ballots = t.ballots ∧ t'.owners = t.owners ∧ t'.nonces = t.nonces

lemma Tables.SameHalf.trans {t'' : Tables} (h : t.SameHalf t' half)
    (h' : t'.SameHalf t'' half) : t.SameHalf t'' half := by
  cases half with
  | registry => exact ⟨h'.1.trans h.1, h'.2.1.trans h.2.1, h'.2.2.trans h.2.2⟩
  | votes => exact ⟨h'.1.trans h.1, h'.2.1.trans h.2.1, h'.2.2.trans h.2.2⟩

lemma Stmt.run_sameHalf (h : stmt.half? ≠ some half)
    {rows : List Row} (hrun : stmt.run t = some (t', rows)) : t.SameHalf t' half := by
  cases stmt with
  | insertElection _ _ _ _ _ _ | insertOption _ _ _ | insertEligible _ _ =>
    obtain rfl : half = .votes := by cases half <;> simp [Stmt.half?] at h ⊢
    simp only [Stmt.run, bind_eq_bind, bind_eq_some_iff, some.injEq, Prod.mk.injEq] at hrun
    grind [Tables.SameHalf]
  | insertBallot _ _ _ _ _ | insertOwner _ _ _ _ | insertNonce _ _ =>
    obtain rfl : half = .registry := by cases half <;> simp [Stmt.half?] at h ⊢
    simp only [Stmt.run, bind_eq_bind, bind_eq_some_iff, some.injEq, Prod.mk.injEq] at hrun
    grind [Tables.SameHalf]
  | _ =>
    obtain ⟨rfl, -⟩ := Prod.mk.inj (some.inj hrun)
    cases half <;> first | exact ⟨rfl, rfl, rfl⟩ | exact absurd rfl h

lemma Stmt.preserves_half (h : stmt.half? ≠ some half) (t₀ : Tables) :
    stmt.Preserves fun t => t₀.SameHalf t half :=
  fun _ _ _ ht hrun => ht.trans (Stmt.run_sameHalf h hrun)

lemma DbCmd.preserves_half {cmd : DbCmd} (h : cmd.half? ≠ some half) (t₀ : Tables) :
    cmd.Preserves fun t => t₀.SameHalf t half := by
  rintro stmt ⟨-, hnone | hsame⟩
  · exact Stmt.preserves_half (by simp [hnone]) t₀
  · exact Stmt.preserves_half (hsame ▸ h) t₀

variable {ι : Type} {ch : Channel ι} {crypto : Crypto} {req : BclRequest} {w : World ι}

lemma dispatchOp_keeps_half (hvoter : isVoterOp req.op = true → half = .registry)
    (hadmin : isAdminOp req.op = true → half = .votes) (t₀ : Tables) :
    BrainM.Keeps (fun t => t₀.SameHalf t half) (dispatchOp ch crypto req) := by
  by_cases hballot : req.op = .cast ∨ req.op = .update
  · obtain rfl : half = .registry := hvoter (by rcases hballot with h | h <;> rw [h] <;> rfl)
    have hrecord : BrainM.Keeps (fun t => t₀.SameHalf t .registry)
        (bbRecordBallot ch crypto req.electionId req.ballot) :=
      bbRecordBallot_keeps (fun cmd hcmd => DbCmd.preserves_half hcmd t₀) crypto req.electionId
        req.ballot
    unfold dispatchOp
    rcases hballot with hop | hop <;> rw [hop] <;> exact hrecord
  · refine dispatchOp_keeps_tables (fun cmd _ hread => DbCmd.preserves_half ?_ t₀) hballot
      (fun hop target => DbCmd.preserves_half ?_ t₀) fun hop id => DbCmd.preserves_half ?_ t₀
    · have hnone : cmd.half? = none := by cases cmd <;> first | rfl | cases hread
      simp [hnone]
    · obtain rfl := hadmin (by rcases hop with h | h | h <;> rw [h] <;> rfl)
      simp [DbCmd.half?]
    · obtain rfl := hadmin (by rw [hop]; rfl)
      simp [DbCmd.half?]

lemma ballotdDispatch_sameRegistry (hop : isVoterOp req.op = true) (hw : w.txnConn = none) :
    w.server.store.SameHalf (ballotdDispatch ch crypto req w).server.store .registry := by
  refine (ballotdDispatch_idleWith (dispatchOp_keeps_half (fun _ => rfl) (fun hadmin => ?_)
    w.server.store) ⟨hw, rfl, rfl, rfl⟩).2
  cases h : req.op <;> simp [h, isVoterOp, isAdminOp] at hop hadmin

lemma ballotdDispatch_sameVotes (hop : isAdminOp req.op = true) (hw : w.txnConn = none) :
    w.server.store.SameHalf (ballotdDispatch ch crypto req w).server.store .votes := by
  refine (ballotdDispatch_idleWith (dispatchOp_keeps_half (fun hvoter => ?_) (fun _ => rfl)
    w.server.store) ⟨hw, rfl, rfl, rfl⟩).2
  cases h : req.op <;> simp [h, isVoterOp, isAdminOp] at hop hvoter

/-! ## The property -/

lemma handleConn_eq_some {frame : Bytes} {req : BclRequest} (h : handleConn frame = some req) :
    isAdminOp req.op = true := by
  unfold handleConn at h
  cases hparse : htttpParseRequest frame with
  | error e => simp [hparse, Except.toOption] at h
  | ok http =>
    cases hdecode : bclDecodeRequest http with
    | none => simp [hparse, hdecode, Except.toOption] at h
    | some req₀ =>
      have hif : (if isAdminOp req₀.op then some req₀ else none) = some req := by
        simpa [hparse, hdecode, Except.toOption] using h
      split_ifs at hif with hop
      exact some.inj hif ▸ hop

/-- What a voter frame is forwarded as carries a voter operation and the connection's name, and
depends on nothing but the method, the path and the body lines the operation reads; an admin frame
is forwarded as an admin operation; and each of the two leaves the tables of the other alone. -/
theorem channels_separate_powers : (∀ name buf req, handleRequest name buf = some req →
      isVoterOp req.op = true ∧ req.certName.bytes = name.bytes ∧
        req.ballot.certName.bytes = name.bytes) ∧
    (∀ name buf₁ buf₂ http₁ http₂, htttpParseRequest buf₁ = .ok http₁ →
      htttpParseRequest buf₂ = .ok http₂ → http₁.method = http₂.method → http₁.path = http₂.path →
      voterKvs http₁.body = voterKvs http₂.body →
      handleRequest name buf₁ = handleRequest name buf₂) ∧
    (∀ frame req, handleConn frame = some req → isAdminOp req.op = true) ∧
    (∀ (ι : Type) (ch : Channel ι) (crypto : Crypto) (w : World ι), w.txnConn = none →
      (∀ name buf req, handleRequest name buf = some req →
        w.server.store.SameHalf (ballotdDispatch ch crypto req w).server.store .registry) ∧
      (∀ frame req, handleConn frame = some req →
        w.server.store.SameHalf (ballotdDispatch ch crypto req w).server.store .votes)) := by
  refine ⟨fun name buf req h => ?_, ?_, fun _ _ => handleConn_eq_some, fun ι ch crypto w hw =>
    ⟨fun name buf req h => ?_, fun frame req h => ?_⟩⟩
  · obtain ⟨http, req₀, -, -, hop, rfl⟩ := handleRequest_eq_some h
    exact ⟨hop, stamp_names req₀ name⟩
  · intro name buf₁ buf₂ http₁ http₂ h₁ h₂ hmethod hpath hbody
    rw [handleRequest_parsed h₁, handleRequest_parsed h₂]
    exact forwardParsed_congr name hmethod hpath hbody
  · obtain ⟨http, req₀, -, -, hop, rfl⟩ := handleRequest_eq_some h
    exact ballotdDispatch_sameRegistry hop hw
  · exact ballotdDispatch_sameVotes (handleConn_eq_some h) hw

theorem join_under_own_name : isVoterOp (joinRequest "ada").op = true ∧
      (joinRequest "ada").certName.bytes = (CStr.ofBytes (ascii "ada") : CStr maxUserName).bytes ∧
      (joinRequest "ada").ballot.certName.bytes =
        (CStr.ofBytes (ascii "ada") : CStr maxUserName).bytes :=
  channels_separate_powers.1 _ joinFrame _ (by decide +kernel)

def namedJoin (n : ℕ) : Bytes :=
  ascii "JOIN /election/E-1 HTTTP/1.0" ++ crlf ++ ascii "Cert-Name: " ++ List.replicate n 97 ++
    crlf ++ crlf

def castFrame (payload : String) : Bytes :=
  ascii "CAST /election/E-1/ballot HTTTP/1.0" ++ crlf ++ ascii "Content-Length: 10" ++ crlf ++
    crlf ++ ascii "payload=" ++ ascii payload

/-- Two frames that differ in the `Cert-Name` header only, of which one is forwarded and one is
not; and two that differ in a body line only and are forwarded as different votes. -/
theorem certName_header_matters : (handleRequest default (namedJoin 255)).isSome = true ∧
    handleRequest default (namedJoin 256) = none ∧
    (handleRequest default (castFrame "00")).isSome = true ∧
    handleRequest default (castFrame "00") ≠ handleRequest default (castFrame "01") := by
  decide +kernel

end BallotBox
