import BallotBox.Properties.Support.Messages
import BallotBox.Properties.Support.SteadyRuns

/-!
# What a response is made of

No string in a response can break a line (`ballotdDispatch_printable`), and a request that fails may
have begun to fill its response in (`dispatchOp_leaves`).  So every response can be encoded whose
status has a name (`bclEncodeResponse_isSome_iff`).
-/

namespace BallotBox

open BclResponse

variable {n : ℕ} {eid : Bytes} {e : BbElection}

/-! ## Elections read from the store -/

/-- The strings of an election fit on their lines. -/
structure BbElection.Printable (e : BbElection) : Prop where
  id : Clean e.id.bytes
  title : Clean e.title.bytes
  openTime : Clean e.openTime.bytes
  closeTime : Clean e.closeTime.bytes
  options : ∀ o ∈ e.options.toList, Clean o.bytes

lemma clean_default : Clean (default : CStr n).bytes := (by decide : Clean [])

lemma clean_replicate {m : ℕ} :
    ∀ o ∈ (Vector.replicate m (default : CStr n)).toList, Clean o.bytes := by
  intro o ho
  rw [Vector.toList_replicate] at ho
  rw [List.eq_of_mem_replicate ho]
  exact clean_default

lemma clean_placeOptions (os : List OptionRow) (options : Vector (CStr bbOptionLen) bbMaxOptions)
    (h : ∀ o ∈ options.toList, Clean o.bytes) :
    ∀ o ∈ ((os.map fun o => [o.idx.render, o.name.bytes]).foldl placeOption options).toList,
      Clean o.bytes := by
  induction os generalizing options with
  | nil => exact h
  | cons row os ih =>
    refine ih _ fun o ho => ?_
    simp only [placeOption] at ho
    split_ifs at ho
    · rw [Vector.toList_setIfInBounds] at ho
      rcases List.mem_or_eq_of_mem_set ho with hmem | rfl
      · exact h o hmem
      · exact clean_ofBytes row.name
    · exact h o ho

lemma ReadsElection.printable {t : Tables} (h : ReadsElection eid t e) : e.Printable := by
  obtain ⟨r, -, hid, htitle, -, hopen, hclose⟩ := h.row
  obtain ⟨os, -, hoptions⟩ := h.options
  refine ⟨?_, ?_, ?_, ?_, ?_⟩
  · rw [hid]
    exact clean_ofBytes r.id
  · rw [htitle]
    exact clean_ofBytes r.title
  · rw [hopen]
    exact clean_ofBytes r.openTime
  · rw [hclose]
    exact clean_ofBytes r.closeTime
  · rw [hoptions]
    exact clean_placeOptions os _ clean_replicate

lemma ReadsElection.clean_eid {t : Tables} (h : ReadsElection eid t e) : Clean eid := by
  obtain ⟨r, hr, -⟩ := h.row
  rw [← of_decide_eq_true (List.mem_filter.mp hr).2]
  exact r.id.clean

lemma BclResponse.printable_default : (default : BclResponse).Printable :=
  ⟨clean_default, clean_default, clean_default, clean_default, clean_replicate, clean_default,
    clean_default, clean_replicate, by simp [default], by simp [default], clean_default⟩

lemma BclResponse.Printable.with_election {resp : BclResponse} (h : resp.Printable)
    (he : e.Printable) : Printable { resp with election := e } :=
  { h with id := he.id, title := he.title, openTime := he.openTime, closeTime := he.closeTime,
           electionOptions := he.options }

lemma BclResponse.Printable.with_id {resp : BclResponse} (h : resp.Printable) {id : CStr bbIdLen}
    (hid : Clean id.bytes) :
    Printable { resp with election := { resp.election with id := id } } :=
  { h with id := hid }

lemma BclResponse.Printable.with_receipt {resp : BclResponse} (h : resp.Printable) {clock : ℕ}
    {ballot : BbBallot} {version : ℤ} {receipt : BbReceipt}
    (hissued : (stubCrypto.issueReceipt clock ballot version).1 = .ok receipt) :
    Printable { resp with receipt := receipt } := by
  cases hissued
  have hdate : Clean (CStr.ofBytes (ascii "1970-01-01T00:00:00Z") : CStr bbTimeLen).bytes := by
    decide
  exact { h with hash := clean_hashLoop _ _, issuedAt := hdate }

/-! ## Responses to requests that succeed -/

variable {req : BclRequest} {t t' store : Tables} {resp : BclResponse}

lemma resultsOf_printable {tally hashes : DbResult} {eid : CStr bbIdLen}
    (he : e.Printable) (heid : Clean eid.bytes)
    (hhashes : DbCmd.Means t hashes t (.getHashes eid)) :
    (fillResults eid (resultsOf e tally hashes) default).Printable := by
  obtain ⟨-, bs, -, hrows⟩ := hhashes
  refine { printable_default with
    id := heid, title := he.title, hashes_le := hashes.hashes_le, options := ?_, hashes := ?_ }
  · intro o ho
    simp only [fillResults, resultsOf, Vector.toList_ofFn, List.mem_ofFn] at ho
    obtain ⟨i, rfl⟩ := ho
    split_ifs
    · exact he.options _ (by simp)
    · exact clean_default
  · intro h hh
    simp only [fillResults, resultsOf, hrows] at hh
    obtain ⟨b, -, rfl⟩ := List.mem_map.mp (List.mem_of_mem_take hh)
    exact clean_ofBytes b.hash

lemma Does.printable (h : Does stubCrypto req t resp t') (hstatus : resp.status = .ok)
    (hop : req.op ≠ .adminNextId) : resp.Printable := by
  cases h with
  | failed e he => cases he.symm.trans hstatus
  | created id _ _ hcreates =>
    obtain ⟨r, os, vs, ⟨-, hid, -⟩, -⟩ := hcreates
    exact BclResponse.printable_default.with_id (hid ▸ r.id.clean)
  | numbered id h => exact absurd h hop
  | moved => exact { printable_default with }
  | joined e prior _ hreads =>
    have he := BclResponse.printable_default.with_election hreads.printable
    exact { he with }
  | recorded _ rec => exact { BclResponse.printable_default.with_receipt rec.issued with }
  | reported e tally hashes _ hreads _ _ _ hhashes =>
    exact { resultsOf_printable hreads.printable hreads.clean_eid hhashes with }
  | checked e b _ hreads _ _ =>
    refine { printable_default with foundOptionName := ?_ }
    dsimp only
    split_ifs
    · cases hname : e.options[b.optionIndex.val.toNat]? with
      | none => exact clean_default
      | some name => exact hreads.printable.options _ (Vector.mem_toList_iff.mpr
          (Vector.mem_of_getElem? hname))
    · exact clean_default

/-! ## Responses to requests that fail -/

/-- What a failing request leaves in its response: nothing, the election it could have joined, or
the receipt for a ballot not recorded. -/
inductive Leaves (crypto : Crypto) (req : BclRequest) (store : Tables) : BclResponse → Prop
  | nothing : Leaves crypto req store default
  | election (e : BbElection) (hop : req.op = .join)
      (hreads : ReadsElection req.electionId.bytes store e) (hopen : e.state = .opened) :
      Leaves crypto req store { (default : BclResponse) with election := e }
  | receipt (receipt : BbReceipt) (hop : req.op = .cast ∨ req.op = .update) (clock : ℕ)
    (version : ℤ)
      (hissued : (crypto.issueReceipt clock req.ballot version).1 = .ok receipt) :
      Leaves crypto req store { (default : BclResponse) with receipt := receipt }

lemma Leaves.printable (h : Leaves stubCrypto req store resp) : resp.Printable := by
  cases h with
  | nothing => exact printable_default
  | election e _ hreads => exact BclResponse.printable_default.with_election hreads.printable
  | receipt receipt _ _ _ hissued => exact BclResponse.printable_default.with_receipt hissued

section Failures

variable {crypto : Crypto}

lemma bbJoin_leaves (hop : req.op = .join) :
    Triple (World.Idle store default) (bbJoin direct crypto req.electionId req.certName)
      (fun _ _ => True) (fun _ w => Leaves crypto req store w.resp) := by
  have hrefuse {α : Type} (e : BbErr) : Triple (World.Idle store default)
      (MonadExcept.throw e : BrainM Unit α) (fun _ _ => True)
      (fun _ w => Leaves crypto req store w.resp) :=
    (Triple.throw e).pre fun w hw => hw.2.2 ▸ .nothing
  refine Triple.bind_imp ((loadElection_idle req.electionId).err fun _ w h => h.2.2.2 ▸ .nothing)
    fun e hreads => ?_
  refine Triple.bind (bbLogAll_keeps (fun _ _ h => h) _) fun _ => ?_
  cases (crypto.verifyCert req.certName).1 with
  | valid =>
    refine Triple.ite (fun _ => (bbLogAll_keeps (fun _ _ h => h) _).bind fun _ =>
      hrefuse _) fun _ => ?_
    refine Triple.ite (fun _ => (bbLog_keeps (fun _ _ h => h) _).bind fun _ =>
      hrefuse _) fun hopen => ?_
    refine Triple.bind (Q := fun _ w => Leaves crypto req store w.resp) (fun w hw => ?_) fun _ => ?_
    · have hleaves : Leaves crypto req store { w.resp with election := e } := by
        rw [hw.2.2]
        exact .election e hop hreads (by simpa using hopen)
      exact hleaves
    · exact (dbExec_keeps_resp _).bind fun _ _ _ => trivial
  | _ => exact hrefuse _

lemma recordLoop_leaves (hop : req.op = .cast ∨ req.op = .update) (last : BbErr) (rounds : ℕ) :
    Triple (World.Idle store default)
      (recordLoop direct crypto req.electionId req.ballot last rounds)
      (fun _ _ => True) (fun _ w => Leaves crypto req store w.resp) := by
  let R (resp : BclResponse) : Prop :=
    (∃ old, resp = { (default : BclResponse) with receipt := old }) ∧ Leaves crypto req store resp
  have hissue (w : World Unit) (clock : ℕ) (version : ℤ) (receipt : BbReceipt)
      (hissued : (crypto.issueReceipt clock req.ballot version).1 = .ok receipt) (hw : R w.resp) :
      R { w.resp with receipt := receipt } := by
    obtain ⟨⟨old, hresp⟩, -⟩ := hw
    rw [hresp]
    exact ⟨⟨receipt, rfl⟩, .receipt receipt hop clock version hissued⟩
  have hloop : Triple (fun w => R w.resp)
      (recordLoop direct crypto req.electionId req.ballot last rounds) (fun _ _ => True)
      (fun _ w => R w.resp) := recordLoop_rule bbDbBegin_keeps_resp
    (recordBallotLocked_keeps (W := fun w => R w.resp) (fun _ _ h => h)
      (fun _ _ => dbExec_keeps_resp _) crypto req.electionId req.ballot hissue)
    (bbDbCommit_keeps_resp.ends (fun _ _ _ => trivial) fun _ _ => id)
    bbDbRollback_keeps_resp (fun _ => id) last rounds
  refine hloop.conseq (fun w hw => ?_) (fun _ _ => id) fun _ w hw => hw.2
  have hempty : R default := ⟨⟨default, rfl⟩, .nothing⟩
  rw [hw.2.2]
  exact hempty

theorem dispatchOp_leaves (req : BclRequest) (store : Tables) :
    Triple (World.Idle store default) (dispatchOp direct crypto req) (fun _ _ => True)
      (fun _ w => Leaves crypto req store w.resp) := by
  by_cases hjoin : req.op = .join
  · unfold dispatchOp
    rw [hjoin]
    exact bbJoin_leaves hjoin
  by_cases hballot : req.op = .cast ∨ req.op = .update
  · have hrecord : Triple (World.Idle store default)
        (bbRecordBallot direct crypto req.electionId req.ballot) (fun _ _ => True)
        (fun _ w => Leaves crypto req store w.resp) := recordLoop_leaves hballot .db bbTxnAttempts
    unfold dispatchOp
    rcases hballot with hop | hop <;> rw [hop] <;> exact hrecord
  · have hstays {α : Type} {x : BrainM Unit α} (hx : Invariant (fun w => w.resp = default) x) :
        BrainM.Stays (fun w => w.resp = default) (fun _ => True) x :=
      hx.err fun _ _ h => ⟨trivial, h⟩
    refine (dispatchOp_keeps (fun _ _ => trivial) (fun _ _ h => h)
      (fun _ _ _ => hstays (dbExec_keeps_resp (R := (· = default)) _))
      (hstays (onFresh_keeps_resp (R := (· = default)) _)) hjoin hballot
      (fun _ _ => hstays (dbExec_keeps_resp (R := (· = default)) _))
      fun _ _ => hstays (dbExec_keeps_resp (R := (· = default)) _)).conseq (fun w hw => hw.2.2)
      (fun _ _ _ => trivial) ?_
    exact fun _ w hw => hw.2 ▸ .nothing

end Failures

/-! ## All responses -/

lemma bbAllocId_clean {E : BbErr → World Unit → Prop} :
    Triple (World.Idle store default) (bbAllocId direct)
      (fun id w => Clean id.bytes ∧ w.Idle store default) E := by
  have hclean (n : ℤ) : Clean (CStr.ofBytes (ascii "E-" ++ renderInt n) : CStr bbIdLen).bytes :=
    ((by decide : Clean (ascii "E-")).append (clean_renderInt n)).of_subset
      fun _ => CStr.mem_of_mem_ofBytes
  have hid : Triple (fun _ => True) (bbAllocId direct : BrainM Unit _)
      (fun id _ => Clean id.bytes) E := by
    refine Triple.attempt_bind (Q := fun _ _ => True) (E := fun _ _ => True) (fun w _ => ?_)
      (fun _ _ _ => hclean _) fun _ _ _ => hclean _
    split <;> trivial
  exact (hid.and (bbAllocId_triple (E := E))).conseq (fun _ hw => ⟨trivial, hw⟩) (fun _ _ => id)
    fun _ _ h => h.1

theorem ballotdDispatch_printable (req : BclRequest) {w : World Unit} (h : w.txnConn = none) :
    (ballotdDispatch direct stubCrypto req w).resp.Printable := by
  have hidle : World.Idle w.server.store default { w with resp := default } := ⟨h, rfl, rfl⟩
  unfold ballotdDispatch
  cases hrun : dispatchOp direct stubCrypto req { w with resp := default } with
  | error e w' =>
    exact { ((dispatchOp_leaves req w.server.store).of_error hidle hrun).printable with }
  | ok a w' =>
    by_cases hop : req.op = .adminNextId
    · have hid : Triple (World.Idle w.server.store default) (dispatchOp direct stubCrypto req)
          (fun _ w => w.resp.Printable) (fun _ _ => True) := by
        unfold dispatchOp
        rw [hop]
        refine Triple.bind_imp bbAllocId_clean fun id hclean w' hw' => ?_
        have hdefault : w'.resp.Printable := hw'.2.2 ▸ printable_default
        exact hdefault.with_id hclean
      exact { hid.of_ok hidle hrun with }
    · have hdoes := ((dispatchOp_triple stubCrypto req w.server.store).of_ok hidle hrun).2
      exact hdoes.printable rfl hop

theorem bclEncodeResponse_isSome_iff {date : CStr 48} {op : BclOp} {resp : BclResponse}
    (h : resp.Printable) :
    (bclEncodeResponse 65536 date op resp).isSome = true ↔ resp.status ≠ .err .retry := by
  constructor
  · rintro hsome hretry
    simp [bclEncodeResponse, hretry, nameFromResult] at hsome
  · intro hstatus
    obtain ⟨name, hname⟩ := Option.ne_none_iff_exists'.mp (mt nameFromResult_eq_none.mp hstatus)
    obtain ⟨reason, -, heq⟩ : ∃ reason, _ ∧ bclEncodeResponse 65536 date op resp = some _ :=
      bclEncodeResponse_eq h hname (by norm_num)
    rw [heq]
    rfl

end BallotBox
