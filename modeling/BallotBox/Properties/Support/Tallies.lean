import BallotBox.Properties.Support.Runs

/-!
# Tallies and stored states

`Tables.tally` counts the live ballots of an election for one option, and `reported_tally` says that
this is what a `RESULTS` reply contains.  `Does.state` says how a request moves the state of an
election.
-/

namespace BallotBox

open Tables

variable {i : ℕ} {t t' : Tables} {eid : Bytes} {crypto : Crypto} {req : BclRequest}
  {resp : BclResponse}

/-! ## Counting -/

def Tables.tally (t : Tables) (eid : Bytes) (option : ℕ) : ℕ :=
  (t.liveBallots eid).countP fun b => b.optionIndex.val = (option : ℤ)

lemma countVote_getElem (v : Vector ℤ bbMaxOptions) (b : BallotRow) (hi : i < bbMaxOptions) :
    (countVote v [b.optionIndex.render])[i] =
      v[i] + if b.optionIndex.val = (i : ℤ) then 1 else 0 := by
  have hcount : countVote v [b.optionIndex.render] =
      if 0 ≤ b.optionIndex.val then
        v.setIfInBounds b.optionIndex.val.toNat (v[b.optionIndex.val.toNat]?.getD 0 + 1)
      else v := by
    rw [countVote, fieldInt_render]
  simp only [hcount]
  by_cases hneg : 0 ≤ b.optionIndex.val
  · simp only [if_pos hneg, Vector.getElem_setIfInBounds]
    by_cases heq : b.optionIndex.val = (i : ℤ)
    · simp [heq, hi]
    · rw [if_neg heq, if_neg (by omega), add_zero]
  · have hne : b.optionIndex.val ≠ (i : ℤ) := by omega
    simp [hneg, hne]

lemma foldl_countVote (bs : List BallotRow) (v : Vector ℤ bbMaxOptions) (hi : i < bbMaxOptions) :
    ((bs.map fun b => [b.optionIndex.render]).foldl countVote v)[i] =
      v[i] + bs.countP (fun b => b.optionIndex.val = (i : ℤ)) := by
  induction bs generalizing v with
  | nil => simp
  | cons b bs ih =>
    rw [List.map_cons, List.foldl_cons, ih, countVote_getElem v b hi, List.countP_cons]
    simp only [decide_eq_true_eq]
    split_ifs
    · push_cast
      ring
    · simp

lemma getTally_tally {out : DbResult} {eid : CStr bbIdLen}
    (h : DbCmd.Means t out t (.getTally eid)) (hi : i < bbMaxOptions) :
    out.tally[i] = t.tally eid.bytes i := by
  obtain ⟨-, bs, hperm, htally⟩ := h
  simp only [htally]
  rw [foldl_countVote bs _ hi, hperm.countP_eq]
  simp [tally]

/-! ## Stored states -/

def ElectionRow.readState (r : ElectionRow) : Option BbState :=
  parseState (CStr.ofBytes r.state.bytes : CStr 16).bytes

def Tables.state? (t : Tables) (eid : Bytes) : Option BbState :=
  (t.electionsOf eid).head?.bind ElectionRow.readState

lemma readState_of_stateStr {r : ElectionRow} {s : BbState} (h : r.state.bytes = bbStateStr s) :
    r.readState = some s := by
  rw [ElectionRow.readState, h]
  cases s <;> decide

lemma electionsOf_setElection (t : Tables) (r : ElectionRow) (eid : Bytes) :
    (t.setElection r).electionsOf eid = if r.id.bytes = eid then [r] else t.electionsOf eid :=
  filter_key_upsert (fun r : ElectionRow => r.id.bytes) t.elections r eid

/-! ## Reports -/

lemma Does.report (h : Does crypto req t resp t') (hop : req.op = .results ∨ req.op = .adminResults)
    (hok : resp.status = .ok) :
    ∃ e, ReadsElection req.electionId.bytes t e ∧ e.state = .published ∧
      resp.optionCount = e.optionCount ∧
      (∀ i (hi : i < bbMaxOptions), resp.tally[i] =
        if i < e.optionCount then (t.tally req.electionId.bytes i : ℤ) else 0) ∧
      ∃ bs : List BallotRow, bs.Perm (t.liveBallots req.electionId.bytes) ∧
        resp.hashes = (bs.map BallotRow.published).take bbMaxVoters := by
  cases h with
  | reported e tally hashes hop' hreads hpublished _ htally hhashes =>
    obtain ⟨-, bs, hperm, hlist⟩ := hhashes
    refine ⟨e, hreads, hpublished, rfl, fun i hi => ?_, bs, hperm, hlist⟩
    simp [fillResults, resultsOf, getTally_tally htally hi]
  | failed e h => simp [h] at hok
  | created _ hop' => simp [hop'] at hop
  | numbered _ hop' => simp [hop'] at hop
  | moved target e r r' hop' =>
    rcases hop with hop | hop <;> simp [hop, BclOp.target?] at hop'
  | joined _ _ hop' => simp [hop'] at hop
  | recorded hop' rec => rcases hop with hop | hop <;> simp [hop] at hop'
  | checked _ _ hop' => rcases hop with hop | hop <;> simp [hop] at hop'

end BallotBox
