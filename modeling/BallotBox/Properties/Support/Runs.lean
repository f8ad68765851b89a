import BallotBox.Properties.Support.Requests

/-!
# Runs of the daemon

A run is a list of requests served one after another; its `history` has each request with the tables
before it, the response and the tables after it.  `World.start` is the daemon on empty tables, with
an arbitrary schedule ahead of it.
-/

namespace BallotBox

open List

variable {w : World Unit} {o : OwnerRow} {b : BallotRow}

/-! ## Histories -/

/-- One request of a run. -/
structure Event where
  req : BclRequest
  before : Tables
  resp : BclResponse
  after : Tables

variable {ι : Type}

def serve (ch : Channel ι) (crypto : Crypto) (reqs : List BclRequest) (w : World ι) : World ι :=
  reqs.foldl (fun w req => ballotdDispatch ch crypto req w) w

def history (ch : Channel ι) (crypto : Crypto) : List BclRequest → World ι → List Event
  | [], _ => []
  | req :: reqs, w =>
    let w' := ballotdDispatch ch crypto req w
    ⟨req, w.server.store, w'.resp, w'.server.store⟩ :: history ch crypto reqs w'

def World.start (sched : ℕ → Outcome) : World ι where
  server := ⟨Tables.empty, sched, 0, []⟩
  txnConn := none
  log := []
  resp := default

def eventOf (ch : Channel ι) (crypto : Crypto) (req : BclRequest) (w : World ι) : Event :=
  ⟨req, w.server.store, (ballotdDispatch ch crypto req w).resp,
    (ballotdDispatch ch crypto req w).server.store⟩

lemma history_append (ch : Channel ι) (crypto : Crypto) (reqs : List BclRequest) (req : BclRequest)
    (w : World ι) :
    history ch crypto (reqs ++ [req]) w =
      history ch crypto reqs w ++ [eventOf ch crypto req (serve ch crypto reqs w)] := by
  induction reqs generalizing w with
  | nil => rfl
  | cons r reqs ih => simp [history, serve, ih]

lemma serve_append (ch : Channel ι) (crypto : Crypto) (reqs : List BclRequest) (req : BclRequest)
    (w : World ι) :
    serve ch crypto (reqs ++ [req]) w = ballotdDispatch ch crypto req (serve ch crypto reqs w) := by
  simp [serve]

theorem history_induction {ch : Channel ι} {crypto : Crypto} {J : List Event → World ι → Prop}
    {w : World ι} (hstart : J [] w) (reqs : List BclRequest)
    (hstep : ∀ req ∈ reqs, ∀ evs w, J evs w →
      J (evs ++ [eventOf ch crypto req w]) (ballotdDispatch ch crypto req w)) :
    J (history ch crypto reqs w) (serve ch crypto reqs w) := by
  induction reqs using List.reverseRecOn with
  | nil => exact hstart
  | append_singleton reqs req ih =>
    rw [history_append, serve_append]
    refine hstep req (mem_append_right _ (mem_singleton_self _)) _ _ (ih ?_)
    exact fun req hreq => hstep req (mem_append_left _ hreq)

lemma serve_txnConn {crypto : Crypto} (h : w.txnConn = none)
    (reqs : List BclRequest) : (serve direct crypto reqs w).txnConn = none :=
  history_induction (J := fun _ w => w.txnConn = none) h reqs
    fun _ _ _ _ hw => (ballotdDispatch_does hw).1

theorem run_induction {crypto : Crypto} (htxn : w.txnConn = none)
    {I : List Event → Tables → Prop} {C : Event → Prop} (hstart : I [] w.server.store)
    (hstep : ∀ evs ev, I evs ev.before → C ev → Does crypto ev.req ev.before ev.resp ev.after →
      I (evs ++ [ev]) ev.after)
    (reqs : List BclRequest) (hC : ∀ ev ∈ history direct crypto reqs w, C ev) :
    I (history direct crypto reqs w) (serve direct crypto reqs w).server.store := by
  refine (history_induction (J := fun evs w => w.txnConn = none ∧ ((∀ ev ∈ evs, C ev) →
    I evs w.server.store)) ⟨htxn, fun _ => hstart⟩ reqs fun req _ evs w hw => ?_).2 hC
  obtain ⟨htxn', hdoes⟩ : _ ∧ Does crypto req _ _ _ := ballotdDispatch_does hw.1
  refine ⟨htxn', fun hC => ?_⟩
  rw [forall_mem_append, forall_mem_singleton] at hC
  exact hstep evs (eventOf direct crypto req w) (hw.2 hC.1) hC.2 hdoes

/-! ## The selected lists after an effect -/

namespace Tables

variable (t : Tables)

def pointersTo (eid hash : Bytes) : List OwnerRow :=
  t.owners.filter fun o => o.electionId.bytes = eid ∧ o.hash.bytes = hash

variable (eid hash cert : Bytes)

variable {t eid hash cert} in
lemma mem_pointersTo : o ∈ t.pointersTo eid hash ↔
    o ∈ t.owners ∧ o.electionId.bytes = eid ∧ o.hash.bytes = hash := by
  simp [pointersTo]

variable {t eid hash cert} in
lemma mem_ownersOf : o ∈ t.ownersOf eid cert ↔
    o ∈ t.owners ∧ o.electionId.bytes = eid ∧ o.certName.bytes = cert := by
  simp [ownersOf]

variable {t eid hash cert} in
lemma mem_ballotsWith : b ∈ t.ballotsWith eid hash ↔
    b ∈ t.ballots ∧ b.electionId.bytes = eid ∧ b.hash.bytes = hash := by
  simp [ballotsWith]

variable {t eid hash cert} in
lemma mem_liveBallots : b ∈ t.liveBallots eid ↔
    b ∈ t.ballots ∧ b.electionId.bytes = eid ∧ b.superseded.val = 0 := by
  simp [liveBallots]

lemma ballotsWith_eq :
    t.ballotsWith eid hash = t.ballots.filter (BallotRow.key · = (eid, hash)) := by
  simp [ballotsWith, BallotRow.key]

lemma ownersOf_eq : t.ownersOf eid cert = t.owners.filter (OwnerRow.voter · = (eid, cert)) := by
  simp [ownersOf, OwnerRow.voter]

lemma ballotsWith_addBallot (b : BallotRow) : (t.addBallot b).ballotsWith eid hash =
      t.ballotsWith eid hash ++ if b.key = (eid, hash) then [b] else [] := by
  simp only [ballotsWith_eq, addBallot, filter_append, filter_singleton]
  simp

lemma ballotsWith_supersede (b : BallotRow) : (t.supersede b).ballotsWith eid hash =
      if b.key = (eid, hash) then [b.retired] else t.ballotsWith eid hash := by
  rw [ballotsWith_eq, ballotsWith_eq]
  exact filter_key_upsert _ _ _ _

lemma ownersOf_setOwner (o : OwnerRow) : (t.setOwner o).ownersOf eid cert =
      if o.voter = (eid, cert) then [o] else t.ownersOf eid cert := by
  rw [ownersOf_eq, ownersOf_eq]
  exact filter_key_upsert _ _ _ _

lemma pointersTo_setOwner (o : OwnerRow) : (t.setOwner o).pointersTo eid hash =
      (t.pointersTo eid hash).filter (OwnerRow.voter · ≠ o.voter) ++
        if o.electionId.bytes = eid ∧ o.hash.bytes = hash then [o] else [] := by
  rw [pointersTo, setOwner, filter_upsert, ← pointersTo]
  simp only [decide_eq_true_eq]

end Tables

/-! ## Recordings -/

def SameVotes (t t' : Tables) : Prop :=
  t'.ballots = t.ballots ∧ t'.owners = t.owners ∧ t'.nonces = t.nonces

lemma Does.votes {crypto : Crypto} {req : BclRequest} {t t' : Tables} {resp : BclResponse}
    (h : Does crypto req t resp t') :
    (SameVotes t t' ∧ ((req.op = .cast ∨ req.op = .update) → resp.status ≠ .ok)) ∨
      (req.op = .cast ∨ req.op = .update) ∧
        ∃ rec : Recording crypto req.electionId.bytes req.ballot t,
          resp = { (default : BclResponse) with status := .ok, receipt := rec.receipt } ∧
          t' = rec.after := by
  cases h with
  | recorded hop rec => exact .inr ⟨hop, rec, rfl, rfl⟩
  | failed e h => exact .inl ⟨⟨rfl, rfl, rfl⟩, fun _ => by simp [h]⟩
  | created id hop hvalid h =>
    obtain ⟨r, os, vs, -, -, -, rfl⟩ := h
    exact .inl ⟨⟨rfl, rfl, rfl⟩, by simp [hop]⟩
  | moved target e r r' hop =>
    refine .inl ⟨⟨rfl, rfl, rfl⟩, ?_⟩
    rintro (h | h) <;> simp [h, BclOp.target?] at hop
  | numbered _ hop => exact .inl ⟨⟨rfl, rfl, rfl⟩, by simp [hop]⟩
  | joined _ _ hop => exact .inl ⟨⟨rfl, rfl, rfl⟩, by simp [hop]⟩
  | reported _ _ _ hop =>
    exact .inl ⟨⟨rfl, rfl, rfl⟩, by rintro (h | h) <;> simp [h] at hop⟩
  | checked _ _ hop =>
    exact .inl ⟨⟨rfl, rfl, rfl⟩, by rintro (h | h) <;> simp [h] at hop⟩

/-- The rows of an election in the vote tables are the same. -/
structure SameVotesOf (eid : Bytes) (t t' : Tables) : Prop where
  ballots :
      t'.ballots.filter (·.electionId.bytes = eid) = t.ballots.filter (·.electionId.bytes = eid)
  owners : t'.owners.filter (·.electionId.bytes = eid) = t.owners.filter (·.electionId.bytes = eid)
  nonces : t'.nonces.filter (·.electionId.bytes = eid) = t.nonces.filter (·.electionId.bytes = eid)

namespace SameVotesOf

variable {eid : Bytes} {t t' : Tables} (h : SameVotesOf eid t t')

include h

lemma ballotsWith_eq (hash : Bytes) : t'.ballotsWith eid hash = t.ballotsWith eid hash := by
  have hsel (s : Tables) : s.ballotsWith eid hash =
      (s.ballots.filter (·.electionId.bytes = eid)).filter (·.hash.bytes = hash) := by
    simp [Tables.ballotsWith, filter_filter, Bool.and_comm]
  rw [hsel, hsel, h.ballots]

lemma pointersTo_eq (hash : Bytes) : t'.pointersTo eid hash = t.pointersTo eid hash := by
  have hsel (s : Tables) : s.pointersTo eid hash =
      (s.owners.filter (·.electionId.bytes = eid)).filter (·.hash.bytes = hash) := by
    simp [Tables.pointersTo, filter_filter, Bool.and_comm]
  rw [hsel, hsel, h.owners]

lemma ownersOf_eq (cert : Bytes) : t'.ownersOf eid cert = t.ownersOf eid cert := by
  have hsel (s : Tables) : s.ownersOf eid cert =
      (s.owners.filter (·.electionId.bytes = eid)).filter (·.certName.bytes = cert) := by
    simp [Tables.ownersOf, filter_filter, Bool.and_comm]
  rw [hsel, hsel, h.owners]

end SameVotesOf

lemma SameVotes.of (eid : Bytes) {t t' : Tables} (h : SameVotes t t') : SameVotesOf eid t t' :=
  ⟨by rw [h.1], by rw [h.2.1], by rw [h.2.2]⟩

namespace Recording

variable {crypto : Crypto} {eid : Bytes} {ballot : BbBallot} {t : Tables}
  (rec : Recording crypto eid ballot t)

@[simp] lemma counted_owners : rec.counted.owners = t.owners := by
  rw [counted]
  split <;> rfl

lemma key_row : rec.row.key = (eid, rec.receipt.hash.bytes) := by
  rw [BallotRow.key, rec.row_stores.electionId, rec.row_stores.hash]

lemma voter_owner : rec.owner.voter = (eid, ballot.certName.bytes) := by
  rw [OwnerRow.voter, rec.owner_stores.1, rec.owner_stores.2.1]

lemma after_ballots : rec.after.ballots = rec.counted.ballots := rfl

lemma after_ballotsWith (hash : Bytes) :
    rec.after.ballotsWith eid hash = rec.counted.ballotsWith eid hash := rfl

lemma after_ownersOf (cert : Bytes) : rec.after.ownersOf eid cert =
      if ballot.certName.bytes = cert then [rec.owner] else t.ownersOf eid cert := by
  have h := rec.counted.ownersOf_setOwner eid cert rec.owner
  rw [voter_owner, Tables.ownersOf_eq rec.counted, counted_owners, ← Tables.ownersOf_eq] at h
  simp only [Prod.mk.injEq, true_and] at h
  exact h

lemma after_pointersTo (hash : Bytes) : rec.after.pointersTo eid hash =
      (t.pointersTo eid hash).filter (OwnerRow.voter · ≠ (eid, ballot.certName.bytes)) ++
        if rec.receipt.hash.bytes = hash then [rec.owner] else [] := by
  have hset := rec.counted.pointersTo_setOwner eid hash rec.owner
  have hsame : rec.counted.pointersTo eid hash = t.pointersTo eid hash := by
    rw [Tables.pointersTo, counted_owners, ← Tables.pointersTo]
  rw [voter_owner, hsame, rec.owner_stores.1, rec.owner_stores.2.2.1] at hset
  simp only [true_and] at hset
  exact hset

end Recording

lemma Recording.sameVotesOf {crypto : Crypto} {eid eid' : Bytes} {ballot : BbBallot} {t : Tables}
    (rec : Recording crypto eid ballot t) (hne : eid ≠ eid') : SameVotesOf eid' t rec.after where
  ballots := by
    have hadd : (t.addBallot rec.row).ballots.filter (·.electionId.bytes = eid') =
        t.ballots.filter (·.electionId.bytes = eid') := by
      simp [Tables.addBallot, rec.row_stores.electionId, hne]
    rw [after_ballots, counted]
    split
    · exact hadd
    · rename_i o x hprior
      obtain ⟨-, hx, -⟩ := rec.prior_some o x hprior
      have hx' : x.electionId.bytes = eid := (of_decide_eq_true (mem_filter.mp hx).2).1
      rw [← hadd]
      refine filter_upsert_of_ne ?_ fun y hy heq => hne ?_
      · simp [BallotRow.retired, hx', hne]
      · rw [← of_decide_eq_true hy, (Prod.mk.inj heq).1]
        exact hx'.symm
  owners := by
    have howners : rec.after.owners = upsert OwnerRow.voter t.owners rec.owner :=
      congrArg (upsert OwnerRow.voter · rec.owner) rec.counted_owners
    rw [howners]
    refine filter_upsert_of_ne ?_ fun y hy heq => hne ?_
    · simp [rec.owner_stores.1, hne]
    · rw [← of_decide_eq_true hy, (Prod.mk.inj heq).1]
      exact rec.owner_stores.1.symm
  nonces := by
    have hnonces : rec.after.nonces = t.nonces ++ [rec.nonce] := by
      rw [after, counted]
      split <;> rfl
    simp [hnonces, rec.nonce_stores.1, hne]

def Event.Records (eid : Bytes) (ev : Event) : Prop :=
  (ev.req.op = .cast ∨ ev.req.op = .update) ∧ ev.resp.status = .ok ∧
    ev.req.electionId.bytes = eid

instance (eid : Bytes) : DecidablePred (Event.Records eid) := fun ev => by
  unfold Event.Records
  infer_instance

lemma Event.votesOf {crypto : Crypto} {ev : Event}
    (h : Does crypto ev.req ev.before ev.resp ev.after) (eid : Bytes) :
    (SameVotesOf eid ev.before ev.after ∧ ¬ ev.Records eid) ∨
    (ev.Records eid ∧ ∃ rec : Recording crypto eid ev.req.ballot ev.before,
      ev.resp.receipt = rec.receipt ∧ ev.after = rec.after) := by
  obtain ⟨hsame, hnot⟩ | ⟨hop, rec, hresp, hafter⟩ := h.votes
  · exact .inl ⟨hsame.of eid, fun hr => hnot hr.1 hr.2.1⟩
  · by_cases heid : ev.req.electionId.bytes = eid
    · subst heid
      exact .inr ⟨⟨hop, by rw [hresp], rfl⟩, rec, by rw [hresp], hafter⟩
    · exact .inl ⟨hafter ▸ rec.sameVotesOf heid, fun hr => heid hr.2.2⟩

/-! ## A small election -/

def smallConfig : BbConfig where
  title := .ofBytes (ascii "Tea or coffee")
  options := [.ofBytes (ascii "tea"), .ofBytes (ascii "coffee")]
  options_le := by decide
  eligible := [.ofBytes (ascii "ann"), .ofBytes (ascii "bob")]
  eligible_le := by decide
  openTime := .ofBytes (ascii "2025-01-01")
  closeTime := .ofBytes (ascii "2025-01-02")

def smallRequest (op : BclOp) (cert nonce : String) (option : UInt8) : BclRequest where
  op := op
  certName := .ofBytes (ascii cert)
  electionId := .ofBytes (ascii "E1")
  ballot := ⟨.ofBytes (ascii cert), .ofBytes (ascii nonce), [option], by simp⟩
  hash := default
  config := smallConfig

def smallElection : List BclRequest :=
  [smallRequest .create "" "" 0, smallRequest .opening "" "" 0, smallRequest .cast "ann" "n1" 1,
    smallRequest .cast "bob" "n2" 1, smallRequest .update "ann" "n3" 0,
    smallRequest .close "" "" 0, smallRequest .publish "" "" 0,
    smallRequest .results "bob" "" 0]

def calm : ℕ → Outcome := fun _ => .ok .stored

end BallotBox
