import BallotBox.Properties.OneBallot
import BallotBox.Properties.Support.ReceiptHashes

/-!
# When receipt hashes identify ballots

A ballot is addressed by election and hash alone, so a new receipt has to have a hash that the
election does not use yet.  Nothing checks it: the hash is a function of the nonce and the version.
-/

namespace BallotBox

open Tables

/-! ## Runs of successful calls -/

/-- A successful call of `bb_record_ballot`. -/
structure Call where
  ballot : BbBallot
  before : Tables
  receipt : BbReceipt
  after : Tables

/-- The successful calls for an election from a first world on.  In between, anything may happen
that leaves its votes alone. -/
inductive RecordRun {ι : Type} (ch : Channel ι) (eid : CStr bbIdLen) (w₀ : World ι) :
    List Call → World ι → Prop
  | start : RecordRun ch eid w₀ [] w₀
  | record {calls : List Call} {w w' : World ι} (ballot : BbBallot)
      (hrun : RecordRun ch eid w₀ calls w)
      (hok : (bbRecordBallot ch stubCrypto eid ballot).run w = .ok ⟨⟩ w') :
      RecordRun ch eid w₀
        (calls ++ [⟨ballot, w.server.store, w'.resp.receipt, w'.server.store⟩]) w'
  | other {calls : List Call} {w w' : World ι} (hrun : RecordRun ch eid w₀ calls w)
      (hsame : SameVotesOf eid.bytes w.server.store w'.server.store) (htxn : w'.txnConn = none) :
      RecordRun ch eid w₀ calls w'

/-- What it means for a call that hashes identify ballots. -/
structure Call.Identified (eid : Bytes) (c : Call) : Prop where
  /-- The hash of the new ballot differs from the hash of every row of the election. -/
  fresh : c.before.ballotsWith eid c.receipt.hash.bytes = []
  /-- No other voter's row is touched. -/
  kept : ∀ o ∈ c.before.owners, o.electionId.bytes = eid →
    o.certName.bytes ≠ c.ballot.certName.bytes →
    c.after.ballotsWith eid o.hash.bytes = c.before.ballotsWith eid o.hash.bytes
  /-- A hash finds one row at most. -/
  single : ∀ hash, (c.after.ballotsWith eid hash).length ≤ 1

/-! ## The seeds of a run -/

/-- The version of a ballot after earlier ones. -/
def versionAfter (earlier : List BbBallot) (ballot : BbBallot) : ℕ :=
  earlier.countP (·.certName.bytes = ballot.certName.bytes) + 1

/-- The seed of a ballot after earlier ones. -/
def seedAfter (earlier : List BbBallot) (ballot : BbBallot) : UInt32 :=
  receiptSeed ballot.nonce.bytes (versionAfter earlier ballot)

/-- The seeds of ballots in their order. -/
def seedsFrom (earlier : List BbBallot) : List BbBallot → List UInt32
  | [] => []
  | ballot :: ballots => seedAfter earlier ballot :: seedsFrom (earlier ++ [ballot]) ballots

/-- The low 20 bits of the seeds. -/
def receiptSeeds (ballots : List BbBallot) : List ℕ :=
  (seedsFrom [] ballots).map fun seed => seed.toNat % 2 ^ 20

lemma seedsFrom_append (earlier ballots : List BbBallot) (ballot : BbBallot) :
    seedsFrom earlier (ballots ++ [ballot]) =
      seedsFrom earlier ballots ++ [seedAfter (earlier ++ ballots) ballot] := by
  induction ballots generalizing earlier with
  | nil => simp [seedsFrom]
  | cons b ballots ih => simp [seedsFrom, ih]

lemma receiptSeeds_append (ballots : List BbBallot) (ballot : BbBallot) :
    receiptSeeds (ballots ++ [ballot]) =
      receiptSeeds ballots ++ [(seedAfter ballots ballot).toNat % 2 ^ 20] := by
  simp [receiptSeeds, seedsFrom_append]

lemma exists_hash_eq_iff {ballots : List BbBallot} {seed : UInt32} :
    (∃ s ∈ seedsFrom [] ballots, hashFromSeed s = hashFromSeed seed) ↔
      seed.toNat % 2 ^ 20 ∈ receiptSeeds ballots := by
  simp only [hashFromSeed_eq_iff, receiptSeeds, List.mem_map]

/-! ## What the tables say about the ballots so far -/

/-- The hashes and versions of an election are those of the ballots recorded in it. -/
structure Ledger (eid : Bytes) (ballots : List BbBallot) (t : Tables) : Prop where
  hashes : ∀ hash, t.ballotsWith eid hash ≠ [] ↔ ∃ s ∈ seedsFrom [] ballots, hashFromSeed s = hash
  versions : ∀ cert, ∀ o ∈ t.ownersOf eid cert,
    o.version.val = ballots.countP (·.certName.bytes = cert)
  voters : ∀ cert, t.ownersOf eid cert = [] → ballots.countP (·.certName.bytes = cert) = 0

namespace Recording

variable {eid : Bytes} {ballot : BbBallot} {t : Tables} {ballots : List BbBallot}
  (rec : Recording stubCrypto eid ballot t)

lemma version_eq (h : Ledger eid ballots t) : rec.version = versionAfter ballots ballot := by
  rw [versionAfter, Nat.cast_add, Nat.cast_one]
  cases hprior : rec.prior with
  | none =>
    obtain ⟨hnone, hone⟩ := rec.prior_none hprior
    rw [h.voters _ hnone, hone]
    rfl
  | some p =>
    obtain ⟨ho, -, hversion⟩ := rec.prior_some p.1 p.2 hprior
    rw [hversion, h.versions _ _ ho]

lemma hash_eq (h : Ledger eid ballots t) :
    rec.receipt.hash.bytes = hashFromSeed (seedAfter ballots ballot) := by
  rw [seedAfter, ← rec.version_eq h, ← Except.ok.inj rec.issued]

lemma after_hashes (hash : Bytes) : rec.after.ballotsWith eid hash ≠ [] ↔
    t.ballotsWith eid hash ≠ [] ∨ rec.receipt.hash.bytes = hash := by
  have hadd : (t.addBallot rec.row).ballotsWith eid hash ≠ [] ↔
      t.ballotsWith eid hash ≠ [] ∨ rec.receipt.hash.bytes = hash := by
    rw [ballotsWith_addBallot, key_row]
    by_cases heq : rec.receipt.hash.bytes = hash <;> simp [heq]
  rw [after_ballotsWith, counted, ← hadd]
  split
  · rfl
  · -- superseding a row keeps its hash
    rename_i o x hprior
    obtain ⟨-, hx, -⟩ := rec.prior_some o x hprior
    rw [ballotsWith_supersede]
    split_ifs with hkey
    · obtain ⟨heid, hhash⟩ := Prod.mk.inj hkey
      have hmem := mem_ballotsWith.mpr ⟨(mem_ballotsWith.mp hx).1, heid, hhash⟩
      exact iff_of_true (List.cons_ne_nil _ _) (List.ne_nil_of_mem hmem)
    · rfl

lemma ledger (h : Ledger eid ballots t) : Ledger eid (ballots ++ [ballot]) rec.after where
  hashes hash := by
    rw [rec.after_hashes, h.hashes, rec.hash_eq h, seedsFrom_append, List.nil_append]
    simp [or_and_right, exists_or]
  versions cert o ho := by
    rw [after_ownersOf] at ho
    rw [List.countP_append, List.countP_singleton]
    by_cases hcert : ballot.certName.bytes = cert
    · rw [if_pos hcert, List.mem_singleton] at ho
      rw [ho, rec.owner_stores.2.2.2, rec.version_eq h, versionAfter]
      simp [hcert]
    · rw [if_neg hcert] at ho
      simp [hcert, h.versions cert o ho]
  voters cert hnone := by
    rw [after_ownersOf] at hnone
    split_ifs at hnone with hcert
    simp [hcert, h.voters cert hnone]

lemma fresh_iff (h : Ledger eid ballots t) :
    rec.Fresh ↔ (seedAfter ballots ballot).toNat % 2 ^ 20 ∉ receiptSeeds ballots := by
  rw [Fresh, ← exists_hash_eq_iff, ← rec.hash_eq h, ← h.hashes, not_not]

lemma after_length_le {crypto : Crypto} {rec : Recording crypto eid ballot t}
    (h : Accounted eid t) (hfresh : rec.Fresh)
    (hle : ∀ hash, (t.ballotsWith eid hash).length ≤ 1) (hash : Bytes) :
    (rec.after.ballotsWith eid hash).length ≤ 1 := by
  by_cases hnew : rec.receipt.hash.bytes = hash
  · rw [← hnew, (rec.after_new h hfresh).1, List.length_singleton]
  by_cases hold : ∃ o x, rec.prior = some (o, x) ∧ o.hash.bytes = hash
  · obtain ⟨o, x, hprior, rfl⟩ := hold
    rw [(rec.after_old h hfresh hprior).1, List.length_singleton]
  · rw [(rec.after_other h hfresh hnew fun o x hprior heq => hold ⟨o, x, hprior, heq⟩).1]
    exact hle hash

end Recording

/-! ## Along a run -/

/-- The invariant of a run of calls. -/
structure CallsInOrder (eid : Bytes) (calls : List Call) (t : Tables) : Prop where
  ledger : Ledger eid (calls.map (·.ballot)) t
  accounted : (receiptSeeds (calls.map (·.ballot))).Nodup →
    Accounted eid t ∧ ∀ hash, (t.ballotsWith eid hash).length ≤ 1
  identified : (∀ c ∈ calls, c.Identified eid) ↔ (receiptSeeds (calls.map (·.ballot))).Nodup

namespace CallsInOrder

variable {eid : Bytes} {calls : List Call} {t t' : Tables}

lemma start (hb : ∀ b ∈ t.ballots, b.electionId.bytes ≠ eid)
    (ho : ∀ o ∈ t.owners, o.electionId.bytes ≠ eid) : CallsInOrder eid [] t := by
  have hballots (hash : Bytes) : t.ballotsWith eid hash = [] :=
    List.eq_nil_iff_forall_not_mem.mpr fun b hmem =>
      hb b (mem_ballotsWith.mp hmem).1 (mem_ballotsWith.mp hmem).2.1
  refine ⟨⟨fun hash => ?_, fun cert o hmem => ?_, fun _ _ => rfl⟩, fun _ =>
    ⟨?_, fun hash => ?_⟩, ?_⟩
  · simp [hballots, seedsFrom]
  · exact absurd (mem_ownersOf.mp hmem).2.1 (ho o (mem_ownersOf.mp hmem).1)
  · exact .of_noVotes hb ho
  · simp [hballots]
  · simp [receiptSeeds, seedsFrom]

lemma of_sameVotesOf (h : CallsInOrder eid calls t) (hsame : SameVotesOf eid t t') :
    CallsInOrder eid calls t' := by
  refine ⟨⟨fun hash => ?_, fun cert => ?_, fun cert => ?_⟩, fun hseeds => ?_, h.identified⟩
  · rw [hsame.ballotsWith_eq]
    exact h.ledger.hashes hash
  · rw [hsame.ownersOf_eq]
    exact h.ledger.versions cert
  · rw [hsame.ownersOf_eq]
    exact h.ledger.voters cert
  · obtain ⟨haccounted, hle⟩ := h.accounted hseeds
    exact ⟨haccounted.of_sameVotesOf hsame, fun hash => hsame.ballotsWith_eq hash ▸ hle hash⟩

lemma record (h : CallsInOrder eid calls t) {ballot : BbBallot}
    (rec : Recording stubCrypto eid ballot t) :
    CallsInOrder eid (calls ++ [⟨ballot, t, rec.receipt, rec.after⟩]) rec.after := by
  have hballots : (calls ++ [(⟨ballot, t, rec.receipt, rec.after⟩ : Call)]).map (·.ballot) =
      calls.map (·.ballot) ++ [ballot] := List.map_append
  have hseeds : (receiptSeeds (calls.map (·.ballot) ++ [ballot])).Nodup ↔
      (receiptSeeds (calls.map (·.ballot))).Nodup ∧ rec.Fresh := by
    rw [receiptSeeds_append, ← List.concat_eq_append, List.nodup_concat, rec.fresh_iff h.ledger,
      and_comm]
  refine ⟨?_, ?_, ?_⟩
  · rw [hballots]
    exact rec.ledger h.ledger
  · rw [hballots, hseeds]
    rintro ⟨hnodup, hfresh⟩
    obtain ⟨haccounted, hle⟩ := h.accounted hnodup
    exact ⟨rec.accounted haccounted hfresh, rec.after_length_le haccounted hfresh hle⟩
  · rw [hballots, hseeds, List.forall_mem_append, List.forall_mem_singleton, h.identified]
    refine and_congr_right fun hnodup => ⟨fun hc => hc.fresh, fun hfresh => ?_⟩
    obtain ⟨haccounted, hle⟩ := h.accounted hnodup
    exact ⟨hfresh, fun o ho heid hcert => rec.other_voter_kept haccounted hfresh ho heid hcert,
      rec.after_length_le haccounted hfresh hle⟩

end CallsInOrder

lemma bbRecordBallot_ok {crypto : Crypto} {eid : CStr bbIdLen} {ballot : BbBallot}
    {w w' : World Unit} (htxn : w.txnConn = none)
    (hok : (bbRecordBallot direct crypto eid ballot).run w = .ok ⟨⟩ w') :
    w'.txnConn = none ∧ ∃ rec : Recording crypto eid.bytes ballot w.server.store,
      w'.resp.receipt = rec.receipt ∧ w'.server.store = rec.after := by
  obtain ⟨rec, htxn', hstore, hresp⟩ :=
    (recordLoop_triple eid ballot .db bbTxnAttempts).of_ok ⟨w.resp.receipt, htxn, rfl, rfl⟩ hok
  exact ⟨htxn', rec, by rw [hresp], hstore⟩

/-- On readable tables the same holds over the text protocol. -/
lemma bbRecordBallot_wire_ok {crypto : Crypto} {eid : CStr bbIdLen} {ballot : BbBallot}
    {w w' : World Bytes} (htxn : w.txnConn = none) (hread : w.server.store.Readable)
    (hok : (bbRecordBallot wire crypto eid ballot).run w = .ok ⟨⟩ w') :
    w'.txnConn = none ∧ ∃ rec : Recording crypto eid.bytes ballot w.server.store,
      w'.resp.receipt = rec.receipt ∧ w'.server.store = rec.after := by
  have hidle : World.Idle w.server.store w.resp w.forget := ⟨rfl, rfl, rfl⟩
  rcases (recordLoop_agrees hread crypto eid ballot .db bbTxnAttempts).cases hidle with
    ⟨_, _, w₁, hdirect, hwire, -⟩ | ⟨_, _, -, hwire⟩ <;>
    rw [World.forget_onWire htxn] at hwire
  · obtain rfl : w' = w₁.onWire := by cases hok.symm.trans hwire; rfl
    obtain ⟨htxn', hrec⟩ := bbRecordBallot_ok rfl hdirect
    exact ⟨by simp [World.onWire, htxn'], hrec⟩
  · cases hok.symm.trans hwire

lemma RecordRun.callsInOrder {eid : CStr bbIdLen} {w₀ w : World Bytes} {calls : List Call}
    (hrun : RecordRun wire eid w₀ calls w) (htxn : w₀.txnConn = none)
    (hread : ∀ c ∈ calls, c.before.Readable)
    (hstart : CallsInOrder eid.bytes [] w₀.server.store) :
    w.txnConn = none ∧ CallsInOrder eid.bytes calls w.server.store := by
  induction hrun with
  | start => exact ⟨htxn, hstart⟩
  | record ballot _ hok ih =>
    rw [List.forall_mem_append, List.forall_mem_singleton] at hread
    obtain ⟨hidle, hcalls⟩ := ih hread.1
    obtain ⟨htxn', rec, hreceipt, hstore⟩ := bbRecordBallot_wire_ok hidle hread.2 hok
    rw [hreceipt, hstore]
    exact ⟨htxn', hcalls.record rec⟩
  | other _ hsame htxn' ih => exact ⟨htxn', (ih hread).2.of_sameVotesOf hsame⟩

/-- **Receipt hashes identify ballots if and only if no two seeds agree on their low 20 bits.**  For
every run of successful calls on readable tables, on an election that has no votes at its start. -/
theorem hashes_identify_iff (eid : CStr bbIdLen) (w₀ w : World Bytes) (calls : List Call)
    (htxn : w₀.txnConn = none)
    (hballots : ∀ b ∈ w₀.server.store.ballots, b.electionId.bytes ≠ eid.bytes)
    (howners : ∀ o ∈ w₀.server.store.owners, o.electionId.bytes ≠ eid.bytes)
    (hrun : RecordRun wire eid w₀ calls w) (hread : ∀ c ∈ calls, c.before.Readable) :
    (∀ c ∈ calls, c.Identified eid.bytes) ↔ (receiptSeeds (calls.map (·.ballot))).Nodup :=
  (hrun.callsInOrder htxn hread (.start hballots howners)).2.identified

/-! ## Two small runs -/

section

variable {ι : Type} (ch : Channel ι)

/-- The world after a call, however it ends. -/
def afterCall (eid : CStr bbIdLen) (ballot : BbBallot) (w : World ι) : World ι :=
  match (bbRecordBallot ch stubCrypto eid ballot).run w with
  | .ok _ w' => w'
  | .error _ w' => w'

/-- Whether a call succeeds. -/
def succeeds (eid : CStr bbIdLen) (ballot : BbBallot) (w : World ι) : Bool :=
  match (bbRecordBallot ch stubCrypto eid ballot).run w with
  | .ok _ _ => true
  | .error _ _ => false

/-- The small election when it has been opened. -/
def smallOpen : World ι := serve ch stubCrypto (smallElection.take 2) (World.start calm)

end

lemma RecordRun.next {eid : CStr bbIdLen} {w₀ w : World Bytes} {calls : List Call}
    (hrun : RecordRun wire eid w₀ calls w) (ballot : BbBallot)
    (hok : succeeds wire eid ballot w = true) :
    RecordRun wire eid w₀ (calls ++ [⟨ballot, w.server.store,
      (afterCall wire eid ballot w).resp.receipt, (afterCall wire eid ballot w).server.store⟩])
      (afterCall wire eid ballot w) := by
  refine hrun.record ballot ?_
  unfold succeeds at hok
  unfold afterCall
  cases hcall : (bbRecordBallot wire stubCrypto eid ballot).run w with
  | ok a w' => rfl
  | error e w' => simp [hcall] at hok

/-- A ballot in the small election. -/
def smallBallot (cert nonce : String) : BbBallot := (smallRequest .cast cert nonce 0).ballot

/-- Ann votes, then Bob, then Ann again. -/
theorem hashes_identify_small : ∃ calls w,
    RecordRun wire (.ofBytes (ascii "E1")) (smallOpen wire) calls w ∧
    calls.map (·.ballot) =
      [smallBallot "ann" "n1", smallBallot "bob" "n2", smallBallot "ann" "n3"] ∧
    ∀ c ∈ calls, c.Identified (ascii "E1") := by
  have hstart :
      RecordRun wire (.ofBytes (ascii "E1")) (smallOpen wire) [] (smallOpen wire) := .start
  have hrun := ((hstart.next (smallBallot "ann" "n1") (by decide +kernel)).next
    (smallBallot "bob" "n2") (by decide +kernel)).next (smallBallot "ann" "n3") (by decide +kernel)
  refine ⟨_, _, hrun, rfl, ?_⟩
  refine (hashes_identify_iff _ _ _ _ (by decide +kernel) (by decide +kernel) (by decide +kernel)
    hrun ?_).mpr (by decide +kernel)
  simp only [List.forall_mem_append, List.forall_mem_singleton]
  exact ⟨⟨⟨by simp, Tables.Plain.readable (by decide +kernel)⟩,
    Tables.Plain.readable (by decide +kernel)⟩, Tables.Plain.readable (by decide +kernel)⟩

/-- Bob's nonce collides with Ann's.  Ann's second vote takes Bob's ballot with it: Bob still has
an owner row, but no live ballot. -/
theorem hashes_collide_small : ∃ calls w,
    RecordRun wire (.ofBytes (ascii "E1")) (smallOpen wire) calls w ∧
    calls.map (·.ballot) =
      [smallBallot "ann" "ab", smallBallot "bob" "bA", smallBallot "ann" "n3"] ∧
    (calls.map (·.ballot.nonce.bytes)).Nodup ∧ (¬ ∀ c ∈ calls, c.Identified (ascii "E1")) ∧
    ∃ o ∈ w.server.store.ownersOf (ascii "E1") (ascii "bob"),
      ∀ b ∈ w.server.store.ballotsWith (ascii "E1") o.hash.bytes, b.superseded.val ≠ 0 := by
  have hstart :
      RecordRun wire (.ofBytes (ascii "E1")) (smallOpen wire) [] (smallOpen wire) := .start
  have hrun := ((hstart.next (smallBallot "ann" "ab") (by decide +kernel)).next
    (smallBallot "bob" "bA") (by decide +kernel)).next (smallBallot "ann" "n3") (by decide +kernel)
  refine ⟨_, _, hrun, rfl, by decide +kernel, fun h => ?_, by decide +kernel⟩
  refine absurd (h _ (List.mem_append_left _ (List.mem_append_right _
    (List.mem_singleton_self _)))).fresh ?_
  decide +kernel

end BallotBox
