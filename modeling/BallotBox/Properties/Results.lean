import BallotBox.Properties.OneBallot
import BallotBox.Properties.Support.Tallies

/-!
# Tally, hash list and electorate agree

A results reply is cut off at 16 options and 64 rows, and has to agree with who has voted.  The
owner rows of an election are its voters, they correspond one to one to the live ballots
(`Accounted.liveHashes_perm`), and every voter was on the list of at most 64.  So nothing is cut
off.  The last part counts the voters by their last accepted choice.
-/

namespace BallotBox

open List

variable {crypto : Crypto} {t' : Tables}

open Tables

variable {b : BallotRow} {req : BclRequest} {resp : BclResponse} {id : Bytes} {cfg : BbConfig}
  {ev : Event} {ballot : BbBallot}

/-! ## Live ballots and owners -/

/-- The owner rows of an election. -/
def Tables.ownersIn (t : Tables) (eid : Bytes) : List OwnerRow :=
  t.owners.filter (·.electionId.bytes = eid)

namespace Accounted

variable {eid : Bytes} {t : Tables} (h : Accounted eid t)

include h

lemma liveHashes_nodup : ((t.liveBallots eid).map (·.hash.bytes)).Nodup := by
  refine nodup_map_of_filter_le_one fun hash => ?_
  have hfilter : (t.liveBallots eid).filter (·.hash.bytes = hash) =
      (t.ballotsWith eid hash).filter (·.superseded.val = 0) := by
    simp only [Tables.liveBallots, Tables.ballotsWith, filter_filter]
    refine filter_congr fun b _ => ?_
    simp only [← Bool.decide_and, decide_eq_decide]
    tauto
  rw [hfilter]
  cases h.hash hash with
  | retired _ hdead =>
    rw [filter_eq_nil_iff.mpr fun b hb => by simpa using hdead b hb]
    exact Nat.zero_le _
  | held o b _ hb _ _ =>
    rw [hb]
    exact length_filter_le _ _

lemma pointers_le_one (hash : Bytes) : (t.pointersTo eid hash).length ≤ 1 := by
  cases h.hash hash with
  | retired hp _ => simp [hp]
  | held o b hp _ _ _ => simp [hp]

lemma ownerHashes_nodup : ((t.ownersIn eid).map (·.hash.bytes)).Nodup := by
  refine nodup_map_of_filter_le_one fun hash => ?_
  have hfilter : (t.ownersIn eid).filter (·.hash.bytes = hash) = t.pointersTo eid hash := by
    simp [Tables.ownersIn, Tables.pointersTo, filter_filter, Bool.and_comm]
  rw [hfilter]
  exact h.pointers_le_one hash

lemma ownerCerts_nodup : ((t.ownersIn eid).map (·.certName.bytes)).Nodup := by
  refine nodup_map_of_filter_le_one fun cert => ?_
  have hfilter : (t.ownersIn eid).filter (·.certName.bytes = cert) = t.ownersOf eid cert := by
    simp [Tables.ownersIn, Tables.ownersOf, filter_filter, Bool.and_comm]
  rw [hfilter]
  exact h.owners cert

lemma liveHashes_perm :
    ((t.liveBallots eid).map (·.hash.bytes)).Perm ((t.ownersIn eid).map (·.hash.bytes)) := by
  refine (perm_ext_iff_of_nodup h.liveHashes_nodup h.ownerHashes_nodup).mpr ?_
  intro hash
  simp only [mem_map]
  constructor
  · rintro ⟨b, hb, rfl⟩
    obtain ⟨o, hp, -⟩ := h.held_of_live hb
    obtain ⟨ho, heid, hhash⟩ := mem_pointersTo.mp (hp ▸ mem_singleton_self o)
    exact ⟨o, mem_filter.mpr ⟨ho, by simpa using heid⟩, hhash⟩
  · rintro ⟨o, ho, rfl⟩
    obtain ⟨howner, heid⟩ := mem_filter.mp ho
    obtain ⟨b, -, hb, hlive, -⟩ := h.held_of_owner howner (by simpa using heid)
    obtain ⟨hmem, hbeid, hbhash⟩ := mem_ballotsWith.mp (hb ▸ mem_singleton_self b)
    exact ⟨b, mem_liveBallots.mpr ⟨hmem, hbeid, hlive⟩, hbhash⟩

lemma length_liveBallots : (t.liveBallots eid).length = (t.ownersIn eid).length := by
  simpa using h.liveHashes_perm.length_eq

lemma published_hash (hb : b ∈ t.liveBallots eid) : b.published.hash.bytes = b.hash.bytes := by
  obtain ⟨o, hp, -⟩ := h.held_of_live hb
  obtain ⟨ho, heid, hhash⟩ := mem_pointersTo.mp (hp ▸ mem_singleton_self o)
  have := h.fits o ho heid
  rwa [OwnerRow.readHash, hhash] at this

end Accounted

/-! ## Who may vote and who has voted -/

/-- The voters whose ballots were recorded, in their order. -/
def votersOf (eid : Bytes) (evs : List Event) : List Bytes :=
  (evs.filter fun ev => ev.Records eid).map (·.req.ballot.certName.bytes)

lemma votersOf_append (eid : Bytes) (evs : List Event) (ev : Event) : votersOf eid (evs ++ [ev]) =
      votersOf eid evs ++ if ev.Records eid then [ev.req.ballot.certName.bytes] else [] := by
  by_cases h : ev.Records eid <;> simp [votersOf, h]

def EligibleRow.readName (v : EligibleRow) : Bytes :=
  (CStr.ofBytes v.certName.bytes : CStr bbCertLen).bytes

/-- The invariant of a run for an election with a unique id. -/
structure Electorate (eid : Bytes) (evs : List Event) (t : Tables) : Prop where
  accounted : Accounted eid t
  unique : (t.electionsOf eid).length ≤ 1
  /-- The eligible list is written with the election, once. -/
  none_eligible : t.electionsOf eid = [] → t.eligiblesOf eid = []
  eligible_le : (t.eligiblesOf eid).length ≤ bbMaxVoters
  /-- Ballots are for options of the election. -/
  options : ∀ b ∈ t.ballots, b.electionId.bytes = eid → 0 ≤ b.optionIndex.val ∧
    b.optionIndex.val < (min (t.optionsOf eid).length bbMaxOptions : ℕ)
  /-- The voters so far have an owner row, and nobody else. -/
  voters : ∀ cert, t.ownersOf eid cert ≠ [] ↔ cert ∈ votersOf eid evs
  /-- Voters are eligible. -/
  eligible : ∀ cert ∈ votersOf eid evs, ∃ v ∈ t.eligiblesOf eid, v.readName = cert

lemma Does.setup {t : Tables} (h : Does crypto req t resp t') (eid : Bytes) :
    (t'.options = t.options ∧ t'.eligibles = t.eligibles ∧
      (t'.electionsOf eid = [] → t.electionsOf eid = [])) ∨
    ∃ id : CStr bbIdLen, Creates id.bytes req.config t t' := by
  cases h with
  | created id _ _ h => exact .inr ⟨id, h⟩
  | moved target e r r' hop hreads hlegal hr hmoves =>
    refine .inl ⟨rfl, rfl, fun hnil => ?_⟩
    rw [electionsOf_setElection] at hnil
    split_ifs at hnil
    exact hnil
  | recorded hop rec =>
    refine .inl ?_
    rw [Recording.after, Recording.counted]
    split <;> exact ⟨rfl, rfl, id⟩
  | _ => exact .inl ⟨rfl, rfl, id⟩

lemma Creates.eligiblesOf {t : Tables} (h : Creates id cfg t t')
    (eid : Bytes) : ∃ vs : List EligibleRow, t'.eligiblesOf eid = t.eligiblesOf eid ++ vs ∧
      vs.length ≤ bbMaxVoters ∧ (id ≠ eid → vs = []) := by
  obtain ⟨r, os, vs, -, -, hvs, rfl⟩ := h
  have hlength : vs.length = cfg.eligible.length := by simpa using congrArg List.length hvs
  have hid : ∀ v ∈ vs, v.electionId.bytes = id := by
    intro v hv
    have hmem : (v.electionId.bytes, v.certName.bytes) ∈ cfg.eligible.map fun c => (id, c.bytes) :=
      hvs ▸ mem_map_of_mem (f := fun v : EligibleRow => (v.electionId.bytes, v.certName.bytes)) hv
    obtain ⟨c, -, hc⟩ := mem_map.mp hmem
    exact (Prod.mk.inj hc).1.symm
  refine ⟨vs.filter (·.electionId.bytes = eid), by simp [Tables.eligiblesOf], ?_, fun hne => ?_⟩
  · exact (length_filter_le _ _).trans (hlength.le.trans cfg.eligible_le)
  · refine filter_eq_nil_iff.mpr fun v hv => ?_
    simpa [hid v hv] using hne

lemma Creates.electionsOf {t : Tables} (h : Creates id cfg t t')
    (eid : Bytes) :
        ∃ r, t'.electionsOf eid = t.electionsOf eid ++ if id = eid then [r] else [] := by
  obtain ⟨r, os, vs, ⟨-, hid, -⟩, -, -, rfl⟩ := h
  refine ⟨r, ?_⟩
  by_cases heid : id = eid <;> simp [Tables.electionsOf, hid, heid]

lemma Electorate.setup_step {eid : Bytes} {evs : List Event}
    (h : Electorate eid evs ev.before) (hunique : (ev.after.electionsOf eid).length ≤ 1)
    (hdoes : Does crypto ev.req ev.before ev.resp ev.after) :
    (ev.after.electionsOf eid = [] → ev.after.eligiblesOf eid = []) ∧
    (ev.after.eligiblesOf eid).length ≤ bbMaxVoters ∧
    (ev.before.optionsOf eid).length ≤ (ev.after.optionsOf eid).length ∧
    ev.before.eligiblesOf eid ⊆ ev.after.eligiblesOf eid := by
  obtain ⟨hopts, helig, hnone⟩ | ⟨id, hcreates⟩ := hdoes.setup eid
  · have helig' : ev.after.eligiblesOf eid = ev.before.eligiblesOf eid := by
      rw [Tables.eligiblesOf, helig, ← Tables.eligiblesOf]
    rw [helig', Tables.optionsOf, Tables.optionsOf, hopts]
    exact ⟨fun hnil => h.none_eligible (hnone hnil), h.eligible_le, le_rfl, List.Subset.refl _⟩
  · obtain ⟨vs, hvs, hle, hother⟩ := hcreates.eligiblesOf eid
    obtain ⟨r, hr⟩ := hcreates.electionsOf eid
    have hoptions : (ev.before.optionsOf eid).length ≤ (ev.after.optionsOf eid).length := by
      obtain ⟨r, os, vs, -, -, -, hafter⟩ := hcreates
      simp [hafter, Tables.optionsOf]
    by_cases hid : id.bytes = eid
    · -- the id was free, so the election had no eligible rows yet
      rw [if_pos hid] at hr
      have hfree : ev.before.electionsOf eid = [] := by
        rw [hr, length_append, length_singleton] at hunique
        exact length_eq_zero_iff.mp (by omega)
      rw [h.none_eligible hfree, nil_append] at hvs
      refine ⟨fun hnil => ?_, hvs ▸ hle, hoptions, ?_⟩
      · simp [hnil] at hr
      · simp [h.none_eligible hfree]
    · rw [hother hid, append_nil] at hvs
      rw [if_neg hid, append_nil] at hr
      rw [hvs, hr]
      exact ⟨h.none_eligible, h.eligible_le, hoptions, List.Subset.refl _⟩

lemma Recording.mem_after_ballots {eid : Bytes} {t : Tables}
    {rec : Recording crypto eid ballot t} (hb : b ∈ rec.after.ballots) :
    ∃ x, (x ∈ t.ballots ∨ x = rec.row) ∧ b.electionId = x.electionId ∧
      b.optionIndex = x.optionIndex := by
  have hadd {x : BallotRow} (hx : x ∈ (t.addBallot rec.row).ballots) :
      x ∈ t.ballots ∨ x = rec.row := by
    simpa [Tables.addBallot] using hx
  rw [after_ballots, counted] at hb
  split at hb
  · exact ⟨b, hadd hb, rfl, rfl⟩
  · rename_i o x hprior
    obtain ⟨-, hx, -⟩ := rec.prior_some o x hprior
    rcases (mem_upsert _).mp hb with rfl | ⟨hold, -⟩
    · exact ⟨x, hadd (mem_ballotsWith.mp hx).1, rfl, rfl⟩
    · exact ⟨b, hadd hold, rfl, rfl⟩

lemma Recording.voter_eligible {eid : Bytes} {t : Tables} (rec : Recording crypto eid ballot t) :
    ∃ v ∈ t.eligiblesOf eid, v.readName = ballot.certName.bytes := by
  obtain ⟨vs, hperm, hlist⟩ := rec.reads.eligible
  have hany := rec.eligible
  rw [bbCheckEligibility, hlist, any_map, any_eq_true] at hany
  obtain ⟨v, hv, hname⟩ := hany
  exact ⟨v, hperm.subset (mem_of_mem_take hv), of_decide_eq_true hname⟩

lemma Electorate.step {eid : Bytes} {evs : List Event}
    (h : Electorate eid evs ev.before) (hunique : (ev.after.electionsOf eid).length ≤ 1)
    (hfresh : ev.FreshReceipt) (hdoes : Does crypto ev.req ev.before ev.resp ev.after) :
    Electorate eid (evs ++ [ev]) ev.after := by
  obtain ⟨hnone, hle, hoptions, hsubset⟩ := h.setup_step hunique hdoes
  have hinRange {b : BallotRow} (hb : b ∈ ev.before.ballots) (heid : b.electionId.bytes = eid) :
      0 ≤ b.optionIndex.val ∧
        b.optionIndex.val < (min (ev.after.optionsOf eid).length bbMaxOptions : ℕ) := by
    have := h.options b hb heid
    omega
  have helig {cert : Bytes} (hcert : ∃ v ∈ ev.before.eligiblesOf eid, v.readName = cert) :
      ∃ v ∈ ev.after.eligiblesOf eid, v.readName = cert := by
    obtain ⟨v, hv, hname⟩ := hcert
    exact ⟨v, hsubset hv, hname⟩
  have haccounted := h.accounted.step hfresh hdoes
  obtain ⟨hsame, hrecords⟩ | ⟨hrecords, rec, -, hafter⟩ := ev.votes_cases hfresh hdoes eid
  · have hvoters : votersOf eid (evs ++ [ev]) = votersOf eid evs := by
      rw [votersOf_append, if_neg hrecords, append_nil]
    refine ⟨haccounted, hunique, hnone, hle, fun b hb heid => ?_, fun cert => ?_, ?_⟩
    · have hmem : b ∈ ev.before.ballots.filter (·.electionId.bytes = eid) :=
        hsame.ballots ▸ mem_filter.mpr ⟨hb, by simpa using heid⟩
      exact hinRange (mem_filter.mp hmem).1 heid
    · rw [hsame.ownersOf_eq, hvoters]
      exact h.voters cert
    · exact fun cert hcert => helig (h.eligible cert (hvoters ▸ hcert))
  · refine ⟨haccounted, hunique, hnone, hle, fun b hb heid => ?_, fun cert => ?_, ?_⟩
    · obtain ⟨x, hx, hxeid, hxopt⟩ := rec.mem_after_ballots (hafter ▸ hb)
      rw [hxopt]
      rw [hxeid] at heid
      rcases hx with hx | rfl
      · exact hinRange hx heid
      · have hcount := rec.reads.optionCount
        have hrange := rec.inRange
        rw [rec.row_stores.optionIndex]
        simp only at hrange ⊢
        omega
    · rw [votersOf_append, hafter, Recording.after_ownersOf, if_pos hrecords, mem_append,
        ← h.voters cert]
      by_cases hcert : ev.req.ballot.certName.bytes = cert
      · simp [hcert]
      · simp [hcert, Ne.symm hcert]
    · intro cert hcert
      rw [votersOf_append, if_pos hrecords, mem_append, mem_singleton] at hcert
      rcases hcert with hcert | rfl
      · exact helig (h.eligible cert hcert)
      · exact helig rec.voter_eligible

/-! ## The reply -/

/-- What a results reply must satisfy, after a history. -/
structure ResultsAgree (eid : Bytes) (evs : List Event) (resp : BclResponse) : Prop where
  /-- The tally adds up to the number of published hashes. -/
  sum_tally : (resp.tally.toList.take resp.optionCount).sum = resp.hashes.length
  /-- There is one published hash for each voter so far. -/
  voters : resp.hashes.length = (votersOf eid evs).toFinset.card
  /-- The tally counts the published hashes. -/
  tally : ∀ i (hi : i < bbMaxOptions),
    resp.tally[i] = resp.hashes.countP fun h => h.optionIndex = (i : ℤ)
  /-- Published rows are live and for an option of the election. -/
  live : ∀ h ∈ resp.hashes, h.superseded = 0 ∧ 0 ≤ h.optionIndex ∧ h.optionIndex < resp.optionCount
  /-- Published hashes are pairwise distinct. -/
  distinct : (resp.hashes.map (·.hash)).Nodup

namespace Electorate

variable {eid : Bytes} {evs : List Event} {t : Tables} (h : Electorate eid evs t)

include h

lemma length_liveBallots : (t.liveBallots eid).length = (votersOf eid evs).toFinset.card := by
  have hcerts :
      ((t.ownersIn eid).map (·.certName.bytes)).toFinset = (votersOf eid evs).toFinset := by
    ext cert
    rw [mem_toFinset, mem_toFinset, ← h.voters cert, ne_eq, eq_nil_iff_forall_not_mem]
    simp [Tables.ownersIn, Tables.ownersOf, and_assoc]
  rw [h.accounted.length_liveBallots, ← hcerts,
    toFinset_card_of_nodup h.accounted.ownerCerts_nodup, length_map]

lemma liveBallots_le : (t.liveBallots eid).length ≤ bbMaxVoters := by
  have hsubset : (votersOf eid evs).toFinset ⊆
      ((t.eligiblesOf eid).map EligibleRow.readName).toFinset := by
    intro cert hcert
    obtain ⟨v, hv, hname⟩ := h.eligible cert (mem_toFinset.mp hcert)
    exact mem_toFinset.mpr (mem_map.mpr ⟨v, hv, hname⟩)
  calc (t.liveBallots eid).length
      = (votersOf eid evs).toFinset.card := h.length_liveBallots
    _ ≤ ((t.eligiblesOf eid).map EligibleRow.readName).toFinset.card := Finset.card_le_card hsubset
    _ ≤ (t.eligiblesOf eid).length := (toFinset_card_le _).trans (by simp)
    _ ≤ bbMaxVoters := h.eligible_le

lemma agree (hdoes : Does crypto req t resp t') (hop : req.op = .results ∨ req.op = .adminResults)
    (hok : resp.status = .ok) (heid : req.electionId.bytes = eid) : ResultsAgree eid evs resp := by
  subst heid
  obtain ⟨e, hreads, -, hcount, htally, bs, hperm, hhashes⟩ := hdoes.report hop hok
  have hall : resp.hashes = bs.map BallotRow.published := by
    rw [hhashes, take_of_length_le]
    rw [length_map, hperm.length_eq]
    exact h.liveBallots_le
  have hlength : resp.hashes.length = (t.liveBallots req.electionId.bytes).length := by
    rw [hall, length_map, hperm.length_eq]
  have hrange : ∀ b ∈ t.liveBallots req.electionId.bytes,
      0 ≤ b.optionIndex.val ∧ b.optionIndex.val < resp.optionCount := by
    intro b hb
    obtain ⟨hmem, heid, -⟩ := mem_liveBallots.mp hb
    rw [hcount, hreads.optionCount]
    exact h.options b hmem heid
  have htallies (i : ℕ) (hi : i < bbMaxOptions) :
      resp.tally[i] = (t.tally req.electionId.bytes i : ℤ) := by
    rw [htally i hi]
    split_ifs with hlt
    · rfl
    · -- no live ballot is for an option beyond the last
      rw [Tables.tally, countP_eq_zero.mpr, Nat.cast_zero]
      intro b hb
      have := hrange b hb
      simp only [decide_eq_true_eq]
      omega
  refine ⟨?_, ?_, fun i hi => ?_, fun row hrow => ?_, ?_⟩
  · have hle : resp.optionCount ≤ bbMaxOptions := hcount ▸ e.optionCount_le
    rw [sum_take_toList resp.tally htallies hle, hlength, ← sum_countP_range _ hrange]
    simp [Tables.tally]
  · rw [hlength, h.length_liveBallots]
  · rw [htallies i hi, hall, countP_map, Tables.tally, ← hperm.countP_eq]
    rfl
  · obtain ⟨b, hb, rfl⟩ := mem_map.mp (hall ▸ hrow)
    have hlive := hperm.subset hb
    exact ⟨(mem_liveBallots.mp hlive).2.2, hrange b hlive⟩
  · have hbytes : (resp.hashes.map (·.hash)).map CStr.bytes = bs.map (·.hash.bytes) := by
      rw [hall, map_map, map_map]
      exact map_congr_left fun b hb =>
        h.accounted.published_hash (hperm.subset hb)
    refine List.Nodup.of_map CStr.bytes ?_
    rw [hbytes]
    exact (hperm.map _).nodup_iff.mpr h.accounted.liveHashes_nodup

end Electorate

/-- Along every run from empty tables, whenever results are reported for an election with a
unique id, tally, hash list and electorate agree. -/
theorem results_agree (crypto : Crypto) (sched : ℕ → Outcome) (reqs : List BclRequest) (eid : Bytes)
    (hunique : ∀ ev ∈ history direct crypto reqs (World.start sched),
      (ev.after.electionsOf eid).length ≤ 1)
    (hfresh : ∀ ev ∈ history direct crypto reqs (World.start sched), ev.FreshReceipt)
    (req : BclRequest) (hop : req.op = .results ∨ req.op = .adminResults)
    (heid : req.electionId.bytes = eid)
    (hok : (ballotdDispatch direct crypto req
      (serve direct crypto reqs (World.start sched))).resp.status = .ok) :
    ResultsAgree eid (history direct crypto reqs (World.start sched))
      (ballotdDispatch direct crypto req (serve direct crypto reqs (World.start sched))).resp := by
  have hstart : Electorate eid [] Tables.empty := by
    refine ⟨.of_noVotes ?_ ?_, Nat.zero_le _, fun _ => rfl, Nat.zero_le _, ?_, fun cert => ?_, ?_⟩
    · simp [Tables.empty]
    · simp [Tables.empty]
    · simp [Tables.empty]
    · simp [Tables.empty, Tables.ownersOf, votersOf]
    · simp [votersOf]
  have hrun := run_induction (I := Electorate eid)
    (C := fun ev => (ev.after.electionsOf eid).length ≤ 1 ∧ ev.FreshReceipt) rfl hstart
    (fun evs ev h hC hdoes => h.step hC.1 hC.2 hdoes) reqs
    fun ev hev => ⟨hunique ev hev, hfresh ev hev⟩
  exact hrun.agree (ballotdDispatch_does (serve_txnConn rfl reqs)).2 hop hok heid

/-- The small election: two voters, one vote for each option. -/
theorem results_agree_small : ResultsAgree (ascii "E1")
      (history direct stubCrypto (smallElection.take 7) (World.start calm))
      (ballotdDispatch direct stubCrypto (smallRequest .results "bob" "" 0)
        (serve direct stubCrypto (smallElection.take 7) (World.start calm))).resp ∧
    (votersOf (ascii "E1")
      (history direct stubCrypto (smallElection.take 7) (World.start calm))).toFinset.card = 2 :=
  ⟨results_agree stubCrypto calm (smallElection.take 7) (ascii "E1") (by decide +kernel)
    (by decide +kernel) (smallRequest .results "bob" "" 0) (.inl rfl) (by decide +kernel)
    (by decide +kernel), by decide +kernel⟩

/-! ## Counted as cast -/

/-- What an election is for: the last accepted choice of each voter. -/
def choices (crypto : Crypto) (eid : Bytes) (evs : List Event) : Bytes → Option ℤ :=
  evs.foldl (fun chosen ev =>
    if ev.Records eid then
      Function.update chosen ev.req.ballot.certName.bytes
        (crypto.decryptBallot ev.req.ballot).1.toOption
    else chosen) fun _ => none

/-- The choices in the ballots with this hash. -/
def Tables.votes (t : Tables) (eid hash : Bytes) : List ℤ :=
  (t.ballotsWith eid hash).map (·.optionIndex.val)

/-- The tables refine the map of choices: a choice is the vote an owner row points at. -/
structure CountsChoices (crypto : Crypto) (eid : Bytes) (evs : List Event) (t : Tables) : Prop where
  accounted : Accounted eid t
  choice_iff : ∀ cert i, choices crypto eid evs cert = some i ↔
    ∃ o ∈ t.ownersOf eid cert, t.votes eid o.hash.bytes = [i]

lemma CountsChoices.step {eid : Bytes} {evs : List Event}
    (h : CountsChoices crypto eid evs ev.before) (hfresh : ev.FreshReceipt)
    (hdoes : Does crypto ev.req ev.before ev.resp ev.after) :
    CountsChoices crypto eid (evs ++ [ev]) ev.after := by
  refine ⟨h.accounted.step hfresh hdoes, fun cert i => ?_⟩
  have hkept (howners : ev.after.ownersOf eid cert = ev.before.ownersOf eid cert)
      (hballots : ∀ o ∈ ev.before.ownersOf eid cert,
        ev.after.ballotsWith eid o.hash.bytes = ev.before.ballotsWith eid o.hash.bytes) :
      choices crypto eid evs cert = some i ↔
        ∃ o ∈ ev.after.ownersOf eid cert, ev.after.votes eid o.hash.bytes = [i] := by
    rw [h.choice_iff, howners]
    exact exists_congr fun o => and_congr_right fun ho => by rw [votes, votes, hballots o ho]
  rw [choices, foldl_concat, ← choices]
  obtain ⟨hsame, hnot⟩ | ⟨hrecords, rec, hnew, hafter⟩ := ev.votes_cases hfresh hdoes eid
  · rw [if_neg hnot]
    exact hkept (hsame.ownersOf_eq cert) fun o _ => hsame.ballotsWith_eq o.hash.bytes
  · rw [if_pos hrecords]
    by_cases hcert : ev.req.ballot.certName.bytes = cert
    · -- the new row takes the place of the old one
      rw [← hcert, Function.update_self, rec.decrypted, hafter, Recording.after_ownersOf,
        if_pos rfl]
      simp [votes, rec.owner_stores.2.2.1, (rec.after_new h.accounted hnew).1,
        rec.row_stores.optionIndex, Except.toOption]
    · rw [Function.update_of_ne (Ne.symm hcert)]
      refine hkept (by rw [hafter, Recording.after_ownersOf, if_neg hcert]) fun o ho => ?_
      obtain ⟨howner, heid, hname⟩ := mem_ownersOf.mp ho
      rw [hafter]
      exact rec.other_voter_kept h.accounted hnew howner heid fun heq => hcert (heq ▸ hname)

/-- Live ballots and owner rows share their hashes, so votes can be counted by voters. -/
lemma CountsChoices.tally {eid : Bytes} {evs : List Event} {t : Tables}
    (h : CountsChoices crypto eid evs t) (i : ℕ) :
    t.tally eid i = {cert | choices crypto eid evs cert = some (i : ℤ)}.ncard := by
  have hset : {cert | choices crypto eid evs cert = some (i : ℤ)} =
      (((t.ownersIn eid).filter fun o => t.votes eid o.hash.bytes = [(i : ℤ)]).map
        (·.certName.bytes)).toFinset := by
    ext cert
    simp only [Set.mem_ofPred_eq, h.choice_iff, mem_ownersOf, coe_toFinset, mem_map, mem_filter,
      Tables.ownersIn, decide_eq_true_eq]
    grind
  have hlive : ∀ b ∈ t.liveBallots eid,
      b.optionIndex.val = (i : ℤ) ↔ t.votes eid b.hash.bytes = [(i : ℤ)] := by
    intro b hb
    obtain ⟨o, -, hrows, -⟩ := h.accounted.held_of_live hb
    simp [votes, hrows]
  rw [hset, Set.ncard_coe_finset, toFinset_card_of_nodup
    (h.accounted.ownerCerts_nodup.sublist (filter_sublist.map _)), length_map,
    ← countP_eq_length_filter]
  calc t.tally eid i
      = (t.liveBallots eid).countP ((t.votes eid · = [(i : ℤ)]) ∘ (·.hash.bytes)) :=
        countP_congr (by simpa using hlive)
    _ = (t.ownersIn eid).countP ((t.votes eid · = [(i : ℤ)]) ∘ (·.hash.bytes)) := by
        rw [← countP_map, h.accounted.liveHashes_perm.countP_eq, countP_map]

/-- **Tallied as cast.**  In every run in which receipts are fresh, the tally of a results reply
gives each option the number of voters whose last accepted choice it is. -/
theorem tallied_as_cast (crypto : Crypto) (sched : ℕ → Outcome) (reqs : List BclRequest)
    (hfresh : ∀ ev ∈ history direct crypto reqs (World.start sched), ev.FreshReceipt)
    (req : BclRequest) (hop : req.op = .results ∨ req.op = .adminResults)
    (hresp : (ballotdDispatch direct crypto req
      (serve direct crypto reqs (World.start sched))).resp = resp) (hok : resp.status = .ok)
    (i : ℕ) (hi : i < bbMaxOptions) (hcount : i < resp.optionCount) :
    resp.tally[i] = {cert | choices crypto req.electionId.bytes
      (history direct crypto reqs (World.start sched)) cert = some (i : ℤ)}.ncard := by
  subst hresp
  have hstart : CountsChoices crypto req.electionId.bytes [] Tables.empty :=
    ⟨.of_noVotes (by simp [Tables.empty]) (by simp [Tables.empty]),
      fun _ _ => by simp [choices, Tables.empty, ownersOf]⟩
  have hrun := run_induction (I := CountsChoices crypto req.electionId.bytes) rfl hstart
    (fun _ _ h hC hdoes => h.step hC hdoes) reqs hfresh
  obtain ⟨e, -, -, hoptions, htally, -⟩ :=
    (ballotdDispatch_does (serve_txnConn rfl reqs)).2.report hop hok
  rw [htally i hi, if_pos (hoptions ▸ hcount), hrun.tally]

/-- Ann's last choice is the first option. -/
theorem tallied_as_cast_small :
    {cert | choices stubCrypto (ascii "E1")
      (history direct stubCrypto (smallElection.take 7) (World.start calm)) cert =
        some 0}.ncard = 1 := by
  have h := tallied_as_cast stubCrypto calm (smallElection.take 7) (by decide +kernel)
    (smallRequest .results "bob" "" 0) (.inl rfl) rfl (by decide +kernel) 0 (by decide)
    (by decide +kernel)
  exact Int.natCast_inj.mp (h.symm.trans (by decide +kernel))

/-- **Only eligible voters are counted.**  In every state that requests can reach, who owns a ballot
is on the list of the election. -/
theorem owners_eligible (crypto : Crypto) (sched : ℕ → Outcome) (reqs : List BclRequest)
    (eid cert : Bytes) :
    (serve direct crypto reqs (World.start sched)).server.store.ownersOf eid cert = [] ∨
      cert ∈ ((serve direct crypto reqs (World.start sched)).server.store.eligiblesOf eid).map
        EligibleRow.readName := by
  refine run_induction (I := fun _ t =>
    t.ownersOf eid cert = [] ∨ cert ∈ (t.eligiblesOf eid).map EligibleRow.readName)
    (C := fun _ => True) rfl (.inl rfl) (fun _ ev h _ hdoes => ?_) reqs fun _ _ => trivial
  have helig : ev.before.eligiblesOf eid ⊆ ev.after.eligiblesOf eid := by
    obtain ⟨-, hsame, -⟩ | ⟨id, hcreates⟩ := hdoes.setup eid
    · simp [Tables.eligiblesOf, hsame]
    · obtain ⟨vs, hvs, -⟩ := hcreates.eligiblesOf eid
      simp [hvs]
  have hkept := h.imp_right fun hcert => map_subset EligibleRow.readName helig hcert
  obtain ⟨hsame, -⟩ | ⟨-, rec, -, hafter⟩ := Event.votesOf hdoes eid
  · rwa [hsame.ownersOf_eq]
  · by_cases hcert : ev.req.ballot.certName.bytes = cert
    · obtain ⟨v, hv, hname⟩ := rec.voter_eligible
      exact .inr (mem_map.mpr ⟨v, helig hv, hname.trans hcert⟩)
    · rwa [hafter, Recording.after_ownersOf, if_neg hcert, ← hafter]

end BallotBox
