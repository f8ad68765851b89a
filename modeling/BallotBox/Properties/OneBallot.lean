import BallotBox.Properties.Support.FaithfulRuns

/-!
# One voter, one counted ballot

Whose a ballot is is known only through the owner table.  A hash of an election is either *retired*,
with no owner and no live row, or *held*, with exactly one owner row and one ballot row, which is
live and of the owner's version (`HashState`).
-/

namespace BallotBox

open List

variable {o : OwnerRow} {b x : BallotRow} {cert : Bytes} {ev : Event} {evs : List Event}

open Tables

/-! ## The invariant -/

/-- A hash is retired or held. -/
inductive HashState (t : Tables) (eid hash : Bytes) : Prop
  | retired (hp : t.pointersTo eid hash = [])
      (hb : ∀ b ∈ t.ballotsWith eid hash, b.superseded.val ≠ 0)
  | held (o : OwnerRow) (b : BallotRow) (hp : t.pointersTo eid hash = [o])
      (hb : t.ballotsWith eid hash = [b]) (hlive : b.superseded.val = 0)
      (hversion : b.version.val = o.version.val)

/-- Every hash of the election is in order, a voter has at most one owner row, and owner rows are
read back whole. -/
structure Accounted (eid : Bytes) (t : Tables) : Prop where
  hash : ∀ hash, HashState t eid hash
  owners : ∀ cert, (t.ownersOf eid cert).length ≤ 1
  fits : ∀ o ∈ t.owners, o.electionId.bytes = eid → o.readHash = o.hash.bytes

lemma Accounted.of_noVotes {eid : Bytes} {t : Tables}
    (hb : ∀ b ∈ t.ballots, b.electionId.bytes ≠ eid)
    (ho : ∀ o ∈ t.owners, o.electionId.bytes ≠ eid) : Accounted eid t where
  hash _ := by
    refine .retired (filter_eq_nil_iff.mpr fun o h => ?_) fun b h => ?_
    · simpa using fun heid => absurd heid (ho o h)
    · obtain ⟨hmem, heid, -⟩ := mem_ballotsWith.mp h
      exact absurd heid (hb b hmem)
  owners cert := by
    have hnil : t.ownersOf eid cert = [] :=
      filter_eq_nil_iff.mpr fun o h => by simpa using fun heid => absurd heid (ho o h)
    rw [hnil]
    exact Nat.zero_le _
  fits o h heid := absurd heid (ho o h)

namespace Accounted

variable {eid : Bytes} {t : Tables} (h : Accounted eid t)

include h

lemma held_of_owner (ho : o ∈ t.owners) (heid : o.electionId.bytes = eid) :
    ∃ b, t.pointersTo eid o.hash.bytes = [o] ∧ t.ballotsWith eid o.hash.bytes = [b] ∧
      b.superseded.val = 0 ∧ b.version.val = o.version.val := by
  have hmem : o ∈ t.pointersTo eid o.hash.bytes := mem_pointersTo.mpr ⟨ho, heid, rfl⟩
  cases h.hash o.hash.bytes with
  | retired hp _ => simp [hp] at hmem
  | held o' b hp hb hlive hversion =>
    obtain rfl : o = o' := by simpa [hp] using hmem
    exact ⟨b, hp, hb, hlive, hversion⟩

lemma held_of_live (hb : b ∈ t.liveBallots eid) :
    ∃ o, t.pointersTo eid b.hash.bytes = [o] ∧ t.ballotsWith eid b.hash.bytes = [b] ∧
      b.version.val = o.version.val := by
  obtain ⟨hmem, heid, hlive⟩ := mem_liveBallots.mp hb
  have hwith : b ∈ t.ballotsWith eid b.hash.bytes := mem_ballotsWith.mpr ⟨hmem, heid, rfl⟩
  cases h.hash b.hash.bytes with
  | retired _ hdead => exact absurd hlive (hdead b hwith)
  | held o b' hp hb' _ hversion =>
    obtain rfl : b = b' := by simpa [hb'] using hwith
    exact ⟨o, hp, hb', hversion⟩

lemma of_sameVotesOf {t' : Tables} (hsame : SameVotesOf eid t t') : Accounted eid t' where
  hash x := by
    have hp := hsame.pointersTo_eq x
    have hb := hsame.ballotsWith_eq x
    cases h.hash x with
    | retired hp' hdead => exact .retired (hp.trans hp') (hb ▸ hdead)
    | held o b hp' hb' hlive hv => exact .held o b (hp.trans hp') (hb.trans hb') hlive hv
  owners cert := hsame.ownersOf_eq cert ▸ h.owners cert
  fits o ho heid := by
    have hmem : o ∈ t'.owners.filter (·.electionId.bytes = eid) :=
      mem_filter.mpr ⟨ho, by simpa using heid⟩
    rw [hsame.owners] at hmem
    exact h.fits o (mem_filter.mp hmem).1 heid

end Accounted

/-! ## A recording keeps it -/

namespace Recording

variable {crypto : Crypto} {eid : Bytes} {ballot : BbBallot} {t : Tables}
  {rec : Recording crypto eid ballot t}

/-- The new hash is not in use. -/
def Fresh (rec : Recording crypto eid ballot t) : Prop :=
  t.ballotsWith eid rec.receipt.hash.bytes = []

lemma Fresh.ne_of_mem (hfresh : rec.Fresh) {hash : Bytes}
    (hb : t.ballotsWith eid hash = [b]) : rec.receipt.hash.bytes ≠ hash := by
  rintro rfl
  exact cons_ne_nil _ _ (hb.symm.trans hfresh)

/-- What is known of the voter's previous ballot. -/
structure Replaces (t : Tables) (eid cert : Bytes) (o : OwnerRow) (x : BallotRow) : Prop where
  owners : t.ownersOf eid cert = [o]
  pointers : t.pointersTo eid o.hash.bytes = [o]
  ballots : t.ballotsWith eid o.hash.bytes = [x]
  live : x.superseded.val = 0
  version : x.version.val = o.version.val

lemma Replaces.key (hx : Replaces t eid cert o x) : x.key = (eid, o.hash.bytes) := by
  obtain ⟨-, heid, hhash⟩ := mem_ballotsWith.mp (hx.ballots ▸ mem_singleton_self x)
  rw [BallotRow.key, heid, hhash]

lemma replaces (h : Accounted eid t) (hfresh : rec.Fresh)
    (hprior : rec.prior = some (o, x)) : Replaces t eid ballot.certName.bytes o x := by
  obtain ⟨ho, hx, -⟩ := rec.prior_some o x hprior
  obtain ⟨howner, heid, -⟩ := mem_ownersOf.mp ho
  obtain ⟨b, hp, hb, hlive, hversion⟩ := h.held_of_owner howner heid
  -- the new row is not the one found, since the old hash is in use
  have hne : rec.row.key ≠ (eid, o.hash.bytes) := by
    rw [key_row]
    exact fun heq => hfresh.ne_of_mem hb (Prod.mk.inj heq).2
  rw [h.fits o howner heid, ballotsWith_addBallot, if_neg hne, append_nil, hb, mem_singleton] at hx
  subst hx
  refine ⟨?_, hp, hb, hlive, hversion⟩
  obtain ⟨o', ho'⟩ := length_eq_one_iff.mp (le_antisymm (h.owners _) (length_pos_of_mem ho))
  rw [ho', mem_singleton] at ho
  rw [ho', ho]

lemma after_new (h : Accounted eid t) (hfresh : rec.Fresh) :
    rec.after.ballotsWith eid rec.receipt.hash.bytes = [rec.row] ∧
      rec.after.pointersTo eid rec.receipt.hash.bytes = [rec.owner] := by
  have hadd : (t.addBallot rec.row).ballotsWith eid rec.receipt.hash.bytes = [rec.row] := by
    rw [ballotsWith_addBallot, key_row, if_pos rfl, hfresh, nil_append]
  constructor
  · rw [after_ballotsWith, counted]
    split
    · exact hadd
    · rename_i o x hprior
      have hx := rec.replaces h hfresh hprior
      rw [ballotsWith_supersede, hx.key, if_neg, hadd]
      exact fun heq => hfresh.ne_of_mem hx.ballots (Prod.mk.inj heq).2.symm
  · rw [after_pointersTo, if_pos rfl]
    cases h.hash rec.receipt.hash.bytes with
    | retired hp _ => rw [hp, filter_nil, nil_append]
    | held o b _ hb _ _ => exact absurd rfl (hfresh.ne_of_mem hb)

lemma after_old (h : Accounted eid t) (hfresh : rec.Fresh) (hprior : rec.prior = some (o, x)) :
    rec.after.ballotsWith eid o.hash.bytes = [x.retired] ∧
      rec.after.pointersTo eid o.hash.bytes = [] := by
  have hx := rec.replaces h hfresh hprior
  constructor
  · rw [after_ballotsWith, counted, hprior, ballotsWith_supersede, if_pos hx.key]
  · obtain ⟨-, heid, hcert⟩ := mem_ownersOf.mp (hx.owners ▸ mem_singleton_self o)
    rw [after_pointersTo, hx.pointers, if_neg (hfresh.ne_of_mem hx.ballots)]
    simp [OwnerRow.voter, heid, hcert]

lemma after_other (h : Accounted eid t) (hfresh : rec.Fresh) {hash : Bytes}
    (hnew : rec.receipt.hash.bytes ≠ hash)
    (hold : ∀ o x, rec.prior = some (o, x) → o.hash.bytes ≠ hash) :
    rec.after.ballotsWith eid hash = t.ballotsWith eid hash ∧
      rec.after.pointersTo eid hash = t.pointersTo eid hash := by
  have hadd : (t.addBallot rec.row).ballotsWith eid hash = t.ballotsWith eid hash := by
    rw [ballotsWith_addBallot, key_row, if_neg fun heq => hnew (Prod.mk.inj heq).2, append_nil]
  constructor
  · rw [after_ballotsWith, counted]
    split
    · exact hadd
    · rename_i o x hprior
      have hx := rec.replaces h hfresh hprior
      rw [ballotsWith_supersede, hx.key, if_neg fun heq => hold o x hprior (Prod.mk.inj heq).2,
        hadd]
  · rw [after_pointersTo, if_neg hnew, append_nil, filter_eq_self]
    -- an owner row of this voter points at the old hash, not at this one
    intro o ho
    obtain ⟨howner, -, hhash⟩ := mem_pointersTo.mp ho
    simp only [decide_eq_true_eq]
    intro hvoter
    obtain ⟨heid, hcert⟩ := Prod.mk.inj hvoter
    have hmem := mem_ownersOf.mpr ⟨howner, heid, hcert⟩
    cases hprior : rec.prior with
    | none => simp [(rec.prior_none hprior).1] at hmem
    | some p =>
      have hx := rec.replaces h hfresh (o := p.1) (x := p.2) hprior
      rw [hx.owners, mem_singleton] at hmem
      exact hold p.1 p.2 hprior (hmem ▸ hhash)

lemma other_voter_kept (h : Accounted eid t) (hfresh : rec.Fresh) (ho : o ∈ t.owners)
    (heid : o.electionId.bytes = eid) (hcert : o.certName.bytes ≠ ballot.certName.bytes) :
    rec.after.ballotsWith eid o.hash.bytes = t.ballotsWith eid o.hash.bytes := by
  obtain ⟨b, hp, hb, -, -⟩ := h.held_of_owner ho heid
  refine (rec.after_other h hfresh (hfresh.ne_of_mem hb) fun o' x hprior heq => ?_).1
  have hx := rec.replaces h hfresh hprior
  rw [← heq, hx.pointers, singleton_inj] at hp
  exact hcert (hp ▸ (mem_ownersOf.mp (hx.owners ▸ mem_singleton_self o')).2.2)

theorem accounted (h : Accounted eid t) (hfresh : rec.Fresh) : Accounted eid rec.after where
  hash hash := by
    by_cases hnew : rec.receipt.hash.bytes = hash
    · obtain ⟨hb, hp⟩ := rec.after_new h hfresh
      rw [← hnew]
      refine .held rec.owner rec.row hp hb rec.row_stores.superseded ?_
      rw [rec.row_stores.version, rec.owner_stores.2.2.2]
    by_cases hold : ∃ o x, rec.prior = some (o, x) ∧ o.hash.bytes = hash
    · obtain ⟨o, x, hprior, rfl⟩ := hold
      obtain ⟨hb, hp⟩ := rec.after_old h hfresh hprior
      refine .retired hp fun b hmem => ?_
      rw [hb, mem_singleton] at hmem
      simp [hmem, BallotRow.retired, JInt.one]
    · obtain ⟨hb, hp⟩ := rec.after_other h hfresh hnew fun o x hprior heq =>
        hold ⟨o, x, hprior, heq⟩
      cases h.hash hash with
      | retired hp' hb' => exact .retired (hp ▸ hp') (hb ▸ hb')
      | held o b hp' hb' hlive hversion => exact .held o b (hp ▸ hp') (hb ▸ hb') hlive hversion
  owners cert := by
    rw [after_ownersOf]
    split_ifs
    · exact le_rfl
    · exact h.owners cert
  fits o ho heid := by
    have hmem : o = rec.owner ∨ (o ∈ rec.counted.owners ∧ _) := (mem_upsert _).mp ho
    rcases hmem with rfl | ⟨hold, -⟩
    · rw [OwnerRow.readHash, rec.owner_stores.2.2.1, CStr.ofBytes_self]
    · exact h.fits o (rec.counted_owners ▸ hold) heid

end Recording

/-! ## What a voter has superseded -/

/-- A receipt handed out by a cast or update has a hash that no ballot of its election has yet. -/
def Event.FreshReceipt (ev : Event) : Prop :=
  ev.req.op = .cast ∨ ev.req.op = .update → ev.resp.status = .ok →
    ev.before.ballotsWith ev.req.electionId.bytes ev.resp.receipt.hash.bytes = []

instance (ev : Event) : Decidable ev.FreshReceipt := by
  unfold Event.FreshReceipt
  infer_instance

/-- The ballots of a voter that an event supersedes: live and pointed at by the owner row before it,
superseded after it. -/
def Event.retiredOf (eid cert : Bytes) (ev : Event) : List BallotRow :=
  (ev.before.liveBallots eid).filter fun b =>
    (ev.before.ownersOf eid cert).any (·.hash.bytes = b.hash.bytes) ∧ b.retired ∈ ev.after.ballots

/-- The versions of the ballots that a voter has superseded. -/
def retiredVersions (eid cert : Bytes) (evs : List Event) : List ℤ :=
  (evs.flatMap (Event.retiredOf eid cert)).map (·.version.val)

/-- The versions from 1 to `n`. -/
def versionsTo (n : ℕ) : List ℤ := (List.range n).map fun i => (i : ℤ) + 1

lemma versionsTo_succ (n : ℕ) : versionsTo (n + 1) = versionsTo n ++ [(n : ℤ) + 1] := by
  simp [versionsTo, range_succ]

lemma Accounted.retired_notMem {eid : Bytes} {t : Tables} (h : Accounted eid t)
    (hb : b ∈ t.liveBallots eid) {t' : Tables}
    (hsame : t'.ballotsWith eid b.hash.bytes = t.ballotsWith eid b.hash.bytes) :
    b.retired ∉ t'.ballots := by
  intro hmem
  obtain ⟨-, -, honly, -⟩ := h.held_of_live hb
  obtain ⟨-, heid, hlive⟩ := mem_liveBallots.mp hb
  have hwith : b.retired ∈ t'.ballotsWith eid b.hash.bytes :=
    mem_ballotsWith.mpr ⟨hmem, heid, rfl⟩
  rw [hsame, honly, mem_singleton] at hwith
  have hsup : b.retired.superseded.val = b.superseded.val := by rw [hwith]
  rw [hlive] at hsup
  exact one_ne_zero hsup

lemma retiredOf_eq_nil {eid : Bytes} (h : Accounted eid ev.before)
    (hsame : ∀ o ∈ ev.before.ownersOf eid cert,
      ev.after.ballotsWith eid o.hash.bytes = ev.before.ballotsWith eid o.hash.bytes) :
    ev.retiredOf eid cert = [] := by
  refine filter_eq_nil_iff.mpr fun b hb => ?_
  simp only [decide_eq_true_eq, any_eq_true, not_and]
  rintro ⟨o, ho, hhash⟩
  exact h.retired_notMem hb (hhash ▸ hsame o ho)

lemma Recording.retiredOf_self {crypto : Crypto} {eid : Bytes} {ballot : BbBallot}
    {rec : Recording crypto eid ballot ev.before} (h : Accounted eid ev.before) (hfresh : rec.Fresh)
    (hafter : ev.after = rec.after)
    (hprior : rec.prior = some (o, x)) : ev.retiredOf eid ballot.certName.bytes = [x] := by
  have hx := rec.replaces h hfresh hprior
  have hmem : x.retired ∈ ev.after.ballots := by
    rw [hafter]
    have hwith := (rec.after_old h hfresh hprior).1
    exact (mem_ballotsWith.mp (hwith ▸ mem_singleton_self _)).1
  calc ev.retiredOf eid ballot.certName.bytes
      = (ev.before.ballotsWith eid o.hash.bytes).filter fun b =>
          b.superseded.val = 0 ∧ b.retired ∈ ev.after.ballots := by
        simp only [Event.retiredOf, Tables.liveBallots, Tables.ballotsWith, hx.owners,
          filter_filter]
        refine filter_congr fun b _ => ?_
        simp only [any_cons, any_nil, Bool.or_false, decide_eq_true_eq,
          ← Bool.decide_and, decide_eq_decide]
        tauto
    _ = [x] := by simp [hx.ballots, hx.live, hmem]

/-! ## Along a run -/

/-- The invariant of a run: the election is accounted for, and what a voter has superseded are the
versions before the owner row's. -/
structure VotesInOrder (eid : Bytes) (evs : List Event) (t : Tables) : Prop where
  accounted : Accounted eid t
  versions : ∀ cert, ∃ n : ℕ, retiredVersions eid cert evs = versionsTo n ∧
    (∀ o ∈ t.ownersOf eid cert, o.version.val = n + 1) ∧ (t.ownersOf eid cert = [] → n = 0)

lemma retiredVersions_append (eid cert : Bytes) (evs : List Event) (ev : Event) :
    retiredVersions eid cert (evs ++ [ev]) =
      retiredVersions eid cert evs ++ (ev.retiredOf eid cert).map (·.version.val) := by
  simp [retiredVersions]

lemma VotesInOrder.versions_of_same {eid : Bytes} (h : VotesInOrder eid evs ev.before)
    (howners : ev.after.ownersOf eid cert = ev.before.ownersOf eid cert)
    (hretired : ev.retiredOf eid cert = []) :
    ∃ n : ℕ, retiredVersions eid cert (evs ++ [ev]) = versionsTo n ∧
      (∀ o ∈ ev.after.ownersOf eid cert, o.version.val = n + 1) ∧
      (ev.after.ownersOf eid cert = [] → n = 0) := by
  rw [retiredVersions_append, hretired, map_nil, append_nil, howners]
  exact h.versions cert

lemma Recording.versions_self {crypto : Crypto} {eid : Bytes}
    {ballot : BbBallot} {rec : Recording crypto eid ballot ev.before}
    (h : VotesInOrder eid evs ev.before) (hfresh : rec.Fresh) (hafter : ev.after = rec.after) :
    ∃ n : ℕ, retiredVersions eid ballot.certName.bytes (evs ++ [ev]) = versionsTo n ∧
      (∀ o ∈ ev.after.ownersOf eid ballot.certName.bytes, o.version.val = n + 1) ∧
      (ev.after.ownersOf eid ballot.certName.bytes = [] → n = 0) := by
  obtain ⟨n, hn, hversion, hzero⟩ := h.versions ballot.certName.bytes
  have howner : ev.after.ownersOf eid ballot.certName.bytes = [rec.owner] := by
    rw [hafter, after_ownersOf, if_pos rfl]
  rw [retiredVersions_append, hn, howner]
  cases hprior : rec.prior with
  | none =>
    obtain ⟨hnone, hone⟩ := rec.prior_none hprior
    rw [retiredOf_eq_nil h.accounted (by simp [hnone]), hzero hnone]
    refine ⟨0, by simp, fun o ho => ?_, by simp⟩
    rw [mem_singleton.mp ho, rec.owner_stores.2.2.2, hone]
    simp
  | some p =>
    obtain ⟨o, x⟩ := p
    have hx := rec.replaces h.accounted hfresh hprior
    have ho : o.version.val = n + 1 := hversion o (hx.owners ▸ mem_singleton_self o)
    rw [rec.retiredOf_self h.accounted hfresh hafter hprior]
    refine ⟨n + 1, ?_, fun o' ho' => ?_, by simp⟩
    · rw [versionsTo_succ, map_singleton, hx.version, ho]
    · rw [mem_singleton.mp ho', rec.owner_stores.2.2.2, (rec.prior_some o x hprior).2.2, ho]
      push_cast
      ring

lemma Event.votes_cases {crypto : Crypto} (hfresh : ev.FreshReceipt)
    (hdoes : Does crypto ev.req ev.before ev.resp ev.after) (eid : Bytes) :
    (SameVotesOf eid ev.before ev.after ∧ ¬ ev.Records eid) ∨
      (ev.Records eid ∧ ∃ rec : Recording crypto eid ev.req.ballot ev.before,
        rec.Fresh ∧ ev.after = rec.after) := by
  obtain hsame | ⟨hrecords, rec, hreceipt, hafter⟩ := Event.votesOf hdoes eid
  · exact .inl hsame
  · refine .inr ⟨hrecords, rec, ?_, hafter⟩
    obtain ⟨hop, hok, heid⟩ := hrecords
    have hnew := hfresh hop hok
    rwa [hreceipt, heid] at hnew

lemma Accounted.step {crypto : Crypto} {eid : Bytes} (h : Accounted eid ev.before)
    (hfresh : ev.FreshReceipt) (hdoes : Does crypto ev.req ev.before ev.resp ev.after) :
    Accounted eid ev.after := by
  obtain ⟨hsame, -⟩ | ⟨-, rec, hnew, hafter⟩ := ev.votes_cases hfresh hdoes eid
  · exact h.of_sameVotesOf hsame
  · exact hafter ▸ rec.accounted h hnew

lemma VotesInOrder.step {crypto : Crypto} {eid : Bytes}
    (h : VotesInOrder eid evs ev.before) (hfresh : ev.FreshReceipt)
    (hdoes : Does crypto ev.req ev.before ev.resp ev.after) :
    VotesInOrder eid (evs ++ [ev]) ev.after := by
  refine ⟨h.accounted.step hfresh hdoes, fun cert => ?_⟩
  obtain ⟨hsame, -⟩ | ⟨-, rec, hnew, hafter⟩ := ev.votes_cases hfresh hdoes eid
  · exact h.versions_of_same (hsame.ownersOf_eq cert)
      (retiredOf_eq_nil h.accounted fun o _ => hsame.ballotsWith_eq o.hash.bytes)
  · by_cases hcert : ev.req.ballot.certName.bytes = cert
    · exact hcert ▸ rec.versions_self h hnew hafter
    · refine h.versions_of_same ?_ (retiredOf_eq_nil h.accounted fun o ho => ?_)
      · rw [hafter, Recording.after_ownersOf, if_neg hcert]
      · obtain ⟨howner, heid, hname⟩ := mem_ownersOf.mp ho
        rw [hafter]
        exact rec.other_voter_kept h.accounted hnew howner heid fun heq => hcert (heq ▸ hname)

/-- What "one voter, one counted ballot" means for an election, after a history. -/
structure OneCountedBallot (evs : List Event) (t : Tables) (eid : Bytes) : Prop where
  /-- A voter has at most one owner row. -/
  owner_unique : ∀ cert, (t.ownersOf eid cert).length ≤ 1
  /-- An owner row matches exactly one ballot row, which is live and of its version. -/
  owner_ballot : ∀ cert, ∀ o ∈ t.ownersOf eid cert, ∃ b,
    t.ballotsWith eid o.hash.bytes = [b] ∧ b.superseded.val = 0 ∧ b.version.val = o.version.val
  /-- A live ballot row is pointed at by exactly one owner row. -/
  live_owned : ∀ b ∈ t.liveBallots eid, ∃ o, t.pointersTo eid b.hash.bytes = [o]
  /-- The rows a voter has superseded carry the versions before the current one. -/
  superseded : ∀ cert, ∀ o ∈ t.ownersOf eid cert, ∃ n : ℕ, o.version.val = n + 1 ∧
    retiredVersions eid cert evs = versionsTo n

lemma VotesInOrder.oneCountedBallot {eid : Bytes} {t : Tables}
    (h : VotesInOrder eid evs t) : OneCountedBallot evs t eid where
  owner_unique := h.accounted.owners
  owner_ballot cert o ho := by
    obtain ⟨howner, heid, -⟩ := mem_ownersOf.mp ho
    obtain ⟨b, -, hb⟩ := h.accounted.held_of_owner howner heid
    exact ⟨b, hb⟩
  live_owned b hb := by
    obtain ⟨o, hp, -⟩ := h.accounted.held_of_live hb
    exact ⟨o, hp⟩
  superseded cert o ho := by
    obtain ⟨n, hn, hversion, -⟩ := h.versions cert
    exact ⟨n, hversion o ho, hn⟩

lemma votesInOrder_run {crypto : Crypto} {sched : ℕ → Outcome} {reqs : List BclRequest}
    (hfresh : ∀ ev ∈ history direct crypto reqs (World.start sched), ev.FreshReceipt)
    (eid : Bytes) :
    VotesInOrder eid (history direct crypto reqs (World.start sched))
      (serve direct crypto reqs (World.start sched)).server.store := by
  have hstart : VotesInOrder eid [] Tables.empty :=
    ⟨.of_noVotes (by simp [Tables.empty]) (by simp [Tables.empty]),
      fun _ => ⟨0, rfl, by simp [Tables.empty, Tables.ownersOf], fun _ => rfl⟩⟩
  exact run_induction rfl hstart (fun evs ev h hC hdoes => h.step hC hdoes) reqs hfresh

/-- **One voter, one counted ballot.**  Whatever is requested and whatever becomes of the
statements, as long as receipts are fresh and the tables are readable before every request. -/
theorem one_voter_one_counted_ballot (crypto : Crypto) (sched : ℕ → Outcome)
    (reqs : List BclRequest)
    (hread : ∀ ev ∈ history wire crypto reqs (World.start sched), ev.before.Readable)
    (hfresh : ∀ ev ∈ history wire crypto reqs (World.start sched), ev.FreshReceipt)
    (eid : Bytes) :
    OneCountedBallot (history wire crypto reqs (World.start sched))
      (serve wire crypto reqs (World.start sched)).server.store eid := by
  obtain ⟨hstore, hhistory⟩ := start_onWire hread
  rw [hhistory] at hfresh ⊢
  rw [hstore]
  exact (votesInOrder_run hfresh eid).oneCountedBallot

/-- The small election: three ballots recorded, and Ann's first one superseded. -/
theorem one_voter_one_counted_ballot_small :
    OneCountedBallot (history wire stubCrypto smallElection (World.start calm))
      (serve wire stubCrypto smallElection (World.start calm)).server.store (ascii "E1") ∧
    retiredVersions (ascii "E1") (ascii "ann")
      (history wire stubCrypto smallElection (World.start calm)) = [1] := by
  have hplain : ∀ ev ∈ history wire stubCrypto smallElection (World.start calm),
      ev.before.Plain := by decide +kernel
  exact ⟨one_voter_one_counted_ballot stubCrypto calm smallElection
    (fun ev hev => (hplain ev hev).readable) (by decide +kernel) _, by decide +kernel⟩

/-- Ann and Bob vote, Bob changes the vote with the nonce `<<END ok>>`, and Ann repeats it. -/
def markerElection : List BclRequest :=
  smallElection.take 2 ++ [smallRequest .cast "ann" "n5" 0, smallRequest .cast "bob" "n1" 0,
    smallRequest .update "bob" "<<END ok>>" 0, smallRequest .cast "ann" "<<END ok>>" 0]

/-- The stored nonce ends its own reply, and Ann's request reads every later reply one statement
late.  It finds no earlier ballot of Ann's, so that two of them are counted. -/
theorem marker_nonce_counts_twice :
    (∀ ev ∈ history wire stubCrypto markerElection (World.start calm),
      ev.resp.status = .ok ∧ ev.FreshReceipt) ∧
    ¬ OneCountedBallot (history wire stubCrypto markerElection (World.start calm))
      (serve wire stubCrypto markerElection (World.start calm)).server.store (ascii "E1") := by
  refine ⟨by decide +kernel, fun h => ?_⟩
  have hlost : ∃ b ∈ liveBallots
        (serve wire stubCrypto markerElection (World.start calm)).server.store (ascii "E1"),
      pointersTo (serve wire stubCrypto markerElection (World.start calm)).server.store
        (ascii "E1") b.hash.bytes = [] := by decide +kernel
  obtain ⟨b, hb, hnone⟩ := hlost
  obtain ⟨o, ho⟩ := h.live_owned b hb
  exact List.cons_ne_nil _ _ (ho.symm.trans hnone)

end BallotBox
