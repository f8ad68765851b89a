import BallotBox.Framework.Mirroring
import BallotBox.Properties.Support.OwnConnection

/-!
# Tables whose replies are read as they were sent

A reply that the text protocol carries (`Carried`) is read as it was sent.  Tables are `Readable` if
the reply to every statement on them is carried; `Tables.Plain` is a condition on the rows that is
easy to check.
-/

namespace BallotBox

open List

/-! ## Replies -/

/-- A table that a caller with `room` bytes for the reply reads as it was sent: no row is empty,
starts with `<<END `, has framing in a field or is cut by the line buffer, and the reply fits. -/
def Carried (room : ℕ) (td : TupleDesc) (rows : List Row) : Prop :=
  (∀ row ∈ rows, ReadsBack td.names.length (dbBodyMax - 1) row) ∧ rows.length < 2 ^ 31 ∧
    (unlines (queryLines td rows ++ [dbMarkOk])).length ≤ room

variable {room n : ℕ} {td : TupleDesc} {rows m : List Row} {t t' : Tables} {stmt : Stmt}

lemma length_reply_eq (td : TupleDesc) (rows : List Row) :
    (unlines (queryLines td rows ++ [dbMarkOk])).length = td.header.length + td.rule.length +
      (rows.map fun row => (tupleLine row).length + 1).sum + (renderNat rows.length).length +
      22 := by
  have hsum : (unlines (rows.map tupleLine)).length =
      (rows.map fun row => (tupleLine row).length + 1).sum := by
    simp [unlines, length_flatMap, Function.comp_def]
  have hmark : dbMarkOk.length = 10 := by decide
  have hwords : (ascii " rows.").length = 6 := by decide
  simp only [unlines] at hsum
  simp only [unlines, queryLines, rowsTrailer, cons_append, flatMap_cons, flatMap_append,
    length_append, length_cons, length_nil, flatMap_nil, hmark, hwords, hsum]
  omega

/-- The order of the rows does not matter. -/
lemma Carried.perm (h : Carried room td rows) (hm : m.Perm rows) : Carried room td m := by
  refine ⟨fun row hrow => h.1 row (hm.subset hrow), hm.length_eq ▸ h.2.1, ?_⟩
  have hroom := h.2.2
  rw [length_reply_eq] at hroom ⊢
  rwa [(hm.map _).sum_eq, hm.length_eq]

lemma Carried.mono {room' : ℕ} (h : Carried room td rows) (hle : room ≤ room') :
    Carried room' td rows :=
  ⟨h.1, h.2.1, h.2.2.trans hle⟩

/-- A carried table is read with its rows, and nothing is left unread. -/
lemma wire_deliver_carried (h : Carried room td rows) :
    wire.deliver room [] (.ok (.table td rows)) = ((.ok, some rows), []) := by
  obtain ⟨hrows, hint, hroom⟩ := h
  let r : SelectResult := ⟨td, rows, fun row h => (hrows row h).arity, fun row h f hf =>
    ⟨((hrows row h).fields f hf).1.1, ((hrows row h).fields f hf).2,
      ((hrows row h).fields f hf).1.2.1, ((hrows row h).fields f hf).1.2.2⟩⟩
  have hsafe : r.FramingSafe := ⟨fun row h =>
    ⟨(hrows row h).head, (hrows row h).ne, (hrows row h).line.trans_lt (by decide)⟩, hint⟩
  exact wire_deliver_framingSafe hsafe hroom

/-- A few short rows are carried. -/
lemma Carried.of_short {k : ℕ} (hrows : ∀ row ∈ rows, ReadsBack stmt.desc.names.length k row)
    (hn : rows.length ≤ n) (hsmall : n < 100) (hk : k < dbBodyMax)
    (hroom : n * (k + 1) + 324 ≤ room) : Carried room stmt.desc rows := by
  refine ⟨fun row hrow => ?_, hn.trans_lt (hsmall.trans (by norm_num)), ?_⟩
  · obtain ⟨harity, hfields, hhead, hne, hline⟩ := hrows row hrow
    exact ⟨harity, hfields, hhead, hne, hline.trans (Nat.le_sub_one_of_lt hk)⟩
  · have hreply := length_reply_le stmt.desc hn hsmall fun row hrow => (hrows row hrow).line
    have hdesc := length_desc_le stmt
    omega

/-! ## Tables -/

/-- A statement whose reply is looked at. -/
def Stmt.isSelect : Stmt → Bool
  | .selectElection _ | .selectElectionRest _ | .selectOptions _ | .selectEligible _
  | .selectBallot .. | .selectTally _ | .selectHashes _ | .selectHash .. | .selectNonce ..
  | .selectPrior .. | .selectMaxSeq => true
  | _ => false

/-- The reply to every select on the tables is carried, with 64 bytes to spare. -/
def Tables.Readable (t : Tables) : Prop :=
  ∀ (stmt : Stmt) rows, stmt.isSelect = true → stmt.run t = some (t, rows) →
    Carried (bodyMax - 64) stmt.desc rows

/-- Every row that a select can print. -/
def Tables.printed (t : Tables) : List Row :=
  (t.elections.map fun r => [r.seq.render, r.id.bytes, r.title.bytes, r.state.bytes,
      r.openTime.bytes, r.closeTime.bytes]) ++
    (t.elections.map fun r => [r.seq.render, r.title.bytes, r.openTime.bytes, r.closeTime.bytes]) ++
    (t.elections.map fun r => [r.seq.render]) ++
    (t.options.map fun r => [r.idx.render, r.name.bytes]) ++
    (t.eligibles.map fun r => [r.certName.bytes]) ++
    (t.ballots.map fun b => [b.optionIndex.render, b.version.render]) ++
    (t.ballots.map fun b => [b.optionIndex.render]) ++ t.ballots.map BallotRow.hashRow ++
    (t.owners.map fun o => [o.hash.bytes, o.version.render]) ++
    t.nonces.map fun n => [n.nonce.bytes]

/-- A row that is not empty, does not start with `<<END `, and has no framing and at most 64 bytes
in a field. -/
def PlainRow (row : Row) : Prop :=
  (∀ f ∈ row, Clean f ∧ tab ∉ f ∧ f.length ≤ 64) ∧ ¬ dbMarkEnd <+: row.headD [] ∧ row ≠ [[]]

instance : DecidablePred PlainRow := fun _ => inferInstanceAs (Decidable (_ ∧ _))

/-- Only plain rows, and at most 40 of them in a table. -/
def Tables.Plain (t : Tables) : Prop :=
  (∀ row ∈ t.printed, PlainRow row) ∧ t.elections.length ≤ 40 ∧ t.options.length ≤ 40 ∧
    t.eligibles.length ≤ 40 ∧ t.ballots.length ≤ 40 ∧ t.owners.length ≤ 40 ∧ t.nonces.length ≤ 40

instance (t : Tables) : Decidable t.Plain := inferInstanceAs (Decidable (_ ∧ _))

lemma length_tupleLine_le {row : Row} (h : ∀ f ∈ row, f.length ≤ 64) :
    (tupleLine row).length ≤ row.length * 65 := by
  induction row with
  | nil => simp [tupleLine]
  | cons f fs ih =>
    have hf := h f mem_cons_self
    have hrest := ih fun g hg => h g (mem_cons_of_mem _ hg)
    cases fs with
    | nil =>
      simp only [tupleLine, intercalate_singleton, length_singleton]
      omega
    | cons g gs =>
      simp only [tupleLine, intercalate_cons_cons, length_append, length_cons,
        length_nil] at hrest ⊢
      omega

lemma PlainRow.readsBack {row : Row} (h : PlainRow row) (hle : row.length ≤ 6) :
    ReadsBack row.length 390 row := by
  refine ⟨rfl, fun f hf => ⟨(h.1 f hf).1, (h.1 f hf).2.1⟩, h.2.1, h.2.2, ?_⟩
  have := length_tupleLine_le fun f hf => (h.1 f hf).2.2
  omega

/-- What a select prints are rows of one table. -/
lemma Stmt.run_printed (hsel : stmt.isSelect = true) (hrun : stmt.run t = some (t, rows)) :
    (∀ row ∈ rows, row ∈ t.printed ∧ row.length = stmt.desc.names.length) ∧
      ∀ k, t.elections.length ≤ k → t.options.length ≤ k → t.eligibles.length ≤ k →
        t.ballots.length ≤ k → t.owners.length ≤ k → t.nonces.length ≤ k → rows.length ≤ k := by
  cases stmt with
  | selectMaxSeq =>
    obtain ⟨-, rfl⟩ := Prod.mk.inj (Option.some.inj hrun)
    cases hmax : t.maxSeq with
    | none => simp
    | some n =>
      obtain ⟨r, hr, rfl⟩ := mem_map.mp (max?_mem hmax)
      refine ⟨fun row hrow => ⟨?_, ?_⟩, fun k h _ _ _ _ _ => ?_⟩
      · obtain rfl : row = [r.seq.render] := by simpa [JInt.render] using hrow
        simp only [Tables.printed, mem_append, mem_map]
        grind
      · obtain rfl : row = [r.seq.render] := by simpa [JInt.render] using hrow
        rfl
      · exact (length_pos_of_mem hr).trans_le h
  | selectHash eid hash =>
    obtain ⟨-, rfl⟩ := Prod.mk.inj (Option.some.inj hrun)
    refine ⟨fun row hrow => ?_, fun k _ _ _ hballots _ _ => ?_⟩
    · obtain ⟨r, hr, rfl⟩ := mem_map.mp hrow
      have hmem := mem_of_mem_filter (mem_of_mem_filter hr)
      refine ⟨?_, rfl⟩
      simp only [Tables.printed, mem_append, mem_map]
      grind
    · rw [length_map]
      exact (length_filter_le _ _).trans ((length_filter_le _ _).trans hballots)
  | selectElection _ | selectElectionRest _ | selectOptions _ | selectEligible _
  | selectBallot _ _ | selectTally _ | selectHashes _ | selectNonce _ _ | selectPrior _ _ =>
    obtain ⟨-, rfl⟩ := Prod.mk.inj (Option.some.inj hrun)
    refine ⟨fun row hrow => ?_, fun k _ _ _ _ _ _ => ?_⟩
    · obtain ⟨r, hr, rfl⟩ := mem_map.mp hrow
      have hmem := mem_of_mem_filter hr
      refine ⟨?_, rfl⟩
      simp only [Tables.printed, mem_append, mem_map]
      grind
    · rw [length_map]
      exact (length_filter_le _ _).trans (by assumption)
  | _ => cases hsel

lemma length_names_le (stmt : Stmt) : stmt.desc.names.length ≤ 6 := by
  cases stmt <;> simp [Stmt.desc, Stmt.columns]

/-- Plain tables are readable. -/
lemma Tables.Plain.readable (h : t.Plain) : t.Readable := by
  obtain ⟨hplain, helections, hoptions, heligibles, hballots, howners, hnonces⟩ := h
  intro stmt rows hsel hrun
  obtain ⟨hprinted, hlength⟩ := Stmt.run_printed hsel hrun
  refine Carried.of_short (n := 40) (k := 390) (fun row hrow => ?_)
    (hlength 40 helections hoptions heligibles hballots howners hnonces) (by decide) (by decide)
    (by decide)
  obtain ⟨hmem, harity⟩ := hprinted row hrow
  exact harity ▸ (hplain row hmem).readsBack (harity ▸ length_names_le stmt)

lemma readsBack_seq (n : JInt) : ReadsBack 1 11 [n.render] := by
  refine ⟨rfl, ?_, not_markEnd_render n, by simpa using n.render_ne_nil, ?_⟩
  · simpa [JInt.render, clean_renderInt] using tab_notMem_render n
  · simpa [tupleLine, intercalate_singleton] using n.length_render_le

lemma readsBack_ballot (b : BallotRow) :
    ReadsBack 2 (dbBodyMax - 1) [b.optionIndex.render, b.version.render] := by
  have hopt := b.optionIndex.length_render_le
  have hver := b.version.length_render_le
  refine ⟨rfl, ?_, not_markEnd_render b.optionIndex, by simp, ?_⟩
  · simpa [JInt.render, clean_renderInt] using
      ⟨tab_notMem_render b.optionIndex, tab_notMem_render b.version⟩
  · simp only [tupleLine, intercalate_cons_cons, intercalate_singleton, length_append, length_cons,
      length_nil, dbBodyMax]
    omega

/-- One more ballot fits into the bytes to spare. -/
lemma Tables.Readable.selectBallot (h : t.Readable) (b : BallotRow) (eid hash : Bytes) :
    Carried bodyMax (Stmt.selectBallot eid hash).desc
      ((({ t with ballots := t.ballots ++ [b] } : Tables).ballotsWith eid hash).map fun b =>
        [b.optionIndex.render, b.version.render]) := by
  obtain ⟨hrows, -, hroom⟩ := h (.selectBallot eid hash) _ rfl rfl
  have hsplit : ({ t with ballots := t.ballots ++ [b] } : Tables).ballotsWith eid hash =
      t.ballotsWith eid hash ++ if b.electionId.bytes = eid ∧
        b.hash.bytes = hash then [b] else [] := by
    simp [Tables.ballotsWith, filter_append, filter_singleton]
  rw [hsplit]
  split_ifs
  · have hopt := b.optionIndex.length_render_le
    have hver := b.version.length_render_le
    have hline : (tupleLine [b.optionIndex.render, b.version.render]).length =
        b.optionIndex.render.length + b.version.render.length + 1 := by
      simp [tupleLine, intercalate_cons_cons]
      omega
    rw [length_reply_eq] at hroom
    simp only [length_map, map_map, bodyMax] at hroom
    -- every row has a line feed at least, so there are few
    have hcount : (t.ballotsWith eid hash).length ≤ ((t.ballotsWith eid hash).map
        ((fun row => (tupleLine row).length + 1) ∘ fun b : BallotRow =>
          [b.optionIndex.render, b.version.render])).sum := by
      refine (length_map _).symm.trans_le (length_le_sum_of_one_le _ ?_)
      simp
    have hdigits : (renderNat ((t.ballotsWith eid hash).length + 1)).length ≤ 5 :=
      length_renderNat_le (by norm_num) (by omega)
    refine ⟨fun row hrow => ?_, ?_, ?_⟩
    · simp only [map_append, mem_append, mem_map, mem_singleton] at hrow
      rcases hrow with hrow | ⟨_, rfl, rfl⟩
      · exact hrows row (mem_map.mpr hrow)
      · exact readsBack_ballot _
    · simp only [length_map, length_append, length_singleton]
      omega
    · rw [length_reply_eq]
      simp only [map_append, sum_append, length_append, length_map, length_singleton, map_cons,
        map_nil, sum_singleton, hline, map_map, bodyMax]
      omega
  · rw [append_nil]
    exact (h (.selectBallot eid hash) _ rfl rfl).mono (by decide)

end BallotBox
