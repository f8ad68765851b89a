import BallotBox.Properties.Support.Replies

/-!
# What the reply protocol carries faithfully

The rows of a select are printed unquoted, and the reply ends at the first line that starts with
`<<END `.  This module decides exactly which results survive the trip.
-/

namespace BallotBox

open List

variable {row : List Bytes}

/-- A select result: rows of one shape over the columns of `desc`. -/
structure SelectResult where
  desc : TupleDesc
  rows : List (List Bytes)
  arity : ∀ row ∈ rows, row.length = desc.names.length
  safe : ∀ row ∈ rows, ∀ f ∈ row, (0 : UInt8) ∉ f ∧ tab ∉ f ∧ cr ∉ f ∧ lf ∉ f

namespace SelectResult

/-- What the server sends for a select. -/
def reply (r : SelectResult) : Bytes := unlines (queryLines r.desc r.rows ++ [dbMarkOk])

/-- However the reply arrives, into any body buffer at least as long, reading it succeeds, consumes
exactly the reply, and gives the rows back. -/
def Transparent (r : SelectResult) : Prop :=
  ∀ (w : DbWire) (rest : Bytes) (cap : ℕ), w.readable = r.reply ++ rest → r.reply.length ≤ cap →
    (dbWireResponse w cap).1.1 = .ok ∧
      (dbWireResponse w cap).2.readable = rest ∧
      dbRowCount (dbWireResponse w cap).1.2 = r.rows.length ∧
      ∀ (i : ℕ) (row : List Bytes), r.rows[i]? = some row →
        dbRowFields (dbWireResponse w cap).1.2 i = some row

/-- No row looks like framing, and the number of rows is an `int`. -/
def FramingSafe (r : SelectResult) : Prop :=
  (∀ row ∈ r.rows, ¬ dbMarkEnd <+: row.headD [] ∧ row ≠ [[]] ∧
    (tupleLine row).length < dbBodyMax) ∧ r.rows.length < 2 ^ 31

variable {r : SelectResult}

/-! ## The lines of a reply -/

lemma row_ne_nil (h : row ∈ r.rows) : row ≠ [] := by
  rintro rfl
  have hlen := r.arity [] h
  exact r.desc.nonempty (length_eq_zero_iff.mp (by simpa using hlen.symm))

lemma printsOnLines (r : SelectResult) : PrintsOnLines r.rows :=
  .of_fields fun row hrow f hf => ⟨(r.safe row hrow f hf).1, (r.safe row hrow f hf).2.2.2⟩

lemma markEnd_tupleLine_iff (h : row ∈ r.rows) :
    dbMarkEnd <+: wireLine (tupleLine row) ↔ dbMarkEnd <+: row.headD [] := by
  rw [r.printsOnLines.wireLine_eq h, prefix_take_iff]
  obtain ⟨f, fs, rfl⟩ := exists_cons_of_ne_nil (row_ne_nil h)
  rw [tupleLine, intercalate_cons_eq, headD_cons]
  constructor
  · rintro ⟨hpre, -⟩
    -- a field that ended inside the marker would be followed by a tab there
    refine prefix_of_prefix_append (fun c hc => ?_) hpre
    cases fs with
    | nil => simp at hc
    | cons g gs =>
      obtain rfl : tab = c := by simpa using hc
      decide
  · intro hp
    exact ⟨hp.trans (prefix_append _ _), by decide⟩

lemma tupleLine_eq_nil_iff (h : row ∈ r.rows) : tupleLine row = [] ↔ row = [[]] := by
  constructor
  · exact fun hnil => not_not.mp fun hne => tupleLine_ne_nil (row_ne_nil h) hne hnil
  · rintro rfl
    rfl

lemma response_eq (hmark : ∀ row ∈ r.rows, ¬ dbMarkEnd <+: row.headD []) {w : DbWire}
    {rest : Bytes} {cap : ℕ} (hw : w.readable = r.reply ++ rest) (hcap : r.reply.length ≤ cap) :
    ∃ w', dbWireResponse w cap = ((.ok, readBody r.desc r.rows), w') ∧ w'.readable = rest := by
  obtain ⟨w', hw', hrest⟩ := dbWireResponse_table r.printsOnLines
    (fun row hrow hp => hmark row hrow ((markEnd_tupleLine_iff hrow).mp hp)) cap hw
  rw [tableBody_eq] at hw'
  · exact ⟨w', hw', hrest⟩
  · simp only [reply, unlines_append, length_append] at hcap
    omega

lemma dbRowFields_readBody (hblank : ∀ row ∈ r.rows, row ≠ [[]])
    (hint : r.rows.length < 2 ^ 31) {i : ℕ} (hrow : r.rows[i]? = some row) :
    dbRowFields (readBody r.desc r.rows) i = some ((wireLine (tupleLine row)).splitOn tab) := by
  have hi : i < r.rows.length := (List.getElem?_eq_some_iff.mp hrow).1
  have hdrop : (rowsBegin (readBody r.desc r.rows)).drop i = wireLine (tupleLine row) ::
      (((readLines r.rows).drop (i + 1)) ++ [[], wireLine (rowsTrailer r.rows.length)]) := by
    have hlen : i < (readLines r.rows).length := by simpa [readLines] using hi
    rw [rowsBegin_readBody r.printsOnLines, drop_append_of_le_length hlen.le,
      drop_eq_getElem_cons hlen, cons_append]
    congr 1
    obtain ⟨_, hget⟩ := List.getElem?_eq_some_iff.mp hrow
    simp [readLines, hget]
  have hcount : dbRowCount (readBody r.desc r.rows) = r.rows.length :=
    dbRowCount_readBody r.printsOnLines
      (fun row hrow hnil => hblank row hrow ((tupleLine_eq_nil_iff hrow).mp hnil)) hint
  rw [dbRowFields, hcount, if_neg (by omega), hdrop]

/-! ## The exact condition -/

lemma framingSafe_of_transparent (h : r.Transparent) : r.FramingSafe := by
  -- reading the bare reply in one piece is enough to see each condition fail
  have hw : (⟨r.reply, []⟩ : DbWire).readable = r.reply ++ [] := rfl
  obtain ⟨-, hread, hcount, hfields⟩ := h _ [] r.reply.length hw le_rfl
  have hmark : ∀ row ∈ r.rows, ¬ dbMarkEnd <+: row.headD [] := by
    intro row hrow hp
    obtain ⟨_, _, after, w', -, -, hw', hunread⟩ := dbWireResponse_marker r.printsOnLines hrow
      ((markEnd_tupleLine_iff hrow).mpr hp) r.reply.length hw
    rw [hw', hunread, append_nil, unlines_append] at hread
    simp at hread
  obtain ⟨w', hw', -⟩ := response_eq hmark hw le_rfl
  rw [hw'] at hcount hfields
  have hblank : ∀ row ∈ r.rows, row ≠ [[]] := fun row hrow hempty =>
    (dbRowCount_readBody_lt r.printsOnLines hrow ((tupleLine_eq_nil_iff hrow).mpr hempty)).ne hcount
  have hint : r.rows.length < 2 ^ 31 := by
    have := blockCount_lt (n := 0) (by norm_num) (rowsBegin (readBody r.desc r.rows))
    rw [← dbRowCount, hcount] at this
    omega
  refine ⟨fun row hrow => ⟨hmark row hrow, hblank row hrow, ?_⟩, hint⟩
  obtain ⟨i, hi⟩ := mem_iff_getElem?.mp hrow
  have hsame := hfields i row hi
  rw [dbRowFields_readBody hblank hint hi, Option.some.injEq] at hsame
  -- joining the fields again shows that the line buffer cut nothing
  have hline : wireLine (tupleLine row) = tupleLine row := by
    have hjoin : [tab].intercalate ((wireLine (tupleLine row)).splitOn tab) =
        wireLine (tupleLine row) := intercalate_splitOn tab
    rw [← hjoin, hsame]
    rfl
  have hlen := congrArg List.length hline
  rw [r.printsOnLines.wireLine_eq hrow, length_take] at hlen
  simp only [dbBodyMax] at hlen ⊢
  omega

lemma transparent_of_framingSafe (h : r.FramingSafe) : r.Transparent := by
  obtain ⟨hrows, hint⟩ := h
  have hblank : ∀ row ∈ r.rows, row ≠ [[]] := fun row hrow => (hrows row hrow).2.1
  intro w rest cap hw hcap
  obtain ⟨w', hw', hrest⟩ := response_eq (fun row hrow => (hrows row hrow).1) hw hcap
  rw [hw']
  refine ⟨rfl, hrest, dbRowCount_readBody r.printsOnLines (fun row hrow hnil =>
    hblank row hrow ((tupleLine_eq_nil_iff hrow).mp hnil)) hint, fun i row hi => ?_⟩
  have hrow : row ∈ r.rows := mem_of_getElem? hi
  rw [dbRowFields_readBody hblank hint hi,
    wireLine_eq_self (r.printsOnLines row hrow).1 (hrows row hrow).2.2,
    splitOn_tupleLine (row_ne_nil hrow) fun f hf => (r.safe row hrow f hf).2.1]

/-- **The reply protocol is transparent exactly to framing-safe results.** -/
theorem transparent_iff_framingSafe (r : SelectResult) : r.Transparent ↔ r.FramingSafe :=
  ⟨framingSafe_of_transparent, transparent_of_framingSafe⟩

def markerNonce : SelectResult where
  desc := ⟨[ascii "nonce.nonce"], by simp, by decide⟩
  rows := [[dbMarkOk]]
  arity := by decide
  safe := by decide

/-- A stored value that reads `<<END ok>>` ends its own reply: the trailer and the real marker
stay in the stream, and the next statement reads them as its answer. -/
theorem markerNonce_not_transparent : ¬ markerNonce.Transparent := by
  intro h
  have hread := (h ⟨markerNonce.reply, []⟩ [] markerNonce.reply.length
    (by simp [DbWire.readable, arriving]) le_rfl).2.1
  revert hread
  decide +kernel

end SelectResult

end BallotBox
