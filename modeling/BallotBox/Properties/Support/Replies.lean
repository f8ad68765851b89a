import BallotBox.Construction.Rows

/-!
# Reading a printed table

A select result is taken in up to the first line that starts with `<<END `.  This module follows a
table through the reader, for rows that print as one line each (`PrintsOnLines`).
-/

namespace BallotBox

open List

variable {td : TupleDesc} {rows : List (List Bytes)}
variable {row : List Bytes} {line rest : Bytes} {w : DbWire} {cap : ℕ}

def PrintsOnLines (rows : List (List Bytes)) : Prop :=
  ∀ row ∈ rows, (0 : UInt8) ∉ tupleLine row ∧ lf ∉ tupleLine row

lemma PrintsOnLines.of_fields (h : ∀ row ∈ rows, ∀ f ∈ row, (0 : UInt8) ∉ f ∧ lf ∉ f) :
    PrintsOnLines rows := by
  intro row hrow
  have hnot {c : UInt8} (htab : c ≠ tab) (hf : ∀ f ∈ row, c ∉ f) : c ∉ tupleLine row := by
    intro hc
    rcases mem_tupleLine hc with hc | ⟨f, hmem, hc⟩
    · exact htab hc
    · exact hf f hmem hc
  exact ⟨hnot (by decide) fun f hf => (h row hrow f hf).1,
    hnot (by decide) fun f hf => (h row hrow f hf).2⟩

lemma PrintsOnLines.wireLine_eq (h : PrintsOnLines rows) (hrow : row ∈ rows) :
    wireLine (tupleLine row) = (tupleLine row).take (dbBodyMax - 1) :=
  cstr_eq_self fun h0 => (h row hrow).1 (mem_of_mem_take h0)

/-! ## The lines around the rows -/

lemma header_eq_cons (td : TupleDesc) : ∃ c rest, td.header = c :: rest ∧ c ≠ 0 ∧ c ≠ 60 := by
  obtain ⟨n, ns, hns⟩ := exists_cons_of_ne_nil td.nonempty
  rw [TupleDesc.header, hns, flatMap_cons]
  cases n with
  | nil => exact ⟨tab, _, rfl, by decide, by decide⟩
  | cons c n =>
    have hc := td.plain (c :: n) (by simp [hns]) c (by simp)
    exact ⟨c, _, rfl, hc.1, hc.2.2⟩

lemma lf_notMem_header (td : TupleDesc) : lf ∉ td.header := by
  intro h
  obtain ⟨n, hn, hc⟩ := mem_flatMap.mp h
  rcases mem_append.mp hc with hc | hc
  · exact (td.plain n hn lf hc).2.1 rfl
  · exact absurd (mem_singleton.mp hc) (by decide)

lemma wireLine_rule (td : TupleDesc) :
    isRule (wireLine td.rule) = true ∧ lf ∉ wireLine td.rule ∧
      ¬ dbMarkEnd <+: wireLine td.rule := by
  obtain ⟨c, rest, hc, -⟩ := header_eq_cons td
  have hlen : 0 < td.header.length + td.names.length * 4 := by simp [hc]
  have hrule : wireLine td.rule =
      List.replicate (min (dbBodyMax - 1) (td.header.length + td.names.length * 4)) 45 := by
    rw [wireLine, TupleDesc.rule, take_replicate]
    exact cstr_eq_self (by simp)
  have hpos : 0 < min (dbBodyMax - 1) (td.header.length + td.names.length * 4) :=
    lt_min (by decide) hlen
  obtain ⟨k, hk⟩ := Nat.exists_eq_succ_of_ne_zero hpos.ne'
  rw [hrule, hk]
  refine ⟨by simp [isRule, replicate_succ], fun h => ?_, ?_⟩
  · exact absurd (eq_of_mem_replicate h) (by decide)
  rw [replicate_succ]
  rintro ⟨t, ht⟩
  exact absurd (List.cons.inj ht).1 (by decide)

lemma rowsTrailer_eq (n : ℕ) : lf ∉ rowsTrailer n ∧ ¬ dbMarkEnd <+: wireLine (rowsTrailer n) := by
  constructor
  · intro h
    rcases mem_cons.mp h with h | h
    · exact absurd h (by decide)
    rcases mem_append.mp h with h | h
    · exact absurd (isDigit_of_mem_renderNat h) (by decide)
    · exact absurd h (by decide)
  · obtain ⟨rest, hrest⟩ := wireLine_cons (c := 32) (by decide) (renderNat n ++ ascii " rows.")
    rw [rowsTrailer, cons_append, hrest]
    rintro ⟨t, ht⟩
    exact absurd (List.cons.inj ht).1 (by decide)

lemma not_markEnd_header (td : TupleDesc) : ¬ dbMarkEnd <+: wireLine td.header := by
  obtain ⟨c, rest, hc, h0, h60⟩ := header_eq_cons td
  obtain ⟨u, hu⟩ := wireLine_cons h0 rest
  rw [hc, hu]
  rintro ⟨t, ht⟩
  exact h60 (List.cons.inj ht).1.symm

lemma wireLine_header_ne_nil (td : TupleDesc) : wireLine td.header ≠ [] := by
  obtain ⟨c, t, hc, h0, -⟩ := header_eq_cons td
  obtain ⟨u, hu⟩ := wireLine_cons h0 t
  simp [hc, hu]

lemma lf_notMem_queryLines (h : PrintsOnLines rows)
    (hline : line ∈ queryLines td rows) : lf ∉ line := by
  simp only [queryLines, cons_append, mem_cons, mem_append, mem_map, not_mem_nil, or_false] at hline
  rcases hline with rfl | rfl | ⟨row, hrow, rfl⟩ | rfl | rfl
  · exact lf_notMem_header _
  · exact fun h => absurd (eq_of_mem_replicate h) (by decide)
  · exact (h row hrow).2
  · simp
  · exact (rowsTrailer_eq _).1

lemma not_markEnd_queryLines (hmark : ∀ row ∈ rows, ¬ dbMarkEnd <+: wireLine (tupleLine row))
    (hline : line ∈ queryLines td rows) : ¬ dbMarkEnd <+: wireLine line := by
  simp only [queryLines, cons_append, mem_cons, mem_append, mem_map, not_mem_nil, or_false] at hline
  rcases hline with rfl | rfl | ⟨row, hrow, rfl⟩ | rfl | rfl
  · exact not_markEnd_header _
  · exact (wireLine_rule _).2.2
  · exact hmark row hrow
  · decide
  · exact (rowsTrailer_eq _).2

/-! ## A table without marker rows -/

def tableBody (cap : ℕ) (td : TupleDesc) (rows : List (List Bytes)) : Bytes :=
  ((queryLines td rows).map wireLine).foldl (appendLine cap) []

lemma dbWireResponse_table (h : PrintsOnLines rows)
    (hmark : ∀ row ∈ rows, ¬ dbMarkEnd <+: wireLine (tupleLine row))
    (cap : ℕ) (hw : w.readable = unlines (queryLines td rows ++ [dbMarkOk]) ++ rest) :
    ∃ w', dbWireResponse w cap = ((.ok, tableBody cap td rows), w') ∧ w'.readable = rest := by
  obtain ⟨w', hw', hrest⟩ := dbWireResponse_readable cap
    (fun l hl => ⟨lf_notMem_queryLines h hl, not_markEnd_queryLines hmark hl⟩)
    (show lf ∉ dbMarkOk by decide) (by decide) hw
  refine ⟨w', ?_, hrest⟩
  rw [hw', tableBody, show classify (wireLine dbMarkOk) = .ok by decide]

def readLines (rows : List (List Bytes)) : List Bytes :=
  rows.map fun row => wireLine (tupleLine row)

def readBody (td : TupleDesc) (rows : List (List Bytes)) : Bytes :=
  [lf].intercalate ((queryLines td rows).map wireLine)

lemma tableBody_eq (hcap : (unlines (queryLines td rows)).length ≤ cap) :
    tableBody cap td rows = readBody td rows := by
  refine foldl_appendLine_eq_intercalate _ (wireLine_header_ne_nil td) ?_
  have hle := length_unlines_map_le wireLine_length_le (queryLines td rows)
  have hlen := length_intercalate_succ (wireLine td.header) ((queryLines td rows).tail.map wireLine)
  have hcons : (queryLines td rows).map wireLine =
    wireLine td.header :: (queryLines td rows).tail.map wireLine := rfl
  rw [← hcons] at hlen
  show ([lf].intercalate ((queryLines td rows).map wireLine)).length < cap
  omega

lemma rowsBegin_readBody (h : PrintsOnLines rows) :
    rowsBegin (readBody td rows) = readLines rows ++ [[], wireLine (rowsTrailer rows.length)] := by
  have hsplit : (readBody td rows).splitOn lf = (queryLines td rows).map wireLine := by
    refine splitOn_intercalate lf (fun l hl => ?_) (by simp [queryLines])
    obtain ⟨line, hline, rfl⟩ := mem_map.mp hl
    exact notMem_wireLine (lf_notMem_queryLines h hline)
  have hrule := (wireLine_rule td).1
  have hne : wireLine td.rule ≠ [] := by
    intro h
    simp [h, isRule] at hrule
  have hblank : wireLine [] = [] := rfl
  simp [rowsBegin, hsplit, queryLines, findRule, hne, hrule, hblank, readLines, Function.comp_def]

lemma readLines_ne_nil (h : PrintsOnLines rows) (hblank : ∀ row ∈ rows, tupleLine row ≠ [])
    {l : Bytes} (hl : l ∈ readLines rows) : l ≠ [] := by
  obtain ⟨row, hrow, rfl⟩ := mem_map.mp hl
  rw [h.wireLine_eq hrow]
  simpa [dbBodyMax] using hblank row hrow

lemma dbRowCount_readBody (h : PrintsOnLines rows) (hblank : ∀ row ∈ rows, tupleLine row ≠ [])
    (hint : rows.length < 2 ^ 31) : dbRowCount (readBody td rows) = rows.length := by
  have hcount : wrap32 rows.length = rows.length := wrap32_of_range (by omega) (by omega)
  have htrailer : wireLine (rowsTrailer rows.length) = rowsTrailer rows.length := by
    refine wireLine_eq_self (fun h => ?_) ?_
    · simp only [rowsTrailer, cons_append, mem_cons, mem_append] at h
      rcases h with h | h | h
      · exact absurd h (by decide)
      · exact absurd (isDigit_of_mem_renderNat h) (by decide)
      · exact absurd h (by decide)
    · have := length_renderNat_le (n := rows.length) (k := 10) (by norm_num) (by omega)
      have hrows : (ascii " rows.").length = 6 := by decide
      simp only [rowsTrailer, cons_append, length_cons, length_append, hrows, dbBodyMax]
      omega
  rw [dbRowCount, rowsBegin_readBody h, blockCount_append (by decide) fun l hl =>
    readLines_ne_nil h hblank hl]
  simp [blockCount, readLines, hcount, htrailer, trailerCount_rowsTrailer]

lemma dbRowCount_readBody_lt (h : PrintsOnLines rows) (hrow : row ∈ rows)
    (hempty : tupleLine row = []) : dbRowCount (readBody td rows) < rows.length := by
  have hmem : ([] : Bytes) ∈ readLines rows := mem_map.mpr ⟨row, hrow, by rw [hempty]; rfl⟩
  -- the lines before the first empty one are counted, and there are fewer of them than rows
  obtain ⟨before, after, hsplit, hbefore⟩ := eq_append_cons_of_mem hmem
  have hlen : before.length < rows.length := by
    have := congrArg List.length hsplit
    simp only [readLines, length_map, length_append, length_cons] at this
    omega
  have hrange := wrap32_range before.length
  have hcount : dbRowCount (readBody td rows) = -1 ∨
      dbRowCount (readBody td rows) = wrap32 before.length := by
    rw [dbRowCount, rowsBegin_readBody h, hsplit, append_assoc,
      blockCount_append (by decide) fun l hl hnil => hbefore (hnil ▸ hl)]
    simpa using blockCount_blank (wrap32 before.length) _
  rcases hcount with h | h <;> rw [h]
  · omega
  · by_cases hsmall : before.length < 2 ^ 31
    · rw [wrap32_of_range (by omega) (by omega)]
      omega
    · omega

/-! ## A table with a marker row -/

def cutBody (cap : ℕ) (td : TupleDesc) (before : List (List Bytes)) : Bytes :=
  ((td.header :: td.rule :: before.map tupleLine).map wireLine).foldl (appendLine cap) []

lemma dbWireResponse_marker (h : PrintsOnLines rows) (hrow : row ∈ rows)
    (hmark : dbMarkEnd <+: wireLine (tupleLine row)) (cap : ℕ)
    (hw : w.readable = unlines (queryLines td rows ++ [dbMarkOk]) ++ rest) :
    ∃ before bad after w', rows = before ++ bad :: after ∧ dbMarkEnd <+: wireLine (tupleLine bad) ∧
      dbWireResponse w cap = ((classify (wireLine (tupleLine bad)), cutBody cap td before), w') ∧
      w'.readable =
        unlines (after.map tupleLine ++ [[], rowsTrailer rows.length, dbMarkOk]) ++ rest := by
  obtain ⟨bad, hbad⟩ : ∃ bad, rows.find? (fun x => dbMarkEnd <+: wireLine (tupleLine x)) =
      some bad := by
    rw [← Option.isSome_iff_exists, find?_isSome]
    exact ⟨row, hrow, by simpa using hmark⟩
  obtain ⟨hbadMark, before, after, hsplit, hbefore⟩ := find?_eq_some_iff_append.mp hbad
  have hlines : ∀ l ∈ td.header :: td.rule :: before.map tupleLine,
      lf ∉ l ∧ ¬ dbMarkEnd <+: wireLine l := by
    intro l hl
    simp only [mem_cons, mem_map] at hl
    rcases hl with rfl | rfl | ⟨x, hx, rfl⟩
    · exact ⟨lf_notMem_header _, not_markEnd_header _⟩
    · exact ⟨fun h => absurd (eq_of_mem_replicate h) (by decide), (wireLine_rule _).2.2⟩
    · exact ⟨(h x (by simp [hsplit, hx])).2, by simpa using hbefore x hx⟩
  have hread : w.readable = unlines ((td.header :: td.rule :: before.map tupleLine) ++
      [tupleLine bad]) ++ (unlines (after.map tupleLine ++
        [[], rowsTrailer rows.length, dbMarkOk]) ++ rest) := by
    have hmap : rows.map tupleLine =
        before.map tupleLine ++ tupleLine bad :: after.map tupleLine := by simp [hsplit]
    simp [hw, queryLines, hmap]
  obtain ⟨w', hw', hrest⟩ := dbWireResponse_readable cap hlines (h bad (by simp [hsplit])).2
    (by simpa using hbadMark) hread
  exact ⟨before, bad, after, w', hsplit, by simpa using hbadMark, hw', hrest⟩

lemma dbRowCount_cutBody_le {before : List (List Bytes)} (h : PrintsOnLines before)
    (hcap : (unlines (td.header :: td.rule :: before.map tupleLine)).length ≤ cap)
    (hint : before.length < 2 ^ 31) : dbRowCount (cutBody cap td before) ≤ before.length := by
  have hlf (l : Bytes) (hl : l ∈ td.header :: td.rule :: before.map tupleLine) :
      lf ∉ wireLine l := by
    have hquery : l ∈ queryLines td before := mem_append_left _ hl
    exact notMem_wireLine (lf_notMem_queryLines h hquery)
  have hbody : cutBody cap td before = [lf].intercalate
      ((td.header :: td.rule :: before.map tupleLine).map wireLine) := by
    refine foldl_appendLine_eq_intercalate _ (wireLine_header_ne_nil td) ?_
    have hle :=
      length_unlines_map_le wireLine_length_le (td.header :: td.rule :: before.map tupleLine)
    have hlen := length_intercalate_succ (wireLine td.header)
      ((td.rule :: before.map tupleLine).map wireLine)
    simp only [map_cons] at hle hlen ⊢
    omega
  have hsplit : (cutBody cap td before).splitOn lf =
      (td.header :: td.rule :: before.map tupleLine).map wireLine := by
    rw [hbody]
    refine splitOn_intercalate lf (fun l hl => ?_) (by simp)
    obtain ⟨line, hline, rfl⟩ := mem_map.mp hl
    exact hlf line hline
  have hrule := (wireLine_rule td).1
  have hne : wireLine td.rule ≠ [] := by
    intro h
    simp [h, isRule] at hrule
  have hbegin : rowsBegin (cutBody cap td before) = (before.map tupleLine).map wireLine := by
    simp [rowsBegin, hsplit, findRule, hne, hrule]
  have hcount := blockCount_le (n := 0) le_rfl ((before.map tupleLine).map wireLine)
    (by simpa using hint)
  rw [dbRowCount, hbegin]
  simpa using hcount

end BallotBox
