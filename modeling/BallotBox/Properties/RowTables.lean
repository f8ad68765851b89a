import BallotBox.Construction.Rows

/-!
# The row counter and the tables it accepts

`Table body rows said` says what `db_row_count` looks for.  The two numbers are compared as `int`s,
so a trailer that announces `2 ^ 32` rows too many is taken for a match; `row_count_exact_iff` says
for which bodies the comparison is exact.
-/

namespace BallotBox

open List

variable {rows : List Bytes} {said : ℕ} {body : Bytes}

/-! ## The fields of a row -/

lemma wrap32_add_one (n : ℤ) : wrap32 (wrap32 n + 1) = wrap32 (n + 1) := by
  simp [wrap32]

lemma foldl_storeField_fst (max : ℕ) (fields : List Bytes) (n : ℤ) (stored : List Bytes) :
    (fields.foldl (storeField max) (wrap32 n, stored)).1 = wrap32 (n + fields.length) := by
  induction fields generalizing n stored with
  | nil => simp
  | cons f fields ih =>
    rw [foldl_cons, storeField, wrap32_add_one, ih, length_cons]
    congr 1
    push_cast
    ring

lemma foldl_storeField (max : ℕ) (fields : List Bytes) (stored : List Bytes) (n : ℕ)
    (hint : n + fields.length < 2 ^ 31) :
    fields.foldl (storeField max) (n, stored) =
      (((n + fields.length : ℕ) : ℤ), stored ++ fields.take (max - n)) := by
  induction fields generalizing n stored with
  | nil => simp
  | cons f fields ih =>
    rw [length_cons] at hint
    have hnext : wrap32 ((n : ℤ) + 1) = ((n + 1 : ℕ) : ℤ) := by
      rw [wrap32_of_range (by omega) (by omega)]
      norm_cast
    have hstep : storeField max (n, stored) f =
        (((n + 1 : ℕ) : ℤ), if n < max then stored ++ [f] else stored) := by
      simp only [storeField, hnext, Nat.cast_lt]
    rw [foldl_cons, hstep]
    by_cases hroom : n < max
    · rw [if_pos hroom, ih _ _ (by omega)]
      obtain ⟨k, hk⟩ : ∃ k, max - n = k + 1 := ⟨max - n - 1, by omega⟩
      have hk' : max - (n + 1) = k := by omega
      simp [hk, hk', Nat.add_comm, Nat.add_left_comm]
    · rw [if_neg hroom, ih _ _ (by omega)]
      have h0 : max - n = 0 := by omega
      have h1 : max - (n + 1) = 0 := by omega
      simp [h0, h1, Nat.add_comm, Nat.add_left_comm]

/-! ## Tables -/

/-- Below its first line a rule, the first one there; then the rows, none empty; then a blank line
and a line that announces `said` rows. -/
structure Table (body : Bytes) (rows : List Bytes) (said : ℕ) : Prop where
  reading : ∃ (header : Bytes) (above : List Bytes) (rule trailer : Bytes) (below : List Bytes),
    body.splitOn lf = header :: above ++ rule :: (rows ++ [] :: trailer :: below) ∧
      (∀ l ∈ above, isRule l = false) ∧ isRule rule = true ∧ Announces trailer said
  rows_nonempty : ∀ l ∈ rows, l ≠ []

/-- The rows of a table, and the number in its trailer. -/
def readBlock : List Bytes → Option (List Bytes × ℕ)
  | [] => none
  | line :: rest =>
    if line ≠ [] then (readBlock rest).map fun t => (line :: t.1, t.2)
    else match rest with
      | [] => none
      | trailer :: _ => (readTrailer trailer).map fun said => ([], said)

/-- The first table of a body. -/
def readTable (body : Bytes) : Option (List Bytes × ℕ) := readBlock (rowsBegin body)

lemma readBlock_eq_some_iff {lines : List Bytes} :
    readBlock lines = some (rows, said) ↔ (∀ l ∈ rows, l ≠ []) ∧
      ∃ trailer below, lines = rows ++ [] :: trailer :: below ∧ Announces trailer said := by
  induction lines generalizing rows with
  | nil => simp [readBlock]
  | cons line rest ih =>
    by_cases hline : line = []
    · -- the blank line: no row can be empty, so there are none
      subst hline
      constructor
      · intro h
        cases rest with
        | nil => simp [readBlock] at h
        | cons trailer below =>
          simp only [readBlock, ne_eq, not_true_eq_false, if_false, Option.map_eq_some_iff,
            Prod.mk.injEq] at h
          obtain ⟨_, hsaid, rfl, rfl⟩ := h
          exact ⟨by simp, trailer, below, rfl, readTrailer_eq_some_iff.mp hsaid⟩
      · rintro ⟨hrows, trailer, below, hlines, hsaid⟩
        cases rows with
        | nil =>
          obtain rfl : rest = trailer :: below := by simpa using hlines
          simp [readBlock, readTrailer_eq_some_iff.mpr hsaid]
        | cons row rows =>
          obtain rfl : [] = row := (List.cons.inj hlines).1
          exact absurd rfl (hrows [] (by simp))
    · have hread : readBlock (line :: rest) = (readBlock rest).map fun t => (line :: t.1, t.2) := by
        simp [readBlock, hline]
      rw [hread, Option.map_eq_some_iff]
      constructor
      · rintro ⟨⟨rows', said'⟩, hrest, heq⟩
        obtain ⟨rfl, rfl⟩ := Prod.mk.inj heq
        obtain ⟨hrows, trailer, below, rfl, hsaid⟩ := ih.mp hrest
        exact ⟨by simpa using ⟨hline, hrows⟩, trailer, below, rfl, hsaid⟩
      · rintro ⟨hrows, trailer, below, hlines, hsaid⟩
        cases rows with
        | nil => exact absurd (List.cons.inj hlines).1 hline
        | cons row rows =>
          obtain ⟨rfl, rfl⟩ := List.cons.inj hlines
          have hrows' : ∀ l ∈ rows, l ≠ [] := fun l hl => hrows l (mem_cons_of_mem _ hl)
          exact ⟨(rows, said), ih.mpr ⟨hrows', trailer, below, rfl, hsaid⟩, rfl⟩

lemma findRule_cons (line : Bytes) (rest : List Bytes) :
    findRule (line :: rest) = if isRule line then rest else findRule rest := by
  by_cases hend : line = [] ∧ rest = []
  · obtain ⟨rfl, rfl⟩ := hend
    rfl
  · rw [findRule, if_neg hend]

lemma findRule_eq_iff {lines later : List Bytes} (hlater : later ≠ []) :
    findRule lines = later ↔ ∃ above rule, lines = above ++ rule :: later ∧
      (∀ l ∈ above, isRule l = false) ∧ isRule rule = true := by
  induction lines with
  | nil => simp [findRule, hlater.symm]
  | cons line rest ih =>
    rw [findRule_cons]
    by_cases hrule : isRule line = true
    · rw [if_pos hrule]
      constructor
      · rintro rfl
        exact ⟨[], line, rfl, by simp, hrule⟩
      · rintro ⟨above, rule, hlines, habove, -⟩
        cases above with
        | nil => exact (List.cons.inj hlines).2
        | cons l above =>
          obtain ⟨rfl, -⟩ := List.cons.inj hlines
          exact absurd hrule (by simp [habove line (by simp)])
    · rw [if_neg hrule, ih]
      constructor
      · rintro ⟨above, rule, rfl, habove, hr⟩
        exact ⟨line :: above, rule, rfl, by simpa using ⟨by simpa using hrule, habove⟩, hr⟩
      · rintro ⟨above, rule, hlines, habove, hr⟩
        cases above with
        | nil =>
          obtain ⟨rfl, -⟩ := List.cons.inj hlines
          exact absurd hr hrule
        | cons l above =>
          obtain ⟨rfl, rfl⟩ := List.cons.inj hlines
          exact ⟨above, rule, rfl, fun m hm => habove m (mem_cons_of_mem _ hm), hr⟩

lemma table_iff_rowsBegin : Table body rows said ↔ (∀ l ∈ rows, l ≠ []) ∧
      ∃ trailer below, rowsBegin body = rows ++ [] :: trailer :: below ∧
        Announces trailer said := by
  obtain ⟨header, others, hlines⟩ := exists_cons_of_ne_nil
    (show body.splitOn lf ≠ [] from splitOnP_ne_nil _ body)
  have hbegin : rowsBegin body = findRule others := by rw [rowsBegin, hlines]; rfl
  constructor
  · rintro ⟨⟨header', above, rule, trailer, below, hsplit, habove, hrule, hsaid⟩, hrows⟩
    rw [hlines] at hsplit
    refine ⟨hrows, trailer, below, ?_, hsaid⟩
    rw [hbegin, findRule_eq_iff (by simp)]
    exact ⟨above, rule, (List.cons.inj hsplit).2, habove, hrule⟩
  · rintro ⟨hrows, trailer, below, hfind, hsaid⟩
    rw [hbegin, findRule_eq_iff (by simp)] at hfind
    obtain ⟨above, rule, rfl, habove, hrule⟩ := hfind
    exact ⟨⟨header, above, rule, trailer, below, hlines, habove, hrule, hsaid⟩, hrows⟩

lemma readTable_eq_some_iff : readTable body = some (rows, said) ↔ Table body rows said := by
  rw [readTable, readBlock_eq_some_iff, table_iff_rowsBegin]

lemma Table.unique {rows' : List Bytes} {said' : ℕ}
    (h : Table body rows said) (h' : Table body rows' said') : rows = rows' ∧ said = said' := by
  rw [← readTable_eq_some_iff] at h h'
  rw [h] at h'
  exact Prod.mk.inj (Option.some.inj h')

/-! ## What the counter returns -/

lemma blockCount_eq (m : ℤ) (lines : List Bytes) :
    blockCount (wrap32 m) lines =
      match readBlock lines with
      | none => -1
      | some (rows, said) =>
        if wrap32 said = wrap32 (m + rows.length) then wrap32 (m + rows.length) else -1 := by
  induction lines generalizing m with
  | nil => rfl
  | cons line rest ih =>
    by_cases hline : line = []
    · subst hline
      cases rest with
      | nil => rfl
      | cons trailer below =>
        rcases hsaid : readTrailer trailer with _ | said
        · simp [blockCount, readBlock, trailerCount_eq, hsaid]
        · simp [blockCount, readBlock, trailerCount_eq, hsaid]
    · have hstep : blockCount (wrap32 m) (line :: rest) = blockCount (wrap32 (m + 1)) rest := by
        simp [blockCount, hline, wrap32_add_one]
      rw [hstep, ih]
      rcases hrest : readBlock rest with _ | ⟨rows, said⟩
      · simp [readBlock, hline, hrest]
      · have hlen : m + 1 + (rows.length : ℤ) = m + ((rows.length + 1 : ℕ) : ℤ) := by
          push_cast
          ring
        simp [readBlock, hline, hrest, hlen]

theorem dbRowCount_table (h : Table body rows said) :
    dbRowCount body = if wrap32 said = wrap32 rows.length then wrap32 rows.length else -1 := by
  have hread : readBlock (rowsBegin body) = some (rows, said) := readTable_eq_some_iff.mpr h
  have hcount := blockCount_eq 0 (rowsBegin body)
  simp only [hread, zero_add] at hcount
  exact hcount

theorem dbRowCount_no_table (h : ∀ rows said, ¬ Table body rows said) : dbRowCount body = -1 := by
  have hread : readBlock (rowsBegin body) = none := by
    rcases hread : readBlock (rowsBegin body) with _ | ⟨rows, said⟩
    · rfl
    · exact absurd (readTable_eq_some_iff.mp hread) (h rows said)
  have hcount := blockCount_eq 0 (rowsBegin body)
  simp only [hread] at hcount
  exact hcount

lemma dbRowFields_table (h : Table body rows said)
    (hcount : dbRowCount body = rows.length) {row : ℕ} (hrow : row < rows.length) :
    dbRowFields body row = some (rows[row].splitOn tab) := by
  obtain ⟨-, trailer, below, hbegin, -⟩ := table_iff_rowsBegin.mp h
  have hdrop : (rowsBegin body).drop row =
      rows[row] :: (rows.drop (row + 1) ++ [] :: trailer :: below) := by
    rw [hbegin, drop_append_of_le_length hrow.le, drop_eq_getElem_cons hrow]
    rfl
  simp only [dbRowFields, hcount, hdrop]
  rw [if_neg (by omega)]

lemma length_splitOn_tab (line : Bytes) : (line.splitOn tab).length = line.count tab + 1 := by
  unfold List.splitOn
  induction line with
  | nil => rfl
  | cons c line ih =>
    rw [splitOnP_cons_eq_if_modifyHead]
    by_cases hc : c = tab
    · simp [hc, ih]
    · simp [hc, ih]

/-- The trailer has the number of the rows. -/
def Consistent (body : Bytes) (n : ℕ) : Prop := ∃ rows, Table body rows n ∧ rows.length = n

/-- The counter returns `n` exactly for bodies that have `n` rows and say so, and the rows are split
at their tabs: the count is returned and as many slices as fit are stored. -/
def CountsExactly (body : Bytes) : Prop :=
  (∀ n : ℕ, dbRowCount body = n ↔ Consistent body n) ∧
    ∀ (n : ℕ) (rows : List Bytes), Table body rows n → rows.length = n →
      ∀ (row : ℕ) (hrow : row < rows.length) (max : ℕ),
        dbRowFieldsInto body row max =
          (((rows[row].count tab + 1 : ℕ) : ℤ), (rows[row].splitOn tab).take max)

/-- The numbers of a table fit an `int`, as far as they decide: a table that announces its rows has
fewer than `2 ^ 31`, and fewer fields in each; another announced number is not the same as a
non-negative `int`. -/
def FitsInt (rows : List Bytes) (said : ℕ) : Prop :=
  (said = rows.length →
    rows.length < 2 ^ 31 ∧ ∀ row ∈ rows, row.count tab + 1 < 2 ^ 31) ∧
  (said ≠ rows.length → said % 2 ^ 32 = rows.length % 2 ^ 32 → 2 ^ 31 ≤ rows.length % 2 ^ 32)

lemma wrap32_natCast (n : ℕ) :
    wrap32 n =
      if n % 2 ^ 32 < 2 ^ 31 then ((n % 2 ^ 32 : ℕ) : ℤ) else (n % 2 ^ 32 : ℕ) - 2 ^ 32 := by
  unfold wrap32 Int.bmod
  norm_num
  split_ifs <;> omega

lemma wrap32_inj_iff (n k : ℕ) : wrap32 n = wrap32 k ↔ n % 2 ^ 32 = k % 2 ^ 32 := by
  rw [wrap32_natCast, wrap32_natCast]
  split_ifs <;> omega

lemma wrap32_eq_self_iff (n : ℕ) : wrap32 n = n ↔ n < 2 ^ 31 := by
  rw [wrap32_natCast]
  split_ifs <;> omega

lemma dbRowCount_consistent (h : Table body rows rows.length) :
    dbRowCount body = rows.length ↔ rows.length < 2 ^ 31 := by
  rw [dbRowCount_table h, if_pos rfl, wrap32_eq_self_iff]

lemma dbRowFieldsInto_table (h : Table body rows rows.length)
    (hrows : rows.length < 2 ^ 31) {row : ℕ} (hrow : row < rows.length) :
    (∀ max, dbRowFieldsInto body row max =
      (((rows[row].count tab + 1 : ℕ) : ℤ), (rows[row].splitOn tab).take max)) ↔
    rows[row].count tab + 1 < 2 ^ 31 := by
  have hfields := dbRowFields_table h ((dbRowCount_consistent h).mpr hrows) hrow
  have hlen := length_splitOn_tab rows[row]
  simp only [dbRowFieldsInto, hfields]
  constructor
  · intro hmax
    have hfst := congrArg Prod.fst (hmax 0)
    have hwrap := foldl_storeField_fst 0 (rows[row].splitOn tab) 0 []
    rw [show wrap32 0 = 0 by decide, hfst, zero_add, hlen] at hwrap
    exact (wrap32_eq_self_iff _).mp hwrap.symm
  · intro hint max
    have hstore := foldl_storeField max (rows[row].splitOn tab) [] 0 (by rw [hlen]; omega)
    simpa [hlen] using hstore

/-- **When the counter is exact.**  It is for a body that is no table, and for a table whose
numbers fit an `int`. -/
theorem row_count_exact_iff (body : Bytes) :
    CountsExactly body ↔ ∀ rows said, Table body rows said → FitsInt rows said := by
  constructor
  · rintro ⟨hcount, hfields⟩ rows said htable
    constructor
    · rintro rfl
      have hrows := (dbRowCount_consistent htable).mp ((hcount _).mpr ⟨rows, htable, rfl⟩)
      refine ⟨hrows, fun line hline => ?_⟩
      obtain ⟨row, hrow, rfl⟩ := getElem_of_mem hline
      exact (dbRowFieldsInto_table htable hrows hrow).mp (hfields _ rows htable rfl row hrow)
    · intro hne hmod
      by_contra hsmall
      -- the counter returns the number of rows modulo `2 ^ 32`, which the body does not announce
      have hreturn : dbRowCount body = ((rows.length % 2 ^ 32 : ℕ) : ℤ) := by
        rw [dbRowCount_table htable, if_pos ((wrap32_inj_iff _ _).mpr hmod), wrap32_natCast,
          if_pos (by omega)]
      obtain ⟨rows', htable', hlen'⟩ := (hcount _).mp hreturn
      obtain ⟨rfl, hsaid⟩ := htable'.unique htable
      omega
  · intro hfits
    constructor
    · intro n
      constructor
      · intro hreturn
        by_cases htable : ∃ rows said, Table body rows said
        · obtain ⟨rows, said, htable⟩ := htable
          obtain ⟨hsame, hother⟩ := hfits rows said htable
          rw [dbRowCount_table htable] at hreturn
          -- a count that is not negative means that the two numbers look the same
          split_ifs at hreturn with hwrap
          have hmod := (wrap32_inj_iff _ _).mp hwrap
          rw [wrap32_natCast] at hreturn
          have heq : said = rows.length := by
            by_contra hne
            have := hother hne hmod
            rw [if_neg (by omega)] at hreturn
            omega
          have hrows := (hsame heq).1
          rw [if_pos (by omega)] at hreturn
          obtain rfl : said = n := by omega
          exact ⟨rows, htable, heq.symm⟩
        · rw [dbRowCount_no_table fun rows said h => htable ⟨rows, said, h⟩] at hreturn
          omega
      · rintro ⟨rows, htable, rfl⟩
        exact (dbRowCount_consistent htable).mpr ((hfits rows _ htable).1 rfl).1
    · rintro n rows htable rfl row hrow max
      obtain ⟨hrows, htabs⟩ := (hfits rows _ htable).1 rfl
      exact (dbRowFieldsInto_table htable hrows hrow).mpr (htabs _ (getElem_mem hrow)) max

def overflowingCount : Bytes := ascii "id\n--\n7\n\n 4294967297 rows."

/-- The trailer and the rows disagree, and the counter returns 1. -/
theorem overflowing_count_accepted :
    dbRowCount overflowingCount = 1 ∧ (∀ n, ¬ Consistent overflowingCount n) ∧
      ¬ CountsExactly overflowingCount := by
  have hread : readTable overflowingCount = some ([ascii "7"], 4294967297) := by decide +kernel
  have hcount : dbRowCount overflowingCount = 1 := by decide +kernel
  have hnone : ∀ n, ¬ Consistent overflowingCount n := by
    rintro n ⟨rows, htable, hlen⟩
    obtain ⟨rfl, rfl⟩ := htable.unique (readTable_eq_some_iff.mp hread)
    exact absurd hlen (by decide)
  exact ⟨hcount, hnone, fun h => hnone 1 ((h.1 1).mp hcount)⟩

end BallotBox
