import BallotBox.Construction.Wire

/-!
# Select replies as text

`Query.execute` prints a result as a header line, a rule of dashes, one tab-joined line per tuple, a
blank line and ` N rows.`; `libtetrisdb/socket/rows.c` takes such a text apart again.
-/

namespace BallotBox

open List

/-! ## `rows.c` -/

/-- `is_rule`: the line is not empty and all dashes. -/
def isRule (line : Bytes) : Bool := line ≠ [] && line.all (· == 45)

/-- The loop of `rows_begin`. -/
def findRule : List Bytes → List Bytes
  | [] => []
  | line :: rest =>
    if line = [] ∧ rest = [] then [] else if isRule line then rest else findRule rest

/-- `rows_begin`: the first data row, searched from the second line on. -/
def rowsBegin (body : Bytes) : List Bytes := findRule (body.splitOn lf).tail

/-- The trailer check of `block_count`, on the line after the blank line. -/
def trailerCount (n : ℤ) (trailer : Bytes) : ℤ :=
  let t := trailer.dropWhile (· = 32)
  let digits := t.takeWhile isDigit
  let said := digits.foldl (fun v c => wrap32 (v * 10 + digitVal c)) 0
  if digits = [] ∨ ¬ ascii " rows." <+: t.dropWhile isDigit then -1
  else if said = n then n else -1

/-- `block_count` from the `n`-th row on. -/
def blockCount (n : ℤ) : List Bytes → ℤ
  | [] => -1
  | line :: rest =>
    if line ≠ [] then blockCount (wrap32 (n + 1)) rest
    else match rest with
      | [] => -1
      | trailer :: _ => trailerCount n trailer

def dbRowCount (body : Bytes) : ℤ := blockCount 0 (rowsBegin body)

/-- `db_row_fields`: the fields of one row, or `none` for its `-1`. -/
def dbRowFields (body : Bytes) (row : ℕ) : Option (List Bytes) :=
  if dbRowCount body < 0 ∨ dbRowCount body ≤ row then none
  else match (rowsBegin body).drop row with
    | [] => none
    | line :: _ => some (line.splitOn tab)

/-- One round of `db_row_fields`: the field is stored if there is room, and counted in an `int`. -/
def storeField (max : ℕ) (s : ℤ × List Bytes) (field : Bytes) : ℤ × List Bytes :=
  (wrap32 (s.1 + 1), if s.1 < max then s.2 ++ [field] else s.2)

/-- `db_row_fields` into arrays of `max` entries: what it returns, and the slices it stores. -/
def dbRowFieldsInto (body : Bytes) (row max : ℕ) : ℤ × List Bytes :=
  match dbRowFields body row with
  | none => (-1, [])
  | some fields => fields.foldl (storeField max) (0, [])

/-! ## `Query.execute` -/

/-- The columns of a result: at least one, with names without NUL, line feed or `<`. -/
structure TupleDesc where
  names : List Bytes
  nonempty : names ≠ []
  plain : ∀ name ∈ names, ∀ c ∈ name, c ≠ 0 ∧ c ≠ lf ∧ c ≠ 60

/-- The header line: every name followed by a tab. -/
def TupleDesc.header (td : TupleDesc) : Bytes := td.names.flatMap (· ++ [tab])

/-- The rule under the header. -/
def TupleDesc.rule (td : TupleDesc) : Bytes :=
  List.replicate (td.header.length + td.names.length * 4) 45

def tupleLine (fields : List Bytes) : Bytes := [tab].intercalate fields

/-- The last line of a result, ` N rows.`. -/
def rowsTrailer (n : ℕ) : Bytes := 32 :: renderNat n ++ ascii " rows."

/-- The lines `Query.execute` prints. -/
def queryLines (td : TupleDesc) (rows : List (List Bytes)) : List Bytes :=
  td.header :: td.rule :: rows.map tupleLine ++ [[], rowsTrailer rows.length]

/-! ## Reading the pieces back -/

lemma foldl_wrap32 (ds : Bytes) (v w : ℤ) (h : v = wrap32 w) :
    ds.foldl (fun v c => wrap32 (v * 10 + digitVal c)) v =
      wrap32 (ds.foldl (fun w c => w * 10 + digitVal c) w) := by
  induction ds generalizing v w with
  | nil => simpa using h
  | cons c ds ih =>
    refine ih _ _ ?_
    show wrap32 (v * 10 + digitVal c) = wrap32 (w * 10 + digitVal c)
    rw [h]
    unfold wrap32
    rw [← Int.bmod_add_bmod, Int.bmod_mul_bmod, Int.bmod_add_bmod]

lemma foldl_digits_cast (ds : Bytes) (v : ℕ) : ds.foldl (fun (w : ℤ) c => w * 10 + digitVal c) v =
      (ds.foldl (fun (w : ℕ) c => w * 10 + digitVal c) v : ℕ) := by
  induction ds generalizing v with
  | nil => rfl
  | cons c ds ih =>
    rw [foldl_cons, foldl_cons, ← ih]
    simp

/-- A line that announces `said` rows: spaces, a decimal numeral, ` rows.` and anything. -/
def Announces (trailer : Bytes) (said : ℕ) : Prop :=
  ∃ (blanks : ℕ) (digits more : Bytes),
    trailer = List.replicate blanks 32 ++ (digits ++ (ascii " rows." ++ more)) ∧ digits ≠ [] ∧
      (∀ c ∈ digits, isDigit c = true) ∧ digitsValue digits = said

/-- The number a trailer announces. -/
def readTrailer (trailer : Bytes) : Option ℕ :=
  let t := trailer.dropWhile (· = 32)
  if t.takeWhile isDigit = [] ∨ ¬ ascii " rows." <+: t.dropWhile isDigit then none
  else some (digitsValue (t.takeWhile isDigit))

lemma readTrailer_eq_some_iff {trailer : Bytes} {said : ℕ} :
    readTrailer trailer = some said ↔ Announces trailer said := by
  constructor
  · intro h
    simp only [readTrailer, Option.ite_none_left_eq_some, not_or, not_not, Option.some.injEq] at h
    obtain ⟨⟨hdigits, more, hmore⟩, hsaid⟩ := h
    refine ⟨(trailer.takeWhile (· = 32)).length,
      (trailer.dropWhile (· = 32)).takeWhile isDigit, more,
      ?_, hdigits, fun c hc => mem_takeWhile_imp hc, hsaid⟩
    have hblanks : trailer.takeWhile (· = 32) =
        List.replicate (trailer.takeWhile (· = 32)).length 32 :=
      eq_replicate_iff.mpr ⟨rfl, fun c hc => by simpa using mem_takeWhile_imp hc⟩
    rw [← hblanks, hmore, takeWhile_append_dropWhile, takeWhile_append_dropWhile]
  · rintro ⟨blanks, digits, more, rfl, hne, hdigits, rfl⟩
    obtain ⟨d, ds, rfl⟩ := exists_cons_of_ne_nil hne
    have hd : d ≠ 32 := by
      rintro rfl
      exact absurd (hdigits 32 (by simp)) (by decide)
    have hdrop : (List.replicate blanks 32 ++ (d :: ds ++ (ascii " rows." ++ more))).dropWhile
        (· = 32) = d :: ds ++ (ascii " rows." ++ more) := by
      rw [dropWhile_append_of_pos (by simp)]
      simp [hd]
    have htail : (ascii " rows." ++ more).takeWhile isDigit = [] := rfl
    have hrest : (ascii " rows." ++ more).dropWhile isDigit = ascii " rows." ++ more := rfl
    simp only [readTrailer, hdrop, takeWhile_append_of_pos hdigits,
      dropWhile_append_of_pos hdigits, htail, hrest, append_nil]
    simp

/-- The trailer check compares what the trailer announces with the rows counted, as `int`s. -/
lemma trailerCount_eq (n : ℤ) (trailer : Bytes) : trailerCount n trailer =
      match readTrailer trailer with
      | none => -1
      | some said => if wrap32 said = n then n else -1 := by
  have hsaid : ∀ ds : Bytes, ds.foldl (fun v c => wrap32 (v * 10 + digitVal c)) 0 =
      wrap32 (digitsValue ds) := by
    intro ds
    rw [foldl_wrap32 ds 0 0 (by decide), show (0 : ℤ) = ((0 : ℕ) : ℤ) from rfl, foldl_digits_cast]
    rfl
  simp only [trailerCount, readTrailer, hsaid]
  by_cases h : (trailer.dropWhile (· = 32)).takeWhile isDigit = [] ∨
      ¬ ascii " rows." <+: (trailer.dropWhile (· = 32)).dropWhile isDigit
  · rw [if_pos h, if_pos h]
  · rw [if_neg h, if_neg h]

lemma announces_rowsTrailer (m : ℕ) : Announces (rowsTrailer m) m :=
  ⟨1, renderNat m, [], by simp [rowsTrailer], renderNat_ne_nil m,
    fun _ hc => isDigit_of_mem_renderNat hc, digitsValue_renderNat m⟩

/-- The count a trailer announces, as `block_count` computes it. -/
lemma trailerCount_rowsTrailer (n : ℤ) (m : ℕ) :
    trailerCount n (rowsTrailer m) = if wrap32 m = n then n else -1 := by
  rw [trailerCount_eq, readTrailer_eq_some_iff.mpr (announces_rowsTrailer m)]

lemma trailerCount_eq_or (n : ℤ) (trailer : Bytes) :
    trailerCount n trailer = -1 ∨ trailerCount n trailer = n := by
  unfold trailerCount
  dsimp only
  split_ifs <;> simp

/-- The counter passes over non-empty lines, counting them in an `int`. -/
lemma blockCount_append {n : ℤ} (hn : wrap32 n = n) {lines : List Bytes}
    (hlines : ∀ l ∈ lines, l ≠ []) (rest : List Bytes) :
    blockCount n (lines ++ rest) = blockCount (wrap32 (n + lines.length)) rest := by
  induction lines generalizing n with
  | nil => simp [hn]
  | cons l lines ih =>
    have hl : l ≠ [] := hlines l (by simp)
    have hstep : wrap32 (wrap32 (n + 1)) = wrap32 (n + 1) := by simp [wrap32]
    simp only [cons_append, blockCount, hl, ne_eq, not_false_eq_true, if_true]
    rw [ih hstep fun m hm => hlines m (mem_cons_of_mem _ hm)]
    congr 1
    simp only [wrap32, Int.bmod_add_bmod, length_cons]
    push_cast
    ring_nf

/-- At a blank line the counter gives up, or returns what it has counted so far. -/
lemma blockCount_blank (n : ℤ) (rest : List Bytes) :
    blockCount n ([] :: rest) = -1 ∨ blockCount n ([] :: rest) = n := by
  cases rest with
  | nil => simp [blockCount]
  | cons t rest => simpa [blockCount] using trailerCount_eq_or n t

lemma blockCount_lt {n : ℤ} (hn : n < 2 ^ 31) (lines : List Bytes) :
    blockCount n lines < 2 ^ 31 := by
  induction lines generalizing n with
  | nil => simp [blockCount]
  | cons l lines ih =>
    by_cases hl : l = []
    · subst hl
      rcases blockCount_blank n lines with h | h <;> rw [h]
      · norm_num
      · exact hn
    · simpa [blockCount, hl] using ih (wrap32_range (n + 1)).2

/-- The counter counts no more rows than there are lines. -/
lemma blockCount_le {n : ℤ} (hn : 0 ≤ n) (lines : List Bytes) (hint : n + lines.length < 2 ^ 31) :
    blockCount n lines ≤ n + lines.length := by
  induction lines generalizing n with
  | nil =>
    simp only [blockCount, length_nil]
    omega
  | cons l lines ih =>
    rw [length_cons] at hint ⊢
    push_cast at hint ⊢
    by_cases hl : l = []
    · subst hl
      rcases blockCount_blank n lines with h | h <;> rw [h] <;> omega
    · have hstep := ih (n := n + 1) (by omega) (by omega)
      simp only [blockCount, hl, ne_eq, not_false_eq_true, if_true]
      rw [wrap32_of_range (by omega) (by omega)]
      omega

lemma tupleLine_ne_nil {fields : List Bytes} (hne : fields ≠ []) (h : fields ≠ [[]]) :
    tupleLine fields ≠ [] := by
  match fields, hne, h with
  | [f], _, h => simpa [tupleLine] using h
  | f :: g :: fs, _, _ => simp [tupleLine, List.intercalate, List.intersperse]

/-- A row line splits into the row's fields. -/
lemma splitOn_tupleLine {fields : List Bytes} (hne : fields ≠ []) (h : ∀ f ∈ fields, tab ∉ f) :
    (tupleLine fields).splitOn tab = fields :=
  splitOn_intercalate tab h hne

/-- The bytes of a row line are those of its fields, and tabs. -/
lemma mem_tupleLine {fields : List Bytes} {c : UInt8} (h : c ∈ tupleLine fields) :
    c = tab ∨ ∃ f ∈ fields, c ∈ f := by
  cases fields with
  | nil => simp [tupleLine] at h
  | cons f fs =>
    rw [tupleLine, intercalate_cons_eq, mem_append, mem_flatMap] at h
    rcases h with h | ⟨g, hg, hc⟩
    · exact .inr ⟨f, by simp, h⟩
    · rcases mem_cons.mp hc with rfl | hc
      · exact .inl rfl
      · exact .inr ⟨g, by simp [hg], hc⟩

end BallotBox
