import BallotBox.Properties.ResponseRoundTrips

/-!
# The counts a decoded response announces

A response body claims two counts, `tally_count=` and `hash_count=`.  `bcl_decode_response` cuts a
claimed number of rows to the rows that arrived, a claimed number of options only to the size of the
array.
-/

namespace BallotBox

open List

/-! ## What is in a body -/

/-- The option lines of a body. -/
def optionLines (body : Bytes) : ℕ := (bodyKvs body).countP fun kv => kv.1 = ascii "result_option"

/-- The row lines of a body that can be read. -/
def rowLines (body : Bytes) : ℕ :=
  (bodyKvs body).countP fun kv => kv.1 = ascii "row" && (scanRow kv.2).isSome

/-- The number of options that the last `tally_count` line claims. -/
def claimedOptions (body : Bytes) : ℤ :=
  ((bodyKvs body).reverse.find? fun kv => kv.1 = ascii "tally_count").elim 0 fun kv => atoi kv.2

/-- What the decoder leaves, whether it succeeds or not. -/
def decodedResponse (body : Bytes) : BclResponse := ((bodyKvs body).foldl responseKv default).clamp

/-! ## The numbers that matter -/

/-- The three counts of the decoder. -/
def RespCtx.tables (c : RespCtx) : ℤ × ℕ × ℕ :=
  (c.optionCount, c.resultOptions, c.resp.hashes.length)

/-- What a line does to the counts. -/
def tablesKv : ℤ × ℕ × ℕ → Bytes × Bytes → ℤ × ℕ × ℕ
  | (claimed, options, rows), (k, v) =>
    if k = ascii "tally_count" then (atoi v, options, rows)
    else if k = ascii "result_option" then
      (claimed, if options < bbMaxOptions then options + 1 else options, rows)
    else if k = ascii "row" ∧ (scanRow v).isSome = true then
      (claimed, options, if rows < bbMaxVoters then rows + 1 else rows)
    else (claimed, options, rows)

lemma tables_ite {p : Prop} [Decidable p] {c c' : RespCtx} {t : ℤ × ℕ × ℕ} (h : p → c.tables = t)
    (h' : ¬ p → c'.tables = t) : (if p then c else c').tables = t := by
  split_ifs with hp
  · exact h hp
  · exact h' hp

lemma tables_responseKv (c : RespCtx) (kv : Bytes × Bytes) :
    (responseKv c kv).tables = tablesKv c.tables kv := by
  obtain ⟨k, v⟩ := kv
  by_cases hcount : k = ascii "tally_count"
  · subst hcount
    rfl
  by_cases hoption : k = ascii "result_option"
  · subst hoption
    have hkey : responseKv c (ascii "result_option", v) =
        if c.resultOptions < bbMaxOptions then
          { c with
            resp := { c.resp with
              options := c.resp.options.setIfInBounds c.resultOptions (.ofBytes v) }
            resultOptions := c.resultOptions + 1 }
        else c := rfl
    rw [hkey]
    refine tables_ite (fun hroom => ?_) fun hroom => ?_
    · simp [tablesKv, RespCtx.tables, hroom, hcount]
    · simp [tablesKv, RespCtx.tables, hroom, hcount]
  by_cases hrow : k = ascii "row"
  · subst hrow
    rw [responseKv_row]
    cases hscan : scanRow v with
    | none => simp [tablesKv, RespCtx.tables, hcount, hoption, hscan]
    | some h =>
      refine tables_ite (fun hroom => ?_) fun hroom => ?_
      · simp [tablesKv, RespCtx.tables, hroom, hcount, hoption, hscan]
      · simp [tablesKv, RespCtx.tables, hroom, hcount, hoption, hscan]
  · have hother : tablesKv c.tables (k, v) = c.tables := by
      simp [tablesKv, RespCtx.tables, hcount, hoption, hrow]
    rw [hother]
    unfold responseKv
    simp only [if_neg hcount, if_neg hoption, if_neg hrow]
    repeat' (apply tables_ite <;> intro _)
    all_goals first
      | rfl
      | cases resultFromName v <;> rfl
      | cases stateFromName v <;> rfl

lemma tables_foldl (kvs : List (Bytes × Bytes)) (claimed : ℤ) {options rows : ℕ}
    (hoptions : options ≤ bbMaxOptions) (hrows : rows ≤ bbMaxVoters) :
    kvs.foldl tablesKv (claimed, options, rows) =
      ((kvs.reverse.find? fun kv => kv.1 = ascii "tally_count").elim claimed fun kv => atoi kv.2,
        min bbMaxOptions (options + kvs.countP fun kv => kv.1 = ascii "result_option"),
        min bbMaxVoters
          (rows + kvs.countP fun kv => kv.1 = ascii "row" && (scanRow kv.2).isSome)) := by
  induction kvs generalizing claimed options rows with
  | nil => simp [hoptions, hrows]
  | cons kv kvs ih =>
    obtain ⟨k, v⟩ := kv
    rw [foldl_cons]
    by_cases hcount : k = ascii "tally_count"
    · subst hcount
      have hoption : ascii "tally_count" ≠ ascii "result_option" := by decide
      have hrow : ascii "tally_count" ≠ ascii "row" := by decide
      rw [show tablesKv (claimed, options, rows) (ascii "tally_count", v) =
        (atoi v, options, rows) from rfl, ih _ hoptions hrows]
      cases hlast : kvs.reverse.find? fun kv => kv.1 = ascii "tally_count" with
      | none => simp [find?_append, hlast, hoption, hrow]
      | some kv => simp [find?_append, hlast, hoption, hrow]
    by_cases hoption : k = ascii "result_option"
    · subst hoption
      have hrow : ascii "result_option" ≠ ascii "row" := by decide
      have hstep : (if options < bbMaxOptions then options + 1 else options) ≤ bbMaxOptions := by
        split_ifs <;> omega
      have hadd (n : ℕ) : min bbMaxOptions ((if options < bbMaxOptions then options + 1
          else options) + n) = min bbMaxOptions (options + (n + 1)) := by
        split_ifs <;> omega
      rw [tablesKv, if_neg hcount, if_pos rfl, ih _ hstep hrows]
      simp [find?_append, hcount, hrow, hadd]
    by_cases hrow : k = ascii "row" ∧ (scanRow v).isSome = true
    · have hstep : (if rows < bbMaxVoters then rows + 1 else rows) ≤ bbMaxVoters := by
        split_ifs <;> omega
      have hadd (n : ℕ) : min bbMaxVoters ((if rows < bbMaxVoters then rows + 1 else rows) + n) =
          min bbMaxVoters (rows + (n + 1)) := by
        split_ifs <;> omega
      rw [tablesKv, if_neg hcount, if_neg hoption, if_pos hrow, ih _ hoptions hstep]
      obtain ⟨rfl, hscan⟩ := hrow
      simp [find?_append, hcount, hoption, hscan, hadd]
    · rw [tablesKv, if_neg hcount, if_neg hoption, if_neg hrow, ih _ hoptions hrows]
      simp [find?_append, hcount, hoption, hrow]

/-! ## What a decoded response announces -/

/-- A C string within its buffer. -/
def Terminated {n : ℕ} (s : CStr n) : Prop := (0 : UInt8) ∉ s.bytes ∧ s.bytes.length < n

lemma terminated {n : ℕ} (s : CStr n) (hn : 0 < n) : Terminated s :=
  ⟨s.noNul, s.fits.trans_lt (by omega)⟩

/-- A response does not announce more than the body carries. -/
structure Announced (body : Bytes) (resp : BclResponse) : Prop where
  rows_le : resp.hashes.length ≤ bbMaxVoters
  rows : resp.hashes.length ≤ rowLines body
  options_le : resp.optionCount ≤ bbMaxOptions
  options : resp.optionCount ≤ optionLines body
  electionOptions_le : resp.election.optionCount ≤ bbMaxOptions
  hashes : ∀ h ∈ resp.hashes, Terminated h.hash
  names : ∀ o ∈ resp.options.toList ++ resp.election.options.toList, Terminated o
  title : Terminated resp.election.title

lemma bclDecodeResponse_eq {http : HtttpResponse} {out : BclResponse}
    (h : bclDecodeResponse http = some out) : out = decodedResponse http.body := by
  unfold bclDecodeResponse at h
  dsimp only at h
  split_ifs at h
  exact (Option.some.inj h).symm

lemma announced_decodedResponse_iff (body : Bytes) : Announced body (decodedResponse body) ↔
      claimedOptions body < 0 ∨ bbMaxOptions < claimedOptions body ∨
        claimedOptions body ≤ optionLines body := by
  obtain ⟨c, hc⟩ : ∃ c, c = (bodyKvs body).foldl responseKv default := ⟨_, rfl⟩
  have htables : c.tables = (claimedOptions body, min bbMaxOptions (optionLines body),
      min bbMaxVoters (rowLines body)) := by
    have hfold : (bodyKvs body).foldl tablesKv (default : RespCtx).tables = c.tables := by
      rw [hc]
      exact foldl_hom RespCtx.tables fun c kv => (tables_responseKv c kv).symm
    rw [← hfold, show (default : RespCtx).tables = (0, 0, 0) from rfl,
      tables_foldl _ _ (Nat.zero_le _) (Nat.zero_le _), Nat.zero_add, Nat.zero_add]
    rfl
  obtain ⟨hclaimed, hoptions, hrows⟩ : c.optionCount = claimedOptions body ∧
      c.resultOptions = min bbMaxOptions (optionLines body) ∧
      c.resp.hashes.length = min bbMaxVoters (rowLines body) := by
    simpa [RespCtx.tables] using htables
  rw [decodedResponse, ← hc]
  have hhashes : c.clamp.hashes.length ≤ c.resp.hashes.length := by
    unfold RespCtx.clamp
    dsimp only
    split_ifs
    · exact le_rfl
    · exact length_take_le' _ _
  have hcount : c.clamp.optionCount = if c.optionCount < 0 ∨ bbMaxOptions < c.optionCount then
      c.resultOptions else c.optionCount.toNat := rfl
  rw [hclaimed, hoptions] at hcount
  constructor
  · intro h
    have hlines := h.options
    rw [hcount] at hlines
    split_ifs at hlines <;> omega
  · intro h
    refine ⟨by omega, by omega, ?_, ?_, c.clamp.election.optionCount_le, ?_, ?_, ?_⟩
    · rw [hcount]
      split_ifs <;> omega
    · rw [hcount]
      split_ifs <;> omega
    · exact fun h _ => terminated h.hash (by decide)
    · exact fun o _ => terminated o (by decide)
    · exact terminated _ (by decide)

/-- **Announced counts.**  What a decode leaves behind, and returns if it succeeds, does not
announce more than the body carries, if and only if the claimed number of options is out of range or
not more than the options there are. -/
theorem announced_iff (http : HtttpResponse) :
    (∀ out, bclDecodeResponse http = some out → out = decodedResponse http.body) ∧
    (Announced http.body (decodedResponse http.body) ↔
      claimedOptions http.body < 0 ∨ bbMaxOptions < claimedOptions http.body ∨
        claimedOptions http.body ≤ optionLines http.body) :=
  ⟨fun _ => bclDecodeResponse_eq, announced_decodedResponse_iff http.body⟩

/-- Five options are announced, and none is there. -/
theorem five_options_announced :
    bclDecodeResponse ⟨200, [], ascii "status=BB_OK\ntally_count=5\n"⟩ =
      some (decodedResponse (ascii "status=BB_OK\ntally_count=5\n")) ∧
    (decodedResponse (ascii "status=BB_OK\ntally_count=5\n")).optionCount = 5 ∧
    optionLines (ascii "status=BB_OK\ntally_count=5\n") = 0 ∧
    ¬ Announced (ascii "status=BB_OK\ntally_count=5\n")
      (decodedResponse (ascii "status=BB_OK\ntally_count=5\n")) := by
  have hcount : (decodedResponse (ascii "status=BB_OK\ntally_count=5\n")).optionCount = 5 := by
    decide +kernel
  have hlines : optionLines (ascii "status=BB_OK\ntally_count=5\n") = 0 := by decide +kernel
  refine ⟨by decide +kernel, hcount, hlines, fun h => ?_⟩
  have := h.options
  omega

end BallotBox
