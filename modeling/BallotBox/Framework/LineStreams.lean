import BallotBox.Framework.Bytes

/-!
# Streams of lines

A stream of bytes is a sequence of lines, each closed by a line feed, and a rest that is not a line
yet.  `line_induction` is the induction over `completeLines`.
-/

namespace BallotBox

open List

/-- The lines of a stream whose line feed is part of the stream. -/
def completeLines (stream : Bytes) : List Bytes := (stream.splitOn lf).dropLast

lemma completeLines_unfinished {s : Bytes} (hs : lf ∉ s) : completeLines s = [] := by
  rw [completeLines, splitOn_eq_singleton hs]
  rfl

lemma completeLines_line {line : Bytes} (hline : lf ∉ line) (rest : Bytes) :
    completeLines (line ++ lf :: rest) = line :: completeLines rest := by
  have hne : rest.splitOn lf ≠ [] := splitOnP_ne_nil _ rest
  rw [completeLines, splitOn_append_cons hline, dropLast_cons_of_ne_nil hne]
  rfl

/-- Induction along the lines of a stream. -/
theorem line_induction {motive : Bytes → Prop} (unfinished : ∀ s, lf ∉ s → motive s)
    (line : ∀ l rest, lf ∉ l → motive rest → motive (l ++ lf :: rest)) (s : Bytes) : motive s := by
  induction hn : s.length using Nat.strong_induction_on generalizing s with
  | _ n ih =>
    by_cases hs : lf ∈ s
    · obtain ⟨l, rest, rfl, hl⟩ := eq_append_cons_of_mem hs
      refine line l rest hl (ih rest.length ?_ rest rfl)
      simp only [← hn, length_append, length_cons]
      omega
    · exact unfinished s hs

lemma exists_eq_unlines (s : Bytes) : ∃ rest, s = unlines (completeLines s) ++ rest ∧
    lf ∉ rest := by
  induction s using line_induction with
  | unfinished s hs => exact ⟨s, by simp [completeLines_unfinished hs], hs⟩
  | line l rest hl ih =>
    obtain ⟨tail, hrest, htail⟩ := ih
    refine ⟨tail, ?_, htail⟩
    rw [completeLines_line hl, unlines_cons, append_assoc, cons_append, ← hrest]

lemma lf_notMem_of_mem_completeLines {s l : Bytes} (h : l ∈ completeLines s) : lf ∉ l :=
  not_mem_of_mem_splitOn (mem_of_mem_dropLast h)

lemma completeLines_unlines_append {ls : List Bytes} (hls : ∀ l ∈ ls, lf ∉ l) (rest : Bytes) :
    completeLines (unlines ls ++ rest) = ls ++ completeLines rest := by
  induction ls with
  | nil => rfl
  | cons l ls ih =>
    have hl : lf ∉ l := hls l (by simp)
    rw [unlines_cons, append_assoc, cons_append, completeLines_line hl,
      ih fun m hm => hls m (mem_cons_of_mem _ hm)]
    rfl

lemma unlines_inj {ls ls' : List Bytes} (hls : ∀ l ∈ ls, lf ∉ l) (hls' : ∀ l ∈ ls', lf ∉ l)
    (h : unlines ls = unlines ls') : ls = ls' := by
  have hlines {ls : List Bytes} (hls : ∀ l ∈ ls, lf ∉ l) : completeLines (unlines ls) = ls := by
    simpa [completeLines_unfinished] using completeLines_unlines_append hls []
  rw [← hlines hls, h, hlines hls']

lemma length_completeLines_le (s : Bytes) : (completeLines s).length ≤ s.length := by
  obtain ⟨rest, hs, -⟩ := exists_eq_unlines s
  have hcount := length_le_length_unlines (completeLines s)
  have hlen := congrArg List.length hs
  rw [length_append] at hlen
  omega

/-! ## Cutting lines into pieces -/

/-- How many pieces of `k` bytes a line takes. -/
def pieceCount (k : ℕ) (line : Bytes) : ℕ := max 1 ((line.length + k - 1) / k)

/-- A line, in consecutive pieces of `k` bytes. -/
def pieces (k : ℕ) (line : Bytes) : List Bytes :=
  (List.range (pieceCount k line)).map fun i => (line.drop (i * k)).take k

lemma length_pieces (k : ℕ) (line : Bytes) : (pieces k line).length = pieceCount k line := by
  simp [pieces]

lemma pieceCount_eq_one_iff {k : ℕ} (hk : 0 < k) (line : Bytes) :
    pieceCount k line = 1 ↔ line.length ≤ k := by
  have hdiv : (line.length + k - 1) / k < 2 ↔ line.length + k - 1 < 2 * k :=
    Nat.div_lt_iff_lt_mul hk
  unfold pieceCount
  omega

lemma pieces_of_le {k : ℕ} (hk : 0 < k) {line : Bytes} (h : line.length ≤ k) :
    pieces k line = [line] := by
  rw [pieces, (pieceCount_eq_one_iff hk line).mpr h]
  simp [take_of_length_le h]

lemma flatten_pieces {k : ℕ} (hk : 0 < k) (line : Bytes) : (pieces k line).flatten = line := by
  have htake : ∀ n, ((List.range n).map fun i => (line.drop (i * k)).take k).flatten =
      line.take (n * k) := by
    intro n
    induction n with
    | zero => simp
    | succ n ih =>
      rw [range_succ, map_append, flatten_append, ih, Nat.succ_mul, take_add]
      simp
  rw [pieces, htake]
  refine take_of_length_le ?_
  have hcover : line.length ≤ (line.length + k - 1) / k * k := by
    have := Nat.div_add_mod (line.length + k - 1) k
    have := Nat.mod_lt (line.length + k - 1) hk
    rw [Nat.mul_comm]
    omega
  exact hcover.trans (Nat.mul_le_mul_right k (le_max_right _ _))

end BallotBox
