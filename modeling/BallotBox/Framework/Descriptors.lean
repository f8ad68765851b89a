import BallotBox.Framework.Bytes

/-!
# Descriptors that move parts

A call of `read` or `write` moves at least one byte, is interrupted, or fails.  A `Source` is what
is left of a stream with the answers to the next calls, a `Sink` what has been sent; after the last
answer a call moves everything.
-/

namespace BallotBox

open List

/-- An answer of the operating system: up to `more + 1` bytes are moved, or none. -/
inductive Transfer
  | upTo (more : ℕ)
  | interrupted
  | failed
deriving DecidableEq

/-- What a call returns: what it moved, or why it moved nothing. -/
inductive Moved (α : Type)
  | moved (a : α)
  | interrupted
  | failed

/-! ## Reading -/

/-- A descriptor to read from. -/
structure Source where
  stream : Bytes
  answers : List Transfer

namespace Source

/-- The next `n` bytes. -/
def advance (stream : Bytes) (answers : List Transfer) (n : ℕ) : Moved Bytes × Source :=
  (.moved (stream.take n), ⟨stream.drop n, answers⟩)

/-- `read` for `len` bytes. -/
def read (fd : Source) (len : ℕ) : Moved Bytes × Source :=
  match fd.answers with
  | [] => advance fd.stream [] len
  | .upTo more :: answers => advance fd.stream answers (min (more + 1) len)
  | .interrupted :: answers => (.interrupted, ⟨fd.stream, answers⟩)
  | .failed :: answers => (.failed, ⟨fd.stream, answers⟩)

/-- The outcome of a call that asks for something. -/
inductive Read (fd : Source) (len : ℕ) : Moved Bytes × Source → Prop
  | chunk {chunk : Bytes} {fd' : Source} (hstream : fd.stream = chunk ++ fd'.stream)
      (hfits : chunk.length ≤ len) (hend : chunk = [] → fd.stream = [])
      (hcount : fd'.answers.length ≤ fd.answers.length) (hanswers : fd'.answers ⊆ fd.answers) :
      Read fd len (.moved chunk, fd')
  | interrupted {fd' : Source} (hstream : fd'.stream = fd.stream)
      (hcount : fd'.answers.length < fd.answers.length) (hanswers : fd'.answers ⊆ fd.answers) :
      Read fd len (.interrupted, fd')
  | failed {fd' : Source} (hfailed : Transfer.failed ∈ fd.answers) : Read fd len (.failed, fd')

lemma read_cases (fd : Source) {len : ℕ} (hlen : 0 < len) : Read fd len (fd.read len) := by
  obtain ⟨stream, answers⟩ := fd
  have hchunk {n : ℕ} (hpos : 0 < n) (hn : n ≤ len) {rest : List Transfer}
      (hcount : rest.length ≤ answers.length) (hsub : rest ⊆ answers) :
      Read ⟨stream, answers⟩ len (advance stream rest n) := by
    refine .chunk (take_append_drop n stream).symm ?_ (fun hnil => ?_) hcount hsub
    · exact (length_take_le n stream).trans hn
    · simpa [hpos.ne'] using hnil
  cases answers with
  | nil => exact hchunk hlen le_rfl le_rfl (List.Subset.refl _)
  | cons answer answers =>
    have hless : answers.length < (answer :: answers).length := by simp
    have hsub : answers ⊆ answer :: answers := subset_cons_self answer answers
    cases answer with
    | upTo more => exact hchunk (by omega) (min_le_right _ _) hless.le hsub
    | interrupted => exact .interrupted rfl hless hsub
    | failed => exact .failed mem_cons_self

end Source

/-! ## Writing -/

/-- A descriptor to write to. -/
structure Sink where
  sent : Bytes
  answers : List Transfer

namespace Sink

/-- Sends the first `n` bytes. -/
def accept (fd : Sink) (answers : List Transfer) (src : Bytes) (n : ℕ) : Moved ℕ × Sink :=
  (.moved n, ⟨fd.sent ++ src.take n, answers⟩)

/-- `write` of these bytes. -/
def write (fd : Sink) (src : Bytes) : Moved ℕ × Sink :=
  match fd.answers with
  | [] => fd.accept [] src src.length
  | .upTo more :: answers => fd.accept answers src (min (more + 1) src.length)
  | .interrupted :: answers => (.interrupted, ⟨fd.sent, answers⟩)
  | .failed :: answers => (.failed, ⟨fd.sent, answers⟩)

/-- The outcome of a call that has something to write. -/
inductive Wrote (fd : Sink) (src : Bytes) : Moved ℕ × Sink → Prop
  | chunk {n : ℕ} {fd' : Sink} (hpos : 0 < n) (hfits : n ≤ src.length)
      (hsent : fd'.sent = fd.sent ++ src.take n) (hcount : fd'.answers.length ≤ fd.answers.length)
      (hanswers : fd'.answers ⊆ fd.answers) : Wrote fd src (.moved n, fd')
  | interrupted {fd' : Sink} (hsent : fd'.sent = fd.sent)
      (hcount : fd'.answers.length < fd.answers.length) (hanswers : fd'.answers ⊆ fd.answers) :
      Wrote fd src (.interrupted, fd')
  | failed {fd' : Sink} (hfailed : Transfer.failed ∈ fd.answers) : Wrote fd src (.failed, fd')

lemma write_cases (fd : Sink) {src : Bytes} (hsrc : src ≠ []) : Wrote fd src (fd.write src) := by
  have hlen : 0 < src.length := length_pos_iff.mpr hsrc
  obtain ⟨sent, answers⟩ := fd
  cases answers with
  | nil => exact .chunk hlen le_rfl rfl le_rfl (List.Subset.refl _)
  | cons answer answers =>
    have hless : answers.length < (answer :: answers).length := by simp
    have hsub : answers ⊆ answer :: answers := subset_cons_self answer answers
    cases answer with
    | upTo more => exact .chunk (by omega) (min_le_right _ _) rfl hless.le hsub
    | interrupted => exact .interrupted rfl hless hsub
    | failed => exact .failed mem_cons_self

end Sink

end BallotBox
