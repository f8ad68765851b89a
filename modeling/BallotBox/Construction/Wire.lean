import BallotBox.Framework.Decimal

/-!
# The line protocol of the database runner

`libtetrisdb/wire.c`: replies are read line by line until a line that starts with `<<END `.
`DbWire` is the unread part of the buffer and the results the next calls of `poll` and `read` will
have.
-/

namespace BallotBox

open List

inductive DbStatus
  | ok | retry | error | timeout | io
deriving DecidableEq, Repr

/-- An answer to the reader: these bytes (none at end of file), nothing yet (`EINTR`, `EAGAIN`,
`EWOULDBLOCK`), the deadline passed, or the descriptor broke. -/
inductive ReadEvent
  | data (bytes : Bytes)
  | again
  | late
  | io
deriving DecidableEq

/-- `db_wire_t`: the unread buffer contents `buf[pos .. len)`, and the answers still to come. -/
structure DbWire where
  buffered : Bytes
  events : List ReadEvent
deriving DecidableEq

/-- What `db_wire_line` returns: `DB_WIRE_LINE` with the line, or why there is none. -/
inductive LineResult
  | line (bytes : Bytes)
  | eof
  | io
  | late
deriving DecidableEq

/-- The inner loop of `db_wire_line`: moves buffered bytes to `out` up to a line feed. The second
component is what stays buffered, `none` if the buffer ran out. -/
def scanBuffer (cap : ℕ) (out : Bytes) : Bytes → Bytes × Option Bytes
  | [] => (out, none)
  | c :: buf =>
    if c = lf then (out, some buf)
    else scanBuffer cap (if out.length + 1 < cap then out ++ [c] else out) buf

/-- The outer loop of `db_wire_line`, with the line read so far and the buffer. -/
def lineLoop (cap : ℕ) (out buffered : Bytes) (events : List ReadEvent) : LineResult × DbWire :=
  match scanBuffer cap out buffered with
  | (line, some rest) => (.line (cstr line), ⟨rest, events⟩)
  | (out', none) =>
    match events with
    | [] => (.eof, ⟨[], []⟩)
    | .data bytes :: events =>
      if bytes = [] then (.eof, ⟨[], events⟩) else lineLoop cap out' bytes events
    | .again :: events => lineLoop cap out' [] events
    | .late :: events => (.late, ⟨[], events⟩)
    | .io :: events => (.io, ⟨[], events⟩)
termination_by structural events

/-- `db_wire_line` into a `char[cap]`. -/
def dbWireLine (w : DbWire) (cap : ℕ) : LineResult × DbWire := lineLoop cap [] w.buffered w.events

/-! ## Replies -/

/-- `DB_BODY_MAX`, the size of the line buffer in `db_wire_response`. -/
def dbBodyMax : ℕ := 1024

def dbMarkEnd : Bytes := ascii "<<END "

def dbMarkOk : Bytes := ascii "<<END ok>>"

def dbMarkRetry : Bytes := ascii "<<END retry>>"

/-- The marker the runner writes for a failed statement. -/
def dbMarkError : Bytes := ascii "<<END error>>"

/-- `classify`: which marker a line starting with `<<END ` is. -/
def classify (line : Bytes) : DbStatus :=
  if line = dbMarkOk then .ok else if line = dbMarkRetry then .retry else .error

/-- Appends a line to the body, after a line feed unless the body is empty, cut to the capacity; 0
stands for a `NULL` body. -/
def appendLine (cap : ℕ) (body line : Bytes) : Bytes :=
  if body.length + 1 < cap then
    body ++ ((if body = [] then [] else [lf]) ++ line).take (cap - body.length - 1)
  else body

/-- The bytes a reader has been promised, which bounds the number of lines it can still return. -/
def DbWire.promised (w : DbWire) : ℕ :=
  w.buffered.length + (w.events.map fun | .data bytes => bytes.length | _ => 0).sum

/-- The loop of `db_wire_response`. A round consumes a line feed, so `promised w + 1` rounds are
enough. -/
def responseLoop (cap : ℕ) : ℕ → DbWire → Bytes → (DbStatus × Bytes) × DbWire
  | 0, w, body => ((.io, body), w)
  | rounds + 1, w, body =>
    match dbWireLine w dbBodyMax with
    | (.late, w') => ((.timeout, body), w')
    | (.eof, w') => ((.io, body), w')
    | (.io, w') => ((.io, body), w')
    | (.line line, w') =>
      if dbMarkEnd <+: line then ((classify line, body), w')
      else responseLoop cap rounds w' (appendLine cap body line)

/-- `db_wire_response` into a body of `cap` bytes. -/
def dbWireResponse (w : DbWire) (cap : ℕ) : (DbStatus × Bytes) × DbWire :=
  responseLoop cap (w.promised + 1) w []

/-! ## What the reader can deliver -/

/-- The bytes that arrive before the first failure or end of file. -/
def arriving : List ReadEvent → Bytes
  | [] => []
  | .data bytes :: events => if bytes = [] then [] else bytes ++ arriving events
  | .again :: events => arriving events
  | .late :: _ => []
  | .io :: _ => []

/-- Everything a reader can still deliver. -/
def DbWire.readable (w : DbWire) : Bytes := w.buffered ++ arriving w.events

lemma arriving_length_le (events : List ReadEvent) :
    (arriving events).length ≤ (events.map fun | .data bytes => bytes.length | _ => 0).sum := by
  induction events with
  | nil => simp [arriving]
  | cons e events ih =>
    cases e with
    | data bytes =>
      by_cases hb : bytes = []
      · simp [arriving, hb]
      · simpa [arriving, hb] using ih
    | again => simpa [arriving] using ih
    | late => simp [arriving]
    | io => simp [arriving]

lemma DbWire.readable_length_le (w : DbWire) : w.readable.length ≤ w.promised := by
  simpa [DbWire.readable, DbWire.promised] using arriving_length_le w.events

/-- The buffer loop takes everything before the first line feed, cut to the capacity. -/
lemma scanBuffer_eq {cap : ℕ} {out : Bytes} (hout : out.length ≤ cap - 1) (buf : Bytes) :
    scanBuffer cap out buf =
      ((out ++ buf.takeWhile (· ≠ lf)).take (cap - 1), (buf.dropWhile (· ≠ lf)).tail?) := by
  induction buf generalizing out with
  | nil => simp [scanBuffer, take_of_length_le hout]
  | cons c buf ih =>
    by_cases hc : c = lf
    · simp [scanBuffer, hc, take_of_length_le hout]
    · simp only [scanBuffer, hc, if_false]
      split_ifs with hroom
      · rw [ih (by simp; omega)]
        simp [hc]
      · have hfull : out.length = cap - 1 := by omega
        rw [ih hout, ← hfull, take_left, take_left]
        simp [hc]

lemma scanBuffer_line {cap : ℕ} {out line : Bytes} (hline : lf ∉ line)
    (hout : out.length ≤ cap - 1) (rest : Bytes) :
    scanBuffer cap out (line ++ lf :: rest) = ((out ++ line).take (cap - 1), some rest) := by
  have hall : ∀ c ∈ line, (c ≠ lf : Bool) = true := fun c hc => by
    simpa using fun h : c = lf => hline (h ▸ hc)
  rw [scanBuffer_eq hout, takeWhile_append_of_pos (by simpa using hall),
    dropWhile_append_of_pos (by simpa using hall)]
  simp

lemma scanBuffer_noLine {cap : ℕ} {out buf : Bytes} (hbuf : lf ∉ buf)
    (hout : out.length ≤ cap - 1) :
    scanBuffer cap out buf = ((out ++ buf).take (cap - 1), none) := by
  have hall : ∀ c ∈ buf, (c ≠ lf : Bool) = true := fun c hc => by
    simpa using fun h : c = lf => hbuf (h ▸ hc)
  rw [scanBuffer_eq hout, takeWhile_eq_self_iff.mpr (by simpa using hall),
    dropWhile_eq_nil_iff.mpr (by simpa using hall)]
  rfl

/-- The line loop delivers the next line whatever pieces it arrives in. -/
lemma lineLoop_readable {cap : ℕ} (events : List ReadEvent) {out buffered line rest : Bytes}
    (hline : lf ∉ line) (hout : out.length ≤ cap - 1)
    (h : buffered ++ arriving events = line ++ lf :: rest) :
    ∃ w', lineLoop cap out buffered events = (.line (cstr ((out ++ line).take (cap - 1))), w') ∧
      w'.readable = rest := by
  induction events generalizing out buffered line with
  | nil =>
    rw [arriving, append_nil] at h
    rw [lineLoop, h, scanBuffer_line hline hout]
    exact ⟨_, rfl, by simp [DbWire.readable, arriving]⟩
  | cons e events ih =>
    rcases append_eq_line_cases h with ⟨r, rfl, rfl⟩ | ⟨l, rfl, hl⟩
    · -- the whole line is already buffered
      rw [lineLoop, scanBuffer_line hline hout]
      exact ⟨_, rfl, rfl⟩
    · -- the buffer runs out first, so the answer to the next call decides
      have hbuf : lf ∉ buffered := fun hb => hline (mem_append_left _ hb)
      have hl' : lf ∉ l := fun hb => hline (mem_append_right _ hb)
      have hout' : ((out ++ buffered).take (cap - 1)).length ≤ cap - 1 := by simp
      rw [lineLoop, scanBuffer_noLine hbuf hout, ← append_assoc,
        ← take_take_append _ (out ++ buffered)]
      cases e with
      | data bytes =>
        by_cases hb : bytes = []
        · simp [arriving, hb] at hl
        · simp only [hb, if_false]
          refine ih hl' hout' ?_
          simpa [arriving, hb] using hl
      | again => exact ih hl' hout' hl
      | late => simp [arriving] at hl
      | io => simp [arriving] at hl

/-- A line, as it comes out of the 1024-byte line buffer. -/
def wireLine (line : Bytes) : Bytes := cstr (line.take (dbBodyMax - 1))

lemma wireLine_length_le (line : Bytes) : (wireLine line).length ≤ line.length :=
  ((cstr_sublist _).trans (take_sublist _ _)).length_le

lemma notMem_wireLine {c : UInt8} {line : Bytes} (h : c ∉ line) : c ∉ wireLine line := fun hc =>
  h (((cstr_sublist _).trans (take_sublist _ _)).subset hc)

/-- The first byte of a line survives the line buffer. -/
lemma wireLine_cons {c : UInt8} (hc : c ≠ 0) (line : Bytes) :
    ∃ rest, wireLine (c :: line) = c :: rest := by
  refine ⟨cstr (line.take (dbBodyMax - 2)), ?_⟩
  simp [wireLine, cstr, dbBodyMax, hc]

/-- A line that fits the line buffer comes out as it is. -/
lemma wireLine_eq_self {line : Bytes} (hnul : (0 : UInt8) ∉ line) (hfit : line.length < dbBodyMax) :
    wireLine line = line := by
  rw [wireLine, take_of_length_le (by omega), cstr_eq_self hnul]

/-- **One line** whose terminator is readable is delivered, and the reader is left right after it.
-/
theorem dbWireLine_readable {w : DbWire} {line rest : Bytes} (hline : lf ∉ line)
    (h : w.readable = line ++ lf :: rest) :
    ∃ w', dbWireLine w dbBodyMax = (.line (wireLine line), w') ∧ w'.readable = rest := by
  exact lineLoop_readable w.events hline (Nat.zero_le _) h

lemma responseLoop_readable {cap : ℕ} {mark rest : Bytes} (hmark : lf ∉ mark)
    (hend : dbMarkEnd <+: wireLine mark) (lines : List Bytes)
    (hlines : ∀ l ∈ lines, lf ∉ l ∧ ¬ dbMarkEnd <+: wireLine l) {w : DbWire} {rounds : ℕ}
    (body : Bytes) (hrounds : lines.length < rounds)
    (h : w.readable = unlines lines ++ (mark ++ lf :: rest)) :
    ∃ w', responseLoop cap rounds w body =
        ((classify (wireLine mark), (lines.map wireLine).foldl (appendLine cap) body), w') ∧
      w'.readable = rest := by
  induction lines generalizing w rounds body with
  | nil =>
    obtain ⟨w', hw', hrest⟩ := dbWireLine_readable hmark (by simpa using h)
    obtain ⟨rounds, rfl⟩ : ∃ r, rounds = r + 1 := ⟨rounds - 1, by omega⟩
    exact ⟨w', by simp [responseLoop, hw', hend], hrest⟩
  | cons l lines ih =>
    obtain ⟨hl, hnot⟩ := hlines l (by simp)
    have h' : w.readable = l ++ lf :: (unlines lines ++ (mark ++ lf :: rest)) := by simpa using h
    obtain ⟨w', hw', hrest⟩ := dbWireLine_readable hl h'
    obtain ⟨rounds, rfl⟩ : ∃ r, rounds = r + 1 := ⟨rounds - 1, by omega⟩
    simp only [responseLoop, hw', hnot, if_false, map_cons, foldl_cons]
    exact ih (fun m hm => hlines m (mem_cons_of_mem _ hm)) _ (by simpa using hrounds) hrest

/-- **One reply.** Ordinary lines and a marker line are delivered with the marker's status, and the
reader is left right after them. -/
theorem dbWireResponse_readable {w : DbWire} (cap : ℕ) {lines : List Bytes} {mark rest : Bytes}
    (hlines : ∀ l ∈ lines, lf ∉ l ∧ ¬ dbMarkEnd <+: wireLine l) (hmark : lf ∉ mark)
    (hend : dbMarkEnd <+: wireLine mark) (h : w.readable = unlines (lines ++ [mark]) ++ rest) :
    ∃ w', dbWireResponse w cap =
        ((classify (wireLine mark), (lines.map wireLine).foldl (appendLine cap) []), w') ∧
      w'.readable = rest := by
  refine responseLoop_readable hmark hend lines hlines [] ?_ (by simpa using h)
  have hlen := w.readable_length_le
  have hcount := length_le_length_unlines (lines ++ [mark])
  rw [h] at hlen
  simp only [length_append, length_singleton] at hlen hcount ⊢
  omega

/-! ## The body of a reply that fits -/

lemma appendLine_fits {cap : ℕ} {body line : Bytes} (hbody : body ≠ [])
    (hfit : body.length + line.length + 1 < cap) :
    appendLine cap body line = body ++ lf :: line := by
  simp only [appendLine, hbody, if_false]
  rw [if_pos (by omega), take_of_length_le (by simp; omega)]
  simp

lemma foldl_appendLine_fits {cap : ℕ} (lines : List Bytes) {body : Bytes} (hbody : body ≠ [])
    (hfit : (body ++ lines.flatMap (lf :: ·)).length < cap) :
    lines.foldl (appendLine cap) body = body ++ lines.flatMap (lf :: ·) := by
  induction lines generalizing body with
  | nil => simp
  | cons l lines ih =>
    simp only [flatMap_cons, length_append, length_cons] at hfit
    rw [foldl_cons, appendLine_fits hbody (by omega), ih (by simp)]
    · simp
    · simp only [length_append, length_cons]
      omega

/-- Lines that fit, the first one not empty, make up a body of exactly those lines. -/
lemma foldl_appendLine_eq_intercalate {cap : ℕ} {first : Bytes} (lines : List Bytes)
    (hfirst : first ≠ []) (hfit : ([lf].intercalate (first :: lines)).length < cap) :
    (first :: lines).foldl (appendLine cap) [] = [lf].intercalate (first :: lines) := by
  rw [intercalate_cons_eq] at hfit ⊢
  have hlen : first.length < cap := by simp only [length_append] at hfit; omega
  have hpos : 0 < first.length := length_pos_iff.mpr hfirst
  have hstart : appendLine cap [] first = first := by
    simp only [appendLine, if_true, nil_append, length_nil]
    rw [if_pos (by omega), take_of_length_le (by omega)]
  rw [foldl_cons, hstart]
  exact foldl_appendLine_fits lines hfirst hfit

end BallotBox
