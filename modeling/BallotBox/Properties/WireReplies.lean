import BallotBox.Construction.Wire
import BallotBox.Framework.LineStreams

/-!
# What the line reader makes of a stream

`db_wire_line` and `db_wire_response` see a stream in pieces.  Here both are compared with functions
of the stream alone.
-/

namespace BallotBox

open List Option

variable {rest : Bytes} {r : WireReply} {w : DbWire}
variable {cap rounds : ℕ} {out buffered tail : Bytes} {ls : List Bytes}

/-! ## How a stream ends -/

def endOf : List ReadEvent → LineResult
  | [] => .eof
  | .data bytes :: events => if bytes = [] then .eof else endOf events
  | .again :: events => endOf events
  | .late :: _ => .late
  | .io :: _ => .io

def DbWire.ending (w : DbWire) : LineResult := endOf w.events

def LineResult.endStatus : LineResult → DbStatus
  | .late => .timeout
  | _ => .io

lemma endOf_cases (events : List ReadEvent) :
    endOf events = .eof ∨ endOf events = .io ∨ endOf events = .late := by
  induction events with
  | nil => simp [endOf]
  | cons e events ih =>
    cases e with
    | data bytes =>
      by_cases hb : bytes = []
      · simp [endOf, hb]
      · simpa [endOf, hb] using ih
    | again => simpa [endOf] using ih
    | late => simp [endOf]
    | io => simp [endOf]

lemma DbWire.ending_cases (w : DbWire) : w.ending = .eof ∨ w.ending = .io ∨ w.ending = .late :=
  endOf_cases w.events

lemma lineLoop_ending (events : List ReadEvent) {l : Bytes} {w' : DbWire}
    (h : lineLoop cap out buffered events = (.line l, w')) : w'.ending = endOf events := by
  induction events generalizing out buffered with
  | nil =>
    rw [lineLoop] at h
    rcases hscan : scanBuffer cap out buffered with ⟨out', _ | rest⟩
    · simp [hscan] at h
    · simp only [hscan, Prod.mk.injEq] at h
      rw [← h.2]
      rfl
  | cons e events ih =>
    rw [lineLoop] at h
    rcases hscan : scanBuffer cap out buffered with ⟨out', _ | rest⟩
    · -- the buffer is used up: the answer decides, and only data and interruptions go on
      simp only [hscan] at h
      cases e with
      | data bytes =>
        by_cases hb : bytes = []
        · simp [hb] at h
        · simp only [hb, if_false] at h
          simpa [endOf, hb] using ih h
      | again => exact ih h
      | late => simp at h
      | io => simp at h
    · simp only [hscan, Prod.mk.injEq] at h
      rw [← h.2]
      rfl

lemma lineLoop_unfinished (events : List ReadEvent)
    (hout : out.length ≤ cap - 1) (h : lf ∉ buffered ++ arriving events) :
    (lineLoop cap out buffered events).1 = endOf events := by
  have hbuf : lf ∉ buffered := fun hb => h (mem_append_left _ hb)
  have hnext : lf ∉ arriving events := fun hb => h (mem_append_right _ hb)
  have hout' : ((out ++ buffered).take (cap - 1)).length ≤ cap - 1 := by simp
  induction events generalizing out buffered with
  | nil =>
    rw [lineLoop, scanBuffer_noLine hbuf hout]
    rfl
  | cons e events ih =>
    rw [lineLoop, scanBuffer_noLine hbuf hout]
    cases e with
    | data bytes =>
      by_cases hb : bytes = []
      · simp [hb, endOf]
      · simp only [arriving, hb, if_false] at hnext
        simp only [hb, if_false, endOf]
        exact ih hout' hnext (fun hm => hnext (mem_append_left _ hm))
          (fun hm => hnext (mem_append_right _ hm)) (by simp)
    | again => exact ih hout' (by simpa [arriving] using hnext) (by simp) hnext (by simp)
    | late => rfl
    | io => rfl

/-- **One line** is delivered cut to the capacity, the reader is left right after it, and the stream
still ends as it did. -/
lemma dbWireLine_line (w : DbWire) (cap : ℕ) {line : Bytes} (hline : lf ∉ line)
    (h : w.readable = line ++ lf :: rest) :
    ∃ w', dbWireLine w cap = (.line (cstr (line.take (cap - 1))), w') ∧ w'.readable = rest ∧
      w'.ending = w.ending := by
  have hempty : ([] : Bytes).length ≤ cap - 1 := Nat.zero_le _
  obtain ⟨w', hw', hrest⟩ := lineLoop_readable w.events hline hempty h
  exact ⟨w', hw', hrest, lineLoop_ending w.events hw'⟩

lemma dbWireLine_unfinished (w : DbWire) (cap : ℕ) (h : lf ∉ w.readable) :
    ∃ w', dbWireLine w cap = (w.ending, w') :=
  ⟨(dbWireLine w cap).2, Prod.ext (lineLoop_unfinished w.events (Nat.zero_le _) h) rfl⟩

/-! ## Replies of a stream -/

def IsMark (line : Bytes) : Prop := dbMarkEnd <+: line

instance : DecidablePred IsMark := fun line => inferInstanceAs (Decidable (dbMarkEnd <+: line))

lemma isMark_wireLine (line : Bytes) : IsMark (wireLine line) ↔ IsMark line := by
  constructor
  · intro h
    exact h.trans ((List.takeWhile_prefix _).trans (List.take_prefix _ _))
  · rintro ⟨rest, rfl⟩
    refine ⟨cstr (rest.take (dbBodyMax - 1 - dbMarkEnd.length)), ?_⟩
    have hlen : dbMarkEnd.length ≤ dbBodyMax - 1 := by decide
    rw [wireLine, take_append, take_of_length_le hlen, cstr, cstr,
      takeWhile_append_of_pos (by decide)]

/-- One reply of the runner: ordinary lines and a marker line. -/
structure WireReply where
  lines : List Bytes
  mark : Bytes
deriving DecidableEq

def WireReply.status (r : WireReply) : DbStatus := classify (wireLine r.mark)

def bodyOfLines (cap : ℕ) (lines : List Bytes) : Bytes :=
  (lines.map wireLine).foldl (appendLine cap) []

def replyOfLines : List Bytes → Option WireReply
  | [] => none
  | l :: ls =>
    if IsMark l then some ⟨[], l⟩
    else (replyOfLines ls).map fun r => ⟨l :: r.lines, r.mark⟩

def firstReply (stream : Bytes) : Option (WireReply × Bytes) :=
  (replyOfLines (completeLines stream)).map fun r =>
    (r, stream.drop (unlines (r.lines ++ [r.mark])).length)

lemma replyOfLines_eq_some (h : replyOfLines ls = some r) :
    (∃ later, ls = r.lines ++ [r.mark] ++ later) ∧ (∀ l ∈ r.lines, ¬ IsMark l) ∧ IsMark r.mark := by
  induction ls generalizing r with
  | nil => simp [replyOfLines] at h
  | cons l ls ih =>
    by_cases hl : IsMark l
    · simp only [replyOfLines, hl, if_true, some.injEq] at h
      subst h
      exact ⟨⟨ls, rfl⟩, by simp, hl⟩
    · simp only [replyOfLines, hl, if_false, map_eq_some_iff] at h
      obtain ⟨r', hr', rfl⟩ := h
      obtain ⟨⟨later, rfl⟩, hordinary, hmark⟩ := ih hr'
      exact ⟨⟨later, by simp⟩, by simpa using ⟨hl, hordinary⟩, hmark⟩

lemma replyOfLines_eq_none (h : replyOfLines ls = none) : ∀ l ∈ ls, ¬ IsMark l := by
  induction ls with
  | nil => simp
  | cons l ls ih =>
    by_cases hl : IsMark l
    · simp [replyOfLines, hl] at h
    · simp only [replyOfLines, hl, if_false, map_eq_none_iff] at h
      simpa using ⟨hl, ih h⟩

lemma firstReply_eq_some {stream : Bytes} (h : firstReply stream = some (r, rest)) :
    stream = unlines (r.lines ++ [r.mark]) ++ rest ∧ (∀ l ∈ r.lines, lf ∉ l ∧ ¬ IsMark l) ∧
      lf ∉ r.mark ∧ IsMark r.mark := by
  obtain ⟨r', hr', heq⟩ := map_eq_some_iff.mp h
  obtain ⟨rfl, hrest⟩ := Prod.mk.inj heq
  obtain ⟨⟨later, hlines⟩, hordinary, hmark⟩ := replyOfLines_eq_some hr'
  have hnoLf : ∀ l ∈ r'.lines ++ [r'.mark], lf ∉ l := fun l hl =>
    lf_notMem_of_mem_completeLines (by rw [hlines]; exact mem_append_left _ hl)
  obtain ⟨tail, hstream, -⟩ := exists_eq_unlines stream
  refine ⟨?_, fun l hl => ⟨hnoLf l (by simp [hl]), hordinary l hl⟩, hnoLf _ (by simp), hmark⟩
  rw [hlines, unlines_append, append_assoc] at hstream
  rw [← hrest, hstream, drop_left]

/-! ## One call -/

lemma responseLoop_unfinished (cap : ℕ) (htail : lf ∉ tail) (lines : List Bytes)
    (hlines : ∀ l ∈ lines, lf ∉ l ∧ ¬ IsMark l) (body : Bytes)
    (hrounds : lines.length < rounds) (h : w.readable = unlines lines ++ tail) :
    (responseLoop cap rounds w body).1 =
      (w.ending.endStatus, (lines.map wireLine).foldl (appendLine cap) body) := by
  induction lines generalizing w rounds body with
  | nil =>
    obtain ⟨rounds, rfl⟩ : ∃ r, rounds = r + 1 := ⟨rounds - 1, by omega⟩
    obtain ⟨w', hcall⟩ := dbWireLine_unfinished w dbBodyMax (by simpa [h] using htail)
    rcases w.ending_cases with hend | hend | hend <;>
      simp [responseLoop, hcall, hend, LineResult.endStatus]
  | cons l lines ih =>
    obtain ⟨hl, hnot⟩ := hlines l (by simp)
    have h' : w.readable = l ++ lf :: (unlines lines ++ tail) := by simpa using h
    obtain ⟨w', hw', hrest, hend⟩ := dbWireLine_line w dbBodyMax hl h'
    obtain ⟨rounds, rfl⟩ : ∃ r, rounds = r + 1 := ⟨rounds - 1, by omega⟩
    have hordinary : ¬ dbMarkEnd <+: cstr (l.take (dbBodyMax - 1)) := fun hm =>
      hnot ((isMark_wireLine l).mp hm)
    simp only [responseLoop, hw', hordinary, if_false, map_cons, foldl_cons, ← hend]
    exact ih (fun m hm => hlines m (mem_cons_of_mem _ hm)) _ (by simpa using hrounds) hrest

def streamResponse (ending : LineResult) (stream : Bytes) (cap : ℕ) : DbStatus × Bytes :=
  match firstReply stream with
  | some (r, _) => (r.status, bodyOfLines cap r.lines)
  | none => (ending.endStatus, bodyOfLines cap (completeLines stream))

lemma dbWireResponse_reply (h : firstReply w.readable = some (r, rest)) (cap : ℕ) :
    ∃ w', dbWireResponse w cap = ((r.status, bodyOfLines cap r.lines), w') ∧
      w'.readable = rest := by
  obtain ⟨hstream, hlines, hmark, hend⟩ := firstReply_eq_some h
  have hordinary : ∀ l ∈ r.lines, lf ∉ l ∧ ¬ dbMarkEnd <+: wireLine l := fun l hl =>
    ⟨(hlines l hl).1, fun hm => (hlines l hl).2 ((isMark_wireLine l).mp hm)⟩
  exact dbWireResponse_readable cap hordinary hmark ((isMark_wireLine r.mark).mpr hend) hstream

lemma length_completeLines_lt (w : DbWire) :
    (completeLines w.readable).length < w.promised + 1 := by
  have := length_completeLines_le w.readable
  have := w.readable_length_le
  omega

/-- **One call**, for every stream and however it arrives. -/
theorem dbWireResponse_stream (w : DbWire) (cap : ℕ) :
    (dbWireResponse w cap).1 = streamResponse w.ending w.readable cap := by
  rcases hfirst : firstReply w.readable with _ | ⟨r, rest⟩
  · have hordinary : ∀ l ∈ completeLines w.readable, ¬ IsMark l :=
      replyOfLines_eq_none (map_eq_none_iff.mp hfirst)
    obtain ⟨tail, hstream, htail⟩ := exists_eq_unlines w.readable
    have hloop := responseLoop_unfinished cap htail (completeLines w.readable)
      (fun l hl => ⟨lf_notMem_of_mem_completeLines hl, hordinary l hl⟩) []
      (length_completeLines_lt w) hstream
    simpa [streamResponse, hfirst, dbWireResponse, bodyOfLines] using hloop
  · obtain ⟨w', hw', -⟩ := dbWireResponse_reply hfirst cap
    simp [streamResponse, hfirst, hw']

/-! ## Successive calls -/

def dbWireResponses : List ℕ → DbWire → List (DbStatus × Bytes) × DbWire
  | [], w => ([], w)
  | cap :: caps, w =>
    let (response, w') := dbWireResponse w cap
    let (responses, w'') := dbWireResponses caps w'
    (response :: responses, w'')

/-- The successive replies of a stream, as bodies of these capacities, and what is behind the last;
`none` if there are fewer. -/
def streamReplies : List ℕ → Bytes → Option (List (DbStatus × Bytes) × Bytes)
  | [], stream => some ([], stream)
  | cap :: caps, stream => do
    let (r, behind) ← firstReply stream
    let (replies, rest) ← streamReplies caps behind
    some ((r.status, bodyOfLines cap r.lines) :: replies, rest)

lemma dbWireResponses_replies (caps : List ℕ) {replies : List (DbStatus × Bytes)}
    (h : streamReplies caps w.readable = some (replies, rest)) :
    ∃ w', dbWireResponses caps w = (replies, w') ∧ w'.readable = rest := by
  induction caps generalizing w replies with
  | nil =>
    simp only [streamReplies, some.injEq, Prod.mk.injEq] at h
    exact ⟨w, by simp [dbWireResponses, h.1], h.2⟩
  | cons cap caps ih =>
    simp only [streamReplies, bind_eq_bind, bind_eq_some_iff, some.injEq,
      Prod.mk.injEq, Prod.exists] at h
    obtain ⟨r, behind, hfirst, later, rest', hlater, rfl, rfl⟩ := h
    obtain ⟨w₁, hcall, hbehind⟩ := dbWireResponse_reply hfirst cap
    obtain ⟨w₂, hcalls, hrest⟩ := ih (by rw [hbehind]; exact hlater)
    exact ⟨w₂, by simp [dbWireResponses, hcall, hcalls], hrest⟩

/-- **Replies do not depend on how they arrive.**  Whatever is in the buffer and however the rest
of the stream is cut into reads and interrupted, a call returns what the first reply of the
stream determines and leaves exactly the bytes behind it, and successive calls return the
successive replies.  Two readers of one stream also agree on a stream that is closed before a
marker line, as long as neither deadline passes and neither descriptor breaks. -/
theorem replies_of_stream : (∀ (w : DbWire) (cap : ℕ) (r : WireReply) (rest : Bytes),
      firstReply w.readable = some (r, rest) →
        (dbWireResponse w cap).1 = (r.status, bodyOfLines cap r.lines) ∧
          (dbWireResponse w cap).2.readable = rest) ∧
    (∀ (w : DbWire) (caps : List ℕ) (replies : List (DbStatus × Bytes)) (rest : Bytes),
      streamReplies caps w.readable = some (replies, rest) →
        (dbWireResponses caps w).1 = replies ∧ (dbWireResponses caps w).2.readable = rest) ∧
    ∀ (w₁ w₂ : DbWire) (cap : ℕ), w₁.readable = w₂.readable → w₁.ending = .eof →
      w₂.ending = .eof → (dbWireResponse w₁ cap).1 = (dbWireResponse w₂ cap).1 := by
  refine ⟨?_, ?_, ?_⟩
  · intro w cap r rest h
    obtain ⟨w', hcall, hrest⟩ := dbWireResponse_reply h cap
    simp [hcall, hrest]
  · intro w caps replies rest h
    obtain ⟨w', hcalls, hrest⟩ := dbWireResponses_replies caps h
    simp [hcalls, hrest]
  · intro w₁ w₂ cap hstream h₁ h₂
    rw [dbWireResponse_stream, dbWireResponse_stream, hstream, h₁, h₂]

/-- Two replies, part of the first already buffered, the rest in pieces with an interruption inside
the marker. -/
def twoReplies : DbWire where
  buffered := ascii "a\tb\n<<E"
  events := [.data (ascii "ND ok>"), .again, .data (ascii ">\n<<END retry>>"), .data (ascii "\nx")]

theorem replies_of_twoReplies :
    (dbWireResponses [8, 8] twoReplies).1 = [(.ok, ascii "a\tb"), (.retry, [])] ∧
      (dbWireResponses [8, 8] twoReplies).2.readable = ascii "x" :=
  replies_of_stream.2.1 twoReplies [8, 8] _ _ (by decide +kernel)

/-! ## Lines longer than the buffer -/

/-- The lines of successive `db_wire_line` calls until one returns none. A line costs a line feed,
so `promised w + 1` calls are enough. -/
def linesLoop (cap : ℕ) : ℕ → DbWire → List Bytes
  | 0, _ => []
  | rounds + 1, w =>
    match dbWireLine w cap with
    | (.line line, w') => line :: linesLoop cap rounds w'
    | _ => []

def dbWireLines (w : DbWire) (cap : ℕ) : List Bytes := linesLoop cap (w.promised + 1) w

lemma linesLoop_eq (cap : ℕ) (htail : lf ∉ tail) (lines : List Bytes)
    (hlines : ∀ l ∈ lines, lf ∉ l) (hrounds : lines.length < rounds)
    (h : w.readable = unlines lines ++ tail) :
    linesLoop cap rounds w = lines.map fun l => cstr (l.take (cap - 1)) := by
  induction lines generalizing w rounds with
  | nil =>
    obtain ⟨rounds, rfl⟩ : ∃ r, rounds = r + 1 := ⟨rounds - 1, by omega⟩
    obtain ⟨w', hcall⟩ := dbWireLine_unfinished w cap (by simpa [h] using htail)
    rcases w.ending_cases with hend | hend | hend <;> simp [linesLoop, hcall, hend]
  | cons l lines ih =>
    have h' : w.readable = l ++ lf :: (unlines lines ++ tail) := by simpa using h
    obtain ⟨w', hw', hrest, -⟩ := dbWireLine_line w cap (hlines l (by simp)) h'
    obtain ⟨rounds, rfl⟩ : ∃ r, rounds = r + 1 := ⟨rounds - 1, by omega⟩
    have hlater := ih (fun m hm => hlines m (mem_cons_of_mem _ hm)) (by simpa using hrounds) hrest
    simp only [linesLoop, hw', map_cons, hlater]

theorem dbWireLines_eq (w : DbWire) (cap : ℕ) :
    dbWireLines w cap = (completeLines w.readable).map fun l => cstr (l.take (cap - 1)) := by
  obtain ⟨tail, hstream, htail⟩ := exists_eq_unlines w.readable
  exact linesLoop_eq cap htail _ (fun l hl => lf_notMem_of_mem_completeLines hl)
    (length_completeLines_lt w) hstream

/-- What `wire.h` says: a line that is too long comes in pieces, and the pieces give it back. -/
def LosesNothing (w : DbWire) (cap : ℕ) : Prop :=
  dbWireLines w cap = (completeLines w.readable).flatMap (pieces (cap - 1)) ∧
    ∀ l ∈ completeLines w.readable, (pieces (cap - 1) l).flatten = l

instance (w : DbWire) (cap : ℕ) : Decidable (LosesNothing w cap) :=
  inferInstanceAs (Decidable (_ ∧ _))

lemma length_le_of_length_pieces {k : ℕ} (hk : 0 < k) {lines : List Bytes}
    (h : (lines.flatMap (pieces k)).length ≤ lines.length) : ∀ l ∈ lines, l.length ≤ k := by
  have hpos : ∀ l, 1 ≤ pieceCount k l := fun l => le_max_left _ _
  have hmany : ∀ ls : List Bytes, ls.length ≤ (ls.flatMap (pieces k)).length := by
    intro ls
    induction ls with
    | nil => simp
    | cons l ls ih =>
      have := hpos l
      simp only [flatMap_cons, length_append, length_pieces, length_cons]
      omega
  induction lines with
  | nil => simp
  | cons l lines ih =>
    have hl := hpos l
    have hls := hmany lines
    simp only [flatMap_cons, length_append, length_pieces, length_cons] at h
    intro m hm
    rcases mem_cons.mp hm with rfl | hm
    · exact (pieceCount_eq_one_iff hk m).mp (by omega)
    · exact ih (by omega) m hm

/-- **When no line is lost.**  The header's account is right exactly for streams whose lines all
fit the buffer and contain no NUL. -/
theorem dbWireLines_loses_nothing_iff (w : DbWire) (cap : ℕ) (hcap : 2 ≤ cap) : LosesNothing w cap ↔
      ∀ l ∈ completeLines w.readable, l.length ≤ cap - 1 ∧ (0 : UInt8) ∉ l := by
  have hk : 0 < cap - 1 := by omega
  unfold LosesNothing
  rw [dbWireLines_eq]
  constructor
  · rintro ⟨hcalls, -⟩
    have hfit : ∀ l ∈ completeLines w.readable, l.length ≤ cap - 1 :=
      length_le_of_length_pieces hk (by rw [← hcalls, length_map])
    -- every line is its own only piece, so the two lists agree line by line
    have hpieces : (completeLines w.readable).flatMap (pieces (cap - 1)) =
        completeLines w.readable := by
      rw [flatMap_congr fun l hl => pieces_of_le hk (hfit l hl), flatMap_singleton']
    intro l hl
    refine ⟨hfit l hl, ?_⟩
    have hself : cstr (l.take (cap - 1)) = l := by
      rw [hpieces] at hcalls
      exact map_inj_left.mp (hcalls.trans (List.map_id _).symm) l hl
    rw [← hself]
    exact zero_notMem_cstr _
  · intro h
    refine ⟨?_, fun l _ => flatten_pieces hk l⟩
    rw [flatMap_congr fun l hl => pieces_of_le hk (h l hl).1, flatMap_singleton']
    have hself : ∀ l ∈ completeLines w.readable, cstr (l.take (cap - 1)) = l := by
      intro l hl
      rw [take_of_length_le (h l hl).1, cstr_eq_self (h l hl).2]
    rw [map_congr_left hself, List.map_id']

def longLine : DbWire where
  buffered := ascii "abc"
  events := [.data (ascii "d\nx\n")]

/-- Two calls with a buffer of three bytes return `ab` and `x`: the tail `cd` is gone. -/
theorem long_line_loses_tail :
    dbWireLines longLine 3 = [ascii "ab", ascii "x"] ∧ ¬ LosesNothing longLine 3 := by
  decide +kernel

theorem longLine_fits_wide : LosesNothing longLine 8 :=
  (dbWireLines_loses_nothing_iff longLine 8 (by decide)).mpr (by decide +kernel)

end BallotBox
