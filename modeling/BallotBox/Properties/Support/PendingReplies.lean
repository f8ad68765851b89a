import BallotBox.Properties.Support.Frames
import BallotBox.Properties.Support.OwnConnection

/-!
# The replies that are still unread

What is left unread on a connection is a queue of replies (`Segment`).  A statement appends its own,
one unless a row looks like a marker, and takes the first one off the queue (`wire_deliver_queue`).
-/

namespace BallotBox

open List Option

/-! ## Queues -/

/-- One reply: its lines, and the marker line that ends it. -/
structure Segment where
  lines : List Bytes
  mark : Bytes

namespace Segment

/-- The first marker is the last line. -/
structure Ok (s : Segment) : Prop where
  lines : ∀ l ∈ s.lines, lf ∉ l ∧ ¬ dbMarkEnd <+: wireLine l
  mark : lf ∉ s.mark ∧ dbMarkEnd <+: wireLine s.mark

def text (s : Segment) : List Bytes := s.lines ++ [s.mark]

def status (s : Segment) : DbStatus := classify (wireLine s.mark)

def body (cap : ℕ) (s : Segment) : Bytes := (s.lines.map wireLine).foldl (appendLine cap) []

end Segment

/-- The lines are those of the replies. -/
structure Queued (q : List Segment) (lines : List Bytes) : Prop where
  eq : lines = q.flatMap Segment.text
  ok : ∀ s ∈ q, s.Ok

lemma Queued.append {q v : List Segment} {ls ms : List Bytes} (hq : Queued q ls)
    (hv : Queued v ms) : Queued (q ++ v) (ls ++ ms) :=
  ⟨by rw [hq.eq, hv.eq, flatMap_append], fun s hs =>
    (mem_append.mp hs).elim (hq.ok s) (hv.ok s)⟩

lemma Queued.tail {s : Segment} {q : List Segment} {ls : List Bytes} (h : Queued (s :: q) ls) :
    ls = s.text ++ q.flatMap Segment.text ∧ s.Ok ∧ Queued q (q.flatMap Segment.text) :=
  ⟨by simpa using h.eq, h.ok s (by simp), rfl, fun r hr => h.ok r (mem_cons_of_mem _ hr)⟩

lemma exists_queued (lines : List Bytes) (hlf : ∀ l ∈ lines, lf ∉ l) {mark : Bytes}
    (hmark : lf ∉ mark ∧ dbMarkEnd <+: wireLine mark) :
    ∃ q, q ≠ [] ∧ Queued q (lines ++ [mark]) := by
  -- from the end: a line opens a new reply if it is a marker, and joins the next one if not
  induction lines with
  | nil => exact ⟨[⟨[], mark⟩], by simp, by simp [Segment.text], by
      simpa using ⟨by simp, hmark⟩⟩
  | cons l lines ih =>
    obtain ⟨q, hne, hq⟩ := ih fun m hm => hlf m (mem_cons_of_mem _ hm)
    have hl : lf ∉ l := hlf l (by simp)
    by_cases hend : dbMarkEnd <+: wireLine l
    · have hone : Queued [⟨[], l⟩] [l] := ⟨rfl, by simpa using ⟨by simp, hl, hend⟩⟩
      exact ⟨⟨[], l⟩ :: q, by simp, by simpa using hone.append hq⟩
    · obtain ⟨s, q, rfl⟩ := exists_cons_of_ne_nil hne
      obtain ⟨heq, hs, hrest⟩ := hq.tail
      refine ⟨⟨l :: s.lines, s.mark⟩ :: q, by simp, ?_, ?_⟩
      · simp [heq, Segment.text]
      · intro r hr
        rcases mem_cons.mp hr with rfl | hr
        · exact ⟨by simpa using ⟨⟨hl, hend⟩, hs.lines⟩, hs.mark⟩
        · exact hrest.ok r hr

/-! ## Reading -/

lemma lineLoop_events_nil (cap : ℕ) (out buffered : Bytes) :
    (lineLoop cap out buffered []).2.events = [] := by
  unfold lineLoop
  split <;> rfl

lemma responseLoop_events_nil (cap rounds : ℕ) {w : DbWire} (h : w.events = []) (body : Bytes) :
    (responseLoop cap rounds w body).2.events = [] := by
  induction rounds generalizing w body with
  | zero => exact h
  | succ rounds ih =>
    have hline : (dbWireLine w dbBodyMax).2.events = [] := by
      rw [dbWireLine, h]
      exact lineLoop_events_nil _ _ _
    unfold responseLoop
    split
    · simp_all
    · simp_all
    · simp_all
    · split
      · simp_all
      · exact ih (by simp_all) _

/-- **First in, first out.** An answer goes to the end of the queue, and the reply read comes off
its front. -/
theorem wire_deliver_queue {q v rest : List Segment} {s : Segment} {ls : List Bytes}
    {verdict : Verdict} (hq : Queued q ls) (hv : Queued v verdict.lines)
    (hcons : q ++ v = s :: rest) (cap : ℕ) : wire.deliver cap (unlines ls) verdict =
      ((s.status, readRows (s.body cap)), unlines (rest.flatMap Segment.text)) := by
  have hall := hq.append hv
  rw [hcons] at hall
  obtain ⟨heq, hs, -⟩ := hall.tail
  have hread : (⟨unlines ls ++ unlines verdict.lines, []⟩ : DbWire).readable =
      unlines (s.lines ++ [s.mark]) ++ unlines (rest.flatMap Segment.text) := by
    rw [DbWire.readable, arriving, append_nil, ← unlines_append, heq, unlines_append,
      Segment.text]
  obtain ⟨w', hw', hrest⟩ := dbWireResponse_readable cap hs.lines hs.mark.1 hs.mark.2 hread
  have hevents : w'.events = [] := by
    have hnil := responseLoop_events_nil cap
      ((⟨unlines ls ++ unlines verdict.lines, []⟩ : DbWire).promised + 1)
      (w := ⟨unlines ls ++ unlines verdict.lines, []⟩) rfl []
    rw [← dbWireResponse, hw'] at hnil
    exact hnil
  have hbuffered : w'.buffered = unlines (rest.flatMap Segment.text) := by
    rw [← hrest, DbWire.readable, hevents, arriving, append_nil]
  simp only [wire, hw', hbuffered, Segment.status, Segment.body]

/-! ## Replies that show no second field -/

lemma mem_of_mem_splitOn {sep c : UInt8} {text piece : Bytes} (hpiece : piece ∈ text.splitOn sep)
    (hc : c ∈ piece) : c ∈ text := by
  have hjoin : [sep].intercalate (text.splitOn sep) = text := intercalate_splitOn sep
  obtain ⟨l, ls, hls⟩ := exists_cons_of_ne_nil (ne_nil_of_mem hpiece)
  rw [hls, intercalate_cons_eq] at hjoin
  rw [hls] at hpiece
  rw [← hjoin, mem_append, mem_flatMap]
  rcases mem_cons.mp hpiece with rfl | hpiece
  · exact .inl hc
  · exact .inr ⟨piece, hpiece, mem_cons_of_mem _ hc⟩

lemma mem_of_mem_findRule {lines : List Bytes} {l : Bytes} (h : l ∈ findRule lines) :
    l ∈ lines := by
  induction lines with
  | nil => exact h
  | cons m lines ih =>
    unfold findRule at h
    split_ifs at h with hlast hrule
    · simp at h
    · exact mem_cons_of_mem _ h
    · exact mem_cons_of_mem _ (ih h)

lemma mem_of_mem_rowsBegin {body l : Bytes} (hl : l ∈ rowsBegin body) {c : UInt8} (hc : c ∈ l) :
    c ∈ body.dropWhile (· ≠ lf) := by
  have hmem : l ∈ (body.splitOn lf).tail := mem_of_mem_findRule hl
  have hsplit : body = body.takeWhile (· ≠ lf) ++ body.dropWhile (· ≠ lf) :=
    takeWhile_append_dropWhile.symm
  have hfirst : lf ∉ body.takeWhile (· ≠ lf) := fun h => by
    simpa using mem_takeWhile_imp h
  cases hrest : body.dropWhile (· ≠ lf) with
  | nil =>
    rw [hsplit, hrest, append_nil, splitOn_eq_singleton hfirst] at hmem
    simp at hmem
  | cons d rest =>
    obtain rfl : d = lf := by
      have hhead := head?_dropWhile_not (· ≠ lf) body
      rw [hrest] at hhead
      simpa using hhead
    rw [hsplit, hrest, splitOn_append_cons hfirst, tail_cons] at hmem
    exact mem_cons_of_mem _ (mem_of_mem_splitOn hmem hc)

lemma rowFields_readRows {body : Bytes} {i : ℕ} {row : Row}
    (h : (readRows body).rowFields i = some row) :
    row = [] ∨ ∃ l ∈ rowsBegin body, row = l.splitOn tab := by
  unfold readRows at h
  split_ifs at h with hneg
  · simp [Reply.rowFields] at h
  · simp only [Reply.rowFields, bind_some, getElem?_map, map_eq_some_iff] at h
    obtain ⟨j, -, rfl⟩ := h
    unfold dbRowFields
    split_ifs with hrange
    · exact .inl rfl
    · cases hdrop : (rowsBegin body).drop j with
      | nil => exact .inl rfl
      | cons l more =>
        exact .inr ⟨l, mem_of_mem_drop (hdrop ▸ mem_cons_self), rfl⟩

lemma rowFields_narrow {body : Bytes} (h : tab ∉ body.dropWhile (· ≠ lf)) {i : ℕ} {row : Row}
    (hrow : (readRows body).rowFields i = some row) : row.length ≤ 1 := by
  rcases rowFields_readRows hrow with rfl | ⟨l, hl, rfl⟩
  · simp
  · rw [splitOn_eq_singleton fun htab => h (mem_of_mem_rowsBegin hl htab)]
    simp

lemma appendLine_eq (cap : ℕ) (body l : Bytes) : ∃ piece, appendLine cap body l = body ++ piece ∧
    (body ≠ [] → piece = [] ∨ piece.head? = some lf) ∧ ∀ c ∈ piece, c = lf ∨ c ∈ l := by
  unfold appendLine
  split_ifs with hroom hempty
  · exact ⟨_, rfl, fun h => absurd hempty h, fun c hc => .inr (mem_of_mem_take hc)⟩
  · refine ⟨_, rfl, fun _ => .inr ?_, fun c hc => ?_⟩
    · obtain ⟨k, hk⟩ : ∃ k, cap - body.length - 1 = k + 1 := ⟨cap - body.length - 2, by omega⟩
      simp [hk]
    · simpa using mem_of_mem_take hc
  · exact ⟨[], by simp⟩

lemma foldl_appendLine_eq (cap : ℕ) (lines : List Bytes) (body : Bytes) :
    ∃ more, lines.foldl (appendLine cap) body = body ++ more ∧
      (body ≠ [] → more = [] ∨ more.head? = some lf) ∧ ∀ c ∈ more, c = lf ∨ ∃ l ∈ lines, c ∈ l := by
  induction lines generalizing body with
  | nil => exact ⟨[], by simp⟩
  | cons l lines ih =>
    obtain ⟨piece, hpiece, hhead, hbytes⟩ := appendLine_eq cap body l
    obtain ⟨more, hmore, hhead', hbytes'⟩ := ih (body ++ piece)
    refine ⟨piece ++ more, by rw [foldl_cons, hpiece, hmore, append_assoc], ?_, ?_⟩
    · intro hbody
      rcases hhead hbody with rfl | hfirst
      · simpa using hhead' (by simpa using hbody)
      · exact .inr (by simp [head?_append, hfirst])
    · intro c hc
      rcases mem_append.mp hc with hc | hc
      · exact (hbytes c hc).imp_right fun h => ⟨l, by simp, h⟩
      · exact (hbytes' c hc).imp_right fun ⟨m, hm, h⟩ => ⟨m, mem_cons_of_mem _ hm, h⟩

namespace Segment

def Dull (s : Segment) : Prop := s.status = .ok → ∀ i row,
  (readRows (s.body bodyMax)).rowFields i = some row → row.length ≤ 1

lemma dull_of_failed {s : Segment} (h : s.status ≠ .ok) : s.Dull := fun hok => absurd hok h

lemma dull_of_notMem {s : Segment} (h : ∀ l ∈ s.lines, tab ∉ l) : s.Dull := by
  intro _ i row hrow
  refine rowFields_narrow (fun hmem => ?_) hrow
  obtain ⟨more, heq, -, hbytes⟩ := foldl_appendLine_eq bodyMax (s.lines.map wireLine) []
  rw [nil_append] at heq
  have htab : tab ∈ more := heq ▸ (dropWhile_sublist _).subset hmem
  obtain hlf | ⟨m, hm, htab⟩ := hbytes tab htab
  · exact absurd hlf (by decide)
  · obtain ⟨l, hl, rfl⟩ := List.mem_map.mp hm
    exact notMem_wireLine (h l hl) htab

lemma dull_of_header (stmt : Stmt) {s : Segment} {lines : List Bytes}
    (hs : s.lines = stmt.desc.header :: lines) (h : ∀ l ∈ lines, tab ∉ l) : s.Dull := by
  intro _ i row hrow
  refine rowFields_narrow (fun hmem => ?_) hrow
  have hne := wireLine_header_ne_nil stmt.desc
  have hlf : lf ∉ wireLine stmt.desc.header := notMem_wireLine (lf_notMem_header _)
  have hlen : (wireLine stmt.desc.header).length ≤ 300 := by
    have hle := wireLine_length_le stmt.desc.header
    have hdesc := length_desc_le stmt
    omega
  have hstart : appendLine bodyMax [] (wireLine stmt.desc.header) = wireLine stmt.desc.header := by
    simp only [appendLine, bodyMax, length_nil, if_true, nil_append]
    rw [if_pos (by norm_num), take_of_length_le (by omega)]
  obtain ⟨more, heq, hhead, hbytes⟩ :=
    foldl_appendLine_eq bodyMax (lines.map wireLine) (wireLine stmt.desc.header)
  have hbody : s.body bodyMax = wireLine stmt.desc.header ++ more := by
    rw [body, hs, map_cons, foldl_cons, hstart, heq]
  have hall : ∀ c ∈ wireLine stmt.desc.header, (c ≠ lf : Bool) = true := fun c hc => by
    simpa using fun h : c = lf => hlf (h ▸ hc)
  rw [hbody, dropWhile_append_of_pos (by simpa using hall)] at hmem
  obtain hlf | ⟨m, hm, htab⟩ := hbytes tab ((dropWhile_sublist _).subset hmem)
  · exact absurd hlf (by decide)
  · obtain ⟨l, hl, rfl⟩ := List.mem_map.mp hm
    exact notMem_wireLine (h l hl) htab

end Segment

/-! ## What an answer consists of -/

lemma queued_mark {mark : Bytes} (h : lf ∉ mark ∧ dbMarkEnd <+: wireLine mark) :
    Queued [⟨[], mark⟩] [mark] :=
  ⟨rfl, by simpa using ⟨by simp, h⟩⟩

lemma ne_nil_of_queued {q : List Segment} {lines : List Bytes} {mark : Bytes}
    (h : Queued q (lines ++ [mark])) : q ≠ [] := by
  rintro rfl
  simpa using h.eq

variable {rows : List Row}

lemma exists_queued_table (td : TupleDesc) (h : PrintsOnLines rows) :
    ((∀ row ∈ rows, ¬ dbMarkEnd <+: wireLine (tupleLine row)) ∧
      Queued [⟨queryLines td rows, dbMarkOk⟩] (queryLines td rows ++ [dbMarkOk])) ∨
    ∃ before bad after more, rows = before ++ bad :: after ∧
      (∀ row ∈ before, ¬ dbMarkEnd <+: wireLine (tupleLine row)) ∧
      Queued (⟨td.header :: td.rule :: before.map tupleLine, tupleLine bad⟩ :: more)
        (queryLines td rows ++ [dbMarkOk]) ∧
      Queued more (after.map tupleLine ++ [[], rowsTrailer rows.length] ++ [dbMarkOk]) := by
  have hok : lf ∉ dbMarkOk ∧ dbMarkEnd <+: wireLine dbMarkOk := by decide
  cases hfind : rows.find? (fun row => dbMarkEnd <+: wireLine (tupleLine row)) with
  | none =>
    have hnone : ∀ row ∈ rows, ¬ dbMarkEnd <+: wireLine (tupleLine row) := by
      simpa using find?_eq_none.mp hfind
    refine .inl ⟨hnone, by simp [Segment.text], ?_⟩
    simpa using ⟨fun l hl => ⟨lf_notMem_queryLines h hl, not_markEnd_queryLines hnone hl⟩, hok⟩
  | some bad =>
    obtain ⟨hbad, before, after, rfl, hbefore⟩ := find?_eq_some_iff_append.mp hfind
    have hlines (l : Bytes) (hl : l ∈ queryLines td (before ++ bad :: after)) : lf ∉ l :=
      lf_notMem_queryLines h hl
    obtain ⟨more, -, hmore⟩ := exists_queued (after.map tupleLine ++
      [[], rowsTrailer (before ++ bad :: after).length]) (fun l hl => hlines l (by
        simp only [queryLines, map_append, map_cons, mem_append, mem_cons] at hl ⊢
        tauto)) hok
    refine .inr ⟨before, bad, after, more, rfl, by simpa using hbefore, ⟨?_, ?_⟩, hmore⟩
    · rw [flatMap_cons, ← hmore.eq]
      simp [queryLines, Segment.text]
    · intro s hs
      rcases mem_cons.mp hs with rfl | hs
      · refine ⟨fun l hl => ⟨hlines l ?_, ?_⟩, hlines _ (by simp [queryLines]), by simpa using hbad⟩
        · simp only [queryLines, map_append, mem_append, mem_cons] at hl ⊢
          tauto
        · have hquery : l ∈ queryLines td before := mem_append_left _ hl
          exact not_markEnd_queryLines (by simpa using hbefore) hquery
      · exact hmore.ok s hs

def Whole (v : List Segment) : Prop := ∃ s rest, v = s :: rest ∧ (s.status = .ok → rest = [])

lemma whole_singleton (s : Segment) : Whole [s] := ⟨s, [], rfl, fun _ => rfl⟩

lemma exists_whole (td : TupleDesc) (h : ∀ row ∈ rows, Legible row) :
    ∃ v, Queued v (queryLines td rows ++ [dbMarkOk]) ∧ Whole v := by
  have hlines := printsOnLines_of_legible h
  rcases exists_queued_table td hlines with ⟨-, hq⟩ | ⟨before, bad, after, more, hrows, -, hq, -⟩
  · exact ⟨_, hq, _, [], rfl, fun _ => rfl⟩
  · refine ⟨_, hq, _, more, rfl, fun hok => ?_⟩
    have hbad : bad ∈ rows := by simp [hrows]
    have hne := wireLine_tupleLine_ne hlines hbad (h bad hbad).2
    simp only [Segment.status, classify, if_neg hne] at hok
    split_ifs at hok

lemma tab_notMem_rowsTrailer (n : ℕ) : tab ∉ rowsTrailer n := by
  intro h
  rcases mem_cons.mp h with h | h
  · exact absurd h (by decide)
  rcases mem_append.mp h with h | h
  · exact absurd (isDigit_of_mem_renderNat h) (by decide)
  · exact absurd h (by decide)

lemma exists_dull (stmt : Stmt) (h : PrintsOnLines rows)
    (htab : ∀ row ∈ rows, tab ∉ tupleLine row) :
    ∃ v, Queued v (queryLines stmt.desc rows ++ [dbMarkOk]) ∧ ∀ s ∈ v, s.Dull := by
  have hrule : tab ∉ stmt.desc.rule := fun hmem =>
    absurd (eq_of_mem_replicate hmem) (by decide)
  have hends (l : Bytes) (hl : l ∈ [[], rowsTrailer rows.length]) : tab ∉ l := by
    simp only [mem_cons, not_mem_nil, or_false] at hl
    rcases hl with rfl | rfl
    · simp
    · exact tab_notMem_rowsTrailer _
  rcases exists_queued_table stmt.desc h with ⟨-, hq⟩ | ⟨before, bad, after, more, hrows, -,
    hq, hmore⟩
  · refine ⟨_, hq, ?_⟩
    rintro s hs
    rw [mem_singleton] at hs
    subst hs
    refine Segment.dull_of_header stmt rfl fun l hl => ?_
    rcases mem_cons.mp hl with rfl | hl
    · exact hrule
    rcases mem_append.mp hl with hl | hl
    · obtain ⟨row, hrow, rfl⟩ := List.mem_map.mp hl
      exact htab row hrow
    · exact hends l hl
  · refine ⟨_, hq, ?_⟩
    intro s hs
    rcases mem_cons.mp hs with rfl | hs
    · refine Segment.dull_of_header stmt rfl fun l hl => ?_
      rcases mem_cons.mp hl with rfl | hl
      · exact hrule
      · obtain ⟨row, hrow, rfl⟩ := List.mem_map.mp hl
        exact htab row (by simp [hrows, hrow])
    · refine Segment.dull_of_notMem fun l hl => ?_
      have hmem : l ∈ after.map tupleLine ++ [[], rowsTrailer rows.length] ++ [dbMarkOk] := by
        rw [hmore.eq]
        exact mem_flatMap.mpr ⟨s, hs, mem_append_left _ hl⟩
      simp only [append_assoc, mem_append, List.mem_map, mem_singleton] at hmem
      rcases hmem with ⟨row, hrow, rfl⟩ | hl | rfl
      · exact htab row (by simp [hrows, hrow])
      · exact hends l hl
      · decide

/-! ## The first row -/

lemma rowsBegin_body (stmt : Stmt) {s : Segment} {line : Bytes} {more : List Bytes}
    (hs : s.lines = stmt.desc.header :: stmt.desc.rule :: line :: more) (hlf : lf ∉ line) :
    ∃ rest, rowsBegin (s.body bodyMax) = wireLine line :: rest := by
  obtain ⟨hrule, hrulelf, -⟩ := wireLine_rule stmt.desc
  have hheader : lf ∉ wireLine stmt.desc.header := notMem_wireLine (lf_notMem_header _)
  have hline : lf ∉ wireLine line := notMem_wireLine hlf
  -- the first three lines fit
  have hthree : ([wireLine stmt.desc.header, wireLine stmt.desc.rule, wireLine line].foldl
      (appendLine bodyMax) []) = wireLine stmt.desc.header ++
        lf :: (wireLine stmt.desc.rule ++ lf :: wireLine line) := by
    have hdesc := length_desc_le stmt
    have hlen : (wireLine line).length ≤ 1023 :=
      ((cstr_sublist _).length_le.trans (length_take_le _ _))
    have hhead := wireLine_length_le stmt.desc.header
    have hrulelen := wireLine_length_le stmt.desc.rule
    rw [foldl_appendLine_eq_intercalate _ (wireLine_header_ne_nil stmt.desc)]
    · simp
    · simp only [intercalate_cons_eq, flatMap_cons, flatMap_nil, length_append,
        length_cons, length_nil, bodyMax]
      omega
  obtain ⟨tail, htail, hhead, -⟩ := foldl_appendLine_eq bodyMax (more.map wireLine)
    (wireLine stmt.desc.header ++ lf :: (wireLine stmt.desc.rule ++ lf :: wireLine line))
  have hbody : s.body bodyMax = wireLine stmt.desc.header ++
      lf :: (wireLine stmt.desc.rule ++ lf :: (wireLine line ++ tail)) := by
    rw [Segment.body, hs]
    have hsplit : (stmt.desc.header :: stmt.desc.rule :: line :: more).map wireLine =
        [wireLine stmt.desc.header, wireLine stmt.desc.rule, wireLine line] ++
          more.map wireLine := rfl
    rw [hsplit, foldl_append, hthree, htail]
    simp
  obtain ⟨rest, hrest⟩ : ∃ rest, (wireLine line ++ tail).splitOn lf = wireLine line :: rest := by
    rcases hhead (by simp) with rfl | htailhead
    · exact ⟨[], by rw [append_nil, splitOn_eq_singleton hline]⟩
    · obtain ⟨t, rfl⟩ : ∃ t, tail = lf :: t := by
        cases tail with
        | nil => simp at htailhead
        | cons c t => exact ⟨t, by rw [some.inj htailhead]⟩
      exact ⟨_, splitOn_append_cons hline t⟩
  have hne : wireLine stmt.desc.rule ≠ [] := by
    intro h
    simp [h, isRule] at hrule
  refine ⟨rest, ?_⟩
  rw [rowsBegin, hbody, splitOn_append_cons hheader, tail_cons, splitOn_append_cons hrulelf,
    hrest, findRule, if_neg (by simp [hne]), if_pos hrule]

lemma rowFields_zero (stmt : Stmt) {s : Segment} (line : Bytes) {more : List Bytes}
    (hs : s.lines = stmt.desc.header :: stmt.desc.rule :: line :: more)
      (hlf : lf ∉ line) {row : Row}
    (h : (readRows (s.body bodyMax)).rowFields 0 = some row) :
    line ≠ [] ∧ row = (wireLine line).splitOn tab := by
  obtain ⟨rest, hrest⟩ := rowsBegin_body stmt hs hlf
  unfold readRows at h
  split_ifs at h with hneg
  · simp [Reply.rowFields] at h
  · have hpos : 0 < dbRowCount (s.body bodyMax) := by
      by_contra hle
      have hzero : dbRowCount (s.body bodyMax) = 0 := by omega
      simp [Reply.rowFields, hzero] at h
    refine ⟨?_, ?_⟩
    · rintro rfl
      -- a blank first line means that there are no rows
      rw [dbRowCount, hrest] at hpos
      have hblank : wireLine [] = [] := rfl
      rw [hblank] at hpos
      rcases blockCount_blank 0 rest with hcount | hcount <;> omega
    · have hlen : 0 < (List.range (dbRowCount (s.body bodyMax)).toNat).length := by
        rw [length_range]
        omega
      simp only [Reply.rowFields, bind_some, getElem?_map,
        getElem?_eq_getElem hlen, getElem_range, map_some, some.injEq] at h
      rw [← h, dbRowFields, if_neg (by push_cast; omega), drop_zero, hrest]
      rfl

/-! ## Statements -/

def Link.Unread (q : List Segment) (l : Link Bytes) : Prop :=
  ∃ ls, l.conn.inbox = unlines ls ∧ Queued q ls

lemma Link.unread_nil {l : Link Bytes} (h : l.conn.inbox = []) : l.Unread [] :=
  ⟨[], h, rfl, by simp⟩

lemma Link.Unread.inbox_eq {l : Link Bytes} (h : l.Unread []) : l.conn.inbox = [] := by
  obtain ⟨ls, hin, hq⟩ := h
  rw [hin, hq.eq]
  rfl

lemma queued_failed {verdict : Verdict} (h : verdict = .error ∨ verdict = .retry) :
    ∃ s : Segment, Queued [s] verdict.lines ∧ s.status ≠ .ok := by
  rcases h with rfl | rfl
  · exact ⟨⟨[], dbMarkError⟩, queued_mark (by decide), by decide⟩
  · exact ⟨⟨[], dbMarkRetry⟩, queued_mark (by decide), by decide⟩

variable {K : Tables → Prop} {V : List Segment → Prop} {q : List Segment} {cap : ℕ} {stmt : Stmt}

lemma Link.Unread.receive {l : Link Bytes} (h : l.Unread q) (cap : ℕ) (stmt : Stmt)
    (verdict : Verdict)
    {v : List Segment} (hv : Queued v verdict.lines) (hne : v ≠ []) (view : Option Tables)
    (store : Tables) : ∃ s rest l', q ++ v = s :: rest ∧
      l.receive wire cap stmt view store verdict = ((s.status, readRows (s.body cap)), l') ∧
      l'.Unread rest := by
  obtain ⟨ls, hin, hq⟩ := h
  obtain ⟨s, rest, hcons⟩ := exists_cons_of_ne_nil
    (show q ++ v ≠ [] from fun h => hne (append_eq_nil_iff.mp h).2)
  have hall := hq.append hv
  rw [hcons] at hall
  simp only [Link.receive, hin, wire_deliver_queue hq hv hcons]
  exact ⟨s, rest, _, hcons, rfl, _, rfl, hall.tail.2.2⟩

/-- A statement whose answer consists of replies `V` takes the first reply off the queue and adds
its own. -/
theorem execStmt_queue (hdata : stmt.isData = true) (hkeeps : stmt.Preserves K)
    (hfail : ∀ s : Segment, s.status ≠ .ok → V [s])
    (hrows : ∀ t t' rows m, K t → stmt.run t = some (t', rows) → m.Perm rows →
      ∃ v, Queued v (queryLines stmt.desc m ++ [dbMarkOk]) ∧ V v) :
    Triple (fun l => l.Keeps K ∧ l.Unread q) (execStmt wire cap stmt)
      (fun reply l => l.Keeps K ∧ ∃ v s rest, V v ∧ q ++ v = s :: rest ∧ s.status = .ok ∧
        reply = readRows (s.body cap) ∧ l.Unread rest) (fun _ _ => True) := by
  suffices hqueue : Triple (fun l => l.Keeps K ∧ l.Unread q) (execStmt wire cap stmt)
      (fun reply l => ∃ v s rest, V v ∧ q ++ v = s :: rest ∧ s.status = .ok ∧
        reply = readRows (s.body cap) ∧ l.Unread rest) (fun _ _ => True) from
    ((execStmt_keeps hkeeps).and hqueue).conseq (fun l hl => ⟨hl.1, hl⟩) (fun _ _ hl => hl)
      fun _ _ _ => trivial
  rintro l ⟨hK, hl⟩
  have hx := dbSocketExec_exchange wire cap stmt l
  simp only [EStateM.run, execStmt]
  generalize dbSocketExec wire cap stmt l = r at hx
  cases hx with
  | unsent status h _ => cases status <;> simp_all [mapStatus]
  | lost why => cases why <;> simp [mapStatus, Link.lose, Terminal.status]
  | failed verdict h =>
    obtain ⟨s, hs, hstatus⟩ := queued_failed h
    obtain ⟨s', rest, l', hcons, hread, hrest⟩ :=
      hl.receive cap stmt verdict hs (by simp) none l.server.store
    rw [hread]
    cases hok : s'.status with
    | ok => exact ⟨[s], s', rest, hfail s hstatus, hcons, hok, rfl, hrest⟩
    | _ => trivial
  | ran order view store answer _ h =>
    rw [Link.execute_data hdata, Link.runData] at h
    have hanswer : ∃ t t' rows, K t ∧ stmt.run t = some (t', rows) ∧
        answer = .table stmt.desc (order.apply rows) := by
      cases hview : l.conn.view with
      | some t =>
        rw [hview] at h
        obtain ⟨⟨t', rows⟩, hrun, heq⟩ := map_eq_some_iff.mp h
        exact ⟨t, t', rows, hK.2 t hview, hrun, by simp_all⟩
      | none =>
        rw [hview] at h
        obtain ⟨⟨t', rows⟩, hrun, heq⟩ := map_eq_some_iff.mp h
        exact ⟨_, t', rows, hK.1, hrun, by simp_all⟩
    obtain ⟨t, t', rows, ht, hrun, rfl⟩ := hanswer
    obtain ⟨v, hv, hV⟩ := hrows t t' rows _ ht hrun (order.perm rows)
    obtain ⟨s, rest, l', hcons, hread, hrest⟩ := hl.receive cap stmt
      (.ok (.table stmt.desc (order.apply rows))) hv (ne_nil_of_queued hv) view store
    rw [hread]
    cases hok : s.status with
    | ok => exact ⟨v, s, rest, hV, hcons, hok, rfl, hrest⟩
    | _ => trivial

end BallotBox
