import BallotBox.Properties.Support.Commands
import BallotBox.Properties.Support.Replies

/-!
# Statements over the wire

`Link.Aligned` says that nothing is left unread on the connection, so that the reply that is read is
the reply to the statement.  A statement keeps it if no row of its result is the marker `<<END ok>>`
(`execStmt_aligned`).
-/

namespace BallotBox

open Link List Option

/-! ## Reading an answer -/

lemma buffered_eq_nil {w : DbWire} (h : w.readable = []) : w.buffered = [] :=
  (append_eq_nil_iff.mp h).1

lemma readable_arrived (text : Bytes) : (⟨[] ++ text, []⟩ : DbWire).readable = text ++ [] := by
  simp [DbWire.readable, arriving]

lemma wire_deliver_lines {verdict : Verdict} (lines : List Bytes) (mark : Bytes)
    (h : verdict.lines = lines ++ [mark])
    (hlines : ∀ line ∈ lines, lf ∉ line ∧ ¬ dbMarkEnd <+: wireLine line) (hmark : lf ∉ mark)
    (hend : dbMarkEnd <+: wireLine mark) (cap : ℕ) :
    wire.deliver cap [] verdict = ((classify (wireLine mark),
      readRows ((lines.map wireLine).foldl (appendLine cap) [])), []) := by
  obtain ⟨w', hw', hrest⟩ := dbWireResponse_readable cap hlines hmark hend
    (readable_arrived (unlines (lines ++ [mark])))
  simp only [wire, h, hw', buffered_eq_nil hrest]

lemma wire_deliver_error (cap : ℕ) : wire.deliver cap [] .error = ((.error, none), []) :=
  wire_deliver_lines [] dbMarkError rfl (by simp) (by decide) (by decide) cap

lemma wire_deliver_retry (cap : ℕ) : wire.deliver cap [] .retry = ((.retry, none), []) :=
  wire_deliver_lines [] dbMarkRetry rfl (by simp) (by decide) (by decide) cap

lemma wire_deliver_clear (answer : Answer)
    (h : ∀ line ∈ answer.lines, lf ∉ line ∧ ¬ dbMarkEnd <+: wireLine line) (cap : ℕ) :
    wire.deliver cap [] (.ok answer) =
      ((.ok, readRows ((answer.lines.map wireLine).foldl (appendLine cap) [])), []) :=
  wire_deliver_lines answer.lines dbMarkOk rfl h (by decide) (by decide) cap

variable {td : TupleDesc} {rows : List Row}

lemma wireLine_tupleLine_ne (h : PrintsOnLines rows) {row : Row} (hrow : row ∈ rows)
    (hok : tupleLine row ≠ dbMarkOk) : wireLine (tupleLine row) ≠ dbMarkOk := by
  rw [h.wireLine_eq hrow]
  intro heq
  have hlen := congrArg List.length heq
  rw [length_take, show dbMarkOk.length = 10 from rfl, dbBodyMax] at hlen
  rw [take_of_length_le (by simp only [dbBodyMax]; omega)] at heq
  exact hok heq

lemma wire_deliver_marker (td : TupleDesc) (h : PrintsOnLines rows)
    (hok : ∀ row ∈ rows, tupleLine row ≠ dbMarkOk) {row : Row} (hrow : row ∈ rows)
      (hmark : dbMarkEnd <+: wireLine (tupleLine row)) (cap : ℕ) :
    (wire.deliver cap [] (.ok (.table td rows))).1.1 = .error ∨
      (wire.deliver cap [] (.ok (.table td rows))).1.1 = .retry := by
  obtain ⟨before, bad, after, w', hsplit, -, hw', -⟩ := dbWireResponse_marker h hrow hmark cap
    (readable_arrived (unlines (queryLines td rows ++ [dbMarkOk])))
  have hbad : bad ∈ rows := by simp [hsplit]
  have hne := wireLine_tupleLine_ne h hbad (hok bad hbad)
  have hstatus : (wire.deliver cap [] (.ok (.table td rows))).1.1 =
      classify (wireLine (tupleLine bad)) := by
    simp only [wire, Verdict.lines, Answer.lines, hw']
  rw [hstatus, classify, if_neg hne]
  split_ifs <;> simp

lemma wire_deliver_table (h : PrintsOnLines rows)
    (hmark : ∀ row ∈ rows, ¬ dbMarkEnd <+: wireLine (tupleLine row)) (cap : ℕ) :
    wire.deliver cap [] (.ok (.table td rows)) = ((.ok, readRows (tableBody cap td rows)), []) :=
  wire_deliver_clear (.table td rows) (fun _ hline =>
    ⟨lf_notMem_queryLines h hline, not_markEnd_queryLines hmark hline⟩) cap

/-! ## Rows that can be told from a marker -/

/-- A row that cannot be misread: its fields are one-line text, and together not the marker `<<END
ok>>`. -/
def Legible (row : Row) : Prop := (∀ f ∈ row, Clean f) ∧ tupleLine row ≠ dbMarkOk

lemma printsOnLines_of_legible {rows : List Row} (h : ∀ row ∈ rows, Legible row) :
    PrintsOnLines rows :=
  .of_fields fun row hrow f hf => ⟨((h row hrow).1 f hf).1, ((h row hrow).1 f hf).2.2⟩

lemma legible_text {text : Text} (h : text.bytes ≠ dbMarkOk) : Legible [text.bytes] :=
  ⟨by simpa using text.clean, by simpa [tupleLine] using h⟩

lemma legible_int (n : ℤ) : Legible [renderInt n] := by
  refine ⟨by simpa using clean_renderInt n, fun h => ?_⟩
  have hmem : (60 : UInt8) ∈ renderInt n := by
    simp only [tupleLine, intercalate_singleton] at h
    rw [h]
    decide
  rcases mem_renderInt hmem with h | h <;> exact absurd h (by decide)

lemma legible_cons_cons {f g : Bytes} {fs : List Bytes} (h : ∀ x ∈ f :: g :: fs, Clean x) :
    Legible (f :: g :: fs) := by
  refine ⟨h, fun heq => ?_⟩
  have hmem : tab ∈ tupleLine (f :: g :: fs) := by simp [tupleLine, intercalate_cons_eq]
  rw [heq] at hmem
  exact absurd hmem (by decide)

lemma legible_countReply (n : ℕ) : ∀ row ∈ countReply n, Legible row := by
  intro row hrow
  rw [countReply, mem_singleton] at hrow
  have hnat : renderNat n = renderInt n := by simp [renderInt]
  rw [hrow, hnat]
  exact legible_int n

/-- The rows of a statement are legible, if eligible names and the nonce asked for are not the
marker. -/
theorem Stmt.run_legible {t t' : Tables} {stmt : Stmt} {rows : List Row}
    (hnames : ∀ eid, stmt = .selectEligible eid → ∀ v ∈ t.eligibles, v.certName.bytes ≠ dbMarkOk)
    (hnonce : ∀ eid nonce, stmt = .selectNonce eid nonce → nonce ≠ dbMarkOk)
    (hrun : stmt.run t = some (t', rows)) : ∀ row ∈ rows, Legible row := by
  have hcount {n : ℕ} (h : rows = countReply n) : ∀ row ∈ rows, Legible row :=
    h ▸ legible_countReply n
  cases stmt with
  | setTransaction | commit | rollback =>
    obtain ⟨-, rfl⟩ := Prod.mk.inj (some.inj hrun)
    simp
  | insertElection _ _ _ _ _ _ | insertOption _ _ _ | insertEligible _ _ | insertBallot _ _ _ _ _
  | insertOwner _ _ _ _ | insertNonce _ _ =>
    refine hcount (n := 1) ?_
    simp only [Stmt.run, bind_eq_bind, bind_eq_some_iff, some.injEq, Prod.mk.injEq] at hrun
    grind
  | deleteElection _ | deleteBallot _ _ | deleteOwner _ _ =>
    exact hcount (Prod.mk.inj (some.inj hrun)).2.symm
  | selectEligible eid =>
    obtain ⟨-, rfl⟩ := Prod.mk.inj (some.inj hrun)
    intro row hrow
    obtain ⟨v, hv, rfl⟩ := List.mem_map.mp hrow
    exact legible_text (hnames eid rfl v (mem_of_mem_filter hv))
  | selectNonce eid nonce =>
    obtain ⟨-, rfl⟩ := Prod.mk.inj (some.inj hrun)
    intro row hrow
    obtain ⟨n, hn, rfl⟩ := List.mem_map.mp hrow
    obtain ⟨-, -, rfl⟩ : n ∈ t.nonces ∧ n.electionId.bytes = eid ∧ n.nonce.bytes = nonce := by
      simpa [Tables.noncesOf] using hn
    exact legible_text (hnonce _ _ rfl)
  | selectTally eid =>
    obtain ⟨-, rfl⟩ := Prod.mk.inj (some.inj hrun)
    intro row hrow
    obtain ⟨b, -, rfl⟩ := List.mem_map.mp hrow
    exact legible_int _
  | selectMaxSeq =>
    obtain ⟨-, rfl⟩ := Prod.mk.inj (some.inj hrun)
    intro row hrow
    obtain ⟨n, -, rfl⟩ := List.mem_map.mp hrow
    exact legible_int n
  | _ =>
    obtain ⟨-, rfl⟩ := Prod.mk.inj (some.inj hrun)
    intro row hrow
    obtain ⟨r, -, rfl⟩ := List.mem_map.mp hrow
    refine legible_cons_cons ?_
    simp [Text.clean, JInt.render, clean_renderInt]

/-! ## Statements on an aligned connection -/

/-- A transaction is open with this copy of the tables, and nothing is left unread. -/
structure Link.Aligned (t store : Tables) (l : Link Bytes) : Prop where
  sees : l.Sees (some t) store
  inbox_eq : l.conn.inbox = []

lemma execStmt_wire_cases (cap : ℕ) (stmt : Stmt) {l : Link Bytes} (hin : l.conn.inbox = []) :
    (∃ e l', execStmt wire cap stmt l = .error e l' ∧ l'.Fails l.server.store e) ∨
    ∃ order view store answer, l.execute order stmt = some (view, store, answer) ∧
      dbSocketExec wire cap stmt l = l.receive wire cap stmt view store (.ok answer) :=
  execStmt_fails_or_runs (by rw [hin, wire_deliver_error]) (by rw [hin, wire_deliver_retry])

variable {t store : Tables} {cap : ℕ} {stmt : Stmt}

lemma execStmt_aligned (hdata : stmt.isData = true)
    (hrows : ∀ t' rows, stmt.run t = some (t', rows) → ∀ row ∈ rows, Legible row) :
    Triple (Aligned t store) (execStmt wire cap stmt)
      (fun reply l => ∃ t' rows m, stmt.run t = some (t', rows) ∧ m.Perm rows ∧
        reply = readRows (tableBody cap stmt.desc m) ∧ l.Aligned t' store)
      (Fails store) := by
  rintro l ⟨⟨hview, hstore⟩, hin⟩
  rcases execStmt_wire_cases cap stmt hin with ⟨e, l', hrun, hfail⟩ | ⟨order, v, s, a, hx, hrecv⟩
  · rw [EStateM.run, hrun]
    exact ⟨hfail.1, hfail.2.trans hstore⟩
  · rw [execute_data hdata, runData, hview] at hx
    obtain ⟨⟨t', rows⟩, hrun, hx⟩ := map_eq_some_iff.mp hx
    obtain ⟨rfl, rfl, rfl⟩ : some t' = v ∧ l.server.store = s ∧ _ = a := by simpa using hx
    have hlegible : ∀ row ∈ order.apply rows, Legible row := fun row hrow =>
      hrows t' rows hrun row ((order.perm rows).subset hrow)
    have hplain := printsOnLines_of_legible hlegible
    by_cases hmark : ∀ row ∈ order.apply rows, ¬ dbMarkEnd <+: wireLine (tupleLine row)
    · simp only [EStateM.run, execStmt, hrecv, receive, hin, wire_deliver_table hplain hmark,
        mapStatus]
      exact ⟨t', rows, _, hrun, order.perm rows, rfl, ⟨rfl, hstore⟩, rfl⟩
    · simp only [not_forall, not_not] at hmark
      obtain ⟨row, hrow, hmark⟩ := hmark
      have hfail := wire_deliver_marker stmt.desc hplain (fun row hrow => (hlegible row hrow).2)
        hrow hmark cap
      simp only [EStateM.run, execStmt, hrecv, receive, hin]
      rcases hfail with hfail | hfail <;> rw [hfail]
      · exact ⟨.inl rfl, hstore⟩
      · exact ⟨.inr rfl, hstore⟩

lemma wire_deliver_note (line : Bytes) (h : lf ∉ line ∧ ¬ dbMarkEnd <+: wireLine line) (cap : ℕ) :
    ∃ reply, wire.deliver cap [] (.ok (.note line)) = ((.ok, reply), []) :=
  ⟨_, wire_deliver_clear (.note line) (by simpa [Answer.lines] using h) cap⟩

lemma execStmt_aligned_setTransaction :
    Triple (fun l => l.Sees none store ∧ l.conn.inbox = []) (execStmt wire cap .setTransaction)
      (fun _ => Aligned store store) (Fails store) := by
  rintro l ⟨⟨hview, hstore⟩, hin⟩
  rcases execStmt_wire_cases cap .setTransaction hin with ⟨e, l', hrun, hfail⟩ |
    ⟨order, v, s, a, hx, hrecv⟩
  · rw [EStateM.run, hrun]
    exact ⟨hfail.1, hfail.2.trans hstore⟩
  · simp only [execute, hview, some.injEq, Prod.mk.injEq] at hx
    obtain ⟨rfl, rfl, rfl⟩ := hx
    obtain ⟨reply, hreply⟩ := wire_deliver_note (ascii "Started a new transaction") (by decide) cap
    simp only [EStateM.run, execStmt, hrecv, receive, hin, hreply, mapStatus]
    exact ⟨⟨congrArg some hstore, hstore⟩, rfl⟩

lemma execStmt_aligned_commit :
    Triple (Aligned t store) (execStmt wire cap .commit) (fun _ => Stores t) (Fails store) := by
  rintro l ⟨⟨hview, hstore⟩, hin⟩
  rcases execStmt_wire_cases cap .commit hin with ⟨e, l', hrun, hfail⟩ | ⟨order, v, s, a, hx, hrecv⟩
  · rw [EStateM.run, hrun]
    exact ⟨hfail.1, hfail.2.trans hstore⟩
  · simp only [execute, hview, map_some, some.injEq, Prod.mk.injEq] at hx
    obtain ⟨rfl, rfl, rfl⟩ := hx
    obtain ⟨reply, hreply⟩ := wire_deliver_note (ascii "Transaction committed.") (by decide) cap
    simp only [EStateM.run, execStmt, hrecv, receive, hin, hreply, mapStatus]
    rfl

end BallotBox
