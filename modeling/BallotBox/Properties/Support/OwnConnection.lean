import BallotBox.Properties.ReplyTransparency
import BallotBox.Properties.Support.AlignedReplies
import BallotBox.Properties.Support.Transactions

/-!
# Commands over the wire, on a connection of their own

A command that opens its own connection starts with nothing unread (`Link.Clear calm view store`).
The proposition `calm` stands for the assumption that the server is going to answer: without it the
same triples speak of the runs that succeed.
-/

namespace BallotBox

open Link Triple List

variable {rows : List Row} {n : ℕ} {cmd : DbCmd}

/-! ## Tables that are read as they are -/

lemma length_reply_le (td : TupleDesc) {k : ℕ} (hn : rows.length ≤ n)
    (hsmall : n < 100) (hk : ∀ row ∈ rows, (tupleLine row).length ≤ k) :
    (unlines (queryLines td rows ++ [dbMarkOk])).length ≤
      td.header.length + td.rule.length + n * (k + 1) + 24 := by
  have hrows : (unlines (rows.map tupleLine)).length ≤ n * (k + 1) := by
    have hsum : (unlines (rows.map tupleLine)).length ≤ rows.length * (k + 1) := by
      clear hn
      induction rows with
      | nil => simp [unlines]
      | cons row rows ih =>
        have hrow := hk row (by simp)
        have hrest := ih fun r hr => hk r (mem_cons_of_mem _ hr)
        simp only [map_cons, unlines, flatMap_cons, length_append, length_cons,
          length_nil] at hrest ⊢
        rw [Nat.succ_mul]
        omega
    exact hsum.trans (Nat.mul_le_mul_right _ hn)
  have hdigits : (renderNat rows.length).length ≤ 2 :=
    length_renderNat_le (by norm_num) (by omega)
  have htrailer : (rowsTrailer rows.length).length ≤ 9 := by
    have hwords : (ascii " rows.").length = 6 := by decide
    simp only [rowsTrailer, cons_append, length_cons, length_append, hwords]
    omega
  have hmark : dbMarkOk.length = 10 := by decide
  simp only [unlines, queryLines, cons_append, flatMap_cons, flatMap_append,
    length_append, length_cons, length_nil, flatMap_nil, hmark] at hrows ⊢
  omega

lemma wire_deliver_framingSafe {r : SelectResult} (h : r.FramingSafe) {cap : ℕ}
    (hcap : r.reply.length ≤ cap) :
    wire.deliver cap [] (.ok (.table r.desc r.rows)) = ((.ok, some r.rows), []) := by
  obtain ⟨hok, hrest, hcount, hfields⟩ := SelectResult.transparent_of_framingSafe h
    ⟨[] ++ r.reply, []⟩ [] cap (readable_arrived r.reply) hcap
  have hdeliver : wire.deliver cap [] (.ok (.table r.desc r.rows)) =
      (((dbWireResponse ⟨[] ++ r.reply, []⟩ cap).1.1,
        readRows (dbWireResponse ⟨[] ++ r.reply, []⟩ cap).1.2),
        (dbWireResponse ⟨[] ++ r.reply, []⟩ cap).2.buffered) := rfl
  have hrows : readRows (dbWireResponse ⟨[] ++ r.reply, []⟩ cap).1.2 = some r.rows := by
    rw [readRows, hcount, if_neg (by omega)]
    refine congrArg some (ext_getElem (by simp) fun i hi hi' => ?_)
    rw [getElem_map, getElem_range, hfields i r.rows[i] (getElem?_eq_getElem hi'), Option.getD_some]
  rw [hdeliver, hok, hrows, buffered_eq_nil hrest]

/-- A row read back whole: no framing in its fields, no end of a reply, and a line of at most `k`
bytes. -/
structure ReadsBack (columns k : ℕ) (row : Row) : Prop where
  arity : row.length = columns
  fields : ∀ f ∈ row, Clean f ∧ tab ∉ f
  head : ¬ dbMarkEnd <+: row.headD []
  ne : row ≠ [[]]
  line : (tupleLine row).length ≤ k

lemma length_desc_le (stmt : Stmt) : stmt.desc.header.length + stmt.desc.rule.length ≤ 300 := by
  cases stmt <;> simp only [Stmt.desc, Stmt.columns, TupleDesc.header, TupleDesc.rule] <;> decide

lemma wire_deliver_small {stmt : Stmt} {m : List Row} {k cap : ℕ} (hm : m.Perm rows)
    (hrows : ∀ row ∈ rows, ReadsBack stmt.desc.names.length k row) (hn : rows.length ≤ n)
    (hsmall : n < 100) (hk : k < dbBodyMax) (hcap : n * (k + 1) + 324 ≤ cap) :
    wire.deliver cap [] (.ok (.table stmt.desc m)) = ((.ok, some m), []) := by
  have hmrows (row : Row) (h : row ∈ m) : ReadsBack stmt.desc.names.length k row :=
    hrows row (hm.subset h)
  let r : SelectResult := ⟨stmt.desc, m, fun row h => (hmrows row h).arity, fun row h f hf =>
    ⟨((hmrows row h).fields f hf).1.1, ((hmrows row h).fields f hf).2,
      ((hmrows row h).fields f hf).1.2.1, ((hmrows row h).fields f hf).1.2.2⟩⟩
  have hsafe : r.FramingSafe := by
    refine ⟨fun row h =>
      ⟨(hmrows row h).head, (hmrows row h).ne, (hmrows row h).line.trans_lt hk⟩, ?_⟩
    have hlen : m.length ≤ n := hm.length_eq.trans_le hn
    have hlarge : 100 < 2 ^ 31 := by norm_num
    exact hlen.trans_lt (hsmall.trans hlarge)
  have hreply : r.reply.length ≤
      stmt.desc.header.length + stmt.desc.rule.length + n * (k + 1) + 24 :=
    length_reply_le stmt.desc (hm.length_eq.trans_le hn) hsmall fun row h => (hmrows row h).line
  have hdesc := length_desc_le stmt
  exact wire_deliver_framingSafe (r := r) hsafe (hreply.trans (by omega))

lemma not_markEnd_render (n : JInt) : ¬ dbMarkEnd <+: n.render := by
  intro h
  have hmem : (60 : UInt8) ∈ n.render := h.subset (by decide)
  rcases mem_renderInt hmem with h | h <;> exact absurd h (by decide)

lemma tab_notMem_render (n : JInt) : tab ∉ n.render := by
  intro h
  rcases mem_renderInt h with h | h <;> exact absurd h (by decide)

/-! ## Statements -/

def Server.Answering (s : Server) : Prop := ∀ i, s.clock ≤ i → ∃ order, s.sched i = .ok order

lemma Server.Answering.tick {s : Server} (h : s.Answering) : s.tick.Answering :=
  fun i hi => h i ((Nat.le_succ _).trans hi)

/-- A connection with nothing unread; if `calm` holds, one that works and will be answered. -/
structure Link.Clear (calm : Prop) (view : Option Tables) (store : Tables) (l : Link Bytes) :
    Prop where
  sees : l.Sees view store
  inbox_eq : l.conn.inbox = []
  working : calm → l.conn.failed = none
  answering : calm → l.server.Answering

def Link.Disturbed (calm : Prop) (store : Tables) (e : BbErr) (l : Link Bytes) : Prop :=
  ¬ calm ∧ l.Fails store e

variable {calm : Prop} {view view' : Option Tables} {t t' store store' : Tables} {cap : ℕ}
  {stmt : Stmt}

lemma execStmt_clear {answer : RowOrder → Answer} {reply : RowOrder → Reply}
    (hbreak : calm → stmt.hasBreak = false)
    (hx : ∀ (l : Link Bytes) order, l.Sees view store →
      l.execute order stmt = some (view', store', answer order))
    (hread : ∀ order, wire.deliver cap [] (.ok (answer order)) = ((.ok, reply order), [])) :
    Triple (Clear calm view store) (execStmt wire cap stmt)
      (fun r l => (∃ order, r = reply order) ∧ l.Clear calm view' store')
      (Disturbed calm store) := by
  intro l hl
  by_cases hcalm : calm
  · obtain ⟨order, hnext⟩ := hl.answering hcalm _ le_rfl
    simp only [EStateM.run, execStmt, dbSocketExec, hl.working hcalm, hbreak hcalm, Server.next,
      hnext, hx l order hl.sees, receive, hl.inbox_eq, hread, mapStatus]
    exact ⟨⟨order, rfl⟩, ⟨rfl, rfl⟩, rfl, fun _ => rfl, fun _ => (hl.answering hcalm).tick⟩
  · obtain ⟨e, l', hrun, hfail⟩ | ⟨order, v, s, a, hx', hrecv⟩ :=
      execStmt_wire_cases cap stmt hl.inbox_eq
    · rw [EStateM.run, hrun]
      exact ⟨hcalm, hfail.1, hfail.2.trans hl.sees.store_eq⟩
    · obtain ⟨rfl, rfl, rfl⟩ : view' = v ∧ store' = s ∧ answer order = a := by
        simpa [hx l order hl.sees] using hx'
      simp only [EStateM.run, execStmt, hrecv, receive, hl.inbox_eq, hread, mapStatus]
      exact ⟨⟨order, rfl⟩, ⟨rfl, rfl⟩, rfl, fun h => absurd h hcalm, fun h => absurd h hcalm⟩

lemma execute_sees (hdata : stmt.isData = true)
    (hrun : stmt.run (view.getD store) = some (view.getD store, rows)) (l : Link Bytes)
    (order : RowOrder) (hl : l.Sees view store) :
    l.execute order stmt = some (view, store, .table stmt.desc (order.apply rows)) := by
  rw [execute_data hdata, runData, hl.view_eq, hl.store_eq]
  cases view <;> simp_all

lemma execStmt_clear_select (hdata : stmt.isData = true) (hclean : calm → ∀ p ∈ stmt.parts, Clean p)
    (hrun : stmt.run (view.getD store) = some (view.getD store, rows))
    (hread : ∀ m, m.Perm rows →
      wire.deliver cap [] (.ok (.table stmt.desc m)) = ((.ok, some m), [])) :
    Triple (Clear calm view store) (execStmt wire cap stmt)
      (fun r l => (∃ m, m.Perm rows ∧ r = some m) ∧ l.Clear calm view store)
      (Disturbed calm store) := by
  refine (execStmt_clear (fun h => hasBreak_eq_false (hclean h)) (execute_sees hdata hrun)
    fun order => hread _ (order.perm rows)).post fun r l hl => ?_
  obtain ⟨⟨order, rfl⟩, hl⟩ := hl
  exact ⟨⟨_, order.perm rows, rfl⟩, hl⟩

lemma wire_deliver_count (td : TupleDesc) (order : RowOrder) (n : ℕ) (cap : ℕ) :
    ∃ reply, wire.deliver cap [] (.ok (.table td (order.apply (countReply n)))) =
      ((.ok, reply), []) := by
  refine ⟨_, wire_deliver_table (printsOnLines_of_legible fun row hrow =>
    legible_countReply n row ((order.perm _).subset hrow)) (fun row hrow hmark => ?_) cap⟩
  obtain rfl : row = [renderNat n] := by
    simpa [countReply] using (order.perm _).subset hrow
  obtain ⟨c, cs, hc⟩ := exists_cons_of_ne_nil (renderNat_ne_nil n)
  have hdigit : isDigit c = true := isDigit_of_mem_renderNat (n := n) (by simp [hc])
  obtain ⟨rest, hrest⟩ := wireLine_cons (c := c) (by rintro rfl; exact absurd hdigit (by decide)) cs
  rw [tupleLine, intercalate_singleton, hc, hrest] at hmark
  obtain ⟨u, hu⟩ := hmark
  obtain rfl : 60 = c := (List.cons.inj hu).1
  exact absurd hdigit (by decide)

lemma execStmt_clear_write (hdata : stmt.isData = true)
    (hclean : calm → ∀ p ∈ stmt.parts, Clean p) (hrun : stmt.run t = some (t', countReply n)) :
    Triple (Clear calm (some t) store) (execStmt wire cap stmt)
      (fun _ => Clear calm (some t') store) (Disturbed calm store) := by
  have hx (l : Link Bytes) (order : RowOrder) (hl : l.Sees (some t) store) : l.execute order stmt =
      some (some t', store, .table stmt.desc (order.apply (countReply n))) := by
    rw [execute_data hdata, runData, hl.view_eq, hl.store_eq]
    simp [hrun]
  exact (execStmt_clear (fun hcalm => hasBreak_eq_false (hclean hcalm)) hx
    fun order => (wire_deliver_count stmt.desc order n cap).choose_spec).post fun _ _ hl => hl.2

lemma doesInserts_clear : DoesInserts wire (fun t => Clear calm (some t) store)
    (Disturbed calm store) :=
  fun _ _ _ hdata hclean hrun => execStmt_clear_write hdata (fun _ => hclean) hrun

lemma execStmt_clear_setTransaction :
    Triple (Clear calm none store) (execStmt wire cap .setTransaction)
      (fun _ => Clear calm (some store) store) (Disturbed calm store) := by
  obtain ⟨reply, hreply⟩ := wire_deliver_note (ascii "Started a new transaction") (by decide) cap
  refine (execStmt_clear (fun _ => rfl) (fun l order hl => ?_) fun _ => hreply).post
    fun _ _ hl => hl.2
  simp [execute, hl.view_eq, hl.store_eq]

lemma execStmt_clear_commit :
    Triple (Clear calm (some t) store) (execStmt wire cap .commit)
      (fun _ => Clear calm none t) (Disturbed calm store) := by
  obtain ⟨reply, hreply⟩ := wire_deliver_note (ascii "Transaction committed.") (by decide) cap
  refine (execStmt_clear (fun _ => rfl) (fun l order hl => ?_) fun _ => hreply).post
    fun _ _ hl => hl.2
  simp [execute, hl.view_eq]

/-! ## Commands -/

def Server.Holds (calm : Prop) (store : Tables) (s : Server) : Prop :=
  s.store = store ∧ (calm → s.Answering)

def Server.Disturbed (calm : Prop) (store : Tables) (_ : BbErr) (s : Server) : Prop :=
  ¬ calm ∧ s.store = store

lemma opens_clear : Opens wire (Server.Holds calm store) (Clear calm none store)
    (Server.Disturbed calm store) := by
  rintro s ⟨hstore, hcalm⟩
  by_cases hlost : ∃ why, s.next = .lost why
  · refine .inl ⟨hlost, fun h => ?_, hstore⟩
    obtain ⟨why, hwhy⟩ := hlost
    obtain ⟨order, horder⟩ := hcalm h s.clock le_rfl
    cases horder.symm.trans hwhy
  · exact .inr ⟨not_exists.mp hlost, ⟨rfl, hstore⟩, rfl, fun _ => rfl, fun h => (hcalm h).tick⟩

lemma dbExec_clear {R : DbResult → Tables → Prop} (hx : Triple (Clear calm none store)
      (if cmd.isWrite then wrapWrite wire (runOp wire cmd) else runOp wire cmd)
      (fun out l => ∃ t, R out t ∧ l.Clear calm none t) (Disturbed calm store)) :
    Triple (World.Between (Server.Holds calm store)) (dbExec wire cmd)
      (fun out => World.Between fun s => ∃ t, R out t ∧ s.Holds calm t)
      (fun e => World.Between (Server.Disturbed calm store e)) := by
  have hone : Triple (World.Between (Server.Holds calm store)) (oneShotAttempt wire cmd)
      (fun out => World.Between fun s => ∃ t, R out t ∧ s.Holds calm t)
      (fun e => World.Between (Server.Disturbed calm store e)) :=
    onFresh_lift opens_clear <| hx.ends
      (fun out l ⟨t, hR, hl⟩ => ⟨t, hR, hl.sees.store_eq, hl.answering⟩)
      fun _ l hl => ⟨hl.1, hl.2.2⟩
  by_cases hcalm : calm
  · exact (dbExec_alone_returns (hone.err fun _ _ hw => hw.2.1 hcalm)).err fun _ _ hw => hw.elim
  · exact dbExec_alone hone (fun s hs => ⟨hs.2, fun h => absurd h hcalm⟩) (fun _ _ hs => hs)
      fun s hs => ⟨hcalm, hs.1⟩

lemma dbExec_reads (hread : cmd.isWrite = false) {R : DbResult → Prop}
    (hx : Triple (Clear calm none store) (runOp wire cmd)
      (fun out l => R out ∧ l.Clear calm none store) (Disturbed calm store)) :
    Triple (World.Between (Server.Holds calm store)) (dbExec wire cmd)
      (fun out => World.Between fun s => R out ∧ s.Holds calm store)
      (fun e => World.Between (Server.Disturbed calm store e)) := by
  refine (dbExec_clear (R := fun out t => R out ∧ t = store) ?_).post ?_
  · rw [hread]
    exact hx.post fun out l hl => ⟨store, ⟨hl.1, rfl⟩, hl.2⟩
  · rintro out w ⟨htxn, t, ⟨hR, rfl⟩, hs⟩
    exact ⟨htxn, hR, hs⟩

lemma dbExec_writes (hwrite : cmd.isWrite = true) {R : DbResult → Tables → Prop}
    (hx : Triple (Clear calm (some store) store) (runOp wire cmd)
      (fun out l => ∃ t, R out t ∧ l.Clear calm (some t) store) (Disturbed calm store)) :
    Triple (World.Between (Server.Holds calm store)) (dbExec wire cmd)
      (fun out => World.Between fun s => ∃ t, R out t ∧ s.Holds calm t)
      (fun e => World.Between (Server.Disturbed calm store e)) := by
  refine dbExec_clear ?_
  rw [hwrite]
  refine wrapWrite_lift execStmt_clear_setTransaction hx (fun out => ?_) fun e => ?_
  · refine exists_elim fun t => of_imp fun hR => ?_
    exact execStmt_clear_commit.post fun _ l hl => ⟨t, hR, hl⟩
  · refine of_imp fun hcalm => of_imp fun he => ?_
    exact execStmt_rollback.ends (fun _ _ hl => ⟨hcalm, he, hl⟩) fun _ _ hl => ⟨hcalm, he, hl⟩

end BallotBox
