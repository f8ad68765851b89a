import BallotBox.Properties.Support.PendingReplies
import BallotBox.Properties.Support.Runs
import BallotBox.Properties.Support.SqlTexts

/-!
# No request changes the shape of a statement

The strings of a command are quoted, so its statements have their shape whatever the strings are.
What is left are the columns that `run_update_state` and `run_mark_superseded` splice in without
quotes: numbers in the tables, but the reply that is read need not be the reply to the select.
-/

namespace BallotBox

open World Link List Option Triple

variable {cap : ℕ} {stmt : Stmt} {R : Row → Prop} {rows : List Row}
variable {t t' : Tables} {A B : Link Bytes → Prop} {w : World Bytes}

/-! ## What is sent -/

def Server.Sent (P : Stmt → Prop) (old : List (Stmt × DbStatus)) (s : Server) : Prop :=
  ∃ new, s.trace = new ++ old ∧ ∀ entry ∈ new, P entry.1

def Link.Sent {ι : Type} (P : Stmt → Prop) (old : List (Stmt × DbStatus)) (l : Link ι) : Prop :=
  l.server.Sent P old

variable {ι : Type} {ch : Channel ι} {P : Stmt → Prop} {old : List (Stmt × DbStatus)}

lemma dbSocketExec_trace (ch : Channel ι) (cap : ℕ) (stmt : Stmt) (l : Link ι) :
    ((dbSocketExec ch cap stmt l).1.1 ≠ .ok ∧ (dbSocketExec ch cap stmt l).2 = l) ∨
    stmt.hasBreak = false ∧ ∃ status,
      (dbSocketExec ch cap stmt l).2.server.trace = (stmt, status) :: l.server.trace := by
  unfold dbSocketExec
  split
  · rename_i why _
    exact .inl ⟨by cases why <;> simp [Terminal.status], rfl⟩
  · split_ifs with hbreak
    · exact .inl ⟨by simp, rfl⟩
    · refine .inr ⟨by simpa using hbreak, ?_⟩
      split
      · exact ⟨_, rfl⟩
      · exact ⟨_, rfl⟩
      · exact ⟨_, rfl⟩
      · split <;> exact ⟨_, rfl⟩

lemma execStmt_sent (h : stmt.hasBreak = false → P stmt) :
    Invariant (Sent P old) (execStmt ch cap stmt) := by
  rintro l ⟨new, hnew, hP⟩
  have hsent : (dbSocketExec ch cap stmt l).2.Sent P old := by
    rcases dbSocketExec_trace ch cap stmt l with ⟨-, heq⟩ | ⟨hbreak, status, htrace⟩
    · rw [heq]
      exact ⟨new, hnew, hP⟩
    · refine ⟨(stmt, status) :: new, by rw [htrace, hnew, cons_append], ?_⟩
      simpa using ⟨h hbreak, fun s st hmem => hP (s, st) hmem⟩
  simp only [EStateM.run, execStmt]
  cases mapStatus (dbSocketExec ch cap stmt l).1.1 <;> exact hsent

lemma Stmt.shaped_of_nil (h : stmt.format.1 = []) : stmt.Shaped := by
  refine shaped_of_fits (by simp [Stmt.Fits, h]) ?_
  simp [Stmt.hasBreak, Stmt.parts_eq, h]

/-! ## Spliced columns -/

lemma numeral_render (n : JInt) : Numeral (CStr.ofBytes n.render : CStr 24).bytes := by
  have hlen : n.render.length ≤ 24 - 1 := n.length_render_le.trans (by norm_num)
  rw [CStr.ofBytes_bytes hlen (clean_renderInt _).1]
  exact numeral_renderInt n.lower n.upper.le

/-- On a connection with the property `S`, the row read to be written again begins with numbers. -/
structure SplicesNumbers (ch : Channel ι) (S : Link ι → Prop) : Prop where
  election : ∀ eid, Triple S (execStmt ch bodyMax (.selectElectionRest eid))
    (fun reply _ => ∀ f g fs, reply.rowFields 0 = some (f :: g :: fs) → ∃ m : JInt, f = m.render)
    (fun _ _ => True)
  ballot : ∀ eid hash, Triple S (execStmt ch bodyMax (.selectBallot eid hash))
    (fun reply _ => ∀ f g fs, reply.rowFields 0 = some (f :: g :: fs) →
      ∃ m n : JInt, f = m.render ∧ g = n.render)
    (fun _ _ => True)

variable {S : Link ι → Prop} {cmd : DbCmd}

/-- **One command.**  Whatever its strings are, the statements of a command have their shape. -/
theorem runOp_sent (hS : cmd.splices = true → SplicesNumbers ch S)
    (hints : ∀ n ∈ cmd.ints, -2 ^ 31 ≤ n ∧ n ≤ 2 ^ 31)
    (hP : ∀ stmt, cmd.Emits stmt → stmt.Shaped → P stmt) :
    Triple (fun l => S l ∧ l.Sent P old) (runOp ch cmd) (fun _ => Sent P old)
      (fun _ => Sent P old) := by
  have hstmt {cap : ℕ} {stmt : Stmt} (hsend : cmd.Emits stmt)
      (hraw : ∀ p ∈ stmt.format.1, ∀ w, p.2 = .raw w → Numeral w) :
      Invariant (Sent P old) (execStmt ch cap stmt) :=
    execStmt_sent fun hbreak => hP stmt hsend (Stmt.shaped_of_fits (hsend.fits hraw) hbreak)
  cases hsplice : cmd.splices with
  | false =>
    refine (runOp_keeps (E := fun _ => Sent P old) (fun _ hl => hl)
      fun cap stmt hsend => ?_).pre fun l hl => hl.2
    exact hstmt hsend (hsend.numerals hints hsplice)
  | true =>
    cases cmd with
    | updateState eid s =>
      refine ((((hS rfl).election eid.bytes).and (hstmt (.selectElectionRest eid s)
        (by simp [Stmt.format]))).err fun _ _ hl => hl.2).bind fun reply => ?_
      refine of_imp fun hrow => Triple.ite (fun _ => raise _) fun _ => ?_
      split
      · rename_i seq title openTime closeTime more hfields
        obtain ⟨m, rfl⟩ := hrow _ _ _ hfields
        refine (hstmt (.deleteElection eid s) (by simp [Stmt.format])).bind fun _ => ?_
        refine (hstmt (.reinsertElection eid s _ _ _ _) ?_).bind fun _ => ret _
        simpa [Stmt.format] using numeral_render m
      · exact raise _
    | markSuperseded eid hash =>
      refine ((((hS rfl).ballot eid.bytes hash.bytes).and (hstmt (.selectBallot eid hash)
        (by simp [Stmt.format]))).err fun _ _ hl => hl.2).bind fun reply => ?_
      refine of_imp fun hrow => Triple.ite (fun _ => raise _) fun _ => ?_
      split
      · rename_i opt ver more hfields
        obtain ⟨m, n, rfl, rfl⟩ := hrow _ _ _ hfields
        refine (hstmt (.deleteBallot eid hash) (by simp [Stmt.format])).bind fun _ => ?_
        refine (hstmt (.reinsertBallot eid hash _ _) ?_).bind fun _ => ret _
        have hone : Numeral (renderInt 1) := numeral_renderInt (by norm_num) (by norm_num)
        simpa [Stmt.format] using And.intro (numeral_render m) (And.intro (numeral_render n) hone)
      · exact raise _
    | _ => cases hsplice

/-! ## Over the direct channel -/

lemma execStmt_direct_rows (hdata : stmt.isData = true)
    (hrows : ∀ t t' rows, stmt.run t = some (t', rows) → ∀ row ∈ rows, R row) :
    Triple (fun _ => True) (execStmt direct cap stmt)
      (fun reply _ => ∀ row, reply.rowFields 0 = some row → R row) (fun _ _ => True) := by
  intro l _
  obtain ⟨e, l', hrun, -⟩ | ⟨order, view, store, answer, l', hx, hrun, -⟩ :=
    execStmt_cases cap stmt l
  · rw [EStateM.run, hrun]
    trivial
  · rw [EStateM.run, hrun]
    rw [execute_data hdata, runData] at hx
    obtain ⟨t, t', rows, hstmt, rfl⟩ : ∃ t t' rows, stmt.run t = some (t', rows) ∧
        answer = .table stmt.desc (order.apply rows) := by
      cases hview : l.conn.view with
      | some t =>
        rw [hview] at hx
        obtain ⟨⟨t', rows⟩, hstmt, heq⟩ := map_eq_some_iff.mp hx
        exact ⟨t, t', rows, hstmt, by simp_all⟩
      | none =>
        rw [hview] at hx
        obtain ⟨⟨t', rows⟩, hstmt, heq⟩ := map_eq_some_iff.mp hx
        exact ⟨_, t', rows, hstmt, by simp_all⟩
    intro row hrow
    have hmem : row ∈ order.apply rows := mem_of_getElem? hrow
    exact hrows t t' rows hstmt row ((order.perm rows).subset hmem)

lemma run_selectElectionRest {eid : Bytes}
    (h : (Stmt.selectElectionRest eid).run t = some (t', rows)) :
    ∀ row ∈ rows, ∃ (m : JInt) (a b c : Text), row = [m.render, a.bytes, b.bytes, c.bytes] := by
  obtain ⟨-, rfl⟩ := Prod.mk.inj (some.inj h)
  intro row hrow
  obtain ⟨r, -, rfl⟩ := List.mem_map.mp hrow
  exact ⟨r.seq, r.title, r.openTime, r.closeTime, rfl⟩

lemma run_selectBallot {eid hash : Bytes}
    (h : (Stmt.selectBallot eid hash).run t = some (t', rows)) :
    ∀ row ∈ rows, ∃ m n : JInt, row = [m.render, n.render] := by
  obtain ⟨-, rfl⟩ := Prod.mk.inj (some.inj h)
  intro row hrow
  obtain ⟨b, -, rfl⟩ := List.mem_map.mp hrow
  exact ⟨b.optionIndex, b.version, rfl⟩

lemma splicesNumbers_direct : SplicesNumbers direct fun _ => True where
  election eid := by
    refine (execStmt_direct_rows rfl fun _ _ _ h => run_selectElectionRest h).post ?_
    intro reply _ hread f g fs hrow
    obtain ⟨m, a, b, c, heq⟩ := hread _ hrow
    exact ⟨m, (List.cons.inj heq).1⟩
  ballot eid hash := by
    refine (execStmt_direct_rows rfl fun _ _ _ h => run_selectBallot h).post ?_
    intro reply _ hread f g fs hrow
    obtain ⟨m, n, heq⟩ := hread _ hrow
    obtain ⟨rfl, rfl, -⟩ : f = m.render ∧ g = n.render ∧ fs = [] := by simpa using heq
    exact ⟨m, n, rfl, rfl⟩

/-! ## Over the wire -/

def Link.Tame (l : Link Bytes) : Prop := ∃ q, l.Unread q ∧ ∀ s ∈ q, s.Dull

lemma Link.tame_nil {l : Link Bytes} (h : l.conn.inbox = []) : l.Tame :=
  ⟨[], unread_nil h, by simp⟩

lemma not_markEnd_numeral (n : JInt) (rest : Bytes) :
    ¬ dbMarkEnd <+: wireLine (n.render ++ rest) := by
  obtain ⟨c, cs, hc⟩ := exists_cons_of_ne_nil n.render_ne_nil
  have hbyte : c = 45 ∨ isDigit c = true := mem_renderInt (n := n.val) (by
    rw [← JInt.render, hc]
    exact mem_cons_self)
  obtain ⟨u, hu⟩ := wireLine_cons (c := c) (by
    rintro rfl
    exact absurd hbyte (by decide)) (cs ++ rest)
  rw [hc, cons_append, hu]
  rintro ⟨t, ht⟩
  obtain rfl : 60 = c := (List.cons.inj ht).1
  exact absurd hbyte (by decide)

lemma wireLine_numeral (n : JInt) {rest : Bytes} (h : (0 : UInt8) ∉ rest) :
    ∃ k, 1000 ≤ k ∧ wireLine (n.render ++ tab :: rest) = n.render ++ tab :: rest.take k := by
  have hlen := n.length_render_le
  have hnul : (0 : UInt8) ∉ n.render ++ tab :: rest := by
    simpa using ⟨(clean_renderInt n.val).1, by decide, h⟩
  refine ⟨dbBodyMax - 1 - n.render.length - 1, by simp only [dbBodyMax]; omega, ?_⟩
  rw [wireLine, cstr_eq_self fun h0 => hnul (mem_of_mem_take h0), take_append,
    take_of_length_le (by simp only [dbBodyMax]; omega)]
  have hpos : dbBodyMax - 1 - n.render.length = (dbBodyMax - 1 - n.render.length - 1) + 1 := by
    simp only [dbBodyMax]
    omega
  rw [hpos, take_succ_cons]
  rfl

lemma queued_numerals (stmt : Stmt)
    (hrows : ∀ row ∈ rows, ∃ (n : JInt) (rest : Bytes), (0 : UInt8) ∉ rest ∧ lf ∉ rest ∧
      tupleLine row = n.render ++ tab :: rest ∧ ∀ k, 1000 ≤ k →
        R (n.render :: (rest.take k).splitOn tab)) :
    ∃ v, Queued v (queryLines stmt.desc rows ++ [dbMarkOk]) ∧ ∃ s rest, v = s :: rest ∧
      ∀ row, (readRows (s.body bodyMax)).rowFields 0 = some row → R row := by
  have hlf (row : Row) (hrow : row ∈ rows) :
      (0 : UInt8) ∉ tupleLine row ∧ lf ∉ tupleLine row := by
    obtain ⟨n, rest, hnul, hlf, heq, -⟩ := hrows row hrow
    rw [heq]
    have hclean := clean_renderInt n.val
    exact ⟨by simpa using ⟨hclean.1, by decide, hnul⟩, by simpa using ⟨hclean.2.2, by decide, hlf⟩⟩
  have hmark (row : Row) (hrow : row ∈ rows) : ¬ dbMarkEnd <+: wireLine (tupleLine row) := by
    obtain ⟨n, rest, -, -, heq, -⟩ := hrows row hrow
    rw [heq]
    exact not_markEnd_numeral n _
  have hq :
      Queued [⟨queryLines stmt.desc rows, dbMarkOk⟩] (queryLines stmt.desc rows ++ [dbMarkOk]) :=
    ⟨by simp [Segment.text], by
      simpa using ⟨fun l hl => ⟨lf_notMem_queryLines hlf hl, not_markEnd_queryLines hmark hl⟩,
        (by decide : lf ∉ dbMarkOk ∧ dbMarkEnd <+: wireLine dbMarkOk)⟩⟩
  refine ⟨_, hq, _, [], rfl, fun row hread => ?_⟩
  cases rows with
  | nil => exact absurd rfl (rowFields_zero stmt [] rfl (by simp) hread).1
  | cons first rows =>
    obtain ⟨n, rest, hnul, -, heq, hR⟩ := hrows first (by simp)
    obtain ⟨k, hk, hline⟩ := wireLine_numeral n hnul
    obtain ⟨-, rfl⟩ := rowFields_zero stmt (tupleLine first) rfl
      (hlf first (by simp)).2 hread
    rw [heq, hline, splitOn_append_cons (tab_notMem_render n)]
    exact hR k hk

lemma execStmt_tame (hselect : stmt.half? = none) (hdata : stmt.isData = true)
    (hrows : ∀ t t' rows m, stmt.run t = some (t', rows) → m.Perm rows →
      ∃ v, Queued v (queryLines stmt.desc m ++ [dbMarkOk]) ∧ ∃ s rest, v = s :: rest ∧
        ∀ row, (readRows (s.body bodyMax)).rowFields 0 = some row → R row) :
    Triple Tame (execStmt wire bodyMax stmt)
      (fun reply _ => ∀ f g fs, reply.rowFields 0 = some (f :: g :: fs) → R (f :: g :: fs))
      (fun _ _ => True) := by
  refine exists_elim fun q => ?_
  have hqueue : Triple (fun l => l.Keeps (fun _ => True) ∧ l.Unread q) (execStmt wire bodyMax stmt)
      _ _ := execStmt_queue (V := fun v => ∃ s rest, v = s :: rest ∧ (s.status = .ok →
        ∀ row, (readRows (s.body bodyMax)).rowFields 0 = some row → R row)) hdata
    (Stmt.preserves_select hselect) (fun s hs => ⟨s, [], rfl, fun hok => absurd hok hs⟩)
    fun t t' rows m _ hrun hm => by
      obtain ⟨v, hv, s, rest, hs, hR⟩ := hrows t t' rows m hrun hm
      exact ⟨v, hv, s, rest, hs, fun _ => hR⟩
  intro l hl
  obtain ⟨hunread, hdull⟩ := hl
  have hpost := hqueue l ⟨⟨trivial, fun _ _ => trivial⟩, hunread⟩
  cases hrun : (execStmt wire bodyMax stmt).run l with
  | error e l' => trivial
  | ok reply l' =>
    rw [hrun] at hpost
    obtain ⟨-, v, s, rest, ⟨s', rest', rfl, hR⟩, hcons, hok, rfl, -⟩ := hpost
    intro f g fs hrow
    cases q with
    | nil =>
      obtain ⟨rfl, -⟩ := List.cons.inj hcons
      exact hR hok _ hrow
    | cons s₀ q =>
      obtain ⟨rfl, -⟩ := List.cons.inj hcons
      have hlen := hdull s₀ (by simp) hok 0 _ hrow
      simp at hlen

lemma splicesNumbers_wire : SplicesNumbers wire Tame where
  election eid := by
    refine (execStmt_tame (R := fun row => ∃ f fs, row = f :: fs ∧ ∃ m : JInt, f = m.render) rfl rfl
      fun t t' rows m hrun hm => queued_numerals _ fun row hrow => ?_).post ?_
    · obtain ⟨n, a, b, c, rfl⟩ := run_selectElectionRest hrun row (hm.subset hrow)
      have hmem {x : UInt8} (hx : x ∈ tupleLine [a.bytes, b.bytes, c.bytes]) :
          x = tab ∨ x ∈ a.bytes ∨ x ∈ b.bytes ∨ x ∈ c.bytes := by
        simpa using mem_tupleLine hx
      refine ⟨n, tupleLine [a.bytes, b.bytes, c.bytes], fun h => ?_, fun h => ?_, ?_, fun k _ =>
        ⟨_, _, rfl, n, rfl⟩⟩
      · rcases hmem h with h | h | h | h
        · exact absurd h (by decide)
        · exact a.clean.1 h
        · exact b.clean.1 h
        · exact c.clean.1 h
      · rcases hmem h with h | h | h | h
        · exact absurd h (by decide)
        · exact a.clean.2.2 h
        · exact b.clean.2.2 h
        · exact c.clean.2.2 h
      · simp [tupleLine]
    · rintro reply _ hread f g fs hrow
      obtain ⟨f', fs', heq, m, hm⟩ := hread f g fs hrow
      exact ⟨m, (List.cons.inj heq).1.trans hm⟩
  ballot eid hash := by
    refine (execStmt_tame (R := fun row => ∃ m n : JInt, row = [m.render, n.render]) rfl rfl
      fun t t' rows m hrun hm => queued_numerals _ fun row hrow => ?_).post ?_
    · obtain ⟨m, n, rfl⟩ := run_selectBallot hrun row (hm.subset hrow)
      have hclean := clean_renderInt n.val
      refine ⟨m, n.render, hclean.1, hclean.2.2, by simp [tupleLine], ?_⟩
      intro k hk
      have hlen := n.length_render_le
      rw [take_of_length_le (by omega), splitOn_eq_singleton (tab_notMem_render n)]
      exact ⟨m, n, rfl⟩
    · rintro reply _ hread f g fs hrow
      obtain ⟨m, n, heq⟩ := hread f g fs hrow
      obtain ⟨rfl, rfl, -⟩ : f = m.render ∧ g = n.render ∧ fs = [] := by simpa using heq
      exact ⟨m, n, rfl, rfl⟩

/-! ## `db_exec` -/

section Exec

variable {F : Link ι → Prop} (hS : SplicesNumbers ch S)
  (hfresh : ∀ s, F ⟨⟨none, ch.fresh, none⟩, s⟩) (hFS : ∀ l, F l → S l)
  (hset : Triple F (execStmt ch 0 .setTransaction) (fun _ => S) (fun _ _ => True))
  (hcontrol : ∀ stmt : Stmt, stmt.isData = false → stmt.Shaped → P stmt)

include hcontrol in
lemma execStmt_control_sent (h : stmt.isData = false) :
    Invariant (Sent P old) (execStmt ch 0 stmt) := by
  refine execStmt_sent fun _ => hcontrol stmt h (Stmt.shaped_of_nil ?_)
  cases stmt <;> first | rfl | cases h

include hS hfresh hFS hset hcontrol in
theorem dbExec_alone_sent (hints : ∀ n ∈ cmd.ints, -2 ^ 31 ≤ n ∧ n ≤ 2 ^ 31)
    (hP : ∀ stmt, cmd.Emits stmt → stmt.Shaped → P stmt) :
    Invariant (Between (Server.Sent P old)) (dbExec ch cmd) := by
  have hop : Triple (fun l => S l ∧ l.Sent P old) (runOp ch cmd) (fun _ => Sent P old)
      (fun _ => Sent P old) := runOp_sent (fun _ => hS) hints hP
  have hwrap : Triple (fun l => F l ∧ l.Sent P old) (wrapWrite ch (runOp ch cmd))
      (fun _ => Sent P old) (fun _ => Sent P old) :=
    wrapWrite_lift ((hset.and (execStmt_control_sent hcontrol rfl)).err fun _ _ hl => hl.2) hop
      (fun _ => execStmt_control_sent hcontrol rfl)
      fun _ => execStmt_control_sent hcontrol rfl
  have hone : Invariant (Between (Server.Sent P old)) (oneShotAttempt ch cmd) := by
    refine onFresh_lift (P := fun l => F l ∧ l.Sent P old) (T := fun _ => Server.Sent P old)
      (opens_of_tick (fun _ hs => hs) fun s hs => ⟨hfresh _, hs⟩) ?_
    exact Triple.ite (fun _ => hwrap) fun _ => hop.pre fun l hl => ⟨hFS l hl.1, hl.2⟩
  exact dbExec_alone hone (fun _ hs => hs) (fun _ _ hs => hs) fun _ hs => hs

end Exec

def Link.New (l : Link Bytes) : Prop := l.conn.view = none ∧ l.conn.inbox = []

lemma execStmt_new_setTransaction :
    Triple New (execStmt wire 0 .setTransaction) (fun _ l => l.conn.inbox = [])
      (fun _ _ => True) := by
  intro l hl
  have hset : Triple (fun l' => l'.Sees none l.server.store ∧ l'.conn.inbox = [])
      (execStmt wire 0 .setTransaction) (fun _ l => l.conn.inbox = []) (fun _ _ => True) :=
    execStmt_aligned_setTransaction.ends (fun _ _ h => h.inbox_eq)
      fun _ _ _ => trivial
  exact hset l ⟨⟨hl.1, rfl⟩, hl.2⟩

lemma dbExec_wire_sent (hints : ∀ n ∈ cmd.ints, -2 ^ 31 ≤ n ∧ n ≤ 2 ^ 31)
    (hcontrol : ∀ stmt : Stmt, stmt.isData = false → stmt.Shaped → P stmt)
    (hP : ∀ stmt, cmd.Emits stmt → stmt.Shaped → P stmt) :
    Invariant (Between (Server.Sent P old)) (dbExec wire cmd) :=
  dbExec_alone_sent splicesNumbers_wire (fun _ => (⟨rfl, rfl⟩ : New _))
    (fun _ hl => tame_nil hl.2)
    (execStmt_new_setTransaction.post fun _ _ hl => tame_nil hl) hcontrol hints hP

lemma dbExec_direct_sent (hints : ∀ n ∈ cmd.ints, -2 ^ 31 ≤ n ∧ n ≤ 2 ^ 31)
    (hcontrol : ∀ stmt : Stmt, stmt.isData = false → stmt.Shaped → P stmt)
    (hP : ∀ stmt, cmd.Emits stmt → stmt.Shaped → P stmt) :
    Invariant (fun w => w.server.Sent P old) (dbExec direct cmd) := by
  have halone : Invariant (Between (Server.Sent P old)) (dbExec direct cmd) :=
    dbExec_alone_sent splicesNumbers_direct (F := fun _ => True) (fun _ => trivial)
      (fun _ _ => trivial) (fun l _ => by
        cases (execStmt direct 0 .setTransaction).run l <;> trivial) hcontrol hints hP
  have htxn : Invariant (OnTxn (Sent P old)) (dbExec direct cmd) :=
    dbExec_lift
      ((runOp_sent (fun _ => splicesNumbers_direct) hints hP).pre fun _ hl => ⟨trivial, hl⟩)
  intro w hw
  cases hconn : w.txnConn with
  | none =>
    refine (halone.ends (fun _ _ h => h.2) fun _ _ h => h.2 :
      Triple _ _ (fun _ w => w.server.Sent P old) (fun _ w => w.server.Sent P old)) w ⟨hconn, hw⟩
  | some c =>
    have hdone : Triple (OnTxn (Sent P old)) (dbExec direct cmd)
        (fun _ w => w.server.Sent P old) (fun _ w => w.server.Sent P old) :=
      htxn.ends (fun _ _ ⟨_, _, h⟩ => h) fun _ _ ⟨_, _, h⟩ => h
    exact hdone w ⟨c, hconn, hw⟩

/-! ## The queue of a recording -/

def NamesWithoutTab (t : Tables) : Prop := ∀ v ∈ t.eligibles, tab ∉ v.certName.bytes

lemma DbCmd.Emits.namesWithoutTab (h : cmd.Emits stmt) : stmt.Preserves NamesWithoutTab := by
  intro t t' rows ht hrun
  obtain heq | ⟨eid, cert, v, rfl, hv, heq⟩ := Stmt.run_eligibles hrun
  · exact fun v hv => ht v (heq ▸ hv)
  · cases h with
    | insertEligible eid config cert hcert hsafe =>
      intro v' hv'
      rw [heq, mem_append, mem_singleton] at hv'
      rcases hv' with hv' | rfl
      · exact ht v' hv'
      · rw [hv]
        intro htab
        have hrough : unsafeText cert.bytes = true :=
          List.any_eq_true.mpr ⟨tab, htab, by simp⟩
        simp [hsafe] at hrough

def Link.AfterNonce (l : Link Bytes) : Prop :=
  ∃ q v, l.Unread (q ++ v) ∧ (∀ s ∈ q, s.Dull) ∧ (v = [] ∨ Whole v)

def Link.AfterPrior (l : Link Bytes) : Prop := ∃ v, l.Unread v ∧ (v = [] ∨ Whole v)

lemma execStmt_unread_nil (hselect : stmt.half? = none) (hdata : stmt.isData = true)
    (hlegible : ∀ t t' rows, stmt.run t = some (t', rows) → ∀ row ∈ rows, Legible row) :
    Triple (fun l => l.Keeps NamesWithoutTab ∧ l.Unread []) (execStmt wire cap stmt)
      (fun _ l => l.Keeps NamesWithoutTab ∧ l.Unread []) (fun _ _ => True) := by
  refine (execStmt_queue (V := Whole) hdata (Stmt.preserves_select hselect)
    (fun s _ => whole_singleton s) fun t t' rows m _ hrun hm =>
      exists_whole _ fun row hrow => hlegible t t' rows hrun row (hm.subset hrow)).post ?_
  rintro reply l ⟨hK, v, s, rest, ⟨s', rest', rfl, hwhole⟩, hcons, hok, -, hl⟩
  obtain ⟨rfl, rfl⟩ := List.cons.inj hcons
  exact ⟨hK, hwhole hok ▸ hl⟩

lemma runGetElection_queue (eid : CStr bbIdLen) :
    Triple (fun l => l.Keeps NamesWithoutTab ∧ l.Unread []) (runGetElection wire eid)
      (fun _ => Tame) (fun _ _ => True) := by
  have hnil (l : Link Bytes) (hl : l.Keeps NamesWithoutTab ∧ l.Unread []) : l.Tame :=
    tame_nil hl.2.inbox_eq
  have hrefuse {α : Type} {Q : α → Link Bytes → Prop} {P : Link Bytes → Prop} (e : BbErr) :
      Triple P (MonadExcept.throw e : EStateM BbErr (Link Bytes) α) Q (fun _ _ => True) :=
    (Triple.throw e).pre fun _ _ => trivial
  have helection (t t' : Tables) (rows : List Row)
      (hrun : (Stmt.selectElection eid.bytes).run t = some (t', rows)) :
          ∀ row ∈ rows, Legible row :=
    Stmt.run_legible (by simp) (by simp) hrun
  have hoptions (t t' : Tables) (rows : List Row)
      (hrun : (Stmt.selectOptions eid.bytes).run t = some (t', rows)) : ∀ row ∈ rows, Legible row :=
    Stmt.run_legible (by simp) (by simp) hrun
  refine (execStmt_unread_nil rfl rfl helection).bind fun reply => ?_
  refine Triple.ite (fun _ => hrefuse _) fun _ => ?_
  refine Triple.ite (fun _ => (Triple.pure _).pre hnil) fun _ => ?_
  split
  · split
    · exact hrefuse _
    · refine (execStmt_unread_nil rfl rfl hoptions).bind fun _ => ?_
      refine (execStmt_queue (V := fun v => ∀ s ∈ v, s.Dull) rfl
        (Stmt.preserves_select rfl) (fun s hs => by simpa using Segment.dull_of_failed hs)
        fun t t' rows m hnames hrun hm => ?_).bind fun _ => ?_
      · obtain ⟨-, rfl⟩ := Prod.mk.inj (some.inj hrun)
        have hname (row : Row) (hrow : row ∈ m) : ∃ v ∈ t.eligibles, row = [v.certName.bytes] := by
          obtain ⟨v, hv, rfl⟩ := List.mem_map.mp (hm.subset hrow)
          exact ⟨v, mem_of_mem_filter hv, rfl⟩
        refine exists_dull _ (.of_fields fun row hrow => ?_) fun row hrow => ?_
        · obtain ⟨v, -, rfl⟩ := hname row hrow
          simpa using ⟨v.certName.clean.1, v.certName.clean.2.2⟩
        · obtain ⟨v, hv, rfl⟩ := hname row hrow
          simpa [tupleLine] using hnames v hv
      · rintro l ⟨-, v, s, rest, hdull, hcons, -, -, hl⟩
        obtain rfl : v = s :: rest := by simpa using hcons
        exact ⟨rest, hl, fun r hr => hdull r (mem_cons_of_mem _ hr)⟩
  · exact hrefuse _

lemma runNonceSeen_queue (eid : CStr bbIdLen) (nonce : CStr bbNonceLen) :
    Triple (fun l => l.Keeps NamesWithoutTab ∧ l.Tame) (runNonceSeen wire eid nonce)
      (fun _ => AfterNonce) (fun _ _ => True) := by
  have hqueue (q : List Segment) (hq : ∀ s ∈ q, s.Dull) :
      Triple (fun l => l.Keeps NamesWithoutTab ∧ l.Unread q) (runNonceSeen wire eid nonce)
        (fun _ => AfterNonce) (fun _ _ => True) := by
    refine (execStmt_queue (V := fun v => Whole v ∨ ∀ s ∈ v, s.Dull) rfl
      (Stmt.preserves_select rfl) (fun s _ => .inl (whole_singleton s))
      fun t t' rows m _ hrun hm => ?_).bind fun _ => ?_
    · obtain ⟨-, rfl⟩ := Prod.mk.inj (some.inj hrun)
      have hrow (row : Row) (hmem : row ∈ m) : ∃ n : Text, n.bytes = nonce.bytes ∧
        row = [n.bytes] := by
        obtain ⟨n, hn, rfl⟩ := List.mem_map.mp (hm.subset hmem)
        have hn' : n ∈ t.nonces ∧ n.electionId.bytes = eid.bytes ∧ n.nonce.bytes = nonce.bytes := by
          simpa [Tables.noncesOf] using hn
        exact ⟨n.nonce, hn'.2.2, rfl⟩
      by_cases htab : tab ∈ nonce.bytes
      · obtain ⟨v, hv, hwhole⟩ := exists_whole (Stmt.selectNonce eid.bytes nonce.bytes).desc
          fun row hmem => by
            obtain ⟨n, hn, rfl⟩ := hrow row hmem
            refine legible_text fun hok => ?_
            rw [← hn, hok] at htab
            exact absurd htab (by decide)
        exact ⟨v, hv, .inl hwhole⟩
      · obtain ⟨v, hv, hdull⟩ := exists_dull (Stmt.selectNonce eid.bytes nonce.bytes)
          (.of_fields fun row hmem => by
            obtain ⟨n, -, rfl⟩ := hrow row hmem
            simpa using ⟨n.clean.1, n.clean.2.2⟩)
          fun row hmem => by
            obtain ⟨n, hn, rfl⟩ := hrow row hmem
            simpa [tupleLine, hn] using htab
        exact ⟨v, hv, .inr hdull⟩
    · rintro l ⟨-, v, s, rest, hV, hcons, hok, -, hl⟩
      cases q with
      | nil =>
        obtain rfl : v = s :: rest := by simpa using hcons
        rcases hV with ⟨s', rest', heq, hwhole⟩ | hdull
        · obtain ⟨rfl, rfl⟩ := List.cons.inj heq
          obtain rfl := hwhole hok
          exact ⟨[], [], hl, by simp, .inl rfl⟩
        · exact ⟨rest, [], by simpa using hl, fun r hr => hdull r (mem_cons_of_mem _ hr),
            .inl rfl⟩
      | cons s₀ q =>
        obtain ⟨rfl, rfl⟩ := List.cons.inj hcons
        have htail : ∀ r ∈ q, r.Dull := fun r hr => hq r (mem_cons_of_mem _ hr)
        rcases hV with hwhole | hdull
        · exact ⟨q, v, hl, htail, .inr hwhole⟩
        · refine ⟨q ++ v, [], by simpa using hl, fun r hr => ?_, .inl rfl⟩
          exact (mem_append.mp hr).elim (htail r) (hdull r)
  rintro l ⟨hK, q, hl, hq⟩
  exact hqueue q hq l ⟨hK, hl⟩

lemma runGetPriorBallot_queue (eid : CStr bbIdLen) (cert : CStr bbCertLen) :
    Triple (fun l => l.Keeps NamesWithoutTab ∧ l.AfterNonce) (runGetPriorBallot wire eid cert)
      (fun out l => (-2 ^ 31 ≤ out.row.version ∧ out.row.version < 2 ^ 31) ∧
        (out.found = true → l.AfterPrior)) (fun _ _ => True) := by
  have hdefault : -2 ^ 31 ≤ (default : DbResult).row.version ∧
      (default : DbResult).row.version < 2 ^ 31 := by decide
  have hqueue (q v : List Segment) (hq : ∀ s ∈ q, s.Dull) (hv : v = [] ∨ Whole v) :
      Triple (fun l => l.Keeps NamesWithoutTab ∧ l.Unread (q ++ v))
        (runGetPriorBallot wire eid cert)
        (fun out l => (-2 ^ 31 ≤ out.row.version ∧ out.row.version < 2 ^ 31) ∧
          (out.found = true → l.AfterPrior)) (fun _ _ => True) := by
    have hlegible (t t' : Tables) (rows : List Row)
        (hrun : (Stmt.selectPrior eid.bytes cert.bytes).run t = some (t', rows)) :
        ∀ row ∈ rows, Legible row :=
      Stmt.run_legible (by simp) (by simp) hrun
    refine (execStmt_queue (V := Whole) rfl (Stmt.preserves_select rfl)
      (fun s _ => whole_singleton s) fun t t' rows m _ hrun hm => exists_whole _ fun row hrow =>
        hlegible t t' rows hrun row (hm.subset hrow)).bind fun reply => ?_
    refine Triple.ite (fun _ => (Triple.pure _).pre fun l _ => ⟨hdefault, by simp [default]⟩)
      fun _ => ?_
    split
    · rename_i hash version more hfields
      rintro l ⟨-, v', s, rest, hwhole, hcons, hok, rfl, hl⟩
      refine ⟨wrap32_range _, fun _ => ?_⟩
      -- the reply has two fields, so it is not one of those left by the list
      cases q with
      | cons s₀ q =>
        obtain ⟨rfl, -⟩ := List.cons.inj hcons
        have hlen := hq s₀ (by simp) hok 0 _ hfields
        simp at hlen
      | nil =>
        rcases hv with rfl | ⟨s₁, rest₁, rfl, hv⟩
        · obtain ⟨s', rest', rfl, hwhole⟩ := hwhole
          obtain ⟨rfl, rfl⟩ := List.cons.inj hcons
          exact ⟨[], hwhole hok ▸ hl, .inl rfl⟩
        · obtain ⟨rfl, rfl⟩ := List.cons.inj hcons
          obtain rfl := hv hok
          exact ⟨v', hl, .inr hwhole⟩
    · exact (Triple.throw _).pre fun _ _ => trivial
  rintro l ⟨hK, q, v, hl, hq, hv⟩
  exact hqueue q v hq hv l ⟨hK, hl⟩

lemma runAppendBallot_queue (eid : CStr bbIdLen) (row : BbBallotHash) :
    Triple (fun l => l.Keeps NamesWithoutTab ∧ l.AfterPrior) (runAppendBallot wire eid row)
      (fun _ => Tame) (fun _ _ => True) := by
  have hqueue (v : List Segment) (hv : v = [] ∨ Whole v) :
      Triple (fun l => l.Keeps NamesWithoutTab ∧ l.Unread v) (runAppendBallot wire eid row)
        (fun _ => Tame) (fun _ _ => True) := by
    refine (execStmt_queue (V := fun v => ∀ s ∈ v, s.Dull) rfl
      (DbCmd.Emits.insertBallot eid row).namesWithoutTab
      (fun s hs => by simpa using Segment.dull_of_failed hs) fun t t' rows m _ hrun hm => ?_).bind
      fun _ => ?_
    · obtain rfl : rows = countReply 1 := by
        simp only [Stmt.run, bind_eq_bind, bind_eq_some_iff, some.injEq,
          Prod.mk.injEq] at hrun
        grind
      have hrow (r : Row) (hr : r ∈ m) : r = [renderNat 1] := by
        simpa [countReply] using hm.subset hr
      refine exists_dull _ (.of_fields fun r hr => ?_) fun r hr => ?_
      · rw [hrow r hr]
        decide
      · rw [hrow r hr]
        decide
    · rintro l ⟨-, v', s, rest, hdull, hcons, hok, -, hl⟩
      rcases hv with rfl | ⟨s₁, rest₁, rfl, hv⟩
      · obtain rfl : v' = s :: rest := by simpa using hcons
        exact ⟨rest, hl, fun r hr => hdull r (mem_cons_of_mem _ hr)⟩
      · obtain ⟨rfl, rfl⟩ := List.cons.inj hcons
        obtain rfl := hv hok
        exact ⟨v', hl, hdull⟩
  rintro l ⟨hK, v, hl, hv⟩
  exact hqueue v hv l ⟨hK, hl⟩

/-! ## A recording over the wire -/

def Link.Recording (old : List (Stmt × DbStatus)) (l : Link Bytes) : Prop :=
  l.Sent Stmt.Shaped old ∧ l.Keeps NamesWithoutTab

lemma dbExec_recording_wire {R : DbResult → Link Bytes → Prop}
    (hints : ∀ n ∈ cmd.ints, -2 ^ 31 ≤ n ∧ n ≤ 2 ^ 31)
      (htame : cmd.splices = true → ∀ l, A l → l.Tame)
    (hqueue : Triple (fun l => l.Keeps NamesWithoutTab ∧ A l) (runOp wire cmd) R (fun _ _ => True))
    (hB : ∀ l, l.Recording old → B l) :
    Triple (OnTxn fun l => l.Recording old ∧ A l) (dbExec wire cmd)
      (fun out => OnTxn fun l => l.Recording old ∧ R out l) (fun _ => OnTxn B) := by
  refine dbExec_lift ?_
  have hsent : Triple (fun l => A l ∧ l.Sent Stmt.Shaped old) (runOp wire cmd)
      (fun _ => Sent Stmt.Shaped old) (fun _ => Sent Stmt.Shaped old) := by
    cases hsplice : cmd.splices with
    | true =>
      exact (runOp_sent (fun _ => splicesNumbers_wire) hints fun _ _ h => h).pre
        fun l hl => ⟨htame hsplice l hl.1, hl.2⟩
    | false =>
      exact (runOp_sent (S := fun _ => True) (fun h => absurd h (by simp [hsplice])) hints
        fun _ _ h => h).pre fun l hl => ⟨trivial, hl.2⟩
  have hkeeps : Invariant (Keeps NamesWithoutTab) (runOp wire cmd) :=
    runOp_keeps (E := fun _ => Keeps NamesWithoutTab) (fun _ hl => hl) fun cap stmt hsend =>
      execStmt_keeps hsend.namesWithoutTab
  refine ((hsent.and hkeeps).and hqueue).conseq (fun l hl => ?_)
    (fun out l hl => hl) fun e l hl => ?_
  · exact ⟨⟨⟨hl.2, hl.1.1⟩, hl.1.2⟩, hl.1.2, hl.2⟩
  · exact hB l hl.1

lemma dbExec_recording_keeps (hints : ∀ n ∈ cmd.ints, -2 ^ 31 ≤ n ∧ n ≤ 2 ^ 31)
    (hsplice : cmd.splices = false) :
    Invariant (OnTxn (Link.Recording old)) (dbExec wire cmd) := by
  have hx : Triple (OnTxn fun l => l.Recording old ∧ True) (dbExec wire cmd)
      (fun _ => OnTxn fun l => l.Recording old ∧ True)
      (fun _ => OnTxn (Link.Recording old)) :=
    dbExec_recording_wire hints (fun h => absurd h (by simp [hsplice]))
      (fun l _ => by cases (runOp wire cmd).run l <;> trivial) fun _ hl => hl
  exact hx.conseq (fun w ⟨c, hc, hl⟩ => ⟨c, hc, hl, trivial⟩) (fun _ w ⟨c, hc, hl⟩ => ⟨c, hc, hl.1⟩)
    fun _ _ hw => hw

lemma World.OnTxn.mono (h : ∀ l, A l → B l) (hw : w.OnTxn A) : w.OnTxn B :=
  hw.imp fun _ hc => ⟨hc.1, h _ hc.2⟩

variable {crypto : Crypto} {eid : CStr bbIdLen} {ballot : BbBallot}

lemma writeBallot_sent {opt version : ℤ} (hopt : -2 ^ 31 ≤ opt ∧ opt ≤ 2 ^ 31)
    (hversion : -2 ^ 31 ≤ version ∧ version ≤ 2 ^ 31) (prior : DbResult) (receipt : BbReceipt) :
    Triple (OnTxn fun l => l.Recording old ∧ (prior.found = true → l.AfterPrior))
      (writeBallot wire eid ballot opt prior version receipt)
      (fun _ => OnTxn (Link.Recording old)) (fun _ => OnTxn (Link.Recording old)) := by
  have hlast : Invariant (OnTxn (Link.Recording old)) (do
      let _ ← dbExec wire (.setOwner eid ballot.certName receipt.hash version)
      let _ ← dbExec wire (.nonceMark eid ballot.nonce)) :=
    (dbExec_recording_keeps (by simpa [DbCmd.ints] using hversion) rfl).bind fun _ =>
      (dbExec_recording_keeps (by simp [DbCmd.ints]) rfl).bind fun _ => ret _
  have hints : ∀ n ∈ (DbCmd.appendBallot eid ⟨receipt.hash, opt, version, 0⟩).ints,
      -2 ^ 31 ≤ n ∧ n ≤ 2 ^ 31 := by
    simpa [DbCmd.ints] using ⟨hopt, hversion⟩
  cases hfound : prior.found with
  | false =>
    refine ((dbExec_recording_keeps hints rfl).pre fun w hw =>
      hw.mono fun l hl => hl.1).bind fun _ => ?_
    exact Triple.ite (fun h => absurd h (by simp [hfound])) fun _ => hlast
  | true =>
    have happend : Triple (OnTxn fun l => l.Recording old ∧ l.AfterPrior)
        (dbExec wire (.appendBallot eid ⟨receipt.hash, opt, version, 0⟩))
        (fun _ => OnTxn fun l => l.Recording old ∧ l.Tame)
        (fun _ => OnTxn (Link.Recording old)) :=
      dbExec_recording_wire hints (fun h => absurd h Bool.false_ne_true)
        (runAppendBallot_queue eid _) fun _ hl => hl
    have hmark : Triple (OnTxn fun l => l.Recording old ∧ l.Tame)
        (dbExec wire (.markSuperseded eid prior.row.hash))
        (fun _ => OnTxn fun l => l.Recording old ∧ True)
        (fun _ => OnTxn (Link.Recording old)) :=
      dbExec_recording_wire (by simp [DbCmd.ints]) (fun _ _ hl => hl)
        (fun l _ => by cases (runOp wire (.markSuperseded eid prior.row.hash)).run l <;> trivial)
        fun _ hl => hl
    refine (happend.pre fun w hw => hw.mono fun l hl => ⟨hl.1, hl.2 rfl⟩).bind fun _ => ?_
    refine Triple.ite (fun _ => ?_) fun h => absurd hfound h
    exact hmark.bind fun _ => hlast.pre fun w hw => hw.mono fun l hl => hl.1

/-- **One attempt.**  Every statement of a recording has its shape. -/
theorem recordBallotLocked_sent : Triple (OnTxn fun l => l.Recording old ∧ l.Unread [])
      (recordBallotLocked wire crypto eid ballot)
      (fun _ => OnTxn (Link.Recording old)) (fun _ => OnTxn (Link.Recording old)) := by
  have hload : Triple (OnTxn fun l => l.Recording old ∧ l.Unread []) (loadElection wire eid)
      (fun _ => OnTxn fun l => l.Recording old ∧ l.Tame)
      (fun _ => OnTxn (Link.Recording old)) := by
    refine Triple.bind (dbExec_recording_wire (by simp [DbCmd.ints])
      (fun h => absurd h Bool.false_ne_true) (runGetElection_queue eid) fun _ hl =>
        hl) fun res => ?_
    exact Triple.ite (fun _ => (Triple.throw _).pre fun w hw => hw.mono fun l hl => hl.1)
      fun _ => ret _
  refine (admitBallot_rule (fun _ _ _ h => h) (fun _ _ w _ hw => hw.mono fun l hl => hl.1)
    hload).bind fun opt => exists_elim fun e => of_imp fun hvote => ?_
  refine Triple.bind (dbExec_recording_wire (by simp [DbCmd.ints])
    (fun h => absurd h Bool.false_ne_true) (runNonceSeen_queue eid ballot.nonce)
    fun _ hl => hl) fun seen => ?_
  refine Triple.ite (fun _ => (Triple.throw _).pre fun w hw => hw.mono fun l hl => hl.1) fun _ => ?_
  refine Triple.bind (dbExec_recording_wire (by simp [DbCmd.ints])
    (fun h => absurd h Bool.false_ne_true) (runGetPriorBallot_queue eid ballot.certName)
    fun _ hl => hl) fun prior => ?_
  -- the version is a number, whatever the row was read from
  refine Triple.pre ?_ fun w hw =>
    (show (-2 ^ 31 ≤ prior.row.version ∧ prior.row.version < 2 ^ 31) ∧
      w.OnTxn fun l => l.Recording old ∧ (prior.found = true → l.AfterPrior) from by
      obtain ⟨c, hc, hl, hrange, hprior⟩ := hw
      exact ⟨hrange, c, hc, hl, hprior⟩)
  refine of_imp fun hrange => ?_
  refine (issueReceipt_rule (R := fun _ => OnTxn fun l => l.Recording old ∧
    (prior.found = true → l.AfterPrior)) (fun _ _ h => h) (fun w hw => hw.mono fun l hl => hl.1) _
    fun _ _ _ _ h => h).bind fun receipt => ?_
  have hopt := hvote.2.2.2
  have hcount : e.optionCount ≤ 16 := e.optionCount_le
  refine writeBallot_sent ⟨by omega, by omega⟩ ?_ prior receipt
  split_ifs <;> omega

/-! ## Requests -/

def Server.Regular (old : List (Stmt × DbStatus)) (s : Server) : Prop :=
  s.Sent Stmt.Shaped old ∧ NamesWithoutTab s.store

lemma control_recording (h : stmt.isData = false) :
    Invariant (Link.Recording old) (execStmt wire 0 stmt) :=
  (execStmt_control_sent (fun _ _ hshape => hshape) h).and (execStmt_control_keeps h)

theorem bbRecordBallot_sent :
    Invariant (Between (Server.Regular old)) (bbRecordBallot wire crypto eid ballot) := by
  have hend {stmt : Stmt} (h : stmt.isData = false) :
      Triple (Link.Recording old) (execStmt wire 0 stmt) (fun _ l => l.server.Regular old)
        (fun _ l => l.server.Regular old) :=
    (control_recording h).ends (fun _ _ hl => ⟨hl.1, hl.2.1⟩)
      fun _ _ hl => ⟨hl.1, hl.2.1⟩
  have hbegin : Triple (Between (Server.Regular old)) (bbDbBegin wire)
      (fun _ => OnTxn fun l => l.Recording old ∧ l.Unread [])
      (fun _ => Between (Server.Regular old)) := by
    refine bbDbBegin_lift (P := fun l => l.New ∧ l.Recording old)
      (T := fun _ => Server.Regular old) (opens_of_tick (fun _ hs => hs) fun s hs => ?_) ?_
    · exact ⟨⟨rfl, rfl⟩, hs.1, hs.2, by simp⟩
    · exact (execStmt_new_setTransaction.and (control_recording rfl)).ends
        (fun _ _ hl => ⟨hl.2, unread_nil hl.1⟩) fun _ _ hl => ⟨hl.2.1, hl.2.2.1⟩
  exact recordLoop_rule hbegin recordBallotLocked_sent (bbDbCommit_lift (hend rfl))
    (bbDbRollback_lift (hend rfl)) (fun _ hw => hw) _ _

theorem ballotdDispatch_sent (crypto : Crypto) (req : BclRequest)
    (hw : w.Between (Server.Regular old)) :
    (ballotdDispatch wire crypto req w).Between (Server.Regular old) := by
  have hexec (cmd : DbCmd) (hints : cmd.ints = []) :
      BrainM.Stays (Between (Server.Regular old)) (fun _ => True) (dbExec wire cmd) := by
    have hsent : Invariant (Between (Server.Sent Stmt.Shaped old)) (dbExec wire cmd) :=
      dbExec_wire_sent (by simp [hints]) (fun _ _ h => h) fun _ _ h => h
    have hkeeps : BrainM.Keeps NamesWithoutTab (dbExec wire cmd) :=
      dbExec_keeps_emits fun stmt hsend => hsend.namesWithoutTab
    exact (hsent.and hkeeps).conseq (fun _ h => ⟨⟨h.1, h.2.1⟩, h.1, h.2.2⟩)
      (fun _ _ h => ⟨h.1.1, h.1.2, h.2.2⟩) fun _ _ h => ⟨trivial, h.1.1, h.1.2, h.2.2⟩
  have halloc : BrainM.Stays (Between (Server.Regular old)) (fun _ => True)
      (onFresh wire (execStmt wire 4096 .selectMaxSeq)) := by
    refine (onFresh_lift (P := Link.Recording old) (T := fun _ => Server.Regular old)
      (opens_of_tick (fun _ hs => hs) fun s hs => ⟨hs.1, hs.2, by simp⟩)
      (((execStmt_sent fun _ => Stmt.shaped_of_nil rfl).and
        (execStmt_keeps (Stmt.preserves_select rfl))).ends (fun _ _ hl => ⟨hl.1, hl.2.1⟩)
        fun _ _ hl => ⟨hl.1, hl.2.1⟩)).err fun _ _ h => ⟨trivial, h⟩
  have hop : BrainM.Stays (Between (Server.Regular old)) (fun _ => True)
      (dispatchOp wire crypto req) := by
    by_cases hballot : req.op = .cast ∨ req.op = .update
    · have hrecord : BrainM.Stays (Between (Server.Regular old)) (fun _ => True)
          (bbRecordBallot wire crypto req.electionId req.ballot) :=
        bbRecordBallot_sent.err fun _ _ h => ⟨trivial, h⟩
      unfold dispatchOp
      rcases hballot with hop | hop <;> rw [hop] <;> exact hrecord
    · refine dispatchOp_stays (fun _ _ => trivial) (fun _ _ h => h)
        (fun cmd _ hread => hexec cmd ?_)
        halloc (fun _ _ h => h) hballot (fun _ _ => hexec _ rfl) fun _ _ => hexec _ rfl
      cases cmd <;> first | rfl | cases hread
  have hw' : Between (Server.Regular old) { w with resp := default } := hw
  unfold ballotdDispatch
  cases hx : dispatchOp wire crypto req { w with resp := default } with
  | ok a w' =>
    have h : w'.Between (Server.Regular old) := hop.of_ok hw' hx
    exact h
  | error e w' =>
    have h : _ ∧ w'.Between (Server.Regular old) := hop.of_error hw' hx
    exact h.2

theorem serve_sent (crypto : Crypto) (sched : ℕ → Outcome) (reqs : List BclRequest) :
    ∀ entry ∈ (serve wire crypto reqs (start sched)).server.trace, entry.1.Shaped := by
  have hrun : (serve wire crypto reqs (start sched)).Between (Server.Regular []) := by
    refine history_induction (J := fun _ w => w.Between (Server.Regular [])) ?_ reqs
      fun req _ _ w hw => ballotdDispatch_sent crypto req hw
    exact ⟨rfl, ⟨[], rfl, by simp⟩, by simp [start, NamesWithoutTab, Tables.empty]⟩
  obtain ⟨-, ⟨new, htrace, hshape⟩, -⟩ := hrun
  rwa [htrace, append_nil]

def DbCmd.Issues (cmd : DbCmd) (stmt : Stmt) : Prop :=
  (cmd.Emits stmt ∨ stmt.isData = false) ∧ stmt.Shaped

end BallotBox
