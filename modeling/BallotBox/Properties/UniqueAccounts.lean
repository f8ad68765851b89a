import BallotBox.Construction.Registry

/-!
# Accounts are unique

Any number of calls of `account_register` at one table, in any interleaving.  Only the semaphore
keeps another call from committing between two statements, so everything is said about the call that
holds it (`Inside`): the table is as this call last saw it.
-/

namespace BallotBox

open Process Option

variable {rows : List UserRow} {x : RegChoice} {stmt : UserStmt} {txn : Option (List UserRow)}
  {name : Bytes} {next : ℤ}
variable {added : List UserRow} {K K' : List UserRow → Option UserConn → Prop}
  {F : List UserRow → Prop} {row : UserRow} {iters : ℤ} {salt : Bytes} {result : ℕ × Option ℤ}

namespace Registry

variable {ι : Type} [DecidableEq ι]

/-! ## What a call may do -/

/-- No two rows with one name or one id. -/
structure Distinct (rows : List UserRow) : Prop where
  names : (rows.map (·.name)).Nodup
  ids : (rows.map (·.id)).Nodup

/-- What holds between any two steps. -/
structure Sound (rows₀ : List UserRow) (s : Registry ι) : Prop where
  sem : s.value + s.holders.length = 1
  distinct : Distinct s.rows
  logged : s.rows = rows₀ ++ s.log.map (·.2)

/-- One step of a call: only its own connection and rows change, and not the table while another
call holds the semaphore. -/
structure Moves (rows₀ : List UserRow) (i : ι) (s s' : Registry ι) : Prop where
  sound : Sound rows₀ s → Sound rows₀ s'
  conns : ∀ j, j ≠ i → s'.conns j = s.conns j
  added : ∀ j, j ≠ i → s'.addedBy j = s.addedBy j
  held : ∀ j, j ≠ i → s.holders = [j] → s'.holders = [j] ∧ s'.rows = s.rows

variable {rows₀ : List UserRow} {i : ι} {s s' : Registry ι}

lemma Moves.refl : Moves rows₀ i s s :=
  ⟨fun h => h, fun _ _ => rfl, fun _ _ => rfl, fun _ _ h => ⟨h, rfl⟩⟩

lemma Moves.setConn (conn : Option UserConn) : Moves rows₀ i s (s.setConn i conn) where
  sound h := ⟨h.sem, h.distinct, h.logged⟩
  conns _ hj := Function.update_of_ne hj _ _
  added _ _ := rfl
  held _ _ h := ⟨h, rfl⟩

lemma Moves.publish (hholds : s.holders = [i])
    (hdistinct : Distinct s.rows → Distinct (s.rows ++ rows)) :
        Moves rows₀ i s (s.publish i rows) where
  sound h := by
    refine ⟨h.sem, hdistinct h.distinct, ?_⟩
    simp [Registry.publish, h.logged, Function.comp_def]
  conns _ _ := rfl
  added j hj := by
    have hnone : ((rows.map fun r => (i, r)).filter fun e => decide (e.1 = j)) = [] := by
      simp [List.filter_map, Function.comp_def, Ne.symm hj]
    simp [Registry.addedBy, Registry.publish, hnone]
  held j hj h := absurd (List.cons.inj (hholds.symm.trans h)).1.symm hj

lemma Moves.trans {s'' : Registry ι} (h : Moves rows₀ i s s') (h' : Moves rows₀ i s' s'') :
    Moves rows₀ i s s'' where
  sound hs := h'.sound (h.sound hs)
  conns j hj := (h'.conns j hj).trans (h.conns j hj)
  added j hj := (h'.added j hj).trans (h.added j hj)
  held j hj hs := by
    obtain ⟨hholders, hrows⟩ := h.held j hj hs
    obtain ⟨hholders', hrows'⟩ := h'.held j hj hholders
    exact ⟨hholders', hrows'.trans hrows⟩

/-! ## What a call knows -/

/-- The rows the call has added are these. -/
structure Outside (rows₀ : List UserRow) (i : ι) (added : List UserRow) (s : Registry ι) :
    Prop where
  sound : Sound rows₀ s
  added : s.addedBy i = added

/-- The call holds the semaphore, and so knows the table and its connection. -/
structure Inside (rows₀ : List UserRow) (i : ι) (added : List UserRow)
    (K : List UserRow → Option UserConn → Prop) (s : Registry ι) : Prop
    extends Outside rows₀ i added s where
  holds : s.holders = [i]
  knows : K s.rows (s.conns i)

lemma Outside.stable (added : List UserRow) :
    Stable (Moves rows₀) i (Outside rows₀ i added) := by
  refine stable_of_step _ fun j s s' hj hmoves h => ⟨hmoves.sound h.sound, ?_⟩
  rw [hmoves.added i (Ne.symm hj), h.added]

lemma Inside.stable (added : List UserRow) (K : List UserRow → Option UserConn → Prop) :
    Stable (Moves rows₀) i (Inside rows₀ i added K) := by
  refine stable_of_step _ fun j s s' hj hmoves h => ?_
  obtain ⟨hholds, hrows⟩ := hmoves.held i (Ne.symm hj) h.holds
  refine ⟨⟨hmoves.sound h.sound, ?_⟩, hholds, ?_⟩
  · rw [hmoves.added i (Ne.symm hj), h.added]
  · rw [hrows, hmoves.conns i (Ne.symm hj)]
    exact h.knows

lemma Inside.mono (h : Inside rows₀ i added K s) (himp : ∀ rows conn, K rows conn → K' rows conn) :
    Inside rows₀ i added K' s :=
  ⟨h.toOutside, h.holds, himp _ _ h.knows⟩

lemma Inside.setConn (h : Inside rows₀ i added K s) {conn : Option UserConn} (hK : K' s.rows conn) :
    Inside rows₀ i added K' (s.setConn i conn) := by
  refine ⟨⟨⟨h.sound.sem, h.sound.distinct, h.sound.logged⟩, h.added⟩, h.holds, ?_⟩
  simpa [Registry.setConn] using hK

/-! ## Statements -/

def HonestCommit (_ : Registry ι) (_ : ι) (c : RegCall) (x : RegChoice) : Prop :=
  ∀ fate, c = .exec .commit → x = .fate fate → fate.status ≠ .ok → fate.applied = false

def SafeCall (rows₀ : List UserRow) (i : ι) {α : Type} (Q : α → Registry ι → Prop) (p : RegProc α)
    (s : Registry ι) : Prop :=
  Process.Safe Registry.respond (Moves rows₀) HonestCommit i Q p s

variable {α : Type} {Q : α → Registry ι → Prop}

/-- The calls that only ask. -/
def Asks : RegCall → Prop
  | .randBytes | .passwordHash .. | .semOpen | .time => True
  | _ => False

lemma respond_asks {c : RegCall} (hc : Asks c) {r : c.Answer} (h : s.respond i c x = some (r, s')) :
    s' = s := by
  cases c <;> cases x <;> first
    | exact False.elim hc
    | exact (Prod.mk.inj (some.inj h)).2.symm
    | cases h

lemma SafeCall.ask {P : Registry ι → Prop} (hstable : Stable (Moves rows₀) i P) {c : RegCall}
    (hc : Asks c) {f : c.Answer → RegProc α} (hf : ∀ s r, P s → SafeCall rows₀ i Q (f r) s)
    (h : P s) : SafeCall rows₀ i Q (ask c >>= f) s := by
  refine Process.Safe.call hstable (fun s x r s' hP _ henv => ?_) h
  obtain rfl := respond_asks hc henv
  exact ⟨Moves.refl, hf _ r hP⟩

lemma SafeCall.exec {P : Registry ι → Prop} (hstable : Stable (Moves rows₀) i P)
    {f : DbStatus × Reply → RegProc α}
    (hexec : ∀ s fate, P s → (stmt = .commit → fate.status ≠ .ok → fate.applied = false) →
      Moves rows₀ i s (s.exec i stmt fate).2 ∧
        SafeCall rows₀ i Q (f (s.exec i stmt fate).1) (s.exec i stmt fate).2)
    (h : P s) : SafeCall rows₀ i Q (RegProc.exec stmt >>= f) s := by
  refine Process.Safe.call hstable (fun s x r s' hP hx henv => ?_) h
  cases x with
  | fate fate =>
    have hr : s.exec i stmt fate = (r, s') := some.inj henv
    have hone := hexec s fate hP fun hstmt hst => hx fate (by rw [hstmt]) rfl hst
    rw [hr] at hone
    exact hone
  | _ => cases henv

lemma exec_cases (hconn : s.conns i = some ⟨txn, none⟩) (stmt : UserStmt) (fate : Fate)
    (hhonest : stmt = .commit → fate.status ≠ .ok → fate.applied = false) :
    (∃ st, st ≠ .ok ∧ (s.exec i stmt fate).1 = (st, none) ∧
      ((s.exec i stmt fate).2 = s ∧ st = .error ∨
        (s.exec i stmt fate).2 = s.setConn i (some ⟨none, st.terminal?⟩))) ∨
    ∃ reply s', s.exec i stmt fate = ((.ok, reply), s') ∧ stmt.hasBreak = false ∧
      s.carryOut i ⟨txn, none⟩ stmt = some (reply, s') := by
  unfold Registry.exec
  rw [hconn]
  dsimp only
  by_cases hbreak : stmt.hasBreak = true
  · rw [if_pos hbreak]
    exact .inl ⟨.error, by decide, rfl, .inl ⟨rfl, rfl⟩⟩
  · rw [if_neg hbreak]
    by_cases hok : fate.status = .ok
    · rw [if_pos hok]
      cases hcarry : s.carryOut i ⟨txn, none⟩ stmt with
      | none =>
        refine .inl ⟨.error, by decide, rfl, .inr ?_⟩
        simp [Registry.giveUp]
      | some r => exact .inr ⟨r.1, r.2, rfl, by simpa using hbreak, rfl⟩
    · rw [if_neg hok]
      refine .inl ⟨fate.status, hok, rfl, .inr ?_⟩
      have hnot : ¬ (stmt = .commit ∧ fate.applied = true) := by
        rintro ⟨hstmt, happlied⟩
        rw [hhonest hstmt hok] at happlied
        cases happlied
      simp [Registry.giveUp, hnot]

/-! ## The transaction -/

/-- How `register_txn` ends: with its row in the table, or without one and, to be tried again, on a
connection where nothing has happened. -/
def TxnPost (rows₀ : List UserRow) (i : ι) (name : Bytes) (result : TxnResult)
    (s : Registry ι) : Prop :=
  if result.1 = .ok ∧ result.2.1 = false then
    ∃ row : UserRow, row.name.bytes = name ∧ result.2.2 = some row.id.val ∧
      Inside rows₀ i [row] (fun _ _ => True) s
  else Inside rows₀ i [] (fun _ conn => result.1 = .retry → conn = some .fresh) s

lemma TxnPost.stable (name : Bytes) (result : TxnResult) :
    Stable (Moves rows₀) i (TxnPost rows₀ i name result) := by
  intro s s' hothers h
  unfold TxnPost at h ⊢
  split_ifs at h ⊢
  · obtain ⟨row, hname, hid, hinside⟩ := h
    exact ⟨row, hname, hid, Inside.stable _ _ s s' hothers hinside⟩
  · exact Inside.stable _ _ s s' hothers h

lemma safe_fail {st : DbStatus} {id : Option ℤ} (hst : st ≠ .ok)
    (h : Inside rows₀ i [] (fun _ conn => st = .retry → conn = some .fresh) s) :
    SafeCall rows₀ i (TxnPost rows₀ i name) (pure (st, false, id)) s := by
  refine Process.Safe.done (TxnPost.stable name _) ?_
  rw [TxnPost, if_neg (by simp [hst])]
  exact h

abbrev InTxn (rows₀ : List UserRow) (i : ι) (txn : Option (List UserRow)) (F : List UserRow → Prop)
    (s : Registry ι) : Prop :=
  Inside rows₀ i [] (fun rows conn => conn = some ⟨txn, none⟩ ∧ F rows) s

lemma safe_stmt {rest : Reply → RegProc TxnResult}
    (hok : ∀ s reply s', InTxn rows₀ i txn F s → stmt.hasBreak = false →
      s.carryOut i ⟨txn, none⟩ stmt = some (reply, s') →
      Moves rows₀ i s s' ∧ SafeCall rows₀ i (TxnPost rows₀ i name) (rest reply) s')
    (h : InTxn rows₀ i txn F s) :
    SafeCall rows₀ i (TxnPost rows₀ i name) (execOrDone stmt rest) s := by
  refine SafeCall.exec (Inside.stable _ _) (fun s fate hP hhonest => ?_) h
  rcases exec_cases hP.knows.1 stmt fate hhonest with
    ⟨st, hst, hanswer, hstate⟩ | ⟨reply, s', hexec, hbreak, hcarry⟩
  · rw [hanswer]
    dsimp only
    rw [if_pos hst]
    rcases hstate with ⟨hsame, rfl⟩ | hlost
    · rw [hsame]
      exact ⟨Moves.refl, safe_fail hst (hP.mono (by simp))⟩
    · rw [hlost]
      refine ⟨Moves.setConn _, safe_fail hst (hP.setConn ?_)⟩
      rintro rfl
      rfl
  · rw [hexec]
    dsimp only
    rw [if_neg (by simp)]
    exact hok s reply s' hP hbreak hcarry

lemma carryOut_data {mine : List UserRow}
    (hdata : stmt ≠ .setTransaction ∧ stmt ≠ .commit ∧ stmt ≠ .rollback) :
    s.carryOut i ⟨some mine, none⟩ stmt = (stmt.run (s.rows ++ mine)).map fun (new, reply) =>
      (some reply, s.setConn i (some ⟨some (mine ++ new), none⟩)) := by
  cases stmt with
  | setTransaction => exact absurd rfl hdata.1
  | commit => exact absurd rfl hdata.2.1
  | rollback => exact absurd rfl hdata.2.2
  | _ => rfl

lemma lt_dbNextId (rows : List UserRow) : ∀ r ∈ rows, r.id.val <
      dbNextId (some ((rows.map (·.id.val)).max?.toList.map fun n => [renderInt n])) := by
  intro r hr
  have hmem : r.id.val ∈ rows.map (·.id.val) := List.mem_map_of_mem hr
  cases hmax : (rows.map (·.id.val)).max? with
  | none =>
    rw [List.max?_eq_none_iff.mp hmax] at hmem
    cases hmem
  | some n =>
    obtain ⟨hn, hle⟩ := List.max?_eq_some_iff.mp hmax
    obtain ⟨q, -, rfl⟩ := List.mem_map.mp hn
    have hlower := q.id.lower
    have hupper := q.id.upper
    have hshort : (renderInt q.id.val).length ≤ 11 :=
      length_renderInt_le (k := 10) (by norm_num) (by omega)
    have hnul : cstr (renderInt q.id.val) = renderInt q.id.val :=
      cstr_eq_self (clean_renderInt _).1
    have hread : strtol (renderInt q.id.val) = (q.id.val, []) :=
      strtol_renderInt (by omega) (by omega)
    have hnext : dbNextId (some [[renderInt q.id.val]]) =
        if q.id.val < 0 then 1 else q.id.val + 1 := by
      have hlong : ¬ (renderInt q.id.val = [] ∨ 32 ≤ (renderInt q.id.val).length) := by
        rintro (hnil | hlong)
        · exact renderInt_ne_nil _ hnil
        · omega
      simp [dbNextId, Reply.rowCount, Reply.rowFields, hlong, hnul, hread]
    rw [toList_some, List.map_singleton, hnext]
    have hr := hle _ hmem
    split_ifs <;> omega

lemma Distinct.append (h : Distinct rows)
    (hname : ∀ r ∈ rows, r.name ≠ row.name) (hid : ∀ r ∈ rows, r.id ≠ row.id) :
    Distinct (rows ++ [row]) := by
  have hconcat {β : Type} (f : UserRow → β) (hf : (rows.map f).Nodup)
      (hne : ∀ r ∈ rows, f r ≠ f row) : ((rows ++ [row]).map f).Nodup := by
    rw [List.map_append, List.nodup_append]
    refine ⟨hf, by simp, ?_⟩
    intro a ha b hb
    obtain ⟨r, hr, rfl⟩ := List.mem_map.mp ha
    obtain rfl := List.mem_singleton.mp hb
    exact hne r hr
  exact ⟨hconcat _ h.names hname, hconcat _ h.ids hid⟩

lemma run_insert {new : List UserRow} {id createdAt : ℤ} {digest : Bytes} {reply : List Row}
    (h : (UserStmt.insert id name salt digest iters createdAt).run rows = some (new, reply)) :
    ∃ row : UserRow, new = [row] ∧ row.id.val = id ∧ row.name.bytes = name := by
  simp only [UserStmt.run, bind_eq_bind, bind_eq_some_iff] at h
  obtain ⟨jid, hid, tname, hname, tsalt, -, tdigest, -, jiters, -, jat, -, h⟩ := h
  obtain ⟨rfl, -⟩ := Prod.mk.inj (some.inj h)
  exact ⟨_, rfl, JInt.ofInt?_eq_some.mp hid, Text.ofBytes?_eq_some.mp hname⟩

def Free (name : Bytes) (next : ℤ) (rows : List UserRow) : Prop :=
  (∀ r ∈ rows, r.id.val < next) ∧ ∀ r ∈ rows, r.name.bytes ≠ name

lemma safe_commit (hid : row.id.val = next) (hname : row.name.bytes = name)
    (h : InTxn rows₀ i (some [row]) (Free name next) s) :
    SafeCall rows₀ i (TxnPost rows₀ i name)
      (execOrDone .commit fun _ => return (.ok, false, some next)) s := by
  refine safe_stmt (fun s reply s' hP _ hcarry => ?_) h
  obtain ⟨-, hids, hnames⟩ := hP.knows
  obtain ⟨-, rfl⟩ := Prod.mk.inj (some.inj hcarry)
  have hdistinct : Distinct s.rows → Distinct (s.rows ++ [row]) := by
    intro hrows
    refine hrows.append (fun r hr heq => ?_) (fun r hr heq => ?_)
    · exact hnames r hr (by rw [heq, hname])
    · have hlt := hids r hr
      rw [heq, hid] at hlt
      exact lt_irrefl _ hlt
  have hmoves : Moves rows₀ i s (s.publish i [row]) := Moves.publish hP.holds hdistinct
  refine ⟨hmoves.trans (Moves.setConn _), Process.Safe.done (TxnPost.stable name _) ?_⟩
  rw [TxnPost, if_pos ⟨rfl, rfl⟩]
  have hadded : (s.publish i [row]).addedBy i = [row] := by
    have hnone : s.addedBy i = [] := hP.added
    rw [Registry.addedBy] at hnone
    simp [Registry.addedBy, Registry.publish, hnone]
  have hinside : Inside rows₀ i [row] (fun _ _ => True) (s.publish i [row]) :=
    ⟨⟨hmoves.sound hP.sound, hadded⟩, hP.holds, trivial⟩
  exact ⟨row, hname, by rw [hid], hinside.setConn trivial⟩

lemma safe_insert (saltHex digestHex : Bytes) (iters : ℤ)
    (h : InTxn rows₀ i (some []) (Free name next) s) :
    SafeCall rows₀ i (TxnPost rows₀ i name) (do
      let now ← RegProc.time
      execOrDone (.insert next name saltHex digestHex iters now) fun _ =>
        execOrDone .commit fun _ => return (.ok, false, some next)) s := by
  refine SafeCall.ask (Inside.stable _ _) (by trivial) (fun s now hP => ?_) h
  refine safe_stmt (fun s reply s' hP _ hcarry => ?_) hP
  rw [carryOut_data (by simp), List.append_nil] at hcarry
  obtain ⟨⟨new, rows⟩, hrun, hcarry⟩ := map_eq_some_iff.mp hcarry
  obtain ⟨row, rfl, hid, hname⟩ := run_insert hrun
  obtain ⟨-, rfl⟩ := Prod.mk.inj hcarry
  refine ⟨Moves.setConn _, safe_commit hid hname (hP.setConn ⟨rfl, hP.knows.2⟩)⟩

lemma safe_rollback (h : InTxn rows₀ i txn F s) : SafeCall rows₀ i (TxnPost rows₀ i name) (do
      let _ ← RegProc.exec .rollback
      return (.ok, true, none)) s := by
  refine SafeCall.exec (Inside.stable _ _) (fun s fate hP hhonest => ?_) h
  have hend {s : Registry ι} (hin : Inside rows₀ i [] (fun _ _ => True) s) :
      SafeCall rows₀ i (TxnPost rows₀ i name) (return (.ok, true, none)) s := by
    refine Process.Safe.done (TxnPost.stable name _) ?_
    rw [TxnPost, if_neg (by simp)]
    exact hin.mono (by simp)
  rcases exec_cases hP.knows.1 .rollback fate hhonest with
    ⟨st, -, -, hstate⟩ | ⟨reply, s', hexec, -, hcarry⟩
  · rcases hstate with ⟨hsame, -⟩ | hlost
    · rw [hsame]
      exact ⟨Moves.refl, hend (hP.mono (by simp))⟩
    · rw [hlost]
      exact ⟨Moves.setConn _, hend (hP.setConn trivial)⟩
  · rw [hexec]
    obtain ⟨mine, -, hcarry⟩ := map_eq_some_iff.mp hcarry
    obtain ⟨-, rfl⟩ := Prod.mk.inj hcarry
    exact ⟨Moves.setConn _, hend (hP.setConn trivial)⟩

lemma safe_check (saltHex digestHex : Bytes) (iters : ℤ)
    (h : InTxn rows₀ i (some []) (fun rows => ∀ r ∈ rows, r.id.val < next) s) :
    SafeCall rows₀ i (TxnPost rows₀ i name) (execOrDone (.selectName name) fun body =>
      if body.rowCount < 0 then return (.error, false, none)
      else if 0 < body.rowCount then do
        let _ ← RegProc.exec .rollback
        return (.ok, true, none)
      else do
        let now ← RegProc.time
        execOrDone (.insert next name saltHex digestHex iters now) fun _ =>
          execOrDone .commit fun _ => return (.ok, false, some next)) s := by
  refine safe_stmt (fun s reply s' hP _ hcarry => ?_) h
  rw [carryOut_data (by simp), List.append_nil] at hcarry
  obtain ⟨rfl, rfl⟩ := Prod.mk.inj (some.inj hcarry)
  refine ⟨Moves.setConn _, ?_⟩
  have hopen : InTxn rows₀ i (some []) (fun rows => ∀ r ∈ rows, r.id.val < next)
      (s.setConn i (some ⟨some ([] ++ []), none⟩)) := hP.setConn ⟨rfl, hP.knows.2⟩
  split_ifs with hneg htaken
  · exact safe_fail (by decide) (hopen.mono (by simp))
  · exact safe_rollback hopen
  · refine safe_insert saltHex digestHex iters (hP.setConn ⟨rfl, hP.knows.2, ?_⟩)
    intro r hr hname
    have hrow : r ∈ s.rows.filter fun u => u.name.bytes = name := by simp [hr, hname]
    have hpos := List.length_pos_of_mem hrow
    simp only [Reply.rowCount, List.length_map] at htaken
    omega

/-- **The transaction.** -/
lemma registerTxn_safe (saltHex digestHex : Bytes) (iters : ℤ)
    (h : InTxn rows₀ i none (fun _ => True) s) :
    SafeCall rows₀ i (TxnPost rows₀ i name) (registerTxn name saltHex digestHex iters) s := by
  unfold registerTxn
  refine safe_stmt (fun s reply s' hP _ hcarry => ?_) h
  obtain ⟨-, rfl⟩ := Prod.mk.inj (some.inj hcarry)
  refine ⟨Moves.setConn _, ?_⟩
  have hopen : InTxn rows₀ i (some []) (fun _ => True)
      (s.setConn i (some ⟨some [], none⟩)) := hP.setConn ⟨rfl, trivial⟩
  -- the largest id
  refine safe_stmt (fun s reply s' hP _ hcarry => ?_) hopen
  rw [carryOut_data (by simp), List.append_nil] at hcarry
  obtain ⟨rfl, rfl⟩ := Prod.mk.inj (some.inj hcarry)
  refine ⟨Moves.setConn _, ?_⟩
  dsimp only
  split_ifs with hneg
  · exact safe_fail (by decide) (hP.setConn (by simp))
  · exact safe_check saltHex digestHex iters (hP.setConn ⟨rfl, lt_dbNextId s.rows⟩)

/-! ## The whole call -/

/-- A call that ends with 200 has added one row, with its name and the id it returns; any other
none. -/
def Ends (A : List UserRow → Registry ι → Prop) (name : Bytes) (result : ℕ × Option ℤ)
    (s : Registry ι) : Prop :=
  if result.1 = 200 then ∃ row : UserRow, row.name.bytes = name ∧ result.2 = some row.id.val ∧
    A [row] s
  else A [] s

lemma Ends.stable {A : List UserRow → Registry ι → Prop}
    (hA : ∀ added, Stable (Moves rows₀) i (A added)) (name : Bytes) (result : ℕ × Option ℤ) :
    Stable (Moves rows₀) i (Ends A name result) := by
  intro s s' hothers h
  unfold Ends at h ⊢
  split_ifs at h ⊢
  · obtain ⟨row, hname, hid, hrow⟩ := h
    exact ⟨row, hname, hid, hA _ s s' hothers hrow⟩
  · exact hA _ s s' hothers h

omit [DecidableEq ι] in
lemma Ends.imp {A B : List UserRow → Registry ι → Prop}
    (h : Ends A name result s) (himp : ∀ added, A added s → B added s') :
        Ends B name result s' := by
  unfold Ends at h ⊢
  split_ifs at h ⊢
  · obtain ⟨row, hname, hid, hrow⟩ := h
    exact ⟨row, hname, hid, himp _ hrow⟩
  · exact himp _ h

abbrev Within (rows₀ : List UserRow) (i : ι) (added : List UserRow) (s : Registry ι) : Prop :=
  Inside rows₀ i added (fun _ _ => True) s

lemma registerAttempts_safe (saltHex digestHex : Bytes) (iters : ℤ) (n : ℕ)
    (h : InTxn rows₀ i none (fun _ => True) s) :
    SafeCall rows₀ i (Ends (Within rows₀ i) name)
      (registerAttempts name saltHex digestHex iters n) s := by
  have hdone {s : Registry ι} {result : ℕ × Option ℤ} (hend : Ends (Within rows₀ i) name result s) :
      SafeCall rows₀ i (Ends (Within rows₀ i) name) (.done result) s :=
    Process.Safe.done (Ends.stable (fun _ => Inside.stable _ _) name result) hend
  induction n generalizing s with
  | zero =>
    refine hdone ?_
    rw [Ends, if_neg (by simp)]
    exact h.mono (by simp)
  | succ n ih =>
    refine Process.Safe.bind (Process.Safe.mono (registerTxn_safe saltHex digestHex iters h) ?_)
    rintro ⟨st, taken, id⟩ s hpost
    dsimp only
    rw [TxnPost] at hpost
    dsimp only at hpost
    by_cases hretry : st = .retry
    · subst hretry
      rw [if_neg (by simp)] at hpost
      rw [if_pos rfl]
      exact ih (hpost.mono fun _ _ hconn => ⟨hconn rfl, trivial⟩)
    · rw [if_neg hretry]
      by_cases hok : st = .ok
      · subst hok
        rw [if_neg (by simp)]
        cases taken with
        | true =>
          rw [if_neg (by simp)] at hpost
          refine hdone ?_
          rw [Ends, if_neg (by simp)]
          exact hpost.mono (by simp)
        | false =>
          rw [if_pos ⟨rfl, rfl⟩] at hpost
          refine hdone ?_
          rw [Ends, if_pos (by simp)]
          exact hpost
      · rw [if_neg (by simp [hok])] at hpost
        rw [if_pos hok]
        refine hdone ?_
        rw [Ends, if_neg (by simp)]
        exact hpost.mono (by simp)

lemma registerConnected_safe (saltHex digestHex : Bytes) (iters : ℤ) (h : Within rows₀ i [] s) :
    SafeCall rows₀ i (Ends (Within rows₀ i) name)
      (registerConnected name saltHex digestHex iters) s := by
  have hstable (result : ℕ × Option ℤ) :
      Stable (Moves rows₀) i (Ends (Within rows₀ i) name result) :=
    Ends.stable (fun _ => Inside.stable _ _) name result
  refine Process.Safe.call (Inside.stable _ _) (fun s x r s' hP _ henv => ?_) h
  cases x with
  | succeeds b =>
    obtain ⟨rfl, rfl⟩ := Prod.mk.inj (some.inj henv)
    cases b with
    | false =>
      refine ⟨Moves.refl, Process.Safe.done (hstable _) ?_⟩
      rw [Ends, if_neg (by simp)]
      exact hP
    | true =>
      have hattempts : SafeCall rows₀ i (Ends (Within rows₀ i) name)
          (registerAttempts name saltHex digestHex iters 3) (s.setConn i (some .fresh)) :=
        registerAttempts_safe saltHex digestHex iters 3 (hP.setConn ⟨rfl, trivial⟩)
      refine ⟨Moves.setConn _,
        Process.Safe.bind (p := registerAttempts name saltHex digestHex iters 3)
        (hattempts.mono fun result s hend => ?_)⟩
      refine Process.Safe.call (hstable result) (fun s x r s' hP _ henv => ?_) hend
      cases x with
      | succeeds b =>
        obtain ⟨-, rfl⟩ := Prod.mk.inj (some.inj henv)
        exact ⟨Moves.setConn _, Process.Safe.done (hstable _)
          (hP.imp fun _ hin => hin.setConn trivial)⟩
      | _ => cases henv
  | _ => cases henv

lemma regPoll_safe (n : ℕ) (h : Outside rows₀ i [] s) :
    SafeCall rows₀ i (fun passed s => if passed then Within rows₀ i [] s else Outside rows₀ i [] s)
      (regPoll n) s := by
  induction n generalizing s with
  | zero => exact Process.Safe.done (Outside.stable _) h
  | succ n ih =>
    refine Process.Safe.call (Outside.stable _) (fun s x r s' hP _ henv => ?_) h
    cases x with
    | succeeds b =>
      cases b with
      | true =>
        have hsem := hP.sound.sem
        unfold Registry.respond at henv
        split_ifs at henv with hvalue
        obtain ⟨rfl, rfl⟩ := Prod.mk.inj (some.inj henv)
        have hnobody : s.holders = [] := List.eq_nil_of_length_eq_zero (by omega)
        have hsound : Sound rows₀ { s with value := s.value - 1, holders := i :: s.holders } := by
          refine ⟨?_, hP.sound.distinct, hP.sound.logged⟩
          dsimp only
          rw [List.length_cons]
          omega
        have hmoves :
            Moves rows₀ i s { s with value := s.value - 1, holders := i :: s.holders } := by
          refine ⟨fun _ => hsound, fun _ _ => rfl, fun _ _ => rfl, fun j _ hheld => ?_⟩
          rw [hnobody] at hheld
          cases hheld
        refine ⟨hmoves, Process.Safe.done (Inside.stable _ _) ?_⟩
        exact ⟨⟨hsound, hP.added⟩, by rw [hnobody], trivial⟩
      | false =>
        obtain ⟨rfl, rfl⟩ := Prod.mk.inj (some.inj henv)
        exact ⟨Moves.refl, ih hP⟩
    | _ => cases henv

lemma regAcquire_safe (pid : ℕ) (h : Outside rows₀ i [] s) :
    SafeCall rows₀ i (fun passed s => if passed then Within rows₀ i [] s else Outside rows₀ i [] s)
      (regAcquire pid) s := by
  refine SafeCall.ask (Outside.stable _) (by trivial) (fun s opened hP => ?_) h
  cases opened with
  | true => exact regPoll_safe _ hP
  | false => exact Process.Safe.done (Outside.stable _) hP

lemma safe_post (h : Ends (Within rows₀ i) name result s) :
    SafeCall rows₀ i (Ends (Outside rows₀ i) name) (do
      RegProc.semPost
      return result) s := by
  refine Process.Safe.call (Ends.stable (fun _ => Inside.stable _ _) name result)
    (fun s x r s' hP _ henv => ?_) h
  cases x with
  | succeeds b =>
    obtain ⟨-, rfl⟩ := Prod.mk.inj (some.inj henv)
    have hholds : s.holders = [i] := by
      unfold Ends at hP
      split_ifs at hP
      · obtain ⟨row, -, -, hin⟩ := hP
        exact hin.holds
      · exact hP.holds
    have hsound (hs : Sound rows₀ s) :
        Sound rows₀ { s with value := s.value + 1, holders := s.holders.erase i } := by
      refine ⟨?_, hs.distinct, hs.logged⟩
      have hsem := hs.sem
      simp only [hholds, List.length_cons, List.length_nil, List.erase_cons_head] at hsem ⊢
      omega
    have hmoves :
        Moves rows₀ i s { s with value := s.value + 1, holders := s.holders.erase i } := by
      refine ⟨hsound, fun _ _ => rfl, fun _ _ => rfl, fun j hj hheld => ?_⟩
      exact absurd (List.cons.inj (hholds.symm.trans hheld)).1.symm hj
    exact ⟨hmoves, Process.Safe.done (Ends.stable (fun _ => Outside.stable _) name result)
      (hP.imp fun added hin => ⟨hsound hin.sound, hin.added⟩)⟩
  | _ => cases henv

/-- **One call.** -/
lemma accountRegister_safe (args : RegArgs) (h : Outside rows₀ i [] s) :
    SafeCall rows₀ i (Ends (Outside rows₀ i) args.name.bytes) (accountRegister args) s := by
  have hfail {s : Registry ι} {status : ℕ} (hstatus : status ≠ 200) (hout : Outside rows₀ i [] s) :
      SafeCall rows₀ i (Ends (Outside rows₀ i) args.name.bytes) (.done (status, none)) s := by
    refine Process.Safe.done (Ends.stable (fun _ => Outside.stable _) _ _) ?_
    rw [Ends, if_neg hstatus]
    exact hout
  unfold accountRegister
  split_ifs
  · exact hfail (by norm_num) h
  · refine SafeCall.ask (Outside.stable _) (by trivial) (fun s salt hP => ?_) h
    cases salt with
    | none => exact hfail (by norm_num) hP
    | some salt =>
      refine SafeCall.ask (Outside.stable _) (by trivial) (fun s digest hP => ?_) hP
      cases digest with
      | none => exact hfail (by norm_num) hP
      | some digest =>
        refine Process.Safe.bind ((regAcquire_safe args.pid hP).mono fun passed s hpassed => ?_)
        cases passed with
        | false => exact hfail (by norm_num) hpassed
        | true =>
          exact Process.Safe.bind ((registerConnected_safe _ _ _ hpassed).mono
            fun result s hend => safe_post hend)

end Registry

/-- **Unique accounts.**  Any number of calls of `account_register`, in any interleaving and with
whatever their statements come to, as long as a commit that is not answered `ok` does not take
effect: no two rows ever have one name or one id, and a call that has returned 200 has added one
row, which has its name, while a call that has returned anything else has added none. -/
theorem accounts_unique {ι : Type} [DecidableEq ι] (args : ι → RegArgs) {rows₀ : List UserRow}
    (hrows : Registry.Distinct rows₀) {evs : List (ι × RegChoice)}
    {p : Process.Pool RegCall RegCall.Answer (ℕ × Option ℤ) ι (Registry ι)}
    (hcommits : EveryStep (Process.Pool.step Registry.respond)
      (fun _ p e => p.Meets Registry.HonestCommit e) (Registry.pool rows₀ args) evs)
    (hrun : execAll (Process.Pool.step Registry.respond) (Registry.pool rows₀ args) evs = some p) :
    Registry.Distinct p.shared.rows ∧ p.shared.rows = rows₀ ++ p.shared.log.map (·.2) ∧
      ∀ i status id, p.procs i = .done (status, id) →
        if status = 200 then ∃ row : UserRow, row.name.bytes = (args i).name.bytes ∧
          id = some row.id.val ∧ p.shared.addedBy i = [row]
        else p.shared.addedBy i = [] := by
  have hsound : Registry.Sound rows₀ (Registry.pool rows₀ args).shared :=
    ⟨rfl, hrows, by simp [Registry.pool, Registry.start]⟩
  have hsafe (i : ι) : Registry.SafeCall rows₀ i
      (Registry.Ends (Registry.Outside rows₀ i) (args i).name.bytes)
      ((Registry.pool rows₀ args).procs i) (Registry.pool rows₀ args).shared :=
    Registry.accountRegister_safe (args i) ⟨hsound, rfl⟩
  have hkeep (i : ι) (s s' : Registry ι) (hmoves : Registry.Moves rows₀ i s s') :
      Registry.Sound rows₀ s → Registry.Sound rows₀ s' := hmoves.sound
  obtain ⟨hend, hcalls⟩ := Process.safe_run hkeep hsound hsafe hcommits hrun
  refine ⟨hend.distinct, hend.logged, fun i status id hdone => ?_⟩
  have hcall := hcalls i
  rw [hdone] at hcall
  have hpost := hcall.post
  unfold Registry.Ends at hpost
  dsimp only at hpost
  split_ifs at hpost ⊢
  · obtain ⟨row, hname, hid, hout⟩ := hpost
    exact ⟨row, hname, hid, hout.added⟩
  · exact hpost.added

/-- Two calls for one name: the second tries the semaphore too early, and then finds the name
taken. -/
def annTwice : List (Bool × RegChoice) :=
  let digest : RegChoice := .digest (some (Vector.replicate _ 1))
  let answered : RegChoice := .fate ⟨.ok, false⟩
  [(false, .salt (some (Vector.replicate _ 0))), (false, digest), (false, .succeeds true),
    (false, .succeeds true), (false, .succeeds true), (false, answered), (false, answered),
    (true, .salt (some (Vector.replicate _ 0))), (true, digest), (true, .succeeds true),
    (true, .succeeds false), (false, answered), (false, .clock 7), (false, answered),
    (false, answered), (false, .succeeds true), (false, .succeeds true), (true, .succeeds true),
    (true, .succeeds true), (true, answered), (true, answered), (true, answered), (true, answered),
    (true, .succeeds true), (true, .succeeds true)]

/-- The first of the two adds the row, and the second none. -/
theorem annTwice_unique :
    let args : Bool → RegArgs := fun _ => ⟨.ofBytes (ascii "ann"), ascii "password", 0, 1000⟩
    ∃ p, execAll (Process.Pool.step Registry.respond) (Registry.pool [] args) annTwice = some p ∧
      Registry.Distinct p.shared.rows ∧ p.procs true = .done (409, none) ∧
      (∃ row : UserRow, row.name.bytes = ascii "ann" ∧ p.shared.addedBy false = [row]) ∧
      p.shared.addedBy true = [] := by
  intro args
  have hends : ((execAll (Process.Pool.step Registry.respond) (Registry.pool [] args) annTwice).map
      fun p => ((p.procs false).result?, (p.procs true).result?)) =
      some (some (200, some 1), some (409, none)) := by
    decide +kernel
  obtain ⟨p, hrun, hresults⟩ := map_eq_some_iff.mp hends
  obtain ⟨hfirst, hsecond⟩ := Prod.mk.inj hresults
  have hfates : ∀ e ∈ annTwice, e.2.applied = false := by decide +kernel
  have hhonest (e : Bool × RegChoice) (he : e ∈ annTwice) (fate : Fate) (hfate : e.2 = .fate fate) :
      fate.applied = false := by
    have hone := hfates e he
    rw [hfate] at hone
    exact hone
  have hcommits : EveryStep (Process.Pool.step Registry.respond)
      (fun _ p e => p.Meets Registry.HonestCommit e) (Registry.pool [] args) annTwice :=
    fun before e after hevs _ _ _ _ _ fate _ hfate _ =>
      hhonest e (by simp [hevs]) fate hfate
  obtain ⟨hdistinct, -, hcalls⟩ := accounts_unique args ⟨by simp, by simp⟩ hcommits hrun
  have hdone := Process.eq_done_of_result? hsecond
  obtain ⟨row, hname, -, hrow⟩ := hcalls false 200 _ (Process.eq_done_of_result? hfirst)
  exact ⟨p, hrun, hdistinct, hdone, ⟨row, hname, hrow⟩, hcalls true 409 _ hdone⟩

end BallotBox
