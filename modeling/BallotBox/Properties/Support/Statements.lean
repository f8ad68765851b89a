import BallotBox.Construction.Db
import BallotBox.Framework.Lists

/-!
# What a statement does over the direct channel

`Link.Sees view store` describes a connection: the transaction open on it, if any, and the committed
tables behind it.  A data statement that is answered has run on the tables the connection sees; one
that fails leaves the committed tables alone (`Link.Fails`).
-/

namespace BallotBox

open Link Option

def Stmt.isData : Stmt → Bool
  | .setTransaction | .commit | .rollback => false
  | _ => true

/-- The transaction open on the connection, and the committed tables behind it. -/
structure Link.Sees {ι : Type} (view : Option Tables) (store : Tables) (l : Link ι) : Prop where
  view_eq : l.conn.view = view
  store_eq : l.server.store = store

def Link.Stores {ι : Type} (store : Tables) (l : Link ι) : Prop := l.server.store = store

def BbErr.Store (e : BbErr) : Prop := e = .db ∨ e = .retry

def Link.Fails {ι : Type} (store : Tables) (e : BbErr) (l : Link ι) : Prop :=
  e.Store ∧ l.Stores store

/-! ## Any channel -/

/-- How an exchange can go: the statement is not sent, the connection is lost, the server fails it,
or runs it. -/
inductive Exchange {ι : Type} (ch : Channel ι) (cap : ℕ) (stmt : Stmt) (l : Link ι) :
    (DbStatus × Reply) × Link ι → Prop
  | unsent (status : DbStatus) (h : status ≠ .ok) (hretry : status ≠ .retry) :
      Exchange ch cap stmt l ((status, none), l)
  | lost (why : Terminal) : Exchange ch cap stmt l (l.lose stmt why)
  | failed (verdict : Verdict) (h : verdict = .error ∨ verdict = .retry) :
      Exchange ch cap stmt l (l.receive ch cap stmt none l.server.store verdict)
  | ran (order : RowOrder) (view : Option Tables) (store : Tables) (answer : Answer)
      (hbreak : stmt.hasBreak = false) (h : l.execute order stmt = some (view, store, answer)) :
      Exchange ch cap stmt l (l.receive ch cap stmt view store (.ok answer))

lemma dbSocketExec_exchange {ι : Type} (ch : Channel ι) (cap : ℕ) (stmt : Stmt) (l : Link ι) :
    Exchange ch cap stmt l (dbSocketExec ch cap stmt l) := by
  unfold dbSocketExec
  split
  · rename_i why _
    refine .unsent _ ?_ ?_ <;> cases why <;> simp [Terminal.status]
  · split_ifs with hbreak
    · exact .unsent _ (by simp) (by simp)
    · split
      · exact .lost _
      · exact .failed _ (.inl rfl)
      · exact .failed _ (.inr rfl)
      · split
        · exact .failed _ (.inl rfl)
        · rename_i h
          exact .ran _ _ _ _ (by simpa using hbreak) h

lemma Link.execute_data {ι : Type} {stmt : Stmt} (hdata : stmt.isData = true) (l : Link ι)
    (order : RowOrder) : l.execute order stmt = l.runData order stmt := by
  cases stmt <;> first | rfl | cases hdata

lemma execStmt_rollback {ι : Type} {ch : Channel ι} {store : Tables} {cap : ℕ} :
    Invariant (Stores store) (execStmt ch cap .rollback) := by
  intro l hl
  have hstore : (dbSocketExec ch cap .rollback l).2.Stores store := by
    have hx := dbSocketExec_exchange ch cap .rollback l
    generalize dbSocketExec ch cap .rollback l = r at hx
    cases hx with
    | unsent | lost | failed => exact hl
    | ran order view store answer _ h =>
      obtain ⟨t, -, hx⟩ := map_eq_some_iff.mp h
      simp only [Prod.mk.injEq] at hx
      exact hx.2.1.symm.trans hl
  simp only [EStateM.run, execStmt]
  cases mapStatus (dbSocketExec ch cap .rollback l).1.1 <;> exact hstore

lemma hasBreak_eq_false {stmt : Stmt} (h : ∀ p ∈ stmt.parts, Clean p) : stmt.hasBreak = false := by
  simp only [Stmt.hasBreak, List.any_eq_false, Bool.or_eq_true, List.contains_iff_mem, not_or]
  exact fun p hp => ⟨(h p hp).2.2, (h p hp).2.1⟩

/-- A channel that delivers `error` and `retry` as they are: the statement fails, or it has run. -/
lemma execStmt_fails_or_runs {ι : Type} {ch : Channel ι} {cap : ℕ} {stmt : Stmt} {l : Link ι}
    (herror : (ch.deliver cap l.conn.inbox .error).1 = (.error, none))
    (hretry : (ch.deliver cap l.conn.inbox .retry).1 = (.retry, none)) :
    (∃ e l', execStmt ch cap stmt l = .error e l' ∧ l'.Fails l.server.store e) ∨
    ∃ order view store answer, l.execute order stmt = some (view, store, answer) ∧
      dbSocketExec ch cap stmt l = l.receive ch cap stmt view store (.ok answer) := by
  have hx := dbSocketExec_exchange ch cap stmt l
  unfold execStmt
  generalize dbSocketExec ch cap stmt l = r at hx
  cases hx with
  | unsent status h _ =>
    left
    cases status <;> simp_all [mapStatus, Fails, BbErr.Store, Stores]
  | lost why =>
    left
    cases why <;> simp [mapStatus, lose, Terminal.status, Fails, BbErr.Store, Stores, Server.tick]
  | failed verdict h =>
    left
    rcases h with rfl | rfl <;> simp [receive, herror, hretry, mapStatus, Fails, BbErr.Store,
      Stores, Server.tick]
  | ran order view store answer _ h => exact .inr ⟨order, view, store, answer, h, rfl⟩

/-! ## The direct channel -/

variable {view : Option Tables} {t store : Tables} {cap : ℕ} {stmt : Stmt}

lemma execStmt_cases (cap : ℕ) (stmt : Stmt) (l : Link Unit) :
    (∃ e l', execStmt direct cap stmt l = .error e l' ∧ l'.Fails l.server.store e) ∨
    ∃ order view store answer l', l.execute order stmt = some (view, store, answer) ∧
      execStmt direct cap stmt l = .ok answer.reply l' ∧ l'.Sees view store := by
  refine (execStmt_fails_or_runs rfl rfl).imp_right ?_
  rintro ⟨order, view, store, answer, hx, hrecv⟩
  have hrun : execStmt direct cap stmt l =
      .ok answer.reply (l.receive direct cap stmt view store (.ok answer)).2 := by
    rw [execStmt, hrecv]
    rfl
  exact ⟨order, view, store, answer, _, hx, hrun, rfl, rfl⟩

lemma execStmt_triple {P : Link Unit → Prop} {Q : Reply → Link Unit → Prop}
    (hP : ∀ l, P l → l.Stores store)
    (h : ∀ l order view' store' answer, P l → l.execute order stmt = some (view', store', answer) →
      ∀ l', l'.Sees view' store' → Q answer.reply l') :
    Triple P (execStmt direct cap stmt) Q (Fails store) := by
  intro l hl
  rcases execStmt_cases cap stmt l with ⟨e, l', hrun, hfail⟩ | ⟨order, v, s, a, l', hx, hrun, hsees⟩
  · rw [EStateM.run, hrun]
    exact ⟨hfail.1, hfail.2.trans (hP l hl)⟩
  · rw [EStateM.run, hrun]
    exact h l order v s a hl hx l' hsees

lemma execStmt_select {rows : Tables → List Row} (hdata : stmt.isData = true)
    (hsel : ∀ t, stmt.run t = some (t, rows t)) :
    Triple (Sees view store) (execStmt direct cap stmt)
      (fun reply l => (∃ m, m.Perm (rows (view.getD store)) ∧ reply = some m) ∧ l.Sees view store)
      (Fails store) := by
  refine execStmt_triple (fun l hl => hl.store_eq) fun l order v s a hl hx l' hsees => ?_
  rw [execute_data hdata, runData, hl.view_eq, hl.store_eq] at hx
  cases view with
  | none =>
    simp only [hsel, map_some, some.injEq, Prod.mk.injEq] at hx
    obtain ⟨rfl, rfl, rfl⟩ := hx
    exact ⟨⟨_, order.perm _, rfl⟩, hsees⟩
  | some t =>
    simp only [hsel, map_some, some.injEq, Prod.mk.injEq] at hx
    obtain ⟨rfl, rfl, rfl⟩ := hx
    exact ⟨⟨_, order.perm _, rfl⟩, hsees⟩

lemma execStmt_write (hdata : stmt.isData = true) :
    Triple (Sees (some t) store) (execStmt direct cap stmt)
      (fun _ l => ∃ t' rows, stmt.run t = some (t', rows) ∧ l.Sees (some t') store)
      (Fails store) := by
  refine execStmt_triple (fun l hl => hl.store_eq) fun l order v s a hl hx l' hsees => ?_
  rw [execute_data hdata, runData, hl.view_eq, hl.store_eq] at hx
  obtain ⟨⟨t', rows⟩, hrun, hx⟩ := map_eq_some_iff.mp hx
  simp only [Prod.mk.injEq] at hx
  obtain ⟨rfl, rfl, rfl⟩ := hx
  exact ⟨t', rows, hrun, hsees⟩

lemma execStmt_setTransaction :
    Triple (Sees none store) (execStmt direct cap .setTransaction)
      (fun _ => Sees (some store) store) (Fails store) := by
  refine execStmt_triple (fun l hl => hl.store_eq) fun l order v s a hl hx l' hsees => ?_
  simp only [execute, hl.view_eq, hl.store_eq, some.injEq, Prod.mk.injEq] at hx
  obtain ⟨rfl, rfl, -⟩ := hx
  exact hsees

lemma execStmt_commit :
    Triple (Sees (some t) store) (execStmt direct cap .commit)
      (fun _ => Stores t) (Fails store) := by
  refine execStmt_triple (fun l hl => hl.store_eq) fun l order v s a hl hx l' hsees => ?_
  simp only [execute, hl.view_eq, map_some, some.injEq, Prod.mk.injEq] at hx
  obtain ⟨rfl, rfl, -⟩ := hx
  exact hsees.store_eq

end BallotBox
