import BallotBox.Properties.Sessions

/-!
# What the status of a select says

`StatementSession.execute` reads the outcome of a statement off what it has printed.  A failure is
always found; but a value that starts like a message, in the first column or after a line feed, is
taken for one (`status_faithful_iff`).
-/

namespace BallotBox.SimpleDb

open List Option

variable {w : Bytes} {lines : List Bytes}

/-! ## Lines that look like messages -/

@[simp] lemma hasErrorLine_nil : hasErrorLine [] = false := by decide

lemma hasErrorLine_append (a b : Bytes) :
    hasErrorLine (a ++ lf :: b) = (hasErrorLine a || hasErrorLine b) := by
  have hsplit : (a ++ lf :: b).splitOn lf = a.splitOn lf ++ b.splitOn lf :=
    splitOnP_append_cons a b (by simp)
  simp [hasErrorLine, hsplit]

lemma hasErrorLine_println (text rest : Bytes) :
    hasErrorLine (println text ++ rest) = (hasErrorLine text || hasErrorLine rest) := by
  rw [println, append_assoc]
  exact hasErrorLine_append text rest

lemma hasErrorLine_printLines (texts : List Bytes) (rest : Bytes) :
    hasErrorLine (printLines texts ++ rest) = (texts.any hasErrorLine || hasErrorLine rest) := by
  induction texts with
  | nil => simp [printLines]
  | cons text texts ih =>
    have hcons :
        printLines (text :: texts) ++ rest = println text ++ (printLines texts ++ rest) := by
      simp [printLines]
    rw [hcons, hasErrorLine_println, ih, any_cons, Bool.or_assoc]

lemma hasErrorLine_of_head {text : Bytes} (hlf : lf ∉ text)
    (hhead : text.head?.any (fun c => c ≠ 73 ∧ c ≠ 67)) : hasErrorLine text = false := by
  have hI : ascii "Invalid SQL expression" = 73 :: (ascii "Invalid SQL expression").tail := by
    decide
  have hC : ascii "Can't parse " = 67 :: (ascii "Can't parse ").tail := by decide
  cases text with
  | nil => rfl
  | cons c rest =>
    obtain ⟨h73, h67⟩ : c ≠ 73 ∧ c ≠ 67 := by simpa using hhead
    simp only [hasErrorLine, splitOn_eq_singleton hlf, errorLinePrefixes]
    rw [hI, hC]
    simp [List.isPrefixOf, Ne.symm h73, Ne.symm h67]

lemma hasErrorLine_of_fixed {fixed rest : Bytes}
    (hfixed : lf ∉ fixed ∧ fixed.head?.any (fun c => c ≠ 73 ∧ c ≠ 67)) (hrest : lf ∉ rest) :
    hasErrorLine (fixed ++ rest) = false := by
  refine hasErrorLine_of_head (by simp [hfixed.1, hrest]) ?_
  cases fixed with
  | nil => simp at hfixed
  | cons c fixed => exact hfixed.2

lemma hasErrorLine_rule (td : TupleDesc) : hasErrorLine td.rule = false := by
  unfold TupleDesc.rule
  generalize td.header.length + td.names.length * 4 = n
  cases n with
  | zero => decide
  | succ n =>
    refine hasErrorLine_of_head ?_ (by simp [replicate_succ])
    exact fun hmem => absurd (eq_of_mem_replicate hmem) (by decide)

lemma hasErrorLine_notice (notice : Notice) : hasErrorLine notice.text = false := by
  cases notice with
  | addScan name => exact hasErrorLine_of_fixed (by decide) name.plain
  | addJoin field₁ field₂ =>
    rw [Notice.text, append_assoc, append_assoc]
    refine hasErrorLine_of_fixed (by decide) ?_
    have hand : lf ∉ ascii " and " := by decide
    simp [field₁.plain, field₂.plain, hand]
  | addSubplanJoin field => exact hasErrorLine_of_fixed (by decide) field.plain
  | groupBy field => exact hasErrorLine_of_fixed (by decide) field.plain
  | aggregate field function =>
    rw [Notice.text, append_assoc, append_assoc]
    refine hasErrorLine_of_fixed (by decide) ?_
    have hfun : lf ∉ ascii ", agg fun is : " := by decide
    simp [field.plain, function.plain, hfun]
  | addProjectField field => exact hasErrorLine_of_fixed (by decide) field.plain
  | aggregator function => exact hasErrorLine_of_fixed (by decide) function.plain

lemma lf_notMem_renderNat (n : ℕ) : lf ∉ renderNat n :=
  fun hmem => absurd (isDigit_of_mem_renderNat hmem) (by decide)

lemma hasErrorLine_trailer (n : ℕ) : hasErrorLine (rowsTrailer n) = false := by
  have hrows : lf ∉ ascii " rows." := by decide
  refine hasErrorLine_of_head ?_ (by simp [rowsTrailer])
  simpa [rowsTrailer, lf_notMem_renderNat, hrows] using by decide

/-! ## Rows that read like messages -/

lemma hasErrorLine_iff (text : Bytes) :
    hasErrorLine text ↔ ∃ pre ∈ errorLinePrefixes, pre <+: text ∨ lf :: pre <:+: text := by
  have hplain : ∀ pre ∈ errorLinePrefixes, lf ∉ pre := by decide
  have hlines : hasErrorLine text ↔
      ∃ pre ∈ errorLinePrefixes, ∃ line ∈ text.splitOn lf, pre <+: line := by
    simp only [hasErrorLine, List.any_eq_true, isPrefixOf_iff_prefix]
    exact ⟨fun ⟨line, hline, pre, hpre, h⟩ => ⟨pre, hpre, line, hline, h⟩,
      fun ⟨pre, hpre, line, hline, h⟩ => ⟨line, hline, pre, hpre, h⟩⟩
  rw [hlines]
  refine exists_congr fun pre => and_congr_right fun hpre => ?_
  exact exists_piece_prefix_iff (hplain pre hpre) text

/-- A row with a value that reads like a message: the first from its start, or any after a line
feed. -/
def ReadsAsMessage (row : List Bytes) : Prop :=
  ∃ pre ∈ errorLinePrefixes,
    (∃ first ∈ row.head?, pre <+: first) ∨ ∃ value ∈ row, lf :: pre <:+: value

lemma tupleLine_cons_cons (first second : Bytes) (rest : List Bytes) :
    tupleLine (first :: second :: rest) = first ++ tab :: tupleLine (second :: rest) := by
  simp [tupleLine, intercalate_cons_cons]

lemma prefix_tupleLine_iff (hne : w ≠ []) (hw : tab ∉ w) (row : List Bytes) :
    w <+: tupleLine row ↔ ∃ first ∈ row.head?, w <+: first := by
  cases row with
  | nil => simp [tupleLine, hne]
  | cons first rest =>
    cases rest with
    | nil => simp [tupleLine]
    | cons second rest =>
      rw [tupleLine_cons_cons]
      have hsplit : w <+: first ++ tab :: tupleLine (second :: rest) ↔ w <+: first :=
        ⟨prefix_of_prefix_append (by simpa using hw), fun h => h.trans (prefix_append _ _)⟩
      simp [hsplit]

lemma infix_tupleLine_iff (hne : w ≠ []) (hw : tab ∉ w) (row : List Bytes) :
    w <:+: tupleLine row ↔ ∃ value ∈ row, w <:+: value := by
  induction row with
  | nil => simp [tupleLine, hne]
  | cons first rest ih =>
    cases rest with
    | nil => simp [tupleLine]
    | cons second rest =>
      rw [tupleLine_cons_cons, infix_append_cons_iff hw, ih]
      simp

lemma hasErrorLine_tupleLine (row : List Bytes) :
    hasErrorLine (tupleLine row) ↔ ReadsAsMessage row := by
  have hwords : ∀ pre ∈ errorLinePrefixes, pre ≠ [] ∧ tab ∉ pre ∧ tab ∉ lf :: pre := by decide
  rw [hasErrorLine_iff]
  refine exists_congr fun pre => and_congr_right fun hpre => ?_
  obtain ⟨hne, htab, htab'⟩ := hwords pre hpre
  rw [prefix_tupleLine_iff hne htab, infix_tupleLine_iff (by simp) htab']

/-! ## Reports -/

section Reports

variable {π α : Type} [DecidableEq π] {size : LogRecord ℕ π α → ℕ} {blank : α}
  {s s' : SqlSession π α} {t : ℕ} {e : Execution π α} {console : Console}
  {thrown escaped : Option Failure}

lemma hasErrorLine_transaction (n : ℕ) {tail : Bytes} (htail : lf ∉ tail) :
    hasErrorLine (ascii "Transaction " ++ renderNat n ++ tail) = false := by
  rw [append_assoc]
  exact hasErrorLine_of_fixed (by decide) (by simp [lf_notMem_renderNat, htail])

lemma runData_report (hlast : s.lastStatementFailure = none)
    (hstep : s.runData size blank t e = some (console, thrown, s')) :
    thrown = e.failure.map Failure.rethrown ∧ s'.lastStatementFailure = e.failure ∧
      ∃ after, (∀ text ∈ after, hasErrorLine text = false) ∧
        console = ⟨e.printed.out ++ printLines after, e.printed.err⟩ := by
  unfold SqlSession.runData at hstep
  obtain ⟨s₁, hacts, hstep⟩ := bind_eq_some_iff.mp hstep
  obtain ⟨storage, -, rfl⟩ := map_eq_some_iff.mp hacts
  cases hfail : e.failure with
  | some f =>
    rw [hfail] at hstep
    obtain ⟨⟨out, s₂⟩, hend, hstep⟩ := bind_eq_some_iff.mp hstep
    obtain ⟨rfl, rfl, rfl⟩ := by simpa using hstep
    obtain ⟨s₃, -, heq⟩ := map_eq_some_iff.mp hend
    obtain ⟨rfl, rfl⟩ := Prod.mk.inj heq
    refine ⟨rfl, rfl, [ascii "Transaction " ++ renderNat t ++
      ascii " aborted because of unhandled error"], ?_, by simp [printLines]⟩
    simpa using hasErrorLine_transaction t (by decide)
  | none =>
    rw [hfail] at hstep
    obtain ⟨⟨out, s₂⟩, hend, hstep⟩ := bind_eq_some_iff.mp hstep
    obtain ⟨rfl, rfl, rfl⟩ := by simpa using hstep
    unfold SqlSession.succeed at hend
    split_ifs at hend
    · obtain ⟨rfl, rfl⟩ := Prod.mk.inj (some.inj hend)
      exact ⟨rfl, hlast, [], by simp, by simp [printLines]⟩
    · obtain ⟨s₃, hrun, heq⟩ := map_eq_some_iff.mp hend
      obtain ⟨rfl, rfl⟩ := Prod.mk.inj heq
      obtain ⟨storage', -, rfl⟩ := map_eq_some_iff.mp hrun
      refine ⟨rfl, hlast, [ascii "Transaction " ++ renderNat t ++ ascii " committed."], ?_,
        by simp [printLines]⟩
      simpa using hasErrorLine_transaction t (by decide)

lemma handleData_report (hcoherent : s.inUserTrans = s.curtrans.isSome)
    (hlast : s.lastStatementFailure = none)
    (hstep : s.handleData size blank e = some (console, thrown, s')) :
    thrown = e.failure.map Failure.rethrown ∧ s'.lastStatementFailure = e.failure ∧
      ∃ before after, (∀ text ∈ before ++ after, hasErrorLine text = false) ∧
        console = ⟨printLines before ++ e.printed.out ++ printLines after, e.printed.err⟩ := by
  unfold SqlSession.handleData at hstep
  cases hcur : s.curtrans with
  | some t =>
    simp only [hcoherent, hcur, isSome_some, if_true] at hstep
    obtain ⟨hthrown, hrecord, after, hclean, hconsole⟩ := runData_report hlast hstep
    exact ⟨hthrown, hrecord, [], after, by simpa using hclean, by simp [hconsole, printLines]⟩
  | none =>
    simp only [hcoherent, hcur, isSome_none, Bool.false_eq_true, if_false] at hstep
    obtain ⟨s₁, hbegin, hstep⟩ := bind_eq_some_iff.mp hstep
    obtain ⟨⟨console', thrown', s₂⟩, hdata, hstep⟩ := bind_eq_some_iff.mp hstep
    obtain ⟨rfl, rfl, rfl⟩ := by simpa using hstep
    have hlast₁ : s₁.lastStatementFailure = none := by
      obtain ⟨storage, -, rfl⟩ := map_eq_some_iff.mp hbegin
      exact hlast
    obtain ⟨hthrown, hrecord, after, hclean, rfl⟩ := runData_report hlast₁ hdata
    have hstarted : hasErrorLine (ascii "Started a new transaction tid = " ++ renderNat s.nextTid) =
        false := hasErrorLine_of_fixed (by decide) (lf_notMem_renderNat _)
    refine ⟨hthrown, hrecord,
      [ascii "Started a new transaction tid = " ++ renderNat s.nextTid], after,
      ?_, by simp [printLines]⟩
    intro text htext
    obtain rfl | htext := mem_cons.mp htext
    · exact hstarted
    · exact hclean text htext

omit [DecidableEq π] in
lemma caught_rethrown (s : SqlSession π α) (f : Failure) : (s.caught f.rethrown).2.1 = none ∧
      (s.caught f.rethrown).2.2.lastStatementFailure = s.lastStatementFailure.or (some f.rethrown) ∧
      ((s.caught f.rethrown).1.err ≠ [] ∨ hasErrorLine (s.caught f.rethrown).1.out) := by
  have hmessage (rest : Bytes) :
      hasErrorLine (println (ascii "Invalid SQL expression: \n \t" ++ rest)) = true := by
    have hsplit : println (ascii "Invalid SQL expression: \n \t" ++ rest) =
        ascii "Invalid SQL expression: " ++ lf :: println (ascii " \t" ++ rest) := by
      simp only [println, append_assoc]
      rfl
    rw [hsplit, hasErrorLine_append]
    have hfirst : hasErrorLine (ascii "Invalid SQL expression: ") = true := by decide
    simp [hfirst]
  have htrace (g : Failure) : g.stackTrace ≠ [] := by simp [Failure.stackTrace, println]
  obtain ⟨kind, message⟩ := f
  cases kind with
  | parsing => exact ⟨rfl, rfl, .inr (hmessage _)⟩
  | zqlParse => exact ⟨rfl, rfl, .inr (hmessage _)⟩
  | tokenMgr =>
    refine ⟨rfl, rfl, .inr ?_⟩
    have htext := hmessage (ascii " " ++ (⟨.tokenMgr, message⟩ : Failure).toText)
    rw [← append_assoc] at htext
    exact htext
  | io => exact ⟨rfl, rfl, .inl (htrace _)⟩
  | db => exact ⟨rfl, rfl, .inl (htrace _)⟩
  | transactionAborted => exact ⟨rfl, rfl, .inl (htrace _)⟩
  | other className => exact ⟨rfl, rfl, .inl (htrace _)⟩

lemma data_report (hcoherent : s.inUserTrans = s.curtrans.isSome)
    (hlines : e.printed.out = printLines lines)
    (hstep : s.processNextStatement size blank (.data e) = some (console, escaped, s')) :
    escaped = none ∧ s'.lastStatementFailure = e.failure ∧
      ((console.err ≠ [] ∨ hasErrorLine console.out) ↔
        e.failure.isSome ∨ e.printed.err ≠ [] ∨ lines.any hasErrorLine) := by
  obtain ⟨⟨console₁, thrown, s₁⟩, hattempt, heq⟩ := map_eq_some_iff.mp hstep
  obtain ⟨rfl, hrecord, before, after, hclean, rfl⟩ :=
    handleData_report (s := { s with lastStatementFailure := none }) hcoherent rfl hattempt
  -- the lines around the statement's own are no messages
  have hout (rest : Bytes) :
      hasErrorLine (printLines before ++ e.printed.out ++ printLines after ++ rest) =
        (lines.any hasErrorLine || hasErrorLine rest) := by
    have hbefore : before.any hasErrorLine = false :=
      List.any_eq_false.mpr fun text h => by simp [hclean text (mem_append_left _ h)]
    have hafter : after.any hasErrorLine = false :=
      List.any_eq_false.mpr fun text h => by simp [hclean text (mem_append_right _ h)]
    rw [hlines, append_assoc, append_assoc, hasErrorLine_printLines,
      hasErrorLine_printLines, hasErrorLine_printLines, hbefore, hafter]
    simp
  cases hfail : e.failure with
  | none =>
    rw [hfail] at heq
    obtain ⟨rfl, hrest⟩ := Prod.mk.inj heq
    obtain ⟨rfl, rfl⟩ := Prod.mk.inj hrest
    have hout := hout []
    simp only [append_nil, hasErrorLine_nil, Bool.or_false] at hout
    refine ⟨rfl, hrecord.trans hfail, ?_⟩
    rw [hout]
    simp
  | some f =>
    have hcaught := caught_rethrown s₁ f
    simp only [hfail, map_some] at heq
    generalize s₁.caught f.rethrown = r at heq hcaught
    obtain ⟨report, escaped', s₂⟩ := r
    obtain ⟨hnone, hlast, hfound⟩ := hcaught
    obtain ⟨rfl, hrest⟩ := Prod.mk.inj heq
    obtain ⟨rfl, rfl⟩ := Prod.mk.inj hrest
    refine ⟨hnone, by rw [hlast, hrecord, hfail]; rfl, ?_⟩
    simp only [isSome_some, true_or, iff_true, hout]
    cases hfound with
    | inl herr => exact .inl (by simpa using fun _ => herr)
    | inr hline => exact .inr (by simpa using .inr hline)

lemma execute_status (hcoherent : s.inUserTrans = s.curtrans.isSome)
    (hlines : e.printed.out = printLines lines) {status : StatementStatus} {body : Bytes}
    (hstep : s.execute size blank (.data e) = some (status, body, s')) :
    s'.lastStatementFailure = e.failure ∧
      status = if e.failure.isSome ∨ e.printed.err ≠ [] ∨ lines.any hasErrorLine then
        if e.failure.any (·.kind = .transactionAborted) then .retry else .error
      else .ok := by
  obtain ⟨⟨console, escaped, s₁⟩, hstmt, heq⟩ := map_eq_some_iff.mp hstep
  obtain ⟨rfl, hlast, hfailed⟩ := data_report hcoherent hlines hstmt
  obtain ⟨hstatus, hrest⟩ := Prod.mk.inj heq
  obtain ⟨-, rfl⟩ := Prod.mk.inj hrest
  refine ⟨hlast, ?_⟩
  rw [← hstatus, ← hlast]
  rw [← hlast] at hfailed
  by_cases hlooks : console.err ≠ [] ∨ hasErrorLine console.out
  · rw [if_pos (hfailed.mp hlooks), if_neg (by simpa [or_iff_not_imp_left] using hlooks)]
  · rw [if_neg (fun h => hlooks (hfailed.mpr h)), if_pos (by simpa using hlooks)]

end Reports

/-! ## Selects -/

section Selects

variable {π α : Type} [DecidableEq π] {imageSize : Image π α → ℕ} {blank : α} {pointer : ℤ}
  {log : List (LogRecord ℕ π α)} {disk : π → Option α} {s s' : SqlSession π α}

def StatementStatus.Reports (status : StatementStatus) (failure : Option Failure) : Prop :=
  (status = .ok ↔ failure = none) ∧
  (status = .retry ↔ ∃ f, failure = some f ∧ f.kind = .transactionAborted) ∧
  (status = .error ↔ ∃ f, failure = some f ∧ f.kind ≠ .transactionAborted)

/-- Nothing a completed query printed looks like a failure: its plan was drawn, and neither tree nor
row reads like a message. -/
def Select.Unmistakable (q : Select π α) : Prop :=
  ∀ p, q.planned = .ok p → p.failure = none →
    (∃ tree, p.drawn = .ok tree ∧ hasErrorLine tree = false) ∧ ∀ row ∈ p.rows, ¬ ReadsAsMessage row

lemma PlannedSelect.planText_out (p : PlannedSelect) :
    p.planText.out = printLines (ascii "The query plan is:" :: p.drawn.toOption.toList) := by
  unfold planText
  cases p.drawn with
  | ok tree => simp [printLines, Except.toOption]
  | error f => simp [printLines, Except.toOption]

lemma PlannedSelect.resultText_lines (p : PlannedSelect) :
    ∃ lines, p.resultText = printLines lines ∧ (p.failure = none →
      lines.any hasErrorLine = p.rows.any fun row => hasErrorLine (tupleLine row)) := by
  refine ⟨_, rfl, fun hnone => ?_⟩
  rw [hnone]
  simp [queryLines, p.plainHeader, hasErrorLine_rule, hasErrorLine_trailer,
    Function.comp_def]

omit [DecidableEq π] in
lemma Select.printed_lines (q : Select π α) : ∃ lines, q.execution.printed.out = printLines lines ∧
      ∀ p, q.planned = .ok p → p.failure = none → lines.any hasErrorLine =
          (p.drawn.toOption.any hasErrorLine || p.rows.any fun row =>
            hasErrorLine (tupleLine row)) := by
  unfold execution
  cases hplanned : q.planned with
  | error e => exact ⟨_, rfl, fun p hp => by simp at hp⟩
  | ok p =>
    obtain ⟨result, hresult, hrows⟩ := p.resultText_lines
    refine ⟨q.notices.map Notice.text ++
      (ascii "The query plan is:" :: p.drawn.toOption.toList) ++ result,
      by simp [PlannedSelect.planText_out, hresult, printLines], ?_⟩
    intro p' hp' hnone
    obtain rfl : p = p' := by simpa using hp'
    have hnotices : (q.notices.map Notice.text).any hasErrorLine = false := by
      simp [hasErrorLine_notice]
    have hplan : hasErrorLine (ascii "The query plan is:") = false := by decide
    rw [any_append, any_append, any_cons, hnotices, hplan, hrows hnone]
    cases p.drawn.toOption <;> simp

omit [DecidableEq π] in
lemma Select.unmistakable_iff (q : Select π α) (hnone : q.execution.failure = none)
    (hlines : ∀ p, q.planned = .ok p → p.failure = none → lines.any hasErrorLine =
        (p.drawn.toOption.any hasErrorLine || p.rows.any fun row => hasErrorLine (tupleLine row))) :
    q.Unmistakable ↔ ¬ (q.execution.printed.err ≠ [] ∨ lines.any hasErrorLine) := by
  cases hplanned : q.planned with
  | error e => simp [execution, hplanned] at hnone
  | ok p =>
    have hfail : p.failure = none := by simpa [execution, hplanned] using hnone
    have herr : q.execution.printed.err = p.planText.err := by simp [execution, hplanned]
    have hcond : q.Unmistakable ↔ (∃ tree, p.drawn = .ok tree ∧ hasErrorLine tree = false) ∧
        ∀ row ∈ p.rows, ¬ ReadsAsMessage row := by
      simp [Unmistakable, hplanned, hfail]
    rw [hcond, hlines p hplanned hfail, herr, PlannedSelect.planText]
    cases p.drawn with
    | error f => simp [Failure.stackTrace, println]
    | ok tree => simp [Except.toOption, ← hasErrorLine_tupleLine]

/-- **The status of a select is its outcome, unless its data gets in the way.**  In every session,
the status of a select says whether it has completed, and if it has not, whether the transaction was
aborted for a deadlock, if and only if nothing that a completed query has printed looks like a
failure. -/
theorem status_faithful_iff {stmts : List (Statement π α)}
    (hrun : (SqlSession.init (.init (openLog pointer log) disk)).runAll (LogRecord.size imageSize)
      blank stmts = some s)
    {q : Select π α} {status : StatementStatus} {body : Bytes}
    (hstep : s.execute (LogRecord.size imageSize) blank (.data q.execution) =
      some (status, body, s')) :
    status.Reports q.execution.failure ↔ q.Unmistakable := by
  have hcoherent := (SqlSession.follows_of_runAll hrun).coherent
  obtain ⟨lines, hlines, hdata⟩ := q.printed_lines
  obtain ⟨-, rfl⟩ := execute_status hcoherent hlines hstep
  cases hfail : q.execution.failure with
  | none =>
    rw [Select.unmistakable_iff q hfail hdata]
    by_cases hlooks : q.execution.printed.err ≠ [] ∨ lines.any hasErrorLine
    · rw [if_pos (.inr hlooks)]
      exact iff_of_false (by simp [StatementStatus.Reports]) (not_not_intro hlooks)
    · rw [if_neg (by simpa using hlooks)]
      exact iff_of_true (by simp [StatementStatus.Reports]) hlooks
  | some f =>
    -- a select that has failed is always reported as it is
    have hcond : q.Unmistakable := by
      intro p hplanned hnone
      simp [Select.execution, hplanned, hnone] at hfail
    simp only [isSome_some, true_or, if_true, any_some, hcond, iff_true]
    by_cases hkind : f.kind = .transactionAborted
    · simp [StatementStatus.Reports, hkind]
    · simp [StatementStatus.Reports, hkind]

end Selects

/-! ## A value that reads like a message -/

def selectOne (value : Bytes) : Select ℕ ℕ :=
  ⟨[.lock 0 false, .fetch 0], [],
    .ok ⟨.ok (ascii "scan(choices)"), ⟨[ascii "choices.name"], by simp, by decide⟩, by decide,
      [[value]],
      none⟩⟩

/-- The value `Can't parse this` has been read, the transaction has committed and nothing has
failed; the status is `error`. -/
theorem misread_value : ∃ body s', sessionOnSeven.execute (LogRecord.size fun _ => 10) 0
        (.data (selectOne (ascii "Can't parse this")).execution) = some (.error, body, s') ∧
      s'.lastStatementFailure = none ∧ s'.storage.phase 0 = .committed := by
  have hrun : (sessionOnSeven.execute (LogRecord.size fun _ => 10) 0
      (.data (selectOne (ascii "Can't parse this")).execution)).map (fun r =>
        (r.1, r.2.2.lastStatementFailure, r.2.2.storage.phase 0)) =
          some (.error, none, .committed) := by
    decide
  obtain ⟨⟨status, body, s'⟩, hstep, heq⟩ := map_eq_some_iff.mp hrun
  obtain ⟨rfl, hrest⟩ := Prod.mk.inj heq
  exact ⟨body, s', hstep, Prod.mk.inj hrest⟩

/-- `We can parse this` is no message. -/
theorem selectOne_faithful : ∃ body s', sessionOnSeven.execute (LogRecord.size fun _ => 10) 0
        (.data (selectOne (ascii "We can parse this")).execution) = some (.ok, body, s') ∧
      StatementStatus.ok.Reports (selectOne (ascii "We can parse this")).execution.failure := by
  have hrun : (sessionOnSeven.execute (LogRecord.size fun _ => 10) 0
      (.data (selectOne (ascii "We can parse this")).execution)).map (·.1) = some .ok := by
    decide
  obtain ⟨⟨status, body, s'⟩, hstep, rfl⟩ := map_eq_some_iff.mp hrun
  have hfresh : sessionOnSeven.runAll (LogRecord.size fun _ => 10) 0 [] = some sessionOnSeven := rfl
  refine ⟨body, s', hstep, (status_faithful_iff hfresh hstep).mpr ?_⟩
  intro p hplanned _
  obtain rfl := Except.ok.inj hplanned
  refine ⟨⟨_, rfl, by decide⟩, fun row hrow => ?_⟩
  obtain rfl := mem_singleton.mp hrow
  rw [← hasErrorLine_tupleLine]
  decide

end BallotBox.SimpleDb
