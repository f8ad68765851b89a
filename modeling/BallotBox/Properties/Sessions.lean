import BallotBox.Construction.Parser
import BallotBox.Properties.Support.Consistency

/-!
# Sessions keep their transactions

An `Account` is what a session should amount to: the content that committed transactions have left,
and what the open transaction has written.  `Account.statement` says what a statement does to it.
-/

namespace BallotBox.SimpleDb

open Function LogRecord List Option Storage Ledger

variable {u : ℕ} {thrown escaped : Option Failure} {console : Console}

/-! ## Accounts -/

/-- What committed transactions have left on the pages, and what the open transaction has
written. -/
structure Account (π α : Type) where
  committed : π → Option α
  opened : Option (π → Option α)

namespace Account

variable {π α : Type} [DecidableEq π] (blank : α) (A : Account π α)

def view (p : π) : Option α := (A.opened.bind (· p)).or (A.committed p)

def begin : Account π α := { A with opened := some fun _ => none }

def commit : Account π α := ⟨A.view, none⟩

def rollback : Account π α := { A with opened := none }

def act : StorageAct π α → Account π α
  | .edit p data => { A with opened := A.opened.map fun w => Function.update w p (some data) }
  | .append p => { A with committed := Function.update A.committed p (some blank) }
  | _ => A

def transact : TransactStmt → Account π α
  | .commit => A.commit
  | .rollback => A.rollback
  | .setTransaction => if A.opened.isSome then A else A.begin
  | .other => A

def data (e : Execution π α) : Account π α :=
  let B := e.acts.foldl (act blank) (if A.opened.isSome then A else A.begin)
  if e.failure.isSome then B.rollback else if A.opened.isSome then B else B.commit

def statement : Statement π α → Account π α
  | .unreadable _ => A
  | .transact stmt => A.transact stmt
  | .data e => A.data blank e

def after (disk : π → Option α) (stmts : List (Statement π α)) : Account π α :=
  stmts.foldl (statement blank) ⟨disk, none⟩

end Account

/-! ## Storage and account -/

section Tracks

variable {π α : Type} [DecidableEq π]

/-- The storage `s` with the ledger `L` holds what the account says, for the open transaction `cur`;
ids from `next` on are unused. -/
structure Tracks (imageSize : Image π α → ℕ) (L : Ledger ℕ π α) (A : Account π α)
    (s : Storage ℕ π α) (cur : Option ℕ) (next : ℕ) : Prop where
  consistent : Consistent imageSize L s
  settled : L.settled = A.committed
  working : ∀ p u d, L.working p = some (u, d) ↔ cur = some u ∧ A.opened.bind (· p) = some d
  opened : A.opened.isSome = cur.isSome
  running : ∀ t, s.phase t = .running ↔ cur = some t
  unrolled : ∀ t, s.phase t ≠ .rolledBack
  unflushed : ∀ t, s.phase t ≠ .flushed
  fresh : ∀ t, next ≤ t → s.phase t = .idle

namespace Tracks

variable {imageSize : Image π α → ℕ} {blank : α} {L : Ledger ℕ π α} {A : Account π α}
  {s s' : Storage ℕ π α} {cur : Option ℕ} {t next : ℕ}

lemma init (pointer : ℤ) (log : List (LogRecord ℕ π α)) (blank : α) (disk : π → Option α) :
    Tracks imageSize (Ledger.ofRun blank disk []) ⟨disk, none⟩ (.init (openLog pointer log) disk)
      none 0 where
  consistent := consistent_init pointer log blank disk
  settled := rfl
  working p u d := by simp [Ledger.ofRun]
  opened := rfl
  running t := by simp [Storage.init]
  unrolled t := by simp [Storage.init]
  unflushed t := by simp [Storage.init]
  fresh t _ := rfl

lemma opened_eq_none (h : Tracks imageSize L A s none next) : A.opened = none := by
  have hopened := h.opened
  simpa using hopened

lemma lt (h : Tracks imageSize L A s (some t) next) : t < next := by
  by_contra hge
  have hidle := h.fresh t (by omega)
  simp [(h.running t).mpr rfl] at hidle

lemma contents_of_working (h : Consistent imageSize L s) {p : π} {d : α}
    (hw : L.working p = some (u, d)) (hrun : s.phase u = .running) : s.contents p = some d := by
  cases h.page p with
  | rest hnone => simp [hnone] at hw
  | edited v d' b hw' _ _ _ hedit =>
    obtain ⟨rfl, rfl⟩ := Prod.mk.inj (some.inj (hw'.symm.trans hw))
    cases hedit with
    | unlogged _ _ hpool => exact contents_of_lookup hpool
    | logged _ _ hdata => exact hdata
  | undone v d' b hw' _ _ hrolled =>
    obtain ⟨rfl, rfl⟩ := Prod.mk.inj (some.inj (hw'.symm.trans hw))
    simp [hrolled] at hrun

lemma contents (h : Tracks imageSize L A s cur next) (p : π) : s.contents p = A.view p := by
  cases hw : L.working p with
  | some w =>
    obtain ⟨u, d⟩ := w
    obtain ⟨hcur, hopen⟩ := (h.working p u d).mp hw
    rw [contents_of_working h.consistent hw ((h.running u).mpr hcur), Account.view, hopen,
      some_or]
  | none =>
    rw [contents_eq_settled h.consistent hw, h.settled, Account.view]
    cases hopen : A.opened.bind (· p) with
    | none => rw [none_or]
    | some d =>
      have hsome : A.opened.isSome := by
        cases hA : A.opened with
        | none => simp [hA] at hopen
        | some w => rfl
      obtain ⟨u, hu⟩ := isSome_iff_exists.mp (h.opened ▸ hsome)
      simp [(h.working p u d).mpr ⟨hu, hopen⟩] at hw

lemma unlocked (h : Tracks imageSize L A s none next) (t : ℕ) (p : π) :
    s.locks.holdsLock t p = false := by
  by_contra hne
  obtain ⟨x, hl⟩ := LockManager.holdsLock_iff.mp (Bool.not_eq_false _ ▸ hne)
  rcases h.consistent.holders t p x hl with hrun | hrolled
  · simpa using (h.running t).mp hrun
  · exact h.unrolled t hrolled

/-! ### Sections of a data statement -/

lemma step {B : Account π α} {e : StorageEvent ℕ π α} (h : Tracks imageSize L A s cur next)
    (hstep : s.step (size imageSize) blank e = some s') (hmoves : e.moves = none)
    (hopened : B.opened.isSome = A.opened.isSome)
    (hsettled : (L.apply blank e).settled = B.committed)
    (hworking : ∀ p u d, (L.apply blank e).working p = some (u, d) ↔
      cur = some u ∧ B.opened.bind (· p) = some d) :
    Tracks imageSize (L.apply blank e) B s' cur next := by
  have hdoes := does_of_step hstep
  have hphase : ∀ t, s'.phase t = s.phase t := by
    intro t
    obtain heq | ⟨a, b, hab, -⟩ := phase_of_does hdoes t
    · exact heq
    · simp [hmoves] at hab
  have hlate : ∀ p, e = .flush p → NoLateFlush s p := fun _ _ _ u _ _ => h.unrolled u
  refine ⟨consistent_step h.consistent blank hlate hdoes, hsettled, hworking,
    hopened.trans h.opened, fun t => ?_, fun t => ?_, fun t => ?_, fun t ht => ?_⟩
  · rw [hphase, h.running]
  · rw [hphase]
    exact h.unrolled t
  · rw [hphase]
    exact h.unflushed t
  · rw [hphase, h.fresh t ht]

lemma act (h : Tracks imageSize L A s (some t) next) {a : StorageAct π α}
    (hstep : s.step (size imageSize) blank (a.event t) = some s') :
    Tracks imageSize (L.apply blank (a.event t)) (A.act blank a) s' (some t) next := by
  obtain ⟨w, hw⟩ := isSome_iff_exists.mp (h.opened.trans rfl)
  cases a with
  | lock p x =>
    refine h.step hstep rfl rfl ((lock_settled x).trans h.settled) fun q u d => ?_
    exact (iff_of_eq (congrArg (· q = some (u, d)) (lock_working x))).trans (h.working q u d)
  | release p => exact h.step hstep rfl rfl h.settled h.working
  | fetch p => exact h.step hstep rfl rfl h.settled h.working
  | evict p => exact h.step hstep rfl rfl h.settled h.working
  | append p =>
    refine h.step hstep rfl rfl ?_ h.working
    show Function.update L.settled p (some blank) = Function.update A.committed p (some blank)
    rw [h.settled]
  | edit p data =>
    refine h.step hstep rfl (by simp [Account.act]) h.settled fun q u d => ?_
    show Function.update L.working p (some (t, data)) q = some (u, d) ↔ _
    by_cases hqp : q = p
    · subst hqp
      simp [Account.act, hw]
    · simpa [Account.act, hw, hqp] using h.working q u d

lemma acts (h : Tracks imageSize L A s (some t) next) {acts : List (StorageAct π α)}
    (hrun : execAll (Storage.step (size imageSize) blank) s (acts.map (·.event t)) =
      some s') :
    Tracks imageSize ((acts.map (·.event t)).foldl (Ledger.apply blank) L)
      (acts.foldl (Account.act blank) A) s' (some t) next := by
  induction acts generalizing L A s with
  | nil =>
    obtain rfl := some.inj hrun
    exact h
  | cons a acts ih =>
    rw [map_cons, execAll, foldlM_cons] at hrun
    obtain ⟨mid, hmid, hrest⟩ := bind_eq_some_iff.mp hrun
    exact ih (h.act hmid) hrest

/-! ### Begin, commit and abort -/

lemma begin (h : Tracks imageSize L A s none next)
    (hstep : s.step (size imageSize) blank (.start next) = some s') :
    Tracks imageSize (L.apply blank (.start next)) A.begin s' (some next) (next + 1) := by
  have hdoes := does_of_step hstep
  have hconsistent := consistent_step h.consistent blank (by simp) hdoes
  have hnone : ∀ p, L.working p = none := by
    intro p
    cases hw : L.working p with
    | none => rfl
    | some w => cases ((h.working p w.1 w.2).mp hw).1
  cases hdoes with
  | start _ hidle =>
    refine ⟨hconsistent, h.settled, fun p u d => ?_, rfl, fun t => ?_, fun t => ?_, fun t => ?_,
      fun t ht => ?_⟩
    · show L.working p = some (u, d) ↔ _
      simp [hnone, Account.begin]
    all_goals by_cases htn : t = next
    · simp [htn]
    · have hnot : s.phase t ≠ .running := fun hrun => by simpa using (h.running t).mp hrun
      simp [Storage.moved, htn, hnot, Ne.symm htn]
    · simp [htn]
    · simpa [Storage.moved, htn] using h.unrolled t
    · simp [htn]
    · simpa [Storage.moved, htn] using h.unflushed t
    · omega
    · simpa [Storage.moved, htn] using h.fresh t (by omega)

lemma ended (h : Tracks imageSize L A s (some t) next) (x : Phase)
    (hx : x = .committed ∨ x = .aborted) :
    (∀ u, Function.update s.phase t x u = .running ↔ none = some u) ∧
      (∀ u, Function.update s.phase t x u ≠ .rolledBack) ∧
      (∀ u, Function.update s.phase t x u ≠ .flushed) ∧
      ∀ u, next ≤ u → Function.update s.phase t x u = .idle := by
  have hlt := h.lt
  have hrun : x ≠ .running := by rintro rfl; simp at hx
  have hrolled : x ≠ .rolledBack := by rintro rfl; simp at hx
  have hflushed : x ≠ .flushed := by rintro rfl; simp at hx
  refine ⟨fun u => ?_, fun u => ?_, fun u => ?_, fun u hu => ?_⟩
  all_goals by_cases hut : u = t
  · simpa [hut] using hrun
  · simpa [hut, h.running u] using Ne.symm hut
  · simpa [hut] using hrolled
  · simpa [hut] using h.unrolled u
  · simpa [hut] using hflushed
  · simpa [hut] using h.unflushed u
  · omega
  · simpa [hut] using h.fresh u hu

lemma without_working (h : Tracks imageSize L A s (some t) next) (p : π) :
    (L.without t).working p = none := by
  cases hw : (L.without t).working p with
  | none => rfl
  | some w =>
    obtain ⟨hut, hold⟩ := Ledger.without_working.mp hw
    exact absurd (some.inj ((h.working p w.1 w.2).mp hold).1).symm hut

lemma flushes (h : Tracks imageSize L A s cur next) {pages : List π}
    (hrun : execAll (Storage.step (size imageSize) blank) s (pages.map .flush) = some s') :
    Tracks imageSize ((pages.map .flush).foldl (Ledger.apply blank) L) A s' cur next := by
  induction pages generalizing s with
  | nil =>
    obtain rfl := some.inj hrun
    exact h
  | cons p pages ih =>
    rw [map_cons, execAll, foldlM_cons] at hrun
    obtain ⟨mid, hmid, hrest⟩ := bind_eq_some_iff.mp hrun
    exact ih (h.step hmid rfl rfl h.settled h.working) hrest

lemma complete (h : Tracks imageSize L A s (some t) next)
    (hrun : execAll (Storage.step (size imageSize) blank) s [.complete t, .logCommit t] =
      some s') :
    Tracks imageSize ((L.apply blank (.complete t)).apply blank (.logCommit t)) A.commit s' none
      next := by
  obtain ⟨mid, hmid, hlog⟩ := bind_eq_some_iff.mp hrun
  have hdoes := does_of_step hmid
  have hconsistent := consistent_step h.consistent blank (by simp) hdoes
  have hdoes' := does_of_step
    (show mid.step (size imageSize) blank (.logCommit t) = some s' by simpa using hlog)
  have hconsistent' := consistent_step hconsistent blank (by simp) hdoes'
  cases hdoes with
  | complete _ hrunning hclean =>
    cases hdoes' with
    | logCommit _ hflushed =>
      obtain ⟨hrun', hunrolled, hunflushed, hfresh⟩ := h.ended .committed (.inl rfl)
      have hphase : ((s.moved t .flushed).moved t .committed).phase =
          Function.update s.phase t .committed := by
        simp [Storage.moved]
      rw [← hphase] at hrun' hunrolled hunflushed hfresh
      refine ⟨hconsistent', ?_, fun p u d => ?_, rfl, hrun', hunrolled, hunflushed, hfresh⟩
      · funext p
        show (L.own t p).or (L.settled p) = (A.opened.bind (· p)).or (A.committed p)
        have hown : L.own t p = A.opened.bind (· p) := by
          ext d
          rw [own_eq_some, h.working]
          simp
        rw [hown, h.settled]
      · show (L.without t).working p = some (u, d) ↔ _
        simp [h.without_working p]

lemma commit (h : Tracks imageSize L A s (some t) next)
    (hrun : execAll (Storage.step (size imageSize) blank) s (commitEvents s t) = some s') :
    Tracks imageSize ((commitEvents s t).foldl (Ledger.apply blank) L) A.commit s' none next := by
  obtain ⟨mid, hflush, hrest⟩ := execAll_append_eq_some hrun
  rw [commitEvents, foldl_append]
  exact (h.flushes hflush).complete hrest

lemma abort (h : Tracks imageSize L A s (some t) next)
    (hrun : execAll (Storage.step (size imageSize) blank) s (abortEvents t) = some s') :
    Tracks imageSize ((abortEvents t).foldl (Ledger.apply blank) L) A.rollback s' none next := by
  obtain ⟨mid, hmid, hdiscard⟩ := bind_eq_some_iff.mp hrun
  have hdoes := does_of_step hmid
  have hconsistent := consistent_step h.consistent blank (by simp) hdoes
  have hdoes' := does_of_step
    (show mid.step (size imageSize) blank (.discard t) = some s' by simpa using hdiscard)
  have hconsistent' := consistent_step hconsistent blank (by simp) hdoes'
  cases hdoes with
  | logAbort _ hrunning =>
    cases hdoes' with
    | discard _ hrolled =>
      obtain ⟨hrun', hunrolled, hunflushed, hfresh⟩ := h.ended .aborted (.inr rfl)
      have hphase : ((s.rollBack (size imageSize) t).moved t .aborted).phase =
          Function.update s.phase t .aborted := by
        simp [Storage.rollBack, Storage.moved]
      rw [← hphase] at hrun' hunrolled hunflushed hfresh
      refine ⟨hconsistent', h.settled, fun p u d => ?_, rfl, hrun', hunrolled, hunflushed, hfresh⟩
      show (L.without t).working p = some (u, d) ↔ _
      simp [h.without_working p]

end Tracks

end Tracks

/-! ## Statements -/

section Statements

variable {π α : Type} [DecidableEq π] {imageSize : Image π α → ℕ} {blank : α} {pointer : ℤ}
  {log : List (LogRecord ℕ π α)} {disk : π → Option α} {A B : Account π α} {s s' : SqlSession π α}
  {cur cur' : Option ℕ} {t : ℕ}

omit [DecidableEq π] in
lemma Account.commit_of_none (h : A.opened = none) : A.commit = A := by
  obtain ⟨committed, opened⟩ := A
  obtain rfl : opened = none := h
  rfl

omit [DecidableEq π] in
lemma Account.rollback_of_none (h : A.opened = none) : A.rollback = A := by
  obtain ⟨committed, opened⟩ := A
  obtain rfl : opened = none := h
  rfl

namespace SqlSession

/-- The storage of the session is where its history leads, and holds what the account says. -/
structure Keeps (imageSize : Image π α → ℕ) (blank : α) (pointer : ℤ) (log : List (LogRecord ℕ π α))
    (disk : π → Option α) (A : Account π α) (cur : Option ℕ) (s : SqlSession π α) : Prop where
  tracks : Tracks imageSize (Ledger.ofRun blank disk s.history) A s.storage cur s.nextTid
  ran : execAll (Storage.step (LogRecord.size imageSize) blank) (.init (openLog pointer log) disk)
    s.history = some s.storage

/-- Between two statements the open transaction is the user's. -/
structure Follows (imageSize : Image π α → ℕ) (blank : α) (pointer : ℤ)
    (log : List (LogRecord ℕ π α)) (disk : π → Option α) (A : Account π α) (s : SqlSession π α) :
    Prop where
  keeps : s.Keeps imageSize blank pointer log disk A s.curtrans
  coherent : s.inUserTrans = s.curtrans.isSome

lemma Keeps.run (h : s.Keeps imageSize blank pointer log disk A cur)
    {evs : List (StorageEvent ℕ π α)}
    (hrun : s.run (size imageSize) blank evs = some s')
    (htracks : ∀ storage, execAll (Storage.step (size imageSize) blank) s.storage evs =
      some storage →
        Tracks imageSize (evs.foldl (Ledger.apply blank) (Ledger.ofRun blank disk s.history))
        B storage cur' s.nextTid) :
    s'.Keeps imageSize blank pointer log disk B cur' ∧
      s' = { s with storage := s'.storage, history := s'.history } := by
  obtain ⟨storage, hexec, rfl⟩ := map_eq_some_iff.mp hrun
  refine ⟨⟨?_, ?_⟩, rfl⟩
  · have hfinal := htracks storage hexec
    rwa [Ledger.ofRun, ← foldl_append] at hfinal
  · show execAll _ _ (s.history ++ evs) = some storage
    rw [execAll_append, h.ran]
    exact hexec

lemma Keeps.begin (h : s.Keeps imageSize blank pointer log disk A none)
    (hbegin : s.begin (size imageSize) blank = some s') :
    s'.Keeps imageSize blank pointer log disk A.begin (some s.nextTid) ∧
      s'.curtrans = some s.nextTid ∧ s'.inUserTrans = s.inUserTrans := by
  obtain ⟨storage, hexec, rfl⟩ := map_eq_some_iff.mp hbegin
  refine ⟨⟨?_, ?_⟩, rfl, rfl⟩
  · have hstep : s.storage.step (size imageSize) blank (.start s.nextTid) = some storage := by
      simpa [execAll] using hexec
    have hfinal := h.tracks.begin hstep
    rwa [← ofRun_concat] at hfinal
  · show execAll _ _ (s.history ++ [.start s.nextTid]) = some storage
    rw [execAll_append, h.ran]
    exact hexec

lemma Follows.transact (h : s.Follows imageSize blank pointer log disk A) {stmt : TransactStmt}
    {out : Bytes}
    (hstep : s.handleTransactStatement (size imageSize) blank stmt =
      some (out, thrown, s')) :
    s'.Follows imageSize blank pointer log disk (A.transact stmt) := by
  have hkeeps := h.keeps
  cases stmt with
  | commit =>
    unfold handleTransactStatement at hstep
    cases hcur : s.curtrans with
    | none =>
      rw [hcur] at hkeeps
      obtain ⟨-, -, rfl⟩ := by simpa [hcur] using hstep
      rw [Account.transact, Account.commit_of_none hkeeps.tracks.opened_eq_none]
      exact h
    | some t =>
      rw [hcur] at hkeeps
      simp only [hcur, map_eq_some_iff, Prod.mk.injEq] at hstep
      obtain ⟨s₁, hrun, -, -, rfl⟩ := hstep
      obtain ⟨hkeeps', -⟩ := hkeeps.run hrun fun _ hexec => hkeeps.tracks.commit hexec
      exact ⟨⟨hkeeps'.tracks, hkeeps'.ran⟩, rfl⟩
  | rollback =>
    unfold handleTransactStatement at hstep
    cases hcur : s.curtrans with
    | none =>
      rw [hcur] at hkeeps
      obtain ⟨-, -, rfl⟩ := by simpa [hcur] using hstep
      rw [Account.transact, Account.rollback_of_none hkeeps.tracks.opened_eq_none]
      exact h
    | some t =>
      rw [hcur] at hkeeps
      simp only [hcur, map_eq_some_iff, Prod.mk.injEq] at hstep
      obtain ⟨s₁, hrun, -, -, rfl⟩ := hstep
      obtain ⟨hkeeps', -⟩ := hkeeps.run hrun fun _ hexec => hkeeps.tracks.abort hexec
      exact ⟨⟨hkeeps'.tracks, hkeeps'.ran⟩, rfl⟩
  | setTransaction =>
    unfold handleTransactStatement at hstep
    cases hcur : s.curtrans with
    | none =>
      rw [hcur] at hkeeps
      simp only [hcur, isSome_none, Bool.false_eq_true, if_false, map_eq_some_iff,
        Prod.mk.injEq] at hstep
      obtain ⟨s₁, hbegin, -, -, rfl⟩ := hstep
      obtain ⟨hkeeps', hcur', -⟩ := hkeeps.begin hbegin
      rw [Account.transact, hkeeps.tracks.opened_eq_none]
      exact ⟨⟨hcur'.symm ▸ hkeeps'.tracks, hkeeps'.ran⟩, by simp [hcur']⟩
    | some t =>
      have hopened := h.keeps.tracks.opened
      obtain ⟨-, -, rfl⟩ := by simpa [hcur] using hstep
      rw [Account.transact, hopened, hcur]
      exact h
  | other =>
    obtain ⟨-, -, rfl⟩ := by simpa [handleTransactStatement] using hstep
    exact h

lemma Keeps.runData {e : Execution π α}
    (h : s.Keeps imageSize blank pointer log disk A (some t)) (hcur : s.curtrans = some t)
    (hstep : s.runData (size imageSize) blank t e = some (console, thrown, s')) :
    s'.Follows imageSize blank pointer log disk
      (if e.failure.isSome then (e.acts.foldl (Account.act blank) A).rollback
        else if s.inUserTrans then e.acts.foldl (Account.act blank) A
        else (e.acts.foldl (Account.act blank) A).commit) := by
  unfold SqlSession.runData at hstep
  obtain ⟨s₁, hacts, hstep⟩ := bind_eq_some_iff.mp hstep
  obtain ⟨hkeeps, heq₁⟩ := h.run hacts fun _ hexec => h.tracks.acts hexec
  have hcur₁ : s₁.curtrans = some t := by rw [heq₁]; exact hcur
  have huser₁ : s₁.inUserTrans = s.inUserTrans := by rw [heq₁]
  cases hfail : e.failure with
  | some f =>
    rw [hfail] at hstep
    obtain ⟨⟨out, s₂⟩, hend, hstep⟩ := bind_eq_some_iff.mp hstep
    obtain ⟨-, -, rfl⟩ := by simpa using hstep
    obtain ⟨s₃, habort, heq⟩ := map_eq_some_iff.mp hend
    obtain ⟨-, rfl⟩ := Prod.mk.inj heq
    obtain ⟨hkeeps', -⟩ := hkeeps.run habort fun _ hexec => hkeeps.tracks.abort hexec
    exact ⟨⟨hkeeps'.tracks, hkeeps'.ran⟩, rfl⟩
  | none =>
    rw [hfail] at hstep
    obtain ⟨⟨out, s₂⟩, hend, hstep⟩ := bind_eq_some_iff.mp hstep
    obtain ⟨-, -, rfl⟩ := by simpa using hstep
    unfold SqlSession.succeed at hend
    cases huser : s.inUserTrans with
    | true =>
      obtain ⟨-, rfl⟩ := by simpa [huser₁, huser] using hend
      exact ⟨hcur₁.symm ▸ hkeeps, by simp [hcur₁, huser₁, huser]⟩
    | false =>
      simp only [huser₁, huser, Bool.false_eq_true, if_false, map_eq_some_iff,
        Prod.mk.injEq] at hend
      obtain ⟨s₃, hcommit, -, rfl⟩ := hend
      obtain ⟨hkeeps', heq₃⟩ := hkeeps.run hcommit fun _ hexec => hkeeps.tracks.commit hexec
      refine ⟨⟨hkeeps'.tracks, hkeeps'.ran⟩, ?_⟩
      show s₃.inUserTrans = false
      rw [heq₃]
      exact huser₁.trans huser

lemma Follows.data (h : s.Follows imageSize blank pointer log disk A) {e : Execution π α}
    (hstep : s.handleData (size imageSize) blank e = some (console, thrown, s')) :
    s'.Follows imageSize blank pointer log disk (A.data blank e) := by
  have hkeeps := h.keeps
  have hcoherent := h.coherent
  have hopened := hkeeps.tracks.opened
  unfold handleData at hstep
  cases hcur : s.curtrans with
  | some t =>
    rw [hcur] at hkeeps hcoherent hopened
    simp only [hcoherent, hcur, isSome_some, if_true] at hstep
    have hfollows := hkeeps.runData hcur hstep
    simpa [Account.data, hopened, hcoherent] using hfollows
  | none =>
    rw [hcur] at hkeeps hcoherent hopened
    simp only [hcoherent, isSome_none, Bool.false_eq_true, if_false] at hstep
    obtain ⟨s₁, hbegin, hstep⟩ := bind_eq_some_iff.mp hstep
    obtain ⟨⟨console', thrown', s₂⟩, hdata, hstep⟩ := bind_eq_some_iff.mp hstep
    obtain ⟨-, -, rfl⟩ := by simpa using hstep
    obtain ⟨hkeeps', hcur', huser⟩ := hkeeps.begin hbegin
    have hfollows := hkeeps'.runData hcur' hdata
    simpa [Account.data, hopened, huser, hcoherent] using hfollows

omit [DecidableEq π] in
lemma caught_session (s : SqlSession π α) (f : Failure) :
    ∃ last, (s.caught f).2.2 = { s with lastStatementFailure := last } := by
  unfold caught
  dsimp only
  split
  all_goals exact ⟨_, rfl⟩

lemma processNextStatement_session {size : LogRecord ℕ π α → ℕ} {stmt : Statement π α}
    (h : s.processNextStatement size blank stmt = some (console, escaped, s')) :
    ∃ console' thrown s₁ last,
      attempt size blank { s with lastStatementFailure := none } stmt =
        some (console', thrown, s₁) ∧
      s' = { s₁ with lastStatementFailure := last } := by
  obtain ⟨⟨console', thrown, s₁⟩, hattempt, heq⟩ := map_eq_some_iff.mp h
  refine ⟨console', thrown, s₁, s'.lastStatementFailure, hattempt, ?_⟩
  cases thrown with
  | none =>
    obtain ⟨-, -, rfl⟩ := by simpa using heq
    rfl
  | some f =>
    obtain ⟨last, hlast⟩ := s₁.caught_session f
    have hs' : (s₁.caught f).2.2 = s' := congrArg (·.2.2) heq
    rw [← hs', hlast]

lemma Follows.statement (h : s.Follows imageSize blank pointer log disk A) {stmt : Statement π α}
    (hstep : s.processNextStatement (size imageSize) blank stmt =
      some (console, escaped, s')) :
    s'.Follows imageSize blank pointer log disk (A.statement blank stmt) := by
  obtain ⟨console', thrown, s₁, last, hattempt, rfl⟩ := processNextStatement_session hstep
  have h₀ : ({ s with lastStatementFailure := none } : SqlSession π α).Follows
      imageSize blank pointer log disk A := ⟨⟨h.keeps.tracks, h.keeps.ran⟩, h.coherent⟩
  suffices hs₁ : s₁.Follows imageSize blank pointer log disk (A.statement blank stmt) from
    ⟨⟨hs₁.keeps.tracks, hs₁.keeps.ran⟩, hs₁.coherent⟩
  cases stmt with
  | unreadable f =>
    obtain ⟨-, -, rfl⟩ := by simpa [attempt] using hattempt
    exact h₀
  | transact stmt =>
    obtain ⟨⟨out, thrown', s₂⟩, hhandle, heq⟩ := map_eq_some_iff.mp hattempt
    obtain ⟨-, -, rfl⟩ := by simpa using heq
    exact h₀.transact hhandle
  | data e => exact h₀.data hattempt

def runAll (size : LogRecord ℕ π α → ℕ) (blank : α) (s : SqlSession π α)
    (stmts : List (Statement π α)) : Option (SqlSession π α) :=
  execAll (fun s stmt => (s.processNextStatement size blank stmt).map (·.2.2)) s stmts

lemma follows_of_runAll {stmts : List (Statement π α)}
    (hrun : (init (.init (openLog pointer log) disk)).runAll (size imageSize) blank stmts =
      some s) : s.Follows imageSize blank pointer log disk (Account.after blank disk stmts) := by
  refine execAll_invariant (J := fun stmts (s : SqlSession π α) =>
    s.Follows imageSize blank pointer log disk (Account.after blank disk stmts))
    ⟨⟨Tracks.init pointer log blank disk, rfl⟩, rfl⟩ (fun stmts s stmt s' h _ hstep => ?_)
    (everyStep_true _ _) hrun
  obtain ⟨⟨console, escaped, s₁⟩, hnext, rfl⟩ := map_eq_some_iff.mp hstep
  have hfollows := h.statement hnext
  simpa [Account.after] using hfollows

end SqlSession

/-! ## What survives -/

lemma Ledger.settled_origin (disk : π → Option α) (evs : List (StorageEvent ℕ π α)) {p : π} {d : α}
    (h : (Ledger.ofRun blank disk evs).settled p = some d) :
    disk p = some d ∨ d = blank ∨ ∃ t, .edit t p d ∈ evs ∧ .complete t ∈ evs := by
  induction evs using List.reverseRecOn with
  | nil => exact .inl h
  | append_singleton evs e ih =>
    rw [ofRun_concat] at h
    have hlater : (Ledger.ofRun blank disk evs).settled p = some d →
        disk p = some d ∨ d = blank ∨ ∃ t, .edit t p d ∈ evs ++ [e] ∧ .complete t ∈ evs ++ [e] := by
      intro hold
      obtain hdisk | hblank | ⟨t, hedit, hcomplete⟩ := ih hold
      · exact .inl hdisk
      · exact .inr (.inl hblank)
      · exact .inr (.inr ⟨t, by simp [hedit], by simp [hcomplete]⟩)
    cases e with
    | lock u q x => exact hlater (by rwa [lock_settled] at h)
    | append u q =>
      by_cases hpq : p = q
      · subst hpq
        have hd : blank = d := by simpa [Ledger.apply] using h
        exact .inr (.inl hd.symm)
      · exact hlater ((update_of_ne hpq ..).symm.trans h)
    | complete u =>
      obtain hown | ⟨-, hsettled⟩ := or_eq_some_iff.mp h
      · have hedit := (edit_mem_of_ofRun disk evs).1 u p d (own_eq_some.mp hown)
        exact .inr (.inr ⟨u, by simp [hedit], by simp⟩)
      · exact hlater hsettled
    | _ => exact hlater h

lemma completed_run {size : LogRecord ℕ π α → ℕ} {storage₀ storage : Storage ℕ π α}
    {evs : List (StorageEvent ℕ π α)}
    (hrun : execAll (Storage.step size blank) storage₀ evs = some storage)
    (hmem : .complete t ∈ evs) : storage.phase t = .flushed ∨ storage.phase t = .committed := by
  refine execAll_invariant (J := fun evs (storage : Storage ℕ π α) =>
    .complete t ∈ evs → storage.phase t = .flushed ∨ storage.phase t = .committed)
    (fun h => by simp at h) (fun evs s e s' ih _ hstep hmem => ?_) (everyStep_true _ _) hrun hmem
  have hdoes := does_of_step hstep
  by_cases he : e = .complete t
  · subst he
    cases hdoes
    simp
  · have hold := ih (by simpa [Ne.symm he] using hmem)
    obtain heq | ⟨a, b, hmoves, ha, hb⟩ := phase_of_does hdoes t
    · rwa [heq]
    · rw [ha] at hold
      rw [hb]
      cases e <;> simp [StorageEvent.moves] at hmoves
      all_goals
        obtain ⟨-, rfl, rfl⟩ := hmoves
        simp at hold ⊢

lemma Account.committed_acts (acts : List (StorageAct π α)) (A : Account π α) (p : π) :
    (.append p ∈ acts → (acts.foldl (Account.act blank) A).committed p = some blank) ∧
      (.append p ∉ acts → (acts.foldl (Account.act blank) A).committed p = A.committed p) := by
  induction acts generalizing A with
  | nil => simp
  | cons a acts ih =>
    obtain ⟨hin, hout⟩ := ih (A.act blank a)
    rw [foldl_cons]
    refine ⟨fun hmem => ?_, fun hmem => ?_⟩
    · by_cases hlater : .append p ∈ acts
      · exact hin hlater
      · obtain rfl : a = .append p := by simpa [hlater, eq_comm] using hmem
        rw [hout hlater]
        exact update_self ..
    · obtain ⟨hne, hlater⟩ : .append p ≠ a ∧ .append p ∉ acts := by simpa using hmem
      rw [hout hlater]
      cases a with
      | append q => exact update_of_ne (fun hpq : p = q => hne (by rw [hpq])) ..
      | _ => rfl

lemma Account.data_of_failure (blank : α) {e : Execution π α} {f : Failure}
    (hfail : e.failure = some f) (A : Account π α) :
    (A.data blank e).opened = none ∧ ∀ p,
      (.append p ∈ e.acts → (A.data blank e).view p = some blank) ∧
        (.append p ∉ e.acts → (A.data blank e).view p = A.committed p) := by
  have hdata : A.data blank e =
      (e.acts.foldl (Account.act blank) (if A.opened.isSome then A else A.begin)).rollback := by
    simp [Account.data, hfail]
  have hcommitted : (if A.opened.isSome then A else A.begin).committed = A.committed := by
    split <;> rfl
  rw [hdata]
  refine ⟨rfl, fun p => ?_⟩
  rw [← hcommitted]
  exact Account.committed_acts e.acts _ p

/-- **Sessions keep their transactions.**  After every sequence of statements

* a user transaction is what is open;
* a reader finds what the account has: what committed transactions have left, under what the open
  transaction has written;
* without an open transaction nothing is locked, and a reader finds what is committed;
* what is found on a page was there from the start, is an added page, or was written by a
  transaction that has committed or is the open one;
* a data statement that fails ends the transaction it runs in, with all its writes and locks;
* a statement that cannot be read changes nothing. -/
theorem sessions_coherent {stmts : List (Statement π α)}
    (hrun : (SqlSession.init (.init (openLog pointer log) disk)).runAll (LogRecord.size imageSize)
      blank stmts = some s) :
    s.inUserTrans = s.curtrans.isSome ∧
    (∀ p, s.storage.contents p = (Account.after blank disk stmts).view p) ∧
    (s.curtrans = none → (∀ t p, s.storage.locks.holdsLock t p = false) ∧
      ∀ p, s.storage.contents p = (Account.after blank disk stmts).committed p) ∧
    (∀ p d, s.storage.contents p = some d → disk p = some d ∨ d = blank ∨
      ∃ t, .edit t p d ∈ s.history ∧ (s.storage.phase t = .committed ∨ s.curtrans = some t)) ∧
    (∀ e f console escaped s', e.failure = some f →
      s.processNextStatement (LogRecord.size imageSize) blank (.data e) =
        some (console, escaped, s') →
      s'.curtrans = none ∧ s'.inUserTrans = false ∧
        (∀ t p, s'.storage.locks.holdsLock t p = false) ∧
        ∀ p, (.append p ∈ e.acts → s'.storage.contents p = some blank) ∧
          (.append p ∉ e.acts →
            s'.storage.contents p = (Account.after blank disk stmts).committed p)) ∧
    ∀ f console escaped s',
      s.processNextStatement (LogRecord.size imageSize) blank (.unreadable f) =
        some (console, escaped, s') →
      s'.storage = s.storage ∧ s'.curtrans = s.curtrans ∧ s'.inUserTrans = s.inUserTrans := by
  have h := SqlSession.follows_of_runAll hrun
  have htracks := h.keeps.tracks
  refine ⟨h.coherent, htracks.contents, fun hnone => ?_, fun p d hd => ?_,
    fun e f console escaped s' hfail hstep => ?_, fun f console escaped s' hstep => ?_⟩
  · rw [hnone] at htracks
    refine ⟨htracks.unlocked, fun p => ?_⟩
    rw [htracks.contents, Account.view, htracks.opened_eq_none]
    rfl
  · rw [htracks.contents] at hd
    obtain hopen | ⟨-, hcommitted⟩ := or_eq_some_iff.mp hd
    · -- what the open transaction has written is in the ledger under its name
      obtain ⟨w, hw, -⟩ := bind_eq_some_iff.mp hopen
      obtain ⟨t, ht⟩ := isSome_iff_exists.mp (htracks.opened ▸ isSome_of_eq_some hw)
      have hedit := (edit_mem_of_ofRun disk s.history).1 t p d
        ((htracks.working p t d).mpr ⟨ht, hopen⟩)
      exact .inr (.inr ⟨t, hedit, .inr ht⟩)
    · rw [← htracks.settled] at hcommitted
      obtain hdisk | hblank | ⟨t, hedit, hcomplete⟩ := settled_origin disk s.history hcommitted
      · exact .inl hdisk
      · exact .inr (.inl hblank)
      · have hphase := (completed_run h.keeps.ran hcomplete).resolve_left (htracks.unflushed t)
        exact .inr (.inr ⟨t, hedit, .inl hphase⟩)
  · have h' := h.statement hstep
    have htracks' := h'.keeps.tracks
    obtain ⟨hopened, hview⟩ := Account.data_of_failure blank hfail (Account.after blank disk stmts)
    have hcur : s'.curtrans = none := by
      have hopened' := htracks'.opened
      rw [Account.statement, hopened] at hopened'
      simpa using hopened'
    refine ⟨hcur, by rw [h'.coherent, hcur]; rfl, ?_, fun p => ?_⟩
    · rw [hcur] at htracks'
      exact htracks'.unlocked
    · rw [htracks'.contents]
      exact hview p
  · obtain ⟨console', thrown, s₁, last, hattempt, rfl⟩ :=
      SqlSession.processNextStatement_session hstep
    obtain ⟨-, -, rfl⟩ := by simpa [SqlSession.attempt] using hattempt
    exact ⟨rfl, rfl, rfl⟩

end Statements

/-! ## A session -/

def sessionOnSeven : SqlSession ℕ ℕ :=
  .init (.init (openLog (-1) []) fun p => if p = 0 then some 7 else none)

/-- A user's transaction that commits 5, with an unreadable text in it, and a statement that fails
after writing 9 and adding a page. -/
def commitsFive : List (Statement ℕ ℕ) :=
  [.transact .setTransaction,
    .data ⟨[.lock 0 true, .edit 0 5], ⟨[], []⟩, none⟩,
    .unreadable ⟨.zqlParse, none⟩,
    .transact .commit,
    .data ⟨[.lock 0 true, .edit 0 9, .append 1], ⟨[], []⟩, some ⟨.transactionAborted, none⟩⟩]

theorem commitsFive_coherent :
    ∃ s, sessionOnSeven.runAll (LogRecord.size fun _ => 10) 0 commitsFive = some s ∧
      s.inUserTrans = s.curtrans.isSome ∧ s.storage.contents 0 = some 5 ∧
      s.storage.contents 1 = some 0 := by
  obtain ⟨s, hrun⟩ :
      ∃ s, sessionOnSeven.runAll (LogRecord.size fun _ => 10) 0 commitsFive = some s :=
    isSome_iff_exists.mp (by decide)
  obtain ⟨hcoherent, hcontents, -⟩ := sessions_coherent hrun
  refine ⟨s, hrun, hcoherent, ?_, ?_⟩
  · rw [hcontents]
    decide
  · rw [hcontents]
    decide

end BallotBox.SimpleDb
