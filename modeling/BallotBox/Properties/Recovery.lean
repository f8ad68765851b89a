import BallotBox.Framework.Lists
import BallotBox.Construction.Journal

/-!
# Recovery

The committed content of the pages is what the updates of the winners leave (`committedContent`).
Recovery goes through the log once, and after every prefix the pages it updates hold the committed
content of it (`restorePages_settle`); so a recovery that was cut short does no harm
(`recover_restartable`).
-/

namespace BallotBox.SimpleDb

open Journal LogRecord List Option

variable {τ π α : Type} [DecidableEq τ] [DecidableEq π]
variable {disk initial : π → α} {p : π} {committed : τ → Bool} {log : List (LogRecord τ π α)}
  {e : LifeEvent π α} {evs : List (LifeEvent π α)} {log' : List (LogRecord ℕ π α)}
  {lives : List (List (LifeEvent π α))}

/-! ## The committed content -/

/-- The image that a redo writes. -/
def LogRecord.redo (committed : τ → Bool) : LogRecord τ π α → Option (Image π α)
  | .update t _ after => if committed t then some after else none
  | _ => none

/-- The content that the committed updates leave. -/
def committedContent (committed : τ → Bool) (initial : π → α) (log : List (LogRecord τ π α)) :
    π → α :=
  restorePages initial (log.filterMap (LogRecord.redo committed))

/-- Some record updates the page. -/
def Updated (log : List (LogRecord τ π α)) (p : π) : Prop :=
  ∃ t before after, LogRecord.update t before after ∈ log ∧ before.pid = p

/-- The updates of a page come transaction by transaction, each with what the transactions committed
so far have left as old image. -/
structure Orderly (initial : π → α) (log : List (LogRecord τ π α)) : Prop where
  onePage : ∀ t before after, .update t before after ∈ log → before.pid = after.pid
  apart : ∀ t u (b a b' a' b'' a'' : Image π α),
    [.update t b a, .update u b' a', .update t b'' a''].Sublist log →
      b.pid = b'.pid → b''.pid = b'.pid → u = t
  before : ∀ pre t before after post, log = pre ++ .update t before after :: post →
    before.data = committedContent (won pre) initial pre before.pid

/-- A transaction that never commits does not update a page that one with its commit record to come
has updated. -/
def Settled (log : List (LogRecord τ π α)) : Prop :=
  ∀ pre t before after post, log = pre ++ .update t before after :: post → won log t = false →
    ∀ u b a, .update u b a ∈ pre → b.pid = before.pid → won log u = true → won pre u = true

/-- A page has an image of some update, or none ever updated it. -/
def Scattered (initial : π → α) (log : List (LogRecord τ π α)) (disk : π → α) : Prop :=
  ∀ p, (∃ t before after, .update t before after ∈ log ∧
      (before = ⟨p, disk p⟩ ∨ after = ⟨p, disk p⟩)) ∨
    (¬ Updated log p ∧ disk p = initial p)

lemma restorePages_append (disk : π → α) (images images' : List (Image π α)) :
    restorePages disk (images ++ images') = restorePages (restorePages disk images) images' := by
  simp [restorePages]

lemma restorePages_of_notMem {images : List (Image π α)}
    (h : ∀ image ∈ images, image.pid ≠ p) : restorePages disk images p = disk p := by
  induction images generalizing disk with
  | nil => rfl
  | cons image images ih =>
    have hrest : restorePages (Function.update disk image.pid image.data) images p =
        Function.update disk image.pid image.data p :=
      ih fun i hi => h i (mem_cons_of_mem _ hi)
    have hne : p ≠ image.pid := (h image mem_cons_self).symm
    simpa [restorePages, hne] using hrest

omit [DecidableEq π] in
@[simp] lemma won_append (log log' : List (LogRecord τ π α)) (t : τ) :
    won (log ++ log') t = (won log t || won log' t) := by
  simp [won]

omit [DecidableEq τ] in
lemma restorePages_concat (disk : π → α) (image : LogRecord τ π α → Option (Image π α))
    (log : List (LogRecord τ π α)) (r : LogRecord τ π α) :
    restorePages disk ((log ++ [r]).filterMap image) =
      (image r).elim (restorePages disk (log.filterMap image)) fun i =>
        Function.update (restorePages disk (log.filterMap image)) i.pid i.data := by
  rw [filterMap_append, restorePages_append]
  cases h : image r <;> simp [h, restorePages]

omit [DecidableEq τ] in
lemma committedContent_concat (committed : τ → Bool) (initial : π → α)
    (log : List (LogRecord τ π α)) (r : LogRecord τ π α) :
    committedContent committed initial (log ++ [r]) =
      (r.redo committed).elim (committedContent committed initial log) fun i =>
        Function.update (committedContent committed initial log) i.pid i.data :=
  restorePages_concat initial (redo committed) log r

omit [DecidableEq τ] in
lemma committedContent_congr {committed' : τ → Bool}
    (h : ∀ t before after, .update t before after ∈ log → after.pid = p →
      committed t = committed' t) :
    committedContent committed initial log p = committedContent committed' initial log p := by
  induction log using List.reverseRecOn with
  | nil => rfl
  | append_singleton log r ih =>
    have ih := ih fun t b a hm => h t b a (mem_append_left _ hm)
    rw [committedContent_concat, committedContent_concat]
    cases r with
    | update t before after =>
      by_cases hp : after.pid = p
      · subst hp
        rw [redo, redo, h t before after (by simp) rfl]
        cases committed' t <;> simp [ih]
      · have hp' : p ≠ after.pid := Ne.symm hp
        cases hc : committed t <;> cases hc' : committed' t <;>
          simp [redo, hc, hc', hp', ih]
    | _ => exact ih

/-! ## One pass over the log -/

omit [DecidableEq τ] [DecidableEq π] in
lemma updated_concat_update {t : τ} {before after : Image π α} :
    Updated (log ++ [.update t before after]) p ↔ Updated log p ∨ before.pid = p := by
  constructor
  · rintro ⟨u, b, a, hm, rfl⟩
    rcases mem_append.mp hm with hm | hm
    · exact .inl ⟨u, b, a, hm, rfl⟩
    · obtain ⟨-, rfl, -⟩ : u = t ∧ b = before ∧ a = after := by simpa using hm
      exact .inr rfl
  · rintro (⟨u, b, a, hm, rfl⟩ | rfl)
    · exact ⟨u, b, a, mem_append_left _ hm, rfl⟩
    · exact ⟨t, before, after, by simp, rfl⟩

/-- The old image of a transaction that does not count is what the counted ones before it have left:
all that recovery needs. -/
structure Undoable (committed : τ → Bool) (initial : π → α) (log : List (LogRecord τ π α)) :
    Prop where
  onePage : ∀ t before after, .update t before after ∈ log → before.pid = after.pid
  before : ∀ pre t before after post, log = pre ++ .update t before after :: post →
    committed t = false → before.data = committedContent committed initial pre before.pid

omit [DecidableEq τ] in
lemma Undoable.of_concat {r : LogRecord τ π α} (h : Undoable committed initial (log ++ [r])) :
    Undoable committed initial log where
  onePage t before after hm := h.onePage t before after (mem_append_left _ hm)
  before pre t before after post heq :=
    h.before pre t before after (post ++ [r]) (by simp [heq])

omit [DecidableEq τ] in
lemma restorePages_settle (disk : π → α) (h : Undoable committed initial log) (p : π) :
    (Updated log p → restorePages disk (log.filterMap (settle committed)) p =
      committedContent committed initial log p) ∧
    (¬ Updated log p → restorePages disk (log.filterMap (settle committed)) p =
      disk p ∧ committedContent committed initial log p = initial p) := by
  induction log using List.reverseRecOn with
  | nil => simp [Updated, restorePages, committedContent]
  | append_singleton log r ih =>
    have ih := ih h.of_concat
    rw [restorePages_concat, committedContent_concat]
    cases r with
    | update t before after =>
      have hone : before.pid = after.pid := h.onePage t before after (by simp)
      rw [updated_concat_update]
      by_cases hp : before.pid = p
      · subst hp
        -- the page of this record: either image is the committed content from here on
        cases hc : committed t with
        | true => simp [settle, redo, hc, hone]
        | false =>
          have hundo := h.before log t before after [] (by simp) hc
          simp [settle, redo, hc, hundo]
      · have hp' : p ≠ before.pid := Ne.symm hp
        cases hc : committed t <;> simpa [settle, redo, hc, hp, hp', ← hone]
          using ih
    | _ => simpa [settle, redo, Updated] using ih

lemma recover_eq
    (h : Undoable (won log) initial log) (hdisk : ∀ p, ¬ Updated log p → disk p = initial p) :
    recover log disk = committedContent (won log) initial log := by
  funext p
  by_cases hp : Updated log p
  · exact (restorePages_settle disk h p).1 hp
  · obtain ⟨hkept, hinit⟩ := (restorePages_settle disk h p).2 hp
    rw [hinit, ← hdisk p hp]
    exact hkept

omit [DecidableEq π] in
lemma updated_of_mem_recoverImages
    (hone : ∀ t before after, .update t before after ∈ log → before.pid = after.pid)
    {image : Image π α} (h : image ∈ recoverImages log) : Updated log image.pid := by
  obtain ⟨r, hr, himage⟩ := mem_filterMap.mp h
  cases r with
  | update t before after =>
    refine ⟨t, before, after, hr, ?_⟩
    obtain rfl := some.inj himage
    split
    · exact hone t before after hr
    · rfl
  | _ => cases himage

/-! ## Restarting -/

/-- A recovery that stops after some writes. -/
def interruptedRecovery (log : List (LogRecord τ π α)) (disk : π → α) (writes : ℕ) : π → α :=
  restorePages disk ((recoverImages log).take writes)

lemma interruptedRecovery_kept
    (hone : ∀ t before after, .update t before after ∈ log → before.pid = after.pid)
    (hp : ¬ Updated log p) (disk : π → α) (cuts : List ℕ) :
    cuts.foldl (interruptedRecovery log) disk p = disk p := by
  induction cuts generalizing disk with
  | nil => rfl
  | cons writes cuts ih =>
    rw [foldl_cons, ih]
    refine restorePages_of_notMem fun image himage heq => hp ?_
    exact heq ▸ updated_of_mem_recoverImages hone (mem_of_mem_take himage)

lemma Orderly.undoable (h : Orderly initial log)
    (hsettled : Settled log) : Undoable (won log) initial log where
  onePage := h.onePage
  before pre t before after post heq hlost := by
    rw [h.before pre t before after post heq]
    refine committedContent_congr fun u b a hm hpid => ?_
    have hone := h.onePage u b a (by simp [heq, hm])
    cases hu : won log u with
    | true => exact hsettled pre t before after post heq hlost u b a hm (hone.trans hpid) hu
    | false =>
      rw [heq, won_append, Bool.or_eq_false_iff] at hu
      exact hu.1

/-- **Recovery computes the committed state and is restartable.**  In an orderly log in which no
loser wrote a page over a winner whose commit record was still to come, recovery leaves every page
with its committed content, from every disk a crash can leave and however often it was cut short
before. -/
theorem recover_restartable {initial disk : π → α} {log : List (LogRecord τ π α)}
    (hlog : Orderly initial log) (hsettled : Settled log) (hdisk : Scattered initial log disk)
    (cuts : List ℕ) :
    recover log (cuts.foldl (interruptedRecovery log) disk) =
      committedContent (won log) initial log := by
  refine recover_eq (hlog.undoable hsettled) fun p hp => ?_
  rw [interruptedRecovery_kept hlog.onePage hp]
  obtain ⟨t, b, a, hm, himage⟩ | ⟨-, hinit⟩ := hdisk p
  · refine absurd ⟨t, b, a, hm, ?_⟩ hp
    rcases himage with rfl | rfl
    · rfl
    · exact hlog.onePage t b _ hm
  · exact hinit

def loserAfterWinner : List (LogRecord ℕ ℕ ℕ) :=
  [.begin 0, .begin 1, .update 0 ⟨0, 0⟩ ⟨0, 1⟩, .commit 0, .update 1 ⟨0, 1⟩ ⟨0, 2⟩]

/-- The winner's commit record comes last; the loser's old image is from before the winner. -/
def loserBeforeCommit : List (LogRecord ℕ ℕ ℕ) :=
  [.begin 0, .begin 1, .update 0 ⟨0, 0⟩ ⟨0, 1⟩, .update 1 ⟨0, 0⟩ ⟨0, 2⟩, .commit 0]

omit [DecidableEq τ] [DecidableEq π] in
lemma apart_of_countP
    (h : log.countP (fun r => r matches .update ..) ≤ 2) (t u : τ) (b a b' a' b'' a'' : Image π α)
    (hsub : [.update t b a, .update u b' a', .update t b'' a''].Sublist log) : u = t := by
  have hthree := hsub.countP_le (p := fun r => r matches .update ..)
  simp at hthree
  omega

lemma orderly_of_getElem (htwo : log.countP (fun r => r matches .update ..) ≤ 2)
    (h : ∀ i t before after, log[i]? = some (.update t before after) → before.pid = after.pid ∧
      before.data = committedContent (won (log.take i)) initial (log.take i) before.pid) :
    Orderly initial log where
  onePage t before after hm := by
    obtain ⟨i, hi⟩ := mem_iff_getElem?.mp hm
    exact (h i t before after hi).1
  apart t u b a b' a' b'' a'' hsub _ _ := apart_of_countP htwo t u b a b' a' b'' a'' hsub
  before pre t before after post heq := by
    have hpre : log.take pre.length = pre := by simp [heq]
    have hi := (h pre.length t before after (by simp [heq])).2
    rwa [hpre] at hi

lemma orderly_loserAfterWinner : Orderly (fun _ => 0) loserAfterWinner := by
  refine orderly_of_getElem (by decide) fun i t before after hi => ?_
  match i, hi with
  | 2, hi | 4, hi =>
    obtain ⟨rfl, rfl, rfl⟩ := LogRecord.update.inj (some.inj hi)
    exact ⟨rfl, rfl⟩

lemma orderly_loserBeforeCommit : Orderly (fun _ => 0) loserBeforeCommit := by
  refine orderly_of_getElem (by decide) fun i t before after hi => ?_
  match i, hi with
  | 2, hi | 3, hi =>
    obtain ⟨rfl, rfl, rfl⟩ := LogRecord.update.inj (some.inj hi)
    exact ⟨rfl, rfl⟩
  | 4, hi => cases hi

def flushedDisk (p : ℕ) : ℕ := if p = 0 then 2 else 0

lemma scattered_flushedDisk {log : List (LogRecord ℕ ℕ ℕ)} (before : Image ℕ ℕ)
    (hlast : .update 1 before ⟨0, 2⟩ ∈ log)
    (hpages : ∀ t b a, .update t b a ∈ log → b.pid = 0) :
    Scattered (fun _ => 0) log flushedDisk := by
  intro p
  by_cases hp : p = 0
  · subst hp
    exact .inl ⟨1, before, ⟨0, 2⟩, hlast, .inr rfl⟩
  · refine .inr ⟨?_, if_neg hp⟩
    rintro ⟨t, b, a, hm, hpid⟩
    exact hp (hpid ▸ hpages t b a hm)

/-- Three recoveries cut short at different points, and then a whole one: page 0 is the winner's. -/
theorem loserAfterWinner_restartable :
    recover loserAfterWinner ([1, 0, 2].foldl (interruptedRecovery loserAfterWinner) flushedDisk) =
        committedContent (won loserAfterWinner) (fun _ => 0) loserAfterWinner ∧
      committedContent (won loserAfterWinner) (fun _ => 0) loserAfterWinner 0 = 1 := by
  refine ⟨recover_restartable orderly_loserAfterWinner ?_ ?_ [1, 0, 2], rfl⟩
  · intro pre t before after post heq hlost u b a hm _ hu
    have hi : loserAfterWinner[pre.length]? = some (.update t before after) := by simp [heq]
    have hpre : pre = loserAfterWinner.take pre.length := by simp [heq]
    rw [hpre] at hm ⊢
    generalize pre.length = i at hi hm ⊢
    match i, hi with
    | 2, hi =>
      obtain ⟨rfl, rfl, rfl⟩ := LogRecord.update.inj (some.inj hi)
      cases hlost
    | 4, hi =>
      obtain ⟨rfl, rfl, rfl⟩ : u = 0 ∧ b = ⟨0, 0⟩ ∧ a = ⟨0, 1⟩ := by
        simpa [loserAfterWinner] using hm
      rfl
  · refine scattered_flushedDisk ⟨0, 1⟩ (by decide) fun t b a hm => ?_
    obtain ⟨rfl, rfl, rfl⟩ | ⟨rfl, rfl, rfl⟩ : t = 0 ∧ b = ⟨0, 0⟩ ∧ a = ⟨0, 1⟩ ∨
        t = 1 ∧ b = ⟨0, 1⟩ ∧ a = ⟨0, 2⟩ := by simpa [loserAfterWinner] using hm
    · rfl
    · rfl

/-- The winner's update is lost: the loser's old image is written over it. -/
theorem loserBeforeCommit_undoes_winner : Orderly (fun _ => 0) loserBeforeCommit ∧
      Scattered (fun _ => 0) loserBeforeCommit flushedDisk ∧
      recover loserBeforeCommit flushedDisk 0 = 0 ∧
      committedContent (won loserBeforeCommit) (fun _ => 0) loserBeforeCommit 0 = 1 := by
  refine ⟨orderly_loserBeforeCommit, ?_, rfl, rfl⟩
  refine scattered_flushedDisk ⟨0, 0⟩ (by decide) fun t b a hm => ?_
  obtain ⟨rfl, rfl, rfl⟩ | ⟨rfl, rfl, rfl⟩ : t = 0 ∧ b = ⟨0, 0⟩ ∧ a = ⟨0, 1⟩ ∨
      t = 1 ∧ b = ⟨0, 0⟩ ∧ a = ⟨0, 2⟩ := by simpa [loserBeforeCommit] using hm
  · rfl
  · rfl

/-! ## The start of the runner -/

section Startup

variable {ι : Type} (size : LogRecord ℕ π α → ℕ)

lemma recover_of_no_update (h : ∀ t before after, .update t before after ∉ log) (disk : π → α) :
    recover log disk = disk := by
  have hnone : recoverImages log = [] := by
    rw [recoverImages, filterMap_eq_nil_iff]
    intro r hr
    cases r with
    | update t before after => exact absurd hr (h t before after)
    | _ => rfl
  rw [recover, hnone]
  rfl

omit [DecidableEq π] in
lemma computeStatistics_records (tables : List ι) (counter : ℕ) (j : Journal ℕ π α)
    (hfresh : ∀ t ∈ j.tidToFirstLogRecord, t < counter) :
    ∃ j', computeStatistics size tables counter j = some j' ∧
      ∀ t before after, .update t before after ∈ j'.records → .update t before after ∈ j.records ∧
        (tables = [] ∨ j.recoveryUndecided = false) := by
  induction tables generalizing counter j with
  | nil => exact ⟨j, rfl, fun _ _ _ hm => ⟨hm, .inl rfl⟩⟩
  | cons table tables ih =>
    have hnew : counter ∉ j.tidToFirstLogRecord := fun hm => (hfresh counter hm).ne rfl
    obtain ⟨begun, hbegun⟩ : ∃ begun, j.logXactionBegin size counter = some begun := by
      simp [logXactionBegin, hnew]
    obtain ⟨-, hbegun'⟩ := logXactionBegin_eq_some hbegun
    have hund : begun.recoveryUndecided = false := by simp [hbegun', append]
    obtain ⟨j', hrun, hrec⟩ := ih (counter + 1) (begun.logCommit counter) fun t ht => by
      obtain ⟨hne, rfl | ht⟩ : t ≠ counter ∧ (t = counter ∨ t ∈ j.tidToFirstLogRecord) := by
        simpa [logCommit, append, hbegun'] using ht
      · exact absurd rfl hne
      · exact Nat.lt_succ_of_lt (hfresh t ht)
    refine ⟨j', by simp [computeStatistics, hbegun, hrun], fun t before after hm => ?_⟩
    have hmid := (hrec t before after hm).1
    rw [logCommit, preAppend_of_decided _ hund, hbegun'] at hmid
    replace hmid : .update t before after ∈ j.preAppend.records := by
      simpa [append] using hmid
    rw [preAppend_records] at hmid
    cases h : j.recoveryUndecided <;> simp_all

lemma startup_disk {tables : List ι} {table : π → ι} {pointer : ℤ} {log : List (LogRecord ℕ π α)}
    (htables : ∀ t before after, .update t before after ∈ log → table before.pid ∈ tables)
    (disk : π → α) :
    ∃ j', startup size tables (openLog pointer log) disk = some (j', disk) := by
  obtain ⟨j', hrun, hrec⟩ :=
    computeStatistics_records size tables 0 (openLog pointer log) (by simp [openLog])
  refine ⟨j'.recovered, ?_⟩
  simp only [startup, hrun, map_some, some.injEq, Prod.mk.injEq, true_and]
  refine recover_of_no_update (fun t before after hm => ?_) disk
  obtain ⟨hold, rfl | hund⟩ := hrec t before after hm
  · exact absurd (htables t before after hold) not_mem_nil
  · exact absurd hund (by simp [openLog])

/-- **Startup recovery.**  The start of the runner leaves every page with its committed content
exactly if the crash has left it so: the statistics have emptied the log when `recover` reads it. -/
theorem startup_committed_iff (tables : List ι) (table : π → ι) (pointer : ℤ)
    (log : List (LogRecord ℕ π α))
    (htables : ∀ t before after, .update t before after ∈ log → table before.pid ∈ tables)
    (initial disk : π → α) :
    ∃ j' disk', startup size tables (openLog pointer log) disk = some (j', disk') ∧
      (disk' = committedContent (won log) initial log ↔
        disk = committedContent (won log) initial log) := by
  obtain ⟨j', hrun⟩ := startup_disk size htables disk
  exact ⟨j', disk, hrun, Iff.rfl⟩

def flushedLoser : List (LogRecord ℕ ℕ ℕ) := [.begin 0, .update 0 ⟨0, 0⟩ ⟨0, 2⟩]

theorem startup_flushedLoser_iff :
    ∃ j' disk', startup (fun _ => 20) [()] (openLog (-1) flushedLoser) flushedDisk =
        some (j', disk') ∧
      (disk' = committedContent (won flushedLoser) (fun _ => 0) flushedLoser ↔
        flushedDisk = committedContent (won flushedLoser) (fun _ => 0) flushedLoser) :=
  startup_committed_iff (fun _ => 20) [()] (fun _ => ()) (-1) flushedLoser (by simp) (fun _ => 0)
    flushedDisk

/-- With one table in the catalog, the flushed update stays. -/
theorem startup_keeps_flushedLoser :
    (startup (fun _ => 20) [()] (openLog (-1) flushedLoser) flushedDisk).map (fun r => r.2 0) =
        some 2 ∧
      committedContent (won flushedLoser) (fun _ => 0) flushedLoser 0 = 0 := by
  decide

end Startup

/-! ## Lifetimes -/

section Lifetimes

variable (size : LogRecord ℕ π α → ℕ)

omit [DecidableEq π]

/-- The transaction committed in its lifetime. -/
def committedIn (evs : List (LifeEvent π α)) (t : ℕ) : Bool :=
  evs.any fun e => match e with
    | .commit u => u = t
    | _ => false

/-- The image that an update leaves, given who has committed. -/
def LifeEvent.settle (committed : ℕ → Bool) : LifeEvent π α → Option (Image π α)
  | .write t before after => some (if committed t then after else before)
  | _ => none

/-- The images that judge each update by its own lifetime. -/
def ownImages (lives : List (List (LifeEvent π α))) : List (Image π α) :=
  lives.flatMap fun own => own.filterMap (LifeEvent.settle (committedIn own))

/-- No transaction that changed a page and did not commit shares its id with a committed one of
another lifetime. -/
def FreshIds (lives : List (List (LifeEvent π α))) : Prop :=
  ∀ own ∈ lives, ∀ other ∈ lives, ∀ t before after, .write t before after ∈ own →
    before ≠ after → committedIn other t = true → committedIn own t = true

/-- The record of an event. -/
def LifeEvent.record (counter : ℕ) : LifeEvent π α → LogRecord ℕ π α
  | .start => .begin counter
  | .write t before after => .update t before after
  | .commit t => .commit t
  | .abort t => .abort t

lemma step_record {p p' : Process π α} (h : p.step size e = some p')
    (hdecided : p.journal.recoveryUndecided = false) :
    p'.journal.recoveryUndecided = false ∧
      p'.journal.records = p.journal.records ++ [e.record p.counter] := by
  have hpre := p.journal.preAppend_of_decided hdecided
  cases e with
  | start =>
    obtain ⟨j, hj, rfl⟩ := map_eq_some_iff.mp h
    obtain ⟨-, rfl⟩ := logXactionBegin_eq_some hj
    simp [hpre, append, LifeEvent.record, hdecided]
  | write t before after =>
    obtain ⟨-, rfl⟩ := by simpa [Process.step] using h
    simp [logWrite, hpre, append, LifeEvent.record, hdecided]
  | commit t =>
    obtain ⟨-, rfl⟩ := by simpa [Process.step] using h
    simp [logCommit, hpre, append, LifeEvent.record, hdecided]
  | abort t =>
    obtain ⟨-, rfl⟩ := by simpa [Process.step] using h
    simp [logAbort, hpre, append, LifeEvent.record, hdecided]

/-- What a lifetime adds to the log, as recovery sees it. -/
structure Adds (evs : List (LifeEvent π α)) (log log' : List (LogRecord ℕ π α)) : Prop where
  won : ∀ t, won log' t = (won log t || committedIn evs t)
  images : ∀ committed, log'.filterMap (LogRecord.settle committed) =
    log.filterMap (LogRecord.settle committed) ++ evs.filterMap (LifeEvent.settle committed)

lemma Adds.record {log : List (LogRecord ℕ π α)}
    (h : Adds evs log log') (e : LifeEvent π α) (counter : ℕ) :
    Adds (evs ++ [e]) log (log' ++ [e.record counter]) where
  won t := by
    have hone : SimpleDb.won [e.record counter] t = committedIn [e] t := by cases e <;> rfl
    rw [won_append, h.won, hone, Bool.or_assoc]
    simp [committedIn]
  images committed := by
    have hone : [e.record counter].filterMap (settle committed) =
        [e].filterMap (LifeEvent.settle committed) := by cases e <;> rfl
    rw [filterMap_append, h.images, hone, filterMap_append, append_assoc]

lemma lifetime_adds {log : List (LogRecord ℕ π α)}
    (h : Process.lifetime size log evs = some log') : Adds evs log log' := by
  obtain ⟨p, hrun, rfl⟩ := map_eq_some_iff.mp h
  have hrun' := execAll_invariant (C := fun _ _ _ => True)
    (J := fun evs p => p.journal.recoveryUndecided = false ∧ Adds evs log p.journal.records)
    ⟨rfl, by simp [openLog, recovered, committedIn], by simp [openLog, recovered]⟩
    (fun evs p e p' ⟨hdecided, hadds⟩ _ hstep => by
      obtain ⟨hdecided', hrec⟩ := step_record size hstep hdecided
      exact ⟨hdecided', hrec ▸ hadds.record e p.counter⟩)
    (everyStep_true _ _) hrun
  exact hrun'.2

lemma lifetimes_log {log : List (LogRecord ℕ π α)} (h : Process.lifetimes size lives = some log) :
    (∀ t, won log t = lives.any fun own => committedIn own t) ∧
      ∀ committed, log.filterMap (settle committed) =
        lives.flatMap fun own => own.filterMap (LifeEvent.settle committed) := by
  refine execAll_invariant (C := fun _ _ _ => True)
    (J := fun lives log => (∀ t, won log t = lives.any fun own => committedIn own t) ∧
      ∀ committed, log.filterMap (settle committed) =
        lives.flatMap fun own => own.filterMap (LifeEvent.settle committed))
    ⟨by simp [won], by simp⟩ ?_ (everyStep_true _ _) h
  intro lives log own log' ⟨hwon, himages⟩ _ hlife
  have hadds := lifetime_adds size hlife
  exact ⟨fun t => by simp [hadds.won, hwon], fun committed => by simp [hadds.images, himages]⟩

/-- The events with their lifetimes. -/
def owned (lives : List (List (LifeEvent π α))) : List (List (LifeEvent π α) × LifeEvent π α) :=
  lives.flatMap fun own => own.map fun e => (own, e)

lemma flatMap_settle_eq (lives : List (List (LifeEvent π α)))
    (committed : List (LifeEvent π α) → ℕ → Bool) :
    (lives.flatMap fun own => own.filterMap (LifeEvent.settle (committed own))) =
      (owned lives).filterMap fun x => x.2.settle (committed x.1) := by
  simp only [owned, filterMap_flatMap, filterMap_map]
  rfl

lemma mem_owned {own : List (LifeEvent π α)} : (own, e) ∈ owned lives ↔ own ∈ lives ∧ e ∈ own := by
  simp only [owned, mem_flatMap, List.mem_map, Prod.mk.injEq]
  constructor
  · rintro ⟨_, hown, _, he, rfl, rfl⟩
    exact ⟨hown, he⟩
  · rintro ⟨hown, he⟩
    exact ⟨own, hown, e, he, rfl, rfl⟩

lemma recoverImages_eq_iff {log : List (LogRecord ℕ π α)}
    (h : Process.lifetimes size lives = some log) :
    recoverImages log = ownImages lives ↔ FreshIds lives := by
  obtain ⟨hwon, himages⟩ := lifetimes_log size h
  rw [recoverImages, himages, ownImages, flatMap_settle_eq lives fun _ => won log,
    flatMap_settle_eq lives committedIn,
    filterMap_eq_filterMap_iff (by rintro ⟨own, _ | _ | _ | _⟩ <;> rfl)]
  constructor
  · intro heq own hown other hother t before after hwrite hne hother'
    have hw : won log t = true := by
      rw [hwon, List.any_eq_true]
      exact ⟨other, hother, hother'⟩
    have hone := heq (own, .write t before after) (mem_owned.mpr ⟨hown, hwrite⟩)
    by_contra hlost
    simp [LifeEvent.settle, hw, hlost, hne.symm] at hone
  · rintro hfresh ⟨own, e⟩ hmem
    obtain ⟨hown, he⟩ := mem_owned.mp hmem
    cases e with
    | write t before after =>
      by_cases hne : before = after
      · simp [LifeEvent.settle, hne]
      · have hiff : won log t = committedIn own t := by
          rw [hwon, Bool.eq_iff_iff, List.any_eq_true]
          constructor
          · rintro ⟨other, hother, hc⟩
            exact hfresh own hown other hother t before after he hne hc
          · exact fun hc => ⟨own, hown, hc⟩
        simp only [LifeEvent.settle, hiff]
    | _ => rfl

/-- **Recovery over repeated crashes.**  Each recovery of a sequence of lifetimes, up to the one
after the last crash, judges every update by the commit records of its own lifetime exactly if no
lost transaction that changed a page has the id of one that committed in another lifetime. -/
theorem lifetimes_keep_iff (lives : List (List (LifeEvent π α))) (log : List (LogRecord ℕ π α))
    (hrun : Process.lifetimes size lives = some log) :
    (∀ n found, Process.lifetimes size (lives.take n) = some found →
      recoverImages found = ownImages (lives.take n)) ↔ FreshIds lives := by
  constructor
  · intro h
    have hall := h lives.length log (by rwa [take_length])
    rw [take_length] at hall
    exact (recoverImages_eq_iff size hrun).mp hall
  · intro hfresh n found hfound
    refine (recoverImages_eq_iff size hfound).mpr fun own hown other hother => ?_
    exact hfresh own (mem_of_mem_take hown) other (mem_of_mem_take hother)

def reusedId : List (List (LifeEvent ℕ ℕ)) :=
  [[.start, .write 0 ⟨0, 0⟩ ⟨0, 1⟩, .commit 0], [.start, .write 0 ⟨0, 1⟩ ⟨0, 2⟩]]

theorem reusedId_keep_iff :
    (∀ n found, Process.lifetimes (fun _ => 20) (reusedId.take n) = some found →
      recoverImages found = ownImages (reusedId.take n)) ↔ FreshIds reusedId :=
  lifetimes_keep_iff (fun _ => 20) reusedId
    [.begin 0, .update 0 ⟨0, 0⟩ ⟨0, 1⟩, .commit 0, .begin 0, .update 0 ⟨0, 1⟩ ⟨0, 2⟩] (by decide)

/-- Both have the id 0, and the second recovery keeps the update of the lost one. -/
theorem reusedId_keeps_lost :
    (Process.lifetimes (fun _ => 20) reusedId).map recoverImages = some [⟨0, 1⟩, ⟨0, 2⟩] ∧
      ownImages reusedId = [⟨0, 1⟩, ⟨0, 1⟩] := by
  decide

end Lifetimes

end BallotBox.SimpleDb
