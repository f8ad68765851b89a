import BallotBox.Construction.Journal
import BallotBox.Construction.LockManager

/-!
# Transactions over the buffer pool

`simpledb/storage/BufferPool.java` with the heap files, the lock manager and the log around it,
called in the order of `simpledb/transaction/Transaction.java`.  What is on a page is a value of
type `α`.
-/

namespace BallotBox.SimpleDb

/-! ## State -/

/-- A page object in the pool; `dirty` is the transaction that changed it. -/
structure CachedPage (τ α : Type) where
  data : α
  oldData : α
  dirty : Option τ
deriving DecidableEq

/-- A page object made from what the disk has. -/
def CachedPage.read {τ α : Type} (data : α) : CachedPage τ α := ⟨data, data, none⟩

def CachedPage.setBeforeImage {τ α : Type} (c : CachedPage τ α) : CachedPage τ α :=
  { c with oldData := c.data }

/-- How far a transaction is. -/
inductive Phase
  | idle | running | flushed | committed | rolledBack | aborted
deriving DecidableEq

/-- The state that the threads share. -/
structure Storage (τ π α : Type) where
  journal : Journal τ π α
  disk : π → Option α
  pool : AList fun _ : π => CachedPage τ α
  locks : LockManager τ π
  phase : τ → Phase

inductive StorageEvent (τ π α : Type)
  | start (t : τ)
  | lock (t : τ) (p : π) (exclusive : Bool)
  | release (t : τ) (p : π)
  | fetch (t : τ) (p : π)
  | edit (t : τ) (p : π) (data : α)
  | append (t : τ) (p : π)
  | evict (p : π)
  | flush (p : π)
  | checkpoint
  | truncate
  | complete (t : τ)
  | logCommit (t : τ)
  | logAbort (t : τ)
  | discard (t : τ)
deriving DecidableEq

variable {τ π α : Type} [DecidableEq τ] [DecidableEq π]

/-! ## The pool -/

/-- `discardPage`, for several pages. -/
def discardPages (pool : AList fun _ : π => CachedPage τ α) (pages : List π) :
    AList fun _ : π => CachedPage τ α :=
  pages.foldl (fun pool p => pool.erase p) pool

/-- `setBeforeImage`, for a page that may be in the pool. -/
def setBeforeImageOf (pool : AList fun _ : π => CachedPage τ α) (p : π) :
    AList fun _ : π => CachedPage τ α :=
  match pool.lookup p with
  | some c => pool.insert p c.setBeforeImage
  | none => pool

/-- The same for several pages. -/
def setBeforeImages (pool : AList fun _ : π => CachedPage τ α) (pages : List π) :
    AList fun _ : π => CachedPage τ α :=
  pages.foldl setBeforeImageOf pool

namespace Storage

variable (size : LogRecord τ π α → ℕ) (blank : α) (s : Storage τ π α)

/-- A new process over a log and the files. -/
def init (j : Journal τ π α) (disk : π → Option α) : Storage τ π α where
  journal := j
  disk := disk
  pool := ∅
  locks := .empty
  phase := fun _ => .idle

/-- The page object that `getPage` returns: the one in the pool, or a new one. -/
def page (p : π) : Option (CachedPage τ α) :=
  match s.pool.lookup p with
  | some c => some c
  | none => (s.disk p).map .read

/-- The transaction holds the page exclusively. -/
def writes (t : τ) (p : π) : Bool :=
  match s.locks.locks p with
  | none => false
  | some l => t ∈ l.holders && l.exclusive

/-- Those pages in the pool that the transaction holds. -/
def pagesHeldBy (t : τ) : List π := s.pool.keys.filter (s.locks.holdsLock t)

/-- No page in the pool is dirty, by anybody in question. -/
def clean (who : τ → Bool) : Bool :=
  s.pool.entries.all fun e => !(e.2.dirty.any who)

/-- Moves a transaction on. -/
def moved (t : τ) (phase : Phase) : Storage τ π α :=
  { s with phase := Function.update s.phase t phase }

omit [DecidableEq π] in
@[simp] lemma moved_phase_self (t : τ) (phase : Phase) : (s.moved t phase).phase t = phase := by
  simp [moved]

omit [DecidableEq π] in
lemma moved_phase_of_ne {t u : τ} (h : u ≠ t) (phase : Phase) :
    (s.moved t phase).phase u = s.phase u := by
  simp [moved, h]

def flushPage (p : π) : Storage τ π α :=
  match s.pool.lookup p with
  | none => s
  | some c =>
    match c.dirty with
    | none => s
    | some t =>
      { s with
        journal := s.journal.logWrite t ⟨p, c.oldData⟩ ⟨p, c.data⟩
        disk := Function.update s.disk p (some c.data)
        pool := s.pool.insert p { c with dirty := none } }

/-- `logAbort`, with its rollback. -/
def rollBack (t : τ) : Storage τ π α :=
  let images := s.journal.rollback size t
  { s.moved t .rolledBack with
    journal := s.journal.logAbort t
    disk := fun p => (images p).or (s.disk p)
    pool := discardPages s.pool (s.pool.keys.filter fun p => (images p).isSome) }

/-! ## Steps -/

/-- One section, if it can run now.  `Transaction.start` goes on if the log refuses its begin
record. -/
def step : StorageEvent τ π α → Option (Storage τ π α)
  | .start t =>
    if s.phase t = .idle then
      some { s.moved t .running with
        journal := (s.journal.logXactionBegin size t).getD s.journal }
    else none
  | .lock t p exclusive =>
    -- only pages of the file are locked for writing
    if s.phase t = .running ∧ (exclusive = true → (s.disk p).isSome) ∧
        (s.locks.tryAcquire t p exclusive).2 = true then
      some { s with locks := (s.locks.tryAcquire t p exclusive).1 }
    else none
  | .release t p =>
    if s.phase t = .running ∧ s.locks.holdsLock t p = true ∧ s.writes t p = false then
      some { s with locks := s.locks.release t p }
    else none
  | .fetch t p =>
    if s.phase t = .running ∧ s.locks.holdsLock t p = true then
      (s.page p).map fun c => { s with pool := s.pool.insert p c }
    else none
  | .edit t p data =>
    if s.phase t = .running ∧ s.writes t p = true then
      (s.page p).map fun c =>
        { s with pool := s.pool.insert p { c with data := data, dirty := some t } }
    else none
  | .append t p =>
    if s.phase t = .running ∧ (s.disk p).isNone then
      some { s with disk := Function.update s.disk p (some blank) }
    else none
  | .evict p =>
    match s.pool.lookup p with
    | none => none
    | some c => if c.dirty.isNone then some { s with pool := s.pool.erase p } else none
  | .flush p => some (s.flushPage p)
  | .checkpoint =>
    if s.clean fun _ => true then
      some { s with journal := s.journal.checkpointRecord size }
    else none
  | .truncate => (s.journal.logTruncate size).map fun j => { s with journal := j }
  | .complete t =>
    -- the pool has flushed the pages of the transaction before
    if s.phase t = .running ∧ s.clean (fun u => u = t) = true then
      some { s.moved t .flushed with
        pool := setBeforeImages s.pool (s.pagesHeldBy t)
        locks := s.locks.releaseAll t }
    else none
  | .logCommit t =>
    if s.phase t = .flushed then
      some { s.moved t .committed with journal := s.journal.logCommit t }
    else none
  | .logAbort t => if s.phase t = .running then some (s.rollBack size t) else none
  | .discard t =>
    if s.phase t = .rolledBack then
      some { s.moved t .aborted with
        pool := discardPages s.pool (s.pagesHeldBy t)
        locks := s.locks.releaseAll t }
    else none

end Storage

end BallotBox.SimpleDb
