import BallotBox.Framework.Runs

/-!
# The log, record by record

`simpledb/storage/LogFile.java` above the level of bytes: a checkpoint pointer and a list of
records, each at the offset that those before it leave.  The first append throws away the records it
finds, unless `recover` was called before (`preAppend`).
-/

namespace BallotBox.SimpleDb

/-- A page as it stands in the log: which page it is, and what is on it. -/
structure Image (π α : Type) where
  pid : π
  data : α
deriving DecidableEq

/-- The five types of records. -/
inductive LogRecord (τ π α : Type)
  | abort (t : τ)
  | commit (t : τ)
  | update (t : τ) (before after : Image π α)
  | begin (t : τ)
  | checkpoint (active : List (τ × ℤ))
deriving DecidableEq

variable {τ π α : Type} [DecidableEq τ] [DecidableEq π]

/-- The length of a record in the file, for a given length of the images. -/
def LogRecord.size (imageSize : Image π α → ℕ) : LogRecord τ π α → ℕ
  | .update _ before after => 20 + imageSize before + imageSize after
  | .checkpoint active => 24 + 16 * active.length
  | _ => 20

/-! ## Recovery and rollback -/

/-- The record is the commit record of the transaction. -/
def LogRecord.commits (t : τ) : LogRecord τ π α → Bool
  | .commit u => u = t
  | _ => false

/-- The transaction is in the set `committed` of `recover`. -/
def won (log : List (LogRecord τ π α)) (t : τ) : Bool := log.any (LogRecord.commits t)

/-- The image `recover` writes for a record. -/
def LogRecord.settle (committed : τ → Bool) : LogRecord τ π α → Option (Image π α)
  | .update t before after => some (if committed t then after else before)
  | _ => none

/-- The images `recover` writes, in their order. -/
def recoverImages (log : List (LogRecord τ π α)) : List (Image π α) :=
  log.filterMap (LogRecord.settle (won log))

/-- `restorePages`, the disk. -/
def restorePages (disk : π → α) (images : List (Image π α)) : π → α :=
  images.foldl (fun disk image => Function.update disk image.pid image.data) disk

def recover (log : List (LogRecord τ π α)) (disk : π → α) : π → α :=
  restorePages disk (recoverImages log)

/-- The entry of a page in the map `beforeImages` of `rollback`: `putIfAbsent` keeps the oldest. -/
def beforeImage (t : τ) (p : π) : List (LogRecord τ π α) → Option α
  | [] => none
  | .update u before _ :: log =>
    if u = t ∧ before.pid = p then some before.data else beforeImage t p log
  | _ :: log => beforeImage t p log

/-! ## The file -/

/-- A log file, with what the object keeps in memory. -/
structure Journal (τ π α : Type) where
  pointer : ℤ
  records : List (LogRecord τ π α)
  recoveryUndecided : Bool
  tidToFirstLogRecord : AList fun _ : τ => ℤ

/-- A checkpoint record rewritten for a file that begins at another offset. -/
def LogRecord.shift (base : ℤ) : LogRecord τ π α → LogRecord τ π α
  | .checkpoint active => .checkpoint (active.map fun (t, offset) => (t, offset - base + 8))
  | r => r

namespace Journal

variable (size : LogRecord τ π α → ℕ) (j : Journal τ π α)

/-- The offset after the last record. -/
def endOffset : ℤ := 8 + (j.records.map size).sum

def preAppend : Journal τ π α :=
  if j.recoveryUndecided then { j with pointer := -1, records := [], recoveryUndecided := false }
  else j

/-- Writes a record at the end. -/
def append (r : LogRecord τ π α) : Journal τ π α := { j with records := j.records ++ [r] }

/-- `logXactionBegin`; a second one for the same transaction throws. -/
def logXactionBegin (t : τ) : Option (Journal τ π α) :=
  if t ∈ j.tidToFirstLogRecord then none
  else
    let j := j.preAppend
    some { j.append (.begin t) with
      tidToFirstLogRecord := j.tidToFirstLogRecord.insert t (j.endOffset size) }

def logWrite (t : τ) (before after : Image π α) : Journal τ π α :=
  j.preAppend.append (.update t before after)

def logCommit (t : τ) : Journal τ π α :=
  { j.preAppend.append (.commit t) with
    tidToFirstLogRecord := j.preAppend.tidToFirstLogRecord.erase t }

/-- The records from an offset on, if the first one is at `start`. -/
def scanFrom (start : ℤ) (offset : ℤ) : List (LogRecord τ π α) → List (LogRecord τ π α)
  | [] => []
  | r :: rs => if offset ≤ start then r :: rs else scanFrom (start + size r) offset rs

/-- The images `rollback` writes back. -/
def rollback (t : τ) (p : π) : Option α :=
  match j.preAppend.tidToFirstLogRecord.lookup t with
  | none => none
  | some first => beforeImage t p (scanFrom size 8 first j.preAppend.records)

def logAbort (t : τ) : Journal τ π α :=
  { j.preAppend.append (.abort t) with
    tidToFirstLogRecord := j.preAppend.tidToFirstLogRecord.erase t }

/-- The entry that `logTruncate` makes for a begin record. -/
def putBegin (start : ℤ) (first : AList fun _ : τ => ℤ) :
    LogRecord τ π α → AList fun _ : τ => ℤ
  | .begin t => first.insert t start
  | _ => first

/-- The entries for all records, of which the first is at `start`. -/
def putBegins (start : ℤ) :
    List (LogRecord τ π α) → (AList fun _ : τ => ℤ) → AList fun _ : τ => ℤ
  | [], first => first
  | r :: rs, first => putBegins (start + size r) rs (putBegin start first r)

/-- Where `logTruncate` cuts: the first record of those active at the last checkpoint, or the
checkpoint itself. Throws if the pointer does not lead to one. -/
def truncationPoint : Option ℤ :=
  if j.pointer < 0 then none
  else
    match scanFrom size 8 j.pointer j.records with
    | .checkpoint active :: _ => some ((active.map Prod.snd).foldl min j.pointer)
    | _ => none

/-- `logTruncate`: the file from the cut on, moved to the front. -/
def logTruncate : Option (Journal τ π α) :=
  let j := j.preAppend
  (j.truncationPoint size).map fun base =>
    let records := (scanFrom size 8 base j.records).map (LogRecord.shift base)
    { j with
      pointer := j.pointer - base + 8
      records := records
      tidToFirstLogRecord := putBegins size 8 records j.tidToFirstLogRecord }

/-- The outstanding transactions that a checkpoint lists, with their offsets. -/
def outstanding : List (τ × ℤ) := j.tidToFirstLogRecord.entries.map fun e => (e.1, e.2)

/-- The first part of `logCheckpoint`, after the flush. Other threads can write before the
truncation. -/
def checkpointRecord : Journal τ π α :=
  let j := j.preAppend
  { j.append (.checkpoint j.outstanding) with pointer := j.endOffset size }

/-- `logCheckpoint`, on its own. -/
def logCheckpoint : Option (Journal τ π α) := (j.checkpointRecord size).logTruncate size

def recovered : Journal τ π α := { j with recoveryUndecided := false }

end Journal

/-- A call on the log. -/
inductive JournalOp (τ π α : Type)
  | begin (t : τ)
  | write (t : τ) (before after : Image π α)
  | commit (t : τ)
  | abort (t : τ)
  | checkpoint
deriving DecidableEq

namespace Journal

variable (size : LogRecord τ π α → ℕ) (j : Journal τ π α)

/-- One call.  For a transaction without an entry `rollback` returns early, and `logAbort` still
writes its record. -/
def step : JournalOp τ π α → Option (Journal τ π α)
  | .begin t => j.logXactionBegin size t
  | .write t before after => some (j.logWrite t before after)
  | .commit t => some (j.logCommit t)
  | .abort t => some (j.logAbort t)
  | .checkpoint => j.logCheckpoint size

section Fields

omit [DecidableEq τ] [DecidableEq π]

@[simp] lemma preAppend_first : j.preAppend.tidToFirstLogRecord = j.tidToFirstLogRecord := by
  unfold preAppend
  split <;> rfl

@[simp] lemma preAppend_undecided : j.preAppend.recoveryUndecided = false := by
  unfold preAppend
  split
  · rfl
  · next h => simpa using h

lemma preAppend_of_decided (h : j.recoveryUndecided = false) : j.preAppend = j := by
  simp [preAppend, h]

lemma preAppend_records : j.preAppend.records = if j.recoveryUndecided then [] else j.records := by
  unfold preAppend
  split <;> rfl

end Fields

variable {size j} in
omit [DecidableEq π] in
lemma logXactionBegin_eq_some {t : τ} {j' : Journal τ π α}
    (h : j.logXactionBegin size t = some j') :
    t ∉ j.tidToFirstLogRecord ∧ j' = { j.preAppend.append (.begin t) with
      tidToFirstLogRecord := j.tidToFirstLogRecord.insert t (j.preAppend.endOffset size) } := by
  unfold logXactionBegin at h
  split at h
  · cases h
  · next hnew => exact ⟨hnew, by simpa using (Option.some.inj h).symm⟩

end Journal

/-- `new LogFile(f)` over the records in the file. -/
def openLog (pointer : ℤ) (records : List (LogRecord τ π α)) : Journal τ π α where
  pointer := pointer
  records := records
  recoveryUndecided := true
  tidToFirstLogRecord := ∅

/-! ## The start of the runner -/

section Startup

variable (size : LogRecord ℕ π α → ℕ) {ι : Type}

/-- `TableStats.computeStatistics`, the log: a transaction for each table that reads and commits. It
leaves no page dirty. -/
def computeStatistics : List ι → ℕ → Journal ℕ π α → Option (Journal ℕ π α)
  | [], _, j => some j
  | _ :: tables, counter, j => do
    let j ← j.logXactionBegin size counter
    computeStatistics tables (counter + 1) (j.logCommit counter)

/-- `SocketRunner.main` up to the socket: the catalog's tables, then the statistics, then
`recover`. -/
def startup (tables : List ι) (j : Journal ℕ π α) (disk : π → α) :
    Option (Journal ℕ π α × (π → α)) :=
  (computeStatistics size tables 0 j).map fun j => (j.recovered, recover j.records disk)

end Startup

/-! ## Lifetimes -/

/-- What a process does to its log after `recover`. -/
inductive LifeEvent (π α : Type)
  | start
  | write (t : ℕ) (before after : Image π α)
  | commit (t : ℕ)
  | abort (t : ℕ)
deriving DecidableEq

/-- A process: its log, and `TransactionId.counter`. -/
structure Process (π α : Type) where
  journal : Journal ℕ π α
  counter : ℕ

namespace Process

variable (size : LogRecord ℕ π α → ℕ)

/-- One event.  Only transactions that have begun write, also after their abort record, and only
those that have not ended commit or abort. -/
def step (p : Process π α) : LifeEvent π α → Option (Process π α)
  | .start => (p.journal.logXactionBegin size p.counter).map fun j => ⟨j, p.counter + 1⟩
  | .write t before after =>
    if t < p.counter then
      some { p with journal := p.journal.logWrite t before after }
    else none
  | .commit t =>
    if t ∈ p.journal.tidToFirstLogRecord then some { p with journal := p.journal.logCommit t }
    else none
  | .abort t =>
    if t ∈ p.journal.tidToFirstLogRecord then some { p with journal := p.journal.logAbort t }
    else none

/-- A lifetime: `recover` on the log that is there, then the events until the crash, and the log it
leaves. -/
def lifetime (log : List (LogRecord ℕ π α)) (evs : List (LifeEvent π α)) :
    Option (List (LogRecord ℕ π α)) :=
  (execAll (step size) ⟨(openLog (-1) log).recovered, 0⟩ evs).map fun p => p.journal.records

/-- The log that a sequence of lifetimes leaves, which the next recovery finds. -/
def lifetimes (lives : List (List (LifeEvent π α))) : Option (List (LogRecord ℕ π α)) :=
  execAll (lifetime size) [] lives

end Process

end BallotBox.SimpleDb
