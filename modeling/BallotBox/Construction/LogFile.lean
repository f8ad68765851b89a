import BallotBox.Construction.Journal
import BallotBox.Framework.Binary

/-!
# The log, byte by byte

`simpledb/storage/LogFile.java` as it works on its file, a list of bytes with a file pointer.  A
read that comes to the end is an `EOFException`, which the loops over the records take for their own
end.
-/

namespace BallotBox.SimpleDb

/-! ## Data -/

abbrev Long := BitVec 64

/-- `HeapPageId`. -/
structure HeapPageId where
  tableId : BitVec 32
  pgNo : BitVec 32
deriving DecidableEq

/-- The contents of a Java array of bytes. -/
abbrev PageData := { data : Bytes // data.length < 2 ^ 31 }

abbrev PageImage := Image HeapPageId PageData

abbrev FileRecord := LogRecord Long HeapPageId PageData

def intBytes (v : BitVec 32) : Bytes := bigEndian 4 v.toNat

def longBytes (v : Long) : Bytes := bigEndian 8 v.toNat

/-- `writeLong`, of an offset. -/
def offsetBytes (offset : ℤ) : Bytes := longBytes (.ofInt 64 offset)

/-- `writeUTF`, of a class name. -/
def utfBytes (name : Bytes) : Bytes := bigEndian 2 name.length ++ name

def pageClassName : Bytes := ascii "simpledb.storage.HeapPage"

def idClassName : Bytes := ascii "simpledb.storage.HeapPageId"

def pageBytes (page : PageImage) : Bytes :=
  utfBytes pageClassName ++ (utfBytes idClassName ++ (intBytes 2 ++
    ([page.pid.tableId, page.pid.pgNo].flatMap intBytes ++
      (intBytes (.ofNat 32 page.data.1.length) ++ page.data.1))))

/-- One entry of a checkpoint record: a transaction and the offset of its first record. -/
def activeBytes (e : Long × ℤ) : Bytes := longBytes e.1 ++ offsetBytes e.2

abbrev abortRecord : BitVec 32 := 1
abbrev commitRecord : BitVec 32 := 2
abbrev updateRecord : BitVec 32 := 3
abbrev beginRecord : BitVec 32 := 4
abbrev checkpointRecord : BitVec 32 := 5

/-! ## Reading -/

def readInt : Reader (BitVec 32) := readWord 4 32

def readLong : Reader Long := readWord 8 64

def readUTF : Reader Bytes := do
  let length ← readWord 2 16
  readBytes length.toNat

/-- `read(byte[])`, which does not mind the end of the file. -/
def readPadded (n : ℕ) : Reader Bytes := fun bs =>
  .ok (bs.take n ++ List.replicate (n - bs.length) 0) (bs.drop n)

variable (reread : HeapPageId → PageData → Option PageData)

def readPageData : Reader PageImage := do
  let page ← readUTF
  let id ← readUTF
  if page ≠ pageClassName ∨ id ≠ idClassName then throw .failed
  let numIdArgs ← readInt
  if numIdArgs.toInt < 0 then throw .failed
  let idArgs ← readMany readInt numIdArgs.toNat
  match idArgs with
  | [tableId, pgNo] =>
    let pageSize ← readInt
    if pageSize.toInt < 0 then throw .failed
    let data ← readPadded pageSize.toNat
    if h : data.length < 2 ^ 31 then
      match reread ⟨tableId, pgNo⟩ ⟨data, h⟩ with
      | some data => return ⟨⟨tableId, pgNo⟩, data⟩
      | none => throw .failed
    else throw .failed
  | _ => throw .failed

/-- One entry of a checkpoint record. -/
def readActive : Reader (Long × ℤ) := do
  let tid ← readLong
  let offset ← readLong
  return (tid, offset.toInt)

/-- `LogFile.LogRecord`. -/
structure ScannedRecord where
  type : BitVec 32
  tid : Long
  images : Option (PageImage × PageImage)
deriving DecidableEq

/-- What comes after the type and the transaction. -/
def readBody (type : BitVec 32) : Reader (Option (PageImage × PageImage)) :=
  if type = updateRecord then do
    let before ← readPageData reread
    let after ← readPageData reread
    return some (before, after)
  else if type = checkpointRecord then do
    let numActive ← readInt
    let _ ← readMany readActive numActive.toInt.toNat
    return none
  else return none

/-- One round of the loop of `scanLog`. -/
def scanRecord : Reader ScannedRecord := do
  let type ← readInt
  let tid ← readLong
  let images ← readBody reread type
  let _ ← readLong
  return ⟨type, tid, images⟩

/-! ## The file -/

/-- Why an operation throws; `full` is the machine giving out. -/
inductive LogError
  | eof | failed | full
deriving DecidableEq

/-- The object and its file; `logNew` is the file that `logTruncate` writes. -/
structure LogFile where
  file : Bytes
  pos : ℕ
  logNew : Bytes
  recoveryUndecided : Bool
  currentOffset : ℤ
  tidToFirstLogRecord : AList fun _ : Long => ℤ

def LogFile.open (file : Bytes) : LogFile := ⟨file, 0, [], true, -1, ∅⟩

abbrev LogM := EStateM LogError LogFile

/-- The bytes of a file after a write at a position. -/
def overwrite (file : Bytes) (pos : ℕ) (bs : Bytes) : Bytes :=
  (file ++ List.replicate (pos - file.length) 0).take pos ++ bs ++ file.drop (pos + bs.length)

namespace LogFile

def seek (offset : ℤ) : LogM Unit := do
  if offset < 0 then throw .failed
  modify fun f => { f with pos := offset.toNat }

/-- `raf.seek(raf.length())`. -/
def seekEnd : LogM Unit := modify fun f => { f with pos := f.file.length }

def write (bs : Bytes) : LogM Unit := do
  if 2 ^ 63 ≤ (← get).pos + bs.length then throw .full
  modify fun f => { f with file := overwrite f.file f.pos bs, pos := f.pos + bs.length }

def emit (bs : Bytes) : LogM Unit := do
  if 2 ^ 63 ≤ (← get).logNew.length + bs.length then throw .full
  modify fun f => { f with logNew := f.logNew ++ bs }

/-- Reads from the file pointer on. -/
def reading {α : Type} (p : Reader α) : LogM α := fun f =>
  let left := f.file.drop f.pos
  match p.run left with
  | .ok a rest => .ok a { f with pos := f.pos + (left.length - rest.length) }
  | .error .eof rest => .error .eof { f with pos := f.pos + (left.length - rest.length) }
  | .error .failed rest => .error .failed { f with pos := f.pos + (left.length - rest.length) }

/-- `currentOffset = raf.getFilePointer()`. -/
def setOffset : LogM Unit := modify fun f => { f with currentOffset := f.pos }

/-- `tidToFirstLogRecord.put`. -/
def put (t : Long) (offset : ℤ) : LogM Unit := do
  if 2 ^ 31 ≤ ((← get).tidToFirstLogRecord.insert t offset).entries.length then throw .full
  modify fun f => { f with tidToFirstLogRecord := f.tidToFirstLogRecord.insert t offset }

/-- `tidToFirstLogRecord.remove`. -/
def remove (t : Long) : LogM Unit :=
  modify fun f => { f with tidToFirstLogRecord := f.tidToFirstLogRecord.erase t }

/-! ## Operations -/

def preAppend : LogM Unit := do
  if (← get).recoveryUndecided then
    modify fun f => { f with recoveryUndecided := false }
    seek 0
    modify fun f => { f with file := [] }
    write (offsetBytes (-1))
    seekEnd
    setOffset

/-- The end of every record: the offset at which it begins. -/
def endRecord : LogM Unit := do
  write (offsetBytes (← get).currentOffset)
  setOffset

def logCommit (t : Long) : LogM Unit := do
  preAppend
  write (intBytes commitRecord ++ longBytes t)
  endRecord
  remove t

def logWrite (t : Long) (before after : PageImage) : LogM Unit := do
  preAppend
  write (intBytes updateRecord ++ longBytes t)
  write (pageBytes before)
  write (pageBytes after)
  endRecord

/-- A second begin of a transaction throws before anything is written. -/
def logXactionBegin (t : Long) : LogM Unit := do
  if t ∈ (← get).tidToFirstLogRecord then throw .failed
  preAppend
  write (intBytes beginRecord ++ longBytes t)
  let f ← get
  write (offsetBytes f.currentOffset)
  put t f.currentOffset
  setOffset

def scanLog (start : ℤ) : LogM (List ScannedRecord) := do
  seek start
  let f ← get
  reading (readUntilEof (scanRecord reread) (f.file.length + 1))

/-- `putIfAbsent`, for the old image of a record of the transaction. -/
def putIfAbsent (t : Long) (images : AList fun _ : HeapPageId => PageData) (r : ScannedRecord) :
    AList fun _ : HeapPageId => PageData :=
  match r.images with
  | some (before, _) =>
    if r.tid = t ∧ before.pid ∉ images then images.insert before.pid before.data else images
  | none => images

/-- The map `beforeImages` of `rollback`. -/
def beforeImages (t : Long) (scanned : List ScannedRecord) : AList fun _ : HeapPageId => PageData :=
  scanned.foldl (putIfAbsent t) ∅

/-- `rollback`, with the pages that are written back. -/
def rollback (t : Long) : LogM (AList fun _ : HeapPageId => PageData) := do
  preAppend
  match (← get).tidToFirstLogRecord.lookup t with
  | none => return ∅
  | some firstRecord =>
    let scanned ← scanLog reread firstRecord
    seekEnd
    setOffset
    return beforeImages t scanned

def logAbort (t : Long) : LogM (AList fun _ : HeapPageId => PageData) := do
  preAppend
  let images ← rollback reread t
  write (intBytes abortRecord ++ longBytes t)
  endRecord
  remove t
  return images

/-- `recover`, with the images that are written, in their order. -/
def recover : LogM (List PageImage) := do
  modify fun f => { f with recoveryUndecided := false }
  let scanned ← scanLog reread 8
  let committed := scanned.filterMap fun r => if r.type = commitRecord then some r.tid else none
  let scanned ← scanLog reread 8
  seekEnd
  setOffset
  return scanned.filterMap fun r => r.images.map fun (before, after) =>
    if r.tid ∈ committed then after else before

/-- The first section of `logCheckpoint`; `flushed` is what `flushAllPages` logs. -/
def checkpoint (flushed : List (Long × PageImage × PageImage)) : LogM Unit := do
  preAppend
  flushed.forM fun e => logWrite e.1 e.2.1 e.2.2
  let startCpOffset := (← get).pos
  write (intBytes checkpointRecord ++ longBytes (-1))
  let active := (← get).tidToFirstLogRecord.entries.map fun e => (e.1, e.2)
  write (intBytes (.ofNat 32 active.length))
  write (active.flatMap activeBytes)
  let endCpOffset := (← get).pos
  seek 0
  write (offsetBytes startCpOffset)
  seek endCpOffset
  endRecord

/-! ### Truncation -/

/-- Copies the entries of a checkpoint record to the new file. -/
def rewriteActive (minLogRecord : ℤ) : ℕ → LogM Unit
  | 0 => return
  | n + 1 => do
    let e ← reading readActive
    emit (activeBytes (e.1, e.2 - minLogRecord + 8))
    rewriteActive minLogRecord n

/-- What is done for each type of record. -/
def rewriteBody (minLogRecord newStart : ℤ) (type : BitVec 32) (tid : Long) : LogM Unit :=
  if type = updateRecord then do
    let before ← reading (readPageData reread)
    let after ← reading (readPageData reread)
    emit (pageBytes before)
    emit (pageBytes after)
  else if type = checkpointRecord then do
    let numXactions ← reading readInt
    emit (intBytes numXactions)
    rewriteActive minLogRecord numXactions.toInt.toNat
  else if type = beginRecord then put tid newStart
  else return

/-- Copies a record to the new file. -/
def rewriteRecord (minLogRecord : ℤ) : LogM Unit := do
  let type ← reading readInt
  let tid ← reading readLong
  let newStart := (← get).logNew.length
  emit (intBytes type ++ longBytes tid)
  rewriteBody reread minLogRecord newStart type tid
  emit (offsetBytes newStart)
  let _ ← reading readLong

/-- The loop of `logTruncate`, which ends with the file. -/
def rewriteLoop (minLogRecord : ℤ) : ℕ → LogM Unit
  | 0 => throw .failed
  | fuel + 1 => do
    match ← attempt (rewriteRecord reread minLogRecord) with
    | .ok _ => rewriteLoop minLogRecord fuel
    | .error .eof => return
    | .error e => throw e

/-- The smallest offset that the checkpoint record at `cpLoc` needs. -/
def minLogRecord (cpLoc : ℤ) : LogM ℤ := do
  if cpLoc = -1 then return cpLoc
  seek cpLoc
  let cpType ← reading readInt
  let _ ← reading readLong
  if cpType ≠ checkpointRecord then throw .failed
  let numOutstanding ← reading readInt
  let active ← reading (readMany readActive numOutstanding.toInt.toNat)
  return (active.map Prod.snd).foldl min cpLoc

def logTruncate : LogM Unit := do
  preAppend
  seek 0
  let cpLoc := (← reading readLong).toInt
  let base ← minLogRecord cpLoc
  modify fun f => { f with logNew := [] }
  emit (offsetBytes (cpLoc - base + 8))
  seek base
  let f ← get
  rewriteLoop reread base (f.file.length + 1)
  modify fun f => { f with file := f.logNew, logNew := [] }
  seekEnd
  setOffset

end LogFile

/-! ## Runs -/

/-- The operations; `truncate` is the second section of `logCheckpoint`. -/
inductive LogOp
  | recover
  | logXactionBegin (t : Long)
  | logWrite (t : Long) (before after : PageImage)
  | logCommit (t : Long)
  | logAbort (t : Long)
  | checkpoint (flushed : List (Long × PageImage × PageImage))
  | truncate

/-- The log, and how many threads are between the two sections of `logCheckpoint`. -/
structure LogRun where
  log : LogFile
  truncating : ℕ

/-- The state after an operation, whether it returns or throws. -/
def LogFile.after {α : Type} (f : LogFile) (x : LogM α) : Option LogFile :=
  match x.run f with
  | .ok _ f' => some f'
  | .error .full _ => none
  | .error _ f' => some f'

def LogRun.step (s : LogRun) : LogOp → Option LogRun
  | .recover => (s.log.after (LogFile.recover reread)).map fun f => { s with log := f }
  | .logXactionBegin t => (s.log.after (LogFile.logXactionBegin t)).map fun f => { s with log := f }
  | .logWrite t before after =>
    (s.log.after (LogFile.logWrite t before after)).map fun f => { s with log := f }
  | .logCommit t => (s.log.after (LogFile.logCommit t)).map fun f => { s with log := f }
  | .logAbort t => (s.log.after (LogFile.logAbort reread t)).map fun f => { s with log := f }
  | .checkpoint flushed =>
    (s.log.after (LogFile.checkpoint flushed)).map fun f => ⟨f, s.truncating + 1⟩
  | .truncate =>
    if s.truncating = 0 then none
    else (s.log.after (LogFile.logTruncate reread)).map fun f => ⟨f, s.truncating - 1⟩

end BallotBox.SimpleDb
