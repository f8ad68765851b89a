import BallotBox.Construction.HeapPage
import BallotBox.Framework.Iterators

/-!
# Heap files

`simpledb/storage/HeapFile.java` over the buffer pool, for one transaction that is granted every
lock at once.  The state is the bytes of the file and the pages in the pool, which are changed in
place.
-/

namespace BallotBox.SimpleDb

/-- A `HeapPageId`.  Page numbers are natural numbers here. -/
structure FilePageId where
  tableId : BitVec 32
  number : ℕ
deriving DecidableEq

/-- A page object in the pool, and whether it has been marked dirty. -/
structure PooledPage (F : PageFormat) where
  page : HeapPage F FilePageId
  dirty : Bool

/-- A heap file, its pages in the pool, and the clean pages that will be evicted at the next
misses. -/
structure FileState (F : PageFormat) where
  file : Bytes
  pool : ℕ → Option (PooledPage F)
  evictions : List (List ℕ)

/-- A method that may throw. -/
abbrev FileProg (F : PageFormat) (α : Type) := EStateM Failure (FileState F) α

namespace FileState

variable {F : PageFormat} (s : FileState F)

def numPages : ℕ := (s.file.length + F.pageSize - 1) / F.pageSize

def put (i : ℕ) (p : PooledPage F) : FileState F :=
  { s with pool := Function.update s.pool i (some p) }

/-- The pool without the clean ones of some pages. -/
def evict (victims : List ℕ) : FileState F :=
  { s with pool := fun i => (s.pool i).filter fun p => p.dirty || i ∉ victims }

end FileState

/-- Bytes written at an offset of a file; a gap is filled with zeros. -/
def writeAt (file : Bytes) (offset : ℕ) (data : Bytes) : Bytes :=
  (file ++ List.replicate (offset - file.length) 0).take offset ++ data ++
    file.drop (offset + data.length)

section Methods

variable {F : PageFormat} (tableId : BitVec 32)

/-- The page of the file, if it is there in full and the constructor takes it. -/
def diskPage (file : Bytes) (i : ℕ) : Option (HeapPage F FilePageId) :=
  let data := (file.drop (i * F.pageSize)).take F.pageSize
  if data.length = F.pageSize then HeapPage.ofBytes F ⟨tableId, i⟩ data else none

def HeapFile.readPage (i : ℕ) : FileProg F (HeapPage F FilePageId) := do
  let s ← get
  match diskPage tableId s.file i with
  | some page => return page
  | none =>
    throw ⟨.other (ascii "java.lang.RuntimeException"),
      some (ascii "Failed to read page " ++ renderNat i)⟩

def HeapFile.writePage (i : ℕ) (page : HeapPage F FilePageId) : FileProg F Unit :=
  modify fun s => { s with file := writeAt s.file (i * F.pageSize) page.getPageData }

/-- `evictPage`, as often as the environment wants. -/
def BufferPool.evictPage : FileProg F Unit :=
  modify fun s => { s.evict (s.evictions.headD []) with evictions := s.evictions.tail }

def BufferPool.getPage (i : ℕ) : FileProg F (HeapPage F FilePageId) := do
  let s ← get
  match s.pool i with
  | some p => return p.page
  | none =>
    BufferPool.evictPage
    let page ← HeapFile.readPage tableId i
    modify (·.put i ⟨page, false⟩)
    return page

/-- `page.insertTuple (t)` on the object in the pool, which `BufferPool.insertTuple` then marks
dirty. -/
def HeapFile.insertInto (i : ℕ) (t : List Field) : FileProg F (Option (RecordId FilePageId)) := do
  let page ← BufferPool.getPage tableId i
  match page.insertTuple t with
  | .error f => throw f
  | .ok (page, rid) =>
    modify (·.put i ⟨page, true⟩)
    return rid

/-- The end of `HeapFile.insertTuple`: a new page. -/
def HeapFile.insertIntoNew (t : List Field) : FileProg F (Option (RecordId FilePageId)) := do
  let s ← get
  HeapFile.writePage s.numPages (HeapPage.blank F ⟨tableId, s.numPages⟩)
  HeapFile.insertInto tableId s.numPages t

/-- The loop of `HeapFile.insertTuple` over the pages from `i` on. -/
def HeapFile.insertFrom (t : List Field) : ℕ → ℕ → FileProg F (Option (RecordId FilePageId))
  | 0, _ => HeapFile.insertIntoNew tableId t
  | n + 1, i => do
    let page ← BufferPool.getPage tableId i
    if 0 < page.getNumEmptySlots then HeapFile.insertInto tableId i t
    else HeapFile.insertFrom t n (i + 1)

/-- `BufferPool.insertTuple`: the record id that the tuple is given. -/
def BufferPool.insertTuple (t : List Field) : FileProg F (Option (RecordId FilePageId)) := do
  let s ← get
  HeapFile.insertFrom tableId t s.numPages 0

/-- `BufferPool.deleteTuple`, of the tuple with this record id. -/
def BufferPool.deleteTuple (rid : Option (RecordId FilePageId)) : FileProg F Unit := do
  match rid with
  | none => throw ⟨.other (ascii "java.lang.NullPointerException"), none⟩
  | some rid =>
    if rid.pageId.tableId ≠ tableId then throw (.db "tuple is not a member of this file")
    let page ← BufferPool.getPage tableId rid.pageId.number
    match page.deleteTuple (some rid) with
    | .error f => throw f
    | .ok page => modify (·.put rid.pageId.number ⟨page, true⟩)

/-! ## Scans -/

/-- A `HeapFileIterator`: its page, and what is left of the list the page's iterator collected. -/
structure FileCursor (F : PageFormat) where
  pageNo : ℕ
  tuples : List (RecordId FilePageId × Tuple F.td)

/-- The loop of `hasNext`, over at most `n` more pages. -/
def HeapFileIterator.advance : ℕ → FileCursor F → FileProg F (FileCursor F)
  | 0, it => return it
  | n + 1, it =>
    if it.tuples = [] then do
      let page ← BufferPool.getPage tableId (it.pageNo + 1)
      HeapFileIterator.advance n ⟨it.pageNo + 1, page.iterator⟩
    else return it

/-- `hasNext`, with the iterator after it. -/
def HeapFileIterator.moved (it : FileCursor F) : FileProg F (FileCursor F) := do
  let s ← get
  HeapFileIterator.advance tableId (s.numPages - 1 - it.pageNo) it

def HeapFile.iterator : Iter Failure (FileState F) (RecordId FilePageId × Tuple F.td) where
  State := FileCursor F
  opened := do
    let page ← BufferPool.getPage tableId 0
    return ⟨0, page.iterator⟩
  hasNext it := do
    let it ← HeapFileIterator.moved tableId it
    return (!it.tuples.isEmpty, it)
  next it := do
    let it ← HeapFileIterator.moved tableId it
    match it.tuples with
    | [] => throw ⟨.other (ascii "java.util.NoSuchElementException"), none⟩
    | t :: rest => return (t, { it with tuples := rest })

end Methods

end BallotBox.SimpleDb
