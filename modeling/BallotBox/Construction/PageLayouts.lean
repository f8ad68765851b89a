import BallotBox.Construction.HeapPage

/-!
# Page layouts

How many slots `HeapPage`, `BTreeLeafPage` and `BTreeInternalPage` have, and what their
`getPageData` write, with sizes that wrap as the `int`s of the code do.  Without a wrap, a heap page
has `PageFormat.numSlots` slots.
-/

namespace BallotBox.SimpleDb

/-- `INDEX_SIZE`. -/
abbrev indexSize : ℕ := FieldType.int.getLen

/-- `getHeaderSize` of the pages of a B+ tree. -/
def bTreeHeaderSize (slots : ℕ) : ℕ :=
  let hb := slots / 8
  if hb * 8 < slots then hb + 1 else hb

/-- What `getPageData` writes for an array with a bit for each slot. -/
def arrayBytes (header : Bytes) (size : ℕ) (entry : ℕ → Bytes) (slots : List ℕ) : Bytes :=
  slots.flatMap fun i => if getBit header i then entry i else List.replicate size 0

/-- A bitmap, and the tuples in the slots; those of unused slots are not looked at. -/
structure TupleSlots (td : List FieldType) (headerSize : ℕ) where
  header : Bytes
  tuples : ℕ → Tuple td
  header_length : header.length = headerSize

namespace PageFormat

variable (F : PageFormat) (key : FieldType)

/-- `getNumTuples` of a heap page. -/
def getNumTuples : ℤ := (wrap32 (F.pageSize * 8)).tdiv (wrap32 (F.tupleSize * 8 + 1))

/-- `getMaxTuples` of a leaf page. -/
def getMaxTuples : ℤ :=
  (wrap32 (F.pageSize * 8 - 3 * indexSize * 8)).tdiv (wrap32 (F.tupleSize * 8 + 1))

/-- `getMaxEntries` of an internal page. -/
def getMaxEntries : ℤ :=
  (wrap32 (F.pageSize * 8 - (2 * indexSize * 8 + 8 + 1))).tdiv
    (wrap32 (key.getLen * 8 + indexSize * 8 + 1))

/-! The lengths of the arrays. -/

def heapSlots : ℕ := F.getNumTuples.toNat

def leafSlots : ℕ := F.getMaxTuples.toNat

def internalSlots : ℕ := (F.getMaxEntries key).toNat + 1

def heapHeaderSize : ℕ := (F.heapSlots + 7) / 8

/-- The end of every `getPageData`: zeros behind the bytes written.  A negative number of them is an
exception. -/
def pad (used : ℕ) (written : Bytes) : Option Bytes :=
  let zerolen := wrap32 (F.pageSize - used)
  if zerolen < 0 then none else some (written ++ List.replicate zerolen.toNat 0)

/-- `HeapPage.getPageData`. -/
def heapPageData (page : TupleSlots F.td F.heapHeaderSize) : Option Bytes :=
  F.pad (page.header.length + F.tupleSize * F.heapSlots) <|
    page.header ++
      arrayBytes page.header F.tupleSize (fun i => (page.tuples i).serialize) (.range F.heapSlots)

end PageFormat

structure BTreeLeafPage (F : PageFormat) extends TupleSlots F.td (bTreeHeaderSize F.leafSlots) where
  parent : BitVec 32
  leftSibling : BitVec 32
  rightSibling : BitVec 32

def BTreeLeafPage.getPageData {F : PageFormat} (page : BTreeLeafPage F) : Option Bytes :=
  F.pad (page.header.length + F.tupleSize * F.leafSlots + 3 * indexSize) <|
    intBytes page.parent ++ intBytes page.leftSibling ++ intBytes page.rightSibling ++
      page.header ++
      arrayBytes page.header F.tupleSize (fun i => (page.tuples i).serialize) (.range F.leafSlots)

/-- An internal page; the key of slot 0 and what is in unused slots are not looked at. -/
structure BTreeInternalPage (F : PageFormat) (key : FieldType) where
  parent : BitVec 32
  childCategory : UInt8
  header : Bytes
  keys : ℕ → { f : Field // f.getType = key }
  children : ℕ → BitVec 32
  header_length : header.length = bTreeHeaderSize (F.internalSlots key)

def BTreeInternalPage.getPageData {F : PageFormat} {key : FieldType}
    (page : BTreeInternalPage F key) : Option Bytes :=
  let slots := F.internalSlots key
  F.pad (indexSize + 1 + page.header.length + key.getLen * (slots - 1) + indexSize * slots) <|
    intBytes page.parent ++ [page.childCategory] ++ page.header ++
      arrayBytes page.header key.getLen (fun i => (page.keys i).1.serialize)
        (.range' 1 (slots - 1)) ++
      arrayBytes page.header indexSize (fun i => intBytes (page.children i)) (.range slots)

end BallotBox.SimpleDb
