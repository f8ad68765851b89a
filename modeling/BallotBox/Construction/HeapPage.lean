import BallotBox.Construction.LogFile
import BallotBox.Construction.Parser
import BallotBox.Framework.Bitmaps
import BallotBox.Framework.Utf8

/-!
# Heap pages

The pages of `simpledb/storage/HeapPage.java`: a header with one bit for each slot, and slots of one
size.  Tuples are put into the first free slot and deleted by their record id.
-/

namespace BallotBox.SimpleDb

def Failure.db (message : String) : Failure := ⟨.db, some (ascii message)⟩

/-! ## Fields -/

inductive FieldType
  | int | string
deriving DecidableEq

abbrev stringLen : ℕ := 128

def FieldType.getLen : FieldType → ℕ
  | int => 4
  | string => stringLen + 4

/-- A `StringField` with the maximal size `STRING_LEN`. -/
structure StringField where
  value : List UInt16
  short : value.length ≤ stringLen
deriving DecidableEq

/-- The constructor, which cuts the text. -/
def StringField.ofString (s : List UInt16) : StringField := ⟨s.take stringLen, by simp⟩

/-- `IntField` and `StringField`. -/
inductive Field
  | int (value : BitVec 32)
  | string (field : StringField)
deriving DecidableEq

def Field.getType : Field → FieldType
  | int _ => .int
  | string _ => .string

def Field.serialize : Field → Bytes
  | int value => intBytes value
  | string s =>
    intBytes (.ofNat 32 s.value.length) ++ s.value.map lowByte ++
      List.replicate (stringLen - s.value.length) 0

/-- `skipBytes`, which does not mind the end of the data; a negative number skips nothing. -/
def skipBytes (n : ℕ) : Reader Unit := fun bs => .ok () (bs.drop n)

/-- `STRING_TYPE.parse`.  A negative length makes the allocation of the array fail. -/
def parseString : Reader StringField := do
  let strLen ← readInt
  if strLen.toInt < 0 then throw .failed
  let bs ← readPadded strLen.toNat
  skipBytes (stringLen - strLen.toNat)
  return .ofString (utf8Decode bs)

def FieldType.parse : (c : FieldType) → Reader { f : Field // f.getType = c }
  | int => do return ⟨.int (← readInt), rfl⟩
  | string => do return ⟨.string (← parseString), rfl⟩

/-! ## Tuples -/

/-- A tuple whose fields are set as its descriptor says. -/
structure Tuple (td : List FieldType) where
  fields : List Field
  typed : fields.map Field.getType = td
deriving DecidableEq

/-- The bytes of the fields. -/
def Tuple.serialize {td : List FieldType} (t : Tuple td) : Bytes := t.fields.flatMap Field.serialize

/-- The loop of `readNextTuple` over the fields. -/
def readFields : (td : List FieldType) → Reader (Tuple td)
  | [] => return ⟨[], rfl⟩
  | c :: td => do
    let f ← c.parse
    let t ← readFields td
    return ⟨f.1 :: t.fields, by rw [List.map_cons, f.2, t.typed]⟩

/-- A `RecordId`; pages have identifiers of any type. -/
structure RecordId (ι : Type) where
  pageId : ι
  tupleno : ℤ
deriving DecidableEq

/-! ## The format -/

/-- The size of the pages, and the columns of the table. -/
structure PageFormat where
  pageSize : ℕ
  td : List FieldType
deriving DecidableEq

namespace PageFormat

variable (F : PageFormat)

def tupleSize : ℕ := (F.td.map FieldType.getLen).sum

def numSlots : ℕ := F.pageSize * 8 / (F.tupleSize * 8 + 1)

def headerSize : ℕ := (F.numSlots + 7) / 8

def createEmptyPageData : Bytes := List.replicate F.pageSize 0

lemma div_lt_headerSize {i : ℕ} (h : i < F.numSlots) : i / 8 < F.headerSize := by
  unfold headerSize
  omega

/-- The header and the slots fit into a page. -/
lemma size_le : F.headerSize + F.tupleSize * F.numSlots ≤ F.pageSize := by
  have hslots : F.numSlots * (F.tupleSize * 8 + 1) ≤ F.pageSize * 8 := Nat.div_mul_le_self ..
  have hexpand :
      F.numSlots * (F.tupleSize * 8 + 1) = 8 * (F.tupleSize * F.numSlots) + F.numSlots := by
    ring
  unfold headerSize
  omega

end PageFormat

/-! ## Pages -/

/-- A `HeapPage`. -/
@[ext] structure HeapPage (F : PageFormat) (ι : Type) where
  pid : ι
  header : Bytes
  tuples : Fin F.numSlots → Option (Tuple F.td)
  header_length : header.length = F.headerSize
  agrees : ∀ i : Fin F.numSlots, getBit header i = (tuples i).isSome

namespace HeapPage

variable {F : PageFormat} {ι : Type} (page : HeapPage F ι)

def isSlotUsed (i : ℕ) : Bool := getBit page.header i

/-- `markSlotUsed (i, t != null); tuples[i] = t;` -/
def putSlot (i : Fin F.numSlots) (t : Option (Tuple F.td)) : HeapPage F ι where
  pid := page.pid
  header := setBit page.header i t.isSome
  tuples := Function.update page.tuples i t
  header_length := by rw [length_setBit, page.header_length]
  agrees j := by
    have hbyte : (i : ℕ) / 8 < page.header.length := by
      rw [page.header_length]
      exact F.div_lt_headerSize i.isLt
    rw [getBit_setBit hbyte]
    by_cases h : j = i
    · simp [h]
    · rw [if_neg (by simpa [Fin.ext_iff] using h), Function.update_of_ne h, page.agrees j]

def getNumEmptySlots : ℕ :=
  (List.finRange F.numSlots).countP fun i : Fin F.numSlots => !page.isSlotUsed i

/-- `insertTuple`: the page after it, and the record id that the tuple is given. -/
def insertTuple (t : List Field) : Except Failure (HeapPage F ι × Option (RecordId ι)) :=
  if h : t.map Field.getType = F.td then
    if page.getNumEmptySlots = 0 then .error (.db "page is full")
    else match (List.finRange F.numSlots).find? fun i : Fin F.numSlots => !page.isSlotUsed i with
      | some i => .ok (page.putSlot i (some ⟨t, h⟩), some ⟨page.pid, i⟩)
      | none => .ok (page, none)
  else .error (.db "tupledesc mismatch")

/-- `deleteTuple`, which reads nothing of the tuple but its record id. -/
def deleteTuple [DecidableEq ι] (rid : Option (RecordId ι)) : Except Failure (HeapPage F ι) :=
  match rid with
  | none => .error (.db "tuple is not on this page")
  | some rid =>
    if rid.pageId ≠ page.pid then .error (.db "tuple is not on this page")
    else if h : 0 ≤ rid.tupleno ∧ rid.tupleno < F.numSlots then
      if page.isSlotUsed rid.tupleno.toNat then .ok
        (page.putSlot ⟨rid.tupleno.toNat, by omega⟩ none)
      else .error (.db "tuple slot is already empty")
    else .error (.db "tuple slot is already empty")

/-- `iterator`: the tuples with their record ids. -/
def iterator : List (RecordId ι × Tuple F.td) :=
  (List.finRange F.numSlots).filterMap fun i : Fin F.numSlots =>
    if page.isSlotUsed i then (page.tuples i).map fun t => (⟨page.pid, i⟩, t) else none

lemma mem_iterator {entry : RecordId ι × Tuple F.td} :
    entry ∈ page.iterator ↔ ∃ i, page.tuples i = some entry.2 ∧ entry.1 = ⟨page.pid, (i : ℕ)⟩ := by
  have hslot (i : Fin F.numSlots) : (if page.isSlotUsed i then
      (page.tuples i).map fun t => ((⟨page.pid, (i : ℕ)⟩ : RecordId ι), t) else none) = some entry ↔
      page.tuples i = some entry.2 ∧ entry.1 = ⟨page.pid, (i : ℕ)⟩ := by
    rw [isSlotUsed, page.agrees i]
    cases page.tuples i with
    | none => simp
    | some t => simp [Prod.ext_iff, eq_comm, and_comm]
  simp only [iterator, List.mem_filterMap, List.mem_finRange, true_and, hslot]

def blank (F : PageFormat) (pid : ι) : HeapPage F ι where
  pid := pid
  header := List.replicate F.headerSize 0
  tuples _ := none
  header_length := List.length_replicate
  agrees i := getBit_replicate_zero F.headerSize i

/-! ## Writing -/

/-- What `getPageData` writes for a slot. -/
def slotBytes (i : Fin F.numSlots) : Bytes :=
  if page.isSlotUsed i then (page.tuples i).elim [] Tuple.serialize
  else List.replicate F.tupleSize 0

def getPageData : Bytes :=
  page.header ++ (List.finRange F.numSlots).flatMap page.slotBytes ++
    List.replicate (F.pageSize - (F.headerSize + F.tupleSize * F.numSlots)) 0

end HeapPage

/-- The calls that change a page. -/
inductive PageOp (ι : Type)
  | insert (t : List Field)
  | delete (rid : Option (RecordId ι))
deriving DecidableEq

/-- A call; one that throws leaves the page. -/
def HeapPage.apply {F : PageFormat} {ι : Type} [DecidableEq ι] (page : HeapPage F ι) :
    PageOp ι → HeapPage F ι
  | .insert t =>
    match page.insertTuple t with
    | .ok (page', _) => page'
    | .error _ => page
  | .delete rid =>
    match page.deleteTuple rid with
    | .ok page' => page'
    | .error _ => page

/-- One call after the other. -/
def HeapPage.run {F : PageFormat} {ι : Type} [DecidableEq ι] (page : HeapPage F ι)
    (ops : List (PageOp ι)) : HeapPage F ι :=
  ops.foldl HeapPage.apply page

/-! ## Reading -/

section Reading

variable (F : PageFormat) {ι : Type}

def readNextTuple (header : Bytes) (slotId : ℕ) : Reader (Option (Tuple F.td)) :=
  if !getBit header slotId then do
    let _ ← readBytes F.tupleSize
    return none
  else do return some (← readFields F.td)

/-- The constructor's loop over the slots from `slotId` on. When the data ends, the others stay
null. -/
def readSlots (header : Bytes) : ℕ → ℕ → Reader (List (Option (Tuple F.td)))
  | 0, _ => return []
  | n + 1, slotId => do
    match ← attempt (readNextTuple F header slotId) with
    | .ok t => return t :: (← readSlots header n (slotId + 1))
    | .error .eof => return []
    | .error .failed => throw .failed

/-- The constructor, from what is left of the data. -/
def readPage (pid : ι) : Reader (HeapPage F ι) := do
  let header ← readBytes F.headerSize
  let tuples ← readSlots F header F.numSlots 0
  if h : header.length = F.headerSize ∧
      ∀ i : Fin F.numSlots, getBit header i = (tuples.getD i none).isSome then
    return ⟨pid, header, fun i => tuples.getD i none, h.1, h.2⟩
  else
    -- setBeforeImage () finds a slot in use without a tuple
    throw .failed

/-- The constructor; `none` if it throws. -/
def HeapPage.ofBytes (pid : ι) (data : Bytes) : Option (HeapPage F ι) :=
  match (readPage F pid).run data with
  | .ok page _ => some page
  | .error .. => none

end Reading

end BallotBox.SimpleDb
