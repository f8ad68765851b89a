import BallotBox.Framework.Bitmaps
import BallotBox.Framework.Runs

/-!
# The free list of a B+ tree file

`BTreeHeaderPage` and the functions of `BTreeFile` that allocate pages.  The header pages are a
chain of bitmaps, kept as a list; slot `i` of the header page number `k` of the chain stands for the
page `k * numSlots + i`.  The pages of the file have the numbers 1 to `numPages`.
-/

namespace BallotBox.SimpleDb

structure HeaderPage where
  pageNo : ℕ
  header : Bytes
deriving DecidableEq

structure TreeFile where
  numPages : ℕ
  headers : List HeaderPage
deriving DecidableEq

/-- The first slot whose bit is clear.  (`(int) header[i] != 0xFF` holds of every byte.) -/
def getEmptySlot (header : Bytes) : Option ℕ :=
  (List.range (header.length * 8)).find? fun i => !getBit header i

/-- Throws for a slot behind the end of the array. -/
def markSlotUsed (header : Bytes) (i : ℕ) (value : Bool) : Option Bytes :=
  if i / 8 < header.length then some (setBit header i value) else none

namespace TreeFile

variable (headerSize : ℕ)

abbrev getNumSlots : ℕ := headerSize * 8

/-- The walk of `getEmptyPageNo` along the chain, of which `count` pages are behind it. -/
def findEmpty : List HeaderPage → ℕ → Option (ℕ × List HeaderPage)
  | [], _ => none
  | page :: rest, count =>
    match getEmptySlot page.header with
    | some i => some (count * getNumSlots headerSize + i,
        { page with header := setBit page.header i true } :: rest)
    | none => (findEmpty rest (count + 1)).map fun (no, rest) => (no, page :: rest)

/-- A page with an empty slot, or a new page at the end of the file. -/
def getEmptyPageNo (f : TreeFile) : ℕ × TreeFile :=
  match findEmpty headerSize f.headers 0 with
  | some (no, headers) => (no, { f with headers := headers })
  | none => (f.numPages + 1, { f with numPages := f.numPages + 1 })

/-- A new header page at the end of the chain, with all slots used. -/
def addHeader (f : TreeFile) : TreeFile :=
  let (no, f) := f.getEmptyPageNo headerSize
  { f with headers := f.headers ++ [⟨no, List.replicate headerSize 0xFF⟩] }

/-- The first loop of `setEmptyPage`: how far it walks along the chain. -/
def skip (e : ℕ) : List HeaderPage → ℕ → ℕ
  | [], count => count
  | _ :: rest, count =>
    if (count + 1) * getNumSlots headerSize < e then skip e rest (count + 1) else count

/-- The second loop, which adds header pages; `place` is where `headerId` is. `none` if it has not
ended. -/
def grow (e : ℕ) : ℕ → TreeFile → ℕ → Option ℕ → Option (TreeFile × ℕ × Option ℕ)
  | 0, _, _, _ => none
  | fuel + 1, f, count, place =>
    if (count + 1) * getNumSlots headerSize < e then
      let f := f.addHeader headerSize
      grow e fuel f (count + 1) (some (f.headers.length - 1))
    else some (f, count, place)

/-- Throws if `headerId` is null in the end, or the slot is not on its page. -/
def setEmptyPage (f : TreeFile) (e : ℕ) : Option TreeFile := do
  let f := if f.headers = [] then f.addHeader headerSize else f
  let count := skip headerSize e f.headers 0
  let (f, count, place) ← grow headerSize e (e + 1) f count
    (if count < f.headers.length then some count else none)
  let i ← place
  let page ← f.headers[i]?
  let header ← markSlotUsed page.header (e - count * getNumSlots headerSize) false
  some { f with headers := f.headers.set i { page with header := header } }

end TreeFile

/-- A call, with the page number that is set free. -/
inductive PageCall
  | setEmptyPage (e : ℕ)
  | getEmptyPageNo
deriving DecidableEq

/-- A file, and the pages that were set free and not handed out since. -/
structure TrackedPages where
  file : TreeFile
  free : Finset ℕ
deriving DecidableEq

/-- One call.  A page that is set free is in the file, in use and no header page. -/
def TrackedPages.step (headerSize : ℕ) (s : TrackedPages) : PageCall → Option TrackedPages
  | .setEmptyPage e =>
    if 1 ≤ e ∧ e ≤ s.file.numPages ∧ e ∉ s.free ∧ e ∉ s.file.headers.map HeaderPage.pageNo then
      (s.file.setEmptyPage headerSize e).map fun f => ⟨f, insert e s.free⟩
    else none
  | .getEmptyPageNo =>
    let (no, f) := s.file.getEmptyPageNo headerSize
    some ⟨f, s.free.erase no⟩

end BallotBox.SimpleDb
