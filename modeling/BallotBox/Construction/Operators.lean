import BallotBox.Construction.HeapFile

/-!
# Query operators

The operators of `simpledb/execution` in the plan of a delete statement: a scan of the table, a
filter for each comparison, a projection to all columns, and `Delete`, which deletes from the table
that is being scanned.
-/

namespace BallotBox.SimpleDb

/-! ## Comparisons -/

inductive CompareOp
  | equals | greaterThan | lessThan | lessThanOrEq | greaterThanOrEq | like | notEquals
deriving DecidableEq

def compareInt (m n : ℤ) : CompareOp → Bool
  | .equals | .like => m = n
  | .notEquals => m ≠ n
  | .greaterThan => n < m
  | .greaterThanOrEq => n ≤ m
  | .lessThan => m < n
  | .lessThanOrEq => m ≤ n

/-- `String.compareTo`: the difference of the first units that differ, or of the lengths. -/
def compareTo : List UInt16 → List UInt16 → ℤ
  | a :: s, b :: t => if a ≠ b then (a.toNat : ℤ) - b.toNat else compareTo s t
  | [], t => -(t.length : ℤ)
  | s, [] => s.length

def compareString (s t : List UInt16) : CompareOp → Bool
  | .equals => compareTo s t = 0
  | .notEquals => compareTo s t ≠ 0
  | .greaterThan => 0 < compareTo s t
  | .greaterThanOrEq => 0 ≤ compareTo s t
  | .lessThan => compareTo s t < 0
  | .lessThanOrEq => compareTo s t ≤ 0
  | .like => t <:+: s

/-- `Field.compare`; `none` for the failing cast to the class of the field. -/
def Field.compare (op : CompareOp) : Field → Field → Option Bool
  | .int m, .int n => some (compareInt m.toInt n.toInt op)
  | .string s, .string t => some (compareString s.value t.value op)
  | _, _ => none

section Tuples

variable {td : List FieldType}

lemma Tuple.length_fields (t : Tuple td) : t.fields.length = td.length := by
  simpa using congrArg List.length t.typed

def Tuple.getField (t : Tuple td) (i : Fin td.length) : Field :=
  t.fields.get ⟨i, by rw [t.length_fields]; exact i.isLt⟩

/-- A `Predicate`.  The planner makes the constant a field of the column's type. -/
structure Predicate (td : List FieldType) where
  field : Fin td.length
  op : CompareOp
  operand : Field
  typed : operand.getType = td.get field

def Predicate.filter (p : Predicate td) (t : Tuple td) : Bool :=
  (t.getField p.field).compare p.op p.operand = some true

end Tuples

/-! ## Operators -/

section Plans

variable {F : PageFormat} (tableId : BitVec 32) (fuel : ℕ)

def noSuchElement : Failure := ⟨.other (ascii "java.util.NoSuchElementException"), none⟩

/-- An operator over the tuples of a table, with their record ids. -/
abbrev Scan (F : PageFormat) := Iter Failure (FileState F) (RecordId FilePageId × Tuple F.td)

def seqScan : Scan F := HeapFile.iterator tableId

def filterOp (child : Scan F) (p : Predicate F.td) : Scan F :=
  child.matching (fun e => p.filter e.2) fuel noSuchElement

/-- `Project`: the new tuple keeps the record id. -/
def projectOp (child : Scan F) (outFieldIds : List (Fin F.td.length)) :
    Iter Failure (FileState F) (RecordId FilePageId × List Field) :=
  child.mapped (fun e => (e.1, outFieldIds.map e.2.getField)) noSuchElement

/-- The plan for the rows that satisfy all comparisons: `null.*` over the filters over the scan. -/
def matchingRows (condition : List (Predicate F.td)) :
    Iter Failure (FileState F) (RecordId FilePageId × List Field) :=
  projectOp (condition.foldl (filterOp fuel) (seqScan tableId)) (List.finRange F.td.length)

/-- `Delete.fetchNext`, with `called` and the state of the child; the child is not asked again. -/
def deleteFetchNext (child : Iter Failure (FileState F) (RecordId FilePageId × List Field))
    (st : Bool × child.State) : FileProg F (Option (List Field) × (Bool × child.State)) :=
  if st.1 then return (none, st)
  else do
    let count ← child.fold (fun (count : BitVec 32) t => do
      BufferPool.deleteTuple tableId (some t.1)
      return count + 1) fuel st.2 0
    return (some [.int count], (true, st.2))

def deleteOp (child : Iter Failure (FileState F) (RecordId FilePageId × List Field)) :
    Iter Failure (FileState F) (List Field) :=
  .prefetch (do
    let st ← child.opened
    return (false, st)) (deleteFetchNext tableId fuel child) noSuchElement

/-- Runs the delete statement with this condition, and collects what it gives. -/
def executeDelete (condition : List (Predicate F.td)) : FileProg F (List (List Field)) :=
  (deleteOp tableId fuel (matchingRows tableId fuel condition)).collect fuel

end Plans

end BallotBox.SimpleDb
