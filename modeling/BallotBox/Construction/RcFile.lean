import BallotBox.Framework.Decimal

/-!
# Directives

`rc_get` of `libtetrisutil/rc.c` on the text of the file, up to its first NUL.  A line is copied
into a buffer of `PATH_MAX + 64` bytes and skipped if it does not fit; a value is copied to `out` as
it is met.
-/

namespace BallotBox

inductive RcStatus
  | found | absent | invalid | noFile
deriving DecidableEq

/-- The size of `line` in `lookup`. -/
def rcLineLen : ℕ := 4096 + 64

/-- The value that a line gives to the key, if it does. -/
def rcValue (key line : Bytes) : Option Bytes :=
  let name := (line.takeWhile (· ≠ cr)).dropWhile isSpace
  match name.dropWhile (· ≠ 61) with
  | [] => none
  | _ :: value =>
    if name.head? = some 35 then none
    else if (name.takeWhile (· ≠ 61)).rdropWhile isSpace = key then
      some ((value.dropWhile isSpace).rdropWhile isSpace)
    else none

/-- What `lookup` has found so far, and the string in `out`. -/
structure RcLookup where
  found : RcStatus
  out : Bytes
deriving DecidableEq

namespace RcLookup

def assign (cap : ℕ) (r : RcLookup) (value : Bytes) : RcLookup :=
  if value = [] ∨ cap ≤ value.length then { r with found := .invalid } else ⟨.found, value⟩

def readLine (key : Bytes) (cap : ℕ) (r : RcLookup) (line : Bytes) : RcLookup :=
  if line.length < rcLineLen then
    match rcValue key line with
    | none => r
    | some value => r.assign cap value
  else r

/-- The loop of `lookup`; `rest` is the text from `at` on. -/
def lookup (key : Bytes) (cap : ℕ) (r : RcLookup) (rest : Bytes) : RcLookup :=
  if rest = [] then r
  else
    let r := r.readLine key cap (rest.takeWhile (· ≠ lf))
    if lf ∈ rest then lookup key cap r (rest.dropWhile (· ≠ lf)).tail else r
termination_by rest.length
decreasing_by
  have hle := (List.dropWhile_sublist (fun c : UInt8 => decide (c ≠ lf)) (l := rest)).length_le
  have hpos : 0 < rest.length := List.length_pos_iff.mpr (by assumption)
  rw [List.length_tail]
  omega

end RcLookup

/-- `rc_get`, for a pointer `out` that is not `NULL`; without a file there is no text. -/
def rcGet (text : Option Bytes) (key : Bytes) (fallback : Option Bytes) (out : Bytes) (cap : ℕ) :
    RcLookup :=
  let r := match text with
    | none => ⟨.noFile, out⟩
    | some text => RcLookup.lookup key cap ⟨.absent, out⟩ text
  match fallback with
  | none => r
  | some default =>
    if r.found = .found ∨ cap = 0 then r else { r with out := default.take (cap - 1) }

end BallotBox
