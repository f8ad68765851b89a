import BallotBox.Construction.Session

/-!
# The administrator's list of voters

`bc_fold_eligible` of `libballotclient/admin.c` works in place: one loop folds the names, and a
second one moves the first occurrence of each to the front.  An index beyond the end of the list,
which a caller must not ask for, ends a loop.
-/

namespace BallotBox

/-- What `out`, `count` and `bad_entry` point to; `bad_entry` may be null. -/
structure FoldArgs (badCap : ℕ) where
  out : List (CStr bbCertLen)
  count : ℤ
  badEntry : Option (CStr badCap)
deriving DecidableEq

/-- The body of the first loop: the entry, folded, if it is a legal name. -/
def foldEntry (entry : CStr bbCertLen) : Option (CStr bbCertLen) :=
  if !userNameOk entry.bytes then none
  else (userNameFold entry.bytes).map fun folded => .ofBytes folded.bytes

/-- The first loop of `bc_fold_eligible` for `n` more entries from `i` on, with the entry it stops
at. -/
def foldLoop : ℕ → ℕ → List (CStr bbCertLen) → Option (CStr bbCertLen) × List (CStr bbCertLen)
  | 0, _, out => (none, out)
  | n + 1, i, out =>
    match out[i]? with
    | none => (none, out)
    | some entry =>
      match foldEntry entry with
      | none => (some entry, out)
      | some folded => foldLoop n (i + 1) (out.set i folded)

/-- The second loop of `bc_fold_eligible`, which has kept the first `kept` entries. -/
def dedupLoop : ℕ → ℕ → ℕ → List (CStr bbCertLen) → ℕ × List (CStr bbCertLen)
  | 0, _, kept, out => (kept, out)
  | n + 1, i, kept, out =>
    match out[i]? with
    | none => (kept, out)
    | some entry =>
      if (out.take kept).any (·.bytes = entry.bytes) then dedupLoop n (i + 1) kept out
      else dedupLoop n (i + 1) (kept + 1) (if kept ≠ i then out.set kept entry else out)

def bcFoldEligible {badCap : ℕ} (a : FoldArgs badCap) : ℤ × FoldArgs badCap :=
  match foldLoop a.count.toNat 0 a.out with
  | (some bad, out) =>
    (-1, { a with out := out, badEntry := a.badEntry.map fun _ => .ofBytes bad.bytes })
  | (none, out) =>
    let (kept, out) := dedupLoop a.count.toNat 0 0 out
    (0, { a with out := out, count := kept })

end BallotBox
