import BallotBox.Framework.Search

/-!
# The lock manager

`simpledb/storage/LockManager.java`.  A page is in the table while somebody holds it, with one flag
for all holders.  Nothing queues: a transaction that is refused tries again, and only the page it
has last tried for is remembered (`waitingFor`).
-/

namespace BallotBox.SimpleDb

/-- `LockState`.  The holders are a set, so no one is listed twice. -/
structure LockState (τ : Type) where
  holders : List τ
  nodup : holders.Nodup
  exclusive : Bool
deriving DecidableEq

/-- The two maps of the manager. -/
structure LockManager (τ π : Type) where
  locks : π → Option (LockState τ)
  waitingFor : AList fun _ : τ => π

variable {τ π : Type} [DecidableEq τ] [DecidableEq π]

/-- What `releaseAll` makes of the state of one page. -/
def LockState.without (t : τ) (s : LockState τ) : Option (LockState τ) :=
  if t ∈ s.holders ∧ s.holders.erase t = [] then none
  else some { s with holders := s.holders.erase t, nodup := s.nodup.erase t }

namespace LockManager

def empty : LockManager τ π := ⟨fun _ => none, ∅⟩

/-- Changes the state of a page. -/
def put (m : LockManager τ π) (p : π) (s : LockState τ) : LockManager τ π :=
  { m with locks := Function.update m.locks p (some s) }

def tryAcquire (m : LockManager τ π) (t : τ) (p : π) (exclusive : Bool) : LockManager τ π × Bool :=
  match m.locks p with
  | none => (m.put p ⟨[t], List.nodup_singleton t, exclusive⟩, true)
  | some s =>
    if s.holders = [] then (m.put p ⟨[t], List.nodup_singleton t, exclusive⟩, true)
    else if t ∈ s.holders then
      if s.exclusive || !exclusive then (m, true)
      else if s.holders.length = 1 then (m.put p { s with exclusive := true }, true)
      else (m, false)
    else if !exclusive && !s.exclusive then
      (m.put p { s with holders := s.holders.insert t, nodup := s.nodup.insert }, true)
    else (m, false)

def release (m : LockManager τ π) (t : τ) (p : π) : LockManager τ π :=
  match m.locks p with
  | none => m
  | some s =>
    if s.holders.erase t = [] then { m with locks := Function.update m.locks p none }
    else m.put p { s with holders := s.holders.erase t, nodup := s.nodup.erase t }

def releaseAll (m : LockManager τ π) (t : τ) : LockManager τ π :=
  { m with locks := fun p => (m.locks p).bind (LockState.without t) }

def holdsLock (m : LockManager τ π) (t : τ) (p : π) : Bool :=
  match m.locks p with
  | none => false
  | some s => t ∈ s.holders

def waitEdges (m : LockManager τ π) (t : τ) : List τ :=
  match m.waitingFor.lookup t with
  | none => []
  | some p =>
    match m.locks p with
    | none => []
    | some s => s.holders.erase t

/-- `hasDeadlock`. Who waits for nothing has no edges, so there are no more polls than edges. -/
def hasDeadlock (m : LockManager τ π) (start : τ) : Bool :=
  search m.waitEdges start
    ((m.waitEdges start).length + searchCost m.waitEdges m.waitingFor.keys + 1) []
    (m.waitEdges start)

end LockManager

/-! ## Steps -/

/-- The atomic steps of the manager. -/
inductive LockEvent (τ π : Type)
  | attempt (t : τ) (p : π) (exclusive : Bool)
  | interrupt (t : τ)
  | release (t : τ) (p : π)
  | releaseAll (t : τ)
deriving DecidableEq

/-- What the caller sees: `acquire` returns, sleeps or throws. -/
inductive LockReply
  | granted | waiting | aborted | done
deriving DecidableEq

def LockManager.apply (m : LockManager τ π) : LockEvent τ π → LockManager τ π × LockReply
  | .attempt t p exclusive =>
    match m.tryAcquire t p exclusive with
    | (m', true) => ({ m' with waitingFor := m'.waitingFor.erase t }, .granted)
    | (m', false) =>
      let waits : LockManager τ π := { m' with waitingFor := m'.waitingFor.insert t p }
      if waits.hasDeadlock t then
        ({ waits with waitingFor := waits.waitingFor.erase t }, .aborted)
      else (waits, .waiting)
  | .interrupt t => ({ m with waitingFor := m.waitingFor.erase t }, .aborted)
  | .release t p => (m.release t p, .done)
  | .releaseAll t => (m.releaseAll t, .done)

/-- The steps of a run, each with its reply. -/
abbrev LockHistory (τ π : Type) := List (LockEvent τ π × LockReply)

/-- A run from a new manager. -/
def runLocks (evs : List (LockEvent τ π)) : LockManager τ π × LockHistory τ π :=
  evs.foldl (fun (m, hist) e => ((m.apply e).1, hist ++ [(e, (m.apply e).2)])) (.empty, [])

end BallotBox.SimpleDb
