import Mathlib

/-!
# The sender of log records

`log_vsend` of `libtetrisutil`, called by any number of threads.  A step is one lock attempt, one
call of the socket interface or one atomic operation of one thread; what the system calls return,
and whether a weak compare-and-swap fails, is part of the step.
-/

namespace BallotBox

/-- Where a thread is in `log_vsend` or `drop_one`; `m` is the `dropped` field of its record. -/
inductive LogPoint
  | idle
  | trying
  | locked
  | connecting (m : ℕ)
  | sending (m attempt : ℕ)
  | reconnecting (m attempt : ℕ)
  | sent (m : ℕ)
  | leaving
  | failing
  | dropping
  | counted
  | raising (old : ℕ)
deriving DecidableEq

/-- What `send` returns: the whole record, an error of a peer that went away, or another one. -/
inductive SendResult
  | whole | gone | failed
deriving DecidableEq

inductive LogAction
  | call (fmt : Bool)
  | trylock (busy : Bool)
  | load
  | connect (ok : Bool)
  | send (result : SendResult)
  | subtract
  | unlock
  | count
  | swap (spurious : Bool)
deriving DecidableEq

structure LogSender (τ : Type) where
  point : τ → LogPoint := fun _ => .idle
  lock : Option τ := none
  /-- `glb_fd` is open. -/
  fd : Bool
  dropped : ℕ := 0
  unreported : ℕ := 0
  /-- The calls so far, and the `dropped` fields of the records that were delivered. -/
  calls : ℕ := 0
  delivered : List ℕ := []

variable {τ : Type} [DecidableEq τ]

def LogSender.goto (s : LogSender τ) (t : τ) (p : LogPoint) : LogSender τ :=
  { s with point := Function.update s.point t p }

/-- One step of thread `t`, with the values of `ULONG_MAX` and `glb_max_attempts`. -/
def LogSender.logVsend (ulongMax maxAttempts : ℕ) (s : LogSender τ) (t : τ) (act : LogAction) :
    Option (LogSender τ) :=
  match s.point t, act with
  | .idle, .call fmt =>
    some { s.goto t (if fmt then .trying else .dropping) with calls := s.calls + 1 }
  | .trying, .trylock busy =>
    if busy then some (s.goto t .dropping)
    else if s.lock = none then some { s.goto t .locked with lock := some t }
    else none
  | .locked, .load => some (s.goto t (.connecting s.unreported))
  | .connecting m, .connect ok =>
    if s.fd || ok then some { s.goto t (.sending m 0) with fd := true }
    else some (s.goto t .failing)
  | .sending m attempt, .send result =>
    if attempt < maxAttempts then
      match result with
      | .whole => some { s.goto t (.sent m) with delivered := s.delivered ++ [m] }
      | .gone => some { s.goto t (.reconnecting m attempt) with fd := false }
      | .failed => some (s.goto t .failing)
    else some (s.goto t .failing)
  | .reconnecting m attempt, .connect ok =>
    if ok then some { s.goto t (.sending m (attempt + 1)) with fd := true }
    else some (s.goto t .failing)
  | .sent m, .subtract =>
    some { s.goto t .leaving with
      unreported := (s.unreported + (ulongMax + 1) - m) % (ulongMax + 1) }
  | .leaving, .unlock => some { s.goto t .idle with lock := none }
  | .failing, .unlock => some { s.goto t .dropping with lock := none }
  | .dropping, .count =>
    some { s.goto t .counted with dropped := (s.dropped + 1) % (ulongMax + 1) }
  | .counted, .load => some (s.goto t (.raising s.unreported))
  | .raising old, .swap spurious =>
    if old < ulongMax then
      if s.unreported = old ∧ spurious = false then
        some { s.goto t .idle with unreported := old + 1 }
      else some (s.goto t (.raising s.unreported))
    else some (s.goto t .idle)
  | _, _ => none

def LogSender.step (ulongMax maxAttempts : ℕ) (s : LogSender τ) (e : τ × LogAction) :
    Option (LogSender τ) :=
  s.logVsend ulongMax maxAttempts e.1 e.2

end BallotBox
