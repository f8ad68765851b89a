import BallotBox.Construction.Handlers

/-!
# Administrators at one store

`bb_transition_state` takes two calls of `db_exec` without a transaction around them, so several
callers can interleave between the two.  A `Caller` is one call, cut at that point; an `Office` is a
number of them with the store they share.
-/

namespace BallotBox

/-- How far a call has come: before its read, between check and write with the state it read, or at
its return. -/
inductive Phase
  | ready
  | decided (source : BbState)
  | finished (result : BbResult)
deriving DecidableEq

/-- A call of `bb_transition_state`. -/
structure Caller where
  eid : CStr bbIdLen
  target : BbState
  phase : Phase
deriving DecidableEq

variable {ι : Type} (ch : Channel ι)

/-- The read of a call, and its checks. -/
def Caller.read (c : Caller) (w : World ι) : Phase × World ι :=
  match dbExec ch (.getElection c.eid) w with
  | .error e w' => (.finished (.err e), w')
  | .ok res w' =>
    if !res.found then (.finished (.err .notFound), w')
    else if !bbIsLegalTransition res.election.state c.target then
      (.finished (.err .illegalTransition), { w' with log := w'.log ++
        [ascii "[lifecycle] reject " ++ bbStateStr res.election.state ++ ascii " -> " ++
          bbStateStr c.target ++ ascii " on '" ++ c.eid.bytes ++ ascii "'"] })
    else (.decided res.election.state, w')

def Caller.write (c : Caller) (w : World ι) : Phase × World ι :=
  match dbExec ch (.updateState c.eid c.target) w with
  | .error e w' => (.finished (.err e), w')
  | .ok _ w' => (.finished .ok, w')

/-- The next `db_exec` of a call. -/
def Caller.step (c : Caller) (w : World ι) : Phase × World ι :=
  match c.phase with
  | .ready => c.read ch w
  | .decided _ => c.write ch w
  | .finished result => (.finished result, w)

/-- Calls that share a store. -/
structure Office (ι : Type) where
  world : World ι
  callers : List Caller

/-- Calls for these elections and states that have just been made. -/
def Office.start (server : Server) (calls : List (CStr bbIdLen × BbState)) : Office ι where
  world := ⟨server, none, [], default⟩
  callers := calls.map fun (eid, target) => ⟨eid, target, .ready⟩

/-- The next `db_exec` of the `i`-th caller. -/
def Office.step (o : Office ι) (i : ℕ) : Office ι :=
  match o.callers[i]? with
  | none => o
  | some c => ⟨(c.step ch o.world).2, o.callers.set i { c with phase := (c.step ch o.world).1 }⟩

/-- An interleaving: the callers in the order of their turns. -/
def Office.run (o : Office ι) (turns : List ℕ) : Office ι := turns.foldl (Office.step ch) o

/-- How a call of `bb_transition_state` ends. -/
def transitionOutcome (eid : CStr bbIdLen) (target : BbState) (w : World ι) : Phase × World ι :=
  match bbTransitionState ch eid target w with
  | .ok _ w' => (.finished .ok, w')
  | .error e w' => (.finished (.err e), w')

/-- A caller that is not interrupted is a call of `bb_transition_state`. -/
theorem transition_of_steps (eid : CStr bbIdLen) (target : BbState) (w : World ι) :
    let first := Caller.step ch ⟨eid, target, .ready⟩ w
    Caller.step ch ⟨eid, target, first.1⟩ first.2 = transitionOutcome ch eid target w := by
  unfold transitionOutcome bbTransitionState
  cases hget : dbExec ch (.getElection eid) w with
  | error e w' => simp [Caller.step, Caller.read, hget, bind, EStateM.bind]
  | ok res w' =>
    cases hfound : res.found with
    | false =>
      simp [Caller.step, Caller.read, hget, hfound, bind, EStateM.bind, throw, throwThe,
        MonadExceptOf.throw, EStateM.throw]
    | true =>
      cases hlegal : bbIsLegalTransition res.election.state target with
      | false =>
        simp [Caller.step, Caller.read, hget, hfound, hlegal, bind, EStateM.bind, throw, throwThe,
          MonadExceptOf.throw, EStateM.throw, bbLog, modify, modifyGet, MonadStateOf.modifyGet,
          EStateM.modifyGet]
      | true =>
        cases hupd : dbExec ch (.updateState eid target) w' with
        | error e w'' =>
          simp [Caller.step, Caller.read, Caller.write, hget, hfound, hlegal, hupd, bind,
            EStateM.bind]
        | ok out w'' =>
          simp [Caller.step, Caller.read, Caller.write, hget, hfound, hlegal, hupd, bind,
            EStateM.bind, pure, EStateM.pure]

end BallotBox
