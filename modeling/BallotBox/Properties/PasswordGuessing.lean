import BallotBox.Construction.AuthRetry

/-!
# Password guessing is bounded

`auth_retry_handler` counts statuses, not checks: a 400 is free.  The count bounds the checks
because no check that reaches the store has the status 400 (`status_ne_400`);
`Retry.sessionStep_round` relates a round to a step of the connection in `Construction/Session`.
-/

namespace BallotBox

variable {gate : Gate} {s s' : Retry} {limit : ℕ}

open Process

/-! ## The statuses of the account functions -/

lemma parseLoginDbResult_error {st : DbStatus} {body : Bytes} {status : ℕ}
    (h : parseLoginDbResult st body = .error status) : status = 500 ∨ status = 404 := by
  unfold parseLoginDbResult at h
  grind

lemma loginReplied_status (pass : Bytes) (st : DbStatus) (body : Bytes) :
    Always (·.1 ≠ 400) (loginReplied pass st body) := by
  unfold loginReplied
  cases hparse : parseLoginDbResult st body with
  | error status =>
    have hstatus := parseLoginDbResult_error hparse
    exact .pure (by dsimp only; omega)
  | ok row =>
    refine .bind fun want => ?_
    cases want with
    | none => exact .pure (by decide)
    | some want =>
      by_cases heq : hexEncode want.toList = row.digestHex
      · simpa [heq] using .pure (by simp)
      · simpa [heq] using .pure (by simp)

lemma accountLogin_status (name : CStr maxUserName) (pass : Bytes) :
    Always (·.1 ≠ 400) (accountLogin name pass) := by
  refine .bind fun connected => ?_
  cases connected with
  | true =>
    refine .bind fun reply => .bind fun _ => ?_
    exact loginReplied_status pass reply.1 reply.2
  | false => exact .pure (by decide)

lemma registerAttempts_status (name saltHex digestHex : Bytes) (iters : ℤ) (n : ℕ) :
    Always (·.1 ≠ 400) (registerAttempts name saltHex digestHex iters n) := by
  induction n with
  | zero => exact .pure (by decide)
  | succ n ih =>
    refine .bind fun ⟨st, taken, id⟩ => ?_
    by_cases hretry : st = .retry
    · simpa [hretry] using ih
    · by_cases hok : st = .ok
      · cases taken <;> simpa [hok] using .pure (by simp)
      · simpa [hretry, hok] using .pure (by simp)

lemma registerConnected_status (name saltHex digestHex : Bytes) (iters : ℤ) :
    Always (·.1 ≠ 400) (registerConnected name saltHex digestHex iters) := by
  refine .bind fun connected => ?_
  cases connected with
  | true =>
    refine .bind_of (registerAttempts_status name saltHex digestHex iters 3) fun r hr => ?_
    exact .bind fun _ => .pure hr
  | false => exact .pure (by decide)

lemma accountRegister_status (args : RegArgs)
    (hlength : 8 ≤ args.pass.length ∧ args.pass.length ≤ 128) :
    Always (·.1 ≠ 400) (accountRegister args) := by
  unfold accountRegister
  rw [if_neg (by omega)]
  refine .bind fun salt => ?_
  cases salt with
  | none => exact .pure (by decide)
  | some salt =>
    refine .bind fun digest => ?_
    cases digest with
    | none => exact .pure (by decide)
    | some digest =>
      refine .bind fun acquired => ?_
      cases acquired with
      | true =>
        refine .bind_of (registerConnected_status _ _ _ _) fun r hr => ?_
        exact .bind fun _ => .pure hr
      | false => exact .pure (by decide)

lemma status_ne_400 (store : AccountStore) (n : ℕ) (call : AccountCall)
    (hreaches : call.reachesStore) : call.status store n ≠ 400 := by
  cases call with
  | login name pass => exact accountLogin_status name pass _ (store.login n name pass).property
  | register name pass =>
    have hlength : 8 ≤ pass.length ∧ pass.length ≤ 128 := by
      simpa [AccountCall.reachesStore] using hreaches
    exact accountRegister_status _ hlength _ (store.register n name pass).property

/-! ## One attempt -/

lemma sessionRecv_accepted (cap : ℕ) (stream : List WireFrame) :
    (sessionRecv cap .accepted stream).1 ∈ [.io, .tooBig] ∨
      ∃ frame, stream = frame :: (sessionRecv cap .accepted stream).2.2 ∧
        (sessionRecv cap .accepted stream).2.1 = .accepted := by
  cases stream with
  | nil => simp [sessionRecv, SessionHandle.accepted]
  | cons frame rest => cases frame <;> simp [sessionRecv, SessionHandle.accepted]

/-- The number of attempts that will be granted. -/
def Gate.configured (store : AccountStore) (gate : Gate) : ℕ :=
  (authConfLoad store.accounts gate).maxAttempts

lemma Gate.configured_of_frozen (store : AccountStore) (hfrozen : gate.frozen) :
    gate.configured store = gate.maxAttempts := by
  simp [configured, authConfLoad, hfrozen]

lemma Gate.one_le_configured (store : AccountStore) (hfrozen : ¬ gate.frozen) :
    1 ≤ gate.configured store := by
  simp only [configured, authConfLoad, hfrozen, authDefaultMaxAttempts]
  grind

lemma authSessionParser_cases (store : AccountStore) (rc : SessionRc) (gate : Gate) :
    (∃ status, authSessionParser store rc gate = (.error status, gate)) ∨
      authSessionParser store rc gate = (.error 200, { gate with name := default }) ∨
      (authSessionParser store rc gate).2 = authConfLoad store.accounts gate := by
  unfold authSessionParser
  split
  case h_6 buf =>
    split
    · exact .inl ⟨_, rfl⟩
    · split
      · exact .inr (.inl rfl)
      · exact .inl ⟨_, rfl⟩
      · exact .inr (.inr (by split <;> rfl))
  all_goals exact .inl ⟨_, rfl⟩

lemma authConfLoad_frozen (env : Accounts) (gate : Gate) : (authConfLoad env gate).frozen := by
  unfold authConfLoad
  split_ifs with hfrozen
  · exact hfrozen
  · rfl

lemma authSessionParser_gate (store : AccountStore) (rc : SessionRc) (gate : Gate) :
    (authSessionParser store rc gate).2.configured store = gate.configured store ∧
      (gate.frozen → (authSessionParser store rc gate).2.frozen) ∧
      ∀ parsed, (authSessionParser store rc gate).1 = .ok parsed →
        (authSessionParser store rc gate).2.frozen := by
  obtain ⟨status, heq⟩ | heq | heq := authSessionParser_cases store rc gate
  · simp [heq]
  · simp [heq, Gate.configured, authConfLoad, apply_ite Gate.maxAttempts]
  · have hfrozen := authConfLoad_frozen store.accounts gate
    rw [heq]
    exact ⟨Gate.configured_of_frozen store hfrozen, fun _ => hfrozen, fun _ _ => hfrozen⟩

lemma authSessionParser_broken (store : AccountStore) (rc : SessionRc) (gate : Gate)
    (hbroken : rc ∈ [.io, .tooBig]) : authSessionParser store rc gate = (.error (-1), gate) := by
  obtain rfl | rfl : rc = .io ∨ rc = .tooBig := by simpa using hbroken
  · rfl
  · rfl

namespace Retry

variable {store : AccountStore}

/-- What one attempt on a session that is set up may do. -/
structure Attempted (store : AccountStore) (s : Retry) (status : ℤ) (s' : Retry) : Prop where
  spent_eq : s'.spent = s.spent
  statuses_eq : s'.statuses = s.statuses
  consumes : 0 ≤ status → (∃ frame, s.stream = frame :: s'.stream) ∧ s'.sh = .accepted
  configured_eq : s'.gate.configured store = s.gate.configured store
  frozen : s.gate.frozen → s'.gate.frozen
  counted : s'.checks.length ≤ s.checks.length ∨
    s'.checks.length ≤ s.checks.length + 1 ∧ s'.gate.frozen ∧ status ≠ 400

lemma check_cases (store : AccountStore) (s : Retry) (call : AccountCall)
    (name : CStr maxUserName) :
    ∃ (status : ℤ) (certName : CStr maxUserName), s.check store call name =
        (status, { s with calls := s.calls ++ [call], gate := { s.gate with name := certName } }) ∧
      (call.reachesStore → status ≠ 400) := by
  have hstatus := status_ne_400 store s.statuses.length call
  unfold check
  dsimp only
  split_ifs with hok hmint
  · exact ⟨_, s.gate.name, rfl, fun h => by exact_mod_cast hstatus h⟩
  · exact ⟨_, name, rfl, fun _ => by decide⟩
  · exact ⟨_, s.gate.name, rfl, fun _ => by decide⟩

lemma configured_name (gate : Gate) (name : CStr maxUserName) :
    ({ gate with name := name } : Gate).configured store = gate.configured store := by
  simp [Gate.configured, authConfLoad, apply_ite Gate.maxAttempts]

lemma check_attempted {s₀ : Retry} (h : Attempted store s₀ 0 s) (hcalls : s.calls = s₀.calls)
    (hfrozen : s.gate.frozen) (call : AccountCall) (name : CStr maxUserName) :
    Attempted store s₀ (s.check store call name).1 (s.check store call name).2 := by
  obtain ⟨status, certName, heq, hstatus⟩ := check_cases store s call name
  rw [heq]
  refine ⟨h.spent_eq, h.statuses_eq, fun _ => h.consumes le_rfl, ?_, fun _ => hfrozen, ?_⟩
  · exact (configured_name s.gate certName).trans h.configured_eq
  · by_cases hreaches : call.reachesStore
    · right
      simp [checks, hcalls, hreaches, hfrozen, hstatus]
    · left
      simp [checks, hcalls, hreaches]

lemma attempt_attempted (store : AccountStore) (s : Retry) (hlive : s.sh = .accepted) :
    Attempted store s (s.attempt store).1 (s.attempt store).2 := by
  have hrecv := sessionRecv_accepted sessionMaxFrame s.stream
  unfold attempt
  rw [hlive]
  generalize sessionRecv sessionMaxFrame .accepted s.stream = received at hrecv
  obtain ⟨rc, sh, stream⟩ := received
  have hgate := authSessionParser_gate store rc s.gate
  have hbroken := authSessionParser_broken store rc s.gate
  dsimp only at hrecv ⊢
  generalize authSessionParser store rc s.gate = result at hgate hbroken
  obtain ⟨parsed, gate⟩ := result
  obtain ⟨hconfigured, hmono, hloaded⟩ := hgate
  dsimp only
  -- before a check, only the frame is gone and the settings may have been loaded
  have hbefore : ∀ status : ℤ, (0 ≤ status → rc ∉ [.io, .tooBig]) →
      Attempted store s status { s with sh := sh, stream := stream, gate := gate } := by
    intro status hstatus
    refine ⟨rfl, rfl, fun hnonneg => ?_, hconfigured, hmono, .inl le_rfl⟩
    obtain ⟨frame, hstream, hsh⟩ := hrecv.resolve_left (hstatus hnonneg)
    exact ⟨⟨frame, hstream⟩, hsh⟩
  cases parsed with
  | error status =>
    refine hbefore status fun hnonneg hmem => ?_
    obtain ⟨hstatus, -⟩ := Prod.mk.inj (hbroken hmem)
    cases hstatus
    omega
  | ok parsed =>
    have hgood : rc ∉ [.io, .tooBig] := by
      intro hmem
      cases (Prod.mk.inj (hbroken hmem)).1
    obtain ⟨method, user, pass⟩ := parsed
    have hcheck := check_attempted (hbefore 0 fun _ => hgood) rfl (hloaded _ rfl)
    dsimp only
    cases userNameFold user with
    | none => exact hbefore 400 fun _ => hgood
    | some name =>
      cases method with
      | login => exact hcheck (.login name pass) name
      | register => exact hcheck (.register name pass) name
      | none => exact hbefore 500 fun _ => hgood
      | guest => exact hbefore 500 fun _ => hgood

/-! ## The machine of `Construction/Session` -/

/-- A received frame as `Construction/Session` sees it. -/
def received : SessionRc → Recv
  | .ok plain => .frame plain
  | .io | .tooBig => .broken
  | .crypto | .noSpace | .proto => .garbled

def statusOf (status : ℤ) : Option ℕ := if status < 0 then none else some status.toNat

lemma check_eq_enter (s : Retry) (call : AccountCall) {check : CStr maxUserName → Bytes → ℕ}
    {body user pass : Bytes} {name : CStr maxUserName}
      (hbody : reqBodySplit body = some (user, pass))
    (hname : userNameFold user = some name)
    (hcheck : check name pass = call.status store s.statuses.length) :
    (enter store.accounts s.statuses.length check body s.gate).map some id =
      (statusOf (s.check store call name).1, (s.check store call name).2.gate) := by
  unfold enter Retry.check
  rw [hbody]
  dsimp only
  rw [hname]
  dsimp only
  rw [hcheck]
  split_ifs <;> simp_all [statusOf, AccountStore.accounts]

lemma authHandler_attempt (store : AccountStore) (s : Retry) :
    authHandler store.accounts s.statuses.length
        (received (sessionRecv sessionMaxFrame s.sh s.stream).1) s.gate =
      (statusOf (s.attempt store).1, (s.attempt store).2.gate) := by
  unfold attempt
  generalize sessionRecv sessionMaxFrame s.sh s.stream = result
  obtain ⟨rc, sh, stream⟩ := result
  dsimp only
  cases rc with
  | ok buf =>
    unfold authHandler authSessionParser
    dsimp only [received]
    cases htttpParseRequest buf with
    | error e => rfl
    | ok req =>
      let loaded : Retry :=
        { s with sh := sh, stream := stream, gate := authConfLoad store.accounts s.gate }
      dsimp only
      cases authMethodOf req with
      | none => rfl
      | guest => rfl
      | login | register =>
        cases hbody : reqBodySplit req.body with
        | none => simp [enter, hbody, statusOf]
        | some parts =>
          obtain ⟨user, pass⟩ := parts
          cases hname : userNameFold user with
          | none => simp [enter, hbody, hname, statusOf]
          | some name =>
            simp only [hname]
            exact check_eq_enter loaded _ hbody hname rfl
  | _ => rfl

/-! ## The loop -/

/-- What holds whenever the body of the loop is started. -/
structure Bounded (store : AccountStore) (limit : ℕ) (s : Retry) : Prop where
  live : s.sh = .accepted
  configured_eq : s.gate.configured store = limit
  checks_le_spent : s.checks.length ≤ s.spent
  checks_le : s.checks.length ≤ limit
  /-- The settings are loaded before the first check. -/
  loaded : s.checks ≠ [] → s.gate.frozen
  pending : 200 ∉ s.statuses

lemma Bounded.start (store : AccountStore) (stream : List WireFrame) (gate : Gate) :
    Bounded store (gate.configured store) (start stream gate) where
  live := rfl
  configured_eq := rfl
  checks_le_spent := le_rfl
  checks_le := Nat.zero_le _
  loaded := fun h => absurd rfl h
  pending := List.not_mem_nil

/-- The status is noted. -/
def record (s : Retry) (status : ℤ) : Retry := { s with statuses := s.statuses ++ [status] }

lemma round_of_lt (store : AccountStore) (hlt : s.spent < s.gate.maxAttempts) : s.round store =
      if (s.attempt store).1 = 200 then .leave .ok ((s.attempt store).2.record (s.attempt store).1)
      else if (s.attempt store).1 < 0 then
        .leave .drop ((s.attempt store).2.record (s.attempt store).1)
      else .again { (s.attempt store).2.record (s.attempt store).1 with
        spent := if (s.attempt store).1 ≠ 400 then (s.attempt store).2.spent + 1
          else (s.attempt store).2.spent } := by
  rw [round, if_neg (by omega)]
  rfl

lemma sessionStep_round (store : AccountStore) (hlive : s.sh = .accepted)
    (hlt : s.spent < s.gate.maxAttempts) :
    (sessionStep store.accounts s.statuses.length
        (received (sessionRecv sessionMaxFrame s.sh s.stream).1)
        (.authenticating s.spent s.gate)).1 =
      match s.round store with
      | .again s' => if s'.spent < s'.gate.maxAttempts then .authenticating s'.spent s'.gate
          else .closed
      | .leave .ok final => .serving final.gate.name
      | .leave .drop _ => .closed := by
  have hspent := (attempt_attempted store s hlive).spent_eq
  unfold sessionStep
  dsimp only
  rw [authHandler_attempt, round_of_lt store hlt]
  generalize s.attempt store = attempted at hspent
  obtain ⟨status, s'⟩ := attempted
  dsimp only at hspent ⊢
  by_cases hneg : status < 0
  · rw [if_neg (by omega), if_pos hneg, statusOf, if_pos hneg]
  · rw [statusOf, if_neg hneg, if_neg hneg]
    obtain ⟨n, rfl⟩ := Int.eq_ofNat_of_zero_le (not_lt.mp hneg)
    simp only [Int.toNat_natCast]
    by_cases hok : n = 200
    · simp [hok, record]
    · have hok' : (n : ℤ) ≠ 200 := by omega
      by_cases hfree : n = 400
      · simp [hfree, record, hspent]
      · have hfree' : (n : ℤ) ≠ 400 := by omega
        simp [hok, hok', hfree, hfree', record, hspent]

lemma Bounded.attempt_le {status : ℤ} (h : Bounded store limit s)
    (hlt : s.spent < s.gate.maxAttempts) (hattempted : Attempted store s status s') :
    s'.checks.length ≤ limit := by
  have hle := h.checks_le
  have hspent := h.checks_le_spent
  obtain hsame | ⟨hone, hfrozen', -⟩ := hattempted.counted
  · omega
  · by_cases hfrozen : s.gate.frozen
    · have hmax := Gate.configured_of_frozen store hfrozen
      have hlimit := h.configured_eq
      omega
    · -- the settings were not loaded: this is the first check, and one is always allowed
      have hnone : s.checks = [] := by_contra fun hne => hfrozen (h.loaded hne)
      have hpos := Gate.one_le_configured store hfrozen
      have hlimit := h.configured_eq
      rw [hnone, List.length_nil] at hone
      omega

lemma Bounded.refused {status : ℤ} (h : Bounded store limit s)
    (hlt : s.spent < s.gate.maxAttempts) (hattempted : Attempted store s status s')
    (hok : status ≠ 200) (hnonneg : 0 ≤ status) :
    Bounded store limit { s'.record status with
      spent := if status ≠ 400 then s'.spent + 1 else s'.spent } where
  live := (hattempted.consumes hnonneg).2
  configured_eq := hattempted.configured_eq.trans h.configured_eq
  checks_le_spent := by
    have hspent := h.checks_le_spent
    have heq := hattempted.spent_eq
    show s'.checks.length ≤ if status ≠ 400 then s'.spent + 1 else s'.spent
    obtain hsame | ⟨hone, -, hcosts⟩ := hattempted.counted
    · split_ifs <;> omega
    · rw [if_pos hcosts]
      omega
  checks_le := show s'.checks.length ≤ limit from h.attempt_le hlt hattempted
  loaded := by
    intro hne
    obtain hsame | ⟨-, hfrozen, -⟩ := hattempted.counted
    · refine hattempted.frozen (h.loaded fun hnil => hne ?_)
      rw [hnil, List.length_nil] at hsame
      exact List.length_eq_zero_iff.mp (Nat.le_zero.mp hsame)
    · exact hfrozen
  pending := by
    simp [record, hattempted.statuses_eq, h.pending, Ne.symm hok]

lemma Bounded.round_cases (h : Bounded store limit s) :
    (∃ s', s.round store = .again s' ∧ Bounded store limit s' ∧
      ∃ frame, s.stream = frame :: s'.stream) ∨
    ∃ result final, s.round store = .leave result final ∧ final.checks.length ≤ limit ∧
      (result = .ok ↔ 200 ∈ final.statuses) := by
  by_cases hlt : s.spent < s.gate.maxAttempts
  · have hattempted := attempt_attempted store s h.live
    have hround := round_of_lt store hlt
    generalize s.attempt store = attempted at hattempted hround
    obtain ⟨status, s'⟩ := attempted
    dsimp only at hattempted hround
    have hle := h.attempt_le hlt hattempted
    have hpending := h.pending
    by_cases hok : status = 200
    · rw [if_pos hok] at hround
      exact .inr ⟨_, _, hround, hle, by simp [record, hok]⟩
    · rw [if_neg hok] at hround
      by_cases hneg : status < 0
      · rw [if_pos hneg] at hround
        refine .inr ⟨_, _, hround, hle, ?_⟩
        simp [record, hattempted.statuses_eq, hpending, Ne.symm hok]
      · rw [if_neg hneg] at hround
        refine .inl ⟨_, hround, h.refused hlt hattempted hok (by omega), ?_⟩
        exact (hattempted.consumes (by omega)).1
  · refine .inr ⟨.drop, s, ?_, h.checks_le, ?_⟩
    · rw [round, if_pos (by omega)]
    · simp [h.pending]

lemma Bounded.again (h : Bounded store limit s) (hagain : s.round store = .again s') :
    Bounded store limit s' ∧ ∃ frame, s.stream = frame :: s'.stream := by
  obtain ⟨t, ht, hbounded, hframe⟩ | ⟨result, final, hleave, -⟩ := h.round_cases
  · cases ht.symm.trans hagain
    exact ⟨hbounded, hframe⟩
  · cases hleave.symm.trans hagain

lemma Bounded.leave {final : Retry} {result : AuthResult} (h : Bounded store limit s)
    (hleave : s.round store = .leave result final) :
    final.checks.length ≤ limit ∧ (result = .ok ↔ 200 ∈ final.statuses) := by
  obtain ⟨t, ht, -⟩ | ⟨_, _, ht, hend⟩ := h.round_cases
  · cases ht.symm.trans hleave
  · cases ht.symm.trans hleave
    exact hend

lemma Bounded.of_reaches {stream : List WireFrame}
    (hreaches : Loop.Reaches (Retry.round store) (Retry.start stream gate) s) :
    Bounded store (gate.configured store) s :=
  hreaches.invariant (fun _ _ h hagain => (h.again hagain).1) (.start store stream gate)

end Retry

/-- Whatever frames the client sends and whatever the checks come to, `auth_retry_handler` returns;
at no time have more checks reached the store than attempts are configured; it leaves the loop at
the first success; and a round that does not return takes a frame off the stream. -/
theorem guesses_bounded (store : AccountStore) (stream : List WireFrame) (gate : Gate) :
    (∀ s, Loop.Reaches (Retry.round store) (.start stream gate) s →
      s.checks.length ≤ gate.configured store ∧ 200 ∉ s.statuses ∧
        ∀ s', s.round store = .again s' → ∃ frame, s.stream = frame :: s'.stream) ∧
    (∀ result final, Loop.Returns (Retry.round store) (.start stream gate) result final →
      final.checks.length ≤ gate.configured store ∧ (result = .ok ↔ 200 ∈ final.statuses)) ∧
    ∃ result final, Loop.Returns (Retry.round store) (.start stream gate) result final := by
  refine ⟨fun s hreaches => ?_, ?_, ?_⟩
  · have hbounded := Retry.Bounded.of_reaches hreaches
    exact ⟨hbounded.checks_le, hbounded.pending, fun s' hagain => (hbounded.again hagain).2⟩
  · rintro result final ⟨s, hreaches, hleave⟩
    exact (Retry.Bounded.of_reaches hreaches).leave hleave
  · refine Loop.exists_returns (fun _ _ h hagain => (h.again hagain).1) (fun s => s.stream.length)
      ?_ (Retry.Bounded.start store stream gate)
    intro s s' hbounded hagain
    obtain ⟨frame, hstream⟩ := (hbounded.again hagain).2
    simp [hstream]

/-- A store that cannot be reached: no login gets a connection, and no registration a salt. -/
def unreachableStore : AccountStore where
  maxAttempts := some 3
  pbkdf2Iters := 100000
  pid := 1
  login _ _ _ := ⟨(500, none), false, rfl⟩
  register _ _ pass :=
    if hlength : pass.length < 8 ∨ 128 < pass.length then
      ⟨(400, none), by
        rw [accountRegister, if_pos hlength]
        exact rfl⟩
    else
      ⟨(500, none), by
        rw [accountRegister, if_neg hlength]
        exact ⟨none, rfl⟩⟩
  tokenMint _ _ := false

example (name : CStr maxUserName) (pass : Bytes) :
    (AccountCall.login name pass).status unreachableStore 0 = 500 := rfl

end BallotBox
