import BallotBox.Construction.Session

/-!
# Who reaches the ballot protocol

The gate opens on an account whose check returned 200, or on the method `GUEST` (`gate_opens`), so
requests of unauthenticated clients do get through (`guest_forwarded`).  Without a `GUEST` a
connection forwards only under a name that was checked.
-/

namespace BallotBox

variable {env : Accounts} {n : ℕ} {rx : Recv} {name : CStr maxUserName}
variable {g g' : Gate} {s : Session} {req : BclRequest}

/-! ## Frames at the gate -/

/-- The reception is a login or a registration whose account check returned 200, under this
folded name. -/
def Recv.ChecksAccount (env : Accounts) (n : ℕ) (rx : Recv) (name : CStr maxUserName) : Prop :=
  ∃ buf http user pass, rx = .frame buf ∧ htttpParseRequest buf = .ok http ∧
    reqBodySplit http.body = some (user, pass) ∧ userNameFold user = some name ∧
    (authMethodOf http = .login ∧ env.accountLogin n name pass = 200 ∨
      authMethodOf http = .register ∧ env.accountRegister n name pass = 200)

/-- A frame with the method `GUEST`. -/
def Recv.IsGuest (rx : Recv) : Prop :=
  ∃ buf http, rx = .frame buf ∧ htttpParseRequest buf = .ok http ∧ authMethodOf http = .guest

/-- The session has not been authenticated yet. -/
def Session.AtGate (s : Session) : Prop := ∃ spent g, s = .authenticating spent g

lemma enter_eq_ok {check : CStr maxUserName → Bytes → ℕ} {body : Bytes}
    (h : enter env n check body g = (200, g')) :
    ∃ user pass, reqBodySplit body = some (user, pass) ∧ userNameFold user = some g'.name ∧
      check g'.name pass = 200 := by
  unfold enter at h
  cases hsplit : reqBodySplit body with
  | none => simp [hsplit] at h
  | some p =>
    obtain ⟨user, pass⟩ := p
    cases hfold : userNameFold user with
    | none => simp [hsplit, hfold] at h
    | some name =>
      simp only [hsplit, hfold] at h
      split_ifs at h with hcheck hmint
      · exact absurd (congrArg Prod.fst h) hcheck
      · obtain rfl : { g with name := name } = g' := (Prod.mk.inj h).2
        exact ⟨user, pass, rfl, hfold, not_not.mp hcheck⟩
      · exact absurd (congrArg Prod.fst h) (by simp)

lemma gate_opens
    (h : authHandler env n rx g = (some 200, g')) : rx.ChecksAccount env n g'.name ∨
      rx.IsGuest := by
  cases rx with
  | broken => exact absurd (congrArg Prod.fst h) (by simp [authHandler])
  | garbled => exact absurd (congrArg Prod.fst h) (by simp [authHandler])
  | frame buf =>
    cases hparse : htttpParseRequest buf with
    | error e => exact absurd (congrArg Prod.fst h) (by simp [authHandler, hparse])
    | ok http =>
      cases hmethod : authMethodOf http with
      | none => exact absurd (congrArg Prod.fst h) (by simp [authHandler, hparse, hmethod])
      | guest => exact .inr ⟨buf, http, rfl, hparse, hmethod⟩
      | login =>
        have henter : enter env n (env.accountLogin n) http.body (authConfLoad env g) =
            (200, g') := by
          simpa [authHandler, hparse, hmethod, Prod.ext_iff] using h
        obtain ⟨user, pass, hsplit, hfold, hcheck⟩ := enter_eq_ok henter
        exact .inl ⟨buf, http, user, pass, rfl, hparse, hsplit, hfold, .inl ⟨hmethod, hcheck⟩⟩
      | register =>
        have henter : enter env n (env.accountRegister n) http.body (authConfLoad env g) =
            (200, g') := by
          simpa [authHandler, hparse, hmethod, Prod.ext_iff] using h
        obtain ⟨user, pass, hsplit, hfold, hcheck⟩ := enter_eq_ok henter
        exact .inl ⟨buf, http, user, pass, rfl, hparse, hsplit, hfold, .inr ⟨hmethod, hcheck⟩⟩

/-! ## Whole connections -/

lemma sessionAfter_append (env : Accounts) (rxs : List Recv) (rx : Recv) :
    sessionAfter env (rxs ++ [rx]) = (sessionStep env rxs.length rx (sessionAfter env rxs)).1 := by
  simp [sessionAfter, List.zipIdx_append]

lemma sessionStep_serving (h : (sessionStep env n rx s).1 = .serving name) :
    s = .serving name ∨ s.AtGate ∧ (rx.ChecksAccount env n name ∨ rx.IsGuest) := by
  cases s with
  | closed => simp [sessionStep] at h
  | serving certName =>
    cases rx with
    | broken => cases h
    | frame _ => exact .inl h
    | garbled => exact .inl h
  | authenticating spent g =>
    refine .inr ⟨⟨spent, g, rfl⟩, ?_⟩
    cases hauth : authHandler env n rx g with
    | mk status g' =>
      cases status with
      | none => simp [sessionStep, hauth] at h
      | some status =>
        simp only [sessionStep, hauth] at h
        split_ifs at h with hok
        obtain rfl : g'.name = name := by simpa using h
        exact gate_opens (hok ▸ hauth)

lemma sessionStep_forwards (h : (sessionStep env n rx s).2 = some req) :
    ∃ name buf, s = .serving name ∧ rx = .frame buf ∧ handleRequest name buf = some req := by
  cases s with
  | closed => cases h
  | serving name =>
    cases rx with
    | frame buf => exact ⟨name, buf, rfl, rfl, h⟩
    | broken => cases h
    | garbled => cases h
  | authenticating spent g =>
    cases hauth : authHandler env n rx g with
    | mk status g' =>
      cases status with
      | none => simp [sessionStep, hauth] at h
      | some status =>
        simp only [sessionStep, hauth] at h
        split_ifs at h

lemma serving_checked (rxs : List Recv) (hguest : ∀ before rx,
      before ++ [rx] <+: rxs → (sessionAfter env before).AtGate → ¬ rx.IsGuest)
    (h : sessionAfter env rxs = .serving name) :
    ∃ (k : ℕ) (rx : Recv), rxs[k]? = some rx ∧ rx.ChecksAccount env k name := by
  induction rxs using List.reverseRecOn with
  | nil => cases h
  | append_singleton rxs rx ih =>
    rw [sessionAfter_append] at h
    obtain hserving | ⟨hgate, hchecks | hisGuest⟩ := sessionStep_serving h
    · obtain ⟨k, rx', hk, hchecks⟩ := ih
        (fun before rx' hpre => hguest before rx' (hpre.trans (List.prefix_append _ _))) hserving
      have hlt : k < rxs.length := (List.getElem?_eq_some_iff.mp hk).1
      exact ⟨k, rx', by rwa [List.getElem?_append_left hlt], hchecks⟩
    · exact ⟨rxs.length, rx, by simp, hchecks⟩
    · exact absurd hisGuest (hguest rxs rx (List.prefix_refl _) hgate)

lemma stamp_names (req : BclRequest) (name : CStr maxUserName) :
    (req.stamp name).certName.bytes = name.bytes ∧
    (req.stamp name).ballot.certName.bytes = name.bytes := by
  have hfits : name.bytes.length ≤ 15 := name.fits
  have hname : (CStr.ofBytes name.bytes : CStr bbCertLen).bytes = name.bytes :=
    CStr.ofBytes_bytes (hfits.trans (by norm_num)) name.noNul
  exact ⟨hname, hname⟩

lemma handleRequest_eq_some {buf : Bytes} (h : handleRequest name buf = some req) :
    ∃ http req₀, htttpParseRequest buf = .ok http ∧ bclDecodeRequest http = some req₀ ∧
      isVoterOp req₀.op = true ∧ req = req₀.stamp name := by
  unfold handleRequest at h
  cases hparse : htttpParseRequest buf with
  | error e => simp [hparse, Except.toOption] at h
  | ok http =>
    cases hdecode : bclDecodeRequest http with
    | none => simp [hparse, hdecode, Except.toOption] at h
    | some req₀ =>
      have hif : (if isVoterOp req₀.op then some (req₀.stamp name) else none) = some req := by
        simpa [hparse, hdecode, Except.toOption] using h
      split_ifs at hif with hop
      exact ⟨http, req₀, rfl, hdecode, hop, (Option.some.inj hif).symm⟩

/-- On a connection that sends no `GUEST` while it is at the gate, every forwarded request comes
after a login or a registration whose account check returned 200, and carries that account's name
in both its name fields. -/
theorem forwarded_under_checked_name (env : Accounts) (rxs : List Recv)
    (hguest : ∀ before rx, before ++ [rx] <+: rxs → (sessionAfter env before).AtGate →
      ¬ rx.IsGuest)
    (rx : Recv) (req : BclRequest) (hreq : forwards env rxs rx = some req) :
    ∃ (k : ℕ) (login : Recv) (name : CStr maxUserName), rxs[k]? = some login ∧
      login.ChecksAccount env k name ∧
      req.certName.bytes = name.bytes ∧ req.ballot.certName.bytes = name.bytes := by
  obtain ⟨name, buf, hserving, -, hbuf⟩ := sessionStep_forwards hreq
  obtain ⟨k, login, hk, hchecks⟩ := serving_checked rxs hguest hserving
  obtain ⟨http, req₀, -, -, -, rfl⟩ := handleRequest_eq_some hbuf
  exact ⟨k, login, name, hk, hchecks, stamp_names req₀ name⟩

/-! ## A guest -/

/-- Every login and registration succeeds. -/
def openAccounts : Accounts := ⟨none, fun _ _ _ => 200, fun _ _ _ => 200, fun _ _ => true⟩

def bareFrame (line : String) : Bytes := ascii line ++ crlf ++ crlf

def loginFrame : Bytes :=
  ascii "LOGIN / HTTTP/1.0" ++ crlf ++ ascii "Content-Length: 12" ++ crlf ++ crlf ++
    ascii "Ada" ++ [lf] ++ ascii "password"

def joinFrame : Bytes :=
  ascii "JOIN /election/E-1 HTTTP/1.0" ++ crlf ++ ascii "Cert-Name: bob" ++ crlf ++ crlf

def joinRequest (name : String) : BclRequest :=
  ⟨.join, .ofBytes (ascii name), .ofBytes (ascii "E-1"),
    { (default : BbBallot) with certName := .ofBytes (ascii name) }, default, default⟩

theorem login_forwarded :
    ∃ (k : ℕ) (login : Recv) (name : CStr maxUserName), [Recv.frame loginFrame][k]? = some login ∧
      login.ChecksAccount openAccounts k name ∧
      (joinRequest "ada").certName.bytes = name.bytes ∧
      (joinRequest "ada").ballot.certName.bytes = name.bytes := by
  refine forwarded_under_checked_name openAccounts [.frame loginFrame] ?_ (.frame joinFrame) _
    (by decide +kernel)
  rintro before rx hpre - ⟨buf, http, rfl, hparse, hguest⟩
  have hlogin : (htttpParseRequest loginFrame).toOption.map authMethodOf = some .login := by
    decide +kernel
  obtain ⟨rest, hrest⟩ := hpre
  obtain ⟨rfl, hbuf⟩ : before = [] ∧ buf = loginFrame := by
    cases before with
    | nil => simpa using (List.cons.inj hrest).1
    | cons _ _ => simp at hrest
  rw [hbuf] at hparse
  simp [hparse, Except.toOption, hguest] at hlogin

/-- A client that never logged in has its request forwarded, without a name. -/
theorem guest_forwarded :
    forwards openAccounts [.frame (bareFrame "GUEST / HTTTP/1.0")] (.frame joinFrame) =
      some (joinRequest "") ∧
    ∀ (k : ℕ) (login : Recv) (name : CStr maxUserName),
      [Recv.frame (bareFrame "GUEST / HTTTP/1.0")][k]? = some login →
      ¬ login.ChecksAccount openAccounts k name := by
  refine ⟨by decide +kernel, ?_⟩
  rintro k login name hk ⟨buf, http, user, pass, rfl, hparse, -, -, hmethod⟩
  have hguest : (htttpParseRequest (bareFrame "GUEST / HTTTP/1.0")).toOption.map authMethodOf =
      some .guest := by
    decide +kernel
  have hbuf : buf = bareFrame "GUEST / HTTTP/1.0" := by
    cases k with
    | zero => simpa using hk.symm
    | succ k => simp at hk
  rw [hbuf] at hparse
  rcases hmethod with ⟨hmethod, -⟩ | ⟨hmethod, -⟩ <;>
    simp [hparse, Except.toOption, hmethod] at hguest

end BallotBox
