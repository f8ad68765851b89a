import BallotBox.Construction.Interleaving
import BallotBox.Properties.Support.Tallies

/-!
# The lifecycle under concurrent administrators

A call of `bb_transition_state` moves an election one step from `DRAFT` to `PUBLISHED`, unless
somebody else does between its read and its write: a late write can take an election back
(`late_write_reopens`).
-/

namespace BallotBox

/-! ## Orderly steps -/

/-- The state stays, or moves one step. -/
def ElectionRow.forward (r r' : ElectionRow) : Bool :=
  r'.readState = r.readState ||
    match r.readState, r'.readState with
    | some s, some s' => bbIsLegalTransition s s'
    | _, _ => false

/-- Every election row after a step comes from one with its id in the same state or in the state
before. -/
def Tables.Forward (t t' : Tables) : Prop :=
  ∀ r' ∈ t'.elections, ∃ r ∈ t.elections, r.id.bytes = r'.id.bytes ∧ r.forward r' = true

instance (t t' : Tables) : Decidable (t.Forward t') :=
  inferInstanceAs (Decidable (∀ r' ∈ t'.elections, ∃ r ∈ t.elections, _ ∧ _))

lemma Tables.Forward.refl (t : Tables) : t.Forward t :=
  fun r hr => ⟨r, hr, rfl, by simp [ElectionRow.forward]⟩

lemma eq_of_legal {s s' target : BbState} (h : bbIsLegalTransition s target = true)
    (h' : bbIsLegalTransition s' target = true) : s' = s := by
  cases s <;> cases s' <;> cases target <;> simp_all [bbIsLegalTransition]

/-- The election is in the state that was read, or already in the one to be written. -/
def Tables.StillAt (t : Tables) (eid : Bytes) (source target : BbState) : Prop :=
  ∃ r ∈ t.electionsOf eid, r.readState = some source ∨ r.readState = some target

instance (t : Tables) (eid : Bytes) (source target : BbState) :
    Decidable (t.StillAt eid source target) :=
  inferInstanceAs (Decidable (∃ r ∈ t.electionsOf eid, _ ∨ _))

/-- A write that takes effect is orderly exactly if the election is still where it was read, or
already in the new state. -/
lemma forward_setElection_iff {t : Tables} {r' : ElectionRow} {eid :
    Bytes} {source target : BbState}
    (hid : r'.id.bytes = eid) (hstate : r'.state.bytes = bbStateStr target)
    (hlegal : bbIsLegalTransition source target = true) :
    t.Forward (t.setElection r') ↔ t.StillAt eid source target := by
  have hread : r'.readState = some target := readState_of_stateStr hstate
  constructor
  · intro h
    obtain ⟨r, hr, hrid, hforward⟩ := h r' ((mem_upsert _).mpr (.inl rfl))
    have hmem : r ∈ t.electionsOf eid := by simp [Tables.electionsOf, hr, hrid, hid]
    refine ⟨r, hmem, ?_⟩
    rw [ElectionRow.forward, hread] at hforward
    cases hs : r.readState with
    | none => simp [hs] at hforward
    | some s =>
      rw [hs] at hforward
      rcases Bool.or_eq_true_iff.mp hforward with heq | hstep
      · exact .inr (of_decide_eq_true heq).symm
      · exact .inl (congrArg some (eq_of_legal hlegal hstep))
  · rintro ⟨r, hr, hs⟩ x hx
    obtain ⟨hr, hrid⟩ : r ∈ t.elections ∧ r.id.bytes = eid := by
      simpa [Tables.electionsOf] using hr
    rcases (mem_upsert _).mp hx with rfl | ⟨hx, -⟩
    · refine ⟨r, hr, hrid.trans hid.symm, ?_⟩
      rcases hs with hs | hs
      · simp [ElectionRow.forward, hs, hread, hlegal]
      · simp [ElectionRow.forward, hs, hread]
    · exact Tables.Forward.refl t x hx

/-! ## One turn -/

/-- Whoever is about to write has read a state from which the step is legal. -/
def Office.Checked (o : Office Unit) : Prop :=
  o.world.txnConn = none ∧ ∀ c ∈ o.callers, ∀ source, c.phase = .decided source →
    bbIsLegalTransition source c.target = true

lemma Caller.read_spec (c : Caller) {w : World Unit} (hw : w.txnConn = none) :
    (c.read direct w).2.txnConn = none ∧ (c.read direct w).2.server.store = w.server.store ∧
    ∀ source, (c.read direct w).1 = .decided source →
      bbIsLegalTransition source c.target = true := by
  have hx : Triple (World.Idle w.server.store w.resp) (dbExec direct (.getElection c.eid)) _ _ :=
    dbExec_idle (.getElection c.eid)
  have hidle : World.Idle w.server.store w.resp w := ⟨hw, rfl, rfl⟩
  unfold Caller.read
  cases hrun : dbExec direct (.getElection c.eid) w with
  | error e w' =>
    have hw' := (hx.of_error hidle hrun).2
    exact ⟨hw'.1, hw'.2.1, by simp⟩
  | ok res w' =>
    obtain ⟨t', ⟨rfl, -⟩, hw'⟩ := hx.of_ok hidle hrun
    dsimp only
    split_ifs with hfound hlegal
    · exact ⟨hw'.1, hw'.2.1, by simp⟩
    · exact ⟨hw'.1, hw'.2.1, by simp⟩
    · refine ⟨hw'.1, hw'.2.1, ?_⟩
      rintro source ⟨⟩
      simpa using hlegal

lemma Caller.write_spec (c : Caller) {w : World Unit} (hw : w.txnConn = none) :
    (c.write direct w).2.txnConn = none ∧
    (∃ result, (c.write direct w).1 = .finished result) ∧
    ((c.write direct w).2.server.store = w.server.store ∨
      ∃ r', r'.id.bytes = c.eid.bytes ∧ r'.state.bytes = bbStateStr c.target ∧
        (c.write direct w).2.server.store = w.server.store.setElection r') := by
  have hx : Triple (World.Idle w.server.store w.resp)
      (dbExec direct (.updateState c.eid c.target)) _ _ := dbExec_idle (.updateState c.eid c.target)
  have hidle : World.Idle w.server.store w.resp w := ⟨hw, rfl, rfl⟩
  unfold Caller.write
  cases hrun : dbExec direct (.updateState c.eid c.target) w with
  | error e w' =>
    have hw' := (hx.of_error hidle hrun).2
    exact ⟨hw'.1, ⟨_, rfl⟩, .inl hw'.2.1⟩
  | ok res w' =>
    obtain ⟨t', ⟨r, r', hr, hmoves, rfl⟩, hw'⟩ := hx.of_ok hidle hrun
    refine ⟨hw'.1, ⟨_, rfl⟩, .inr ⟨r', ?_, hmoves.state, hw'.2.1⟩⟩
    rw [hmoves.id]
    exact of_decide_eq_true (List.mem_filter.mp hr).2

/-- If it is about to write, the caller finds the election where it has read it. -/
def Office.MayTurn (o : Office Unit) (i : ℕ) : Prop :=
  ∀ c, o.callers[i]? = some c → ∀ source, c.phase = .decided source →
    o.world.server.store.StillAt c.eid.bytes source c.target

instance (o : Office Unit) (i : ℕ) : Decidable (o.MayTurn i) :=
  match hc : o.callers[i]? with
  | none => .isTrue (by simp [Office.MayTurn, hc])
  | some c =>
    match hphase : c.phase with
    | .ready => .isTrue (by simp [Office.MayTurn, hc, hphase])
    | .finished _ => .isTrue (by simp [Office.MayTurn, hc, hphase])
    | .decided source =>
      decidable_of_iff (o.world.server.store.StillAt c.eid.bytes source c.target)
        (by simp [Office.MayTurn, hc, hphase])

lemma Office.Checked.set {o : Office Unit} (h : o.Checked) {i : ℕ} {c : Caller} {phase : Phase}
    {w : World Unit} (hw : w.txnConn = none)
    (hphase : ∀ source, phase = .decided source → bbIsLegalTransition source c.target = true) :
    Office.Checked ⟨w, o.callers.set i { c with phase := phase }⟩ := by
  refine ⟨hw, fun c' hc' source hsource => ?_⟩
  rcases List.mem_or_eq_of_mem_set hc' with hc' | rfl
  · exact h.2 c' hc' source hsource
  · exact hphase source hsource

lemma Office.Checked.step {o : Office Unit} (h : o.Checked) (i : ℕ) :
    (o.step direct i).Checked ∧ (o.MayTurn i →
      o.world.server.store.Forward (o.step direct i).world.server.store) := by
  unfold Office.step
  cases hi : o.callers[i]? with
  | none => exact ⟨h, fun _ => .refl _⟩
  | some c =>
    have hc : c ∈ o.callers := List.mem_of_getElem? hi
    cases hphase : c.phase with
    | ready =>
      obtain ⟨htxn, hstore, hlegal⟩ := c.read_spec h.1
      have hstep : c.step direct o.world = c.read direct o.world := by rw [Caller.step, hphase]
      simp only [hstep]
      exact ⟨h.set htxn hlegal, fun _ => hstore.symm ▸ .refl _⟩
    | decided source =>
      obtain ⟨htxn, ⟨result, hresult⟩, hstore⟩ := c.write_spec h.1
      have hstep : c.step direct o.world = c.write direct o.world := by rw [Caller.step, hphase]
      simp only [hstep]
      refine ⟨h.set htxn (by simp [hresult]), fun hturn => ?_⟩
      rcases hstore with hstore | ⟨r', hid, hstate, hstore⟩
      · exact hstore.symm ▸ .refl _
      · rw [hstore]
        exact (forward_setElection_iff hid hstate (h.2 c hc source hphase)).mpr
          (hturn c hi source hphase)
    | finished result =>
      have hstep : c.step direct o.world = (.finished result, o.world) := by
        rw [Caller.step, hphase]
      simp only [hstep]
      exact ⟨h.set h.1 (by simp), fun _ => .refl _⟩

/-! ## Interleavings -/

lemma Office.checked_run (server : Server) (calls : List (CStr bbIdLen × BbState))
    (turns : List ℕ) : ((Office.start server calls).run direct turns).Checked := by
  induction turns using List.reverseRecOn with
  | nil =>
    refine ⟨rfl, fun c hc source hsource => ?_⟩
    obtain ⟨call, -, rfl⟩ := List.mem_map.mp hc
    cases hsource
  | append_singleton turns i ih =>
    rw [Office.run, List.foldl_append]
    exact (ih.step i).1

/-- In an interleaving in which every caller that writes still finds the state it has read, or
already the state it writes, every turn is orderly. -/
theorem interleaving_forward (server : Server) (calls : List (CStr bbIdLen × BbState))
    (turns : List ℕ) (hturns : ∀ before i, before ++ [i] <+: turns →
      ((Office.start server calls).run direct before).MayTurn i)
    (before : List ℕ) (i : ℕ) (hpre : before ++ [i] <+: turns) :
    ((Office.start server calls).run direct before).world.server.store.Forward
      ((Office.start server calls).run direct (before ++ [i])).world.server.store := by
  have hrun : (Office.start server calls).run direct (before ++ [i]) =
      ((Office.start server calls).run direct before).step direct i := by
    simp [Office.run]
  rw [hrun]
  exact ((Office.checked_run server calls before).step i).2 (hturns before i hpre)

/-! ## A late write -/

/-- One election in a given state. -/
def oneElection (state : Text) : Tables :=
  { Tables.empty with elections := [⟨JInt.one, ⟨ascii "E-1", by decide⟩,
      ⟨ascii "Board", by decide⟩, state, ⟨ascii "09:00", by decide⟩,
      ⟨ascii "17:00", by decide⟩⟩] }

def oneElectionId : CStr bbIdLen := .ofBytes (ascii "E-1")

/-- One draft, and a server that answers. -/
def draftServer : Server :=
  ⟨oneElection ⟨ascii "DRAFT", by decide⟩, fun _ => .ok .stored, 0, []⟩

/-- Two callers that both want to open the election. -/
def openingOffice : Office Unit :=
  .start draftServer [(oneElectionId, .opened), (oneElectionId, .opened)]

/-- Both read the draft, and the second writes what the first has written. -/
theorem opening_forward :
    (openingOffice.run direct [0, 1, 0]).world.server.store.Forward
      (openingOffice.run direct [0, 1, 0, 1]).world.server.store := by
  refine interleaving_forward draftServer [(oneElectionId, .opened), (oneElectionId, .opened)]
    [0, 1, 0, 1] ?_ [0, 1, 0] 1 (List.prefix_refl _)
  rintro before i hpre
  obtain ⟨n, hn, rfl, rfl⟩ := exists_take_of_snoc hpre
  change n < 4 at hn
  interval_cases n <;> decide +kernel +revert

/-- Two callers read the draft; one opens the election, a third closes it, and then the other one
opens it again. -/
theorem late_write_reopens :
    let office := Office.start draftServer
      [(oneElectionId, .opened), (oneElectionId, .opened), (oneElectionId, .closed)]
    (office.run direct [0, 1, 0, 2, 2]).world.server.store.state? (ascii "E-1") = some .closed ∧
    (office.run direct [0, 1, 0, 2, 2, 1]).world.server.store.state? (ascii "E-1") = some .opened ∧
    ¬ (office.run direct [0, 1, 0, 2, 2]).world.server.store.Forward
      (office.run direct [0, 1, 0, 2, 2, 1]).world.server.store := by
  decide +kernel

end BallotBox
