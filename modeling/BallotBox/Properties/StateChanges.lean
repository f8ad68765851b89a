import BallotBox.Properties.Support.Messages
import BallotBox.Properties.Support.OwnConnection
import BallotBox.Properties.Support.Tallies

/-!
# A state change changes only the state

`BB_DB_UPDATE_STATE` reads the election row as text, deletes it and inserts it again.  If titles and
times fit their buffers and contain no tab, the row comes back as it was (`StateChanged`), also
after any number of changes.
-/

namespace BallotBox

open CStr List

/-- The texts of an election row fit their buffers and do not shift other columns. -/
structure ElectionRow.Fits (r : ElectionRow) : Prop where
  title : r.title.bytes.length < bbTitleLen ∧ tab ∉ r.title.bytes
  openTime : r.openTime.bytes.length < bbTimeLen ∧ tab ∉ r.openTime.bytes
  closeTime : r.closeTime.bytes.length < bbTimeLen ∧ tab ∉ r.closeTime.bytes

/-- Election ids are unique, and every row fits. -/
structure Tables.Tidy (t : Tables) : Prop where
  unique : (t.elections.map (·.id.bytes)).Nodup
  fits : ∀ r ∈ t.elections, r.Fits

/-- The tables `t'` are `t` with the one election row of that id in the state `s`. -/
structure StateChanged (eid : Bytes) (s : BbState) (t t' : Tables) : Prop where
  row : ∃ r r', t.electionsOf eid = [r] ∧ t'.electionsOf eid = [r'] ∧
    r'.state.bytes = bbStateStr s ∧
    r'.seq = r.seq ∧ r'.id = r.id ∧ r'.title = r.title ∧ r'.openTime = r.openTime ∧
    r'.closeTime = r.closeTime
  elections : t'.elections.filter (·.id.bytes ≠ eid) = t.elections.filter (·.id.bytes ≠ eid)
  others : t'.options = t.options ∧ t'.eligibles = t.eligibles ∧ t'.ballots = t.ballots ∧
    t'.owners = t.owners ∧ t'.nonces = t.nonces

lemma Tables.Tidy.electionsOf {t : Tables} (h : t.Tidy) (eid : Bytes) :
    t.electionsOf eid = [] ∨ ∃ r, t.electionsOf eid = [r] := by
  have hnodup : ((t.electionsOf eid).map (·.id.bytes)).Nodup :=
    h.unique.sublist (filter_sublist.map _)
  match hrows : t.electionsOf eid with
  | [] => exact .inl rfl
  | [r] => exact .inr ⟨r, rfl⟩
  | r :: r' :: rest =>
    have hid (x : ElectionRow) (hx : x ∈ t.electionsOf eid) : x.id.bytes = eid :=
      of_decide_eq_true (mem_filter.mp hx).2
    rw [hrows, map_cons, map_cons, hid r (by simp [hrows]), hid r' (by simp [hrows])] at hnodup
    simp at hnodup

/-! ## One change -/

abbrev ElectionRow.rest (r : ElectionRow) : Row :=
  [r.seq.render, r.title.bytes, r.openTime.bytes, r.closeTime.bytes]

lemma ElectionRow.Fits.readsBack {r : ElectionRow} (h : r.Fits) : ReadsBack 4 140 r.rest where
  arity := rfl
  fields := by
    simpa [JInt.render, clean_renderInt, Text.clean] using
      ⟨tab_notMem_render r.seq, h.title.2, h.openTime.2, h.closeTime.2⟩
  head := not_markEnd_render r.seq
  ne := by simp [ElectionRow.rest]
  line := by
    have hseq := r.seq.length_render_le
    have htitle : r.title.bytes.length < 64 := h.title.1
    have hopen : r.openTime.bytes.length < 32 := h.openTime.1
    have hclose : r.closeTime.bytes.length < 32 := h.closeTime.1
    simp only [tupleLine, ElectionRow.rest, intercalate_cons_eq, flatMap_cons,
      flatMap_nil, length_append, length_cons, length_nil]
    omega

variable {t store : Tables} {eid : CStr bbIdLen} {s : BbState}

lemma runUpdateState_clear (ht : t.Tidy) :
    Triple (Link.Clear False (some t) store) (runUpdateState wire eid s)
      (fun out l => ∃ t', DbCmd.Means t out t' (.updateState eid s) ∧
        l.Clear False (some t') store) (Link.Disturbed False store) := by
  have hread (m : List Row) (hm : m.Perm ((t.electionsOf eid.bytes).map ElectionRow.rest)) :
      wire.deliver bodyMax [] (.ok (.table (Stmt.selectElectionRest eid.bytes).desc m)) =
        ((.ok, some m), []) := by
    refine wire_deliver_small (n := 1) (k := 140) hm (fun row hrow => ?_) ?_ (by decide) (by decide)
      (by decide)
    · obtain ⟨r, hr, rfl⟩ := mem_map.mp hrow
      exact (ht.fits r (mem_of_mem_filter hr)).readsBack
    · rcases ht.electionsOf eid.bytes with h | ⟨r, h⟩ <;> simp [h]
  refine Triple.bind (execStmt_clear_select rfl (fun h => h.elim) rfl hread) fun reply =>
    Triple.of_imp ?_
  rintro ⟨m, hm, rfl⟩
  rcases ht.electionsOf eid.bytes with hnone | ⟨r, hone⟩
  · rw [Option.getD_some, hnone, map_nil, perm_nil] at hm
    subst hm
    exact (Triple.throw _).pre fun l hl => ⟨id, .inl rfl, hl.sees.store_eq⟩
  rw [Option.getD_some, hone, map_singleton, perm_singleton] at hm
  subst hm
  obtain ⟨hmem, hid⟩ : r ∈ t.elections ∧ r.id.bytes = eid.bytes := by
    have hr : r ∈ t.electionsOf eid.bytes := by simp [hone]
    exact ⟨mem_of_mem_filter hr, of_decide_eq_true (mem_filter.mp hr).2⟩
  have hfits := ht.fits r hmem
  refine Triple.ite (fun h => absurd h (by simp [Reply.rowCount])) fun _ => ?_
  refine (execStmt_clear_write rfl (fun h => h.elim) rfl).bind fun _ => ?_
  let row : ElectionRow := ⟨r.seq, r.id, r.title, ⟨bbStateStr s, by cases s <;> decide⟩, r.openTime,
    r.closeTime⟩
  have htitle : (ofBytes r.title.bytes : CStr bbTitleLen).bytes = r.title.bytes :=
    ofBytes_bytes (Nat.le_sub_one_of_lt hfits.title.1) r.title.clean.1
  have hopen : (ofBytes r.openTime.bytes : CStr bbTimeLen).bytes = r.openTime.bytes :=
    ofBytes_bytes (Nat.le_sub_one_of_lt hfits.openTime.1) r.openTime.clean.1
  have hclose : (ofBytes r.closeTime.bytes : CStr bbTimeLen).bytes = r.closeTime.bytes :=
    ofBytes_bytes (Nat.le_sub_one_of_lt hfits.closeTime.1) r.closeTime.clean.1
  have hinsert : (Stmt.insertElection (ofBytes r.seq.render : CStr 24).bytes eid.bytes
      (ofBytes r.title.bytes : CStr bbTitleLen).bytes (bbStateStr s)
      (ofBytes r.openTime.bytes : CStr bbTimeLen).bytes
      (ofBytes r.closeTime.bytes : CStr bbTimeLen).bytes).run
        { t with elections := t.elections.filter (·.id.bytes ≠ eid.bytes) } =
      some (t.setElection row, countReply 1) := by
    rw [ofBytes_render, htitle, hopen, hclose, ← hid]
    simp [Stmt.run, Text.ofBytes?_clean row.state.clean, Tables.setElection, upsert, row]
  refine (execStmt_clear_write rfl (fun h => h.elim) hinsert).bind fun _ => ?_
  exact (Triple.pure _).pre fun l hl => ⟨_, ⟨r, row, by simp [hone], ⟨rfl, rfl, htitle.symm, rfl,
      hopen.symm, hclose.symm⟩, rfl⟩, hl⟩

lemma stateChanged_of_means (ht : t.Tidy) {out : DbResult} {t' : Tables}
    (h : DbCmd.Means t out t' (.updateState eid s)) :
    StateChanged eid.bytes s t t' ∧ t'.Tidy := by
  obtain ⟨r, r', hr, hmoves, rfl⟩ := h
  have hid : r.id.bytes = eid.bytes := of_decide_eq_true (mem_filter.mp hr).2
  have hid' : r'.id.bytes = eid.bytes := hmoves.id ▸ hid
  have hfits := ht.fits r (mem_of_mem_filter hr)
  have htitle : r'.title = r.title := Text.ext <| hmoves.title.trans <|
    ofBytes_bytes (Nat.le_sub_one_of_lt hfits.title.1) r.title.clean.1
  have hopen : r'.openTime = r.openTime := Text.ext <| hmoves.openTime.trans <|
    ofBytes_bytes (Nat.le_sub_one_of_lt hfits.openTime.1) r.openTime.clean.1
  have hclose : r'.closeTime = r.closeTime := Text.ext <| hmoves.closeTime.trans <|
    ofBytes_bytes (Nat.le_sub_one_of_lt hfits.closeTime.1) r.closeTime.clean.1
  have hfilter : (t.setElection r').elections.filter (·.id.bytes ≠ eid.bytes) =
      t.elections.filter (·.id.bytes ≠ eid.bytes) := by
    simp [Tables.setElection, upsert, hid']
  refine ⟨⟨⟨r, r', ?_, ?_, hmoves.state, hmoves.seq, hmoves.id, htitle, hopen, hclose⟩, hfilter,
    rfl, rfl, rfl, rfl, rfl⟩, ?_, ?_⟩
  · rcases ht.electionsOf eid.bytes with hnone | ⟨x, hone⟩
    · exact absurd hnone (ne_nil_of_mem hr)
    · rw [hone, mem_singleton] at hr
      rw [hone, hr]
  · rw [electionsOf_setElection, if_pos hid']
  · have hrest : ((t.elections.filter (·.id.bytes ≠ r'.id.bytes)).map (·.id.bytes)).Nodup :=
      ht.unique.sublist (filter_sublist.map _)
    simp only [Tables.setElection, upsert, map_append, map_cons, map_nil]
    refine hrest.append (nodup_singleton _) fun x hx hx' => ?_
    obtain ⟨y, hy, rfl⟩ := mem_map.mp hx
    exact of_decide_eq_true (mem_filter.mp hy).2 (mem_singleton.mp hx')
  · intro x hx
    rcases (mem_upsert _).mp hx with rfl | ⟨hx, -⟩
    · exact ⟨htitle ▸ hfits.title, hopen ▸ hfits.openTime, hclose ▸ hfits.closeTime⟩
    · exact ht.fits x hx

/-! ## Any number of changes -/

lemma StateChanged.trans {eid : Bytes} {s s' : BbState} {t t' t'' : Tables}
    (h : StateChanged eid s t t') (h' : StateChanged eid s' t' t'') :
        StateChanged eid s' t t'' := by
  obtain ⟨r, r₁, hr, hr₁, -, hseq, hid, htitle, hopen, hclose⟩ := h.row
  obtain ⟨r₁', r₂, hr₁', hr₂, hstate, hseq', hid', htitle', hopen', hclose'⟩ := h'.row
  obtain rfl : r₁ = r₁' := by simpa [hr₁] using hr₁'
  refine ⟨⟨r, r₂, hr, hr₂, hstate, hseq'.trans hseq, hid'.trans hid, htitle'.trans htitle,
    hopen'.trans hopen, hclose'.trans hclose⟩, h'.elections.trans h.elections, ?_⟩
  obtain ⟨ho, he, hb, hw, hn⟩ := h.others
  obtain ⟨ho', he', hb', hw', hn'⟩ := h'.others
  exact ⟨ho'.trans ho, he'.trans he, hb'.trans hb, hw'.trans hw, hn'.trans hn⟩

/-- Some updates of the state, one after another. -/
def changeStates (eid : CStr bbIdLen) (states : List BbState) : BrainM Bytes PUnit :=
  states.forM fun s => do
    let _ ← dbExec wire (.updateState eid s)

/-- After the updates `done`, the election is in the last state, and the rest is as it was. -/
def World.ChangedBy (t : Tables) (eid : Bytes) (done : List BbState) (w : World Bytes) : Prop :=
  w.txnConn = none ∧ w.server.store.Tidy ∧
    (done = [] ∧ w.server.store = t ∨
      ∃ s, done.getLast? = some s ∧ StateChanged eid s t w.server.store)

lemma changeStates_changedBy (states : List BbState) :
    Triple (World.ChangedBy t eid.bytes []) (changeStates eid states)
      (fun _ => World.ChangedBy t eid.bytes states) (fun _ _ => True) := by
  refine Triple.forM fun done s rest _ => ?_
  rintro w ⟨htxn, htidy, hdone⟩
  have hstep : Triple (World.Between (Server.Holds False w.server.store))
      (dbExec wire (.updateState eid s))
      (fun _ => World.ChangedBy t eid.bytes (done ++ [s])) (fun _ _ => True) := by
    refine (dbExec_writes rfl (runUpdateState_clear htidy)).ends ?_ fun _ _ _ => trivial
    rintro out w' ⟨htxn', t', hmeans, hstore, -⟩
    obtain ⟨hchanged, htidy'⟩ := stateChanged_of_means htidy hmeans
    rw [← hstore] at hchanged htidy'
    refine ⟨htxn', htidy', .inr ⟨s, by simp, ?_⟩⟩
    rcases hdone with ⟨-, hfirst⟩ | ⟨s₀, -, hbefore⟩
    · exact hfirst ▸ hchanged
    · exact hbefore.trans hchanged
  exact hstep.bind (fun _ => Triple.ret _) w ⟨htxn, rfl, fun h => h.elim⟩

/-- **A state change changes only the state.**  After any number of successful changes there is
one row of the election, in the last state requested, and nothing else differs. -/
theorem state_changes_only (w w' : World Bytes) (htxn : w.txnConn = none)
    (htidy : w.server.store.Tidy) (eid : CStr bbIdLen) (states : List BbState) (last : BbState)
    (hrun : (changeStates eid (states ++ [last])).run w = .ok ⟨⟩ w') :
    StateChanged eid.bytes last w.server.store w'.server.store := by
  obtain ⟨-, -, ⟨hnil, -⟩ | ⟨s, hlast, hchanged⟩⟩ :=
    (changeStates_changedBy (states ++ [last])).of_ok ⟨htxn, htidy, .inl ⟨rfl, rfl⟩⟩ hrun
  · simp at hnil
  · obtain rfl : last = s := by simpa using hlast
    exact hchanged

def quotedDraft : ElectionRow :=
  ⟨⟨7, by norm_num, by norm_num⟩, ⟨ascii "E-7", by decide⟩, ⟨ascii "O'Neill's \"best\"", by decide⟩,
    ⟨ascii "DRAFT", clean_bbStateStr .draft⟩, ⟨ascii "2025-01-01", by decide⟩,
      ⟨ascii "2025-02-01", by decide⟩⟩

def twoElections : World Bytes :=
  ⟨⟨{ Tables.empty with elections :=
    [quotedDraft, { quotedDraft with id := ⟨ascii "E-70", by decide⟩ }] },
    fun _ => .ok .stored, 0, []⟩, none, [], default⟩

/-- The draft is opened and closed. -/
theorem quotedDraft_closed : ∃ w', (changeStates (.ofBytes (ascii "E-7")) [.opened, .closed]).run
    twoElections = .ok ⟨⟩ w' ∧
    StateChanged (ascii "E-7") .closed twoElections.server.store w'.server.store := by
  have hok : (match (changeStates (.ofBytes (ascii "E-7")) [.opened, .closed]).run twoElections with
      | .ok _ _ => true
      | .error _ _ => false) = true := by decide +kernel
  cases hrun : (changeStates (.ofBytes (ascii "E-7")) [.opened, .closed]).run twoElections with
  | error e w' => simp [hrun] at hok
  | ok _ w' =>
    refine ⟨w', rfl,
      state_changes_only twoElections w' rfl ⟨by decide, ?_⟩ _ [.opened] .closed hrun⟩
    intro r hr
    simp only [twoElections, mem_cons, not_mem_nil, or_false] at hr
    rcases hr with rfl | rfl <;> exact ⟨by decide, by decide, by decide⟩

end BallotBox
