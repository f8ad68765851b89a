import BallotBox.Properties.Support.Runs

/-!
# Election ids

An automatic id is `E-` and the number after the largest `seq`; what keeps it from being taken is
that the `seq` of a row is the number its id ends in (`NumbersIds`).  When the store cannot be
asked, `bb_alloc_id` falls back to `E-100`, taken or not (`fallback_id_taken`).
-/

namespace BallotBox

open Tables World

variable {n : ℤ} {t : Tables} {evs : List Event} {ev : Event}
variable {crypto : Crypto} {req : BclRequest} {w : World Unit}

/-! ## Numbers in ids -/

/-- The `seq` of a row is the number in its id. -/
def NumbersIds (t : Tables) : Prop := ∀ r ∈ t.elections, r.seq.val = idSeq r.id.bytes

/-- The automatic id with a number. -/
def numberedId (n : ℤ) : CStr bbIdLen := .ofBytes (ascii "E-" ++ renderInt n)

lemma afterLastDash_append {s digits : Bytes} (h : (45 : UInt8) ∉ digits) :
    afterLastDash (s ++ 45 :: digits) = some digits := by
  have hrev : ((s ++ 45 :: digits).reverse).takeWhile (· ≠ 45) = digits.reverse := by
    rw [List.reverse_append, List.reverse_cons, List.append_assoc,
      List.takeWhile_append_of_pos fun c hc => ?_]
    · simp
    · simpa using fun hc45 : c = 45 => h (hc45 ▸ List.mem_reverse.mp hc)
  unfold afterLastDash
  rw [if_pos (by simp), hrev, List.reverse_reverse]

lemma dash_notMem_renderInt (h : 0 ≤ n) : (45 : UInt8) ∉ renderInt n := by
  intro hmem
  rw [renderInt, if_neg (not_lt.mpr h)] at hmem
  exact absurd (isDigit_of_mem_renderNat hmem) (by decide)

lemma numberedId_bytes (hl : 0 ≤ n) (hu : n < 2 ^ 31) :
    (numberedId n).bytes = ascii "E-" ++ renderInt n := by
  refine CStr.ofBytes_bytes ?_ fun h => ?_
  · have hlen : (renderInt n).length ≤ 10 + 1 := length_renderInt_le (by norm_num) (by omega)
    have hstem : (ascii "E-").length = 2 := rfl
    change (ascii "E-" ++ renderInt n).length ≤ 15
    rw [List.length_append]
    omega
  · rcases List.mem_append.mp h with h | h
    · exact absurd h (by decide)
    · exact (clean_renderInt n).1 h

lemma idSeq_numberedId (hl : 0 ≤ n) (hu : n < 2 ^ 31) : idSeq (numberedId n).bytes = n := by
  have hdash : afterLastDash (numberedId n).bytes = some (renderInt n) := by
    rw [numberedId_bytes hl hu]
    exact afterLastDash_append (s := ascii "E") (dash_notMem_renderInt hl)
  simp only [idSeq, hdash, strtol_renderInt (by omega) (by omega : n < 2 ^ 63)]
  rw [if_neg (by simp [hl])]
  exact wrap32_of_range (by omega) hu

/-! ## The next number -/

/-- The number that comes next. -/
def Tables.nextNumber (t : Tables) : ℤ :=
  match t.maxSeq with
  | some n => if 0 ≤ n then n + 1 else 100
  | none => 100

/-- There is a number after the largest one. -/
def Tables.HasNext (t : Tables) : Prop := ∀ n, t.maxSeq = some n → n < 2 ^ 31 - 1

lemma seq_le_maxSeq {r : ElectionRow} (hr : r ∈ t.elections) :
    ∃ n, t.maxSeq = some n ∧ r.seq.val ≤ n := by
  have hmem : r.seq.val ∈ t.elections.map (·.seq.val) := List.mem_map_of_mem hr
  cases hmax : (t.elections.map (·.seq.val)).max? with
  | none => simp [List.max?_eq_none_iff.mp hmax] at hmem
  | some n => exact ⟨n, hmax, ((List.max?_eq_some_iff.mp hmax).2 _ hmem)⟩

lemma maxSeq_range (h : t.maxSeq = some n) : -2 ^ 31 ≤ n ∧ n < 2 ^ 31 := by
  obtain ⟨r, -, rfl⟩ := List.mem_map.mp (List.max?_mem h)
  exact ⟨r.seq.lower, r.seq.upper⟩

lemma nextNumber_range (h : t.HasNext) : 0 ≤ t.nextNumber ∧ t.nextNumber < 2 ^ 31 := by
  unfold nextNumber
  cases hmax : t.maxSeq with
  | none => norm_num
  | some n =>
    have := h n hmax
    dsimp only
    split_ifs <;> omega

lemma electionsOf_numberedId (hids : NumbersIds t) (h : t.HasNext) :
    t.electionsOf (numberedId t.nextNumber).bytes = [] := by
  obtain ⟨hl, hu⟩ := nextNumber_range h
  refine List.filter_eq_nil_iff.mpr fun r hr hid => ?_
  have hseq : r.seq.val = t.nextNumber := by
    rw [hids r hr, of_decide_eq_true hid, idSeq_numberedId hl hu]
  obtain ⟨n, hmax, hle⟩ := seq_le_maxSeq hr
  rw [nextNumber, hmax] at hseq hl
  dsimp only at hseq hl
  split_ifs at hseq <;> omega

lemma nextSeq_maxSeq (h : t.HasNext) :
    nextSeq (some (t.maxSeq.toList.map fun n => [renderInt n])) = t.nextNumber := by
  unfold nextNumber
  cases hmax : t.maxSeq with
  | none => rfl
  | some n =>
    obtain ⟨hl, hu⟩ := maxSeq_range hmax
    have hnext := h n hmax
    have hcopy : (CStr.ofBytes (renderInt n) : CStr 24).bytes = renderInt n :=
      ofBytes_render ⟨n, hl, hu⟩
    simp only [nextSeq, Reply.rowFields, Option.toList, List.map_cons, List.map_nil,
      Option.bind_some, List.getElem?_cons_zero, hcopy,
      strtol_renderInt (by omega : -2 ^ 63 ≤ n) (by omega), true_and]
    split_ifs
    · rw [wrap32_of_range hl hu, wrap32_of_range (by omega) (by omega)]
    · rfl

/-! ## Creating elections -/

/-- `bb_alloc_id` will be answered, and finds a next number. -/
def World.NumberReady {ι : Type} (w : World ι) : Prop :=
  (∀ why, w.server.next ≠ .lost why) ∧ (∃ order, w.server.tick.next = .ok order) ∧
    w.server.store.HasNext

lemma numberReady_of_answers {ι : Type} {w : World ι} (h : w.server.next.isOk = true ∧
    w.server.tick.next.isOk = true ∧ ∀ n ∈ w.server.store.maxSeq, n < 2 ^ 31 - 1) :
    w.NumberReady := by
  obtain ⟨hconn, hselect, hseq⟩ := h
  refine ⟨fun why hlost => ?_, ?_, hseq⟩
  · rw [hlost] at hconn
    cases hconn
  · cases hnext : w.server.tick.next with
    | ok order => exact ⟨order, rfl⟩
    | _ => simp [hnext, Outcome.isOk] at hselect

lemma RowOrder.apply_toList (order : RowOrder) (o : Option ℤ) (f : ℤ → Row) :
    order.apply (o.toList.map f) = o.toList.map f := by
  cases o with
  | none => exact (order.perm []).eq_nil
  | some n => exact List.perm_singleton.mp (order.perm [f n])

variable {store : Tables} {r : BclResponse}

lemma selectMaxSeq_ready : Triple (fun w => Idle store r w ∧ w.NumberReady)
      (onFresh direct (execStmt direct 4096 .selectMaxSeq))
      (fun reply w => nextSeq reply = store.nextNumber ∧ w.Idle store r) (fun _ _ => False) := by
  rintro w ⟨⟨htxn, rfl, rfl⟩, hopen, ⟨order, hnext⟩, hnumber⟩
  have hsome : dbSocketOpen direct w.server = (some ⟨none, (), none⟩, w.server.tick) := by
    unfold dbSocketOpen
    split
    · exact absurd ‹_› (hopen _)
    · rfl
  have hexec : ∃ l, execStmt direct 4096 .selectMaxSeq ⟨⟨none, (), none⟩, w.server.tick⟩ =
      .ok (some (order.apply (w.server.store.maxSeq.toList.map fun n => [renderInt n]))) l ∧
      l.server.store = w.server.store := by
    have hstmt : Stmt.selectMaxSeq.hasBreak = false := rfl
    simp only [execStmt, dbSocketExec, hstmt, hnext, Link.execute, Link.runData, Stmt.run,
      Option.map_some, Link.receive, direct, mapStatus]
    exact ⟨_, rfl, rfl⟩
  obtain ⟨l, hexec, hl⟩ := hexec
  simp only [EStateM.run, onFresh, hsome, hexec]
  refine ⟨?_, htxn, hl, rfl⟩
  rw [order.apply_toList]
  exact nextSeq_maxSeq hnumber

lemma bbAllocId_ready {E : BbErr → World Unit → Prop} :
    Triple (fun w => Idle store r w ∧ w.NumberReady) (bbAllocId direct)
      (fun id w => id = numberedId store.nextNumber ∧ w.Idle store r) E := by
  refine Triple.attempt_bind selectMaxSeq_ready (fun reply => ?_) fun e w hw => hw.elim
  exact (Triple.pure _).pre fun w hw => ⟨by rw [numberedId, ← hw.1], hw.2⟩

lemma chooseId_free (hids : NumbersIds store) (desired : CStr bbIdLen) :
    Triple (fun w => Idle store r w ∧ (desired.bytes = [] → w.NumberReady))
      (chooseId direct desired)
      (fun id w => store.electionsOf id.bytes = [] ∧ w.Idle store r)
      (fun _ w => w.Rests store) := by
  refine Triple.ite (fun hblank => ?_) fun _ => ?_
  · intro w hw
    have hready : w.NumberReady := hw.2 hblank
    have hfree : store.electionsOf (numberedId store.nextNumber).bytes = [] :=
      electionsOf_numberedId hids (hw.1.2.1 ▸ hready.2.2)
    refine (bbAllocId_ready (E := fun _ w => w.Rests store)).post ?_ w ⟨hw.1, hready⟩
    rintro id w' ⟨rfl, hw'⟩
    exact ⟨hfree, hw'⟩
  · refine Triple.pre (Triple.attempt_bind (loadElection_idle desired) (fun e => ?_) fun e => ?_)
      fun w hw => hw.1
    · exact Triple.of_imp fun _ =>
        (bbLog_keeps (fun _ _ h => h) _).bind fun _ => throw_rests _
    · refine Triple.of_imp ?_
      rintro (rfl | ⟨rfl, hfree⟩)
      · exact throw_rests _
      · exact fun w hw => ⟨hfree, hw⟩

lemma bbCreateElection_free (hids : NumbersIds store) (config : BbConfig) (desired : CStr bbIdLen) :
    Triple (fun w => Idle store r w ∧
        (bbValidateConfig config = .ok () → desired.bytes = [] → w.NumberReady))
      (bbCreateElection direct config desired)
      (fun id w => ∃ t', (store.electionsOf id.bytes = [] ∧ Creates id.bytes config store t') ∧
        w.Idle t' r)
      (fun _ w => w.Rests store) := by
  unfold bbCreateElection
  cases bbValidateConfig config with
  | error e =>
    exact Triple.pre ((bbLog_keeps (fun _ _ h => h) _).bind fun _ => throw_rests _) fun w hw => hw.1
  | ok _ =>
    refine ((chooseId_free hids desired).pre fun w hw => ⟨hw.1, hw.2 rfl⟩).bind fun id => ?_
    refine Triple.of_imp fun hfree => (dbExec_rests _).bind fun _ => ?_
    refine Triple.exists_elim fun t' => Triple.of_imp fun hmeans => ?_
    exact (Triple.pure id).pre fun w hw => ⟨t', ⟨hfree, hmeans⟩, hw⟩

/-! ## Along a run -/

/-- An accepted `CREATE`. -/
def Event.creates (ev : Event) : Bool := ev.req.op = .create && ev.resp.status = .ok

/-- The ids that were handed back. -/
def createdIds (evs : List Event) : List Bytes :=
  (evs.filter Event.creates).map (·.resp.election.id.bytes)

/-- The stored ids. -/
def Tables.ids (t : Tables) : List Bytes := t.elections.map (·.id.bytes)

lemma createdIds_append (evs : List Event) (ev : Event) : createdIds (evs ++ [ev]) =
      createdIds evs ++ if ev.creates then [ev.resp.election.id.bytes] else [] := by
  cases h : ev.creates <;> simp [createdIds, List.filter_append, h]

/-- The invariant of a run: rows are numbered by their ids, which differ, and the ids handed back
are stored and differ. -/
structure IdsKept (evs : List Event) (t : Tables) : Prop where
  numbered : NumbersIds t
  unique : t.ids.Nodup
  stored : ∀ id ∈ createdIds evs, id ∈ t.ids
  distinct : (createdIds evs).Nodup

lemma IdsKept.keep {t' : Tables} (h : IdsKept evs t)
    (hnumbered : NumbersIds t') (hunique : t'.ids.Nodup) (hids : ∀ id ∈ t.ids, id ∈ t'.ids)
    (hev : ev.creates = false) : IdsKept (evs ++ [ev]) t' := by
  have hsame : createdIds (evs ++ [ev]) = createdIds evs := by simp [createdIds_append, hev]
  exact ⟨hnumbered, hunique, fun id hid => hids id (h.stored id (hsame ▸ hid)), hsame ▸ h.distinct⟩

lemma IdsKept.move (h : IdsKept evs t) {r r' : ElectionRow}
    (hr : r ∈ t.elections) (hseq : r'.seq = r.seq) (hid : r'.id = r.id)
    (hev : ev.creates = false) : IdsKept (evs ++ [ev]) (t.setElection r') := by
  have hmem (x : ElectionRow) : x ∈ (t.setElection r').elections ↔
      x = r' ∨ x ∈ t.elections ∧ x.id.bytes ≠ r'.id.bytes := mem_upsert _
  refine h.keep (fun x hx => ?_) ?_ (fun id hid' => ?_) hev
  · rcases (hmem x).mp hx with rfl | ⟨hx, -⟩
    · rw [hseq, hid]
      exact h.numbered r hr
    · exact h.numbered x hx
  · have hsub : (t.elections.filter (·.id.bytes ≠ r'.id.bytes)).map (·.id.bytes) |>.Nodup :=
      h.unique.sublist (List.filter_sublist.map _)
    rw [ids, setElection, upsert, List.map_append]
    refine hsub.append (List.nodup_singleton _) fun id hleft hright => ?_
    obtain ⟨x, hx, rfl⟩ := List.mem_map.mp hleft
    exact of_decide_eq_true (List.mem_filter.mp hx).2 (List.mem_singleton.mp hright)
  · obtain ⟨x, hx, rfl⟩ := List.mem_map.mp hid'
    by_cases hxid : x.id.bytes = r'.id.bytes
    · exact List.mem_map.mpr ⟨r', (hmem r').mpr (.inl rfl), hxid.symm⟩
    · exact List.mem_map.mpr ⟨x, (hmem x).mpr (.inr ⟨hx, hxid⟩), rfl⟩

lemma IdsKept.other (h : IdsKept evs ev.before)
    (hop : ev.req.op ≠ .create) (hdoes : Does crypto ev.req ev.before ev.resp ev.after) :
    IdsKept (evs ++ [ev]) ev.after := by
  have hev : ev.creates = false := by simp [Event.creates, hop]
  have hsame {t' : Tables} (heq : t'.elections = ev.before.elections) :
      IdsKept (evs ++ [ev]) t' := by
    refine h.keep (fun x hx => h.numbered x (heq ▸ hx)) ?_ (fun id hid => ?_) hev
    · rw [ids, heq]
      exact h.unique
    · rwa [ids, heq]
  generalize ev.after = t', ev.resp = resp at hdoes
  cases hdoes with
  | created id hop' => exact absurd hop' hop
  | moved target e r r' _ _ _ hr hmoves =>
    exact h.move (List.mem_filter.mp hr).1 hmoves.seq hmoves.id hev
  | recorded _ rec =>
    refine hsame ?_
    rw [Recording.after, Recording.counted]
    split <;> rfl
  | _ => exact hsame rfl

lemma ballotdDispatch_create (crypto : Crypto)
    (htxn : w.txnConn = none) (hids : NumbersIds w.server.store) (hop : req.op = .create)
    (hready : bbValidateConfig req.config = .ok () → req.electionId.bytes = [] → w.NumberReady) :
    ((ballotdDispatch direct crypto req w).resp.status ≠ .ok ∧
      (ballotdDispatch direct crypto req w).server.store = w.server.store) ∨
    ∃ id : CStr bbIdLen, (ballotdDispatch direct crypto req w).resp.status = .ok ∧
      (ballotdDispatch direct crypto req w).resp.election.id = id ∧
      w.server.store.electionsOf id.bytes = [] ∧
      Creates id.bytes req.config w.server.store
        (ballotdDispatch direct crypto req w).server.store := by
  have hx := bbCreateElection_free (r := default) hids req.config req.electionId
  have hpre : Idle w.server.store default { w with resp := default } ∧
      (bbValidateConfig req.config = .ok () → req.electionId.bytes = [] →
        NumberReady { w with resp := default }) := ⟨⟨htxn, rfl, rfl⟩, hready⟩
  unfold ballotdDispatch dispatchOp
  rw [hop]
  cases hrun : bbCreateElection direct req.config req.electionId { w with resp := default } with
  | error e w' =>
    have hw' := hx.of_error hpre hrun
    left
    simp only [bind, EStateM.bind, hrun]
    exact ⟨by simp, hw'.2⟩
  | ok id w' =>
    obtain ⟨t', ⟨hfree, hcreates⟩, hw'⟩ := hx.of_ok hpre hrun
    right
    simp only [bind, EStateM.bind, hrun]
    exact ⟨id, rfl, rfl, hfree, hw'.2.1 ▸ hcreates⟩

lemma IdsKept.create
    (htxn : w.txnConn = none) (h : IdsKept evs w.server.store) (hop : req.op = .create)
    (hready : bbValidateConfig req.config = .ok () → req.electionId.bytes = [] → w.NumberReady) :
    IdsKept (evs ++ [eventOf direct crypto req w])
      (ballotdDispatch direct crypto req w).server.store := by
  obtain ⟨hstatus, hstore⟩ | ⟨id, hstatus, hid, hfree, hcreates⟩ :=
    ballotdDispatch_create crypto htxn h.numbered hop hready
  · have hev : (eventOf direct crypto req w).creates = false := by
      simp [Event.creates, eventOf, hstatus]
    rw [hstore]
    exact h.keep h.numbered h.unique (fun _ hid => hid) hev
  · have hcreated : createdIds (evs ++ [eventOf direct crypto req w]) =
        createdIds evs ++ [id.bytes] := by
      have hev : (eventOf direct crypto req w).creates = true := by
        simp [Event.creates, eventOf, hstatus, hop]
      rw [createdIds_append, hev, if_pos rfl, ← hid]
      rfl
    have hnew : id.bytes ∉ w.server.store.ids := fun hmem => by
      obtain ⟨x, hx, hxid⟩ := List.mem_map.mp hmem
      exact List.filter_eq_nil_iff.mp hfree x hx (by simpa using hxid)
    obtain ⟨row, os, vs, ⟨hseq, hrowid, -⟩, -, -, hafter⟩ := hcreates
    have hids : ids (ballotdDispatch direct crypto req w).server.store =
        w.server.store.ids ++ [id.bytes] := by
      rw [hafter, ids, List.map_append, List.map_singleton, hrowid]
      rfl
    refine ⟨fun x hx => ?_, ?_, fun id' hid' => ?_, ?_⟩
    · rw [hafter] at hx
      rcases List.mem_append.mp hx with hx | hx
      · exact h.numbered x hx
      · rw [List.mem_singleton.mp hx, hrowid]
        exact hseq
    · rw [hids]
      exact List.nodup_append_comm.mp (List.nodup_cons.mpr ⟨hnew, h.unique⟩)
    · rw [hids, List.mem_append]
      rw [hcreated, List.mem_append] at hid'
      exact hid'.imp_left (h.stored id')
    · rw [hcreated]
      exact List.nodup_append_comm.mp
        (List.nodup_cons.mpr ⟨fun hmem => hnew (h.stored _ hmem), h.distinct⟩)

/-- In a run in which every `CREATE` without an id finds the store answering and a next number, no
two calls that return `BB_OK` hand back the same id, and no two stored elections have one. -/
theorem election_ids_unique (crypto : Crypto) (sched : ℕ → Outcome) (reqs : List BclRequest)
    (hready : ∀ before req, before ++ [req] <+: reqs → req.op = .create →
      bbValidateConfig req.config = .ok () → req.electionId.bytes = [] →
      (serve direct crypto before (World.start sched)).NumberReady) :
    (createdIds (history direct crypto reqs (World.start sched))).Nodup ∧
    (serve direct crypto reqs (World.start sched)).server.store.ids.Nodup := by
  have hkept : IdsKept (history direct crypto reqs (World.start sched))
      (serve direct crypto reqs (World.start sched)).server.store := by
    induction reqs using List.reverseRecOn with
    | nil =>
      exact ⟨by simp [NumbersIds, serve, World.start, Tables.empty], List.nodup_nil,
        by simp [createdIds, history], List.nodup_nil⟩
    | append_singleton reqs req ih =>
      have hbefore := ih fun before req' hpre =>
        hready before req' (hpre.trans (List.prefix_append _ _))
      have htxn : (serve direct crypto reqs (World.start sched)).txnConn = none :=
        serve_txnConn rfl reqs
      rw [history_append, serve_append]
      by_cases hop : req.op = .create
      · exact hbefore.create htxn hop (hready reqs req (List.prefix_refl _) hop)
      · exact hbefore.other hop (ballotdDispatch_does htxn).2
  exact ⟨hkept.distinct, hkept.unique⟩

/-! ## Ids that are taken -/

def boardConfig : BbConfig where
  title := .ofBytes (ascii "Board")
  options := [.ofBytes (ascii "yes"), .ofBytes (ascii "no")]
  options_le := two_le_bbMaxOptions
  eligible := [.ofBytes (ascii "ann")]
  eligible_le := one_le_bbMaxVoters
  openTime := .ofBytes (ascii "09:00")
  closeTime := .ofBytes (ascii "17:00")

def createRequest (id : String) : BclRequest :=
  ⟨.create, default, .ofBytes (ascii id), default, default, boardConfig⟩

/-- An automatic id, a chosen one and the automatic one after it. -/
def threeCreates : List BclRequest := [createRequest "", createRequest "E-700", createRequest ""]

theorem three_ids_unique :
    createdIds (history direct stubCrypto threeCreates (World.start fun _ => .ok .stored)) =
      [ascii "E-100", ascii "E-700", ascii "E-701"] ∧
    (createdIds (history direct stubCrypto threeCreates
      (World.start fun _ => .ok .stored))).Nodup ∧
    (serve direct stubCrypto threeCreates
      (World.start fun _ => .ok .stored)).server.store.ids.Nodup := by
  refine ⟨by decide +kernel, election_ids_unique stubCrypto (fun _ => .ok .stored) threeCreates ?_⟩
  rintro before req hpre - - -
  obtain ⟨n, hn, rfl, rfl⟩ := exists_take_of_snoc hpre
  change n < 3 at hn
  interval_cases n <;> exact numberReady_of_answers (by decide +kernel)

/-- When the store cannot be asked for the largest `seq`, the second election gets the id of the
first; and after the largest number there is, every automatic id is the same. -/
theorem fallback_id_taken :
    createdIds (history direct stubCrypto [createRequest "", createRequest ""]
      (World.start fun n => if n = 9 then .lost .timeout else .ok .stored)) =
        [ascii "E-100", ascii "E-100"] ∧
    createdIds (history direct stubCrypto
      [createRequest "E-2147483647", createRequest "", createRequest ""]
      (World.start fun _ => .ok .stored)) =
        [ascii "E-2147483647", ascii "E--2147483648", ascii "E--2147483648"] := by
  decide +kernel

end BallotBox
