import BallotBox.Construction.HtttpBuffer
import BallotBox.Properties.Support.Serialization

/-!
# Serialization is all or nothing

The helpers of the serializer, writing in memory, do what the functions on byte strings do
(`Follows`): the offset never passes the capacity.  So a request is refused whatever the capacity,
or has one frame, which is written exactly if it fits.
-/

namespace BallotBox.HtttpBuffer

variable {n : ℕ} {a a' : OutParams} {M : Bytes}

/-! ## The helpers -/

lemma sizeSub_eq {a b : ℕ} (hb : b ≤ a) (ha : a < 2 ^ 64) : sizeSub a b = a - b := by
  rw [sizeSub, UInt64.toNat_sub, UInt64.toNat_ofNat', UInt64.toNat_ofNat']
  omega

variable {cap : ℕ}

lemma bufAppend_run {src : Bytes} (hsrc : src.length ≠ 0) (c : Cursor UInt8) : bufAppend cap src c =
      if sizeSub cap c.off < src.length then .error .noSpace c else .ok ⟨⟩ (c.write src) := by
  rw [bufAppend, if_neg hsrc]
  change
    (if sizeSub cap c.off < src.length then (throw .noSpace : Emit) else set (c.write src)) c = _
  split_ifs
  · rfl
  · rfl

lemma bufAppend_follows (hcap : cap < 2 ^ 64) (src : Bytes) :
    Follows cap (bufAppend cap src) (BallotBox.bufAppend · · src) := by
  intro start out hout
  by_cases hempty : src.length = 0
  · obtain rfl := List.length_eq_zero_iff.mp hempty
    refine ⟨out, hout, .inl ⟨?_, rfl⟩⟩
    simp [BallotBox.bufAppend]
  have hsub : sizeSub cap (Cursor.holding start out).off = cap - out.length := sizeSub_eq hout hcap
  rw [bufAppend_run hempty, hsub]
  by_cases hroom : cap - out.length < src.length
  · exact ⟨out, hout, .inr ⟨.noSpace, if_pos hroom, if_pos hroom⟩⟩
  · refine ⟨out ++ src, ?_, .inl ⟨if_neg hroom, ?_⟩⟩
    · rw [List.length_append]
      omega
    · rw [if_neg hroom, Cursor.write_holding]

lemma emitHeader_follows (hcap : cap < 2 ^ 64) (key value : Bytes) :
    Follows cap (emitHeader cap key value) (BallotBox.emitHeader · · key value) :=
  (bufAppend_follows hcap key).bind <| (bufAppend_follows hcap _).bind <|
    (bufAppend_follows hcap value).bind (bufAppend_follows hcap crlf)

lemma emitHeaderLoop_follows (hcap : cap < 2 ^ 64) (skipDate : Bool) (headers : List HtttpHeader) :
    Follows cap (emitHeaderLoop cap skipDate headers)
      (BallotBox.emitHeaderLoop · skipDate · headers) := by
  induction headers with
  | nil => exact Follows.pure
  | cons h headers ih =>
    simp only [emitHeaderLoop, BallotBox.emitHeaderLoop]
    refine Follows.ite (fun _ => ih) fun _ => Follows.ite (fun _ => ih) fun _ => ?_
    refine Follows.ite (fun _ => Follows.throw _) fun _ => ?_
    exact Follows.ite (fun _ => Follows.throw _) fun _ => (emitHeader_follows hcap _ _).bind ih

lemma emitHeaders_follows (hcap : cap < 2 ^ 64) (skipDate : Bool) (headers : List HtttpHeader) :
    Follows cap (emitHeaders cap skipDate headers) (BallotBox.emitHeaders · skipDate · headers) :=
  Follows.ite (fun _ => Follows.throw _) fun _ => emitHeaderLoop_follows hcap skipDate headers

lemma emitLength_follows (hcap : cap < 2 ^ 64) (hn : n < 2 ^ 32) : Follows cap (emitLength cap n)
      (BallotBox.emitHeader · · (ascii "Content-Length") (renderNat n)) := by
  have hdigits : (renderNat n).length ≤ 10 := length_renderNat_le (by norm_num) (by omega)
  rw [emitLength, if_neg (by omega)]
  exact emitHeader_follows hcap _ _

lemma emitBody_follows (hcap : cap < 2 ^ 64) {body : Option (ℕ → UInt8)} (hn : n < 2 ^ 32)
    (hlen : (bytesAt body n).length = n) :
    Follows cap (emitBody cap body n) (BallotBox.emitBody · · (bytesAt body n)) := by
  have hend := (bufAppend_follows hcap crlf).bind (bufAppend_follows hcap (bytesAt body n))
  have hempty : bytesAt body n = [] ↔ ¬ 0 < n := by
    rw [← List.length_eq_zero_iff, hlen]
    omega
  by_cases hpos : 0 < n
  · have hall := (emitLength_follows hcap hn).bind hend
    simp only [emitBody, BallotBox.emitBody, hempty, hpos, hlen, not_true_eq_false, if_true,
      if_false]
    exact hall
  · simp only [emitBody, BallotBox.emitBody, hempty, hpos, not_false_eq_true, if_true, if_false,
      pure_bind]
    exact hend

/-! ## The serializer -/

namespace Request

/-- The message that the structure describes. -/
def message (req : Request) : HtttpRequest :=
  ⟨req.method, req.path, req.headers, bytesAt req.body req.bodyLen.toNat⟩

/-- A body without bytes, with a length. -/
def Dangling (req : Request) : Prop := req.body = none ∧ 0 < req.bodyLen

lemma length_body {req : Request} (h : ¬ req.Dangling) :
    req.message.body.length = req.bodyLen.toNat := by
  unfold message bytesAt
  cases hbody : req.body with
  | none =>
    have hzero : ¬ 0 < req.bodyLen := fun hpos => h ⟨hbody, hpos⟩
    rw [UInt32.lt_iff_toNat_lt, UInt32.toNat_zero] at hzero
    simp only [List.length_nil]
    omega
  | some mem => simp

end Request

lemma emitRequest_follows (hcap : cap < 2 ^ 64) {req : Request} (hbody : ¬ req.Dangling) :
    Follows cap (emitRequest cap req) (requestWriter req.message) :=
  (bufAppend_follows hcap _).bind <| (bufAppend_follows hcap _).bind <|
    (bufAppend_follows hcap _).bind <| (bufAppend_follows hcap _).bind <|
    (bufAppend_follows hcap _).bind <| (bufAppend_follows hcap _).bind <|
    (emitHeaders_follows hcap false req.headers).bind <|
    emitBody_follows hcap req.bodyLen.toNat_lt (Request.length_body hbody)

lemma not_dangling_iff {req : Request} :
    ¬ req.Dangling ↔ ¬ (req.body.isNone && decide (0 < req.bodyLen)) = true := by
  simp [Request.Dangling]

lemma run_of_checked {req : Request} (hbody : ¬ req.Dangling)
    (hline : LineOk req.method.bytes req.path.bytes) (a : OutParams) :
    (htttpSerializeRequest req).run a =
      match emitRequest a.outLen.toNat req ⟨a.out, 0⟩ with
      | .ok _ c => .ok ⟨⟩ ⟨c.mem, UInt32.ofNat c.off⟩
      | .error e c => .error e ⟨c.mem, a.outLen⟩ := by
  obtain ⟨hempty, hvalid⟩ := lineOk_iff.mp hline
  rw [htttpSerializeRequest, if_neg (not_dangling_iff.mp hbody), if_neg hempty, if_neg hvalid]
  change (onBuffer (emitRequest a.outLen.toNat req) >>= fun off =>
    modify fun a => { a with outLen := UInt32.ofNat off }) a = _
  simp only [bind, EStateM.bind, onBuffer]
  cases emitRequest a.outLen.toNat req ⟨a.out, 0⟩ with
  | ok => rfl
  | error => rfl

lemma run_of_unchecked {req : Request}
    (h : req.Dangling ∨ ¬ LineOk req.method.bytes req.path.bytes) (a : OutParams) :
    (htttpSerializeRequest req).run a = .error .malformed a := by
  rw [htttpSerializeRequest]
  by_cases hbody : req.Dangling
  · rw [if_pos (not_not.mp (not_dangling_iff.not.mp (not_not.mpr hbody)))]
    rfl
  rw [if_neg (not_dangling_iff.mp hbody)]
  by_cases hempty : req.method.bytes = [] ∨ req.path.bytes = []
  · rw [if_pos hempty]
    rfl
  · have hvalid := not_not.mp fun hvalid => h.resolve_left hbody (lineOk_iff.mpr ⟨hempty, hvalid⟩)
    rw [if_neg hempty, if_pos hvalid]
    rfl

/-- The outcome of a call: that of `Htttp`, with its bytes in the buffer and their number in
`out_len` on success, some bytes on failure. -/
inductive Outcome (req : Request) (a : OutParams) : Prop
  | written (M : Bytes) (hfits : M.length ≤ a.outLen.toNat) (hbody : ¬ req.Dangling)
      (hmessage : BallotBox.htttpSerializeRequest a.outLen.toNat req.message = .ok M)
      (hrun : (htttpSerializeRequest req).run a =
        .ok ⟨⟩ ⟨(Cursor.holding a.out M).mem, UInt32.ofNat M.length⟩)
  | failed (e : HtttpErr) (M : Bytes) (hfits : M.length ≤ a.outLen.toNat)
      (hmessage : ¬ req.Dangling →
        BallotBox.htttpSerializeRequest a.outLen.toNat req.message = .error e)
      (hrun : (htttpSerializeRequest req).run a = .error e ⟨(Cursor.holding a.out M).mem, a.outLen⟩)

lemma outcome (req : Request) (a : OutParams) : Outcome req a := by
  by_cases hchecked : ¬ req.Dangling ∧ LineOk req.method.bytes req.path.bytes
  · obtain ⟨hbody, hline⟩ := hchecked
    have hcap : a.outLen.toNat < 2 ^ 64 := a.outLen.toNat_lt.trans (by norm_num)
    have hmessage : BallotBox.htttpSerializeRequest a.outLen.toNat req.message = _ :=
      htttpSerializeRequest_eq_writer hline a.outLen.toNat
    have hrun := run_of_checked hbody hline a
    rw [← Cursor.holding_nil] at hrun
    obtain ⟨M, hfits, ⟨hwriter, hemit⟩ | ⟨e, hwriter, hemit⟩⟩ :=
      emitRequest_follows hcap hbody a.out [] (Nat.zero_le _)
    · rw [hemit] at hrun
      exact .written M hfits hbody (hmessage.trans hwriter) hrun
    · rw [hemit] at hrun
      exact .failed e M hfits (fun _ => hmessage.trans hwriter) hrun
  · have hunwritten : (⟨(Cursor.holding a.out []).mem, a.outLen⟩ : OutParams) = a := by
      rw [Cursor.holding_nil]
    rw [not_and_or, not_not] at hchecked
    refine .failed .malformed [] (Nat.zero_le _) (fun hbody => ?_) ?_
    · exact htttpSerializeRequest_malformed (hchecked.resolve_left hbody) a.outLen.toNat
    · rw [hunwritten]
      exact run_of_unchecked hchecked a

/-! ## All or nothing -/

/-- The call succeeds and leaves these bytes in the buffer. -/
def Writes (req : Request) (a : OutParams) (M : Bytes) : Prop :=
  ∃ a', (htttpSerializeRequest req).run a = .ok ⟨⟩ a' ∧ a'.outLen.toNat = M.length ∧
    ∀ i, a'.out i = (M[i]?).getD (a.out i)

section Frame

variable {req : Request} (hbody : ¬ req.Dangling) (hreq : req.message.Serializable)

include hbody hreq

lemma writes_frame (hfits : req.message.frame.length ≤ a.outLen.toNat) :
    Writes req a req.message.frame := by
  have hframe := htttpSerializeRequest_of_serializable hreq a.outLen.toNat
  rw [if_pos hfits] at hframe
  cases outcome req a with
  | written M _ _ hmessage hrun =>
    obtain rfl := Except.ok.inj (hmessage.symm.trans hframe)
    refine ⟨_, hrun, ?_, fun i => rfl⟩
    exact UInt32.toNat_ofNat_of_lt' (hfits.trans_lt a.outLen.toNat_lt)
  | failed e _ _ hmessage _ =>
    have hok := (hmessage hbody).symm.trans hframe
    cases hok

lemma noSpace_of_lt_frame (hfits : ¬ req.message.frame.length ≤ a.outLen.toNat) :
    ∃ a', (htttpSerializeRequest req).run a = .error .noSpace a' := by
  have hframe := htttpSerializeRequest_of_serializable hreq a.outLen.toNat
  rw [if_neg hfits] at hframe
  cases outcome req a with
  | written _ _ _ hmessage _ =>
    have hok := hmessage.symm.trans hframe
    cases hok
  | failed e _ _ hmessage hrun =>
    obtain rfl := Except.error.inj ((hmessage hbody).symm.trans hframe)
    exact ⟨_, hrun⟩

end Frame

lemma Writes.unique {req : Request} {M' : Bytes} (h : Writes req a M)
    (h' : Writes req a M') : M = M' := by
  obtain ⟨a₁, hrun, hlen, hout⟩ := h
  obtain ⟨a₂, hrun', hlen', hout'⟩ := h'
  obtain rfl : a₁ = a₂ := (EStateM.Result.ok.inj (hrun.symm.trans hrun')).2
  have hlength : M.length = M'.length := hlen.symm.trans hlen'
  apply List.ext_getElem hlength
  intro i hi hi'
  have hbyte := (hout i).symm.trans (hout' i)
  rwa [List.getElem?_eq_getElem hi, List.getElem?_eq_getElem hi', Option.getD_some,
    Option.getD_some] at hbyte

lemma refused {req : Request} (h : req.Dangling ∨ ¬ req.message.Serializable) (a : OutParams) :
    ∃ e a', (htttpSerializeRequest req).run a = .error e a' := by
  cases outcome req a with
  | written _ _ hbody hmessage _ =>
    exact absurd (htttpSerializeRequest_eq_ok_iff.mp hmessage).1 (h.resolve_left hbody)
  | failed e _ _ _ hrun => exact ⟨e, _, hrun⟩

lemma eq_frame {req : Request} (hbody : ¬ req.Dangling) (hreq : req.message.Serializable)
    (hsize : req.message.frame.length < 2 ^ 32)
    (hM : ∀ a, (Writes req a M ↔ M.length ≤ a.outLen.toNat) ∧
      (¬ M.length ≤ a.outLen.toNat →
        ∃ a', (htttpSerializeRequest req).run a = .error .noSpace a')) :
    M = req.message.frame := by
  -- at the capacity of the frame, both are written
  let a : OutParams := ⟨fun _ => 0, UInt32.ofNat req.message.frame.length⟩
  have hroom : req.message.frame.length ≤ a.outLen.toNat := (UInt32.toNat_ofNat_of_lt' hsize).ge
  have hframe := writes_frame hbody hreq hroom
  by_cases hfits : M.length ≤ a.outLen.toNat
  · exact ((hM a).1.mpr hfits).unique hframe
  · obtain ⟨a', hfail⟩ := (hM a).2 hfits
    obtain ⟨a'', hrun, -⟩ := hframe
    cases hfail.symm.trans hrun

lemma writes_frame_iff {req : Request} (hbody : ¬ req.Dangling) (hreq : req.message.Serializable) :
    Writes req a req.message.frame ↔ req.message.frame.length ≤ a.outLen.toNat := by
  constructor
  · intro hwrites
    by_contra hfits
    obtain ⟨a', hfail⟩ := noSpace_of_lt_frame hbody hreq hfits
    obtain ⟨a'', hrun, -⟩ := hwrites
    cases hfail.symm.trans hrun
  · exact writes_frame hbody hreq

lemma left_in_buffer {req : Request} (h : (htttpSerializeRequest req).run a = .ok ⟨⟩ a' ∨
      ∃ e, (htttpSerializeRequest req).run a = .error e a') :
    ∃ M : Bytes, M.length ≤ a.outLen.toNat ∧ a'.out = (Cursor.holding a.out M).mem := by
  cases outcome req a with
  | written M hfits _ _ hrun =>
    rw [hrun] at h
    obtain hok | ⟨e, herror⟩ := h
    · cases hok
      exact ⟨M, hfits, rfl⟩
    · cases herror
  | failed _ M hfits _ hrun =>
    rw [hrun] at h
    obtain hok | ⟨e, herror⟩ := h
    · cases hok
    · cases herror
      exact ⟨M, hfits, rfl⟩

lemma outLen_of_error {req : Request} {e : HtttpErr}
    (h : (htttpSerializeRequest req).run a = .error e a') : a'.outLen = a.outLen := by
  cases outcome req a with
  | written _ _ _ _ hrun => cases h.symm.trans hrun
  | failed _ _ _ _ hrun =>
    cases h.symm.trans hrun
    rfl

/-- A request is refused whatever the capacity, or has one frame, which is written exactly if it
fits; a call that fails leaves `out_len` as it was, and no call changes a byte at the capacity or
beyond. -/
theorem serialization_all_or_nothing (req : Request) :
    ((∀ a, ∃ e a', (htttpSerializeRequest req).run a = .error e a') ∨
      ∃! M : Bytes, ∀ a, (Writes req a M ↔ M.length ≤ a.outLen.toNat) ∧
        (¬ M.length ≤ a.outLen.toNat →
          ∃ a', (htttpSerializeRequest req).run a = .error .noSpace a')) ∧
    (∀ a e a', (htttpSerializeRequest req).run a = .error e a' → a'.outLen = a.outLen) ∧
    ∀ a a', ((htttpSerializeRequest req).run a = .ok ⟨⟩ a' ∨
        ∃ e, (htttpSerializeRequest req).run a = .error e a') →
      ∀ i, a.outLen.toNat ≤ i → a'.out i = a.out i := by
  refine ⟨?_, fun _ _ _ => outLen_of_error, fun a a' hend i hi => ?_⟩
  · by_cases hreq : ¬ req.Dangling ∧ req.message.Serializable
    · obtain ⟨hbody, hreq⟩ := hreq
      by_cases hsize : req.message.frame.length < 2 ^ 32
      · exact .inr ⟨req.message.frame, fun a => ⟨writes_frame_iff hbody hreq,
          noSpace_of_lt_frame hbody hreq⟩, fun M hM => eq_frame hbody hreq hsize hM⟩
      · -- no capacity is large enough
        refine .inl fun a => ⟨.noSpace, noSpace_of_lt_frame hbody hreq fun hfits => ?_⟩
        exact hsize (hfits.trans_lt a.outLen.toNat_lt)
    · rw [not_and_or, not_not] at hreq
      exact .inl (refused hreq)
  · obtain ⟨M, hfits, hout⟩ := left_in_buffer hend
    rw [hout]
    exact Cursor.mem_holding_ge a.out (hfits.trans hi)

end BallotBox.HtttpBuffer
