import BallotBox.Construction.CtlFrame

/-!
# Control frames survive any segmentation

What arrives is what was sent, whatever parts it was sent and read in.  The loops are specified once
each: `ctlWriteAll_sends`, and `ctlReadAll_spec` for a stream that has, or has not, all the bytes
asked for.
-/

namespace BallotBox

open Cursor List

/-! ## The loops -/

lemma ctlWriteAll_sends (fd : Sink) (p : Bytes) (hfd : Transfer.failed ∉ fd.answers) :
    ∃ fd', ctlWriteAll fd p = (.ok, fd') ∧ fd'.sent = fd.sent ++ p ∧ fd'.answers ⊆ fd.answers := by
  fun_induction ctlWriteAll fd p with
  | case1 fd => exact ⟨fd, rfl, by simp, List.Subset.refl _⟩
  | case2 fd p hp n fd' h ih =>
    have hwrote : fd.Wrote p (.moved n, fd') := h ▸ fd.write_cases hp
    obtain ⟨-, -, hsent, -, hanswers⟩ := hwrote
    obtain ⟨fd'', hrun, hsent', hanswers'⟩ := ih fun hmem => hfd (hanswers hmem)
    refine ⟨fd'', hrun, ?_, fun a ha => hanswers (hanswers' ha)⟩
    rw [hsent', hsent, append_assoc, take_append_drop]
  | case3 fd p hp fd' h ih =>
    have hwrote : fd.Wrote p (.interrupted, fd') := h ▸ fd.write_cases hp
    obtain - | ⟨hsent, -, hanswers⟩ := hwrote
    obtain ⟨fd'', hrun, hsent', hanswers'⟩ := ih fun hmem => hfd (hanswers hmem)
    exact ⟨fd'', hrun, by rw [hsent', hsent], fun a ha => hanswers (hanswers' ha)⟩
  | case4 fd p hp fd' h =>
    have hwrote : fd.Wrote p (.failed, fd') := h ▸ fd.write_cases hp
    cases hwrote with
    | failed hfailed => exact absurd hfailed hfd

lemma ctlReadAll_bounded (want len : ℕ) (fd : Source) (start : ℕ → UInt8) (out : Bytes) :
    ∃ t : Bytes, t.length ≤ len ∧
      (ctlReadAll want len fd (.holding start out)).2.2 = .holding start (out ++ t) := by
  generalize hp : holding start out = p
  fun_induction ctlReadAll want len fd p generalizing out with
  | case1 fd p => exact ⟨[], le_rfl, by simp [hp]⟩
  | case2 len fd p hlen fd' h => exact ⟨[], Nat.zero_le _, by simp [hp]⟩
  | case3 len fd p hlen chunk fd' h hend ih =>
    have hread : fd.Read len (.moved chunk, fd') := h ▸ fd.read_cases (Nat.pos_of_ne_zero hlen)
    obtain ⟨-, hfits, -, -, -⟩ := hread
    obtain ⟨t, ht, hrun⟩ := ih (out ++ chunk) (by rw [← hp, write_holding])
    refine ⟨chunk ++ t, ?_, ?_⟩
    · rw [length_append]
      omega
    · rw [hrun, append_assoc]
  | case4 len fd p hlen fd' h ih => exact ih out hp
  | case5 len fd p hlen fd' h => exact ⟨[], Nat.zero_le _, by simp [hp]⟩

lemma ctlReadAll_spec (want : ℕ) {len : ℕ} {fd : Source} (start : ℕ → UInt8) (out : Bytes)
    (hfd : Transfer.failed ∉ fd.answers) (hwant : len ≤ want) :
    (len ≤ fd.stream.length → ∃ fd', ctlReadAll want len fd (.holding start out) =
        (.ok, fd', .holding start (out ++ fd.stream.take len)) ∧
      fd'.stream = fd.stream.drop len ∧ fd'.answers ⊆ fd.answers) ∧
    (fd.stream.length < len → (ctlReadAll want len fd (.holding start out)).1 =
      if fd.stream = [] ∧ len = want then .closed else .error) := by
  generalize hp : holding start out = p
  fun_induction ctlReadAll want len fd p generalizing out with
  | case1 fd p => exact ⟨fun _ => ⟨fd, by simp [hp], rfl, List.Subset.refl _⟩, fun h => by omega⟩
  | case2 len fd p hne fd' h =>
    have hread : fd.Read len (.moved [], fd') := h ▸ fd.read_cases (Nat.pos_of_ne_zero hne)
    obtain ⟨-, -, hend, -, -⟩ := hread
    refine ⟨fun hlen => ?_, fun _ => by simp [hend rfl]⟩
    rw [hend rfl, length_nil] at hlen
    omega
  | case3 len fd p hne chunk fd' h hmore ih =>
    have hread : fd.Read len (.moved chunk, fd') := h ▸ fd.read_cases (Nat.pos_of_ne_zero hne)
    obtain ⟨hstream, hfits, -, -, hanswers⟩ := hread
    have hpos := length_pos_iff.mpr hmore
    obtain ⟨hreads, hends⟩ := ih (out ++ chunk) (fun hmem => hfd (hanswers hmem)) (by omega)
      (by rw [← hp, write_holding])
    rw [hstream, length_append]
    refine ⟨fun hlen => ?_, fun hlen => ?_⟩
    · obtain ⟨fd'', hrun, hrest, hanswers'⟩ := hreads (by omega)
      refine ⟨fd'', ?_, ?_, fun a ha => hanswers (hanswers' ha)⟩
      · rw [hrun, take_append, take_of_length_le hfits, append_assoc]
      · rw [hrest, drop_append, drop_of_length_le hfits, nil_append]
    · rw [hends (by omega), if_neg (by omega), if_neg (by simp [hmore])]
  | case4 len fd p hne fd' h ih =>
    have hread : fd.Read len (.interrupted, fd') := h ▸ fd.read_cases (Nat.pos_of_ne_zero hne)
    obtain - | ⟨hstream, -, hanswers⟩ := hread
    obtain ⟨hreads, hends⟩ := ih out (fun hmem => hfd (hanswers hmem)) hwant hp
    rw [hstream] at hreads hends
    refine ⟨fun hlen => ?_, hends⟩
    obtain ⟨fd'', hrun, hrest, hanswers'⟩ := hreads hlen
    exact ⟨fd'', hrun, hrest, fun a ha => hanswers (hanswers' ha)⟩
  | case5 len fd p hne fd' h =>
    have hread : fd.Read len (.failed, fd') := h ▸ fd.read_cases (Nat.pos_of_ne_zero hne)
    cases hread with
    | failed hfailed => exact absurd hfailed hfd

/-! ## Frames -/

/-- A frame: its length, and the payload. -/
def ctlFrame (payload : Bytes) : Bytes := bigEndian ctlPrefixLen payload.length ++ payload

lemma length_ctlFrame (payload : Bytes) : (ctlFrame payload).length = 4 + payload.length := by
  simp [ctlFrame]

/-- Several frames, until one is not written. -/
def ctlFrameWrites (fd : Sink) : List Bytes → CtlStatus × Sink
  | [] => (.ok, fd)
  | payload :: payloads =>
    match ctlFrameWrite fd payload with
    | (.ok, fd') => ctlFrameWrites fd' payloads
    | failure => failure

lemma ctlFrameWrite_sends (fd : Sink) (payload : Bytes) (hfd : Transfer.failed ∉ fd.answers) :
    ∃ fd', ctlFrameWrite fd payload = (.ok, fd') ∧ fd'.sent = fd.sent ++ ctlFrame payload ∧
      fd'.answers ⊆ fd.answers := by
  obtain ⟨fd₁, hword, hsent₁, hanswers₁⟩ :=
    ctlWriteAll_sends fd (bigEndian ctlPrefixLen payload.length) hfd
  obtain ⟨fd₂, hpayload, hsent₂, hanswers₂⟩ :=
    ctlWriteAll_sends fd₁ payload fun hmem => hfd (hanswers₁ hmem)
  refine ⟨fd₂, ?_, ?_, fun a ha => hanswers₁ (hanswers₂ ha)⟩
  · simp only [ctlFrameWrite, hword, hpayload]
  · rw [hsent₂, hsent₁, ctlFrame, append_assoc]

lemma ctlFrameWrites_sends (fd : Sink) (payloads : List Bytes)
    (hfd : Transfer.failed ∉ fd.answers) :
    ∃ fd', ctlFrameWrites fd payloads = (.ok, fd') ∧
      fd'.sent = fd.sent ++ payloads.flatMap ctlFrame := by
  induction payloads generalizing fd with
  | nil => exact ⟨fd, rfl, by simp⟩
  | cons payload payloads ih =>
    obtain ⟨fd₁, hone, hsent₁, hanswers₁⟩ := ctlFrameWrite_sends fd payload hfd
    obtain ⟨fd₂, hrest, hsent₂⟩ := ih fd₁ fun hmem => hfd (hanswers₁ hmem)
    refine ⟨fd₂, ?_, ?_⟩
    · simp only [ctlFrameWrites, hone, hrest]
    · rw [hsent₂, hsent₁, flatMap_cons, append_assoc]

lemma word_in_memory (start : ℕ → UInt8) {bs : Bytes} (hbs : bs.length = ctlPrefixLen) :
    (List.range ctlPrefixLen).map (holding start bs).mem = bs := by
  apply ext_getElem
  · simp [hbs]
  · intro i hi hi'
    simp [holding, hi']

lemma ofBigEndian_length {payload : Bytes} (hsize : payload.length < 2 ^ 32) :
    ofBigEndian (bigEndian ctlPrefixLen payload.length) = payload.length :=
  ofBigEndian_bigEndian (hsize.trans_eq (by norm_num))

lemma ctlFrameRead_frame {fd : Source} {payload rest : Bytes} {cap : ℕ}
    (hfd : Transfer.failed ∉ fd.answers) (hstream : fd.stream = ctlFrame payload ++ rest)
    (hpos : 1 ≤ payload.length) (hcap : payload.length ≤ cap) (hsize : payload.length < 2 ^ 32)
    (buf : ℕ → UInt8) :
    ∃ fd', ctlFrameRead fd buf cap = ⟨.ok payload.length, (holding buf payload).mem, fd'⟩ ∧
      fd'.stream = rest ∧ fd'.answers ⊆ fd.answers := by
  have hlen : ctlPrefixLen ≤ fd.stream.length := by
    rw [hstream, length_append, length_ctlFrame, ctlPrefixLen]
    omega
  obtain ⟨fd₁, hword, hrest₁, hanswers₁⟩ :=
    (ctlReadAll_spec ctlPrefixLen (fun _ => 0) [] hfd le_rfl).1 hlen
  have htake : fd.stream.take ctlPrefixLen = bigEndian ctlPrefixLen payload.length := by
    rw [hstream, ctlFrame, append_assoc]
    exact take_left' (length_bigEndian _ _)
  have hdrop : fd₁.stream = payload ++ rest := by
    rw [hrest₁, hstream, ctlFrame, append_assoc]
    exact drop_left' (length_bigEndian _ _)
  have hlen₁ : payload.length ≤ fd₁.stream.length := by
    rw [hdrop, length_append]
    omega
  obtain ⟨fd₂, hpayload, hrest₂, hanswers₂⟩ := (ctlReadAll_spec payload.length buf []
    (fun hmem => hfd (hanswers₁ hmem)) le_rfl).1 hlen₁
  rw [htake, nil_append, holding_nil] at hword
  rw [hdrop, take_left, nil_append, holding_nil] at hpayload
  refine ⟨fd₂, ?_, ?_, fun a ha => hanswers₁ (hanswers₂ ha)⟩
  · have hin : ¬ (payload.length = 0 ∨ cap < payload.length) := by omega
    simp only [ctlFrameRead, hword, word_in_memory _ (length_bigEndian _ _),
      ofBigEndian_length hsize, if_neg hin, hpayload]
  · rw [hrest₂, hdrop, drop_left]

lemma ctlFrameRead_closed {fd : Source} (hfd : Transfer.failed ∉ fd.answers)
    (hstream : fd.stream = [])
    (buf : ℕ → UInt8) (cap : ℕ) : (ctlFrameRead fd buf cap).status = .error .closed := by
  have hend := (ctlReadAll_spec ctlPrefixLen (fun _ => 0) [] hfd le_rfl).2 (by simp [hstream])
  rw [holding_nil, hstream, if_pos ⟨rfl, rfl⟩] at hend
  unfold ctlFrameRead
  generalize ctlReadAll ctlPrefixLen ctlPrefixLen fd ⟨fun _ => 0, 0⟩ = r at hend ⊢
  obtain ⟨rc, fd', p⟩ := r
  obtain rfl : rc = .closed := hend
  rfl

lemma ctlFrameRead_torn {fd : Source} {payload : Bytes} (hfd : Transfer.failed ∉ fd.answers)
    (hne : fd.stream ≠ []) (hpart : fd.stream <+: ctlFrame payload)
    (hless : fd.stream.length < (ctlFrame payload).length) (hsize : payload.length < 2 ^ 32)
    (buf : ℕ → UInt8) (cap : ℕ) : (ctlFrameRead fd buf cap).status = .error .error := by
  unfold ctlFrameRead
  by_cases hshort : fd.stream.length < ctlPrefixLen
  · -- inside the length
    have hend := (ctlReadAll_spec ctlPrefixLen (fun _ => 0) [] hfd le_rfl).2 hshort
    rw [holding_nil, if_neg fun h => hne h.1] at hend
    generalize ctlReadAll ctlPrefixLen ctlPrefixLen fd ⟨fun _ => 0, 0⟩ = r at hend ⊢
    obtain ⟨rc, fd', p⟩ := r
    obtain rfl : rc = .error := hend
    rfl
  · -- inside the payload, of which nothing may have arrived
    obtain ⟨fd₁, hword, hrest₁, hanswers₁⟩ :=
      (ctlReadAll_spec ctlPrefixLen (fun _ => 0) [] hfd le_rfl).1 (not_lt.mp hshort)
    have htake : fd.stream.take ctlPrefixLen = bigEndian ctlPrefixLen payload.length := by
      obtain ⟨more, hmore⟩ := hpart
      have hwhole : (ctlFrame payload).take ctlPrefixLen = bigEndian ctlPrefixLen payload.length :=
        take_left' (length_bigEndian _ _)
      rw [← hwhole, ← hmore, take_append_of_le_length (not_lt.mp hshort)]
    rw [htake, nil_append, holding_nil] at hword
    simp only [hword, word_in_memory _ (length_bigEndian _ _), ofBigEndian_length hsize]
    split_ifs with hbad
    · rfl
    have hshort₁ : fd₁.stream.length < payload.length := by
      rw [length_ctlFrame] at hless
      rw [hrest₁, length_drop, ctlPrefixLen]
      omega
    have hend := (ctlReadAll_spec payload.length buf [] (fun hmem => hfd (hanswers₁ hmem)) le_rfl).2
      hshort₁
    rw [holding_nil] at hend
    generalize ctlReadAll payload.length payload.length fd₁ ⟨buf, 0⟩ = r at hend ⊢
    obtain ⟨rc, fd', p⟩ := r
    cases rc with
    | ok =>
      simp only at hend
      split_ifs at hend
    | error => rfl
    | closed => rfl

lemma ctlFrameRead_bounded (fd : Source) (buf : ℕ → UInt8) {cap i : ℕ} (hi : cap ≤ i) :
    (ctlFrameRead fd buf cap).buf i = buf i := by
  unfold ctlFrameRead
  generalize ctlReadAll ctlPrefixLen ctlPrefixLen fd ⟨fun _ => 0, 0⟩ = r
  obtain ⟨rc, fd', p⟩ := r
  cases rc with
  | error => rfl
  | closed => rfl
  | ok =>
    dsimp only
    generalize ofBigEndian ((List.range ctlPrefixLen).map p.mem) = n
    split_ifs with hbad
    · rfl
    obtain ⟨t, ht, hmem⟩ := ctlReadAll_bounded n n fd' buf []
    rw [holding_nil, nil_append] at hmem
    have hout : (holding buf t).mem i = buf i := mem_holding_ge buf (by omega)
    generalize ctlReadAll n n fd' ⟨buf, 0⟩ = r at hmem ⊢
    obtain ⟨rc, fd'', p'⟩ := r
    obtain rfl : p' = .holding buf t := hmem
    cases rc with
    | ok => exact hout
    | error => exact hout
    | closed => exact hout

/-! ## Successive calls -/

/-- The payload in the reader's buffer. -/
def FrameRead.payload (r : FrameRead) : Except CtlStatus Bytes :=
  r.status.map fun n => (List.range n).map r.buf

/-- Some reads, one after another. -/
def ctlFrameReads (cap : ℕ) : ℕ → Source → (ℕ → UInt8) → List (Except CtlStatus Bytes)
  | 0, _, _ => []
  | n + 1, fd, buf =>
    let r := ctlFrameRead fd buf cap
    r.payload :: ctlFrameReads cap n r.fd r.buf

lemma payload_in_memory (start : ℕ → UInt8) (payload : Bytes) :
    (List.range payload.length).map (holding start payload).mem = payload := by
  apply ext_getElem
  · simp
  · intro i hi hi'
    simp [holding, hi']

lemma ctlFrameReads_frames {payloads : List Bytes}
    (hsize : ∀ p ∈ payloads, 1 ≤ p.length ∧ p.length ≤ ctlMaxFrame) {fd : Source} {rest : Bytes}
    (hfd : Transfer.failed ∉ fd.answers) (hstream : fd.stream = payloads.flatMap ctlFrame ++ rest)
    (buf : ℕ → UInt8) :
    ∃ fd' buf', fd'.stream = rest ∧ Transfer.failed ∉ fd'.answers ∧
      ctlFrameReads ctlMaxFrame (payloads.length + 1) fd buf =
        payloads.map .ok ++ [(ctlFrameRead fd' buf' ctlMaxFrame).payload] := by
  induction payloads generalizing fd buf with
  | nil => exact ⟨fd, buf, by simpa using hstream, hfd, rfl⟩
  | cons p payloads ih =>
    rw [forall_mem_cons] at hsize
    obtain ⟨⟨hpos, hcap⟩, hsizes⟩ := hsize
    rw [flatMap_cons, append_assoc] at hstream
    obtain ⟨fd₁, hone, hrest, hanswers⟩ :=
      ctlFrameRead_frame hfd hstream hpos hcap (hcap.trans_lt (by norm_num)) buf
    obtain ⟨fd', buf', hend, hfd', hreads⟩ := ih hsizes (fun hmem => hfd (hanswers hmem)) hrest
      (holding buf p).mem
    refine ⟨fd', buf', hend, hfd', ?_⟩
    rw [length_cons, ctlFrameReads, hone, hreads]
    simp [FrameRead.payload, Except.map, payload_in_memory]

lemma exists_cut {stream a frame rest : Bytes} (hpart : stream <+: a ++ (frame ++ rest))
    (hmore : a.length < stream.length) (hless : stream.length < (a ++ frame).length) :
    ∃ cut, stream = a ++ cut ∧ cut ≠ [] ∧ cut <+: frame ∧ cut.length < frame.length := by
  rw [length_append] at hless
  refine ⟨frame.take (stream.length - a.length), ?_, ?_, take_prefix _ _, ?_⟩
  · rw [prefix_iff_eq_take] at hpart
    nth_rewrite 1 [hpart]
    rw [take_append, take_of_length_le hmore.le,
      take_append_of_le_length (by omega)]
  · intro hnil
    have hlen := congrArg List.length hnil
    rw [length_take, length_nil] at hlen
    omega
  · rw [length_take]
    omega

/-- **Control frames survive any segmentation.**  Payloads that are written in any parts are read
back in any parts, and then the end of the stream is reported; if the stream ends inside a frame,
the ones before it are read back and then an error is reported.  No call writes beyond its
capacity. -/
theorem control_frames_survive (payloads : List Bytes)
    (hsize : ∀ p ∈ payloads, 1 ≤ p.length ∧ p.length ≤ ctlMaxFrame) :
    (∀ w : Sink, w.sent = [] → Transfer.failed ∉ w.answers →
      ∃ w', ctlFrameWrites w payloads = (.ok, w') ∧
        ∀ (fd : Source) (buf : ℕ → UInt8), Transfer.failed ∉ fd.answers →
          (fd.stream = w'.sent → ctlFrameReads ctlMaxFrame (payloads.length + 1) fd buf =
            payloads.map .ok ++ [.error .closed]) ∧
          ∀ done p rest, payloads = done ++ p :: rest → fd.stream <+: w'.sent →
            (done.flatMap ctlFrame).length < fd.stream.length →
            fd.stream.length < ((done ++ [p]).flatMap ctlFrame).length →
            ctlFrameReads ctlMaxFrame (done.length + 1) fd buf =
              done.map .ok ++ [.error .error]) ∧
    ∀ (fd : Source) (buf : ℕ → UInt8) (cap i : ℕ), cap ≤ i →
      (ctlFrameRead fd buf cap).buf i = buf i := by
  refine ⟨fun w hempty hw => ?_, fun fd buf cap i => ctlFrameRead_bounded fd buf⟩
  obtain ⟨w', hwrites, hsent⟩ := ctlFrameWrites_sends w payloads hw
  rw [hempty, nil_append] at hsent
  refine ⟨w', hwrites, fun fd buf hfd => ⟨fun hall => ?_, ?_⟩⟩
  · have hstream : fd.stream = payloads.flatMap ctlFrame ++ [] := by
      rw [hall, hsent, append_nil]
    obtain ⟨fd', buf', hend, hfd', hreads⟩ := ctlFrameReads_frames hsize hfd hstream buf
    rw [hreads, FrameRead.payload, ctlFrameRead_closed hfd' hend]
    rfl
  · intro done p rest hpayloads hpart hmore hless
    rw [hpayloads, forall_mem_append, forall_mem_cons] at hsize
    obtain ⟨hdone, ⟨-, hp⟩, -⟩ := hsize
    rw [hsent, hpayloads, flatMap_append, flatMap_cons] at hpart
    rw [flatMap_append, flatMap_singleton] at hless
    obtain ⟨cut, hstream, hne, hcut, hshort⟩ := exists_cut hpart hmore hless
    obtain ⟨fd', buf', hend, hfd', hreads⟩ := ctlFrameReads_frames hdone hfd hstream buf
    rw [← hend] at hne hcut hshort
    rw [hreads, FrameRead.payload,
      ctlFrameRead_torn hfd' hne hcut hshort (hp.trans_lt (by norm_num))]
    rfl

/-- Two payloads, written in parts. -/
theorem two_frames_survive :
    ∃ w', ctlFrameWrites ⟨[], [.interrupted, .upTo 0, .upTo 2]⟩ [ascii "ab", ascii "c"] =
      (.ok, w') ∧
      ctlFrameReads ctlMaxFrame 3 ⟨w'.sent, [.upTo 1, .interrupted, .upTo 6]⟩ (fun _ => 0) =
        [.ok (ascii "ab"), .ok (ascii "c"), .error .closed] := by
  have hsize : ∀ p ∈ [ascii "ab", ascii "c"], 1 ≤ p.length ∧ p.length ≤ ctlMaxFrame := by decide
  obtain ⟨w', hwrites, hreads⟩ := (control_frames_survive _ hsize).1
    ⟨[], [.interrupted, .upTo 0, .upTo 2]⟩ rfl (by decide)
  exact ⟨w', hwrites, (hreads ⟨w'.sent, _⟩ _ (by simp)).1 rfl⟩

end BallotBox
