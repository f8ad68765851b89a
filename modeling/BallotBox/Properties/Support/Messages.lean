import BallotBox.Construction.Codec
import BallotBox.Properties.Support.Serialization

/-!
# Messages that can be written

When a body can be put together and a message serialized, and what bytes that gives.  A body of
one-line texts that is short enough is the texts one after another (`bodyAppendAll_eq`);
`responseBytes` is a response as it goes over the socket.
-/

namespace BallotBox

open List (flatten_append flatten_cons flatten_nil forall_mem_cons forall_mem_map length_append
  length_nil)

variable {body name : Bytes} {ε β : Type}
variable {texts : List Bytes} {key : String} {value : Bytes} {n cap : ℕ} {α : Type} {b : β}
  {date : CStr 48} {r : BbResult}

/-! ## Bodies -/

def OneLine (text : Bytes) : Prop := cr ∉ text ∧ lf ∉ text.dropLast

instance (text : Bytes) : Decidable (OneLine text) := inferInstanceAs (Decidable (_ ∧ _))

lemma bodyAppendAll_eq (hline : ∀ x ∈ texts, OneLine x)
    (hlen : body.length + texts.flatten.length < codecBodyMax) :
    bodyAppendAll body texts = some (body ++ texts.flatten) := by
  induction texts generalizing body with
  | nil => simp [bodyAppendAll]
  | cons x texts ih =>
    simp only [flatten_cons, length_append] at hlen
    have hx : bodyAppend body x = some (body ++ x) := by
      obtain ⟨hcr, hlf⟩ := hline x List.mem_cons_self
      rw [bodyAppend, if_neg (by omega), if_neg (by simp [hcr, hlf])]
    rw [bodyAppendAll, hx, flatten_cons, ← List.append_assoc]
    refine ih (fun y hy => hline y (List.mem_cons_of_mem _ hy)) ?_
    simp only [length_append]
    omega

lemma oneLine_kvLine (hkey : Clean (ascii key))
    (hvalue : Clean value) : OneLine (kvLine key value) := by
  obtain ⟨-, hkcr, hklf⟩ := hkey
  obtain ⟨-, hvcr, hvlf⟩ := hvalue
  have hdrop : (kvLine key value).dropLast = ascii key ++ [61] ++ value := by
    rw [kvLine, List.dropLast_concat]
  refine ⟨?_, ?_⟩
  · simp only [kvLine, List.mem_append, List.mem_singleton, not_or]
    exact ⟨⟨⟨hkcr, by decide⟩, hvcr⟩, by decide⟩
  · simp only [hdrop, List.mem_append, List.mem_singleton, not_or]
    exact ⟨⟨hklf, by decide⟩, hvlf⟩

lemma clean_fmtInt (n : ℤ) : Clean (fmtInt n) := clean_renderInt _

lemma length_fmtInt_le (n : ℤ) : (fmtInt n).length ≤ 11 := by
  refine length_renderInt_le (by norm_num) ?_
  have hlower := Int.le_bmod (x := n) (m := 2 ^ 32) (by norm_num)
  have hupper := Int.bmod_lt (x := n) (m := 2 ^ 32) (by norm_num)
  unfold wrap32
  omega

@[simp] lemma length_kvLine (key : String) (value : Bytes) :
    (kvLine key value).length = (ascii key).length + value.length + 2 := by
  simp [kvLine]
  omega

lemma length_flatten_le {b : ℕ} (hn : texts.length ≤ n)
    (hb : ∀ x ∈ texts, x.length ≤ b) : texts.flatten.length ≤ n * b := by
  rw [List.length_flatten]
  calc (texts.map List.length).sum
      ≤ (texts.map List.length).length * b := by
        refine (List.sum_le_card_nsmul _ b ?_).trans_eq (smul_eq_mul ..)
        simpa using hb
    _ ≤ n * b := by
        rw [List.length_map]
        exact Nat.mul_le_mul_right b hn

/-! ## Serialized responses -/

@[simp] lemma ok_bind (a : α) (k : α → Except ε β) : ((Except.ok a : Except ε α) >>= k) = k a := rfl

lemma bind_eq_ok {x : Except ε α} {k : α → Except ε β} :
    (x >>= k) = .ok b ↔ ∃ a, x = .ok a ∧ k a = .ok b := by
  cases x with
  | ok a => simp
  | error e => simp [bind, Except.bind]

lemma ite_throw_eq_ok {c : Prop} [Decidable c] {e : ε} {k : Unit → Except ε β} :
    (if c then (throw e : Except ε Unit) >>= k else k ()) = .ok b ↔ ¬ c ∧ k () = .ok b := by
  split_ifs with hc
  · constructor
    · intro h
      obtain ⟨_, hthrow, -⟩ := bind_eq_ok.mp h
      cases hthrow
    · rintro ⟨hnot, -⟩
      exact absurd hc hnot
  · simp [hc]

def responseBytes (status : ℕ) (reason date body : Bytes) : Bytes :=
  htttpVersion ++ [32] ++ renderNat status ++ [32] ++ reason ++ crlf ++
    headerLine (ascii "Date") date ++ bodyBytes body

lemma responseFrame_bare (status : ℕ) (reason : Bytes) (date : CStr 48) (hbody : body ≠ []) :
    responseFrame reason (responseHeaders date ⟨status, [], body⟩) ⟨status, [], body⟩ =
      responseBytes status reason date.bytes body := by
  simp [responseFrame, responseHeaders, responseBytes, emitted, headerBytes, tailBytes, hbody,
    dateKey_bytes, dateValue_bytes]

lemma htttpSerializeResponse_eq {status : ℕ} {reason : Bytes}
    (hreason : htttpReason status = some reason) (hbody : body ≠ [])
    (h : (responseBytes status reason date.bytes body).length ≤ cap) :
    htttpSerializeResponse cap date ⟨status, [], body⟩ =
      .ok (responseBytes status reason date.bytes body) := by
  rw [← responseFrame_bare status reason date hbody] at h ⊢
  have hheaders : HeadersOk true [] := ⟨Nat.zero_le _, List.forall_mem_nil _⟩
  exact htttpSerializeResponse_eq_ok_iff.mpr ⟨reason, hreason, hheaders, h, rfl⟩

/-! ## Responses of the dispatcher -/

/-- The strings of a response fit on their lines, and its tables are no longer than their
arrays. -/
structure BclResponse.Printable (resp : BclResponse) : Prop where
  id : Clean resp.election.id.bytes
  title : Clean resp.election.title.bytes
  openTime : Clean resp.election.openTime.bytes
  closeTime : Clean resp.election.closeTime.bytes
  electionOptions : ∀ o ∈ resp.election.options.toList, Clean o.bytes
  hash : Clean resp.receipt.hash.bytes
  issuedAt : Clean resp.receipt.issuedAt.bytes
  options : ∀ o ∈ resp.options.toList, Clean o.bytes
  hashes : ∀ h ∈ resp.hashes, Clean h.hash.bytes
  hashes_le : resp.hashes.length ≤ bbMaxVoters
  foundOptionName : Clean resp.foundOptionName.bytes

variable {resp : BclResponse} {op : BclOp}

lemma clean_bbStateStr (s : BbState) : Clean (bbStateStr s) := by
  cases s <;> decide

lemma oneLine_of_clean {b : Bytes} (h : Clean b) : OneLine b :=
  ⟨h.2.1, fun hlf => h.2.2 (List.mem_of_mem_dropLast hlf)⟩

lemma Clean.append {a b : Bytes} (ha : Clean a) (hb : Clean b) : Clean (a ++ b) := by
  simp only [Clean, List.mem_append, not_or]
  exact ⟨⟨ha.1, hb.1⟩, ⟨ha.2.1, hb.2.1⟩, ha.2.2, hb.2.2⟩

lemma oneLine_tallyTexts {tally : List ℤ} : ∀ x ∈ tallyTexts tally, OneLine x := by
  have hcomma (n : ℤ) : OneLine ([44] ++ fmtInt n) :=
    oneLine_of_clean ((by decide : Clean [44]).append (clean_fmtInt n))
  cases tally with
  | nil => simp [tallyTexts]
  | cons t ts =>
    simp only [tallyTexts, List.mem_cons, List.mem_map]
    rintro x (rfl | ⟨n, -, rfl⟩)
    · exact oneLine_of_clean (clean_fmtInt t)
    · exact hcomma n

lemma oneLine_rowLine {h : BbBallotHash} (hh : Clean h.hash.bytes) : OneLine (rowLine h) := by
  have hcomma : Clean [44] := by decide
  exact oneLine_kvLine (by decide) (((((hh.append hcomma).append (clean_fmtInt _)).append
    hcomma).append (clean_fmtInt _)).append hcomma |>.append (clean_fmtInt _))

lemma BclResponse.Printable.oneLine (h : resp.Printable) :
    ∀ x ∈ responseTexts op resp, OneLine x := by
  have hline {key : String} {value : Bytes} (hkey : Clean (ascii key)) (hvalue : Clean value) :
      OneLine (kvLine key value) := oneLine_kvLine hkey hvalue
  have hmap {n : ℕ} {key : String} {l : List (CStr n)} {k : ℕ} (hkey : Clean (ascii key))
      (hl : ∀ o ∈ l, Clean o.bytes) :
      ∀ x ∈ (l.take k).map (fun o => kvLine key o.bytes), OneLine x := by
    rw [forall_mem_map]
    exact fun o ho => hline hkey (hl o (List.mem_of_mem_take ho))
  unfold responseTexts
  cases op with
  | create | adminNextId =>
    dsimp only
    split_ifs
    · simp
    · simpa using hline (by decide) h.id
  | opening | close | publish => simp
  | join =>
    dsimp only
    split_ifs
    · simp
    · simp only [List.forall_mem_append, forall_mem_cons]
      exact ⟨⟨hline (by decide) h.id, hline (by decide) h.title,
        hline (by decide) (clean_bbStateStr _), hline (by decide) h.openTime,
        hline (by decide) h.closeTime, hline (by decide) (clean_fmtInt _),
        hline (by decide) (clean_fmtInt _), by simp⟩, hmap (by decide) h.electionOptions⟩
  | cast | update =>
    dsimp only
    split_ifs
    · simp
    · simpa using ⟨hline (by decide) h.hash, hline (by decide) h.issuedAt⟩
  | results | adminResults =>
    simp only [List.forall_mem_append, forall_mem_cons, forall_mem_map]
    refine ⟨⟨⟨⟨hline (by decide) h.id, hline (by decide) h.title,
      hline (by decide) (clean_fmtInt _), by simp⟩, ?_⟩, hline (by decide) (clean_fmtInt _),
      by simp⟩, fun row hrow => oneLine_rowLine (h.hashes row hrow)⟩
    split_ifs
    · simp
    · simp only [List.forall_mem_append, forall_mem_cons]
      exact ⟨⟨⟨⟨by decide, by simp⟩, oneLine_tallyTexts⟩, by decide, by simp⟩,
        hmap (by decide) h.options⟩
  | check | adminCheck =>
    simp only [List.forall_mem_append, forall_mem_cons]
    refine ⟨⟨hline (by decide) (clean_fmtInt _), by simp⟩, ?_⟩
    split_ifs
    · simpa using ⟨hline (by decide) (clean_fmtInt _), hline (by decide) h.foundOptionName⟩
    · simp

lemma length_tallyTexts (tally : List ℤ) (h : tally.length ≤ bbMaxOptions) :
    (tallyTexts tally).flatten.length ≤ bbMaxOptions * 12 := by
  refine length_flatten_le ?_ ?_
  · cases tally with
    | nil => simp [tallyTexts]
    | cons t ts => simpa [tallyTexts] using h
  · cases tally with
    | nil => simp [tallyTexts]
    | cons t ts =>
      simp only [tallyTexts, forall_mem_cons, forall_mem_map]
      refine ⟨(length_fmtInt_le t).trans (by norm_num), fun n _ => ?_⟩
      have := length_fmtInt_le n
      simp
      omega

lemma length_rowLine_le (h : BbBallotHash) : (rowLine h).length ≤ 105 := by
  have hhash : h.hash.bytes.length ≤ 64 := h.hash.fits
  have hopt := length_fmtInt_le h.optionIndex
  have hver := length_fmtInt_le h.version
  have hsup := length_fmtInt_le h.superseded
  have hkey : (ascii "row").length = 3 := rfl
  simp only [rowLine, length_kvLine, length_append, List.length_singleton, hkey]
  omega

lemma length_optionLines_le (key : String) (options : Vector (CStr bbOptionLen) bbMaxOptions)
    (n : ℕ) (hkey : (ascii key).length ≤ 13) :
    ((options.toList.take n).map fun o => kvLine key o.bytes).flatten.length ≤ 736 := by
  refine (length_flatten_le (n := bbMaxOptions) (b := 46) (by simp) ?_).trans (by norm_num)
  rw [forall_mem_map]
  intro o _
  have hfits : o.bytes.length ≤ 31 := o.fits
  rw [length_kvLine]
  omega

lemma length_kvLine_le (hkey : (ascii key).length ≤ 20)
    (hvalue : value.length ≤ n) : (kvLine key value).length ≤ n + 22 := by
  rw [length_kvLine]
  omega

lemma BclResponse.Printable.length_le (h : resp.Printable) :
    (responseTexts op resp).flatten.length ≤ 8000 := by
  have hid : (kvLine "election_id" resp.election.id.bytes).length ≤ 15 + 22 :=
    length_kvLine_le (by decide) resp.election.id.fits
  have htitle : (kvLine "title" resp.election.title.bytes).length ≤ 63 + 22 :=
    length_kvLine_le (by decide) resp.election.title.fits
  have hint {key : String} (n : ℤ) (hkey : (ascii key).length ≤ 20) :
      (kvLine key (fmtInt n)).length ≤ 11 + 22 := length_kvLine_le hkey (length_fmtInt_le n)
  unfold responseTexts
  cases op with
  | create | adminNextId =>
    dsimp only
    split_ifs
    · simp
    · simp only [flatten_cons, flatten_nil, List.append_nil]
      omega
  | opening | close | publish => simp
  | join =>
    have hopen : (kvLine "open_time" resp.election.openTime.bytes).length ≤ 31 + 22 :=
      length_kvLine_le (by decide) resp.election.openTime.fits
    have hclose : (kvLine "close_time" resp.election.closeTime.bytes).length ≤ 31 + 22 :=
      length_kvLine_le (by decide) resp.election.closeTime.fits
    have hstate : (kvLine "state" (bbStateStr resp.election.state)).length ≤ 9 + 22 :=
      length_kvLine_le (by decide) (by cases resp.election.state <;> decide)
    have hprior : (kvLine "has_prior_ballot" _).length ≤ _ :=
      hint (flag resp.hasPriorBallot) (by decide)
    have hversion : (kvLine "prior_ballot_version" _).length ≤ _ :=
      hint resp.priorBallotVersion (by decide)
    have hoptions := length_optionLines_le "option" resp.election.options
      resp.election.optionCount (by decide)
    dsimp only
    split_ifs
    · simp
    · simp only [flatten_append, flatten_cons, flatten_nil, length_append, length_nil]
      omega
  | cast | update =>
    have hhash : (kvLine "hash" resp.receipt.hash.bytes).length ≤ 64 + 22 :=
      length_kvLine_le (by decide) resp.receipt.hash.fits
    have hissued : (kvLine "issued_at" resp.receipt.issuedAt.bytes).length ≤ 31 + 22 :=
      length_kvLine_le (by decide) resp.receipt.issuedAt.fits
    dsimp only
    split_ifs
    · simp
    · simp only [flatten_cons, flatten_nil, length_append, length_nil]
      omega
  | results | adminResults =>
    have hcount : (kvLine "tally_count" _).length ≤ _ := hint resp.optionCount (by decide)
    have hhashes : (kvLine "hash_count" _).length ≤ _ := hint resp.hashes.length (by decide)
    have hoptions := length_optionLines_le "result_option" resp.options resp.optionCount (by decide)
    have htally := length_tallyTexts (resp.tally.toList.take resp.optionCount) (by simp)
    have hrows : (resp.hashes.map rowLine).flatten.length ≤ bbMaxVoters * 105 := by
      refine length_flatten_le (by simpa using h.hashes_le) ?_
      rw [forall_mem_map]
      exact fun row _ => length_rowLine_le row
    have hkey : (ascii "tally=").length = 6 := rfl
    simp only [flatten_append, flatten_cons, flatten_nil, length_append,
      length_nil, bbMaxVoters, bbMaxOptions] at htally hrows ⊢
    split_ifs
    · simp only [flatten_nil, length_nil]
      omega
    · simp only [flatten_append, flatten_cons, flatten_nil, length_append,
        length_nil, List.length_cons]
      omega
  | check | adminCheck =>
    have hfound : (kvLine "found" _).length ≤ _ := hint (flag resp.found) (by decide)
    have hoption : (kvLine "found_option" _).length ≤ _ := hint resp.foundOption (by decide)
    have hname : (kvLine "found_option_name" resp.foundOptionName.bytes).length ≤ 31 + 22 :=
      length_kvLine_le (by decide) resp.foundOptionName.fits
    dsimp only
    split_ifs
    · simp only [flatten_append, flatten_cons, flatten_nil, length_append, length_nil]
      omega
    · simp only [flatten_append, flatten_cons, flatten_nil, length_append, length_nil]
      omega

/-! ## Encoded responses -/

lemma nameFromResult_eq_none : nameFromResult r = none ↔ r = .err .retry := by
  cases r with
  | ok => simp [nameFromResult]
  | err e => cases e <;> simp [nameFromResult]

lemma clean_of_nameFromResult (h : nameFromResult r = some name) :
    Clean name ∧ name.length ≤ 25 := by
  cases r with
  | ok =>
    cases h
    decide
  | err e => cases e <;> cases h <;> decide

lemma reason_of_bclHttpStatus (r : BbResult) :
    ∃ reason, htttpReason (bclHttpStatus r) = some reason ∧ Clean reason ∧
      reason.length ≤ 21 ∧ (renderNat (bclHttpStatus r)).length ≤ 3 := by
  cases r with
  | ok => exact ⟨_, rfl, by decide⟩
  | err e => cases e <;> exact ⟨_, rfl, by decide⟩

def responseBody (name : Bytes) (op : BclOp) (resp : BclResponse) : Bytes :=
  kvLine "status" name ++ (responseTexts op resp).flatten

lemma bodyAppendAll_response (op : BclOp) (h : resp.Printable)
    (hname : nameFromResult resp.status = some name) :
    bodyAppendAll [] (kvLine "status" name :: responseTexts op resp) =
      some (responseBody name op resp) ∧ (responseBody name op resp).length ≤ 8047 := by
  obtain ⟨hclean, hlen⟩ := clean_of_nameFromResult hname
  have htexts : (responseTexts op resp).flatten.length ≤ 8000 := h.length_le
  have hstatus : (kvLine "status" name).length ≤ 25 + 22 := length_kvLine_le (by decide) hlen
  refine ⟨bodyAppendAll_eq ?_ ?_, ?_⟩
  · rw [forall_mem_cons]
    exact ⟨oneLine_kvLine (by decide) hclean, h.oneLine⟩
  · simp only [flatten_cons, length_append, length_nil, codecBodyMax]
    omega
  · simp only [responseBody, length_append]
    omega

theorem bclEncodeResponse_eq (h : resp.Printable)
    (hname : nameFromResult resp.status = some name) (hcap : 16384 ≤ cap) :
    ∃ reason, htttpReason (bclHttpStatus resp.status) = some reason ∧
      bclEncodeResponse cap date op resp =
        some (responseBytes (bclHttpStatus resp.status) reason date.bytes
          (responseBody name op resp)) := by
  obtain ⟨reason, hreason, -, hphrase, hdigits⟩ := reason_of_bclHttpStatus resp.status
  obtain ⟨hbody, hlen⟩ := bodyAppendAll_response op h hname
  refine ⟨reason, hreason, ?_⟩
  have hne : responseBody name op resp ≠ [] := by simp [responseBody, kvLine]
  have hdate : date.bytes.length ≤ 47 := date.fits
  have hcount : (renderNat (responseBody name op resp).length).length ≤ 4 :=
    length_renderNat_le (by norm_num) (by omega)
  have hfits : (responseBytes (bclHttpStatus resp.status) reason date.bytes
      (responseBody name op resp)).length ≤ cap := by
    simp only [responseBytes, bodyBytes, headerLine, length_append, List.length_singleton]
    have hversion : htttpVersion.length = 9 := rfl
    have hcrlf : crlf.length = 2 := rfl
    have hkeys : (ascii "Date").length = 4 ∧ (ascii ": ").length = 2 ∧
        (ascii "Content-Length").length = 14 := ⟨rfl, rfl, rfl⟩
    omega
  simp only [bclEncodeResponse, hname, hbody, Option.bind_eq_bind, Option.bind_some]
  rw [htttpSerializeResponse_eq hreason hne hfits]
  rfl

end BallotBox
