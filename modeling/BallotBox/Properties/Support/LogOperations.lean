import BallotBox.Properties.Support.LogBytes

/-!
# The operations of the log on its file

Each operation does to the bytes of the file what the operation of the same name does to the list of
records (`Represents`), or there was no room left.  In the middle of an operation the file is
followed by a part of a record (`Written`), or the file pointer is somewhere else (`Intact`).
-/

namespace BallotBox.SimpleDb

open LogRecord List Triple Journal

variable {offset : ℤ} {α : Type} {r : FileRecord} {t : Long} {pre post records : List FileRecord}
variable {p : Reader α} {a : α} {P : LogFile → Prop} {start : ℤ}

abbrev FileJournal := Journal Long HeapPageId PageData

variable {reread : HeapPageId → PageData → Option PageData} {j : FileJournal} {f : LogFile}
  {bs cs : Bytes} {E : LogError → LogFile → Prop}

/-- The file has the records of the journal, and then some bytes. -/
structure Intact (j : FileJournal) (bs : Bytes) (f : LogFile) : Prop where
  undecided : f.recoveryUndecided = j.recoveryUndecided
  first : f.tidToFirstLogRecord = j.tidToFirstLogRecord
  few : f.tidToFirstLogRecord.entries.length < 2 ^ 31
  file : f.file = encodeFile j.pointer j.records ++ bs
  small : f.file.length < 2 ^ 63

/-- Moreover the file pointer is at the end, and the object knows where the next record begins. -/
structure Written (j : FileJournal) (bs : Bytes) (f : LogFile) : Prop extends Intact j bs f where
  decided : j.recoveryUndecided = false
  pos : f.pos = f.file.length
  offset : f.currentOffset = (encodeFile j.pointer j.records).length

inductive Represents (j : FileJournal) (f : LogFile) : Prop
  | written (h : Written j [] f)
  | found (h : Intact j [] f) (hundecided : j.recoveryUndecided = true)
  | empty (hfile : f.file = []) (hundecided : f.recoveryUndecided = true)
      (hundecided' : j.recoveryUndecided = true) (hrecords : j.records = [])
      (hfirst : f.tidToFirstLogRecord = j.tidToFirstLogRecord)
      (hfew : f.tidToFirstLogRecord.entries.length < 2 ^ 31)

lemma Represents.of_decided {j : FileJournal} {f : LogFile} (h : Represents j f)
    (hdecided : j.recoveryUndecided = false) : Written j [] f := by
  cases h with
  | written h => exact h
  | found _ hundecided => simp [hdecided] at hundecided
  | empty _ _ hundecided => simp [hdecided] at hundecided

abbrev NoRoom (e : LogError) (_ : LogFile) : Prop := e = .full

namespace LogFile

/-! ## The file pointer -/

lemma seek_run (h : 0 ≤ offset) : (seek offset).run f = .ok () { f with pos := offset.toNat } := by
  show EStateM.run (if offset < 0 then _ else _) f = _
  rw [if_neg (not_lt.mpr h)]
  rfl

lemma write_run (h : f.pos + bs.length < 2 ^ 63) : (write bs).run f =
    .ok () { f with file := overwrite f.file f.pos bs, pos := f.pos + bs.length } := by
  show EStateM.run (if 2 ^ 63 ≤ f.pos + bs.length then _ else _) f = _
  rw [if_neg (not_le.mpr h)]
  rfl

lemma write_run_full (h : ¬ f.pos + bs.length < 2 ^ 63) : (write bs).run f = .error .full f := by
  show EStateM.run (if 2 ^ 63 ≤ f.pos + bs.length then _ else _) f = _
  rw [if_pos (not_lt.mp h)]
  rfl

lemma reading_run {rest : Bytes} (h : p.run (f.file.drop f.pos) = .ok a rest) : (reading p).run f =
      .ok a { f with pos := f.pos + ((f.file.drop f.pos).length - rest.length) } := by
  show reading p f = _
  rw [reading, h]

lemma reading_run_eof {rest : Bytes}
    (h : p.run (f.file.drop f.pos) = .error .eof rest) : (reading p).run f =
      .error .eof { f with pos := f.pos + ((f.file.drop f.pos).length - rest.length) } := by
  show reading p f = _
  rw [reading, h]

lemma reading_spec (hP : ∀ f n, P f → P { f with pos := n }) (h : Decodes p bs a) (rest : Bytes) :
    Triple (fun f => P f ∧ f.file.drop f.pos = bs ++ rest) (reading p)
      (fun v f => v = a ∧ P f ∧ f.file.drop f.pos = rest) E := by
  rintro f ⟨hf, hleft⟩
  have hlength : (f.file.drop f.pos).length - rest.length = bs.length := by
    rw [hleft, length_append]
    omega
  rw [reading_run (hleft ▸ h rest), hlength]
  refine ⟨rfl, hP f _ hf, ?_⟩
  show f.file.drop (f.pos + bs.length) = rest
  rw [← drop_drop, hleft, drop_left]

/-! ## Appending -/

lemma overwrite_end (file bs : Bytes) : overwrite file file.length bs = file ++ bs := by
  simp [overwrite]

lemma write_spec (cs : Bytes) :
    Triple (Written j bs) (write cs) (fun _ => Written j (bs ++ cs)) NoRoom := by
  intro f hf
  by_cases hroom : f.pos + cs.length < 2 ^ 63
  · rw [write_run hroom]
    have hend : overwrite f.file f.pos cs = f.file ++ cs := by rw [hf.pos, overwrite_end]
    have hlength : f.pos + cs.length = (f.file ++ cs).length := by rw [hf.pos, length_append]
    exact
      { undecided := hf.undecided
        first := hf.first
        few := hf.few
        file := by
          show overwrite f.file f.pos cs = _
          rw [hend, hf.file, append_assoc]
        small := by
          show (overwrite f.file f.pos cs).length < _
          rwa [hend, ← hlength]
        decided := hf.decided
        pos := by
          show f.pos + cs.length = (overwrite f.file f.pos cs).length
          rw [hend, hlength]
        offset := hf.offset }
  · rw [write_run_full hroom]

def headBytes (r : FileRecord) : Bytes :=
  intBytes (typeOf r) ++ longBytes (tidOf r) ++ bodyBytes r

lemma encodeFile_concat (j : FileJournal) (r : FileRecord) :
    encodeFile j.pointer (j.records ++ [r]) = encodeFile j.pointer j.records ++
      (headBytes r ++ offsetBytes (encodeFile j.pointer j.records).length) := by
  rw [encodeFile, encodeRecords_append, length_encodeFile]
  simp [encodeFile, encodeRecords, encodeRecord, headBytes]

lemma setOffset_spec (hdecided : j.recoveryUndecided = false) :
    Triple (fun f => Intact j [] f ∧ f.pos = f.file.length) setOffset (fun _ => Written j [])
      NoRoom := by
  rintro f ⟨hf, hpos⟩
  refine ⟨⟨hf.undecided, hf.first, hf.few, hf.file, hf.small⟩, hdecided, hpos, ?_⟩
  show (f.pos : ℤ) = _
  rw [hpos, hf.file, append_nil]

lemma intact_append (hf : Written j bs f)
    (h : bs = headBytes r ++ offsetBytes (encodeFile j.pointer j.records).length) :
    Intact (j.append r) [] f ∧ f.pos = f.file.length := by
  refine ⟨⟨hf.undecided, hf.first, hf.few, ?_, hf.small⟩, hf.pos⟩
  rw [hf.file, h, append_nil]
  exact (encodeFile_concat j r).symm

lemma endRecord_spec (h : bs = headBytes r) :
    Triple (Written j bs) endRecord (fun _ => Written (j.append r) []) NoRoom := by
  refine get_bind fun f hf => ?_
  refine ((write_spec _).bind fun _ => ?_).pre fun _ h => h ▸ hf
  have hdecided : (j.append r).recoveryUndecided = false := hf.decided
  refine (setOffset_spec hdecided).pre fun f' hf' => intact_append hf' ?_
  rw [h, hf.offset]

lemma preAppend_spec :
    Triple (Represents j) preAppend (fun _ => Written j.preAppend []) NoRoom := by
  intro f hf
  have hfresh (hundecided : f.recoveryUndecided = true) (hj : j.recoveryUndecided = true)
      (hfirst : f.tidToFirstLogRecord = j.tidToFirstLogRecord)
      (hfew : f.tidToFirstLogRecord.entries.length < 2 ^ 31) :
      preAppend.run f = .ok () { f with
        recoveryUndecided := false, file := offsetBytes (-1), pos := 8, currentOffset := 8 } ∧
      Written j.preAppend [] { f with
        recoveryUndecided := false, file := offsetBytes (-1), pos := 8, currentOffset := 8 } := by
    have hpre :
        j.preAppend = { j with pointer := -1, records := [], recoveryUndecided := false } := by
      rw [Journal.preAppend, if_pos hj]
    have hempty : encodeFile j.preAppend.pointer j.preAppend.records = offsetBytes (-1) := by
      rw [hpre]
      exact append_nil _
    refine ⟨?_, ⟨?_, ?_, hfew, ?_, by simp⟩, by simp, by simp, ?_⟩
    · show EStateM.run (if f.recoveryUndecided = true then _ else _) f = _
      rw [if_pos hundecided]
      rfl
    · exact (preAppend_undecided j).symm
    · exact hfirst.trans (preAppend_first j).symm
    · rw [hempty, append_nil]
    · rw [hempty, length_offsetBytes]
      rfl
  cases hf with
  | written h =>
    have hrun : preAppend.run f = .ok () f := by
      show EStateM.run (if f.recoveryUndecided = true then _ else _) f = _
      rw [if_neg (by simp [h.undecided, h.decided])]
      rfl
    rw [hrun, preAppend_of_decided _ h.decided]
    exact h
  | found h hundecided =>
    obtain ⟨hrun, hwritten⟩ := hfresh (h.undecided.trans hundecided) hundecided h.first h.few
    rw [hrun]
    exact hwritten
  | empty _ hundecided hundecided' _ hfirst hfew =>
    obtain ⟨hrun, hwritten⟩ := hfresh hundecided hundecided' hfirst hfew
    rw [hrun]
    exact hwritten

lemma remove_spec (t : Long) : Triple (Written j bs) (remove t)
    (fun _ =>
      Written { j with tidToFirstLogRecord := j.tidToFirstLogRecord.erase t } bs) NoRoom := by
  intro f hf
  refine ⟨⟨hf.undecided, ?_, ?_, hf.file, hf.small⟩, hf.decided, hf.pos, hf.offset⟩
  · show f.tidToFirstLogRecord.erase t = _
    rw [hf.first]
  · refine lt_of_le_of_lt ?_ hf.few
    exact (kerase_sublist t f.tidToFirstLogRecord.entries).length_le

lemma put_run (h : ¬ 2 ^ 31 ≤ (f.tidToFirstLogRecord.insert t offset).entries.length) :
    (put t offset).run f = .ok () { f with
      tidToFirstLogRecord := f.tidToFirstLogRecord.insert t offset } := by
  show EStateM.run (if 2 ^ 31 ≤ _ then _ else _) f = _
  rw [if_neg h]
  rfl

lemma put_run_full (h : 2 ^ 31 ≤ (f.tidToFirstLogRecord.insert t offset).entries.length) :
    (put t offset).run f = .error .full f := by
  show EStateM.run (if 2 ^ 31 ≤ _ then _ else _) f = _
  rw [if_pos h]
  rfl

lemma put_spec (t : Long) (offset : ℤ) : Triple (Written j bs) (put t offset) (fun _ => Written
      { j with tidToFirstLogRecord := j.tidToFirstLogRecord.insert t offset } bs) NoRoom := by
  intro f hf
  by_cases hfull : 2 ^ 31 ≤ (f.tidToFirstLogRecord.insert t offset).entries.length
  · rw [put_run_full hfull]
  · rw [put_run hfull]
    refine ⟨⟨hf.undecided, ?_, not_le.mp hfull, hf.file, hf.small⟩, hf.decided, hf.pos, hf.offset⟩
    show f.tidToFirstLogRecord.insert t offset = _
    rw [hf.first]

lemma logCommit_spec (t : Long) :
    Triple (Represents j) (logCommit t) (fun _ => Written (j.logCommit t) []) NoRoom := by
  refine preAppend_spec.bind fun _ => (write_spec _).bind fun _ => ?_
  exact (endRecord_spec (r := .commit t) (by simp [headBytes, typeOf, tidOf, bodyBytes])).bind
    fun _ => remove_spec t

lemma logWrite_spec (t : Long) (before after : PageImage) :
    Triple (Represents j) (logWrite t before after)
      (fun _ => Written (j.logWrite t before after) []) NoRoom := by
  refine preAppend_spec.bind fun _ => (write_spec _).bind fun _ =>
    (write_spec _).bind fun _ => (write_spec _).bind fun _ => ?_
  exact endRecord_spec (r := .update t before after)
    (by simp [headBytes, typeOf, tidOf, bodyBytes])

lemma logXactionBegin_spec (t : Long) : Triple (Represents j) (logXactionBegin t)
      (fun _ => Represents ((j.logXactionBegin (size imageSize) t).getD j))
      (fun e f => e = .full ∨
        Represents ((j.logXactionBegin (size imageSize) t).getD j) f) := by
  refine get_bind fun f hf => ?_
  have hfirst : f.tidToFirstLogRecord = j.tidToFirstLogRecord := by
    cases hf with
    | written h => exact h.first
    | found h _ => exact h.first
    | empty _ _ _ _ h _ => exact h
  refine Triple.ite (fun hmem => ?_) fun hmem => ?_
  · have hj : j.logXactionBegin (size imageSize) t = none := by
      rw [Journal.logXactionBegin, if_pos (hfirst ▸ hmem)]
    rw [hj, Option.getD_none]
    rintro _ rfl
    exact .inr hf
  · rw [hfirst] at hmem
    have hj : j.logXactionBegin (size imageSize) t = some
        { j.preAppend.append (.begin t) with
          tidToFirstLogRecord := j.preAppend.tidToFirstLogRecord.insert t
            (j.preAppend.endOffset (size imageSize)) } := by
      rw [Journal.logXactionBegin, if_neg hmem]
    rw [hj, Option.getD_some]
    refine Triple.conseq ?_ (fun f' h => (h ▸ hf : Represents j f')) (fun _ _ h => .written h)
      fun _ _ h => .inl h
    refine preAppend_spec.bind fun _ => (write_spec _).bind fun _ => ?_
    refine get_bind fun f₁ hf₁ => ?_
    refine ((write_spec _).bind fun _ => ?_).pre fun _ h => h ▸ hf₁
    refine (put_spec t _).bind fun _ => Triple.pre (setOffset_spec ?_) fun f' hf' => ?_
    · exact hf₁.decided
    have hoffset : f₁.currentOffset = j.preAppend.endOffset (size imageSize) := by
      rw [hf₁.offset, length_encodeFile, Journal.endOffset]
      push_cast
      rfl
    rw [hoffset] at hf'
    refine intact_append (r := .begin t) hf' ?_
    rw [← hoffset, hf₁.offset]
    simp [headBytes, typeOf, tidOf, bodyBytes]

/-! ## Scanning -/

lemma length_le_sum_size (records : List FileRecord) :
    records.length ≤ (records.map (size imageSize)).sum := by
  induction records with
  | nil => rfl
  | cons r records ih =>
    have hpos : 0 < r.size imageSize := r.size_pos
    simp only [length_cons, map_cons, sum_cons]
    omega

lemma Intact.seek (f : LogFile) (n : ℕ) (hf : Intact j bs f) : Intact j bs { f with pos := n } :=
  ⟨hf.undecided, hf.first, hf.few, hf.file, hf.small⟩

lemma seek_spec (hP : ∀ f n, P f → P { f with pos := n })
    (hfile : ∀ f, P f → f.file = encodeFile j.pointer j.records)
    (hsplit : j.records = pre ++ post)
    (hstart : start = 8 + (pre.map (size imageSize)).sum) :
    Triple P (seek start) (fun _ f => P f ∧ f.file.drop f.pos = encodeRecords start post) E := by
  intro f hf
  have hpos : start.toNat = 8 + (pre.map (size imageSize)).sum := by omega
  rw [seek_run (by omega)]
  refine ⟨hP f _ hf, ?_⟩
  show f.file.drop start.toNat = _
  rw [hfile f hf, hsplit, hpos, drop_encodeFile, hstart]

lemma scanLog_spec (hsplit : j.records = pre ++ post) (hread : ∀ r ∈ post, Readable reread r)
    (hstart : start = 8 + (pre.map (size imageSize)).sum) :
    Triple (Intact j []) (scanLog reread start)
      (fun v f => v = post.map scanned ∧ Intact j [] f) E := by
  refine (seek_spec Intact.seek (fun f hf => by simpa using hf.file) hsplit hstart).bind
    fun _ => get_bind fun f hf => ?_
  obtain ⟨hf, hleft⟩ := hf
  have hfuel : post.length < f.file.length + 1 := by
    have hlength := length_le_sum_size post
    rw [hf.file, append_nil, length_encodeFile, hsplit, map_append, sum_append]
    omega
  have hreading := readUntilEof_records hread start hfuel
  rw [← hleft] at hreading
  rintro _ rfl
  rw [reading_run hreading]
  exact ⟨rfl, Intact.seek _ _ hf⟩

lemma seekEnd_spec :
    Triple (Intact j bs) seekEnd (fun _ f => Intact j bs f ∧ f.pos = f.file.length) NoRoom :=
  fun _ hf => ⟨⟨hf.undecided, hf.first, hf.few, hf.file, hf.small⟩, rfl⟩

lemma mem_committed :
    t ∈ (records.map scanned).filterMap
      (fun r => if r.type = commitRecord then some r.tid else none) ↔
      won records t = true := by
  rw [won, any_eq_true, mem_filterMap]
  constructor
  · rintro ⟨_, hmem, ht⟩
    obtain ⟨r, hr, rfl⟩ := mem_map.mp hmem
    refine ⟨r, hr, ?_⟩
    cases r <;> simp_all [scanned, typeOf, tidOf, commits]
  · rintro ⟨r, hr, ht⟩
    refine ⟨scanned r, mem_map_of_mem hr, ?_⟩
    cases r <;> simp_all [scanned, typeOf, tidOf, commits]

lemma filterMap_scanned {committed : List Long} (h : ∀ t, t ∈ committed ↔ won records t = true) :
    (records.map scanned).filterMap (fun r => r.images.map fun (before, after) =>
      if r.tid ∈ committed then after else before) = recoverImages records := by
  rw [recoverImages, filterMap_map]
  refine filterMap_congr fun r _ => ?_
  cases r with
  | update t before after =>
    by_cases hwon : won records t = true
    · simp [scanned, tidOf, settle, h, hwon]
    · simp [scanned, tidOf, settle, h, hwon]
  | _ => rfl

lemma recover_spec (hread : ∀ r ∈ j.records, Readable reread r) :
    Triple (fun f => Represents j f ∧ f.file ≠ []) (recover reread)
      (fun images f => images = recoverImages j.records ∧ Written j.recovered [] f) NoRoom := by
  have hscan : Triple (Intact j.recovered []) (scanLog reread 8)
      (fun v f => v = j.records.map scanned ∧ Intact j.recovered [] f) NoRoom :=
    scanLog_spec (j := j.recovered) (nil_append _).symm hread (by simp)
  refine Triple.bind (Q := fun _ => Intact j.recovered []) ?_ fun _ => ?_
  · rintro f ⟨hf, hne⟩
    cases hf with
    | written h => exact ⟨rfl, h.first, h.few, h.file, h.small⟩
    | found h _ => exact ⟨rfl, h.first, h.few, h.file, h.small⟩
    | empty hfile => exact absurd hfile hne
  · refine bind_imp hscan fun v hv => ?_
    refine bind_imp hscan fun w hw => ?_
    refine seekEnd_spec.bind fun _ => (setOffset_spec rfl).bind fun _ => ?_
    subst hv hw
    exact fun f hf => ⟨filterMap_scanned fun t => mem_committed, hf⟩

/-! ## Rolling back -/

lemma lookup_putIfAbsent (t : Long) (p : HeapPageId) (r : FileRecord)
    (records : List FileRecord) (images : AList fun _ : HeapPageId => PageData) :
    ((putIfAbsent t images (scanned r)).lookup p).or (beforeImage t p records) =
      (images.lookup p).or (beforeImage t p (r :: records)) := by
  cases r with
  | update u before after =>
    have hput : putIfAbsent t images (scanned (.update u before after)) =
        if u = t ∧ before.pid ∉ images then images.insert before.pid before.data else images := rfl
    rw [hput, beforeImage]
    by_cases hp : p = before.pid
    · subst hp
      by_cases hu : u = t
      · by_cases hmem : before.pid ∈ images
        · obtain ⟨d, hd⟩ := Option.isSome_iff_exists.mp (AList.lookup_isSome.mpr hmem)
          simp [hmem, hd]
        · simp [hu, hmem, AList.lookup_eq_none.mpr hmem]
      · simp [hu]
    · have hne : before.pid ≠ p := Ne.symm hp
      split_ifs <;> simp_all [AList.lookup_insert_ne hp]
  | _ => rfl

lemma lookup_beforeImages (t : Long) (p : HeapPageId) (records : List FileRecord) :
    (beforeImages t (records.map scanned)).lookup p = beforeImage t p records := by
  have hfold (images : AList fun _ : HeapPageId => PageData) :
      ((records.map scanned).foldl (putIfAbsent t) images).lookup p =
        (images.lookup p).or (beforeImage t p records) := by
    induction records generalizing images with
    | nil => simp [beforeImage]
    | cons r records ih =>
      rw [map_cons, foldl_cons, ih]
      exact lookup_putIfAbsent t p r records images
  rw [beforeImages, hfold]
  rfl

def Known (j : FileJournal) : Prop :=
  ∀ t offset, j.tidToFirstLogRecord.lookup t = some offset →
    Journal.Boundary imageSize j.records offset

lemma rollback_spec (hdecided : j.recoveryUndecided = false) (hknown : Known j)
    (hread : ∀ r ∈ j.records, Readable reread r) (t : Long) :
    Triple (Written j []) (rollback reread t)
      (fun images f => (∀ p, images.lookup p = j.rollback (size imageSize) t p) ∧
        Written j [] f) NoRoom := by
  have hpre : j.preAppend = j := preAppend_of_decided j hdecided
  have happend : Triple (Written j []) preAppend (fun _ => Written j []) NoRoom := by
    have h := (preAppend_spec (j := j)).pre fun _ hf => .written hf
    rwa [hpre] at h
  refine happend.bind fun _ => get_bind fun f hf => ?_
  cases hfirst : f.tidToFirstLogRecord.lookup t with
  | none =>
    rintro _ rfl
    refine ⟨fun p => ?_, hf⟩
    rw [Journal.rollback, hpre, ← hf.first, hfirst]
    rfl
  | some offset =>
    obtain ⟨pre, post, hsplit, hoffset⟩ := hknown t offset (hf.first ▸ hfirst)
    have hread' (r : FileRecord) (hr : r ∈ post) : Readable reread r :=
      hread r (by simp [hsplit, hr])
    refine ((scanLog_spec hsplit hread' hoffset).bind fun v => ?_).pre
      fun _ h => (h ▸ hf).toIntact
    refine of_imp fun hv => seekEnd_spec.bind fun _ =>
      (setOffset_spec hdecided).bind fun _ => ?_
    subst hv
    refine fun f' hf' => ⟨fun p => ?_, hf'⟩
    rw [lookup_beforeImages, Journal.rollback, hpre, ← hf.first, hfirst]
    dsimp only
    rw [hsplit, hoffset, scanFrom_offset]

lemma logAbort_spec (hknown : Known j.preAppend)
    (hread : ∀ r ∈ j.preAppend.records, Readable reread r) (t : Long) :
    Triple (Represents j) (logAbort reread t)
      (fun images f => (∀ p, images.lookup p = j.rollback (size imageSize) t p) ∧
        Written (j.logAbort t) [] f) NoRoom := by
  refine preAppend_spec.bind fun _ =>
    (rollback_spec (preAppend_undecided j) hknown hread t).bind fun images => ?_
  refine of_imp fun himages => (write_spec _).bind fun _ => ?_
  refine (endRecord_spec (r := .abort t)
    (by simp [headBytes, typeOf, tidOf, bodyBytes])).bind fun _ => ?_
  refine (remove_spec t).bind fun _ => fun f hf => ⟨fun p => ?_, hf⟩
  rw [himages p, rollback_preAppend]

/-! ## Checkpoints -/

lemma overwrite_start {file cs : Bytes} : overwrite file 0 cs = cs ++ file.drop cs.length := by
  simp [overwrite]

lemma written_repoint (hf : Written j bs f) (pointer : ℤ) : Written { j with pointer := pointer } bs
      { f with file := overwrite f.file 0 (offsetBytes pointer) } := by
  have hfile : overwrite f.file 0 (offsetBytes pointer) = encodeFile pointer j.records ++ bs := by
    rw [overwrite_start, hf.file, encodeFile, encodeFile, append_assoc, append_assoc,
      drop_left' (by simp)]
  have hlength : (overwrite f.file 0 (offsetBytes pointer)).length = f.file.length := by
    rw [hfile, hf.file, length_append, length_append, length_encodeFile, length_encodeFile]
  refine ⟨⟨hf.undecided, hf.first, hf.few, hfile, ?_⟩, hf.decided, hf.pos.trans hlength.symm, ?_⟩
  · exact hlength ▸ hf.small
  · rw [length_encodeFile, ← length_encodeFile j.pointer]
    exact hf.offset

def flushedTo (j : FileJournal) (flushed : List (Long × PageImage × PageImage)) : FileJournal :=
  flushed.foldl (fun j e => j.logWrite e.1 e.2.1 e.2.2) j

lemma flush_spec (flushed : List (Long × PageImage × PageImage)) :
    Triple (Written j []) (flushed.forM fun e => logWrite e.1 e.2.1 e.2.2)
      (fun _ => Written (flushedTo j flushed) []) NoRoom := by
  refine Triple.forM (I := fun done => Written (flushedTo j done) []) fun done e rest _ => ?_
  have hconcat : flushedTo j (done ++ [e]) = (flushedTo j done).logWrite e.1 e.2.1 e.2.2 := by
    simp [flushedTo]
  rw [hconcat]
  exact (logWrite_spec e.1 e.2.1 e.2.2).pre fun f hf => .written hf

lemma checkpoint_spec (flushed : List (Long × PageImage × PageImage)) :
    Triple (Represents j) (checkpoint flushed)
      (fun _ => Written ((flushedTo j.preAppend flushed).checkpointRecord
        (size imageSize)) []) NoRoom := by
  refine Triple.bind preAppend_spec fun _ => Triple.bind (flush_spec flushed) fun _ => ?_
  generalize flushedTo j.preAppend flushed = k
  refine get_bind fun f₀ hf₀ => ?_
  refine ((write_spec _).bind fun _ => ?_).pre fun _ h => h ▸ hf₀
  refine get_bind fun f₁ hf₁ => ?_
  refine ((write_spec _).bind fun _ => (write_spec _).bind fun _ => ?_).pre
    fun _ h => h ▸ hf₁
  refine get_bind fun f₂ hf₂ => ?_
  have hpre : k.preAppend = k := preAppend_of_decided k hf₀.decided
  have hstart : (f₀.pos : ℤ) = k.endOffset (size imageSize) := by
    rw [hf₀.pos, hf₀.file, append_nil, length_encodeFile, Journal.endOffset]
    push_cast
    rfl
  -- the pointer is written at the front, and the record is closed at the end
  refine Triple.bind (Q := fun _ f => f = { f₂ with pos := 0 }) ?_ fun _ =>
    Triple.bind (Q := fun _ f => f = { f₂ with
      file := overwrite f₂.file 0 (offsetBytes f₀.pos), pos := 8 }) ?_ fun _ =>
    Triple.bind (Q := fun _ f => f = { f₂ with
      file := overwrite f₂.file 0 (offsetBytes f₀.pos) }) ?_ fun _ => ?_
  · rintro _ rfl
    rw [seek_run le_rfl]
    rfl
  · rintro _ rfl
    rw [write_run (by simp)]
    simp
  · rintro _ rfl
    rw [seek_run (by omega)]
    simp
  · have hhead : [] ++ (intBytes checkpointRecord ++ longBytes (-1)) ++
        intBytes (.ofNat 32 k.outstanding.length) ++ k.outstanding.flatMap activeBytes =
        headBytes (.checkpoint k.outstanding) := by
      simp [headBytes, typeOf, tidOf, bodyBytes]
    have hclose := endRecord_spec (j := { k with pointer := f₀.pos }) hhead
    have hactive : f₁.tidToFirstLogRecord.entries.map (fun e => (e.1, e.2)) = k.outstanding := by
      rw [hf₁.first]
      rfl
    rw [hactive] at hf₂
    refine (hclose.pre fun f hf => ?_).post fun _ f hf => ?_
    · rw [hf]
      exact written_repoint hf₂ f₀.pos
    · rw [Journal.checkpointRecord, hpre, ← hstart]
      exact hf

/-! ## Truncation -/

@[simp] lemma typeOf_shift (base : ℤ) (r : FileRecord) : typeOf (r.shift base) = typeOf r := by
  cases r <;> rfl

@[simp] lemma tidOf_shift (base : ℤ) (r : FileRecord) : tidOf (r.shift base) = tidOf r := by
  cases r <;> rfl

/-- The file is copied to a new one. -/
structure Copying (j : FileJournal) (first : AList fun _ : Long => ℤ) (out : Bytes) (f : LogFile) :
    Prop where
  undecided : f.recoveryUndecided = false
  first : f.tidToFirstLogRecord = first
  few : f.tidToFirstLogRecord.entries.length < 2 ^ 31
  file : f.file = encodeFile j.pointer j.records
  out : f.logNew = out
  small : f.logNew.length < 2 ^ 63

variable {first : AList fun _ : Long => ℤ} {out : Bytes} {rest : Bytes} {base : ℤ}

lemma Copying.seek (f : LogFile) (n : ℕ) (hf : Copying j first out f) :
    Copying j first out { f with pos := n } :=
  ⟨hf.undecided, hf.first, hf.few, hf.file, hf.out, hf.small⟩

lemma emit_spec (bs rest : Bytes) :
    Triple (fun f => Copying j first out f ∧ f.file.drop f.pos = rest) (emit bs)
      (fun _ f => Copying j first (out ++ bs) f ∧ f.file.drop f.pos = rest) NoRoom := by
  rintro f ⟨hf, hleft⟩
  by_cases hfull : 2 ^ 63 ≤ f.logNew.length + bs.length
  · have hrun : (emit bs).run f = .error .full f := by
      show EStateM.run (if 2 ^ 63 ≤ f.logNew.length + bs.length then _ else _) f = _
      rw [if_pos hfull]
      rfl
    rw [hrun]
  · have hrun : (emit bs).run f = .ok () { f with logNew := f.logNew ++ bs } := by
      show EStateM.run (if 2 ^ 63 ≤ f.logNew.length + bs.length then _ else _) f = _
      rw [if_neg hfull]
      rfl
    rw [hrun]
    refine ⟨⟨hf.undecided, hf.first, hf.few, hf.file, ?_, ?_⟩, hleft⟩
    · show f.logNew ++ bs = out ++ bs
      rw [hf.out]
    · show (f.logNew ++ bs).length < _
      rw [length_append]
      exact not_le.mp hfull

lemma offsetBytes_shift (offset : ℤ) :
    offsetBytes ((BitVec.ofInt 64 offset).toInt - base + 8) = offsetBytes (offset - base + 8) := by
  have hsum (x : ℤ) : x - base + 8 = x + (8 - base) := by omega
  rw [offsetBytes, offsetBytes, hsum, hsum, BitVec.ofInt_add, BitVec.ofInt_toInt, BitVec.ofInt_add]

lemma rewriteActive_spec (active : List (Long × ℤ)) : Triple (fun f => Copying j first out f ∧
        f.file.drop f.pos = active.flatMap activeBytes ++ rest) (rewriteActive base active.length)
      (fun _ f => Copying j first
        (out ++ (active.map fun e => (e.1, e.2 - base + 8)).flatMap activeBytes) f ∧
        f.file.drop f.pos = rest) NoRoom := by
  induction active generalizing out with
  | nil => exact fun f hf => ⟨by simpa using hf.1, hf.2⟩
  | cons e active ih =>
    rw [flatMap_cons, append_assoc]
    refine bind_imp (reading_spec Copying.seek (decodes_active e.1 e.2) _) fun v hv =>
      (emit_spec _ _).bind fun _ => ?_
    subst hv
    have hentry : activeBytes (e.1, (BitVec.ofInt 64 e.2).toInt - base + 8) =
        activeBytes (e.1, e.2 - base + 8) := by
      rw [activeBytes, activeBytes, offsetBytes_shift]
    rw [hentry]
    refine ih.post fun _ f hf => ?_
    simpa using hf

lemma putCopy_spec (t : Long) (offset : ℤ) :
    Triple (fun f => Copying j first out f ∧ f.file.drop f.pos = rest) (put t offset)
      (fun _ f => Copying j (first.insert t offset) out f ∧ f.file.drop f.pos = rest) NoRoom := by
  rintro f ⟨hf, hleft⟩
  by_cases hfull : 2 ^ 31 ≤ (f.tidToFirstLogRecord.insert t offset).entries.length
  · rw [put_run_full hfull]
  · rw [put_run hfull]
    refine ⟨⟨hf.undecided, ?_, not_le.mp hfull, hf.file, hf.out, hf.small⟩, hleft⟩
    show f.tidToFirstLogRecord.insert t offset = _
    rw [hf.first]

lemma rewriteBody_spec (h : Readable reread r) (newStart : ℤ) :
    Triple (fun f => Copying j first out f ∧ f.file.drop f.pos = bodyBytes r ++ rest)
      (rewriteBody reread base newStart (typeOf r) (tidOf r))
      (fun _ f => Copying j (Journal.putBegin newStart first (r.shift base))
        (out ++ bodyBytes (r.shift base)) f ∧ f.file.drop f.pos = rest) NoRoom := by
  cases r with
  | update t before after =>
    obtain ⟨hbefore, hafter⟩ := h
    rw [bodyBytes, append_assoc]
    refine bind_imp (reading_spec Copying.seek (decodes_page hbefore) _) fun v hv => ?_
    refine bind_imp (reading_spec Copying.seek (decodes_page hafter) _) fun w hw => ?_
    subst hv hw
    refine (emit_spec _ _).bind fun _ => (emit_spec _ _).post fun _ f hf => ?_
    simpa [bodyBytes, shift, Journal.putBegin] using hf
  | checkpoint active =>
    obtain ⟨-, hint⟩ := toNat_length h
    rw [bodyBytes, append_assoc]
    refine bind_imp (reading_spec Copying.seek (decodes_int _) _) fun n hn =>
      (emit_spec _ _).bind fun _ => ?_
    subst hn
    rw [hint, Int.toNat_natCast]
    refine (rewriteActive_spec active).post fun _ f hf => ?_
    simpa [bodyBytes, shift, Journal.putBegin] using hf
  | begin t =>
    refine (putCopy_spec t newStart).ends (fun _ f hf => ?_) fun _ _ h => h
    simpa [bodyBytes, shift, Journal.putBegin] using hf
  | abort t =>
    refine (ret ()).post fun _ f hf => ?_
    simpa [bodyBytes, shift, Journal.putBegin] using hf
  | commit t =>
    refine (ret ()).post fun _ f hf => ?_
    simpa [bodyBytes, shift, Journal.putBegin] using hf

lemma rewriteRecord_spec (h : Readable reread r) (start : ℤ) :
    Triple (fun f => Copying j first out f ∧ f.file.drop f.pos = encodeRecord start r ++ rest)
      (rewriteRecord reread base)
      (fun _ f => Copying j (Journal.putBegin out.length first (r.shift base))
        (out ++ encodeRecord out.length (r.shift base)) f ∧ f.file.drop f.pos = rest) NoRoom := by
  rw [encodeRecord, append_assoc, append_assoc, append_assoc]
  refine bind_imp (reading_spec Copying.seek (decodes_int _) _) fun type htype => ?_
  refine bind_imp (reading_spec Copying.seek (decodes_long _) _) fun tid htid => ?_
  refine get_bind fun f hf => ?_
  have hstart : f.logNew.length = out.length := by rw [hf.1.out]
  refine ((emit_spec _ _).bind fun _ => ?_).pre fun _ h => h ▸ hf
  subst htype htid
  refine (rewriteBody_spec h _).bind fun _ => (emit_spec _ _).bind fun _ => ?_
  refine (reading_spec Copying.seek (decodes_long _) _).bind fun _ => ?_
  rintro f' ⟨-, hf', hleft⟩
  refine ⟨?_, hleft⟩
  rw [hstart] at hf'
  simpa [encodeRecord] using hf'

lemma rewriteLoop_spec (h : ∀ r ∈ records, Readable reread r)
    (start : ℤ) {fuel : ℕ} (hfuel : records.length < fuel) :
    Triple (fun f => Copying j first out f ∧ f.file.drop f.pos = encodeRecords start records)
      (rewriteLoop reread base fuel)
      (fun _ => Copying j (Journal.putBegins (size imageSize) out.length
          (records.map (shift base)) first)
        (out ++ encodeRecords out.length (records.map (shift base)))) NoRoom := by
  obtain ⟨fuel, rfl⟩ : ∃ n, fuel = n + 1 := ⟨fuel - 1, by omega⟩
  induction records generalizing start fuel first out with
  | nil =>
    rintro f ⟨hf, hleft⟩
    have hint : readInt.run (f.file.drop f.pos) = .error .eof [] := by
      rw [hleft]
      rfl
    have heof : (rewriteRecord reread base).run f = .error .eof { f with
        pos := f.pos + ((f.file.drop f.pos).length - ([] : Bytes).length) } := by
      show EStateM.run (reading readInt >>= _) f = _
      rw [EStateM.run_bind, reading_run_eof hint]
    rw [rewriteLoop, EStateM.run_bind, attempt_run_error heof]
    refine Copying.seek f _ ?_
    simpa [encodeRecords, Journal.putBegins] using hf
  | cons r records ih =>
    obtain ⟨fuel, rfl⟩ : ∃ n, fuel = n + 1 := ⟨fuel - 1, by simp at hfuel; omega⟩
    refine attempt_bind (rewriteRecord_spec (h r mem_cons_self) start) (fun _ => ?_)
      fun e => ?_
    · refine (ih (fun r' hr' => h r' (mem_cons_of_mem _ hr')) _ fuel
        (by simpa using hfuel)).post fun _ f hf => ?_
      have hlength : ((out ++ encodeRecord out.length (r.shift base)).length : ℤ) =
          out.length + (r.shift base).size imageSize := by
        rw [length_append, length_encodeRecord]
        push_cast
        rfl
      rw [hlength] at hf
      simpa [encodeRecords, Journal.putBegins] using hf
    · -- a failed copy ends the loop only if there is no room
      rintro f rfl
      rfl

lemma minLogRecord_spec {active : List (Long × ℤ)}
    (hsplit : j.records = pre ++ .checkpoint active :: post)
    (hread : Readable reread (.checkpoint active)) {cpLoc : ℤ}
    (hcp : cpLoc = 8 + (pre.map (size imageSize)).sum)
    (hrange : ∀ e ∈ active, -1 ≤ e.2 ∧ e.2 < 2 ^ 63) :
    Triple (Intact j []) (minLogRecord cpLoc)
      (fun base f => base = (active.map Prod.snd).foldl min cpLoc ∧ Intact j [] f) NoRoom := by
  obtain ⟨-, hint⟩ := toNat_length hread
  have hactive : (active.map fun e => (e.1, (BitVec.ofInt 64 e.2).toInt)) = active := by
    refine (map_congr_left fun e he => ?_).trans (map_id active)
    obtain ⟨hlow, hhigh⟩ := hrange e he
    rw [toInt_ofInt_offset hlow hhigh]
    rfl
  have hreads := decodes_actives active
  rw [hactive] at hreads
  refine Triple.ite (fun h => by omega) fun _ => ?_
  refine (seek_spec Intact.seek (fun f hf => by simpa using hf.file) hsplit hcp).bind
    fun _ => ?_
  rw [encodeRecords, encodeRecord, bodyBytes]
  simp only [append_assoc]
  refine bind_imp (reading_spec Intact.seek (decodes_int _) _) fun type htype => ?_
  refine bind_imp (reading_spec Intact.seek (decodes_long _) _) fun _ _ => ?_
  refine Triple.ite (fun h => absurd htype h) fun _ => ?_
  refine bind_imp (reading_spec Intact.seek (decodes_int _) _) fun n hn => ?_
  subst hn
  rw [hint, Int.toNat_natCast]
  refine bind_imp (reading_spec Intact.seek hreads _) fun v hv => ?_
  subst hv
  exact fun f hf => ⟨rfl, hf.1⟩

lemma boundary_le {log : List FileRecord} (h : Journal.Boundary imageSize log offset) :
    8 ≤ offset ∧ offset ≤ 8 + (log.map (size imageSize)).sum := by
  obtain ⟨pre, post, rfl, rfl⟩ := h
  rw [map_append, sum_append]
  omega

lemma logTruncate_spec (hpointed : j.preAppend.Pointed imageSize) (hptr : 0 ≤ j.preAppend.pointer)
    (hread : ∀ r ∈ j.preAppend.records, Readable reread r) :
    ∃ j', j.logTruncate (size imageSize) = some j' ∧
      Triple (Represents j) (logTruncate reread) (fun _ => Written j' []) NoRoom := by
  obtain hneg | ⟨pre, active, post, hrec, hcp, hbound⟩ := id hpointed
  · omega
  have hcut := truncationPoint_of_records hrec hcp
  obtain ⟨j', hj'⟩ : ∃ j', j.logTruncate (size imageSize) = some j' := by
    rw [Journal.logTruncate, hcut]
    exact ⟨_, rfl⟩
  refine ⟨j', hj', preAppend_spec.bind fun _ => ?_⟩
  rw [← logTruncate_preAppend] at hj'
  obtain ⟨base, dropped, kept, htrunc, hdecided, hfirst⟩ :=
    logTruncate_eq_some hpointed (preAppend_undecided j) hj'
  obtain rfl := Option.some.inj (hcut.symm.trans htrunc.cut)
  have hkept (r : FileRecord) (hr : r ∈ kept) : Readable reread r :=
    hread r (by simp [htrunc.split, hr])
  -- what is in the file is in the range of a `long`
  by_cases hsmall : 8 + (j.preAppend.records.map (size imageSize)).sum < 2 ^ 63
  swap
  · intro f hf
    have hlength := hf.small
    rw [hf.file, append_nil, length_encodeFile] at hlength
    exact absurd hlength hsmall
  have hrange (e : Long × ℤ) (he : e ∈ active) : -1 ≤ e.2 ∧ e.2 < 2 ^ 63 := by
    have hle := boundary_le (hbound e he)
    omega
  have hpointer : (BitVec.ofInt 64 j.preAppend.pointer).toInt = j.preAppend.pointer := by
    have hle := boundary_le ⟨pre, .checkpoint active :: post, hrec, hcp⟩
    exact toInt_ofInt_offset (by omega) (by omega)
  have hk : j.preAppend.recoveryUndecided = false := preAppend_undecided j
  generalize j.preAppend = k at *
  refine Triple.bind (Q := fun _ f => Intact k [] f ∧
    f.file.drop f.pos = offsetBytes k.pointer ++ encodeRecords 8 k.records) ?_ fun _ => ?_
  · intro f hf
    rw [seek_run le_rfl]
    exact ⟨Intact.seek _ _ hf.toIntact, by simpa [encodeFile] using hf.file⟩
  refine bind_imp (reading_spec Intact.seek (decodes_long _) _) fun v hv => ?_
  subst hv
  rw [hpointer]
  refine ((minLogRecord_spec hrec (hread _ (by simp [hrec])) hcp hrange).bind
    fun base => ?_).pre fun f hf => hf.1
  refine of_imp fun hbase => ?_
  subst hbase
  refine Triple.bind (Q := fun _ => Copying k k.tidToFirstLogRecord []) (fun f hf => ?_) fun _ => ?_
  · exact ⟨hf.undecided.trans hk, hf.first, hf.few, by simpa using hf.file, rfl, by simp⟩
  refine Triple.bind (Q := fun _ => Copying k k.tidToFirstLogRecord (offsetBytes j'.pointer))
    (Triple.pre (exists_elim fun rest => (emit_spec _ rest).post
      fun _ f hf => ?_) fun f hf => ⟨f.file.drop f.pos, hf, rfl⟩) fun _ => ?_
  · rw [htrunc.pointer]
    exact hf.1
  refine (seek_spec Copying.seek (fun f hf => hf.file) htrunc.split htrunc.offset).bind
    fun _ => get_bind fun f hf => ?_
  have hfuel : kept.length < f.file.length + 1 := by
    have hlength := length_le_sum_size kept
    rw [hf.1.file, length_encodeFile, htrunc.split, map_append, sum_append]
    omega
  refine (Triple.bind (rewriteLoop_spec hkept _ hfuel) fun _ => ?_).pre fun _ h => h ▸ hf
  refine Triple.bind (Q := fun _ => Intact j' []) (fun f' hf' => ?_) fun _ =>
    Triple.bind seekEnd_spec fun _ => setOffset_spec hdecided
  rw [length_offsetBytes, ← htrunc.records] at hf'
  have hfile : f'.logNew = encodeFile j'.pointer j'.records ++ [] := by
    rw [hf'.out, encodeFile, append_nil]
    rfl
  exact ⟨hf'.undecided.trans hdecided.symm, hf'.first.trans hfirst.symm, hf'.few, hfile, hf'.small⟩

end LogFile

end BallotBox.SimpleDb
