import BallotBox.Construction.LogFile
import BallotBox.Properties.Support.Anchors

/-!
# The format of the log

`encodeFile` is the file that a checkpoint pointer and a list of records make.  The readers of the
log take back what the encoder has written, record by record, if the page objects survive it
(`Readable`).
-/

namespace BallotBox.SimpleDb

open List

/-! ## The encoder -/

def imageSize (page : PageImage) : ℕ := (pageBytes page).length

def typeOf : FileRecord → BitVec 32
  | .abort _ => abortRecord
  | .commit _ => commitRecord
  | .update .. => updateRecord
  | .begin _ => beginRecord
  | .checkpoint _ => checkpointRecord

def tidOf : FileRecord → Long
  | .abort t => t
  | .commit t => t
  | .update t _ _ => t
  | .begin t => t
  | .checkpoint _ => -1

def bodyBytes : FileRecord → Bytes
  | .update _ before after => pageBytes before ++ pageBytes after
  | .checkpoint active => intBytes (.ofNat 32 active.length) ++ active.flatMap activeBytes
  | _ => []

def encodeRecord (start : ℤ) (r : FileRecord) : Bytes :=
  intBytes (typeOf r) ++ (longBytes (tidOf r) ++ (bodyBytes r ++ offsetBytes start))

def encodeRecords (start : ℤ) : List FileRecord → Bytes
  | [] => []
  | r :: rs => encodeRecord start r ++ encodeRecords (start + r.size imageSize) rs

def encodeFile (pointer : ℤ) (records : List FileRecord) : Bytes :=
  offsetBytes pointer ++ encodeRecords 8 records

@[simp] lemma length_intBytes (v : BitVec 32) : (intBytes v).length = 4 := length_bigEndian 4 _

@[simp] lemma length_longBytes (v : Long) : (longBytes v).length = 8 := length_bigEndian 8 _

@[simp] lemma length_offsetBytes (offset : ℤ) : (offsetBytes offset).length = 8 :=
  length_longBytes _

lemma length_activeBytes (active : List (Long × ℤ)) :
    (active.flatMap activeBytes).length = 16 * active.length := by
  induction active with
  | nil => rfl
  | cons e active ih =>
    rw [flatMap_cons, length_append, ih]
    simp [activeBytes]
    omega

lemma length_encodeRecord (start : ℤ) (r : FileRecord) :
    (encodeRecord start r).length = r.size imageSize := by
  rw [encodeRecord, length_append, length_append, length_append, length_intBytes,
    length_longBytes, length_offsetBytes]
  cases r with
  | update t before after =>
    rw [bodyBytes, length_append, LogRecord.size, imageSize, imageSize]
    omega
  | checkpoint active =>
    rw [bodyBytes, length_append, length_activeBytes, length_intBytes, LogRecord.size]
    omega
  | _ => rfl

lemma length_encodeRecords (start : ℤ) (rs : List FileRecord) :
    (encodeRecords start rs).length = (rs.map (LogRecord.size imageSize)).sum := by
  induction rs generalizing start with
  | nil => rfl
  | cons r rs ih => simp [encodeRecords, length_encodeRecord, ih]

lemma encodeRecords_append (start : ℤ) (rs rs' : List FileRecord) :
    encodeRecords start (rs ++ rs') = encodeRecords start rs ++
      encodeRecords (start + (rs.map (LogRecord.size imageSize)).sum) rs' := by
  induction rs generalizing start with
  | nil => simp [encodeRecords]
  | cons r rs ih =>
    rw [cons_append, encodeRecords, encodeRecords, ih, append_assoc]
    push_cast [map_cons, sum_cons]
    rw [add_assoc]

lemma length_encodeFile (pointer : ℤ) (records : List FileRecord) :
    (encodeFile pointer records).length = 8 + (records.map (LogRecord.size imageSize)).sum := by
  simp [encodeFile, length_encodeRecords]

lemma drop_encodeFile (pointer : ℤ) (pre post : List FileRecord) :
    (encodeFile pointer (pre ++ post)).drop (8 + (pre.map (LogRecord.size imageSize)).sum) =
      encodeRecords (8 + (pre.map (LogRecord.size imageSize)).sum) post := by
  rw [encodeFile, encodeRecords_append, ← append_assoc]
  refine drop_left' ?_
  rw [length_append, length_offsetBytes, length_encodeRecords]

/-! ## Reading back -/

lemma decodes_int (v : BitVec 32) : Decodes readInt (intBytes v) v := decodes_word (by decide) v

lemma decodes_long (v : Long) : Decodes readLong (longBytes v) v := decodes_word (by decide) v

lemma decodes_utf {name : Bytes} (h : name.length < 2 ^ 16) :
    Decodes readUTF (utfBytes name) name := by
  have hlength := decodes_word (n := 2) (w := 16) (by decide) (.ofNat 16 name.length)
  rw [BitVec.toNat_ofNat, Nat.mod_eq_of_lt h] at hlength
  refine hlength.bind ?_
  rw [BitVec.toNat_ofNat, Nat.mod_eq_of_lt h]
  exact decodes_bytes name

lemma decodes_padded (bs : Bytes) : Decodes (readPadded bs.length) bs bs := by
  intro rest
  simp [readPadded, EStateM.run]

lemma toInt_ofInt_offset {offset : ℤ} (h : -1 ≤ offset) (h' : offset < 2 ^ 63) :
    (BitVec.ofInt 64 offset).toInt = offset := by
  rw [BitVec.toInt_ofInt]
  exact Int.bmod_eq_of_le (by omega) (by omega)

variable (reread : HeapPageId → PageData → Option PageData)

def ReadablePage (page : PageImage) : Prop := reread page.pid page.data = some page.data

def Readable : FileRecord → Prop
  | .update _ before after => ReadablePage reread before ∧ ReadablePage reread after
  | .checkpoint active => active.length < 2 ^ 31
  | _ => True

def scanned (r : FileRecord) : ScannedRecord where
  type := typeOf r
  tid := tidOf r
  images :=
    match r with
    | .update _ before after => some (before, after)
    | _ => none

variable {reread}

lemma toNat_length {n : ℕ} (h : n < 2 ^ 31) :
    (BitVec.ofNat 32 n).toNat = n ∧ (BitVec.ofNat 32 n).toInt = n := by
  have hnat : (BitVec.ofNat 32 n).toNat = n := by
    rw [BitVec.toNat_ofNat]
    exact Nat.mod_eq_of_lt (by omega)
  refine ⟨hnat, ?_⟩
  rw [BitVec.toInt_eq_toNat_of_lt (by omega), hnat]

lemma decodes_page {page : PageImage} (h : ReadablePage reread page) :
    Decodes (readPageData reread) (pageBytes page) page := by
  obtain ⟨⟨tableId, pgNo⟩, data, hdata⟩ := page
  obtain ⟨hnat, hint⟩ := toNat_length hdata
  unfold readPageData pageBytes
  refine (decodes_utf (by decide)).bind ((decodes_utf (by decide)).bind ?_)
  simp only [ne_eq, not_true_eq_false, or_self, if_false]
  refine (decodes_int 2).bind ?_
  have htwo : (2 : BitVec 32).toNat = [tableId, pgNo].length := rfl
  rw [if_neg (by decide), htwo]
  refine (decodes_many fun v _ => decodes_int v).bind ?_
  refine (decodes_int _).bind ?_
  rw [if_neg (by omega), hnat]
  refine (decodes_padded data).last ?_
  have hsame : reread ⟨tableId, pgNo⟩ ⟨data, hdata⟩ = some ⟨data, hdata⟩ := h
  rw [dif_pos hdata, hsame]
  exact Decodes.pure _

lemma decodes_active (tid : Long) (offset : ℤ) :
    Decodes readActive (activeBytes (tid, offset)) (tid, (BitVec.ofInt 64 offset).toInt) :=
  (decodes_long tid).bind (decodes_long _).map

lemma decodes_actives (active : List (Long × ℤ)) :
    Decodes (readMany readActive active.length) (active.flatMap activeBytes)
      (active.map fun e => (e.1, (BitVec.ofInt 64 e.2).toInt)) := by
  induction active with
  | nil => exact Decodes.pure []
  | cons e active ih => exact (decodes_active e.1 e.2).bind ih.map

lemma decodes_body {r : FileRecord} (h : Readable reread r) :
    Decodes (readBody reread (typeOf r)) (bodyBytes r) (scanned r).images := by
  cases r with
  | update t before after =>
    obtain ⟨hbefore, hafter⟩ := h
    exact (decodes_page hbefore).bind (decodes_page hafter).map
  | checkpoint active =>
    obtain ⟨-, hint⟩ := toNat_length h
    refine (decodes_int _).bind ?_
    rw [hint, Int.toNat_natCast]
    exact (decodes_actives active).last (Decodes.pure none)
  | _ => exact Decodes.pure none

lemma decodes_record {r : FileRecord} (h : Readable reread r) (start : ℤ) :
    Decodes (scanRecord reread) (encodeRecord start r) (scanned r) := by
  refine (decodes_int _).bind ((decodes_long _).bind ((decodes_body h).bind ?_))
  exact (decodes_long _).last (Decodes.pure _)

lemma readUntilEof_records {records : List FileRecord} (h : ∀ r ∈ records, Readable reread r)
    (start : ℤ) {fuel : ℕ} (hfuel : records.length < fuel) :
    (readUntilEof (scanRecord reread) fuel).run (encodeRecords start records) =
      .ok (records.map scanned) [] := by
  obtain ⟨fuel, rfl⟩ : ∃ n, fuel = n + 1 := ⟨fuel - 1, by omega⟩
  induction records generalizing start fuel with
  | nil => exact readUntilEof_nil rfl fuel
  | cons r records ih =>
    rw [encodeRecords, map_cons]
    obtain ⟨fuel, rfl⟩ : ∃ n, fuel = n + 1 := ⟨fuel - 1, by simp at hfuel; omega⟩
    refine readUntilEof_append (decodes_record (h r mem_cons_self) start) ?_
    exact ih (fun r' hr' => h r' (mem_cons_of_mem _ hr')) _ fuel (by simpa using hfuel)

end BallotBox.SimpleDb
