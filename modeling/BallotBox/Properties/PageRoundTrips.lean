import BallotBox.Construction.HeapPage
import BallotBox.Properties.Support.LogBytes

/-!
# Heap pages on the disk

A page that is written and read again has its integers as they were, and of a string the low bytes
of its units read as UTF-8.  It survives exactly if its strings are made of ASCII characters and
replacement characters (`survives_disk_iff`).
-/

namespace BallotBox.SimpleDb

open HeapPage List

variable {td : List FieldType}

/-! ## Fields -/

/-- A string as it comes back from the disk. -/
def StringField.reread (s : StringField) : StringField :=
  .ofString (utf8Decode (s.value.map lowByte))

/-- A field as it comes back from the disk. -/
def Field.reread : Field → Field
  | int value => .int value
  | string s => .string s.reread

@[simp] lemma Field.getType_reread (f : Field) : f.reread.getType = f.getType := by
  cases f <;> rfl

lemma decodes_skipBytes (bs : Bytes) : Decodes (skipBytes bs.length) bs () := by
  intro rest
  simp [skipBytes, EStateM.run]

lemma decodes_string (s : StringField) :
    Decodes parseString (Field.string s).serialize s.reread := by
  have hshort : s.value.length < 2 ^ 31 := s.short.trans_lt (by decide)
  have hnat : (BitVec.ofNat 32 s.value.length).toNat = s.value.length := by
    rw [BitVec.toNat_ofNat, Nat.mod_eq_of_lt (hshort.trans (by decide))]
  have hint : ¬ (BitVec.ofNat 32 s.value.length).toInt < 0 := by
    rw [BitVec.toInt_eq_toNat_of_lt (by rw [hnat]; omega)]
    omega
  have hbytes := decodes_padded (s.value.map lowByte)
  have hskip := decodes_skipBytes (List.replicate (stringLen - s.value.length) 0)
  rw [length_map] at hbytes
  rw [length_replicate] at hskip
  rw [Field.serialize, append_assoc]
  refine (decodes_int _).bind ?_
  rw [if_neg hint, hnat]
  exact hbytes.bind (hskip.last (Decodes.pure _))

/-- A tuple as it comes back from the disk. -/
def Tuple.reread {td : List FieldType} (t : Tuple td) : Tuple td where
  fields := t.fields.map Field.reread
  typed := by
    rw [map_map]
    exact (map_congr_left fun f _ => f.getType_reread).trans t.typed

lemma decodes_field (f : Field) :
    Decodes f.getType.parse f.serialize ⟨f.reread, f.getType_reread⟩ := by
  cases f with
  | int value => exact (decodes_int value).last (Decodes.pure _)
  | string s => exact (decodes_string s).last (Decodes.pure _)

lemma decodes_fields (t : Tuple td) : Decodes (readFields td) t.serialize t.reread := by
  obtain ⟨fields, rfl⟩ := t
  induction fields with
  | nil => exact Decodes.pure _
  | cons f fields ih => exact (decodes_field f).bind (ih.last (Decodes.pure _))

/-! ## Pages -/

section Pages

variable {F : PageFormat} {ι : Type} (page : HeapPage F ι)

lemma decodes_slot (i : Fin F.numSlots) :
    Decodes (readNextTuple F page.header i) (page.slotBytes i)
      ((page.tuples i).map Tuple.reread) := by
  have hagrees := page.agrees i
  cases htuple : page.tuples i with
  | none =>
    have hfree : getBit page.header i = false := by rw [hagrees, htuple]; rfl
    have hbytes := decodes_bytes (List.replicate F.tupleSize 0)
    rw [length_replicate] at hbytes
    simp only [readNextTuple, slotBytes, isSlotUsed, hfree]
    exact hbytes.last (Decodes.pure _)
  | some t =>
    have hused : getBit page.header i = true := by rw [hagrees, htuple]; rfl
    simp only [readNextTuple, slotBytes, isSlotUsed, hused, htuple]
    exact (decodes_fields t).last (Decodes.pure _)

omit page in
lemma decodes_slots {header : Bytes} {encode : ℕ → Bytes} {value : ℕ → Option (Tuple F.td)}
    (n slotId : ℕ)
    (h : ∀ i, slotId ≤ i → i < slotId + n →
      Decodes (readNextTuple F header i) (encode i) (value i)) :
    Decodes (readSlots F header n slotId) ((List.range' slotId n).flatMap encode)
      ((List.range' slotId n).map value) := by
  induction n generalizing slotId with
  | zero => exact Decodes.pure _
  | succ n ih =>
    have hfirst := h slotId le_rfl (by omega)
    have hrest := ih (slotId + 1) fun i hi hlt => h i (by omega) (by omega)
    rw [range'_succ, flatMap_cons, map_cons]
    intro rest
    rw [readSlots, EStateM.run_bind, append_assoc, attempt_run_ok (hfirst _)]
    exact hrest.map (f := fun tuples => value slotId :: tuples) rest

/-- A page as it comes back from the disk. -/
def HeapPage.reread : HeapPage F ι where
  pid := page.pid
  header := page.header
  tuples i := (page.tuples i).map Tuple.reread
  header_length := page.header_length
  agrees i := by rw [Option.isSome_map, page.agrees i]

def HeapPage.rereadSlot (i : ℕ) : Option (Tuple F.td) :=
  if h : i < F.numSlots then page.reread.tuples ⟨i, h⟩ else none

lemma decodes_readSlots :
    Decodes (readSlots F page.header F.numSlots 0)
      ((List.finRange F.numSlots).flatMap page.slotBytes)
      ((List.range F.numSlots).map page.rereadSlot) := by
  let encode (i : ℕ) : Bytes := if h : i < F.numSlots then page.slotBytes ⟨i, h⟩ else []
  have hencode : (List.finRange F.numSlots).flatMap page.slotBytes =
      (List.range F.numSlots).flatMap encode := by
    rw [← map_coe_finRange_eq_range, flatMap_map]
    simp [encode]
  rw [hencode, range_eq_range']
  refine decodes_slots F.numSlots 0 fun i _ hi => ?_
  have hlt : i < F.numSlots := by omega
  simp only [encode, rereadSlot, dif_pos hlt]
  exact decodes_slot page ⟨i, hlt⟩

/-- **A page that was written can be read.** -/
lemma ofBytes_getPageData : ofBytes F page.pid page.getPageData = some page.reread := by
  have hslot (i : Fin F.numSlots) :
      ((List.range F.numSlots).map page.rereadSlot).getD i none = page.reread.tuples i := by
    simp [rereadSlot]
  have hread : Decodes (readPage F page.pid)
      (page.header ++ (List.finRange F.numSlots).flatMap page.slotBytes) page.reread := by
    have hheader := decodes_bytes page.header
    rw [page.header_length] at hheader
    refine hheader.bind ((decodes_readSlots page).last ?_)
    have hvalid : page.header.length = F.headerSize ∧ ∀ i : Fin F.numSlots, getBit page.header i =
        (((List.range F.numSlots).map page.rereadSlot).getD i none).isSome :=
      ⟨page.header_length, fun i => by rw [hslot]; exact page.reread.agrees i⟩
    have hpage : (⟨page.pid, page.header, fun i =>
        ((List.range F.numSlots).map page.rereadSlot).getD i none, hvalid.1, hvalid.2⟩ :
            HeapPage F ι) =
        page.reread :=
      HeapPage.ext rfl rfl (funext hslot)
    rw [dif_pos hvalid, hpage]
    exact Decodes.pure _
  rw [ofBytes, getPageData, hread]

lemma getPageData_blank (pid : ι) : (blank F pid).getPageData = F.createEmptyPageData := by
  have hfits : F.headerSize + F.tupleSize * F.numSlots ≤ F.pageSize := F.size_le
  have hslots : (List.finRange F.numSlots).flatMap (blank F pid).slotBytes =
      List.replicate (F.tupleSize * F.numSlots) 0 := by
    have hslot (i : Fin F.numSlots) : (blank F pid).slotBytes i = List.replicate F.tupleSize 0 := by
      simp [slotBytes, isSlotUsed, blank, getBit_replicate_zero]
    rw [flatMap_def, map_congr_left fun i _ => hslot i, map_const',
      flatten_replicate_replicate, length_finRange, mul_comm]
  rw [getPageData, hslots, blank, replicate_append_replicate,
    replicate_append_replicate, PageFormat.createEmptyPageData]
  congr 1
  omega

lemma ofBytes_createEmptyPageData (pid : ι) :
    ofBytes F pid F.createEmptyPageData = some (blank F pid) := by
  rw [← getPageData_blank pid]
  exact ofBytes_getPageData (blank F pid)

end Pages

/-! ## Lengths -/

lemma Field.length_serialize (f : Field) : f.serialize.length = f.getType.getLen := by
  cases f with
  | int value => exact length_bigEndian ..
  | string s =>
    have hshort := s.short
    simp only [serialize, getType, FieldType.getLen, length_append, length_map,
      length_replicate, intBytes, length_bigEndian]
    omega

lemma Tuple.length_serialize (t : Tuple td) :
    t.serialize.length = (td.map FieldType.getLen).sum := by
  obtain ⟨fields, rfl⟩ := t
  simp [serialize, length_flatMap, Field.length_serialize, Function.comp_def]

lemma length_getPageData {F : PageFormat} {ι : Type} (page : HeapPage F ι) :
    page.getPageData.length = F.pageSize := by
  have hslot (i : Fin F.numSlots) : (page.slotBytes i).length = F.tupleSize := by
    unfold slotBytes isSlotUsed
    rw [page.agrees i]
    cases page.tuples i with
    | none => simp
    | some t => exact t.length_serialize
  have hslots : ((List.finRange F.numSlots).flatMap page.slotBytes).length =
      F.tupleSize * F.numSlots := by
    simp [length_flatMap, hslot, mul_comm]
  have hfits := F.size_le
  rw [getPageData, length_append, length_append, page.header_length, hslots, length_replicate]
  omega

/-! ## What survives -/

/-- The bytes of the page are read as a page with the same slots in use, and the same tuples in
them. -/
def HeapPage.SurvivesDisk {F : PageFormat} {ι : Type} (page : HeapPage F ι) : Prop :=
  ∃ page', HeapPage.ofBytes F page.pid page.getPageData = some page' ∧
    (∀ i : Fin F.numSlots, page'.isSlotUsed i = page.isSlotUsed i) ∧
    ∀ i, page'.tuples i = page.tuples i

/-- Only ASCII, or characters that stand for unreadable ones. -/
def StringField.Plain (s : StringField) : Prop := ∀ c ∈ s.value, c < 0x80 ∨ c = replacementUnit

lemma StringField.reread_eq_iff (s : StringField) : s.reread = s ↔ s.Plain := by
  have hshort : (utf8Decode (s.value.map lowByte)).length ≤ stringLen := by
    refine (length_utf8Loop_le _ _).trans ?_
    rw [length_map]
    exact s.short
  have hvalue : s.reread.value = utf8Decode (s.value.map lowByte) := take_of_length_le hshort
  rw [Plain, ← utf8Decode_lowBytes_iff, ← hvalue]
  exact ⟨congrArg value, fun h => by cases s; simpa [reread, ofString] using h⟩

lemma Tuple.reread_eq_iff (t : Tuple td) : t.reread = t ↔ ∀ s, .string s ∈ t.fields → s.Plain := by
  have hfields : t.reread = t ↔ ∀ f ∈ t.fields, f.reread = f := by
    have hself : t.fields.map Field.reread = t.fields ↔ ∀ f ∈ t.fields, f.reread = f := by
      simpa using map_eq_map_iff (f := Field.reread) (g := id) (l := t.fields)
    rw [← hself]
    obtain ⟨fields, rfl⟩ := t
    exact Tuple.mk.injEq .. ▸ Iff.rfl
  rw [hfields]
  constructor
  · intro h s hs
    exact s.reread_eq_iff.mp (Field.string.inj (h _ hs))
  · intro h f hf
    cases f with
    | int value => rfl
    | string s => exact congrArg Field.string (s.reread_eq_iff.mpr (h s hf))

lemma HeapPage.survivesDisk_iff {F : PageFormat} {ι : Type} (page : HeapPage F ι) :
    page.SurvivesDisk ↔ ∀ i t, page.tuples i = some t → t.reread = t := by
  constructor
  · rintro ⟨page', hread, -, htuples⟩ i t ht
    rw [ofBytes_getPageData, Option.some.injEq] at hread
    have hslot : (page.tuples i).map Tuple.reread = page.tuples i := by
      have hsame := htuples i
      rwa [← hread] at hsame
    rw [ht] at hslot
    exact Option.some.inj hslot
  · intro h
    refine ⟨page.reread, ofBytes_getPageData page, fun i => rfl, fun i => ?_⟩
    show (page.tuples i).map Tuple.reread = page.tuples i
    cases ht : page.tuples i with
    | none => rfl
    | some t => exact congrArg some (h i t ht)

lemma HeapPage.reread_of_survivesDisk {F : PageFormat} {ι : Type} {page : HeapPage F ι}
    (h : page.SurvivesDisk) : page.reread = page := by
  refine HeapPage.ext rfl rfl (funext fun i => ?_)
  cases ht : page.tuples i with
  | none => simp [reread, ht]
  | some t => simp [reread, ht, page.survivesDisk_iff.mp h i t ht]

/-- **Which pages survive the disk.**  For every format and every sequence of insertions and
deletions, the page is read as it was written if and only if every string in a slot in use is made
of ASCII characters and replacement characters. -/
theorem survives_disk_iff (F : PageFormat) {ι : Type} [DecidableEq ι] (pid : ι)
    (ops : List (PageOp ι)) :
    ((HeapPage.blank F pid).run ops).SurvivesDisk ↔
      ∀ entry ∈ ((HeapPage.blank F pid).run ops).iterator, ∀ s,
        .string s ∈ entry.2.fields → s.Plain := by
  rw [HeapPage.survivesDisk_iff]
  constructor
  · intro h entry hentry
    obtain ⟨i, ht, -⟩ := (HeapPage.mem_iterator _).mp hentry
    exact entry.2.reread_eq_iff.mp (h i _ ht)
  · intro h i t ht
    exact t.reread_eq_iff.mpr (h (_, t) ((HeapPage.mem_iterator _).mpr ⟨i, ht, rfl⟩))

/-! ## A letter that is lost -/

def nameFormat : PageFormat := ⟨200, [.string]⟩

def namePage : HeapPage nameFormat HeapPageId :=
  (HeapPage.blank nameFormat ⟨1, 0⟩).run [.insert [.string ⟨[0x141], by decide⟩]]

/-- `Ł` is U+0141, and is read as `A`. -/
theorem letter_lost : namePage.iterator.map (·.2.fields) = [[.string ⟨[0x141], by decide⟩]] ∧
      (∃ page', HeapPage.ofBytes nameFormat namePage.pid namePage.getPageData = some page' ∧
        page'.iterator.map (·.2.fields) = [[.string ⟨[0x41], by decide⟩]]) ∧
      ¬ namePage.SurvivesDisk := by
  have hput : namePage.iterator.map (·.2.fields) = [[.string ⟨[0x141], by decide⟩]] := by decide
  have hread : namePage.reread.iterator.map (·.2.fields) = [[.string ⟨[0x41], by decide⟩]] := by
    decide
  refine ⟨hput, ⟨_, ofBytes_getPageData namePage, hread⟩, fun hsurvives => ?_⟩
  have hsame := namePage.survivesDisk_iff.mp hsurvives ⟨0, by decide⟩ _ rfl
  exact absurd hsame (by decide)

end BallotBox.SimpleDb
