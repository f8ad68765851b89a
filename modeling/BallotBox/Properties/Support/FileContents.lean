import BallotBox.Construction.HeapFile
import BallotBox.Properties.PageRoundTrips

/-!
# What a heap file holds

`Holds tableId pages s`: a page in the pool is the current one, a clean one is also on the disk, and
a page that is not in the pool is on the disk.  Each method has one rule; evictions change nothing.
-/

namespace BallotBox.SimpleDb

open BufferPool HeapPage Function List Option

variable {F : PageFormat} {tableId : BitVec 32}
variable {α : Type} {file : Bytes} {n : ℕ} {it : FileCursor F}
  {l : List (RecordId FilePageId × Tuple F.td)} {e : RecordId FilePageId × Tuple F.td}

/-! ## Pages -/

namespace HeapPage

variable {ι : Type} (page : HeapPage F ι)

lemma isSlotUsed_eq (j : Fin F.numSlots) : page.isSlotUsed j = (page.tuples j).isSome :=
  page.agrees j

lemma getNumEmptySlots_eq_zero_iff : page.getNumEmptySlots = 0 ↔ ∀ j, page.tuples j ≠ none := by
  simp [getNumEmptySlots, countP_eq_zero, isSlotUsed_eq]

@[simp] lemma putSlot_tuples (j : Fin F.numSlots) (t : Option (Tuple F.td)) :
    (page.putSlot j t).tuples = Function.update page.tuples j t := rfl

def Inserted (t : List Field) (page' : HeapPage F ι) (rid : Option (RecordId ι)) : Prop :=
  ∃ j tuple, page.tuples j = none ∧ tuple.fields = t ∧ page' = page.putSlot j (some tuple) ∧
    rid = some ⟨page.pid, (j : ℕ)⟩

lemma insertTuple_ok {t : List Field} {page' : HeapPage F ι} {rid : Option (RecordId ι)}
    (h : page.insertTuple t = .ok (page', rid)) : page.Inserted t page' rid := by
  unfold insertTuple at h
  split_ifs at h with htyped hempty
  cases hfind : (List.finRange F.numSlots).find? fun j : Fin F.numSlots => !page.isSlotUsed j with
  | none =>
    -- the page has a free slot, so the search finds one
    exact absurd (page.getNumEmptySlots_eq_zero_iff.mpr fun j hj => by
      have hused := find?_eq_none.mp hfind j (mem_finRange j)
      simp [isSlotUsed_eq, hj] at hused) hempty
  | some j =>
    rw [hfind] at h
    obtain ⟨rfl, rfl⟩ := Prod.mk.inj (Except.ok.inj h)
    have hfree := find?_some hfind
    exact ⟨j, ⟨t, htyped⟩, by simpa [isSlotUsed_eq] using hfree, rfl, rfl, rfl⟩

lemma insertTuple_error {t : List Field} {f : Failure} (h : page.insertTuple t = .error f) :
    t.map Field.getType ≠ F.td ∨ page.getNumEmptySlots = 0 := by
  unfold insertTuple at h
  split_ifs at h with htyped hempty
  · exact .inr hempty
  · split at h <;> simp at h
  · exact .inl htyped

def Deleted [DecidableEq ι] (rid : Option (RecordId ι)) (page' : HeapPage F ι) : Prop :=
  ∃ j tuple, page.tuples j = some tuple ∧ rid = some ⟨page.pid, (j : ℕ)⟩ ∧
    page' = page.putSlot j none

lemma deleteTuple_ok [DecidableEq ι] {rid : Option (RecordId ι)} {page' : HeapPage F ι}
    (h : page.deleteTuple rid = .ok page') : page.Deleted rid page' := by
  cases rid with
  | none => simp [deleteTuple] at h
  | some rid =>
    unfold deleteTuple at h
    dsimp only at h
    split_ifs at h with hpid hrange hused
    obtain ⟨pageId, tupleno⟩ := rid
    obtain ⟨n, rfl⟩ := Int.eq_ofNat_of_zero_le hrange.1
    obtain ⟨tuple, htuple⟩ := isSome_iff_exists.mp
      ((page.isSlotUsed_eq ⟨n, by simpa using hrange.2⟩).symm.trans hused)
    obtain rfl : pageId = page.pid := not_not.mp hpid
    exact ⟨⟨n, by simpa using hrange.2⟩, tuple, htuple, rfl, (Except.ok.inj h).symm⟩

lemma deleteTuple_of_tuple [DecidableEq ι] {j : Fin F.numSlots} {tuple : Tuple F.td}
    (h : page.tuples j = some tuple) :
    page.deleteTuple (some ⟨page.pid, (j : ℕ)⟩) = .ok (page.putSlot j none) := by
  have hrange : (0 : ℤ) ≤ ((j : ℕ) : ℤ) ∧ ((j : ℕ) : ℤ) < F.numSlots := by omega
  have hused : page.isSlotUsed ((j : ℕ) : ℤ).toNat := by
    rw [Int.toNat_natCast, isSlotUsed_eq, h]
    rfl
  simp only [deleteTuple]
  rw [if_neg (by simp), dif_pos hrange, if_pos hused]
  rfl

end HeapPage

/-! ## Files -/

def Numbered (tableId : BitVec 32) (pages : List (HeapPage F FilePageId)) : Prop :=
  ∀ i (page : HeapPage F FilePageId), pages[i]? = some page → page.pid = ⟨tableId, i⟩

/-- The pages of the file are these. -/
structure FileState.Holds (tableId : BitVec 32) (pages : List (HeapPage F FilePageId))
    (s : FileState F) : Prop where
  pageSize_pos : 0 < F.pageSize
  length : s.file.length = pages.length * F.pageSize
  ids : Numbered tableId pages
  pooled : ∀ i p, s.pool i = some p → pages[i]? = some p.page
  clean : ∀ i p, s.pool i = some p → p.dirty = false → diskPage tableId s.file i = some p.page
  disk : ∀ i page, s.pool i = none → pages[i]? = some page → diskPage tableId s.file i = some page

variable {pages : List (HeapPage F FilePageId)} {page : HeapPage F FilePageId} {s : FileState F}

lemma getElem?_concat_cases {l : List α} {a b : α} {i : ℕ} (h : (l ++ [a])[i]? = some b) :
    i < l.length ∧ l[i]? = some b ∨ i = l.length ∧ a = b := by
  obtain hi | hi := lt_or_ge i l.length
  · exact .inl ⟨hi, by rwa [getElem?_append_left hi] at h⟩
  · rw [getElem?_append_right hi, getElem?_singleton] at h
    split_ifs at h with hzero
    exact .inr ⟨by omega, some.inj h⟩

lemma Numbered.concat_blank (h : Numbered tableId pages) :
    Numbered tableId (pages ++ [blank F ⟨tableId, pages.length⟩]) := by
  intro i page hpage
  obtain ⟨-, hpage⟩ | ⟨rfl, rfl⟩ := getElem?_concat_cases hpage
  · exact h i page hpage
  · rfl

lemma Numbered.set (h : Numbered tableId pages) {i : ℕ} (hpid : page.pid = ⟨tableId, i⟩) :
    Numbered tableId (pages.set i page) := by
  intro k page' hpage'
  rw [getElem?_set] at hpage'
  split_ifs at hpage' with hk hlt
  · rw [← some.inj hpage', ← hk, hpid]
  · exact h k page' hpage'

namespace FileState.Holds

lemma numPages (h : s.Holds tableId pages) : s.numPages = pages.length := by
  have hpos := h.pageSize_pos
  rw [FileState.numPages, h.length]
  have hsplit :
      pages.length * F.pageSize + F.pageSize - 1 = F.pageSize - 1 + pages.length * F.pageSize := by
    omega
  rw [hsplit, Nat.add_mul_div_right _ _ hpos, Nat.div_eq_of_lt (by omega), zero_add]

lemma diskPage_eq_none (h : s.Holds tableId pages) {i : ℕ} (hi : pages[i]? = none) :
    diskPage (F := F) tableId s.file i = none := by
  have hlen : pages.length * F.pageSize ≤ i * F.pageSize :=
    Nat.mul_le_mul_right _ (List.getElem?_eq_none_iff.mp hi)
  have hpos := h.pageSize_pos
  unfold diskPage
  rw [if_neg]
  rw [drop_eq_nil_of_le (by rw [h.length]; exact hlen)]
  simpa using hpos.ne

lemma evict (h : s.Holds tableId pages) (victims : List ℕ) :
    (s.evict victims).Holds tableId pages := by
  have hpool {i : ℕ} {p : PooledPage F} (hp : (s.evict victims).pool i = some p) :
      s.pool i = some p := (filter_eq_some_iff.mp hp).1
  refine ⟨h.pageSize_pos, h.length, h.ids, fun i p hp => h.pooled i p (hpool hp),
    fun i p hp => h.clean i p (hpool hp), fun i page hnone hpage => ?_⟩
  cases hp : s.pool i with
  | none => exact h.disk i page hp hpage
  | some p =>
    -- an evicted page was clean
    have hgone : (some p).filter (fun p => p.dirty || i ∉ victims) = none := by
      rw [← hp]
      exact hnone
    have hclean : p.dirty = false := by
      simp [Option.filter] at hgone
      exact hgone.1
    exact (h.clean i p hp hclean).trans ((h.pooled i p hp).symm.trans hpage)

lemma put (h : s.Holds tableId pages) {i : ℕ} {p : PooledPage F} (hi : i < pages.length)
    (hpid : p.page.pid = ⟨tableId, i⟩)
    (hclean : p.dirty = false → diskPage tableId s.file i = some p.page) :
    (s.put i p).Holds tableId (pages.set i p.page) := by
  have hsame : (pages.set i p.page)[i]? = some p.page := getElem?_set_self hi
  have hother {k : ℕ} (hk : k ≠ i) : (pages.set i p.page)[k]? = pages[k]? :=
    getElem?_set_ne (Ne.symm hk)
  have hpool : (s.put i p).pool i = some p := update_self ..
  have hpool' {k : ℕ} (hk : k ≠ i) : (s.put i p).pool k = s.pool k := update_of_ne hk ..
  refine ⟨h.pageSize_pos, by rw [length_set]; exact h.length, h.ids.set hpid, fun k q hq => ?_,
    fun k q hq hqclean => ?_, fun k page hnone hpage => ?_⟩
  · by_cases hk : k = i
    · subst hk
      rw [hsame, some.inj (hpool.symm.trans hq)]
    · rw [hother hk]
      exact h.pooled k q (by rwa [← hpool' hk])
  · by_cases hk : k = i
    · subst hk
      obtain rfl := some.inj (hpool.symm.trans hq)
      exact hclean hqclean
    · exact h.clean k q (by rwa [← hpool' hk]) hqclean
  · by_cases hk : k = i
    · subst hk
      rw [hpool] at hnone
      cases hnone
    · exact h.disk k page (by rwa [← hpool' hk]) (by rwa [← hother hk])

end FileState.Holds

lemma writeAt_end (file data : Bytes) : writeAt file file.length data = file ++ data := by
  simp [writeAt]

lemma diskPage_append {data : Bytes} {i : ℕ} (h : (i + 1) * F.pageSize ≤ file.length) :
    diskPage (F := F) tableId (file ++ data) i = diskPage tableId file i := by
  have hstart : i * F.pageSize ≤ file.length := by
    rw [Nat.succ_mul] at h
    omega
  have htake : ((file ++ data).drop (i * F.pageSize)).take F.pageSize =
      (file.drop (i * F.pageSize)).take F.pageSize := by
    rw [drop_append_of_le_length hstart, take_append_of_le_length]
    rw [length_drop]
    rw [Nat.succ_mul] at h
    omega
  rw [diskPage, diskPage, htake]

lemma diskPage_blank (h : file.length = n * F.pageSize) :
    diskPage tableId (file ++ F.createEmptyPageData) n = some (blank F ⟨tableId, n⟩) := by
  have hdata : ((file ++ F.createEmptyPageData).drop (n * F.pageSize)).take F.pageSize =
      F.createEmptyPageData := by
    rw [← h, drop_left, take_of_length_le]
    simp [PageFormat.createEmptyPageData]
  rw [diskPage, hdata, if_pos (by simp [PageFormat.createEmptyPageData]),
    ofBytes_createEmptyPageData]

lemma FileState.Holds.append (h : s.Holds tableId pages) :
    FileState.Holds tableId (pages ++ [blank F ⟨tableId, pages.length⟩])
      { s with file := s.file ++ F.createEmptyPageData } := by
  have hbefore {i : ℕ} (hi : i < pages.length) :
      diskPage (F := F) tableId (s.file ++ F.createEmptyPageData) i =
        diskPage tableId s.file i := by
    refine diskPage_append ?_
    rw [h.length]
    exact Nat.mul_le_mul_right _ hi
  have hlt {i : ℕ} {p : PooledPage F} (hp : s.pool i = some p) : i < pages.length :=
    (List.getElem?_eq_some_iff.mp (h.pooled i p hp)).1
  refine ⟨h.pageSize_pos, ?_, h.ids.concat_blank, fun i p hp => ?_, fun i p hp hclean => ?_,
    fun i page hnone hpage => ?_⟩
  · simp [h.length, PageFormat.createEmptyPageData, Nat.add_mul]
  · rw [getElem?_append_left (hlt hp)]
    exact h.pooled i p hp
  · exact (hbefore (hlt hp)).trans (h.clean i p hp hclean)
  · obtain ⟨hi, hpage⟩ | ⟨rfl, rfl⟩ := getElem?_concat_cases hpage
    · exact (hbefore hi).trans (h.disk i page hnone hpage)
    · exact diskPage_blank h.length

lemma take_drop_flatMap {l : List α} {f : α → Bytes} (h : ∀ a ∈ l, (f a).length = n)
    {i : ℕ} {a : α} (ha : l[i]? = some a) : ((l.flatMap f).drop (i * n)).take n = f a := by
  induction l generalizing i with
  | nil => simp at ha
  | cons b l ih =>
    have hb := h b mem_cons_self
    cases i with
    | zero =>
      obtain rfl : b = a := by simpa using ha
      simp [← hb]
    | succ i =>
      have hdrop : (i + 1) * n = (f b).length + i * n := by
        rw [hb]
        ring
      rw [flatMap_cons, hdrop, drop_length_add_append]
      exact ih (fun a ha => h a (mem_cons_of_mem _ ha)) (by simpa using ha)

lemma holds_opened (hpos : 0 < F.pageSize) (hids : Numbered tableId pages)
    (hsurvive : ∀ page ∈ pages, page.SurvivesDisk) (evictions : List (List ℕ)) :
    FileState.Holds tableId pages ⟨pages.flatMap getPageData, fun _ => none, evictions⟩ := by
  refine ⟨hpos, ?_, hids, fun i p hp => (nomatch hp), fun i p hp => (nomatch hp),
    fun i page _ hpage => ?_⟩
  · simp [length_flatMap, length_getPageData]
  · have hmem := mem_of_getElem? hpage
    have hread := ofBytes_getPageData page
    rw [reread_of_survivesDisk (hsurvive page hmem), hids i page hpage] at hread
    rw [diskPage, take_drop_flatMap (fun page _ => length_getPageData page) hpage,
      if_pos (length_getPageData page), hread]

lemma holds_one {page : HeapPage F FilePageId} (hpos : 0 < F.pageSize)
    (hid : page.pid = ⟨tableId, 0⟩)
    (hsurvives : page.SurvivesDisk) : FileState.Holds tableId [page]
      ⟨[page].flatMap getPageData, fun _ => none, []⟩ := by
  refine holds_opened hpos (fun i page' hpage => ?_) (fun page' hmem => ?_) []
  · rw [getElem?_singleton] at hpage
    split_ifs at hpage with hzero
    rw [← some.inj hpage, hzero, hid]
  · exact mem_singleton.mp hmem ▸ hsurvives

/-! ## Methods -/

variable {t : List Field} {i : ℕ}

lemma set_eq_self {l : List α} {a : α} (h : l[i]? = some a) : l.set i a = l := by
  obtain ⟨hi, rfl⟩ := List.getElem?_eq_some_iff.mp h
  exact set_getElem_self hi

lemma evictPage_rule : Triple (FileState.Holds tableId pages) evictPage
      (fun _ s => s.Holds tableId pages) fun _ _ => False := by
  intro s h
  exact { h.evict (s.evictions.headD []) with }

lemma readPage_rule (hdisk : diskPage tableId s.file i = some page) :
    Triple (fun s' : FileState F => s'.file = s.file ∧ s'.Holds tableId pages)
      (HeapFile.readPage tableId i)
        (fun p s' => p = page ∧ s'.file = s.file ∧ s'.Holds tableId pages)
      fun _ _ => False := by
  refine Triple.get_bind fun s' h => ?_
  rw [h.1, hdisk]
  rintro _ rfl
  exact ⟨rfl, h⟩

lemma getPage_rule (hpage : pages[i]? = some page) :
    Triple (FileState.Holds tableId pages) (getPage tableId i)
      (fun p s => p = page ∧ s.Holds tableId pages) fun _ _ => False := by
  refine Triple.get_bind fun s h => ?_
  cases hpool : s.pool i with
  | some p =>
    rintro _ rfl
    exact ⟨some.inj ((h.pooled i p hpool).symm.trans hpage), h⟩
  | none =>
    have hdisk := h.disk i page hpool hpage
    have hevict : Triple (fun s' => s' = s) evictPage
        (fun _ s' => s'.file = s.file ∧ s'.Holds tableId pages) fun _ _ => False := by
      rintro s' rfl
      exact ⟨rfl, evictPage_rule s' h⟩
    refine hevict.bind fun _ => (readPage_rule hdisk).bind_imp fun p hp => ?_
    rintro s' ⟨hfile, h'⟩
    have hput := h'.put (p := ⟨page, false⟩) (List.getElem?_eq_some_iff.mp hpage).1
      (h.ids i page hpage) fun _ => hfile ▸ hdisk
    rw [set_eq_self hpage] at hput
    rw [hp]
    exact ⟨rfl, hput⟩

lemma getPage_missing (hpage : pages[i]? = none) :
    Triple (FileState.Holds tableId pages) (getPage tableId i) (fun _ _ => False)
      fun _ s => s.Holds tableId pages := by
  refine Triple.get_bind fun s h => ?_
  cases hpool : s.pool i with
  | some p => exact absurd ((h.pooled i p hpool).symm.trans hpage) (by simp)
  | none =>
    rintro s' rfl
    have hevicted : Triple (FileState.Holds tableId pages) evictPage
        (fun _ s => s.Holds tableId pages) fun _ s => s.Holds tableId pages :=
      evictPage_rule.err fun _ _ => False.elim
    refine hevicted.bind (fun _ => ?_) s' h
    refine Triple.bind (Q := fun _ _ => False) (Triple.get_bind fun s'' h'' => ?_) fun _ _ =>
      False.elim
    rw [h''.diskPage_eq_none hpage]
    rintro _ rfl
    exact h''

lemma insertInto_rule (hpage : pages[i]? = some page) :
    Triple (FileState.Holds tableId pages) (HeapFile.insertInto tableId i t)
      (fun rid s => ∃ page', page.Inserted t page' rid ∧ s.Holds tableId (pages.set i page'))
      fun _ s => (t.map Field.getType ≠ F.td ∨ page.getNumEmptySlots = 0) ∧
        s.Holds tableId pages := by
  have hget : Triple (FileState.Holds tableId pages) (getPage tableId i)
      (fun p s => p = page ∧ s.Holds tableId pages)
      fun _ s => (t.map Field.getType ≠ F.td ∨ page.getNumEmptySlots = 0) ∧ s.Holds tableId pages :=
    (getPage_rule hpage).err fun _ _ => False.elim
  refine hget.bind_imp fun p hp => ?_
  subst hp
  cases hinsert : p.insertTuple t with
  | error f => exact fun s h => ⟨p.insertTuple_error hinsert, h⟩
  | ok r =>
    obtain ⟨page', rid⟩ := r
    have hinserted := p.insertTuple_ok hinsert
    intro s h
    obtain ⟨j, tuple, -, -, rfl, -⟩ := id hinserted
    exact ⟨_, hinserted, h.put (p := ⟨p.putSlot j (some tuple), true⟩)
      (List.getElem?_eq_some_iff.mp hpage).1 (h.ids i p hpage) (by simp)⟩

def Grown (tableId : BitVec 32) (pages base : List (HeapPage F FilePageId)) : Prop :=
  base = pages ∨ (∀ page ∈ pages, page.getNumEmptySlots = 0) ∧
    base = pages ++ [HeapPage.blank F ⟨tableId, pages.length⟩]

def FileInserted (tableId : BitVec 32) (pages : List (HeapPage F FilePageId)) (t : List Field)
    (rid : Option (RecordId FilePageId)) (pages' : List (HeapPage F FilePageId)) : Prop :=
  ∃ base i page page', Grown tableId pages base ∧ base[i]? = some page ∧ page.Inserted t page' rid ∧
    pages' = base.set i page'

def Uninsertable (F : PageFormat) (t : List Field) : Prop :=
  t.map Field.getType ≠ F.td ∨ F.numSlots = 0

lemma insertIntoNew_rule (hfull : ∀ page ∈ pages, page.getNumEmptySlots = 0) :
    Triple (FileState.Holds tableId pages) (HeapFile.insertIntoNew tableId t)
      (fun rid s => ∃ pages', FileInserted tableId pages t rid pages' ∧ s.Holds tableId pages')
      fun _ s => Uninsertable F t ∧ ∃ base, Grown tableId pages base ∧ s.Holds tableId base := by
  refine Triple.get_bind fun s h => ?_
  have hgrown : Grown tableId pages (pages ++ [blank F ⟨tableId, pages.length⟩]) :=
    .inr ⟨hfull, rfl⟩
  have hlast : (pages ++ [blank F ⟨tableId, pages.length⟩])[pages.length]? =
      some (blank F ⟨tableId, pages.length⟩) := getElem?_concat_length ..
  have hwrite : Triple (fun s' => s' = s)
      (HeapFile.writePage pages.length (blank F ⟨tableId, pages.length⟩))
      (fun _ => FileState.Holds tableId (pages ++ [blank F ⟨tableId, pages.length⟩]))
      fun _ s => Uninsertable F t ∧ ∃ base, Grown tableId pages base ∧ s.Holds tableId base := by
    rintro s' rfl
    have happend := h.append
    rw [← writeAt_end, h.length,
      ← getPageData_blank (⟨tableId, pages.length⟩ : FilePageId)] at happend
    exact happend
  rw [h.numPages]
  refine hwrite.bind fun _ => (insertInto_rule hlast).ends ?_ ?_
  · rintro rid s' ⟨page', hinserted, h'⟩
    exact ⟨_, ⟨_, _, _, page', hgrown, hlast, hinserted, rfl⟩, h'⟩
  · rintro f s' ⟨hfail, h'⟩
    refine ⟨hfail.imp_right fun hempty => ?_, _, hgrown, h'⟩
    by_contra hslots
    exact (getNumEmptySlots_eq_zero_iff _).mp hempty ⟨0, Nat.pos_of_ne_zero hslots⟩ rfl

lemma insertFrom_rule (n i : ℕ) (hn : i + n = pages.length)
    (hfull : ∀ page ∈ pages.take i, page.getNumEmptySlots = 0) :
    Triple (FileState.Holds tableId pages) (HeapFile.insertFrom tableId t n i)
      (fun rid s => ∃ pages', FileInserted tableId pages t rid pages' ∧ s.Holds tableId pages')
      fun _ s => Uninsertable F t ∧ ∃ base, Grown tableId pages base ∧ s.Holds tableId base := by
  induction n generalizing i with
  | zero =>
    refine insertIntoNew_rule ?_
    rwa [take_of_length_le (by omega)] at hfull
  | succ n ih =>
    have hlt : i < pages.length := by omega
    have hpage : pages[i]? = some pages[i] := getElem?_eq_getElem hlt
    have hget : Triple (FileState.Holds tableId pages) (getPage tableId i)
        (fun p s => p = pages[i] ∧ s.Holds tableId pages)
        fun _ s => Uninsertable F t ∧ ∃ base, Grown tableId pages base ∧ s.Holds tableId base :=
      (getPage_rule hpage).err fun _ _ => False.elim
    refine hget.bind_imp fun p hp => ?_
    subst hp
    refine Triple.ite (fun hfree => ?_) fun hfree => ?_
    · refine (insertInto_rule hpage).ends ?_ ?_
      · rintro rid s ⟨page', hinserted, h⟩
        exact ⟨_, ⟨pages, i, _, page', .inl rfl, hpage, hinserted, rfl⟩, h⟩
      · rintro f s ⟨hfail, h⟩
        exact ⟨.inl (hfail.resolve_right hfree.ne'), pages, .inl rfl, h⟩
    · refine ih (i + 1) (by omega) fun page hmem => ?_
      rw [take_succ_eq_append_getElem hlt, mem_append, mem_singleton] at hmem
      obtain hmem | rfl := hmem
      · exact hfull page hmem
      · omega

lemma insertTuple_rule : Triple (FileState.Holds tableId pages) (insertTuple tableId t)
      (fun rid s => ∃ pages', FileInserted tableId pages t rid pages' ∧ s.Holds tableId pages')
      fun _ s => Uninsertable F t ∧ ∃ base, Grown tableId pages base ∧ s.Holds tableId base := by
  refine Triple.get_bind fun s h => ?_
  rw [h.numPages]
  exact (insertFrom_rule pages.length 0 (by omega) (by simp)).pre fun s' hs' => hs' ▸ h

def FileDeleted (pages : List (HeapPage F FilePageId)) (rid : Option (RecordId FilePageId))
    (pages' : List (HeapPage F FilePageId)) : Prop :=
  ∃ i page page', pages[i]? = some page ∧ page.Deleted rid page' ∧ pages' = pages.set i page'

def Identifies (tableId : BitVec 32) (pages : List (HeapPage F FilePageId))
    (rid : Option (RecordId FilePageId)) : Prop :=
  ∃ i page, ∃ j : Fin F.numSlots, pages[i]? = some page ∧ page.tuples j ≠ none ∧
    rid = some ⟨⟨tableId, i⟩, (j : ℕ)⟩

lemma deleteTuple_rule (rid : Option (RecordId FilePageId)) :
    Triple (FileState.Holds tableId pages) (deleteTuple tableId rid)
      (fun _ s => ∃ pages', FileDeleted pages rid pages' ∧ s.Holds tableId pages')
      fun _ s => ¬ Identifies tableId pages rid ∧ s.Holds tableId pages := by
  cases rid with
  | none =>
    refine fun s h => ⟨?_, h⟩
    rintro ⟨i, page, j, -, -, hrid⟩
    cases hrid
  | some rid =>
    obtain ⟨⟨table, n⟩, tupleno⟩ := rid
    refine Triple.ite (fun htable => ?_) fun htable => ?_
    · refine fun s h => ⟨?_, h⟩
      rintro ⟨i, page, j, -, -, hrid⟩
      cases hrid
      exact htable rfl
    · obtain rfl : table = tableId := not_not.mp htable
      dsimp only
      cases hpage : pages[n]? with
      | none =>
        have hget : Triple (FileState.Holds table pages) (getPage table n)
            (fun _ _ => False)
            fun _ s => ¬ Identifies table pages (some ⟨⟨table, n⟩, tupleno⟩) ∧
              s.Holds table pages := by
          refine (getPage_missing hpage).err fun _ s h => ⟨?_, h⟩
          rintro ⟨i, page, j, hpage', -, hrid⟩
          cases hrid
          rw [hpage] at hpage'
          cases hpage'
        exact hget.bind fun _ _ => False.elim
      | some page =>
        have hget : Triple (FileState.Holds table pages) (getPage table n)
            (fun p s => p = page ∧ s.Holds table pages)
            fun _ s => ¬ Identifies table pages (some ⟨⟨table, n⟩, tupleno⟩) ∧
              s.Holds table pages :=
          (getPage_rule hpage).err fun _ _ => False.elim
        refine hget.bind_imp fun p hp => ?_
        subst hp
        cases hdelete : p.deleteTuple (some ⟨⟨table, n⟩, tupleno⟩) with
        | error f =>
          refine fun s h => ⟨?_, h⟩
          rintro ⟨i, page, j, hpage', hused, hrid⟩
          cases hrid
          obtain rfl := some.inj (hpage.symm.trans hpage')
          obtain ⟨tuple, htuple⟩ := ne_none_iff_exists'.mp hused
          have hok := p.deleteTuple_of_tuple htuple
          rw [h.ids n p hpage, hdelete] at hok
          cases hok
        | ok page' =>
          have hdeleted := p.deleteTuple_ok hdelete
          refine fun s h => ⟨_, ⟨n, p, page', hpage, hdeleted, rfl⟩, ?_⟩
          obtain ⟨j, tuple, -, -, rfl⟩ := id hdeleted
          exact h.put (p := ⟨p.putSlot j none, true⟩) (List.getElem?_eq_some_iff.mp hpage).1
            (h.ids n p hpage) (by simp)

/-! ## Scans -/

def entries (pages : List (HeapPage F FilePageId)) : List (RecordId FilePageId × Tuple F.td) :=
  pages.flatMap HeapPage.iterator

/-- What a scan still gives: the rest of its page as the scan found it, and the pages after that. -/
def FileCursor.Gives (pages : List (HeapPage F FilePageId)) (it : FileCursor F)
    (l : List (RecordId FilePageId × Tuple F.td)) : Prop :=
  it.pageNo < pages.length ∧ l = it.tuples ++ entries (pages.drop (it.pageNo + 1))

lemma advance_rule (n : ℕ) (hn : it.pageNo + n + 1 = pages.length) (hit : it.Gives pages l) :
    Triple (FileState.Holds tableId pages) (HeapFileIterator.advance tableId n it)
      (fun it' s => (it'.Gives pages l ∧ (it'.tuples = [] → l = [])) ∧ s.Holds tableId pages)
      fun _ _ => False := by
  induction n generalizing it with
  | zero =>
    refine fun s h => ⟨⟨hit, fun hnil => ?_⟩, h⟩
    rw [hit.2, hnil, drop_of_length_le (by omega)]
    rfl
  | succ n ih =>
    refine Triple.ite (fun hnil => ?_) fun hne => ?_
    · have hlt : it.pageNo + 1 < pages.length := by omega
      refine (getPage_rule (getElem?_eq_getElem hlt)).bind_imp fun p hp => ?_
      subst hp
      refine ih (by dsimp only; omega) ⟨hlt, ?_⟩
      rw [hit.2, hnil, drop_eq_getElem_cons hlt]
      rfl
    · exact fun s h => ⟨⟨hit, fun hnil => absurd hnil hne⟩, h⟩

lemma moved_rule (hit : it.Gives pages l) :
    Triple (FileState.Holds tableId pages) (HeapFileIterator.moved tableId it)
      (fun it' s => (it'.Gives pages l ∧ (it'.tuples = [] → l = [])) ∧ s.Holds tableId pages)
      fun _ _ => False := by
  refine Triple.get_bind fun s h => ?_
  rw [h.numPages]
  refine (advance_rule _ ?_ hit).pre fun s' hs' => hs' ▸ h
  have hlt := hit.1
  omega

/-- **A scan gives the tuples of the file**, whatever is evicted in between. -/
lemma delivers_iterator (F : PageFormat) (tableId : BitVec 32) :
    (HeapFile.iterator (F := F) tableId).Delivers (FileState.Holds tableId) FileCursor.Gives where
  hasNext pages it l hit := by
    refine (moved_rule hit).bind fun it' => Triple.of_imp fun ⟨hit', hnil⟩ => ?_
    refine fun s h => ⟨⟨?_, hit'⟩, h⟩
    cases htuples : it'.tuples with
    | nil => simp [hnil htuples]
    | cons e rest => simp [hit'.2, htuples]
  next pages it e l hit := by
    refine (moved_rule hit).bind fun it' => Triple.of_imp fun ⟨hit', hnil⟩ => ?_
    obtain ⟨pageNo, tuples⟩ := it'
    cases tuples with
    | nil => exact absurd (hnil rfl) (by simp)
    | cons e' rest =>
      obtain ⟨rfl, rfl⟩ := List.cons.inj hit'.2
      exact fun s h => ⟨⟨rfl, hit'.1, rfl⟩, h⟩

lemma opened_rule (hpages : pages ≠ []) :
    Triple (FileState.Holds tableId pages) (HeapFile.iterator tableId).opened
      (fun it s => FileCursor.Gives pages it (entries pages) ∧ s.Holds tableId pages)
      fun _ _ => False := by
  obtain ⟨page, rest, rfl⟩ := exists_cons_of_ne_nil hpages
  refine (getPage_rule (i := 0) rfl).bind_imp fun p hp => ?_
  subst hp
  exact fun s h => ⟨⟨by simp, rfl⟩, h⟩

/-! ## The tuples of a file -/

lemma mem_entries (h : Numbered tableId pages) :
    e ∈ entries pages ↔ ∃ i page, ∃ j : Fin F.numSlots, pages[i]? = some page ∧
      page.tuples j = some e.2 ∧ e.1 = ⟨⟨tableId, i⟩, (j : ℕ)⟩ := by
  simp only [entries, mem_flatMap, mem_iterator]
  constructor
  · rintro ⟨page, hmem, j, htuple, hrid⟩
    obtain ⟨i, hpage⟩ := mem_iff_getElem?.mp hmem
    exact ⟨i, page, j, hpage, htuple, by rw [hrid, h i page hpage]⟩
  · rintro ⟨i, page, j, hpage, htuple, hrid⟩
    exact ⟨page, mem_of_getElem? hpage, j, htuple, by rw [hrid, h i page hpage]⟩

lemma entries_unique (h : Numbered tableId pages) {e' : RecordId FilePageId × Tuple F.td}
    (he : e ∈ entries pages) (he' : e' ∈ entries pages) (hrid : e.1 = e'.1) : e = e' := by
  obtain ⟨i, page, j, hpage, htuple, hid⟩ := (mem_entries h).mp he
  obtain ⟨i', page', j', hpage', htuple', hid'⟩ := (mem_entries h).mp he'
  rw [hid, hid'] at hrid
  simp only [RecordId.mk.injEq, FilePageId.mk.injEq, true_and, Nat.cast_inj, Fin.val_inj] at hrid
  obtain ⟨rfl, rfl⟩ := hrid
  obtain rfl := some.inj (hpage.symm.trans hpage')
  exact Prod.ext (hid.trans hid'.symm) (some.inj (htuple.symm.trans htuple'))

lemma nodup_entries (h : Numbered tableId pages) : (entries pages).Nodup := by
  have hpage (page : HeapPage F FilePageId) : page.iterator.Nodup := by
    refine (nodup_finRange _).filterMap fun j k e hj hk => ?_
    simp only [mem_def, ite_none_right_eq_some, map_eq_some_iff] at hj hk
    obtain ⟨-, t, -, rfl⟩ := hj
    obtain ⟨-, t', -, heq⟩ := hk
    simpa [Fin.val_inj, eq_comm] using (Prod.mk.inj heq).1
  refine nodup_flatMap.mpr ⟨fun page _ => hpage page, ?_⟩
  refine pairwise_iff_getElem.mpr fun i k hi hk hlt => ?_
  intro e he he'
  obtain ⟨j, -, hrid⟩ := (mem_iterator _).mp he
  obtain ⟨j', -, hrid'⟩ := (mem_iterator _).mp he'
  rw [hrid, h i _ (getElem?_eq_getElem hi), h k _ (getElem?_eq_getElem hk)] at hrid'
  simp only [RecordId.mk.injEq, FilePageId.mk.injEq, true_and] at hrid'
  omega

lemma nodup_recordIds (h : Numbered tableId pages) : ((entries pages).map Prod.fst).Nodup :=
  (nodup_entries h).map_on fun _ he _ he' => entries_unique h he he'

lemma mem_entries_set (h : Numbered tableId pages) (hpage : pages[i]? = some page)
    (j : Fin F.numSlots) (x : Option (Tuple F.td)) :
    e ∈ entries (pages.set i (page.putSlot j x)) ↔
      (e.1 = ⟨⟨tableId, i⟩, (j : ℕ)⟩ ∧ x = some e.2) ∨
        (e ∈ entries pages ∧ e.1 ≠ ⟨⟨tableId, i⟩, (j : ℕ)⟩) := by
  have hlt := (List.getElem?_eq_some_iff.mp hpage).1
  have hset : Numbered tableId (pages.set i (page.putSlot j x)) := h.set (h i page hpage)
  rw [mem_entries hset, mem_entries h]
  constructor
  · rintro ⟨k, page', j', hpage', htuple, hrid⟩
    by_cases hk : i = k
    · subst hk
      rw [getElem?_set_self hlt] at hpage'
      obtain rfl := some.inj hpage'
      by_cases hj : j' = j
      · subst hj
        exact .inl ⟨hrid, by simpa using htuple⟩
      · rw [putSlot_tuples, update_of_ne hj] at htuple
        refine .inr ⟨⟨i, page, j', hpage, htuple, hrid⟩, ?_⟩
        rw [hrid]
        simpa [Fin.val_inj] using hj
    · rw [getElem?_set_ne hk] at hpage'
      refine .inr ⟨⟨k, page', j', hpage', htuple, hrid⟩, ?_⟩
      rw [hrid]
      simp [Ne.symm hk]
  · rintro (⟨hrid, rfl⟩ | ⟨⟨k, page', j', hpage', htuple, hrid⟩, hne⟩)
    · exact ⟨i, _, j, getElem?_set_self hlt, by simp, hrid⟩
    · by_cases hk : i = k
      · subst hk
        obtain rfl := some.inj (hpage.symm.trans hpage')
        have hj : j' ≠ j := by
          rintro rfl
          exact hne hrid
        refine ⟨i, _, j', getElem?_set_self hlt, ?_, hrid⟩
        rw [putSlot_tuples, update_of_ne hj, htuple]
      · exact ⟨k, page', j', by rw [getElem?_set_ne hk, hpage'], htuple, hrid⟩

end BallotBox.SimpleDb
