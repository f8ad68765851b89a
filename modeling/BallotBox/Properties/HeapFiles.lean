import BallotBox.Properties.Support.FileContents

/-!
# A heap file is a multiset

One transaction inserts tuples into a heap file and deletes them, while clean pages are evicted.
`TrackedFile` keeps the list of the tuples that are there; a scan gives exactly this list, in some
order (`heap_file_multiset`).
-/

namespace BallotBox.SimpleDb

open List

/-- A call on the file, or evictions. -/
inductive FileCall
  | insert (t : List Field)
  | delete (rid : Option (RecordId FilePageId))
  | evict (victims : List ℕ)
deriving DecidableEq

/-- A file, and the tuples that are in it as its user knows. -/
structure TrackedFile (F : PageFormat) where
  state : FileState F
  live : List (RecordId FilePageId × List Field)

section Calls

variable {F : PageFormat} (tableId : BitVec 32)

/-- A call, with the tuples that it adds or removes. -/
def TrackedFile.call (x : TrackedFile F) : FileCall → TrackedFile F
  | .insert t =>
    match (BufferPool.insertTuple tableId t).run x.state with
    | .ok rid s => ⟨s, x.live ++ rid.toList.map fun rid => (rid, t)⟩
    | .error _ s => ⟨s, x.live⟩
  | .delete rid =>
    match (BufferPool.deleteTuple tableId rid).run x.state with
    | .ok _ s => ⟨s, x.live.filter fun e => some e.1 ≠ rid⟩
    | .error _ s => ⟨s, x.live⟩
  | .evict victims => ⟨x.state.evict victims, x.live⟩

/-- The loop over the iterator. -/
def HeapFile.scan (fuel : ℕ) : FileProg F (List (RecordId FilePageId × Tuple F.td)) :=
  (HeapFile.iterator tableId).collect fuel

end Calls

/-- Tuples as lists of fields. -/
def listed {F : PageFormat} (l : List (RecordId FilePageId × Tuple F.td)) :
    List (RecordId FilePageId × List Field) :=
  l.map fun e => (e.1, e.2.fields)

variable {F : PageFormat} {tableId : BitVec 32} {pages pages' base : List (HeapPage F FilePageId)}
  {s : FileState F} {t : List Field} {rid : Option (RecordId FilePageId)}

/-! ## Changes -/

lemma iterator_blank (pid : FilePageId) : (HeapPage.blank F pid).iterator = [] := by
  refine eq_nil_iff_forall_not_mem.mpr fun e he => ?_
  obtain ⟨j, htuple, -⟩ := (HeapPage.mem_iterator _).mp he
  cases htuple

lemma entries_grown (h : Grown tableId pages base) : entries base = entries pages := by
  obtain rfl | ⟨-, rfl⟩ := h
  · rfl
  · simp [entries, iterator_blank]

lemma Numbered.grown (hids : Numbered tableId pages) (h : Grown tableId pages base) :
    Numbered tableId base := by
  obtain rfl | ⟨-, rfl⟩ := h
  · exact hids
  · exact hids.concat_blank

lemma FileInserted.perm (hids : Numbered tableId pages) (hids' : Numbered tableId pages')
    (h : FileInserted tableId pages t rid pages') :
    ∃ rid' tuple, rid = some rid' ∧ tuple.fields = t ∧
      (entries pages').Perm ((rid', tuple) :: entries pages) := by
  obtain ⟨base, i, page, page', hgrown, hpage, ⟨j, tuple, hfree, hfields, rfl, hrid⟩, rfl⟩ := h
  have hbase := hids.grown hgrown
  rw [hbase i page hpage] at hrid
  refine ⟨_, tuple, hrid, hfields, ?_⟩
  have hnew : ∀ e ∈ entries pages, e.1 ≠ ⟨⟨tableId, i⟩, (j : ℕ)⟩ := by
    intro e he heq
    rw [← entries_grown hgrown] at he
    obtain ⟨k, page', j', hpage', htuple, hid⟩ := (mem_entries hbase).mp he
    rw [heq] at hid
    simp only [RecordId.mk.injEq, FilePageId.mk.injEq, true_and, Nat.cast_inj, Fin.val_inj] at hid
    obtain ⟨rfl, rfl⟩ := hid
    rw [Option.some.inj (hpage.symm.trans hpage'), htuple] at hfree
    cases hfree
  refine (perm_ext_iff_of_nodup (nodup_entries hids') ?_).mpr fun e => ?_
  · exact nodup_cons.mpr ⟨fun hmem => hnew _ hmem rfl, nodup_entries hids⟩
  · rw [mem_entries_set hbase hpage, entries_grown hgrown, mem_cons, Prod.ext_iff]
    constructor
    · rintro (⟨hid, htuple⟩ | ⟨hmem, -⟩)
      · exact .inl ⟨hid, (Option.some.inj htuple).symm⟩
      · exact .inr hmem
    · rintro (⟨hid, htuple⟩ | hmem)
      · exact .inl ⟨hid, by rw [htuple]⟩
      · exact .inr ⟨hmem, hnew e hmem⟩

lemma FileDeleted.perm (hids : Numbered tableId pages) (hids' : Numbered tableId pages')
    (h : FileDeleted pages rid pages') :
    (entries pages').Perm ((entries pages).filter fun e => some e.1 ≠ rid) := by
  obtain ⟨i, page, page', hpage, ⟨j, tuple, htuple, hrid, rfl⟩, rfl⟩ := h
  rw [hids i page hpage] at hrid
  refine (perm_ext_iff_of_nodup (nodup_entries hids') ((nodup_entries hids).filter _)).mpr
    fun e => ?_
  rw [mem_entries_set hids hpage, mem_filter, hrid]
  simp

/-! ## Runs -/

/-- The tracked tuples are those of the pages. -/
def TrackedFile.Agrees (tableId : BitVec 32) (pages : List (HeapPage F FilePageId))
    (x : TrackedFile F) : Prop :=
  x.state.Holds tableId pages ∧ (listed (entries pages)).Perm x.live

lemma listed_filter (l : List (RecordId FilePageId × Tuple F.td)) :
    listed (l.filter fun e => some e.1 ≠ rid) = (listed l).filter fun e => some e.1 ≠ rid := by
  rw [listed, listed, filter_map]
  rfl

lemma FileInserted.length_le (h : FileInserted tableId pages t rid pages') :
    pages.length ≤ pages'.length := by
  obtain ⟨base, i, page, page', hgrown | ⟨-, hgrown⟩, -, -, rfl⟩ := h <;> simp [hgrown]

lemma TrackedFile.Agrees.call {x : TrackedFile F} (h : x.Agrees tableId pages) (c : FileCall) :
    ∃ pages', (x.call tableId c).Agrees tableId pages' ∧ pages.length ≤ pages'.length := by
  obtain ⟨hholds, hperm⟩ := h
  cases c with
  | insert t =>
    cases hrun : (BufferPool.insertTuple tableId t).run x.state with
    | ok rid s =>
      obtain ⟨pages', hinserted, hholds'⟩ := insertTuple_rule.of_ok hholds hrun
      obtain ⟨rid', tuple, rfl, rfl, hentries⟩ := hinserted.perm hholds.ids hholds'.ids
      have hcall :
          x.call tableId (.insert tuple.fields) = ⟨s, x.live ++ [(rid', tuple.fields)]⟩ := by
        simp only [TrackedFile.call, hrun]
        rfl
      have hlisted :
          (listed (entries pages')).Perm ((rid', tuple.fields) :: listed (entries pages)) :=
        hentries.map _
      rw [hcall]
      exact ⟨pages', ⟨hholds', (hlisted.trans (hperm.cons _)).trans
        (perm_append_singleton _ _).symm⟩, hinserted.length_le⟩
    | error f s =>
      obtain ⟨-, base, hgrown, hholds'⟩ := insertTuple_rule.of_error hholds hrun
      have hcall : x.call tableId (.insert t) = ⟨s, x.live⟩ := by simp only [TrackedFile.call, hrun]
      rw [hcall]
      refine ⟨base, ⟨hholds', by rwa [entries_grown hgrown]⟩, ?_⟩
      obtain rfl | ⟨-, rfl⟩ := hgrown <;> simp
  | delete rid =>
    cases hrun : (BufferPool.deleteTuple tableId rid).run x.state with
    | ok _ s =>
      obtain ⟨pages', hdeleted, hholds'⟩ := (deleteTuple_rule rid).of_ok hholds hrun
      have hcall : x.call tableId (.delete rid) = ⟨s, x.live.filter fun e => some e.1 ≠ rid⟩ := by
        simp only [TrackedFile.call, hrun]
      have hlisted : (listed (entries pages')).Perm
          ((listed (entries pages)).filter fun e => some e.1 ≠ rid) := by
        rw [← listed_filter]
        exact (hdeleted.perm hholds.ids hholds'.ids).map _
      rw [hcall]
      refine ⟨pages', ⟨hholds', hlisted.trans (hperm.filter _)⟩, ?_⟩
      obtain ⟨i, page, page', -, -, rfl⟩ := hdeleted
      rw [length_set]
    | error f s =>
      obtain ⟨-, hholds'⟩ := (deleteTuple_rule rid).of_error hholds hrun
      have hcall : x.call tableId (.delete rid) = ⟨s, x.live⟩ := by
        simp only [TrackedFile.call, hrun]
      rw [hcall]
      exact ⟨pages, ⟨hholds', hperm⟩, le_rfl⟩
  | evict victims => exact ⟨pages, ⟨hholds.evict victims, hperm⟩, le_rfl⟩

lemma TrackedFile.Agrees.calls {x : TrackedFile F} (h : x.Agrees tableId pages)
    (calls : List FileCall) :
    ∃ pages', (calls.foldl (TrackedFile.call tableId) x).Agrees tableId pages' ∧
      pages.length ≤ pages'.length := by
  induction calls generalizing x pages with
  | nil => exact ⟨pages, h, le_rfl⟩
  | cons c calls ih =>
    obtain ⟨pages', h', hle⟩ := h.call c
    obtain ⟨pages'', h'', hle'⟩ := ih h'
    exact ⟨pages'', h'', hle.trans hle'⟩

lemma scan_rule (hpages : pages ≠ []) {fuel : ℕ} (hfuel : (entries pages).length ≤ fuel) :
    Triple (FileState.Holds tableId pages) (HeapFile.scan tableId fuel)
      (fun l s => l = entries pages ∧ s.Holds tableId pages) fun _ _ => False :=
  (delivers_iterator F tableId).collect hfuel (opened_rule hpages)

/-! ## The result -/

/-- A scan gives these tuples, in some order. -/
def FileState.Scans (tableId : BitVec 32) (s : FileState F)
    (live : List (RecordId FilePageId × List Field)) : Prop :=
  ∀ fuel, live.length ≤ fuel →
    ∃ l s', (HeapFile.scan tableId fuel).run s = .ok l s' ∧ (listed l).Perm live

lemma TrackedFile.Agrees.scans {x : TrackedFile F} (h : x.Agrees tableId pages)
    (hpages : pages ≠ []) :
    x.state.Scans tableId x.live := by
  intro fuel hfuel
  have hlength : (entries pages).length ≤ fuel := by
    rw [← h.2.length_eq, listed, length_map] at hfuel
    exact hfuel
  obtain ⟨l, s', hrun, rfl, -⟩ := (scan_rule hpages hlength).returns h.1
  exact ⟨entries pages, s', hrun, h.2⟩

lemma TrackedFile.Agrees.nodup {x : TrackedFile F} (h : x.Agrees tableId pages) :
    (x.live.map Prod.fst).Nodup := by
  refine ((h.2.map Prod.fst).nodup_iff).mp ?_
  rw [listed, map_map]
  exact nodup_recordIds h.1.ids

lemma TrackedFile.Agrees.deletes {x : TrackedFile F} (h : x.Agrees tableId pages)
    {e : RecordId FilePageId × List Field} (he : e ∈ x.live) :
    ∃ s', (BufferPool.deleteTuple tableId (some e.1)).run x.state = .ok () s' := by
  cases hrun : (BufferPool.deleteTuple tableId (some e.1)).run x.state with
  | ok _ s' => exact ⟨s', rfl⟩
  | error f s' =>
    obtain ⟨hmissing, -⟩ := (deleteTuple_rule (some e.1)).of_error h.1 hrun
    obtain ⟨e', he', rfl⟩ := mem_map.mp (h.2.mem_iff.mpr he)
    obtain ⟨i, page, j, hpage, htuple, hrid⟩ := (mem_entries h.1.ids).mp he'
    exact absurd ⟨i, page, j, hpage, by simp [htuple], congrArg some hrid⟩ hmissing

lemma TrackedFile.Agrees.inserts {x : TrackedFile F} (h : x.Agrees tableId pages)
    (htyped : t.map Field.getType = F.td) (hroom : 0 < F.numSlots) :
    ∃ rid s', (BufferPool.insertTuple tableId t).run x.state = .ok (some rid) s' := by
  cases hrun : (BufferPool.insertTuple tableId t).run x.state with
  | ok rid s' =>
    obtain ⟨pages', ⟨base, i, page, page', -, -, ⟨j, tuple, -, -, -, rfl⟩, -⟩, -⟩ :=
      insertTuple_rule.of_ok h.1 hrun
    exact ⟨_, s', rfl⟩
  | error f s' =>
    obtain ⟨hfail, -⟩ := insertTuple_rule.of_error h.1 hrun
    cases hfail with
    | inl hmismatch => exact absurd htyped hmismatch
    | inr hnone => exact absurd hnone hroom.ne'

lemma TrackedFile.Agrees.numPages_insert {x : TrackedFile F} (h : x.Agrees tableId pages) {i : ℕ}
    {page : HeapPage F FilePageId} (hpage : pages[i]? = some page)
      (hfree : 0 < page.getNumEmptySlots)
    (t : List Field) : (x.call tableId (.insert t)).state.numPages = x.state.numPages := by
  have hbase {base : List (HeapPage F FilePageId)} (hgrown : Grown tableId pages base) :
      base = pages := by
    refine hgrown.resolve_right fun hfull => ?_
    exact hfree.ne' (hfull.1 page (mem_of_getElem? hpage))
  rw [h.1.numPages]
  cases hrun : (BufferPool.insertTuple tableId t).run x.state with
  | ok rid s' =>
    obtain ⟨pages', ⟨base, k, page, page', hgrown, -, -, rfl⟩, hholds⟩ :=
      insertTuple_rule.of_ok h.1 hrun
    simp only [TrackedFile.call, hrun]
    rw [hholds.numPages, length_set, hbase hgrown]
  | error f s' =>
    obtain ⟨-, base, hgrown, hholds⟩ := insertTuple_rule.of_error h.1 hrun
    simp only [TrackedFile.call, hrun]
    rw [hholds.numPages, hbase hgrown]

/-- **A heap file is a multiset.**  A file has a page from the start: tables are created with one,
and `HeapFileIterator.open` throws on an empty file.  After any calls and evictions,

* a scan gives the tuples that have been inserted and not deleted, each once;
* a record id identifies its tuple, and deleting by it removes exactly that tuple;
* a tuple of the table's type can be inserted, if a page has room for a tuple at all;
* no page is added while some page has a free slot. -/
theorem heap_file_multiset {s₀ : FileState F} (h₀ : s₀.Holds tableId pages) (hpages : pages ≠ [])
    (calls : List FileCall) :
    let x := calls.foldl (TrackedFile.call tableId) ⟨s₀, listed (entries pages)⟩
    x.state.Scans tableId x.live ∧ (x.live.map Prod.fst).Nodup ∧
    (∀ e ∈ x.live, ∃ s', (BufferPool.deleteTuple tableId (some e.1)).run x.state = .ok () s' ∧
      s'.Scans tableId (x.live.filter fun e' => some e'.1 ≠ some e.1)) ∧
    (∀ t, t.map Field.getType = F.td → 0 < F.numSlots →
      ∃ rid s', (BufferPool.insertTuple tableId t).run x.state = .ok (some rid) s' ∧
        s'.Scans tableId (x.live ++ [(rid, t)])) ∧
    ∀ t i page s', (BufferPool.getPage tableId i).run x.state = .ok page s' →
      0 < page.getNumEmptySlots →
      (x.call tableId (.insert t)).state.numPages = x.state.numPages := by
  intro x
  have hstart : TrackedFile.Agrees tableId pages ⟨s₀, listed (entries pages)⟩ := ⟨h₀, .rfl⟩
  obtain ⟨now, h, hle⟩ := hstart.calls calls
  have hnow (pages' : List (HeapPage F FilePageId)) (hle' : now.length ≤ pages'.length) :
      pages' ≠ [] := by
    rintro rfl
    exact hpages (length_eq_zero_iff.mp (Nat.le_zero.mp (hle.trans hle')))
  refine ⟨h.scans (hnow now le_rfl), h.nodup, fun e he => ?_, fun t htyped hroom => ?_,
    fun t i page s' hget hfree => ?_⟩
  · obtain ⟨s', hrun⟩ := h.deletes he
    obtain ⟨pages', h', hle'⟩ := h.call (.delete (some e.1))
    have hscans := h'.scans (hnow pages' hle')
    simp only [TrackedFile.call, hrun] at hscans
    exact ⟨s', hrun, hscans⟩
  · obtain ⟨rid, s', hrun⟩ := h.inserts htyped hroom
    obtain ⟨pages', h', hle'⟩ := h.call (.insert t)
    have hscans := h'.scans (hnow pages' hle')
    simp only [TrackedFile.call, hrun] at hscans
    exact ⟨rid, s', hrun, hscans⟩
  · cases hpage : now[i]? with
    | none => exact ((getPage_missing hpage).of_ok h.1 hget).elim
    | some page' =>
      obtain ⟨rfl, -⟩ := (getPage_rule hpage).of_ok h.1 hget
      exact h.numPages_insert hpage hfree t

/-! ## A file with one page -/

def numberFormat : PageFormat := ⟨20, [.int]⟩

def newTable : FileState numberFormat :=
  ⟨[HeapPage.blank numberFormat (⟨7, 0⟩ : FilePageId)].flatMap HeapPage.getPageData, fun _ =>
    none, []⟩

def threeCalls : List FileCall :=
  [.insert [.int 5], .evict [0], .insert [.int 6], .delete (some ⟨⟨7, 0⟩, 0⟩)]

theorem threeCalls_multiset :
    (threeCalls.foldl (TrackedFile.call 7) ⟨newTable, []⟩).live = [(⟨⟨7, 0⟩, 1⟩, [.int 6])] ∧
      (threeCalls.foldl (TrackedFile.call 7) ⟨newTable, []⟩).state.Scans 7
        (threeCalls.foldl (TrackedFile.call 7) ⟨newTable, []⟩).live := by
  have hholds : newTable.Holds 7 [HeapPage.blank numberFormat ⟨7, 0⟩] :=
    holds_one (by decide) rfl ((HeapPage.survivesDisk_iff _).mpr fun i t ht => by cases ht)
  have hempty : listed (entries [HeapPage.blank numberFormat (⟨7, 0⟩ : FilePageId)]) = [] := by
    simp [entries, iterator_blank, listed]
  have hresult := heap_file_multiset hholds (by simp) threeCalls
  rw [hempty] at hresult
  exact ⟨by decide +kernel, hresult.1⟩

end BallotBox.SimpleDb
