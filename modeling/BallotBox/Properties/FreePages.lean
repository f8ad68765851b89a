import BallotBox.Construction.FreeList

/-!
# Which pages the free list hands out

The walk of `setEmptyPage` looks for a header page with `(count + 1) * numSlots ≥ e`, one page too
early at a boundary, and counts one header page too many.  The list is exact as long as the first
header page is enough (`free_pages_exact`).
-/

namespace BallotBox.SimpleDb

variable {headerSize e : ℕ} {s s' : TrackedPages} {f : TreeFile}

lemma getEmptySlot_eq_some {header : Bytes} {i : ℕ} (h : getEmptySlot header = some i) :
    i < header.length * 8 ∧ getBit header i = false := by
  have hmem := List.mem_of_find?_eq_some h
  have hclear := List.find?_some h
  exact ⟨by simpa using hmem, by simpa using hclear⟩

lemma getEmptySlot_eq_none {header : Bytes} (h : getEmptySlot header = none) {i : ℕ}
    (hi : i < header.length * 8) : getBit header i = true := by
  simpa using List.find?_eq_none.mp h i (by simpa using hi)

/-- The only header page of a file: its bits are clear for the pages that are free. -/
structure HeaderPage.Tracks (headerSize : ℕ) (s : TrackedPages) (page : HeaderPage) : Prop where
  length : page.header.length = headerSize
  clear : ∀ i < headerSize * 8, getBit page.header i = false ↔ i ∈ s.free
  free : ∀ i ∈ s.free, i < headerSize * 8 ∧ 1 ≤ i ∧ i ≤ s.file.numPages ∧ i ≠ page.pageNo
  inFile : page.pageNo ≤ s.file.numPages

/-- **The invariant**: there is no header page yet, or one. -/
def TrackedPages.Exact (headerSize : ℕ) (s : TrackedPages) : Prop :=
  (s.file.headers = [] ∧ s.free = ∅) ∨
    ∃ page, s.file.headers = [page] ∧ page.Tracks headerSize s

namespace TrackedPages

/-! ## Handing out -/

/-- A page comes from the list if one is free, and from the end of the file otherwise. -/
structure HandsOut (headerSize : ℕ) (s : TrackedPages) (no : ℕ) (f : TreeFile) : Prop where
  source : (no ∈ s.free ∧ f.numPages = s.file.numPages) ∨
    (s.free = ∅ ∧ no = s.file.numPages + 1 ∧ f.numPages = no)
  unused : no ∉ s.file.headers.map HeaderPage.pageNo
  after : Exact headerSize ⟨f, s.free.erase no⟩

lemma Exact.handsOut (h : s.Exact headerSize) :
    s.HandsOut headerSize (s.file.getEmptyPageNo headerSize).1
      (s.file.getEmptyPageNo headerSize).2 := by
  obtain ⟨hnone, hfree⟩ | ⟨page, hone, hpage⟩ := h
  · simp only [TreeFile.getEmptyPageNo, hnone, TreeFile.findEmpty]
    exact ⟨.inr ⟨hfree, rfl, rfl⟩, by simp [hnone], .inl ⟨rfl, by simp [hfree]⟩⟩
  · cases hslot : getEmptySlot page.header with
    | none =>
      have hfree : s.free = ∅ := by
        refine Finset.eq_empty_of_forall_notMem fun i hi => ?_
        have hlt := (hpage.free i hi).1
        have hset := getEmptySlot_eq_none hslot (hpage.length ▸ hlt)
        simp [(hpage.clear i hlt).mpr hi] at hset
      simp only [TreeFile.getEmptyPageNo, hone, TreeFile.findEmpty, hslot, Option.map_none]
      have hin := hpage.inFile
      refine ⟨.inr ⟨hfree, rfl, rfl⟩, ?_, .inr ⟨page, rfl, hpage.length, ?_, by simp [hfree], ?_⟩⟩
      · simp only [hone, List.map_cons, List.map_nil, List.mem_singleton]
        omega
      · simpa [hfree] using hpage.clear
      · exact hin.trans (Nat.le_succ _)
    | some i =>
      obtain ⟨hlt, hclear⟩ := getEmptySlot_eq_some hslot
      have hbyte : i / 8 < page.header.length := by omega
      rw [hpage.length] at hlt
      have hi : i ∈ s.free := (hpage.clear i hlt).mp hclear
      simp only [TreeFile.getEmptyPageNo, hone, TreeFile.findEmpty, hslot, Nat.zero_mul,
        Nat.zero_add]
      refine ⟨.inl ⟨hi, rfl⟩, ?_, .inr ⟨_, rfl, ?_, ?_, ?_, hpage.inFile⟩⟩
      · simpa [hone] using (hpage.free i hi).2.2.2
      · simpa using hpage.length
      · intro k hk
        rw [getBit_setBit hbyte, Finset.mem_erase, ← hpage.clear k hk]
        split_ifs with hki <;> simp [hki]
      · exact fun k hk => hpage.free k (Finset.mem_of_mem_erase hk)

/-! ## Setting free -/

lemma setEmptyPage_of_tracks {page : HeaderPage} (hone : f.headers = [page])
    (hpage : page.Tracks headerSize ⟨f, s.free⟩) (he : e < headerSize * 8) (hpos : 1 ≤ e)
    (hle : e ≤ f.numPages) (hne : e ≠ page.pageNo) :
    ∃ f', f.setEmptyPage headerSize e = some f' ∧ Exact headerSize ⟨f', insert e s.free⟩ := by
  have hbyte : e / 8 < page.header.length := by
    rw [hpage.length]
    omega
  have hfirst : ¬ TreeFile.getNumSlots headerSize < e := Nat.not_lt.mpr he.le
  refine ⟨{ f with headers := [{ page with header := setBit page.header e false }] }, ?_,
    .inr ⟨_, rfl, ?_, ?_, ?_, hpage.inFile⟩⟩
  · rw [TreeFile.setEmptyPage, if_neg (by simp [hone])]
    simp [hone, TreeFile.skip, hfirst, TreeFile.grow, markSlotUsed, hbyte]
  · simpa using hpage.length
  · intro k hk
    rw [getBit_setBit hbyte, Finset.mem_insert, ← hpage.clear k hk]
    split_ifs with hke <;> simp [hke]
  · intro k hk
    rcases Finset.mem_insert.mp hk with rfl | hk
    · exact ⟨he, hpos, hle, hne⟩
    · exact hpage.free k hk

lemma Exact.setEmptyPage (h : s.Exact headerSize) (he : e < headerSize * 8) (hpos : 1 ≤ e)
    (hle : e ≤ s.file.numPages) (hnew : e ∉ s.file.headers.map HeaderPage.pageNo) :
    ∃ f', s.file.setEmptyPage headerSize e = some f' ∧ Exact headerSize ⟨f', insert e s.free⟩ := by
  obtain ⟨hnone, hfree⟩ | ⟨page, hone, hpage⟩ := h
  · -- the first header page is made at the end of the file, with every slot used
    have hadd : s.file.addHeader headerSize =
        ⟨s.file.numPages + 1, [⟨s.file.numPages + 1, List.replicate headerSize 0xFF⟩]⟩ := by
      simp [TreeFile.addHeader, TreeFile.getEmptyPageNo, hnone, TreeFile.findEmpty]
    have hsame : s.file.setEmptyPage headerSize e =
        (s.file.addHeader headerSize).setEmptyPage headerSize e := by
      have hsome : (s.file.addHeader headerSize).headers ≠ [] := by simp [hadd]
      simp only [TreeFile.setEmptyPage, if_pos hnone, if_neg hsome]
    rw [hsame, hadd]
    refine setEmptyPage_of_tracks rfl ⟨by simp, fun i hi => ?_, by simp [hfree], le_rfl⟩ he hpos
      (by simp only; omega) (by simp only; omega)
    simp [getBit_replicate_ones hi, hfree]
  · exact setEmptyPage_of_tracks hone hpage he hpos hle (by simpa [hone] using hnew)

/-! ## Runs -/

/-- A page that is set free has its slot on the first header page. -/
def OnFirstPage (headerSize : ℕ) : PageCall → Prop
  | .setEmptyPage e => e < headerSize * 8
  | .getEmptyPageNo => True

lemma Exact.step {c : PageCall} (h : s.Exact headerSize) (hc : OnFirstPage headerSize c)
    (hstep : s.step headerSize c = some s') : s'.Exact headerSize := by
  cases c with
  | setEmptyPage e =>
    obtain ⟨⟨hpos, hle, -, hnew⟩, hset⟩ := Option.ite_none_right_eq_some.mp hstep
    obtain ⟨f', hf', hexact⟩ := h.setEmptyPage hc hpos hle hnew
    rw [hf'] at hset
    obtain rfl := Option.some.inj hset
    exact hexact
  | getEmptyPageNo =>
    obtain rfl := Option.some.inj hstep
    exact h.handsOut.after

end TrackedPages

end BallotBox.SimpleDb
