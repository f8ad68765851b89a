import BallotBox.Construction.PageLayouts
import BallotBox.Properties.PageRoundTrips

/-!
# Which page layouts fit

The number of slots is a quotient of numbers of bits, computed in `int`.  From `2 ^ 28` bytes on a
number of bits is not an `int`: a heap page then has fewer slots than it could have, and slots of
tuples of such a size do not fit (`layouts_fit_iff`).
-/

namespace BallotBox.SimpleDb

open PageFormat

variable {F : PageFormat} {key : FieldType} {x d p q : ℤ}

/-! ## What a layout should be -/

/-- The parts of a page fit, there is a bit for each slot, and each page is written out whole. -/
structure LayoutOk {ι : Type} (F : PageFormat) (slots header used : ℕ) (data : ι → Option Bytes) :
    Prop where
  fits : used ≤ F.pageSize
  bits : slots ≤ 8 * header
  whole : ∀ page, (data page).map List.length = some F.pageSize

/-- The slots of a heap page are moreover the most for which slots and bits fit. -/
def HeapLayoutOk (F : PageFormat) : Prop :=
  LayoutOk F F.heapSlots F.heapHeaderSize (F.heapHeaderSize + F.tupleSize * F.heapSlots)
      F.heapPageData ∧
    IsGreatest { m : ℕ | 8 * (F.tupleSize * m) + m ≤ 8 * F.pageSize } F.heapSlots

/-- The layout of a leaf page. -/
def LeafLayoutOk (F : PageFormat) : Prop :=
  LayoutOk F F.leafSlots (bTreeHeaderSize F.leafSlots)
    (bTreeHeaderSize F.leafSlots + F.tupleSize * F.leafSlots + 3 * indexSize)
    (@BTreeLeafPage.getPageData F)

/-- The layout of an internal page. -/
def InternalLayoutOk (F : PageFormat) (key : FieldType) : Prop :=
  LayoutOk F (F.internalSlots key) (bTreeHeaderSize (F.internalSlots key))
    (indexSize + 1 + bTreeHeaderSize (F.internalSlots key) +
      key.getLen * (F.internalSlots key - 1) + indexSize * F.internalSlots key)
    (@BTreeInternalPage.getPageData F key)

/-! ## What is written -/

lemma length_arrayBytes {header : Bytes} {entry : ℕ → Bytes} {size : ℕ} (slots : List ℕ)
    (h : ∀ i, (entry i).length = size) :
    (arrayBytes header size entry slots).length = size * slots.length := by
  have hslot (i : ℕ) :
      (if getBit header i then entry i else List.replicate size 0).length = size := by
    split_ifs
    · exact h i
    · exact List.length_replicate
  simp [arrayBytes, List.length_flatMap, hslot, mul_comm]

lemma TupleSlots.length_tuples {headerSize : ℕ} (page : TupleSlots F.td headerSize) (n : ℕ) :
    (arrayBytes page.header F.tupleSize (fun i => (page.tuples i).serialize) (.range n)).length =
      F.tupleSize * n :=
  (length_arrayBytes _ fun i => (page.tuples i).length_serialize).trans
    (by rw [List.length_range, tupleSize])

lemma bTreeHeaderSize_eq (n : ℕ) : bTreeHeaderSize n = (n + 7) / 8 := by
  simp only [bTreeHeaderSize]
  split_ifs <;> omega

/-- Slots and header fit if their bits do. -/
lemma layoutOk_of_le {ι : Type} {data : ι → Option Bytes} {slots header used : ℕ} (rest : ℕ)
    (hpage : F.pageSize < 2 ^ 31) (hheader : header = (slots + 7) / 8)
      (hused : used = header + rest)
    (hfits : 8 * rest + slots ≤ 8 * F.pageSize)
    (hdata : ∀ page, ∃ written, written.length = used ∧ data page = F.pad used written) :
    LayoutOk F slots header used data where
  fits := by omega
  bits := by omega
  whole page := by
    obtain ⟨written, hlength, heq⟩ := hdata page
    have hzeros : wrap32 (F.pageSize - used) = (F.pageSize - used : ℕ) := by
      rw [wrap32_of_range (by omega) (by omega)]
      omega
    simp only [heq, pad, hzeros]
    rw [if_neg (by omega)]
    simp only [Option.map_some, List.length_append, List.length_replicate, hlength]
    congr 1
    omega

section Layouts

variable (hpage : F.pageSize < 2 ^ 31)
include hpage

lemma heapLayoutOk_iff : HeapLayoutOk F ↔ F.heapSlots = F.numSlots := by
  have hmem (m : ℕ) : 8 * (F.tupleSize * m) + m ≤ 8 * F.pageSize ↔ m ≤ F.numSlots := by
    rw [numSlots, Nat.le_div_iff_mul_le (by omega)]
    ring_nf
  have hmax : IsGreatest { m : ℕ | 8 * (F.tupleSize * m) + m ≤ 8 * F.pageSize } F.numSlots :=
    ⟨(hmem _).mpr le_rfl, fun m hm => (hmem m).mp hm⟩
  refine ⟨fun h => h.2.unique hmax, fun h => ⟨?_, h ▸ hmax⟩⟩
  refine layoutOk_of_le _ hpage rfl rfl ((hmem _).mpr h.le) fun page =>
    ⟨_, ?_, by rw [heapPageData, page.header_length]⟩
  rw [List.length_append, page.length_tuples, page.header_length]

lemma leafLayoutOk_iff : LeafLayoutOk F ↔
    8 * (F.tupleSize * F.leafSlots + 3 * indexSize) + F.leafSlots ≤ 8 * F.pageSize := by
  refine ⟨fun h => ?_, fun h => ?_⟩
  · have hfits := h.fits
    rw [bTreeHeaderSize_eq] at hfits
    omega
  · refine layoutOk_of_le _ hpage (bTreeHeaderSize_eq _) (add_assoc ..) h fun page =>
      ⟨_, ?_, by rw [BTreeLeafPage.getPageData, page.header_length]⟩
    simp only [List.length_append, length_intBytes, page.header_length, page.length_tuples]
    show _ = _ + _ + 3 * 4
    omega

lemma internalLayoutOk_of_le (h : 8 * (key.getLen * (F.internalSlots key - 1) +
      indexSize * F.internalSlots key + indexSize + 1) + F.internalSlots key ≤ 8 * F.pageSize) :
    InternalLayoutOk F key := by
  refine layoutOk_of_le _ hpage (bTreeHeaderSize_eq _) (by ring) h fun page =>
    ⟨_, ?_, by rw [BTreeInternalPage.getPageData, page.header_length]⟩
  have hkey (i : ℕ) : (page.keys i).1.serialize.length = key.getLen := by
    rw [Field.length_serialize, (page.keys i).2]
  have hchild (i : ℕ) : (intBytes (page.children i)).length = indexSize := length_intBytes _
  simp only [List.length_append, length_intBytes, page.header_length, List.length_range,
    List.length_range', List.length_singleton, length_arrayBytes _ hkey, length_arrayBytes _ hchild]
  rfl

end Layouts

/-! ## Quotients -/

lemma wrap32_le (hx : -2 ^ 31 ≤ x) : wrap32 x ≤ x ∧ (2 ^ 31 ≤ x → wrap32 x + 2 ^ 32 ≤ x) := by
  have hrange := wrap32_range x
  obtain ⟨c, hc⟩ : (2 : ℤ) ^ 32 ∣ x - wrap32 x := Int.dvd_self_sub_bmod
  omega

/-- A positive quotient is not too large if the divisor has not wrapped. -/
lemma quotient_mul_le (hd : 0 < d) (hd' : d < 2 ^ 31) (hq : 1 ≤ (wrap32 x).tdiv (wrap32 d)) :
    (wrap32 x).tdiv (wrap32 d) * d ≤ wrap32 x := by
  rw [wrap32_of_range (by omega) hd'] at hq ⊢
  have hpos : 0 ≤ wrap32 x := by
    by_contra hneg
    have hle := Int.tdiv_le_tdiv hd (not_le.mp hneg).le
    rw [Int.zero_tdiv] at hle
    omega
  rw [Int.tdiv_eq_ediv_of_nonneg hpos]
  exact Int.ediv_mul_le _ hd.ne'

lemma getNumTuples_eq_iff (hcap : 1 ≤ F.getNumTuples) (hbits : F.tupleSize < 2 ^ 28) :
    F.getNumTuples = F.pageSize * 8 / (F.tupleSize * 8 + 1) ↔ F.pageSize < 2 ^ 28 := by
  have hd : (0 : ℤ) < F.tupleSize * 8 + 1 := by omega
  constructor
  · intro heq
    by_contra hbig
    -- the wrap takes away more than one slot
    have hle := quotient_mul_le hd (by omega) hcap
    have hwrap := (wrap32_le (x := F.pageSize * 8) (by omega)).2 (by omega)
    have hmore : F.getNumTuples + 1 ≤ F.pageSize * 8 / (F.tupleSize * 8 + 1) := by
      rw [Int.le_ediv_iff_mul_le hd, add_mul]
      unfold getNumTuples
      omega
    omega
  · intro hsmall
    rw [getNumTuples, wrap32_of_range (by omega) (by omega),
      wrap32_of_range (by omega) (by omega), Int.tdiv_eq_ediv_of_nonneg (by omega)]

/-- `q` tuples, with a bit each, are what some room holds.  The sizes are in bytes; both may be
negative. -/
def Holds (room tuple q : ℤ) : Prop :=
  q * (tuple * 8 + 1) ≤ room * 8 ∧ room * 8 < (q + 1) * (tuple * 8 + 1) ∨
    room * 8 ≤ q * (tuple * 8 + 1) ∧ (q + 1) * (tuple * 8 + 1) < room * 8

lemma wrap32_mul_eight (x : ℤ) : wrap32 (x * 8) = x.bmod (2 ^ 29) * 8 := by
  simp only [wrap32, Int.bmod_def]
  split_ifs <;> omega

lemma wrap32_mul_eight_add_one (x : ℤ) : wrap32 (x * 8 + 1) = x.bmod (2 ^ 29) * 8 + 1 := by
  simp only [wrap32, Int.bmod_def]
  split_ifs <;> omega

lemma tdiv_eq_iff_of_pos (hd : 0 < d) (hpos : 1 ≤ p.tdiv d) :
    p.tdiv d = q ↔ q * d ≤ p ∧ p < (q + 1) * d := by
  have hp : 0 ≤ p := by
    by_contra hneg
    have hle := Int.tdiv_le_tdiv hd (not_le.mp hneg).le
    rw [Int.zero_tdiv] at hle
    omega
  rw [Int.tdiv_eq_ediv_of_nonneg hp, Int.ediv_eq_iff_of_pos hd, add_one_mul]

/-- A positive quotient, whatever the signs. -/
lemma tdiv_eq_iff_bounds (hd : d ≠ 0) (hpos : 1 ≤ p.tdiv d) :
    p.tdiv d = q ↔ q * d ≤ p ∧ p < (q + 1) * d ∨ p ≤ q * d ∧ (q + 1) * d < p := by
  rcases hd.lt_or_gt with hneg | hd
  · have hflip := tdiv_eq_iff_of_pos (p := -p) (d := -d) (q := q) (by omega)
      (by rwa [Int.neg_tdiv_neg])
    rw [Int.neg_tdiv_neg] at hflip
    rw [hflip]
    constructor
    · rintro ⟨hl, hu⟩
      exact .inr ⟨by linarith, by linarith⟩
    · rintro (⟨hl, hu⟩ | ⟨hl, hu⟩)
      · nlinarith
      · exact ⟨by linarith, by linarith⟩
  · rw [tdiv_eq_iff_of_pos hd hpos]
    constructor
    · exact .inl
    · rintro (h | ⟨hl, hu⟩)
      · exact h
      · nlinarith

/-- The wrapped quotient is what the sizes hold when they are reduced modulo `2 ^ 29`. -/
lemma wrapped_eq_iff_holds {room tuple : ℤ}
    (hcap : 1 ≤ (wrap32 (room * 8)).tdiv (wrap32 (tuple * 8 + 1))) :
    (wrap32 (room * 8)).tdiv (wrap32 (tuple * 8 + 1)) = q ↔
      Holds (room.bmod (2 ^ 29)) (tuple.bmod (2 ^ 29)) q := by
  rw [wrap32_mul_eight, wrap32_mul_eight_add_one] at hcap ⊢
  exact tdiv_eq_iff_bounds (by omega) hcap

/-! ## The layouts -/

lemma heapLayoutOk_iff_quotient (hpage : F.pageSize < 2 ^ 31) (hcap : 1 ≤ F.getNumTuples) :
    HeapLayoutOk F ↔ F.getNumTuples = F.pageSize * 8 / (F.tupleSize * 8 + 1) := by
  have hnum : (F.numSlots : ℤ) = F.pageSize * 8 / (F.tupleSize * 8 + 1) := by simp [numSlots]
  rw [heapLayoutOk_iff hpage, ← hnum, heapSlots]
  omega

lemma leafLayoutOk_iff_quotient (hpage : F.pageSize < 2 ^ 31) (hcap : 1 ≤ F.getMaxTuples) :
    LeafLayoutOk F ↔ F.getMaxTuples ≤ (F.pageSize * 8 - 96) / (F.tupleSize * 8 + 1) := by
  have hcast : (F.leafSlots : ℤ) = F.getMaxTuples := Int.toNat_of_nonneg (by omega)
  rw [leafLayoutOk_iff hpage, Int.le_ediv_iff_mul_le (by omega), ← hcast, ← Int.ofNat_le]
  push_cast
  show 8 * (_ + 3 * (4 : ℤ)) + _ ≤ _ ↔ _
  constructor <;> intro h <;> linarith

lemma internal_fits (hpage : F.pageSize < 2 ^ 31) (hcap : 1 ≤ F.getMaxEntries key) :
    InternalLayoutOk F key := by
  have hindex : indexSize = 4 := rfl
  have hlen : key.getLen = 4 ∨ key.getLen = 132 := by cases key <;> simp [FieldType.getLen]
  have hcast : ((F.internalSlots key - 1 : ℕ) : ℤ) = F.getMaxEntries key := by
    rw [internalSlots, Nat.add_sub_cancel]
    exact Int.toNat_of_nonneg (by omega)
  have hfits : F.getMaxEntries key * (key.getLen * 8 + indexSize * 8 + 1) ≤
      F.pageSize * 8 - (2 * indexSize * 8 + 8 + 1) :=
    (quotient_mul_le (by omega) (by omega) hcap).trans (wrap32_le (by omega)).1
  rw [← hcast] at hfits
  refine internalLayoutOk_of_le hpage ?_
  rcases hlen with hlen | hlen <;> simp only [hlen, hindex, Nat.cast_ofNat] at hfits ⊢ <;> omega

/-- What the sizes hold is the exact quotient. -/
lemma heap_holds_iff : Holds F.pageSize F.tupleSize q ↔
    q = F.pageSize * 8 / (F.tupleSize * 8 + 1) := by
  have hd : (0 : ℤ) < F.tupleSize * 8 + 1 := by omega
  rw [Holds, @eq_comm ℤ q, Int.ediv_eq_iff_of_pos hd, add_one_mul]
  omega

/-- **Page layouts.**  An internal page always fits, and every page does if the bits of a tuple are
an `int`; the slots of a heap page are the most possible if moreover the bits of the page are.  With
longer tuples, what a heap page holds must be what its sizes hold modulo `2 ^ 29`, and in a leaf
that must not be more than fits. -/
theorem layouts_fit_iff (F : PageFormat) (key : FieldType) (hpage : F.pageSize < 2 ^ 31) :
    (1 ≤ F.getNumTuples → (HeapLayoutOk F ↔ F.pageSize < 2 ^ 28 ∧ F.tupleSize < 2 ^ 28 ∨
      2 ^ 28 ≤ F.tupleSize ∧ ∃ q, Holds F.pageSize F.tupleSize q ∧
        Holds (Int.bmod F.pageSize (2 ^ 29)) (Int.bmod F.tupleSize (2 ^ 29)) q)) ∧
    (1 ≤ F.getMaxTuples → (LeafLayoutOk F ↔ F.tupleSize < 2 ^ 28 ∨
      2 ^ 28 ≤ F.tupleSize ∧ ∃ q : ℤ, q * (F.tupleSize * 8 + 1) ≤ (F.pageSize - 12) * 8 ∧
        Holds (Int.bmod (F.pageSize - 12) (2 ^ 29)) (Int.bmod F.tupleSize (2 ^ 29)) q)) ∧
    (1 ≤ F.getMaxEntries key → InternalLayoutOk F key) := by
  refine ⟨fun hcap => ?_, fun hcap => ?_, internal_fits hpage⟩
  · rw [heapLayoutOk_iff_quotient hpage hcap]
    rcases lt_or_ge F.tupleSize (2 ^ 28) with hbits | hbits
    · rw [getNumTuples_eq_iff hcap hbits]
      omega
    · simp only [hbits, hbits.not_gt, and_false, false_or, true_and,
        ← wrapped_eq_iff_holds hcap, exists_eq_right']
      exact heap_holds_iff.symm
  · rw [leafLayoutOk_iff_quotient hpage hcap]
    have hd : (0 : ℤ) < F.tupleSize * 8 + 1 := by omega
    have hroom : (F.pageSize : ℤ) * 8 - 96 = (F.pageSize - 12) * 8 := by ring
    rcases lt_or_ge F.tupleSize (2 ^ 28) with hbits | hbits
    · have hindex : indexSize = 4 := rfl
      simp only [hbits, true_or, iff_true]
      rw [Int.le_ediv_iff_mul_le hd]
      exact (quotient_mul_le hd (by omega) hcap).trans (wrap32_le (by omega)).1
    · have hmax : F.getMaxTuples =
          (wrap32 ((F.pageSize - 12) * 8)).tdiv (wrap32 (F.tupleSize * 8 + 1)) := by
        rw [← hroom]
        rfl
      rw [hmax] at hcap ⊢
      simp only [hbits, hbits.not_gt, false_or, true_and, ← wrapped_eq_iff_holds hcap, hroom,
        exists_eq_right', Int.le_ediv_iff_mul_le hd]

/-- A heap page of `2 ^ 29 + 2 ^ 12` bytes has no more slots than one of `2 ^ 12` bytes. -/
theorem few_slots_on_large_page :
    1 ≤ getNumTuples ⟨536875008, [.int]⟩ ∧ ¬ HeapLayoutOk ⟨536875008, [.int]⟩ := by
  refine ⟨by decide +kernel, fun h => ?_⟩
  have hslots := (heapLayoutOk_iff (by decide)).mp h
  revert hslots
  decide +kernel

theorem default_pages_fit : HeapLayoutOk ⟨4096, [.int, .string]⟩ ∧
    LeafLayoutOk ⟨4096, [.int, .string]⟩ ∧ InternalLayoutOk ⟨4096, [.int, .string]⟩ .string := by
  have h := layouts_fit_iff ⟨4096, [.int, .string]⟩ .string (by decide)
  exact ⟨(h.1 (by decide +kernel)).mpr (.inl ⟨by decide, by decide⟩),
    (h.2.1 (by decide +kernel)).mpr (.inl (by decide)), h.2.2 (by decide +kernel)⟩

end BallotBox.SimpleDb
