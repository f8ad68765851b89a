import BallotBox.Construction.Journal

/-!
# Where a transaction begins in the log

A running transaction is *anchored*: its entry in `tidToFirstLogRecord` is the offset of its begin
record, and what `logTruncate` would cut off lies before it.  Every operation keeps this, so a
rollback sees the records after the begin record (`Anchored.rollback_eq`).
-/

namespace BallotBox.SimpleDb

open LogRecord List Option AList

variable {start offset base : ℤ}

variable {τ π α : Type} {imageSize : Image π α → ℕ}
variable {len : LogRecord τ π α → ℕ} {r : LogRecord τ π α} {log : List (LogRecord τ π α)}
  {first : AList fun _ : τ => ℤ}

lemma LogRecord.size_pos (r : LogRecord τ π α) : 0 < r.size imageSize := by
  cases r <;> simp [size]

@[simp] lemma LogRecord.size_shift (base : ℤ) (r : LogRecord τ π α) :
    (r.shift base).size imageSize = r.size imageSize := by
  cases r <;> simp [size, shift]

/-! ## The smallest offset -/

lemma foldl_min_le (l : List ℤ) (a : ℤ) : l.foldl min a ≤ a ∧ ∀ x ∈ l, l.foldl min a ≤ x := by
  induction l generalizing a with
  | nil => simp
  | cons b l ih =>
    obtain ⟨hinit, hmem⟩ := ih (min a b)
    refine ⟨hinit.trans (min_le_left a b), fun x hx => ?_⟩
    rcases mem_cons.mp hx with rfl | hx
    · exact hinit.trans (min_le_right a x)
    · exact hmem x hx

lemma foldl_min_mem (l : List ℤ) (a : ℤ) : l.foldl min a = a ∨ l.foldl min a ∈ l := by
  induction l generalizing a with
  | nil => exact .inl rfl
  | cons b l ih =>
    rw [foldl_cons]
    rcases ih (min a b) with h | h
    · rw [h]
      rcases min_choice a b with h | h
      · exact .inl h
      · exact .inr (by simp [h])
    · exact .inr (mem_cons_of_mem _ h)

lemma foldl_min_shift (l : List ℤ) (a base : ℤ) :
    (l.map fun x => x - base + 8).foldl min (a - base + 8) = l.foldl min a - base + 8 := by
  induction l generalizing a with
  | nil => rfl
  | cons b l ih =>
    have hmin : min (a - base + 8) (b - base + 8) = min a b - base + 8 := by omega
    simp only [map_cons, foldl_cons, hmin, ih]

namespace Journal

variable {j j' : Journal τ π α} {t u : τ} {p : π}
  {pre post rest dropped kept : List (LogRecord τ π α)}

/-! ## Offsets -/

lemma scanFrom_append (rest : List (LogRecord τ π α))
    (h : offset ≤ start + (pre.map (size imageSize)).sum) :
    ∃ dropped kept, pre = dropped ++ kept ∧
      scanFrom (size imageSize) start offset (pre ++ rest) = kept ++ rest := by
  induction pre generalizing start with
  | nil =>
    refine ⟨[], [], rfl, ?_⟩
    have hle : offset ≤ start := by simpa using h
    cases rest <;> simp [scanFrom, hle]
  | cons r pre ih =>
    by_cases hle : offset ≤ start
    · exact ⟨[], r :: pre, rfl, by simp [scanFrom, hle]⟩
    · have hrest : offset ≤ start + r.size imageSize + (pre.map (size imageSize)).sum := by
        simp only [map_cons, sum_cons, Nat.cast_add] at h
        omega
      obtain ⟨dropped, kept, rfl, hscan⟩ := ih hrest
      refine ⟨r :: dropped, kept, rfl, ?_⟩
      rw [cons_append, scanFrom, if_neg hle, hscan]

lemma scanFrom_offset (start : ℤ) (pre rest : List (LogRecord τ π α)) :
    scanFrom (size imageSize) start
      (start + (pre.map (size imageSize)).sum) (pre ++ rest) = rest := by
  induction pre generalizing start with
  | nil => cases rest <;> simp [scanFrom]
  | cons r pre ih =>
    have hpos : 0 < r.size imageSize := r.size_pos
    have hoff : start + ((r :: pre).map (size imageSize)).sum =
        start + r.size imageSize + (pre.map (size imageSize)).sum := by
      push_cast [map_cons, sum_cons]
      omega
    have hlt : ¬ start + r.size imageSize + (pre.map (size imageSize)).sum ≤ start := by
      omega
    rw [hoff, cons_append, scanFrom, if_neg hlt]
    exact ih (start + r.size imageSize)

lemma mem_of_mem_scanFrom (h : r ∈ scanFrom len start offset log) : r ∈ log := by
  induction log generalizing start with
  | nil => exact h
  | cons r' log ih =>
    rw [scanFrom] at h
    split_ifs at h
    · exact h
    · exact mem_cons_of_mem _ (ih h)

lemma begin_mem_map_shift : .begin t ∈ log.map (shift base) ↔ .begin t ∈ log := by
  constructor
  · intro h
    obtain ⟨r, hr, heq⟩ := List.mem_map.mp h
    cases r <;> simp_all [shift]
  · exact fun h => List.mem_map.mpr ⟨.begin t, h, rfl⟩

@[simp] lemma sum_size_shift (base : ℤ) (log : List (LogRecord τ π α)) :
    ((log.map (shift base)).map (size imageSize)).sum =
      (log.map (size imageSize)).sum := by
  congr 1
  simp

/-! ## The pointer -/

def Boundary (imageSize : Image π α → ℕ) (log : List (LogRecord τ π α)) (offset : ℤ) : Prop :=
  ∃ pre post, log = pre ++ post ∧ offset = 8 + (pre.map (size imageSize)).sum

def Pointed (imageSize : Image π α → ℕ) (j : Journal τ π α) : Prop :=
  j.pointer < 0 ∨ ∃ pre active post, j.records = pre ++ .checkpoint active :: post ∧
    j.pointer = 8 + (pre.map (size imageSize)).sum ∧
    ∀ e ∈ active, Boundary imageSize j.records e.2

lemma Boundary.append (h : Boundary imageSize log offset) (rest : List (LogRecord τ π α)) :
    Boundary imageSize (log ++ rest) offset := by
  obtain ⟨pre, post, rfl, hoff⟩ := h
  exact ⟨pre, post ++ rest, by simp, hoff⟩

lemma truncationPoint_of_records {active : List (τ × ℤ)}
    (hrec : j.records = pre ++ .checkpoint active :: post)
    (hptr : j.pointer = 8 + (pre.map (size imageSize)).sum) :
    j.truncationPoint (size imageSize) =
      some ((active.map Prod.snd).foldl min j.pointer) := by
  have hneg : ¬ j.pointer < 0 := by omega
  have hscan : scanFrom (size imageSize) 8 j.pointer j.records =
      .checkpoint active :: post := by rw [hrec, hptr, scanFrom_offset]
  rw [truncationPoint, if_neg hneg, hscan]

/-- One more record in the file. -/
structure Appends (j : Journal τ π α) (r : LogRecord τ π α) (j' : Journal τ π α) : Prop where
  records : j'.records = j.records ++ [r]
  pointer : j'.pointer = j.pointer

lemma Appends.truncationPoint_eq (happ : j.Appends r j')
    (h : j.Pointed imageSize) : j'.truncationPoint (size imageSize) =
      j.truncationPoint (size imageSize) := by
  obtain hneg | ⟨pre, active, post, hcp, hoff, -⟩ := h
  · simp [truncationPoint, happ.pointer, hneg]
  · rw [truncationPoint_of_records hcp hoff, ← happ.pointer]
    have hcp' : j'.records = pre ++ .checkpoint active :: (post ++ [r]) := by
      rw [happ.records, hcp]
      simp
    exact truncationPoint_of_records hcp' (happ.pointer.trans hoff)

lemma Pointed.append (h : j.Pointed imageSize) (happ : j.Appends r j') : j'.Pointed imageSize := by
  unfold Pointed
  rw [happ.records, happ.pointer]
  obtain hneg | ⟨pre, active, post, hcp, hoff, hactive⟩ := h
  · exact .inl hneg
  · exact .inr ⟨pre, active, post ++ [r], by simp [hcp], hoff,
      fun e he => (hactive e he).append [r]⟩

lemma exists_kept (hlog : pre ++ rest = dropped ++ kept)
    (hle : (8 + (dropped.map (size imageSize)).sum : ℤ) ≤
      8 + (pre.map (size imageSize)).sum) :
    ∃ pre', pre = dropped ++ pre' ∧ kept = pre' ++ rest := by
  obtain ⟨dropped', pre', rfl, hscan⟩ := scanFrom_append rest hle
  rw [hlog, scanFrom_offset] at hscan
  subst hscan
  rw [← append_assoc] at hlog
  exact ⟨pre', append_cancel_right hlog, rfl⟩

lemma Boundary.truncate (h : Boundary imageSize (dropped ++ kept) offset)
    (hbase : base = 8 + (dropped.map (size imageSize)).sum) (hle : base ≤ offset) :
    Boundary imageSize (kept.map (shift base)) (offset - base + 8) := by
  obtain ⟨pre, post, hlog, rfl⟩ := h
  obtain ⟨pre', rfl, rfl⟩ := exists_kept hlog.symm (hbase ▸ hle)
  refine ⟨pre'.map (shift base), post.map (shift base), by simp, ?_⟩
  rw [sum_size_shift, hbase, map_append, sum_append]
  push_cast
  ring

/-- A file that has been truncated: where it was cut, and what is in it now. -/
structure Truncates (imageSize : Image π α → ℕ) (j : Journal τ π α) (base : ℤ)
    (dropped kept : List (LogRecord τ π α)) (j' : Journal τ π α) : Prop where
  cut : j.truncationPoint (size imageSize) = some base
  split : j.records = dropped ++ kept
  offset : base = 8 + (dropped.map (size imageSize)).sum
  pointer : j'.pointer = j.pointer - base + 8
  records : j'.records = kept.map (LogRecord.shift base)

lemma Truncates.pointed
    (h : j.Truncates imageSize base dropped kept j') (hptd : j.Pointed imageSize) :
    j'.Pointed imageSize ∧ j'.truncationPoint (size imageSize) = some 8 := by
  have hcut := h.cut
  obtain hneg | ⟨pre, active, post, hcp, hptr, hactive⟩ := hptd
  · simp [truncationPoint, hneg] at hcut
  rw [truncationPoint_of_records hcp hptr, some.injEq] at hcut
  obtain ⟨hle, hles⟩ := foldl_min_le (active.map Prod.snd) j.pointer
  rw [hcut] at hle hles
  obtain ⟨pre', rfl, rfl⟩ :=
    exists_kept (hcp.symm.trans h.split) (by rw [← h.offset, ← hptr]; exact hle)
  have hrec : j'.records = pre'.map (shift base) ++
      .checkpoint (active.map fun e => (e.1, e.2 - base + 8)) ::
        post.map (shift base) := by
    rw [h.records]
    simp [shift]
  have hptr' : j'.pointer = 8 + ((pre'.map (shift base)).map
      (size imageSize)).sum := by
    rw [sum_size_shift, h.pointer, hptr, h.offset, map_append, sum_append]
    push_cast
    ring
  refine ⟨.inr ⟨_, _, _, hrec, hptr', fun e he => ?_⟩, ?_⟩
  · obtain ⟨e, hold, rfl⟩ := List.mem_map.mp he
    rw [h.records]
    have hbound := hactive e hold
    rw [h.split] at hbound
    exact hbound.truncate h.offset (hles _ (List.mem_map_of_mem hold))
  · rw [truncationPoint_of_records hrec hptr', h.pointer, List.map_map]
    have hshift := foldl_min_shift (active.map Prod.snd) j.pointer base
    rw [List.map_map, hcut, sub_self, zero_add] at hshift
    exact congrArg some hshift

/-! ## Transactions that are unknown -/

def Unseen (j : Journal τ π α) (t : τ) : Prop :=
  t ∉ j.tidToFirstLogRecord ∧ .begin t ∉ j.preAppend.records

lemma Unseen.append (h : j.Unseen t) (hdecided : j'.recoveryUndecided = false)
    (hrec : j'.records = j.preAppend.records ++ [r]) (hr : r ≠ .begin t)
    (hfirst : t ∈ j'.tidToFirstLogRecord → t ∈ j.tidToFirstLogRecord) : j'.Unseen t := by
  refine ⟨fun hmem => h.1 (hfirst hmem), ?_⟩
  rw [preAppend_of_decided _ hdecided, hrec]
  simp [h.2, hr.symm]

/-! ## Anchors -/

variable [DecidableEq τ]

lemma lookup_putBegins_of_notMem (len : LogRecord τ π α → ℕ) (h : .begin t ∉ log) :
    (putBegins len start log first).lookup t = first.lookup t := by
  induction log generalizing start first with
  | nil => rfl
  | cons r log ih =>
    rw [putBegins, ih fun hm => h (mem_cons_of_mem _ hm)]
    cases r with
    | begin u =>
      have hne : t ≠ u := fun heq => h (by simp [heq])
      exact lookup_insert_ne hne
    | _ => rfl

lemma lookup_putBegins (len : LogRecord τ π α → ℕ) (h : .begin t ∉ post) :
    (putBegins len start (pre ++ .begin t :: post) first).lookup t =
      some (start + (pre.map len).sum) := by
  induction pre generalizing start first with
  | nil =>
    rw [nil_append, putBegins, lookup_putBegins_of_notMem len h]
    simp [putBegin]
  | cons r pre ih =>
    rw [cons_append, putBegins, ih]
    push_cast [map_cons, sum_cons]
    rw [add_assoc]

lemma mem_putBegins : t ∈ putBegins len start log first ↔ t ∈ first ∨ .begin t ∈ log := by
  induction log generalizing start first with
  | nil => simp [putBegins]
  | cons r log ih =>
    rw [putBegins, ih, mem_cons]
    cases r with
    | begin u =>
      rw [putBegin, mem_insert, LogRecord.begin.injEq]
      tauto
    | _ => simp [putBegin]

/-- The transaction is known to begin where its begin record is, `post` comes after it, and a
truncation now would keep it. -/
def Anchored (imageSize : Image π α → ℕ) (j : Journal τ π α) (t : τ)
    (post : List (LogRecord τ π α)) : Prop :=
  .begin t ∉ post ∧ ∃ pre, j.records = pre ++ .begin t :: post ∧
    j.tidToFirstLogRecord.lookup t = some (8 + (pre.map (size imageSize)).sum : ℤ) ∧
    ∀ base, j.truncationPoint (size imageSize) = some base →
      base ≤ 8 + (pre.map (size imageSize)).sum

/-- **The invariant of the log**, once it is decided what to do with the records found. -/
structure Sound (imageSize : Image π α → ℕ) (j : Journal τ π α) : Prop where
  pointed : j.Pointed imageSize
  anchored : ∀ t ∈ j.tidToFirstLogRecord, ∃ post, j.Anchored imageSize t post

/-! ## One more record -/

lemma Anchored.append (h : j.Anchored imageSize t post)
    (hptd : j.Pointed imageSize) (happ : j.Appends r j') (hr : r ≠ .begin t)
    (hfirst : j'.tidToFirstLogRecord.lookup t = j.tidToFirstLogRecord.lookup t) :
    j'.Anchored imageSize t (post ++ [r]) := by
  obtain ⟨hpost, pre, hrec, hoff, hcut⟩ := h
  refine ⟨by simp [hpost, hr.symm], pre, ?_, hfirst.trans hoff, fun base hbase => ?_⟩
  · rw [happ.records, hrec]
    simp
  · exact hcut base (happ.truncationPoint_eq hptd ▸ hbase)

lemma Sound.append (h : j.Sound imageSize) (happ : j.Appends r j')
    (hr : ∀ t, r ≠ .begin t) (hfirst : ∀ t ∈ j'.tidToFirstLogRecord,
      j'.tidToFirstLogRecord.lookup t = j.tidToFirstLogRecord.lookup t) :
    j'.Sound imageSize where
  pointed := h.pointed.append happ
  anchored t ht := by
    have hmem : t ∈ j.tidToFirstLogRecord := by
      rw [← lookup_isSome, ← hfirst t ht, lookup_isSome]
      exact ht
    obtain ⟨post, hpost⟩ := h.anchored t hmem
    exact ⟨post ++ [r], hpost.append h.pointed happ (hr t) (hfirst t ht)⟩

lemma Anchored.begin (hptd : j.Pointed imageSize) (happ : j.Appends (.begin t) j')
    (hfirst : j'.tidToFirstLogRecord.lookup t = some (j.endOffset (size imageSize))) :
    j'.Anchored imageSize t [] := by
  refine ⟨not_mem_nil, j.records, happ.records, hfirst, fun base hbase => ?_⟩
  rw [happ.truncationPoint_eq hptd] at hbase
  obtain hneg | ⟨pre, active, post, hcp, hoff, -⟩ := hptd
  · simp [truncationPoint, hneg] at hbase
  · rw [truncationPoint_of_records hcp hoff, some.injEq] at hbase
    have hle := (foldl_min_le (active.map Prod.snd) j.pointer).1
    have hsum : (j.records.map (size imageSize)).sum =
        (pre.map (size imageSize)).sum +
          ((checkpoint active :: post).map (size imageSize)).sum := by
      rw [hcp, map_append, sum_append]
    rw [hsum, Nat.cast_add]
    omega

lemma Sound.begin (h : j.Sound imageSize) (happ : j.Appends (.begin t) j')
    (hfirst : j'.tidToFirstLogRecord =
      j.tidToFirstLogRecord.insert t (j.endOffset (size imageSize))) :
    j'.Sound imageSize where
  pointed := h.pointed.append happ
  anchored u hu := by
    by_cases hut : u = t
    · subst hut
      exact ⟨[], .begin h.pointed happ (by simp [hfirst])⟩
    · have hlookup : j'.tidToFirstLogRecord.lookup u = j.tidToFirstLogRecord.lookup u := by
        rw [hfirst, lookup_insert_ne hut]
      have hmem : u ∈ j.tidToFirstLogRecord := by
        rw [← lookup_isSome, ← hlookup, lookup_isSome]
        exact hu
      obtain ⟨post, hpost⟩ := h.anchored u hmem
      exact ⟨post ++ [.begin t], hpost.append h.pointed happ (by simpa using Ne.symm hut) hlookup⟩

/-! ## Checkpoints -/

lemma Anchored.boundary (h : j.Anchored imageSize t post)
    (hoff : j.tidToFirstLogRecord.lookup t = some offset) :
        Boundary imageSize j.records offset := by
  obtain ⟨-, pre, hrec, hfirst, -⟩ := h
  exact ⟨pre, .begin t :: post, hrec, some.inj (hoff.symm.trans hfirst)⟩

lemma Sound.boundary (h : j.Sound imageSize) {e : τ × ℤ} (he : e ∈ j.outstanding) :
    Boundary imageSize j.records e.2 := by
  obtain ⟨⟨t, offset⟩, hmem, rfl⟩ := List.mem_map.mp he
  have hlookup : j.tidToFirstLogRecord.lookup t = some offset := mem_lookup_iff.mpr hmem
  obtain ⟨post, hpost⟩ := h.anchored t (lookup_isSome.mp (by simp [hlookup]))
  exact hpost.boundary hlookup

lemma checkpoint_pointed (h : j.Sound imageSize) (hdecided : j.recoveryUndecided = false) :
    (j.checkpointRecord (size imageSize)).Pointed imageSize := by
  rw [checkpointRecord, preAppend_of_decided _ hdecided]
  exact .inr ⟨j.records, _, [], rfl, rfl, fun e he => (h.boundary he).append _⟩

lemma Anchored.checkpoint (h : j.Anchored imageSize t post)
    (hdecided : j.recoveryUndecided = false) :
    (j.checkpointRecord (size imageSize)).Anchored imageSize t
      (post ++ [.checkpoint j.outstanding]) := by
  obtain ⟨hpost, pre, hrec, hfirst, -⟩ := h
  rw [checkpointRecord, preAppend_of_decided _ hdecided]
  refine ⟨by simpa using hpost, pre, ?_, hfirst, fun base hbase => ?_⟩
  · rw [Journal.append, hrec, append_assoc, cons_append]
  · obtain rfl := some.inj (hbase.symm.trans (truncationPoint_of_records
      (show _ = j.records ++ .checkpoint j.outstanding :: [] from rfl) rfl))
    have hentry := mem_lookup_iff.mp hfirst
    exact (foldl_min_le _ _).2 _ (List.mem_map.mpr ⟨_, List.mem_map.mpr ⟨_, hentry, rfl⟩, rfl⟩)

lemma Sound.checkpoint (h : j.Sound imageSize) (hdecided : j.recoveryUndecided = false) :
    (j.checkpointRecord (size imageSize)).Sound imageSize where
  pointed := checkpoint_pointed h hdecided
  anchored t ht := by
    have hmem : t ∈ j.tidToFirstLogRecord := by
      simpa [checkpointRecord, Journal.append] using ht
    obtain ⟨post, hpost⟩ := h.anchored t hmem
    exact ⟨_, hpost.checkpoint hdecided⟩

/-! ## Truncation -/

lemma logTruncate_preAppend (len : LogRecord τ π α → ℕ) (j : Journal τ π α) :
    j.preAppend.logTruncate len = j.logTruncate len := by
  rw [logTruncate, logTruncate, preAppend_of_decided _ (preAppend_undecided j)]

lemma logTruncate_eq_some (h : j.Pointed imageSize) (hdecided : j.recoveryUndecided = false)
    (hj' : j.logTruncate (size imageSize) = some j') :
    ∃ base dropped kept, j.Truncates imageSize base dropped kept j' ∧
      j'.recoveryUndecided = false ∧ j'.tidToFirstLogRecord =
        putBegins (size imageSize) 8 j'.records j.tidToFirstLogRecord := by
  rw [logTruncate, preAppend_of_decided _ hdecided] at hj'
  obtain ⟨base, hcut, rfl⟩ := map_eq_some_iff.mp hj'
  obtain ⟨dropped, kept, hsplit, hoff⟩ : Boundary imageSize j.records base := by
    obtain hneg | ⟨pre, active, post, hcp, hptr, hactive⟩ := h
    · simp [truncationPoint, hneg] at hcut
    · rw [truncationPoint_of_records hcp hptr, some.injEq] at hcut
      rcases foldl_min_mem (active.map Prod.snd) j.pointer with hmin | hmin
      · exact ⟨pre, _, hcp, by rw [← hcut, hmin, hptr]⟩
      · obtain ⟨e, he, heq⟩ := List.mem_map.mp hmin
        rw [← hcut, ← heq]
        exact hactive e he
  refine ⟨base, dropped, kept, ⟨hcut, hsplit, hoff, rfl, ?_⟩, hdecided, rfl⟩
  dsimp only
  rw [hsplit, hoff, scanFrom_offset]

lemma Truncates.anchored
    (h : j.Truncates imageSize base dropped kept j') (hptd : j.Pointed imageSize)
    (hfirst : j'.tidToFirstLogRecord =
      putBegins (size imageSize) 8 j'.records j.tidToFirstLogRecord)
    (hkept : kept = pre ++ .begin t :: post) (hpost : .begin t ∉ post) :
    j'.Anchored imageSize t (post.map (shift base)) := by
  have hrec : j'.records = pre.map (shift base) ++
      .begin t :: post.map (shift base) := by
    rw [h.records, hkept]
    simp [shift]
  have hpost' : .begin t ∉ post.map (shift base) := by rwa [begin_mem_map_shift]
  refine ⟨hpost', _, hrec, ?_, fun base' hbase' => ?_⟩
  · rw [hfirst, hrec, lookup_putBegins _ hpost']
  · rw [(h.pointed hptd).2] at hbase'
    obtain rfl := some.inj hbase'
    omega

lemma Anchored.truncate
    (hanch : j.Anchored imageSize t post) (h : j.Truncates imageSize base dropped kept j')
    (hptd : j.Pointed imageSize) (hfirst : j'.tidToFirstLogRecord =
      putBegins (size imageSize) 8 j'.records j.tidToFirstLogRecord) :
    j'.Anchored imageSize t (post.map (shift base)) := by
  obtain ⟨hpost, pre, hrec, -, hcut⟩ := hanch
  obtain ⟨pre', -, hkept⟩ := exists_kept (hrec.symm.trans h.split) (h.offset ▸ hcut base h.cut)
  exact h.anchored hptd hfirst hkept hpost

lemma Sound.truncate (hsound : j.Sound imageSize)
    (h : j.Truncates imageSize base dropped kept j') (hfirst : j'.tidToFirstLogRecord =
      putBegins (size imageSize) 8 j'.records j.tidToFirstLogRecord) :
    j'.Sound imageSize where
  pointed := (h.pointed hsound.pointed).1
  anchored t ht := by
    by_cases hkept : .begin t ∈ kept
    · obtain ⟨pre, post, hsplit, hpost⟩ : ∃ pre post, kept = pre ++ .begin t :: post ∧
          .begin t ∉ post := by
        obtain ⟨post, pre, heq, hpost⟩ := eq_append_cons_of_mem (mem_reverse.mpr hkept)
        refine ⟨pre.reverse, post.reverse, ?_, by simpa using hpost⟩
        rw [← reverse_reverse kept, heq]
        simp
      exact ⟨_, h.anchored hsound.pointed hfirst hsplit hpost⟩
    · have hold : t ∈ j.tidToFirstLogRecord := by
        have hnone : .begin t ∉ j'.records := by rwa [h.records, begin_mem_map_shift]
        rw [← lookup_isSome, hfirst, lookup_putBegins_of_notMem _ hnone, lookup_isSome] at ht
        exact ht
      obtain ⟨post, hpost⟩ := hsound.anchored t hold
      exact ⟨_, hpost.truncate h hsound.pointed hfirst⟩

lemma mem_logTruncate (hj' : j.logTruncate len = some j')
    (h : t ∈ j.tidToFirstLogRecord) : t ∈ j'.tidToFirstLogRecord := by
  obtain ⟨base, -, rfl⟩ := map_eq_some_iff.mp hj'
  exact mem_putBegins.mpr (.inl (by simpa using h))

lemma Unseen.truncate (h : j.Unseen t) (hj' : j.logTruncate len = some j') : j'.Unseen t := by
  obtain ⟨base, -, rfl⟩ := map_eq_some_iff.mp hj'
  have hrec : .begin t ∉ (scanFrom len 8 base j.preAppend.records).map (shift base) := by
    rw [begin_mem_map_shift]
    exact fun hmem => h.2 (mem_of_mem_scanFrom hmem)
  refine ⟨?_, ?_⟩
  · rw [← lookup_isSome]
    dsimp only
    rw [lookup_putBegins_of_notMem len hrec, preAppend_first, lookup_isSome]
    exact h.1
  · rw [preAppend_records]
    dsimp only
    rw [preAppend_undecided]
    exact hrec

/-! ## Rollback -/

variable [DecidableEq π]

@[simp] lemma beforeImage_map_shift (t : τ) (p : π) (base : ℤ) (log : List (LogRecord τ π α)) :
    beforeImage t p (log.map (shift base)) = beforeImage t p log := by
  induction log with
  | nil => rfl
  | cons r log ih => cases r <;> simp [shift, beforeImage, ih]

lemma beforeImage_append (t : τ) (p : π) (log log' : List (LogRecord τ π α)) :
    beforeImage t p (log ++ log') = (beforeImage t p log).or (beforeImage t p log') := by
  induction log with
  | nil => rfl
  | cons r log ih =>
    cases r with
    | update u before after =>
      simp only [cons_append, beforeImage]
      split_ifs
      · rfl
      · exact ih
    | _ => exact ih

lemma Anchored.rollback_eq (h : j.Anchored imageSize t post)
    (hdecided : j.recoveryUndecided = false) (p : π) :
    j.rollback (size imageSize) t p = beforeImage t p post := by
  obtain ⟨-, pre, hrec, hfirst, -⟩ := h
  rw [rollback, preAppend_of_decided _ hdecided, hfirst]
  dsimp only
  rw [hrec, scanFrom_offset]
  rfl

/-! ## The operations -/

/-- What an operation of the log keeps: the invariant, the images of every known transaction (it may
add one, `extra`), and who is unknown. -/
structure Keeps (imageSize : Image π α → ℕ) (extra : τ → π → Option α) (j j' : Journal τ π α) :
    Prop where
  sound : j'.preAppend.Sound imageSize
  rollback : ∀ t ∈ j.tidToFirstLogRecord, t ∈ j'.tidToFirstLogRecord → ∀ p,
    j'.rollback (size imageSize) t p =
      (j.rollback (size imageSize) t p).or (extra t p)

lemma rollback_preAppend (len : LogRecord τ π α → ℕ) (j : Journal τ π α) (t : τ) (p : π) :
    j.preAppend.rollback len t p = j.rollback len t p := by
  rw [rollback, preAppend_of_decided _ (preAppend_undecided j), rollback]

lemma rollback_of_anchored {post' : List (LogRecord τ π α)} {extra : Option α}
    (h : j.preAppend.Anchored imageSize t post) (h' : j'.Anchored imageSize t post')
    (hdecided : j'.recoveryUndecided = false)
    (himage : beforeImage t p post' = (beforeImage t p post).or extra) :
    j'.rollback (size imageSize) t p =
      (j.rollback (size imageSize) t p).or extra := by
  rw [h'.rollback_eq hdecided, himage, ← h.rollback_eq (preAppend_undecided j), rollback_preAppend]

section

variable (h : j.preAppend.Sound imageSize)

include h

lemma keeps_append (happ : j.preAppend.Appends r j') (hdecided : j'.recoveryUndecided = false)
    (hr : ∀ t, r ≠ .begin t) (hfirst : ∀ t ∈ j'.tidToFirstLogRecord,
      j'.tidToFirstLogRecord.lookup t = j.tidToFirstLogRecord.lookup t) :
    j.Keeps imageSize (fun t p => beforeImage t p [r]) j' := by
  have hfirst' : ∀ t ∈ j'.tidToFirstLogRecord,
      j'.tidToFirstLogRecord.lookup t = j.preAppend.tidToFirstLogRecord.lookup t := by
    simpa using hfirst
  refine ⟨?_, fun t ht ht' p => ?_⟩
  · rw [preAppend_of_decided _ hdecided]
    exact h.append happ hr hfirst'
  · obtain ⟨post, hpost⟩ := h.anchored t (by simpa using ht)
    refine rollback_of_anchored hpost
      (hpost.append h.pointed happ (hr t) (hfirst' t ht')) hdecided ?_
    rw [beforeImage_append]

lemma logWrite_keeps (t : τ) (before after : Image π α) :
    j.Keeps imageSize (fun u p => if t = u ∧ before.pid = p then some before.data else none)
      (j.logWrite t before after) := by
  have happ : j.preAppend.Appends (.update t before after) (j.logWrite t before after) := ⟨rfl, rfl⟩
  have hkeeps := keeps_append h happ (by simp [logWrite, Journal.append]) (by simp)
    (fun u _ => by simp [logWrite, Journal.append])
  exact hkeeps

lemma logCommit_keeps (t : τ) : j.Keeps imageSize (fun _ _ => none) (j.logCommit t) :=
  keeps_append (r := .commit t) h ⟨rfl, rfl⟩ (by simp [logCommit, Journal.append]) (by simp)
    fun u hu => by
      have hne : u ≠ t := by
        rintro rfl
        simp [logCommit] at hu
      simp [logCommit, lookup_erase_ne hne]

lemma logAbort_keeps (t : τ) : j.Keeps imageSize (fun _ _ => none) (j.logAbort t) :=
  keeps_append (r := .abort t) h ⟨rfl, rfl⟩ (by simp [logAbort, Journal.append]) (by simp)
    fun u hu => by
      have hne : u ≠ t := by
        rintro rfl
        simp [logAbort] at hu
      simp [logAbort, lookup_erase_ne hne]

lemma checkpointRecord_keeps :
    j.Keeps imageSize (fun _ _ => none) (j.checkpointRecord (size imageSize)) := by
  have hpre : j.preAppend.preAppend = j.preAppend :=
    preAppend_of_decided _ (preAppend_undecided j)
  have heq : j.checkpointRecord (size imageSize) =
      j.preAppend.checkpointRecord (size imageSize) := by
    rw [checkpointRecord, checkpointRecord, hpre]
  have hdecided : (j.checkpointRecord (size imageSize)).recoveryUndecided = false := by
    simp [checkpointRecord, Journal.append]
  refine ⟨?_, fun t ht _ p => ?_⟩
  · rw [preAppend_of_decided _ hdecided, heq]
    exact h.checkpoint (preAppend_undecided j)
  · obtain ⟨post, hpost⟩ := h.anchored t (by simpa using ht)
    refine rollback_of_anchored hpost (heq ▸ hpost.checkpoint (preAppend_undecided j)) hdecided ?_
    rw [beforeImage_append]
    rfl

lemma logTruncate_keeps (hj' : j.logTruncate (size imageSize) = some j') :
    j.Keeps imageSize (fun _ _ => none) j' := by
  rw [← logTruncate_preAppend] at hj'
  obtain ⟨base, dropped, kept, htrunc, hdecided, hfirst⟩ :=
    logTruncate_eq_some h.pointed (preAppend_undecided j) hj'
  refine ⟨?_, fun t ht _ p => ?_⟩
  · rw [preAppend_of_decided _ hdecided]
    exact h.truncate htrunc hfirst
  · obtain ⟨post, hpost⟩ := h.anchored t (by simpa using ht)
    refine rollback_of_anchored hpost (hpost.truncate htrunc h.pointed hfirst) hdecided ?_
    simp

lemma logXactionBegin_keeps (hj' : j.logXactionBegin (size imageSize) t = some j') :
    j.Keeps imageSize (fun _ _ => none) j' ∧ t ∈ j'.tidToFirstLogRecord ∧
      ∀ p, j'.rollback (size imageSize) t p = none := by
  obtain ⟨hnew, heq⟩ := logXactionBegin_eq_some hj'
  have happ : j.preAppend.Appends (.begin t) j' := by
    rw [heq]
    exact ⟨rfl, rfl⟩
  have hdecided : j'.recoveryUndecided = false := by simp [heq, Journal.append]
  have hfirst : j'.tidToFirstLogRecord = j.preAppend.tidToFirstLogRecord.insert t
      (j.preAppend.endOffset (size imageSize)) := by simp [heq]
  refine ⟨⟨?_, fun u hu _ p => ?_⟩, by simp [hfirst], fun p => ?_⟩
  · rw [preAppend_of_decided _ hdecided]
    exact h.begin happ hfirst
  · have hne : u ≠ t := fun heq => hnew (heq ▸ hu)
    obtain ⟨post, hpost⟩ := h.anchored u (by simpa using hu)
    refine rollback_of_anchored hpost (hpost.append h.pointed happ (by simpa using hne.symm) ?_)
      hdecided ?_
    · rw [hfirst, lookup_insert_ne hne]
    · rw [beforeImage_append]
      rfl
  · rw [(Anchored.begin h.pointed happ (by simp [hfirst])).rollback_eq hdecided]
    rfl

end

end Journal

end BallotBox.SimpleDb
