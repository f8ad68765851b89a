import BallotBox.Construction.Operators
import BallotBox.Properties.HeapFiles

/-!
# Deleting while scanning

`Delete` deletes rows from the pages that the scan below it is still walking over.  The scan holds
the tuples that were on its page when it came to it, so this does not matter to it (`Spares`):
exactly the rows that satisfy the condition go (`delete_exact`).
-/

namespace BallotBox.SimpleDb

open List

variable {fuel : ℕ} {done rest : List (RecordId FilePageId × List Field)}

/-! ## The meaning of comparisons -/

/-- The meaning of a comparison of integers. -/
def CompareOp.OnInt (m n : ℤ) : CompareOp → Prop
  | .equals | .like => m = n
  | .notEquals => m ≠ n
  | .greaterThan => m > n
  | .greaterThanOrEq => m ≥ n
  | .lessThan => m < n
  | .lessThanOrEq => m ≤ n

/-- What a comparison of strings says: lexicographic order of their units, and `LIKE` for a part. -/
def CompareOp.OnString (s t : List UInt16) : CompareOp → Prop
  | .equals => s = t
  | .notEquals => s ≠ t
  | .greaterThan => t < s
  | .greaterThanOrEq => t ≤ s
  | .lessThan => s < t
  | .lessThanOrEq => s ≤ t
  | .like => t <:+: s

/-- The meaning of a comparison of a column with a constant. -/
def Predicate.Satisfied {td : List FieldType} (p : Predicate td) (t : Tuple td) : Prop :=
  match t.getField p.field, p.operand with
  | .int m, .int n => p.op.OnInt m.toInt n.toInt
  | .string s, .string u => p.op.OnString s.value u.value
  | _, _ => False

lemma compareInt_iff (m n : ℤ) (op : CompareOp) : compareInt m n op ↔ op.OnInt m n := by
  cases op <;> simp [compareInt, CompareOp.OnInt]

lemma compareTo_lt_iff (s t : List UInt16) : compareTo s t < 0 ↔ s < t := by
  fun_induction compareTo s t with
  | case1 a s b t hne =>
    rw [cons_lt_cons_iff]
    have hnat : a < b ↔ (a.toNat : ℤ) - b.toNat < 0 := by
      rw [UInt16.lt_iff_toNat_lt]
      omega
    simp [hnat, hne]
  | case2 a s b t heq ih =>
    obtain rfl : a = b := not_not.mp heq
    rw [cons_lt_cons_iff, ih]
    simp
  | case3 t =>
    cases t with
    | nil => simp
    | cons b t => simp; omega
  | case4 s hs => simp

lemma compareTo_swap (s t : List UInt16) : compareTo t s = -compareTo s t := by
  fun_induction compareTo s t with
  | case1 a s b t hne =>
    rw [compareTo, if_pos (Ne.symm hne)]
    omega
  | case2 a s b t heq ih =>
    rw [compareTo, if_neg (fun h => heq (Ne.symm h)), ih]
  | case3 t =>
    cases t with
    | nil => simp [compareTo]
    | cons b t => simp [compareTo]
  | case4 s hs =>
    cases s with
    | nil => simp [compareTo]
    | cons b t => simp [compareTo]

lemma compareTo_eq_zero_iff (s t : List UInt16) : compareTo s t = 0 ↔ s = t := by
  fun_induction compareTo s t with
  | case1 a s b t hne =>
    have hnat : a.toNat ≠ b.toNat := fun h => hne (UInt16.toNat_inj.mp h)
    simp only [List.cons.injEq, hne, false_and, iff_false]
    omega
  | case2 a s b t heq ih =>
    obtain rfl : a = b := not_not.mp heq
    simp [ih]
  | case3 t =>
    cases t with
    | nil => simp
    | cons b t => simp; omega
  | case4 s hs =>
    cases s with
    | nil => exact absurd rfl hs
    | cons b t => simp; omega

lemma compareString_iff (s t : List UInt16) (op : CompareOp) :
    compareString s t op ↔ op.OnString s t := by
  have hpos : 0 < compareTo s t ↔ t < s := by
    rw [← compareTo_lt_iff, compareTo_swap]
    omega
  cases op with
  | equals => simp [compareString, CompareOp.OnString, compareTo_eq_zero_iff]
  | notEquals => simp [compareString, CompareOp.OnString, compareTo_eq_zero_iff]
  | greaterThan => simp [compareString, CompareOp.OnString, hpos]
  | lessThan => simp [compareString, CompareOp.OnString, compareTo_lt_iff]
  | greaterThanOrEq =>
    simp only [compareString, CompareOp.OnString, decide_eq_true_eq]
    rw [← List.not_lt, ← compareTo_lt_iff, not_lt]
  | lessThanOrEq =>
    simp only [compareString, CompareOp.OnString, decide_eq_true_eq]
    rw [← List.not_lt, ← hpos, not_lt]
  | like => simp [compareString, CompareOp.OnString]

lemma Predicate.filter_iff {td : List FieldType} (p : Predicate td) (t : Tuple td) :
    p.filter t ↔ p.Satisfied t := by
  unfold filter Satisfied
  cases t.getField p.field with
  | int m =>
    cases p.operand with
    | int n =>
      simp only [Field.compare, decide_eq_true_eq, Option.some.injEq]
      exact compareInt_iff ..
    | string u => simp [Field.compare]
  | string s =>
    cases p.operand with
    | int n => simp [Field.compare]
    | string u =>
      simp only [Field.compare, decide_eq_true_eq, Option.some.injEq]
      exact compareString_iff ..

instance {td : List FieldType} (p : Predicate td) (t : Tuple td) : Decidable (p.Satisfied t) :=
  decidable_of_iff _ (p.filter_iff t)

/-! ## Erasing -/

variable {F : PageFormat} {tableId : BitVec 32} {pages : List (HeapPage F FilePageId)}
  {e : RecordId FilePageId × Tuple F.td}

/-- The pages without the tuple of a record id. -/
def erase (pages : List (HeapPage F FilePageId)) (rid : RecordId FilePageId) :
    List (HeapPage F FilePageId) :=
  match pages[rid.pageId.number]? with
  | none => pages
  | some page =>
    match page.deleteTuple (some rid) with
    | .ok page' => pages.set rid.pageId.number page'
    | .error _ => pages

lemma erase_entry (hids : Numbered tableId pages) (he : e ∈ entries pages) :
    ∃ i page, ∃ j : Fin F.numSlots, pages[i]? = some page ∧ e.1 = ⟨⟨tableId, i⟩, (j : ℕ)⟩ ∧
      erase pages e.1 = pages.set i (page.putSlot j none) := by
  obtain ⟨i, page, j, hpage, htuple, hrid⟩ := (mem_entries hids).mp he
  refine ⟨i, page, j, hpage, hrid, ?_⟩
  have hdelete := page.deleteTuple_of_tuple htuple
  rw [hids i page hpage] at hdelete
  simp only [erase, hrid, hpage, hdelete]

lemma mem_entries_erase (hids : Numbered tableId pages) (he : e ∈ entries pages)
    {x : RecordId FilePageId × Tuple F.td} :
    x ∈ entries (erase pages e.1) ↔ x ∈ entries pages ∧ x.1 ≠ e.1 := by
  obtain ⟨i, page, j, hpage, hrid, herase⟩ := erase_entry hids he
  rw [herase, mem_entries_set hids hpage, hrid]
  simp

lemma deleteTuple_entry (he : e ∈ entries pages) :
    Triple (FileState.Holds tableId pages) (BufferPool.deleteTuple tableId (some e.1))
      (fun _ => FileState.Holds tableId (erase pages e.1)) fun _ _ => False := by
  intro s h
  obtain ⟨i, page, j, hpage, htuple, hrid⟩ := (mem_entries h.ids).mp he
  refine ((deleteTuple_rule (some e.1)).ends ?_ ?_) s h
  · rintro _ s' ⟨pages', ⟨i', page', _, hpage', ⟨j', tuple, htuple', hrid', rfl⟩, rfl⟩, h'⟩
    rw [h.ids i' page' hpage', hrid, Option.some.injEq, RecordId.mk.injEq,
      FilePageId.mk.injEq] at hrid'
    obtain ⟨⟨-, rfl⟩, hj⟩ := hrid'
    obtain rfl : j = j' := Fin.ext (by omega)
    obtain rfl := Option.some.inj (hpage.symm.trans hpage')
    have hdelete := page.deleteTuple_of_tuple htuple
    rw [h.ids i page hpage] at hdelete
    simpa only [erase, hrid, hpage, hdelete] using h'
  · rintro f s' ⟨hmissing, -⟩
    exact hmissing ⟨i, page, j, hpage, by simp [htuple], congrArg some hrid⟩

/-! ## Iterating while erasing -/

/-- Erasing a tuple that satisfies `P`, as which `view` shows it, and that the iterator gives no
more does not matter to the iterator. -/
def Spares {σ α : Type} (tableId : BitVec 32) (view : RecordId FilePageId × Tuple F.td → α)
    (P : RecordId FilePageId × Tuple F.td → Prop)
    (K : List (HeapPage F FilePageId) → σ → List α → Prop) : Prop :=
  ∀ pages st l e, Numbered tableId pages → K pages st l → e ∈ entries pages → P e → view e ∉ l →
    K (erase pages e.1) st l

lemma spares_scan : Spares (F := F) tableId id (fun _ => True) FileCursor.Gives := by
  intro pages it l e hids ⟨hlt, hl⟩ he _ hgone
  obtain ⟨i, page, j, hpage, hrid, herase⟩ := erase_entry hids he
  have hpassed : i < it.pageNo + 1 := by
    by_contra hahead
    refine hgone ?_
    obtain ⟨i', page', j', hpage', htuple, hrid'⟩ := (mem_entries hids).mp he
    rw [hrid', RecordId.mk.injEq, FilePageId.mk.injEq] at hrid
    obtain ⟨⟨-, rfl⟩, -⟩ := hrid
    have hmem : page' ∈ pages.drop (it.pageNo + 1) := by
      refine mem_of_getElem? (i := i' - (it.pageNo + 1)) ?_
      rw [getElem?_drop, Nat.add_sub_cancel' (by omega), hpage']
    rw [hl]
    refine mem_append_right _ (mem_flatMap.mpr ⟨page', hmem, ?_⟩)
    exact page'.mem_iterator.mpr ⟨j', htuple, by rw [hids i' page' hpage']; exact hrid'⟩
  rw [herase]
  refine ⟨by rwa [length_set], ?_⟩
  rw [drop_set_of_lt hpassed]
  exact hl

section Operators

variable {σ α β : Type} {view : RecordId FilePageId × Tuple F.td → α}
  {P : RecordId FilePageId × Tuple F.td → Prop}

lemma Spares.matching {K : List (HeapPage F FilePageId) → σ →
      List (RecordId FilePageId × Tuple F.td) → Prop}
    (h : Spares tableId id P K) (p : RecordId FilePageId × Tuple F.td → Bool) (fuel : ℕ) :
    Spares tableId id (fun e => P e ∧ p e)
      fun pages (st : Option (RecordId FilePageId × Tuple F.td) × σ) l =>
        ∃ rest, (∃ l', K pages st.2 l' ∧ l'.length ≤ fuel ∧ rest = l'.filter p) ∧
          l = st.1.toList ++ rest := by
  rintro pages st l e hids ⟨_, ⟨l', hst, hfuel, rfl⟩, rfl⟩ he ⟨hP, hp⟩ hgone
  refine ⟨_, ⟨l', h pages st.2 l' e hids hst he hP fun hmem => hgone ?_, hfuel, rfl⟩, rfl⟩
  exact mem_append_right _ (mem_filter.mpr ⟨hmem, hp⟩)

lemma Spares.mapped {K : List (HeapPage F FilePageId) → σ → List α → Prop}
    (h : Spares tableId view P K) (f : α → β) :
    Spares tableId (f ∘ view) P fun pages (st : Option β × σ) l =>
      ∃ rest, (∃ l', K pages st.2 l' ∧ rest = l'.map f) ∧ l = st.1.toList ++ rest := by
  rintro pages st l e hids ⟨_, ⟨l', hst, rfl⟩, rfl⟩ he hP hgone
  refine ⟨_, ⟨l', h pages st.2 l' e hids hst he hP fun hmem => hgone ?_, rfl⟩, rfl⟩
  exact mem_append_right _ (mem_map_of_mem hmem)

/-- The operator gives the tuples that satisfy `P`, as `view` shows them, and may be deleted
under. -/
def Feeds (tableId : BitVec 32) (pages : List (HeapPage F FilePageId))
    (I : Iter Failure (FileState F) α) (view : RecordId FilePageId × Tuple F.td → α)
    (P : RecordId FilePageId × Tuple F.td → Bool) : Prop :=
  ∃ K, I.Delivers (FileState.Holds tableId) K ∧ Spares tableId view (fun e => P e) K ∧
    Triple (FileState.Holds tableId pages) I.opened
      (fun st s => K pages st (((entries pages).filter P).map view) ∧ s.Holds tableId pages)
      fun _ _ => False

lemma opened_prefetch {τ : Type} {opened : EStateM Failure (FileState F) τ}
    {fetch : τ → EStateM Failure (FileState F) (Option α × τ)} {exhausted : Failure} {K : τ → Prop}
    (h : Triple (FileState.Holds tableId pages) opened
      (fun t s => K t ∧ s.Holds tableId pages) fun _ _ => False) :
    Triple (FileState.Holds tableId pages) (Iter.prefetch opened fetch exhausted).opened
      (fun st s => (st.1 = none ∧ K st.2) ∧ s.Holds tableId pages) fun _ _ => False :=
  h.bind_imp fun _ ht _ hs => ⟨⟨rfl, ht⟩, hs⟩

end Operators

lemma feeds_seqScan (hpages : pages ≠ []) :
    Feeds tableId pages (seqScan tableId) id fun _ => true := by
  refine ⟨FileCursor.Gives, delivers_iterator F tableId, ?_, ?_⟩
  · exact fun pages st l e hids hst he _ => spares_scan pages st l e hids hst he trivial
  · rw [filter_true, map_id]
    exact opened_rule hpages

lemma Feeds.filterOp {child : Scan F} {P : RecordId FilePageId × Tuple F.td → Bool}
    (h : Feeds tableId pages child id P) (hfuel : (entries pages).length ≤ fuel)
    (p : Predicate F.td) :
    Feeds tableId pages (filterOp fuel child p) id fun e => P e && p.filter e.2 := by
  obtain ⟨K, hdelivers, hspares, hopen⟩ := h
  refine ⟨_, hdelivers.matching (fun e => p.filter e.2) fuel noSuchElement, ?_, ?_⟩
  · simp only [Bool.and_eq_true]
    exact hspares.matching (fun e => p.filter e.2) fuel
  · refine (opened_prefetch hopen).post ?_
    rintro st s ⟨⟨hnone, hst⟩, hs⟩
    refine ⟨⟨_, ⟨_, hst, ?_, rfl⟩, ?_⟩, hs⟩
    · exact (length_map _).trans_le ((length_filter_le _ _).trans hfuel)
    · simp [hnone, filter_filter, Bool.and_comm]

lemma Feeds.projectOp {child : Scan F} {P : RecordId FilePageId × Tuple F.td → Bool}
    (h : Feeds tableId pages child id P) (outFieldIds : List (Fin F.td.length)) :
    Feeds tableId pages (projectOp child outFieldIds)
      (fun e => (e.1, outFieldIds.map e.2.getField)) P := by
  obtain ⟨K, hdelivers, hspares, hopen⟩ := h
  refine ⟨_, hdelivers.mapped _ noSuchElement, hspares.mapped _, ?_⟩
  refine (opened_prefetch hopen).post ?_
  rintro st s ⟨⟨hnone, hst⟩, hs⟩
  exact ⟨⟨_, ⟨_, hst, rfl⟩, by simp [hnone]⟩, hs⟩

/-- The tuple satisfies the whole condition. -/
def meets (condition : List (Predicate F.td)) (e : RecordId FilePageId × Tuple F.td) : Bool :=
  condition.all fun p => p.filter e.2

lemma feeds_matchingRows (hpages : pages ≠ []) (hfuel : (entries pages).length ≤ fuel)
    (condition : List (Predicate F.td)) :
    Feeds tableId pages (matchingRows tableId fuel condition)
      (fun e => (e.1, (List.finRange F.td.length).map e.2.getField)) (meets condition) := by
  have hfilters (child : Scan F) (P : RecordId FilePageId × Tuple F.td → Bool)
      (h : Feeds tableId pages child id P) :
      Feeds tableId pages (condition.foldl (filterOp fuel) child) id
        fun e => P e && meets condition e := by
    induction condition generalizing child P with
    | nil => simpa [meets] using h
    | cons p condition ih =>
      simpa [meets, Bool.and_assoc] using ih (filterOp fuel child p) _ (h.filterOp hfuel p)
  have hall := hfilters _ _ (feeds_seqScan hpages)
  simp only [Bool.true_and] at hall
  exact hall.projectOp _

/-! ## The loop -/

section Loop

variable {view : RecordId FilePageId × Tuple F.td → RecordId FilePageId × List Field}
  {P : RecordId FilePageId × Tuple F.td → Bool}

/-- The pages without some tuples. -/
def eraseAll (pages : List (HeapPage F FilePageId))
    (done : List (RecordId FilePageId × List Field)) :
    List (HeapPage F FilePageId) :=
  done.foldl (fun pages x => erase pages x.1) pages

lemma eraseAll_concat (done : List (RecordId FilePageId × List Field))
    (x : RecordId FilePageId × List Field) :
    eraseAll pages (done ++ [x]) = erase (eraseAll pages done) x.1 := by
  simp [eraseAll]

lemma Numbered.erase (hids : Numbered tableId pages) (he : e ∈ entries pages) :
    Numbered tableId (erase pages e.1) := by
  obtain ⟨i, page, j, hpage, -, herase⟩ := erase_entry hids he
  rw [herase]
  exact hids.set (hids i page hpage)

lemma mem_rest (hids : Numbered tableId pages) (hview : ∀ e, (view e).1 = e.1)
    (hl : ((entries pages).filter P).map view = done ++ rest)
    {a : RecordId FilePageId × List Field} (ha : a ∈ rest) :
    ∃ e, (e ∈ entries pages ∧ P e ∧ e.1 ∉ done.map Prod.fst) ∧ view e = a := by
  have hmem : a ∈ ((entries pages).filter P).map view := hl ▸ mem_append_right _ ha
  obtain ⟨e, he, rfl⟩ := mem_map.mp hmem
  obtain ⟨he, hP⟩ := mem_filter.mp he
  refine ⟨e, ⟨he, hP, fun hdone => ?_⟩, rfl⟩
  have hnodup : ((done ++ rest).map Prod.fst).Nodup := by
    have hkey : Prod.fst ∘ view = Prod.fst := funext hview
    rw [← hl, map_map, hkey]
    exact (nodup_recordIds hids).sublist (filter_sublist.map _)
  rw [map_append] at hnodup
  refine (nodup_append.mp hnodup).2.2 _ hdone _ (mem_map_of_mem ha) (hview e).symm

lemma mem_entries_eraseAll (hids : Numbered tableId pages) (hview : ∀ e, (view e).1 = e.1)
    (hl : ((entries pages).filter P).map view = done ++ rest) :
    Numbered tableId (eraseAll pages done) ∧
      ∀ x, x ∈ entries (eraseAll pages done) ↔ x ∈ entries pages ∧ x.1 ∉ done.map Prod.fst := by
  induction done using List.reverseRecOn generalizing rest with
  | nil => simpa [eraseAll] using hids
  | append_singleton done a ih =>
    rw [append_assoc] at hl
    obtain ⟨hids', hmem⟩ := ih hl
    obtain ⟨e, ⟨he, -, hnew⟩, rfl⟩ := mem_rest hids hview hl mem_cons_self
    rw [eraseAll_concat, hview]
    have hleft : e ∈ entries (eraseAll pages done) := (hmem e).mpr ⟨he, hnew⟩
    refine ⟨hids'.erase hleft, fun x => ?_⟩
    rw [mem_entries_erase hids' hleft, hmem, map_append, mem_append, not_or, and_assoc]
    simp [hview]

lemma delete_loop {child : Iter Failure (FileState F) (RecordId FilePageId × List Field)}
    {K : List (HeapPage F FilePageId) → child.State →
      List (RecordId FilePageId × List Field) → Prop}
    (hdelivers : child.Delivers (FileState.Holds tableId) K)
    (hspares : Spares tableId view (fun e => P e) K) (hview : ∀ e, (view e).1 = e.1)
    (hids : Numbered tableId pages) {l : List (RecordId FilePageId × List Field)}
    (hl : ((entries pages).filter P).map view = l) (hfuel : l.length ≤ fuel) {st : child.State}
    (hst : K pages st l) :
    Triple (FileState.Holds tableId pages)
      (child.fold (fun (count : BitVec 32) t => do
        BufferPool.deleteTuple tableId (some t.1)
        return count + 1) fuel st 0)
      (fun count s => count = BitVec.ofNat 32 l.length ∧ s.Holds tableId (eraseAll pages l))
      fun _ _ => False := by
  refine hdelivers.fold hfuel (eraseAll pages) (fun done => BitVec.ofNat 32 done.length) ?_ ?_ hst
  · intro done a rest hsplit
    obtain ⟨e, ⟨he, -, hnew⟩, rfl⟩ := mem_rest hids hview (hl.trans hsplit) mem_cons_self
    have hleft : e ∈ entries (eraseAll pages done) :=
      ((mem_entries_eraseAll hids hview (hl.trans hsplit)).2 e).mpr ⟨he, hnew⟩
    rw [hview]
    refine (deleteTuple_entry hleft).bind fun _ s hs => ⟨?_, ?_⟩
    · simp [BitVec.ofNat_add]
    · rw [eraseAll_concat, hview]
      exact hs
  · intro done a rest st hsplit hst
    obtain ⟨hids', hmem⟩ := mem_entries_eraseAll hids hview (hl.trans hsplit)
    obtain ⟨e, ⟨he, hP, hnew⟩, rfl⟩ := mem_rest hids hview (hl.trans hsplit) mem_cons_self
    rw [eraseAll_concat, hview]
    refine hspares _ st rest e hids' hst ((hmem e).mpr ⟨he, hnew⟩) hP fun hagain => ?_
    -- a row that comes again would be the same row twice
    have hnext : l = (done ++ [view e]) ++ rest := by rw [hsplit, append_assoc]; rfl
    obtain ⟨e', ⟨-, -, hnew'⟩, heq⟩ := mem_rest hids hview (hl.trans hnext) hagain
    have hrid : e'.1 = e.1 := by rw [← hview e', heq, hview]
    exact hnew' (by simp [hview, hrid])

lemma Feeds.deletes {child : Iter Failure (FileState F) (RecordId FilePageId × List Field)}
    (h : Feeds tableId pages child view P) (hview : ∀ e, (view e).1 = e.1)
    (hids : Numbered tableId pages) (hfuel : (entries pages).length < fuel) :
    Triple (FileState.Holds tableId pages) ((deleteOp tableId fuel child).collect fuel)
      (fun out s => ∃ a, out = [a] ∧ a = [.int (BitVec.ofNat 32 ((entries pages).countP P))] ∧
        s.Holds tableId (eraseAll pages (((entries pages).filter P).map view)))
      fun _ _ => False := by
  obtain ⟨K, hdelivers, hspares, hopen⟩ := h
  have hlength : (((entries pages).filter P).map view).length = (entries pages).countP P := by
    rw [length_map, countP_eq_length_filter]
  refine Iter.collect_prefetch_once (R := FileState.Holds tableId pages)
    (A := fun t => t.1 = false ∧ K pages t.2 (((entries pages).filter P).map view))
    (B := fun t => t.1 = true) (by omega) ?_ (fun t ht => ?_) fun t a ht => ?_
  · exact hopen.bind_imp fun st hst s hs => ⟨⟨rfl, hst⟩, hs⟩
  · have hle : (((entries pages).filter P).map view).length ≤ fuel :=
      hlength.trans_le (countP_le_length.trans hfuel.le)
    unfold deleteFetchNext
    rw [if_neg (by simp [ht.1])]
    refine (delete_loop hdelivers hspares hview hids rfl hle ht.2).bind_imp
      fun count hcount s hs => ⟨_, ⟨rfl, rfl⟩, ?_, hs⟩
    rw [hcount, hlength]
  · unfold deleteFetchNext
    rw [if_pos ht]
    exact fun s hs => ⟨rfl, hs⟩

end Loop

/-! ## The result -/

lemma length_eraseAll (done : List (RecordId FilePageId × List Field)) :
    (eraseAll pages done).length = pages.length := by
  have herase (pages : List (HeapPage F FilePageId)) (rid : RecordId FilePageId) :
      (erase pages rid).length = pages.length := by
    unfold erase
    split
    · rfl
    · split
      · rw [length_set]
      · rfl
  induction done generalizing pages with
  | nil => rfl
  | cons x done ih => exact ih.trans (herase pages x.1)

lemma meets_iff {condition : List (Predicate F.td)} :
    meets condition e ↔ ∀ p ∈ condition, p.Satisfied e.2 := by
  simp [meets, Predicate.filter_iff]

lemma entries_eraseAll_perm {view : RecordId FilePageId × Tuple F.td →
    RecordId FilePageId × List Field}
    (P : RecordId FilePageId × Tuple F.td → Bool) (hids : Numbered tableId pages)
    (hview : ∀ e, (view e).1 = e.1) :
    (entries (eraseAll pages (((entries pages).filter P).map view))).Perm
      ((entries pages).filter fun e => ¬ P e) := by
  obtain ⟨hids', hmem⟩ := mem_entries_eraseAll (P := P) hids hview (append_nil _).symm
  refine (perm_ext_iff_of_nodup (nodup_entries hids') ((nodup_entries hids).filter _)).mpr
    fun x => ?_
  have hkey : Prod.fst ∘ view = Prod.fst := funext hview
  rw [hmem, map_map, hkey, mem_filter, decide_eq_true_eq]
  refine and_congr_right fun hx => not_congr ?_
  constructor
  · intro hsame
    obtain ⟨e, he, hrid⟩ := mem_map.mp hsame
    obtain ⟨he, hP⟩ := mem_filter.mp he
    rwa [← entries_unique hids he hx hrid]
  · exact fun hP => mem_map_of_mem (mem_filter.mpr ⟨hx, hP⟩)

/-- **A delete statement removes exactly the rows that satisfy its condition**, and gives one tuple
with their number.  The file has a page, as tables are created with one; `HeapFileIterator.open`
throws on an empty file. -/
theorem delete_exact {s : FileState F} (h : s.Holds tableId pages) (hpages : pages ≠ [])
    (condition : List (Predicate F.td)) {fuel : ℕ} (hfuel : (entries pages).length < fuel) :
    s.Scans tableId (listed (entries pages)) ∧
    ∃ s', (executeDelete tableId fuel condition).run s =
        .ok [[.int (BitVec.ofNat 32
          ((entries pages).filter fun e => ∀ p ∈ condition, p.Satisfied e.2).length)]] s' ∧
      s'.Scans tableId
        (listed ((entries pages).filter fun e => ¬ ∀ p ∈ condition, p.Satisfied e.2)) := by
  have hnow : TrackedFile.Agrees tableId pages ⟨s, listed (entries pages)⟩ := ⟨h, .rfl⟩
  refine ⟨hnow.scans hpages, ?_⟩
  have hfeeds : Feeds tableId pages _ _ (meets condition) :=
    feeds_matchingRows hpages hfuel.le condition
  obtain ⟨out, s', hrun, _, rfl, rfl, hholds⟩ :=
    (hfeeds.deletes (fun _ => rfl) h.ids hfuel).returns h
  have hafter : TrackedFile.Agrees tableId (eraseAll pages _)
      ⟨s', listed ((entries pages).filter fun e => ¬ meets condition e)⟩ :=
    ⟨hholds, (entries_eraseAll_perm (meets condition) h.ids fun _ => rfl).map _⟩
  have hscans := hafter.scans fun hnil => hpages <| by
    rw [← length_eq_zero_iff, ← length_eraseAll, hnil, length_nil]
  refine ⟨s', ?_, ?_⟩
  · rw [executeDelete, hrun, countP_eq_length_filter]
    simp only [← meets_iff, Bool.decide_eq_true]
  · simpa only [meets_iff] using hscans

/-! ## A table with two rows -/

def numbersPage : HeapPage numberFormat FilePageId :=
  ((HeapPage.blank numberFormat ⟨9, 0⟩).putSlot ⟨0, by decide⟩ (some ⟨[.int 15], rfl⟩)).putSlot
    ⟨1, by decide⟩ (some ⟨[.int 16], rfl⟩)

def aboveFifteen : Predicate numberFormat.td := ⟨⟨0, by decide⟩, .greaterThan, .int 15, rfl⟩

theorem aboveFifteen_deleted : ∃ s', (executeDelete 9 8 [aboveFifteen]).run
        ⟨[numbersPage].flatMap HeapPage.getPageData, fun _ => none, []⟩ = .ok [[.int 1]] s' ∧
      s'.Scans 9 [(⟨⟨9, 0⟩, 0⟩, [.int 15])] := by
  have hholds : FileState.Holds 9 [numbersPage]
      ⟨[numbersPage].flatMap HeapPage.getPageData, fun _ => none, []⟩ :=
    holds_one (by decide) rfl (numbersPage.survivesDisk_iff.mpr (by decide +kernel))
  have hgone : ((entries [numbersPage]).filter
      fun e => ∀ p ∈ [aboveFifteen], p.Satisfied e.2).length = 1 := by decide +kernel
  have hkept : listed ((entries [numbersPage]).filter
      fun e => ¬ ∀ p ∈ [aboveFifteen], p.Satisfied e.2) = [(⟨⟨9, 0⟩, 0⟩, [.int 15])] := by
    decide +kernel
  have hfew : (entries [numbersPage]).length < 8 := by decide +kernel
  obtain ⟨-, s', hrun, hscans⟩ := delete_exact hholds (by simp) [aboveFifteen] hfew
  rw [hgone] at hrun
  rw [hkept] at hscans
  exact ⟨s', hrun, hscans⟩

end BallotBox.SimpleDb
