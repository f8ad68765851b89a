import Mathlib

/-!
# Lists as tables

A table is a list whose order means nothing, and a query result is a permutation of a filtered
table.  The facts here are the ones reasoning about such lists needs and Mathlib does not state.
-/

namespace BallotBox

variable {α β : Type*}
variable {l : List α} {n : ℕ} {a : α}

lemma filterMap_eq_filterMap_iff {f g : α → Option β} (h : ∀ x, (f x).isSome = (g x).isSome) :
    l.filterMap f = l.filterMap g ↔ ∀ x ∈ l, f x = g x := by
  induction l with
  | nil => simp
  | cons x l ih =>
    have hx := h x
    cases hf : f x <;> cases hg : g x <;> simp_all

/-- A list that ends within `l` is cut off at a place of `l`. -/
lemma exists_take_of_snoc {before : List α} (h : before ++ [a] <+: l) :
    ∃ i, ∃ hi : i < l.length, before = l.take i ∧ a = l[i] := by
  obtain ⟨rest, rfl⟩ := h
  exact ⟨before.length, by simp, by simp, by simp⟩

lemma exists_perm_map {f : α → β} {m : List β} (h : m.Perm (l.map f)) :
    ∃ l' : List α, l'.Perm l ∧ m = l'.map f := by
  induction m generalizing l with
  | nil =>
    obtain rfl : l = [] := by simpa using h.symm
    exact ⟨[], .refl _, rfl⟩
  | cons b m ih =>
    obtain ⟨a, ha, rfl⟩ := List.mem_map.mp (h.subset List.mem_cons_self)
    obtain ⟨s, t, rfl⟩ := List.append_of_mem ha
    have hrest : m.Perm ((s ++ t).map f) := by
      refine List.Perm.cons_inv (h.trans ?_)
      simp [List.perm_middle]
    obtain ⟨l', hl', rfl⟩ := ih hrest
    exact ⟨a :: l', (hl'.cons a).trans List.perm_middle.symm, rfl⟩

lemma nodup_map_of_filter_le_one {κ : Type*} [DecidableEq κ] {f : α → κ}
    (h : ∀ k, (l.filter (f · = k)).length ≤ 1) : (l.map f).Nodup := by
  refine List.nodup_iff_count_le_one.mpr fun k => ?_
  rw [List.count, List.countP_map, List.countP_eq_length_filter]
  exact h k

lemma sum_countP_range {f : α → ℤ} (l : List α) (h : ∀ a ∈ l, 0 ≤ f a ∧ f a < n) :
    ∑ i ∈ Finset.range n, l.countP (f · = (i : ℤ)) = l.length := by
  induction l with
  | nil => simp
  | cons a l ih =>
    obtain ⟨hlow, hhigh⟩ := h a List.mem_cons_self
    have hone : ∑ i ∈ Finset.range n, (if f a = (i : ℤ) then 1 else 0) = 1 := by
      rw [Finset.sum_eq_single_of_mem (f a).toNat (Finset.mem_range.mpr (by omega))]
      · rw [if_pos (by omega)]
      · intro i _ hi
        rw [if_neg (by omega)]
    simp only [List.countP_cons, decide_eq_true_eq, List.length_cons, Finset.sum_add_distrib, hone]
    rw [ih fun b hb => h b (List.mem_cons_of_mem _ hb)]

lemma sum_take_toList {m : ℕ} (v : Vector ℤ m) {f : ℕ → ℤ} (hf : ∀ i (hi : i < m), v[i] = f i)
    (hn : n ≤ m) : (v.toList.take n).sum = ∑ i ∈ Finset.range n, f i := by
  induction n with
  | zero => simp
  | succ n ih =>
    have hlt : n < v.toList.length := by simpa using hn
    rw [List.sum_take_succ _ _ hlt, ih (by omega), Finset.sum_range_succ, ← hf n hn]
    simp

/-! ## Replacing the rows of a key -/

section Upsert

variable {κ : Type*} [DecidableEq κ] (key : α → κ)

/-- Deletes the rows with the key of `a` and adds `a` at the end. -/
def upsert (l : List α) (a : α) : List α := l.filter (key · ≠ key a) ++ [a]

lemma mem_upsert {x : α} : x ∈ upsert key l a ↔ x = a ∨ (x ∈ l ∧ key x ≠ key a) := by
  simp [upsert, or_comm]

lemma filter_key_upsert (l : List α) (a : α) (k : κ) :
    (upsert key l a).filter (key · = k) = if key a = k then [a] else l.filter (key · = k) := by
  rw [upsert, List.filter_append, List.filter_filter]
  split_ifs with h
  · have hnone : l.filter (fun x => decide (key x = k) && decide (key x ≠ key a)) = [] := by
      refine List.filter_eq_nil_iff.mpr fun x _ => ?_
      simp +contextual [h]
    rw [hnone]
    simp [h]
  · have hsame : l.filter (fun x => decide (key x = k) && decide (key x ≠ key a)) =
        l.filter (key · = k) := by
      refine List.filter_congr fun x _ => ?_
      by_cases hx : key x = k
      · simp [hx, Ne.symm h]
      · simp [hx]
    rw [hsame]
    simp [h]

lemma filter_upsert (p : α → Bool) (l : List α) (a : α) :
    (upsert key l a).filter p = (l.filter p).filter (key · ≠ key a) ++ if p a then [a] else [] := by
  rw [upsert, List.filter_append, List.filter_comm, List.filter_singleton]
  cases p a <;> rfl

lemma filter_upsert_of_ne {key : α → κ} {p : α → Bool}
    (ha : p a = false) (hkey : ∀ x, p x = true → key x ≠ key a) :
    (upsert key l a).filter p = l.filter p := by
  rw [filter_upsert, ha, if_neg Bool.false_ne_true, List.append_nil]
  refine List.filter_eq_self.mpr fun x hx => ?_
  simpa using hkey x (List.mem_filter.mp hx).2

end Upsert

end BallotBox
