import Mathlib

/-!
# Writing into a buffer of bounded size

`Emits full f s` says that `f` writes `s` if there is room for it and fails with `full` if not;
`Refuses f` that it fails whatever the size.  Both are closed under sequencing, so a serializer
writes one text as a whole or not at all (`Emits.eq_ok_iff`).
-/

namespace BallotBox

variable {ε α : Type}

/-! ## Writers -/

/-- A writer: the size of the buffer, what is in it, and what is in it afterwards. -/
abbrev Writer (ε α : Type) := ℕ → List α → Except ε (List α)

/-- One writer after another. -/
def Writer.andThen (f g : Writer ε α) : Writer ε α := fun cap out => f cap out >>= g cap

/-- The writer appends a text if there is room, and fails with `full` if not. -/
def Emits (full : ε) (f : Writer ε α) (s : List α) : Prop :=
  ∀ cap out, f cap out = if s.length ≤ cap - out.length then .ok (out ++ s) else .error full

/-- The writer fails. -/
def Refuses (f : Writer ε α) : Prop := ∀ cap out, ∃ e, f cap out = .error e

variable {full : ε} {f g : Writer ε α} {s t : List α}

lemma Emits.nil : Emits full (fun _ out => .ok out : Writer ε α) [] := by
  intro cap out
  simp

lemma Emits.andThen (hf : Emits full f s) (hg : Emits full g t) :
    Emits full (f.andThen g) (s ++ t) := by
  intro cap out
  have hroom : (s ++ t).length ≤ cap - out.length ↔
      s.length ≤ cap - out.length ∧ t.length ≤ cap - (out ++ s).length := by
    simp only [List.length_append]
    omega
  rw [Writer.andThen, hf]
  by_cases hs : s.length ≤ cap - out.length
  · rw [if_pos hs]
    exact (hg cap (out ++ s)).trans (by simp only [hroom, hs, true_and, List.append_assoc])
  · rw [if_neg hs, if_neg fun h => hs (hroom.mp h).1]
    rfl

lemma Emits.refuses (hf : Emits full f s) (hg : Refuses g) : Refuses (f.andThen g) := by
  intro cap out
  rw [Writer.andThen, hf]
  split_ifs
  · exact hg cap (out ++ s)
  · exact ⟨full, rfl⟩

lemma Refuses.andThen (hf : Refuses f) (g : Writer ε α) : Refuses (f.andThen g) := by
  intro cap out
  obtain ⟨e, he⟩ := hf cap out
  rw [Writer.andThen, he]
  exact ⟨e, rfl⟩

lemma Emits.eq_ok_iff (hf : Emits full f s) {cap : ℕ} {out out' : List α} :
    f cap out = .ok out' ↔ s.length ≤ cap - out.length ∧ out' = out ++ s := by
  rw [hf]
  split_ifs with hroom
  · simp [hroom, eq_comm]
  · simp [hroom]

lemma Refuses.ne_ok (hf : Refuses f) {cap : ℕ} {out out' : List α} : f cap out ≠ .ok out' := by
  obtain ⟨e, he⟩ := hf cap out
  simp [he]

/-! ## Writing in memory -/

/-- The memory behind a pointer, and the number of elements written. -/
structure Cursor (α : Type) where
  mem : ℕ → α
  off : ℕ

namespace Cursor

/-- Copies a text to where the cursor is. -/
def write (c : Cursor α) (src : List α) : Cursor α where
  mem i := if c.off ≤ i then (src[i - c.off]?).getD (c.mem i) else c.mem i
  off := c.off + src.length

/-- A cursor that has written a text over the memory it started with. -/
def holding (start : ℕ → α) (out : List α) : Cursor α where
  mem i := (out[i]?).getD (start i)
  off := out.length

lemma holding_nil (start : ℕ → α) : holding start [] = ⟨start, 0⟩ := by
  simp [holding]

lemma write_holding (start : ℕ → α) (out src : List α) :
    (holding start out).write src = holding start (out ++ src) := by
  have hmem (i : ℕ) :
      ((holding start out).write src).mem i = (holding start (out ++ src)).mem i := by
    by_cases hi : out.length ≤ i
    · calc ((holding start out).write src).mem i
          = (src[i - out.length]?).getD ((out[i]?).getD (start i)) := if_pos hi
        _ = ((out ++ src)[i]?).getD (start i) := by
          rw [List.getElem?_append_right hi, List.getElem?_eq_none hi, Option.getD_none]
    · calc ((holding start out).write src).mem i = (out[i]?).getD (start i) := if_neg hi
        _ = ((out ++ src)[i]?).getD (start i) := by
          rw [List.getElem?_append_left (Nat.lt_of_not_le hi)]
  have hoff : ((holding start out).write src).off = (holding start (out ++ src)).off := by
    simp [write, holding]
  exact congrArg₂ Cursor.mk (funext hmem) hoff

lemma mem_holding_ge (start : ℕ → α) {out : List α} {i : ℕ} (h : out.length ≤ i) :
    (holding start out).mem i = start i := by
  simp [holding, List.getElem?_eq_none h]

end Cursor

/-- From a buffer that holds a text, the program does what the writer says; it also leaves a text if
it fails. -/
def Follows (cap : ℕ) (x : EStateM ε (Cursor α) PUnit) (f : Writer ε α) : Prop :=
  ∀ start out, out.length ≤ cap → ∃ out', out'.length ≤ cap ∧
    (f cap out = .ok out' ∧ x (.holding start out) = .ok ⟨⟩ (.holding start out') ∨
      ∃ e, f cap out = .error e ∧ x (.holding start out) = .error e (.holding start out'))

namespace Follows

variable {cap : ℕ} {x y : EStateM ε (Cursor α) PUnit}

lemma pure : Follows cap (Pure.pure ⟨⟩ : EStateM ε (Cursor α) PUnit) fun _ out => .ok out :=
  fun _ out hout => ⟨out, hout, .inl ⟨rfl, rfl⟩⟩

lemma throw (e : ε) :
    Follows cap (MonadExcept.throw e : EStateM ε (Cursor α) PUnit) fun _ _ => .error e :=
  fun _ out hout => ⟨out, hout, .inr ⟨e, rfl, rfl⟩⟩

lemma bind (hx : Follows cap x f) (hy : Follows cap y g) :
    Follows cap (x >>= fun _ => y) (f.andThen g) := by
  intro start out hout
  obtain ⟨out₁, hout₁, ⟨hf, hrun⟩ | ⟨e, hf, hrun⟩⟩ := hx start out hout
  · obtain ⟨out₂, hout₂, hcase⟩ := hy start out₁ hout₁
    have hthen : f.andThen g cap out = g cap out₁ := by
      rw [Writer.andThen, hf]
      rfl
    have hboth : (x >>= fun _ => y) (.holding start out) = y (.holding start out₁) := by
      simp only [Bind.bind, EStateM.bind, hrun]
    rw [hthen, hboth]
    exact ⟨out₂, hout₂, hcase⟩
  · refine ⟨out₁, hout₁, .inr ⟨e, ?_, ?_⟩⟩
    · rw [Writer.andThen, hf]
      rfl
    · simp only [Bind.bind, EStateM.bind, hrun]

lemma ite {c : Prop} [Decidable c] (hx : c → Follows cap x f) (hy : ¬ c → Follows cap y g) :
    Follows cap (if c then x else y) fun cap out => if c then f cap out else g cap out := by
  by_cases hc : c
  · simpa [hc] using hx hc
  · simpa [hc] using hy hc

end Follows

end BallotBox
