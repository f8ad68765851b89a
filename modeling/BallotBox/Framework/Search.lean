import Mathlib

/-!
# Searching a graph for a cycle

A work list search from the successors of a node for the node itself.  `search_iff` says that with
enough fuel it finds out whether the node is on a cycle; the number of edges is enough
(`searchCost`).
-/

namespace BallotBox

open List

variable {α : Type*}
variable {visited frontier nodes : List α} {t a b : α}

section Search

variable (edges : α → List α)

/-- The work list search for `start`. -/
def search [DecidableEq α] (start : α) : ℕ → List α → List α → Bool
  | 0, _, _ => false
  | _ + 1, _, [] => false
  | fuel + 1, visited, t :: frontier =>
    if t = start then true
    else if t ∈ visited then search start fuel visited frontier
    else search start fuel (t :: visited) (frontier ++ edges t)

/-- The number of edges that leave the given nodes. -/
def searchCost (nodes : List α) : ℕ := (nodes.map fun t => (edges t).length).sum

/-- One step along an edge. -/
def EdgeTo (a b : α) : Prop := b ∈ edges a

variable {edges} {start : α}

/-- What is kept while the frontier is worked off. -/
structure SearchState (edges : α → List α) (start : α) (visited frontier : List α) : Prop where
  reached : ∀ t ∈ frontier, Relation.TransGen (EdgeTo edges) start t
  opened : ∀ u ∈ edges start, u ∈ visited ∨ u ∈ frontier
  closed : ∀ t ∈ visited, ∀ u ∈ edges t, u ∈ visited ∨ u ∈ frontier
  missing : start ∉ visited

lemma SearchState.skip (h : SearchState edges start visited (t :: frontier)) (ht : t ∈ visited) :
    SearchState edges start visited frontier := by
  have hdrop (u : α) (hu : u ∈ visited ∨ u ∈ t :: frontier) : u ∈ visited ∨ u ∈ frontier := by
    rcases hu with hu | hu
    · exact .inl hu
    · rcases mem_cons.mp hu with rfl | hu
      · exact .inl ht
      · exact .inr hu
  exact ⟨fun u hu => h.reached u (mem_cons_of_mem _ hu), fun u hu => hdrop u (h.opened u hu),
    fun s hs u hu => hdrop u (h.closed s hs u hu), h.missing⟩

lemma SearchState.expand (h : SearchState edges start visited (t :: frontier)) (ht : t ≠ start) :
    SearchState edges start (t :: visited) (frontier ++ edges t) := by
  have hmove (u : α) (hu : u ∈ visited ∨ u ∈ t :: frontier) :
      u ∈ t :: visited ∨ u ∈ frontier ++ edges t := by
    simp only [mem_cons, mem_append] at hu ⊢
    tauto
  have hreach := h.reached t mem_cons_self
  refine ⟨fun u hu => ?_, fun u hu => hmove u (h.opened u hu), fun s hs u hu => ?_, ?_⟩
  · rcases mem_append.mp hu with hu | hu
    · exact h.reached u (mem_cons_of_mem _ hu)
    · exact hreach.tail hu
  · rcases mem_cons.mp hs with rfl | hs
    · exact .inr (mem_append_right _ hu)
    · exact hmove u (h.closed s hs u hu)
  · simpa using ⟨ht.symm, h.missing⟩

lemma SearchState.not_transGen (h : SearchState edges start visited []) :
    ¬ Relation.TransGen (EdgeTo edges) start start := by
  have hall (t : α) (ht : Relation.TransGen (EdgeTo edges) start t) : t ∈ visited := by
    induction ht with
    | single hu => simpa using h.opened _ hu
    | tail _ hu ih => simpa using h.closed _ ih _ hu
  exact fun hcycle => h.missing (hall start hcycle)

variable [DecidableEq α]

lemma searchCost_expand (hnodup : nodes.Nodup)
    (hnodes : ∀ t, edges t ≠ [] → t ∈ nodes) (ht : t ∉ visited) :
    (edges t).length + searchCost edges (nodes.filter (· ∉ t :: visited)) =
      searchCost edges (nodes.filter (· ∉ visited)) := by
  by_cases hmem : t ∈ nodes
  · have hperm : (nodes.filter (· ∉ visited)).Perm (t :: nodes.filter (· ∉ t :: visited)) := by
      refine (perm_ext_iff_of_nodup (hnodup.filter _) ?_).mpr fun u => ?_
      · exact nodup_cons.mpr ⟨by simp, hnodup.filter _⟩
      · by_cases hut : u = t
        · subst hut
          simpa using ⟨hmem, ht⟩
        · simp [hut]
    rw [searchCost, searchCost, (hperm.map _).sum_eq, map_cons, sum_cons]
  · have hnil : edges t = [] := by
      by_contra hne
      exact hmem (hnodes t hne)
    have hsame : nodes.filter (· ∉ t :: visited) = nodes.filter (· ∉ visited) := by
      refine filter_congr fun u hu => ?_
      have hut : u ≠ t := fun h => hmem (h ▸ hu)
      simp [hut]
    rw [hsame, hnil, length_nil, zero_add]

/-- With enough fuel the search decides whether the node is reached. -/
theorem search_state_iff (hnodup : nodes.Nodup) (hnodes : ∀ t, edges t ≠ [] → t ∈ nodes) {fuel : ℕ}
    (h : SearchState edges start visited frontier)
    (hfuel : frontier.length + searchCost edges (nodes.filter (· ∉ visited)) < fuel) :
    search edges start fuel visited frontier = true ↔
      Relation.TransGen (EdgeTo edges) start start := by
  induction fuel generalizing visited frontier with
  | zero => omega
  | succ fuel ih =>
    cases frontier with
    | nil => simpa [search] using h.not_transGen
    | cons t frontier =>
      rw [search]
      rw [length_cons] at hfuel
      split_ifs with hgoal hvisited
      · simpa using hgoal ▸ h.reached t mem_cons_self
      · exact ih (h.skip hvisited) (by omega)
      · have hcost := searchCost_expand hnodup hnodes hvisited
        refine ih (h.expand hgoal) ?_
        rw [length_append]
        omega

/-- **Search.**  The search from the successors of a node finds the node exactly if it is on a
cycle. -/
theorem search_iff (hnodup : nodes.Nodup) (hnodes : ∀ t, edges t ≠ [] → t ∈ nodes) (start : α) :
    search edges start ((edges start).length + searchCost edges nodes + 1) [] (edges start) = true ↔
      Relation.TransGen (EdgeTo edges) start start := by
  refine search_state_iff hnodup hnodes ⟨fun t ht => .single ht, fun u hu => .inr hu, ?_, ?_⟩ ?_
  · simp
  · simp
  · simp

end Search

/-! ## Simple walks -/

section Walks

variable {r : α → α → Prop}

lemma exists_nodup_walk (h : Relation.TransGen r a b) :
    ∃ l : List α, (a :: l).Nodup ∧ (a :: l).IsChain r ∧ ∃ c, (a :: l).getLast? = some c ∧
      r c b := by
  induction h using Relation.TransGen.head_induction_on with
  | single hab => exact ⟨[], by simp, by simp, _, rfl, hab⟩
  | head hac _ ih =>
    rename_i a c _
    obtain ⟨l, hnodup, hchain, d, hlast, hdb⟩ := ih
    by_cases hmem : a ∈ c :: l
    · -- the walk comes back to `a`: start it there
      obtain ⟨s, t, hst⟩ := append_of_mem hmem
      rw [hst] at hnodup hchain hlast
      refine ⟨t, hnodup.of_append_right, hchain.right_of_append, d, ?_, hdb⟩
      rwa [getLast?_append_of_ne_nil _ (by simp)] at hlast
    · refine ⟨c :: l, nodup_cons.mpr ⟨hmem, hnodup⟩, ?_, d, ?_, hdb⟩
      · exact isChain_cons_cons.mpr ⟨hac, hchain⟩
      · rwa [getLast?_cons_cons]

lemma transGen_of_cycle {first last : α} {rest : List α}
    (hchain : (first :: rest).IsChain r) (hlast : (first :: rest).getLast? = some last)
    (hback : r last first) (ha : a ∈ first :: rest) : Relation.TransGen r a a := by
  obtain ⟨before, after, hsplit⟩ := append_of_mem ha
  rw [hsplit] at hchain hlast
  obtain ⟨hbefore, hafter⟩ := isChain_split.mp hchain
  have hto : Relation.ReflTransGen r first a := by
    have hpath := relationReflTransGen_of_exists_isChain (before ++ [a]) hbefore (by simp)
    have hhead : (before ++ [a]).head (by simp) = first := by
      cases before with
      | nil => exact (List.cons.inj hsplit).1.symm
      | cons b before => exact (List.cons.inj hsplit).1.symm
    rwa [hhead, getLast_concat] at hpath
  have hfrom : Relation.ReflTransGen r a last := by
    have hpath := relationReflTransGen_of_exists_isChain (a :: after) hafter (by simp)
    have hend : (a :: after).getLast (by simp) = last := by
      rw [getLast?_append_of_ne_nil _ (by simp), getLast?_eq_getLast_of_ne_nil (by simp)] at hlast
      exact Option.some.inj hlast
    rwa [head_cons, hend] at hpath
  exact (Relation.TransGen.tail' hfrom hback).trans_left hto

lemma transGen_avoids_or (t : α) (h : Relation.TransGen r a b) :
    Relation.TransGen (fun a b => r a b ∧ a ≠ t ∧ b ≠ t) a b ∨
      Relation.ReflTransGen r a t ∧ Relation.ReflTransGen r t b := by
  induction h with
  | single hab =>
    by_cases ha : a = t
    · exact .inr ⟨ha ▸ .refl, ha ▸ .single hab⟩
    · rename_i b
      by_cases hb : b = t
      · exact .inr ⟨hb ▸ .single hab, hb ▸ .refl⟩
      · exact .inl (.single ⟨hab, ha, hb⟩)
  | tail hab hbc ih =>
    rename_i b c
    rcases ih with hleft | ⟨hto, hfrom⟩
    · by_cases hc : c = t
      · exact .inr ⟨hc ▸ (hab.tail hbc).to_reflTransGen, hc ▸ .refl⟩
      · have hb : b ≠ t := by
          obtain ⟨_, _, -, -, hb⟩ := Relation.TransGen.tail'_iff.mp hleft
          exact hb
        exact .inl (hleft.tail ⟨hbc, hb, hc⟩)
    · exact .inr ⟨hto, hfrom.tail hbc⟩

/-- **Acyclic relations.** A relation that has changed only at a node that is on no cycle is acyclic
if it was. -/
lemma acyclic_of_node {r' : α → α → Prop} (t : α) (hacyclic : ∀ a, ¬ Relation.TransGen r a a)
    (hold : ∀ a b, r' a b → a ≠ t → b ≠ t → r a b) (ht : ¬ Relation.TransGen r' t t) (a : α) :
    ¬ Relation.TransGen r' a a := by
  intro hcycle
  rcases transGen_avoids_or t hcycle with havoids | ⟨hto, hfrom⟩
  · exact hacyclic a (Relation.TransGen.mono (fun x y h => hold x y h.1 h.2.1 h.2.2) _ _ havoids)
  · exact ht ((hcycle.trans_right hfrom).trans_left hto)

end Walks

end BallotBox
