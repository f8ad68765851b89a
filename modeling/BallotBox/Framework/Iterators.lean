import BallotBox.Framework.Program

/-!
# Iterators

An iterator is asked with `hasNext` whether there is another element, and gives it with `next`.
`Iter.prefetch` makes one from a function that fetches one element, and `Iter.fold` is the loop
`while (hasNext ()) body (next ());`.
-/

namespace BallotBox

open Triple

variable {ε σ α β γ τ : Type}

structure Iter (ε σ α : Type) where
  State : Type
  opened : EStateM ε σ State
  hasNext : State → EStateM ε σ (Bool × State)
  next : State → EStateM ε σ (α × State)

namespace Iter

/-- The iterator of a function that fetches the next element: `hasNext` keeps it for `next`. -/
def prefetch (opened : EStateM ε σ τ) (fetch : τ → EStateM ε σ (Option α × τ)) (exhausted : ε) :
    Iter ε σ α where
  State := Option α × τ
  opened := do
    let t ← opened
    return (none, t)
  hasNext st :=
    match st.1 with
    | some a => return (true, (some a, st.2))
    | none => do
      let r ← fetch st.2
      return (r.1.isSome, r)
  next st :=
    match st.1 with
    | some a => return (a, (none, st.2))
    | none => do
      let r ← fetch st.2
      match r.1 with
      | some a => return (a, (none, r.2))
      | none => throw exhausted

variable (I : Iter ε σ α)

/-- `if (hasNext ()) more (next ()); else done ();` -/
def ask (st : I.State) (more : α × I.State → EStateM ε σ β) (done : I.State → EStateM ε σ β) :
    EStateM ε σ β := do
  let r ← I.hasNext st
  if r.1 then
    let r ← I.next r.2
    more r
  else done r.2

/-- Fetches the next element that matches, out of at most `fuel`. -/
def fetchMatching (p : α → Bool) : ℕ → I.State → EStateM ε σ (Option α × I.State)
  | 0, st => return (none, st)
  | fuel + 1, st =>
    I.ask st (fun r => if p r.1 then return (some r.1, r.2) else fetchMatching p fuel r.2)
      fun st => return (none, st)

/-- The elements that match. -/
def matching (p : α → Bool) (fuel : ℕ) (exhausted : ε) : Iter ε σ α :=
  prefetch I.opened (I.fetchMatching p fuel) exhausted

def fetchMapped (f : α → β) (st : I.State) : EStateM ε σ (Option β × I.State) :=
  I.ask st (fun r => return (some (f r.1), r.2)) fun st => return (none, st)

/-- A function of every element. -/
def mapped (f : α → β) (exhausted : ε) : Iter ε σ β :=
  prefetch I.opened (I.fetchMapped f) exhausted

/-- The loop over all elements, of which there are at most `fuel`. -/
def fold (body : β → α → EStateM ε σ β) : ℕ → I.State → β → EStateM ε σ β
  | 0, _, b => return b
  | fuel + 1, st, b =>
    I.ask st (fun r => do
      let b ← body b r.1
      fold body fuel r.2 b) fun _ => return b

/-- Opens the iterator and takes all its elements, of which there are at most `fuel`. -/
def collect (fuel : ℕ) : EStateM ε σ (List α) := do
  let st ← I.opened
  I.fold (fun seen a => return seen ++ [a]) fuel st []

/-! ## What is delivered -/

/-- The iterator gives the elements that `K` says. -/
structure Delivers (W : γ → σ → Prop) (K : γ → I.State → List α → Prop) : Prop where
  hasNext : ∀ g st l, K g st l →
    Triple (W g) (I.hasNext st) (fun r s => (r.1 = !l.isEmpty ∧ K g r.2 l) ∧ W g s) fun _ _ => False
  next : ∀ g st a l, K g st (a :: l) →
    Triple (W g) (I.next st) (fun r s => (r.1 = a ∧ K g r.2 l) ∧ W g s) fun _ _ => False

variable {I} {W : γ → σ → Prop} {K : γ → I.State → List α → Prop}

lemma delivers_prefetch {opened : EStateM ε σ τ} {fetch : τ → EStateM ε σ (Option α × τ)}
    {exhausted : ε} {K : γ → τ → List α → Prop}
    (h : ∀ g t l, K g t l →
      Triple (W g) (fetch t) (fun r s => (r.1 = l.head? ∧ K g r.2 l.tail) ∧ W g s)
        fun _ _ => False) :
    (prefetch opened fetch exhausted).Delivers W
      fun g st l => ∃ rest, K g st.2 rest ∧ l = st.1.toList ++ rest where
  hasNext g st l := by
    obtain ⟨kept, t⟩ := st
    rintro ⟨rest, hrest, rfl⟩
    cases kept with
    | some a => exact fun s hs => ⟨⟨rfl, rest, hrest, rfl⟩, hs⟩
    | none =>
      refine (h g t rest hrest).bind_imp fun r ⟨hhead, htail⟩ => ?_
      intro s hs
      refine ⟨⟨?_, rest.tail, htail, ?_⟩, hs⟩
      · cases rest <;> simp [hhead]
      · cases rest <;> simp [hhead]
  next g st a l := by
    obtain ⟨kept, t⟩ := st
    rintro ⟨rest, hrest, heq⟩
    cases kept with
    | some b =>
      obtain ⟨rfl, rfl⟩ := List.cons.inj heq
      exact fun s hs => ⟨⟨rfl, l, hrest, rfl⟩, hs⟩
    | none =>
      obtain rfl : a :: l = rest := heq
      refine (h g t (a :: l) hrest).bind_imp fun r ⟨hhead, htail⟩ => ?_
      rw [hhead]
      exact fun s hs => ⟨⟨rfl, l, htail, rfl⟩, hs⟩

lemma Delivers.ask (hI : I.Delivers W K) {g : γ} {st : I.State} {l : List α} (hst : K g st l)
    {more : α × I.State → EStateM ε σ β} {done : I.State → EStateM ε σ β} {Q : β → σ → Prop}
    (hmore : ∀ a rest st', l = a :: rest → K g st' rest →
      Triple (W g) (more (a, st')) Q fun _ _ => False)
    (hdone : ∀ st', l = [] → K g st' [] → Triple (W g) (done st') Q fun _ _ => False) :
    Triple (W g) (I.ask st more done) Q fun _ _ => False := by
  refine (hI.hasNext g st l hst).bind_imp fun r ⟨hmore', hst'⟩ => ?_
  cases l with
  | nil =>
    rw [hmore', if_neg (by simp)]
    exact hdone r.2 rfl hst'
  | cons a rest =>
    rw [hmore', if_pos (by simp)]
    refine (hI.next g r.2 a rest hst').bind_imp fun r ⟨ha, hrest⟩ => ?_
    obtain ⟨a', st'⟩ := r
    obtain rfl : a' = a := ha
    exact hmore a' rest st' rfl hrest

lemma Delivers.mapped (hI : I.Delivers W K) (f : α → β) (exhausted : ε) :
    (I.mapped f exhausted).Delivers W
      fun g st l => ∃ rest, (∃ l', K g st.2 l' ∧ rest = l'.map f) ∧ l = st.1.toList ++ rest := by
  refine delivers_prefetch (K := fun g st l => ∃ l', K g st l' ∧ l = l'.map f) ?_
  rintro g st _ ⟨l, hst, rfl⟩
  refine hI.ask hst (fun a rest st' hl hrest => ?_) fun st' hl hst' => ?_
  · rw [hl]
    exact fun s hs => ⟨⟨rfl, rest, hrest, rfl⟩, hs⟩
  · rw [hl]
    exact fun s hs => ⟨⟨rfl, [], hst', rfl⟩, hs⟩

lemma Delivers.fetchMatching (hI : I.Delivers W K) (p : α → Bool) {fuel : ℕ} {g : γ} {st : I.State}
    {l : List α} (hst : K g st l) (hfuel : l.length ≤ fuel) :
    Triple (W g) (I.fetchMatching p fuel st) (fun r s => (r.1 = (l.filter p).head? ∧
        ∃ rest, K g r.2 rest ∧ rest.length ≤ fuel ∧ (l.filter p).tail = rest.filter p) ∧ W g s)
      fun _ _ => False := by
  induction fuel generalizing st l with
  | zero =>
    obtain rfl := List.length_eq_zero_iff.mp (Nat.le_zero.mp hfuel)
    exact fun s hs => ⟨⟨rfl, [], hst, le_rfl, rfl⟩, hs⟩
  | succ fuel ih =>
    refine hI.ask hst (fun a rest st' hl hrest => ?_) fun st' hl hst' => ?_
    · subst hl
      have hshort : rest.length ≤ fuel := by simpa using hfuel
      by_cases hp : p a
      · rw [if_pos hp, List.filter_cons_of_pos hp]
        exact fun s hs => ⟨⟨rfl, rest, hrest, hshort.trans (Nat.le_succ _), rfl⟩, hs⟩
      · rw [if_neg hp, List.filter_cons_of_neg hp]
        refine (ih hrest hshort).post ?_
        rintro r s ⟨⟨hhead, rest', hst', hle, htail⟩, hs⟩
        exact ⟨⟨hhead, rest', hst', hle.trans (Nat.le_succ _), htail⟩, hs⟩
    · subst hl
      exact fun s hs => ⟨⟨rfl, [], hst', Nat.zero_le _, rfl⟩, hs⟩

lemma Delivers.matching (hI : I.Delivers W K) (p : α → Bool) (fuel : ℕ) (exhausted : ε) :
    (I.matching p fuel exhausted).Delivers W
      fun g st l => ∃ rest, (∃ l', K g st.2 l' ∧ l'.length ≤ fuel ∧ rest = l'.filter p) ∧
        l = st.1.toList ++ rest := by
  refine delivers_prefetch
    (K := fun g st l => ∃ l', K g st l' ∧ l'.length ≤ fuel ∧ l = l'.filter p) ?_
  rintro g st _ ⟨l, hst, hfuel, rfl⟩
  exact hI.fetchMatching p hst hfuel

/-- **A loop over an iterator.** `G done` is the ghost and `B done` the value after `done`; the body
may change the state if the elements to come stay the same. -/
lemma Delivers.fold (hI : I.Delivers W K) {body : β → α → EStateM ε σ β} {l : List α} {fuel : ℕ}
    (hfuel : l.length ≤ fuel) (G : List α → γ) (B : List α → β)
    (hbody : ∀ done a rest, l = done ++ a :: rest →
      Triple (W (G done)) (body (B done) a) (fun b s => b = B (done ++ [a]) ∧ W (G (done ++ [a])) s)
        fun _ _ => False)
    (hkeep : ∀ done a rest st, l = done ++ a :: rest → K (G done) st rest →
      K (G (done ++ [a])) st rest)
    {st : I.State} (hst : K (G []) st l) :
    Triple (W (G [])) (I.fold body fuel st (B [])) (fun b s => b = B l ∧ W (G l) s)
      fun _ _ => False := by
  have hrest (done rest : List α) (hl : l = done ++ rest) (fuel : ℕ) (hfuel : rest.length ≤ fuel)
      {st : I.State} (hst : K (G done) st rest) :
      Triple (W (G done)) (I.fold body fuel st (B done)) (fun b s => b = B l ∧ W (G l) s)
        fun _ _ => False := by
    induction fuel generalizing done rest st with
    | zero =>
      obtain rfl := List.length_eq_zero_iff.mp (Nat.le_zero.mp hfuel)
      rw [hl, List.append_nil]
      exact fun s hs => ⟨rfl, hs⟩
    | succ fuel ih =>
      refine hI.ask hst (fun a rest' st' hcons hst' => ?_) fun st' hnil _ => ?_
      · subst hcons
        refine (hbody done a rest' hl).bind_imp fun b hb => ?_
        rw [hb]
        exact ih (done ++ [a]) rest' (by simpa using hl) (by simpa using hfuel)
          (hkeep done a rest' st' hl hst')
      · rw [hl, hnil, List.append_nil]
        exact fun s hs => ⟨rfl, hs⟩
  exact hrest [] l rfl fuel hfuel hst

lemma Delivers.collect (hI : I.Delivers W K) {g : γ} {l : List α} {fuel : ℕ}
    (hfuel : l.length ≤ fuel)
    (hopen : Triple (W g) I.opened (fun st s => K g st l ∧ W g s) fun _ _ => False) :
    Triple (W g) (I.collect fuel) (fun l' s => l' = l ∧ W g s) fun _ _ => False := by
  refine hopen.bind_imp fun st hst => ?_
  refine hI.fold hfuel (fun _ => g) (fun seen => seen) ?_ ?_ hst
  · exact fun done a rest _ s hs => ⟨rfl, hs⟩
  · exact fun _ _ _ _ _ h => h

lemma collect_prefetch_once {opened : EStateM ε σ τ} {fetch : τ → EStateM ε σ (Option α × τ)}
    {exhausted : ε} {P R : σ → Prop} {Q : α → σ → Prop} {A B : τ → Prop} {fuel : ℕ}
    (hfuel : 0 < fuel) (hopen : Triple P opened (fun t s => A t ∧ R s) fun _ _ => False)
    (hfirst : ∀ t, A t →
      Triple R (fetch t) (fun r s => ∃ a, (r.1 = some a ∧ B r.2) ∧ Q a s) fun _ _ => False)
    (hlast : ∀ t a, B t →
      Triple (Q a) (fetch t) (fun r s => r.1 = none ∧ Q a s) fun _ _ => False) :
    Triple P ((prefetch opened fetch exhausted).collect fuel) (fun l s => ∃ a, l = [a] ∧ Q a s)
      fun _ _ => False := by
  obtain ⟨fuel, rfl⟩ := Nat.exists_eq_succ_of_ne_zero hfuel.ne'
  have hopened : Triple P (prefetch opened fetch exhausted).opened
      (fun st s => (st.1 = none ∧ A st.2) ∧ R s) fun _ _ => False :=
    hopen.bind_imp fun t ht => fun s hs => ⟨⟨rfl, ht⟩, hs⟩
  refine hopened.bind_imp fun st ⟨hnone, hst⟩ => ?_
  obtain ⟨kept, t⟩ := st
  obtain rfl : kept = none := hnone
  have hhas : Triple R ((prefetch opened fetch exhausted).hasNext (none, t))
      (fun r s => ∃ a, (r.1 = true ∧ r.2.1 = some a ∧ B r.2.2) ∧ Q a s) fun _ _ => False := by
    refine (hfirst t hst).bind fun r => exists_elim fun a => of_imp fun ⟨ha, hr⟩ => ?_
    exact fun s hs => ⟨a, ⟨by rw [ha]; rfl, ha, hr⟩, hs⟩
  refine hhas.bind fun r => exists_elim fun a => of_imp fun ⟨hmore, ha, hr⟩ => ?_
  obtain ⟨more, kept, t'⟩ := r
  obtain rfl : more = true := hmore
  obtain rfl : kept = some a := ha
  -- the element is kept for `next`, and the loop asks once more
  show Triple (Q a) ((prefetch opened fetch exhausted).fold _ fuel (none, t') [a]) _ _
  cases fuel with
  | zero => exact fun s hs => ⟨a, rfl, hs⟩
  | succ fuel =>
    refine Triple.bind (Q := fun r s => r.1 = false ∧ Q a s) ?_ fun r => of_imp fun hfalse => ?_
    · refine (hlast t' a hr).bind_imp fun r hend => ?_
      exact fun s hs => ⟨by rw [hend]; rfl, hs⟩
    · rw [hfalse]
      exact fun s hs => ⟨a, rfl, hs⟩

end Iter

end BallotBox
