import BallotBox.Construction.LockManager

/-!
# Locks exclude, and deadlocks that are none

`tryAcquire` refuses and changes nothing (`Refuses`), or it grants and the page is held as asked
(`tryAcquire_granted`).  `LockSafe` relates the table to the history of the replies, and every step
keeps it.
-/

namespace BallotBox.SimpleDb

open List Option Function LockManager AList

variable {τ π : Type} [DecidableEq τ] [DecidableEq π] {m m' : LockManager τ π} {t u : τ} {p q : π}
  {x : Bool}
variable {s s' : LockState τ} {e : LockEvent τ π} {r : LockReply}

/-! ## `tryAcquire` -/

namespace LockManager

/-- Every page in the table has a holder, and an exclusive one a single holder. -/
structure Tight (m : LockManager τ π) : Prop where
  occupied : ∀ p s, m.locks p = some s → s.holders ≠ []
  single : ∀ p s, m.locks p = some s → s.exclusive = true → ∃ t, s.holders = [t]

/-- The transaction has a lock on the page, exclusive if `x`. -/
def Holds (m : LockManager τ π) (t : τ) (p : π) (x : Bool) : Prop :=
  ∃ s, m.locks p = some s ∧ t ∈ s.holders ∧ s.exclusive = x

/-- The attempt is refused. -/
def Refuses (m : LockManager τ π) (t : τ) (p : π) (x : Bool) : Prop :=
  (m.tryAcquire t p x).2 = false

instance (m : LockManager τ π) (t : τ) (p : π) (x : Bool) : Decidable (m.Refuses t p x) :=
  inferInstanceAs (Decidable (_ = _))

lemma tryAcquire_refused (h : m.Refuses t p x) : (m.tryAcquire t p x).1 = m ∧
    ∃ s, m.locks p = some s ∧ s.holders ≠ [] ∧
      ((t ∈ s.holders ∧ s.exclusive = false ∧ x = true ∧ s.holders.length ≠ 1) ∨
        (t ∉ s.holders ∧ (x = true ∨ s.exclusive = true))) := by
  unfold Refuses at h
  unfold tryAcquire at h ⊢
  cases hp : m.locks p with
  | none => simp [hp] at h
  | some s =>
    simp only [hp] at h ⊢
    split_ifs at h ⊢ with hempty hmem hmode hone hshare
    · refine ⟨rfl, s, rfl, hempty, .inl ⟨hmem, ?_, ?_, hone⟩⟩ <;> simp_all
    · refine ⟨rfl, s, rfl, hempty, .inr ⟨hmem, ?_⟩⟩
      cases x <;> simp_all

/-- What a granted request makes of the state of its page. -/
structure Grants (m : LockManager τ π) (t : τ) (p : π) (x : Bool) (s : LockState τ) : Prop where
  holder : t ∈ s.holders
  others : ∀ u, u ≠ t → (u ∈ s.holders ↔ m.holdsLock u p = true)
  alone : s.exclusive = true → s.holders = [t]
  mode : x = true → s.exclusive = true
  kept : ∀ s₀, m.locks p = some s₀ → s₀.exclusive = true → s.exclusive = true
  asked : s.exclusive = true → x = true ∨ m.Holds t p true

lemma tryAcquire_granted (hm : m.Tight) (h : ¬ m.Refuses t p x) : ∃ s, m.Grants t p x s ∧
      (m.tryAcquire t p x).1.locks = Function.update m.locks p (some s) ∧
      (m.tryAcquire t p x).1.waitingFor = m.waitingFor := by
  unfold Refuses at h
  unfold tryAcquire at h ⊢
  cases hp : m.locks p with
  | none =>
    refine ⟨⟨[t], nodup_singleton t, x⟩, ⟨by simp, fun u hu => ?_, fun _ => rfl, fun h => h, ?_,
      .inl⟩, rfl, rfl⟩
    · simp [holdsLock, hp, hu]
    · simp [hp]
  | some s =>
    have hempty := hm.occupied p s hp
    simp only [hp, if_neg hempty] at h ⊢
    split_ifs at h ⊢ with hmem hmode hone hshare
    · refine ⟨s, ⟨hmem, fun u _ => by simp [holdsLock, hp], fun hex => ?_, fun hx => ?_, ?_,
        fun hex => .inr ⟨s, hp, hmem, hex⟩⟩, ?_, rfl⟩
      · obtain ⟨u, hu⟩ := hm.single p s hp hex
        rw [hu, mem_singleton] at hmem
        rw [hu, hmem]
      · simpa [hx] using hmode
      · intro s₀ hs₀ hex
        obtain rfl := some.inj (hp.symm.trans hs₀)
        exact hex
      · rw [← hp, update_eq_self]
    · obtain ⟨u, hu⟩ := length_eq_one_iff.mp hone
      have hut : t = u := by simpa [hu] using hmem
      refine ⟨{ s with exclusive := true }, ⟨hmem, fun u _ => by simp [holdsLock, hp], fun _ => ?_,
        fun _ => rfl, fun _ _ _ => rfl, fun _ => .inl ?_⟩, rfl, rfl⟩
      · exact hut ▸ hu
      · have hboth : s.exclusive = false ∧ x = true := by simpa using hmode
        exact hboth.2
    · exact absurd rfl h
    · refine ⟨{ s with holders := s.holders.insert t, nodup := s.nodup.insert },
        ⟨by simp, fun u hu => by simp [holdsLock, hp, hu], ?_, ?_, ?_, ?_⟩, rfl, rfl⟩
      · simp_all
      · simp_all
      · intro s₀ hs₀ hex
        obtain rfl := some.inj (hp.symm.trans hs₀)
        exact hex
      · simp_all
    · exact absurd rfl h

/-! ## Releasing -/

lemma without_eq_some (h : LockState.without t s = some s') :
    (∀ u, u ∈ s'.holders ↔ u ≠ t ∧ u ∈ s.holders) ∧ s'.exclusive = s.exclusive := by
  unfold LockState.without at h
  split_ifs at h
  obtain rfl := some.inj h
  exact ⟨fun u => s.nodup.mem_erase_iff, rfl⟩

lemma without_of_notMem (h : t ∉ s.holders) : LockState.without t s = some s := by
  unfold LockState.without
  rw [if_neg fun hand => h hand.1]
  cases s
  simp_all [erase_of_not_mem]

lemma without_ne_none (hu : u ∈ s.holders) (hne : u ≠ t) : LockState.without t s ≠ none := by
  unfold LockState.without
  split_ifs with h
  · have hmem : u ∈ s.holders.erase t := s.nodup.mem_erase_iff.mpr ⟨hne, hu⟩
    rw [h.2] at hmem
    exact absurd hmem not_mem_nil
  · simp

lemma release_locks (hm : m.Tight) (t : τ) (p q : π) : (m.release t p).locks q =
      if q = p then (m.locks q).bind (LockState.without t) else m.locks q := by
  unfold release
  cases hp : m.locks p with
  | none =>
    split_ifs with hq
    · simp [hq, hp]
    · rfl
  | some s =>
    have hempty := hm.occupied p s hp
    have hwithout : LockState.without t s = if s.holders.erase t = [] then none
        else some { s with holders := s.holders.erase t, nodup := s.nodup.erase t } := by
      unfold LockState.without
      by_cases hnil : s.holders.erase t = []
      · have hmem : t ∈ s.holders := by
          by_contra hmem
          exact hempty (erase_of_not_mem hmem ▸ hnil)
        simp [hnil, hmem]
      · simp [hnil]
    dsimp only
    by_cases hnil : s.holders.erase t = []
    · rw [if_pos hnil]
      split_ifs with hq
      · subst hq
        rw [hp, bind_some, hwithout, if_pos hnil]
        exact update_self ..
      · exact update_of_ne hq ..
    · rw [if_neg hnil]
      split_ifs with hq
      · subst hq
        rw [hp, bind_some, hwithout, if_neg hnil]
        exact update_self ..
      · exact update_of_ne hq ..

lemma Tight.without (hsingle : s.exclusive = true → ∃ t, s.holders = [t])
    (hempty : s.holders ≠ []) (h : LockState.without t s = some s') :
    s'.holders ≠ [] ∧ (s'.exclusive = true → ∃ u, s'.holders = [u]) := by
  by_cases hmem : t ∈ s.holders
  · unfold LockState.without at h
    split_ifs at h with hnil
    obtain rfl := some.inj h
    have hne : s.holders.erase t ≠ [] := fun h => hnil ⟨hmem, h⟩
    refine ⟨hne, fun hex => ?_⟩
    obtain ⟨u, hu⟩ := hsingle hex
    have htu : t = u := by simpa [hu] using hmem
    exact absurd (by simp [hu, htu]) hne
  · rw [without_of_notMem hmem] at h
    obtain rfl := some.inj h
    exact ⟨hempty, hsingle⟩

/-! ## What a step does to the table -/

omit [DecidableEq π] in
lemma Tight.drop (hm : m.Tight) (gone : π → Bool)
    (h : ∀ q, m'.locks q = if gone q then (m.locks q).bind (LockState.without t) else m.locks q) :
    m'.Tight := by
  have hstate (q : π) (s' : LockState τ) (hs' : m'.locks q = some s') :
      s'.holders ≠ [] ∧ (s'.exclusive = true → ∃ u, s'.holders = [u]) := by
    rw [h q] at hs'
    split_ifs at hs'
    · obtain ⟨s, hs, hwithout⟩ := bind_eq_some_iff.mp hs'
      exact Tight.without (hm.single q s hs) (hm.occupied q s hs) hwithout
    · exact ⟨hm.occupied q s' hs', hm.single q s' hs'⟩
  exact ⟨fun q s' hs' => (hstate q s' hs').1, fun q s' hs' => (hstate q s' hs').2⟩

omit [DecidableEq π] in
lemma holds_drop_iff (gone : π → Bool)
    (h : ∀ q, m'.locks q = if gone q then (m.locks q).bind (LockState.without t) else m.locks q)
    (hut : u ≠ t) (q : π) (x : Bool) : m'.Holds u q x ↔ m.Holds u q x := by
  unfold Holds
  rw [h q]
  split_ifs
  · constructor
    · rintro ⟨s', hs', hu, hx⟩
      obtain ⟨s, hs, hwithout⟩ := bind_eq_some_iff.mp hs'
      obtain ⟨hmem, hmode⟩ := without_eq_some hwithout
      exact ⟨s, hs, ((hmem u).mp hu).2, hmode.symm.trans hx⟩
    · rintro ⟨s, hs, hu, hx⟩
      obtain ⟨s', hwithout⟩ := ne_none_iff_exists'.mp (without_ne_none hu hut)
      obtain ⟨hmem, hmode⟩ := without_eq_some hwithout
      exact ⟨s', by rw [hs, bind_some, hwithout], (hmem u).mpr ⟨hut, hu⟩, hmode.trans hx⟩
  · rfl

lemma Tight.grant (hm : m.Tight) (hs : m.Grants t p x s)
    (h : m'.locks = Function.update m.locks p (some s)) : m'.Tight := by
  have hstate (q : π) (s' : LockState τ) (hs' : m'.locks q = some s') :
      s'.holders ≠ [] ∧ (s'.exclusive = true → ∃ u, s'.holders = [u]) := by
    rw [h] at hs'
    by_cases hq : q = p
    · subst hq
      rw [update_self] at hs'
      obtain rfl := some.inj hs'
      exact ⟨ne_nil_of_mem hs.holder, fun hex => ⟨t, hs.alone hex⟩⟩
    · rw [update_of_ne hq] at hs'
      exact ⟨hm.occupied q s' hs', hm.single q s' hs'⟩
  exact ⟨fun q s' hs' => (hstate q s' hs').1, fun q s' hs' => (hstate q s' hs').2⟩

omit [DecidableEq π] in
lemma holdsLock_iff : m.holdsLock t p = true ↔ ∃ x, m.Holds t p x := by
  unfold holdsLock Holds
  cases m.locks p <;> simp

omit [DecidableEq τ] [DecidableEq π] in
lemma Tight.unique (hm : m.Tight) (ht : m.Holds t p true) (hu : m.Holds u p x) : u = t := by
  obtain ⟨s, hs, hmem, hex⟩ := ht
  obtain ⟨s', hs', hmem', -⟩ := hu
  obtain rfl := some.inj (hs.symm.trans hs')
  obtain ⟨v, hv⟩ := hm.single p s hs hex
  rw [hv, mem_singleton] at hmem hmem'
  exact hmem'.trans hmem.symm

omit [DecidableEq π] in
lemma releaseAll_holds : (m.releaseAll t).Holds u p x ↔ u ≠ t ∧ m.Holds u p x := by
  by_cases hut : u = t
  · subst hut
    simp only [ne_eq, not_true_eq_false, false_and, iff_false]
    rintro ⟨s', hs', hmem, -⟩
    obtain ⟨s, -, hwithout⟩ := bind_eq_some_iff.mp hs'
    exact (((without_eq_some hwithout).1 u).mp hmem).1 rfl
  · rw [holds_drop_iff (m := m) (fun _ => true) (fun _ => rfl) hut]
    simp [hut]

lemma release_holds (hm : m.Tight) :
    (m.release t q).Holds u p x ↔ ¬ (u = t ∧ p = q) ∧ m.Holds u p x := by
  have hlocks (p : π) : (m.release t q).locks p =
      if p = q then (m.releaseAll t).locks p else m.locks p := release_locks hm t q p
  by_cases hp : p = q
  · subst hp
    have hsame : (m.release t p).Holds u p x ↔ (m.releaseAll t).Holds u p x := by
      unfold Holds
      rw [hlocks, if_pos rfl]
    rw [hsame, releaseAll_holds]
    simp
  · unfold Holds
    rw [hlocks, if_neg hp]
    simp [hp]

omit [DecidableEq π] in
lemma Tight.releaseAll (hm : m.Tight) (t : τ) : (m.releaseAll t).Tight :=
  hm.drop (fun _ => true) (fun _ => rfl)

lemma Tight.release (hm : m.Tight) (t : τ) (p : π) : (m.release t p).Tight :=
  hm.drop (fun q => q = p) fun q => by simpa using release_locks hm t p q

/-- What a granted request makes of the holders of its page. -/
structure Granted (m : LockManager τ π) (t : τ) (p : π) (x : Bool) (m' : LockManager τ π) :
    Prop where
  tight : m'.Tight
  elsewhere : ∀ q, q ≠ p → m'.locks q = m.locks q
  kept : ∀ u, m.Holds u p true → m'.Holds u p true
  still : ∀ u y, m.Holds u p y → ∃ z, m'.Holds u p z
  holders : ∀ u y, m'.Holds u p y → u = t ∨ ∃ y', m.Holds u p y'
  writer : ∀ u, m'.Holds u p true → u = t ∧ (x = true ∨ m.Holds t p true)
  written : x = true → m'.Holds t p true
  locked : ∃ y, m'.Holds t p y

lemma granted_tryAcquire (hm : m.Tight) (h : (m.tryAcquire t p x).2 = true) :
    m.Granted t p x (m.tryAcquire t p x).1 := by
  obtain ⟨s, hs, hlocks, -⟩ :=
    tryAcquire_granted (t := t) (p := p) (x := x) hm (by simp [Refuses, h])
  have hp : (m.tryAcquire t p x).1.locks p = some s := by rw [hlocks, update_self]
  have hold {u : τ} {y : Bool} (hu : (m.tryAcquire t p x).1.Holds u p y) :
      u ∈ s.holders ∧ s.exclusive = y := by
    obtain ⟨s', hs', hmem, hex⟩ := hu
    obtain rfl := some.inj (hp.symm.trans hs')
    exact ⟨hmem, hex⟩
  have hstill {u : τ} {y : Bool} (hu : m.Holds u p y) : u ∈ s.holders := by
    by_cases hut : u = t
    · exact hut ▸ hs.holder
    · exact (hs.others u hut).mpr (holdsLock_iff.mpr ⟨y, hu⟩)
  refine ⟨hm.grant hs hlocks, fun q hq => by rw [hlocks, update_of_ne hq], ?_, ?_, ?_, ?_,
    ?_, ⟨s.exclusive, s, hp, hs.holder, rfl⟩⟩
  · intro u hu
    obtain ⟨s₀, hs₀, -, hex⟩ := id hu
    exact ⟨s, hp, hstill hu, hs.kept s₀ hs₀ hex⟩
  · exact fun u y hu => ⟨s.exclusive, s, hp, hstill hu, rfl⟩
  · intro u y hu
    by_cases hut : u = t
    · exact .inl hut
    · exact .inr (holdsLock_iff.mp ((hs.others u hut).mp (hold hu).1))
  · intro u hu
    obtain ⟨hmem, hex⟩ := hold hu
    rw [hs.alone hex, mem_singleton] at hmem
    exact ⟨hmem, hs.asked hex⟩
  · exact fun hx => ⟨s, hp, hs.holder, hs.mode hx⟩

/-- The transaction is noted as waiting. -/
def waits (m : LockManager τ π) (t : τ) (p : π) : LockManager τ π :=
  { m with waitingFor := m.waitingFor.insert t p }

lemma apply_attempt (hm : m.Tight) (t : τ) (p : π) (x : Bool) :
    (¬ m.Refuses t p x ∧ (m.apply (.attempt t p x)).2 = .granted ∧ (∃ s, m.Grants t p x s ∧
        (m.apply (.attempt t p x)).1.locks = Function.update m.locks p (some s)) ∧
      (m.apply (.attempt t p x)).1.waitingFor = m.waitingFor.erase t) ∨
    (m.Refuses t p x ∧ (m.apply (.attempt t p x)).1.locks = m.locks ∧
      (((m.waits t p).hasDeadlock t = true ∧ (m.apply (.attempt t p x)).2 = .aborted ∧
          (m.apply (.attempt t p x)).1.waitingFor = (m.waits t p).waitingFor.erase t) ∨
        ((m.waits t p).hasDeadlock t = false ∧
          m.apply (.attempt t p x) = (m.waits t p, .waiting)))) := by
  by_cases hrefuse : m.Refuses t p x
  · have htry : m.tryAcquire t p x = (m, false) := Prod.ext (tryAcquire_refused hrefuse).1 hrefuse
    have happly : m.apply (.attempt t p x) = if (m.waits t p).hasDeadlock t then
        ({ m with waitingFor := (m.waits t p).waitingFor.erase t }, .aborted)
        else (m.waits t p, .waiting) := by
      rw [apply, htry]
      rfl
    refine .inr ⟨hrefuse, ?_⟩
    rw [happly]
    cases hdead : (m.waits t p).hasDeadlock t
    · exact ⟨rfl, .inr ⟨rfl, rfl⟩⟩
    · exact ⟨rfl, .inl ⟨rfl, rfl, rfl⟩⟩
  · obtain ⟨s, hs, hlocks, hwaiting⟩ := tryAcquire_granted hm hrefuse
    have htry : m.tryAcquire t p x = ((m.tryAcquire t p x).1, true) :=
      Prod.ext rfl (by simpa [Refuses] using hrefuse)
    refine .inl ⟨hrefuse, ?_⟩
    rw [apply, htry]
    exact ⟨rfl, ⟨s, hs, hlocks⟩, by rw [← hwaiting]⟩

end LockManager

/-! ## Histories -/

/-- A lock that was granted and not released since. -/
def Unreleased (hist : LockHistory τ π) (t : τ) (p : π) (x : Bool) : Prop :=
  ∃ old new, hist = old ++ (.attempt t p x, .granted) :: new ∧
    ∀ entry ∈ new, entry.1 ≠ .release t p ∧ entry.1 ≠ .releaseAll t

omit [DecidableEq τ] [DecidableEq π] in
lemma unreleased_append {hist : LockHistory τ π} (h : Unreleased (hist ++ [(e, r)]) t p x) :
    (e = .attempt t p x ∧ r = .granted) ∨
      Unreleased hist t p x ∧ e ≠ .release t p ∧ e ≠ .releaseAll t := by
  obtain ⟨old, new, heq, hnew⟩ := h
  rcases eq_nil_or_concat new with rfl | ⟨new, last, rfl⟩
  · obtain ⟨-, hlast⟩ := append_inj' heq rfl
    exact .inl (Prod.mk.inj (List.cons.inj hlast).1)
  · rw [concat_eq_append] at heq hnew
    rw [← cons_append, ← append_assoc] at heq
    obtain ⟨hhist, hlast⟩ := append_inj' heq rfl
    obtain rfl : (e, r) = last := by simpa using hlast
    exact .inr ⟨⟨old, new, hhist, fun entry hentry => hnew entry (by simp [hentry])⟩,
      hnew (e, r) (by simp)⟩

/-- **The invariant.**  The table has the locks that were granted and not released. -/
structure LockSafe (m : LockManager τ π) (hist : LockHistory τ π) : Prop where
  tight : m.Tight
  write : ∀ t p, Unreleased hist t p true → m.Holds t p true
  read : ∀ t p, Unreleased hist t p false → ∃ x, m.Holds t p x

lemma runLocks_append (evs : List (LockEvent τ π)) (e : LockEvent τ π) :
    runLocks (evs ++ [e]) = (((runLocks evs).1.apply e).1,
      (runLocks evs).2 ++ [(e, ((runLocks evs).1.apply e).2)]) := by
  simp [runLocks]

theorem runLocks_induction {J : LockManager τ π → LockHistory τ π → Prop} (hstart : J .empty [])
    (hstep : ∀ m hist e, J m hist → J (m.apply e).1 (hist ++ [(e, (m.apply e).2)]))
    (evs : List (LockEvent τ π)) : J (runLocks evs).1 (runLocks evs).2 := by
  induction evs using List.reverseRecOn with
  | nil => exact hstart
  | append_singleton evs e ih =>
    rw [runLocks_append]
    exact hstep _ _ e ih

namespace LockSafe

variable {hist : LockHistory τ π}

omit [DecidableEq τ] [DecidableEq π] in
lemma idle (h : LockSafe m hist) (hlocks : m'.locks = m.locks)
    (hr : r ≠ .granted) : LockSafe m' (hist ++ [(e, r)]) := by
  have hholds (t : τ) (p : π) (x : Bool) : m'.Holds t p x ↔ m.Holds t p x := by
    simp [LockManager.Holds, hlocks]
  have hold {t : τ} {p : π} {x : Bool} (hgrant : Unreleased (hist ++ [(e, r)]) t p x) :
      Unreleased hist t p x := by
    rcases unreleased_append hgrant with ⟨-, heq⟩ | ⟨hgrant, -⟩
    · exact absurd heq hr
    · exact hgrant
  refine ⟨⟨?_, ?_⟩, fun t p hgrant => (hholds _ _ _).mpr (h.write t p (hold hgrant)),
    fun t p hgrant => ?_⟩
  · rw [hlocks]
    exact h.tight.occupied
  · rw [hlocks]
    exact h.tight.single
  · obtain ⟨x, hx⟩ := h.read t p (hold hgrant)
    exact ⟨x, (hholds _ _ _).mpr hx⟩

lemma grant (h : LockSafe m hist) (hs : m.Grants t p x s)
    (hlocks : m'.locks = Function.update m.locks p (some s)) :
    LockSafe m' (hist ++ [(.attempt t p x, .granted)]) := by
  have hpage : m'.locks p = some s := by rw [hlocks, update_self]
  have hother {q : π} (hq : q ≠ p) : m'.locks q = m.locks q := by
    rw [hlocks, update_of_ne hq]
  -- a lock that was there is still there; on the page itself it may have become exclusive
  have hkept {u : τ} {q : π} {y : Bool} (hu : m.Holds u q y) :
      ∃ z, m'.Holds u q z ∧ (y = true → z = true) := by
    obtain ⟨s₀, hs₀, hmem, rfl⟩ := hu
    by_cases hq : q = p
    · subst hq
      refine ⟨s.exclusive, ⟨s, hpage, ?_, rfl⟩, hs.kept s₀ hs₀⟩
      by_cases hut : u = t
      · exact hut ▸ hs.holder
      · exact (hs.others u hut).mpr (by simp [LockManager.holdsLock, hs₀, hmem])
    · exact ⟨s₀.exclusive, ⟨s₀, (hother hq).trans hs₀, hmem, rfl⟩, id⟩
  refine ⟨h.tight.grant hs hlocks, fun u q hgrant => ?_, fun u q hgrant => ?_⟩
  · rcases unreleased_append hgrant with ⟨heq, -⟩ | ⟨hgrant, -⟩
    · obtain ⟨rfl, rfl, rfl⟩ : t = u ∧ p = q ∧ x = true := by simpa using heq
      exact ⟨s, hpage, hs.holder, hs.mode rfl⟩
    · obtain ⟨z, hz, hmode⟩ := hkept (h.write u q hgrant)
      exact hmode rfl ▸ hz
  · rcases unreleased_append hgrant with ⟨heq, -⟩ | ⟨hgrant, -⟩
    · obtain ⟨rfl, rfl, -⟩ : t = u ∧ p = q ∧ x = false := by simpa using heq
      exact ⟨_, s, hpage, hs.holder, rfl⟩
    · obtain ⟨y, hy⟩ := h.read u q hgrant
      obtain ⟨z, hz, -⟩ := hkept hy
      exact ⟨z, hz⟩

omit [DecidableEq π] in
lemma drop (h : LockSafe m hist) (gone : π → Bool) (hlocks : ∀ q, m'.locks q =
      if gone q then (m.locks q).bind (LockState.without t) else m.locks q)
    (hgone : ∀ q, gone q = true → e = .release t q ∨ e = .releaseAll t)
    (he : ∀ u q x, e ≠ .attempt u q x) : LockSafe m' (hist ++ [(e, .done)]) := by
  have hholds {u : τ} {q : π} {x y : Bool} (hgrant : Unreleased (hist ++ [(e, .done)]) u q y) :
      m'.Holds u q x ↔ m.Holds u q x := by
    rcases unreleased_append hgrant with ⟨heq, -⟩ | ⟨-, hone, hall⟩
    · exact absurd heq (he u q y)
    · by_cases hut : u = t
      · subst hut
        have hstays : gone q = false := by
          by_contra hq
          rcases hgone q (by simpa using hq) with heq | heq
          · exact hone heq
          · exact hall heq
        simp [LockManager.Holds, hlocks q, hstays]
      · exact holds_drop_iff gone hlocks hut q x
  have hold {u : τ} {q : π} {y : Bool} (hgrant : Unreleased (hist ++ [(e, .done)]) u q y) :
      Unreleased hist u q y := by
    rcases unreleased_append hgrant with ⟨heq, -⟩ | ⟨hgrant, -⟩
    · exact absurd heq (he u q y)
    · exact hgrant
  refine ⟨h.tight.drop gone hlocks, fun u q hgrant =>
    (hholds hgrant).mpr (h.write u q (hold hgrant)),
    fun u q hgrant => ?_⟩
  obtain ⟨x, hx⟩ := h.read u q (hold hgrant)
  exact ⟨x, (hholds hgrant).mpr hx⟩

/-- **One step.** -/
lemma apply (h : LockSafe m hist) (e : LockEvent τ π) :
    LockSafe (m.apply e).1 (hist ++ [(e, (m.apply e).2)]) := by
  cases e with
  | attempt t p x =>
    obtain ⟨-, hreply, ⟨s, hs, hlocks⟩, -⟩ | ⟨-, hlocks, hreply⟩ :=
      apply_attempt h.tight t p x
    · rw [hreply]
      exact h.grant hs hlocks
    · refine h.idle hlocks ?_
      rcases hreply with ⟨-, hreply, -⟩ | ⟨-, hreply⟩
      · simp [hreply]
      · simp [hreply]
  | interrupt t =>
    have hlocks : (m.apply (.interrupt t)).1.locks = m.locks := rfl
    exact h.idle hlocks (by simp [LockManager.apply])
  | release t p =>
    refine h.drop (t := t) (fun q => q = p) (fun q => ?_) (fun q hq => ?_) (by simp)
    · have hlocks := release_locks h.tight t p q
      simpa [LockManager.apply] using hlocks
    · exact .inl (by simp_all)
  | releaseAll t =>
    exact h.drop (t := t) (fun _ => true) (fun q => rfl) (fun _ _ => .inr rfl) (by simp)

end LockSafe

lemma runLocks_safe (evs : List (LockEvent τ π)) : LockSafe (runLocks evs).1 (runLocks evs).2 := by
  refine runLocks_induction ⟨⟨?_, ?_⟩, ?_, ?_⟩ (fun _ _ e h => h.apply e) evs
  · simp [LockManager.empty]
  · simp [LockManager.empty]
  · simp [Unreleased]
  · simp [Unreleased]

/-- **Locks exclude.**  In every run, every page in the table has a holder and an exclusive one has
exactly one; whoever was granted a page and has not released it holds it, for writing alone and
exclusively; and `releaseAll` takes a transaction from every page and leaves the others. -/
theorem locks_exclude (evs : List (LockEvent τ π)) : let m := (runLocks evs).1
    let hist := (runLocks evs).2
    (∀ p s, m.locks p = some s → s.holders ≠ []) ∧
    (∀ p s, m.locks p = some s → s.exclusive = true → ∃ t, s.holders = [t]) ∧
    (∀ t p, Unreleased hist t p true →
      ∃ s, m.locks p = some s ∧ s.holders = [t] ∧ s.exclusive = true) ∧
    (∀ t p, Unreleased hist t p false → m.holdsLock t p = true) ∧
    ∀ t, (∀ p, (m.releaseAll t).holdsLock t p = false) ∧
      (∀ u, u ≠ t → ∀ p x, (m.releaseAll t).Holds u p x ↔ m.Holds u p x) ∧
      (∀ p, m.holdsLock t p = false → (m.releaseAll t).locks p = m.locks p) ∧
      (m.releaseAll t).waitingFor = m.waitingFor := by
  intro m hist
  have hsafe : LockSafe m hist := runLocks_safe evs
  refine ⟨hsafe.tight.occupied, hsafe.tight.single, fun t p hgrant => ?_, fun t p hgrant => ?_,
    fun t => ⟨fun p => ?_, fun u hut p x => ?_, fun p hnot => ?_, rfl⟩⟩
  · obtain ⟨s, hs, hmem, hex⟩ := hsafe.write t p hgrant
    obtain ⟨u, hu⟩ := hsafe.tight.single p s hs hex
    rw [hu, mem_singleton] at hmem
    exact ⟨s, hs, hmem ▸ hu, hex⟩
  · obtain ⟨x, s, hs, hmem, -⟩ := hsafe.read t p hgrant
    simp [LockManager.holdsLock, hs, hmem]
  · unfold LockManager.holdsLock LockManager.releaseAll
    dsimp only
    cases hp : (m.locks p).bind (LockState.without t) with
    | none => rfl
    | some s' =>
      obtain ⟨s, -, hwithout⟩ := bind_eq_some_iff.mp hp
      simpa using fun hmem => (((without_eq_some hwithout).1 t).mp hmem).1 rfl
  · exact holds_drop_iff (fun _ => true) (fun q => rfl) hut p x
  · change (m.locks p).bind (LockState.without t) = m.locks p
    cases hp : m.locks p with
    | none => rfl
    | some s =>
      have hmem : t ∉ s.holders := by simpa [LockManager.holdsLock, hp] using hnot
      rw [bind_some, without_of_notMem hmem]

/-! ## Deadlocks -/

omit [DecidableEq π] in
lemma LockManager.mem_waitEdges : u ∈ m.waitEdges t ↔
    ∃ p s, m.waitingFor.lookup t = some p ∧ m.locks p = some s ∧ u ∈ s.holders.erase t := by
  unfold LockManager.waitEdges
  cases hlook : m.waitingFor.lookup t with
  | none => simp
  | some p =>
    cases hp : m.locks p with
    | none => simp [hp]
    | some s => simp [hp]

omit [DecidableEq π] in
theorem LockManager.hasDeadlock_iff (m : LockManager τ π) (t : τ) :
    m.hasDeadlock t = true ↔ Relation.TransGen (EdgeTo m.waitEdges) t t := by
  refine search_iff m.waitingFor.keys_nodup (fun u hu => ?_) t
  obtain ⟨v, hv⟩ := exists_mem_of_ne_nil _ hu
  obtain ⟨p, -, hlook, -⟩ := mem_waitEdges.mp hv
  exact AList.mem_keys.mp (lookup_isSome.mp (by simp [hlook]))

/-- The attempt that a transaction was told to wait with. -/
def pendingIn (hist : LockHistory τ π) (t : τ) : Option (π × Bool) :=
  hist.foldl (fun pending entry =>
    match entry with
    | (.attempt u p x, r) => if u = t then (if r = .waiting then some (p, x) else none) else pending
    | (.interrupt u, _) => if u = t then none else pending
    | _ => pending) none

/-- A pending attempt is refused because of another holder. -/
def BlockedBy (m : LockManager τ π) (pending : τ → Option (π × Bool)) (t u : τ) : Prop :=
  ∃ p x, pending t = some (p, x) ∧ m.Refuses t p x ∧ u ≠ t ∧
    ∃ s, m.locks p = some s ∧ u ∈ s.holders ∧ (x = true ∨ s.exclusive = true)

omit [DecidableEq π] in
lemma pendingIn_append (hist : LockHistory τ π) (e : LockEvent τ π) (r : LockReply) (t : τ) :
    pendingIn (hist ++ [(e, r)]) t =
      match e with
      | .attempt u p x =>
        if u = t then (if r = .waiting then some (p, x) else none) else pendingIn hist t
      | .interrupt u => if u = t then none else pendingIn hist t
      | _ => pendingIn hist t := by
  simp only [pendingIn, foldl_append, foldl_cons, foldl_nil]
  cases e <;> rfl

lemma waitingFor_eq (evs : List (LockEvent τ π)) (t : τ) :
    (runLocks evs).1.waitingFor.lookup t = (pendingIn (runLocks evs).2 t).map Prod.fst := by
  refine (runLocks_induction (J := fun m hist => LockSafe m hist ∧
    ∀ t, m.waitingFor.lookup t = (pendingIn hist t).map Prod.fst) ⟨runLocks_safe [], ?_⟩ ?_ evs).2 t
  · simp [LockManager.empty, pendingIn]
  · rintro m hist e ⟨hsafe, hwait⟩
    refine ⟨hsafe.apply e, fun t => ?_⟩
    rw [pendingIn_append]
    cases e with
    | attempt u p x =>
      have herase (w : AList fun _ : τ => π) : (w.erase u).lookup t =
          if u = t then none else w.lookup t := by
        split_ifs with hut
        · rw [hut, lookup_erase]
        · rw [lookup_erase_ne (Ne.symm hut)]
      have hinsert :
          (m.waits u p).waitingFor.lookup t = if u = t then some p else m.waitingFor.lookup t := by
        split_ifs with hut
        · rw [hut]
          exact lookup_insert _
        · exact lookup_insert_ne (Ne.symm hut)
      obtain ⟨-, hreply, -, hw⟩ | ⟨-, -, ⟨-, hreply, hw⟩ | ⟨-, happly⟩⟩ :=
        apply_attempt hsafe.tight u p x
      · rw [hw, herase, hreply]
        by_cases hut : u = t <;> simp [hut, hwait t]
      · rw [hw, herase, hinsert, hreply]
        by_cases hut : u = t <;> simp [hut, hwait t]
      · rw [happly, hinsert]
        by_cases hut : u = t <;> simp [hut, hwait t]
    | interrupt u =>
      by_cases hut : u = t
      · subst hut
        simp [LockManager.apply]
      · simp [LockManager.apply, hut, lookup_erase_ne (Ne.symm hut), hwait t]
    | release u p =>
      refine Eq.trans ?_ (hwait t)
      change (m.release u p).waitingFor.lookup t = _
      unfold LockManager.release
      split
      · rfl
      · split_ifs <;> rfl
    | releaseAll u => exact hwait t

lemma blockedBy_of_refuses {pending : τ → Option (π × Bool)} (hpending : pending t = some (p, x))
    (hrefuse : m.Refuses t p x) (hs : m.locks p = some s)
    (hu : u ∈ s.holders.erase t) : BlockedBy m pending t u := by
  obtain ⟨-, s₀, hs₀, -, hconflict⟩ := tryAcquire_refused hrefuse
  obtain rfl : s = s₀ := some.inj (hs.symm.trans hs₀)
  obtain ⟨hut, hmem⟩ := s.nodup.mem_erase_iff.mp hu
  refine ⟨p, x, hpending, hrefuse, hut, s, hs, hmem, ?_⟩
  rcases hconflict with ⟨-, -, hx, -⟩ | ⟨-, hmode⟩
  · exact .inl hx
  · exact hmode

/-- The pending attempts, with one more. -/
def pendingWith (hist : LockHistory τ π) (t : τ) (p : π) (x : Bool) : τ → Option (π × Bool) :=
  Function.update (pendingIn hist) t (some (p, x))

/-- A cycle of distinct transactions from the requester back to it, each with a pending request
refused because of a lock of the next. -/
def DeadlockAt (m : LockManager τ π) (pending : τ → Option (π × Bool)) (t : τ) : Prop :=
  ∃ others, (t :: others).Nodup ∧ (t :: others).IsChain (BlockedBy m pending) ∧
    ∃ last, (t :: others).getLast? = some last ∧ BlockedBy m pending last t

/-- **Deadlocks.**  Where everybody else who waits would be refused again, `acquire` throws only
for a deadlock. -/
theorem deadlock_genuine (evs : List (LockEvent τ π)) (t : τ) (p : π) (x : Bool)
    (hstale : ∀ u, u ≠ t → ∀ q y, pendingIn (runLocks evs).2 u = some (q, y) →
      (runLocks evs).1.Refuses u q y)
    (habort : ((runLocks evs).1.apply (.attempt t p x)).2 = .aborted) :
    DeadlockAt (runLocks evs).1 (pendingWith (runLocks evs).2 t p x) t := by
  have htight := (runLocks_safe evs).tight
  have hwait := waitingFor_eq evs
  generalize (runLocks evs).1 = m at *
  generalize (runLocks evs).2 = hist at *
  obtain ⟨-, hreply, -⟩ | ⟨hrefuse, -, ⟨hdead, -⟩ | ⟨-, happly⟩⟩ :=
    apply_attempt htight t p x
  · simp [hreply] at habort
  · obtain ⟨others, hnodup, hchain, last, hlast, hback⟩ :=
      exists_nodup_walk ((hasDeadlock_iff _ t).mp hdead)
    -- every edge the search has followed is a refused request
    have hedge {a b : τ} (hab : EdgeTo (m.waits t p).waitEdges a b) :
        BlockedBy m (pendingWith hist t p x) a b := by
      obtain ⟨q, s, hlook, hs, hmem⟩ := mem_waitEdges.mp hab
      have hs' : m.locks q = some s := hs
      by_cases hat : a = t
      · subst hat
        obtain rfl : p = q := some.inj ((lookup_insert _).symm.trans hlook)
        exact blockedBy_of_refuses (by simp [pendingWith]) hrefuse hs' hmem
      · have hpage : (pendingIn hist a).map Prod.fst = some q := by
          rw [← hwait a, ← hlook]
          exact (lookup_insert_ne hat).symm
        obtain ⟨⟨q, y⟩, hpend, rfl⟩ := map_eq_some_iff.mp hpage
        exact blockedBy_of_refuses (by simp [pendingWith, hat, hpend]) (hstale a hat q y hpend) hs'
          hmem
    exact ⟨others, hnodup, hchain.imp fun _ _ => hedge, last, hlast, hedge hback⟩
  · simp [happly] at habort

def crossedLocks : List (LockEvent ℕ ℕ) :=
  [.attempt 1 10 true, .attempt 2 20 true, .attempt 1 20 true]

theorem crossed_deadlock_genuine : DeadlockAt (runLocks crossedLocks).1
    (pendingWith (runLocks crossedLocks).2 2 10 false) 2 := by
  refine deadlock_genuine crossedLocks 2 10 false (fun u hu q y hpend => ?_) (by decide)
  by_cases hone : u = 1
  · subst hone
    obtain ⟨rfl, rfl⟩ : 20 = q ∧ true = y :=
      Prod.mk.inj (some.inj ((by decide : some (20, true) = _).trans hpend))
    decide
  · have hnone : pendingIn (runLocks crossedLocks).2 u = none := by
      have hhist : (runLocks crossedLocks).2 = [(.attempt 1 10 true, .granted),
          (.attempt 2 20 true, .granted), (.attempt 1 20 true, .waiting)] := by decide
      simp [hhist, pendingIn, Ne.symm hone]
    exact absurd hpend (by simp [hnone])

def staleWait : List (LockEvent ℕ ℕ) :=
  [.attempt 1 10 true, .attempt 2 20 true, .attempt 2 10 false, .releaseAll 1, .attempt 3 10 false]

/-- Transaction 3 now shares page 10, which 2 could have as well, and asks for page 20 of 2: it is
aborted, although 2 waits for nobody. -/
theorem stale_wait_aborted : ((runLocks staleWait).1.apply (.attempt 3 20 true)).2 = .aborted ∧
      ¬ DeadlockAt (runLocks staleWait).1 (pendingWith (runLocks staleWait).2 3 20 true) 3 := by
  refine ⟨by decide, ?_⟩
  rintro ⟨others, -, hchain, last, hlast, hback⟩
  have htwo (u : ℕ) : ¬ BlockedBy (runLocks staleWait).1
      (pendingWith (runLocks staleWait).2 3 20 true) 2 u := by
    rintro ⟨p, x, hpend, hrefuse, -⟩
    obtain ⟨rfl, rfl⟩ : 10 = p ∧ false = x :=
      Prod.mk.inj (some.inj ((by decide : some (10, false) = _).trans hpend))
    exact absurd hrefuse (by decide)
  have hthree (u : ℕ) (h : BlockedBy (runLocks staleWait).1
      (pendingWith (runLocks staleWait).2 3 20 true) 3 u) : u = 2 := by
    obtain ⟨p, x, hpend, -, -, s, hs, hmem, -⟩ := h
    obtain ⟨rfl, rfl⟩ : 20 = p ∧ true = x :=
      Prod.mk.inj (some.inj ((by decide : some (20, true) = _).trans hpend))
    have hpage : (runLocks staleWait).1.locks 20 = some ⟨[2], by decide, true⟩ := by decide
    obtain rfl := some.inj (hpage.symm.trans hs)
    simpa using hmem
  cases others with
  | nil =>
    obtain rfl : 3 = last := by simpa using hlast
    exact absurd (hthree 3 hback) (by decide)
  | cons u rest =>
    rw [isChain_cons_cons] at hchain
    obtain rfl := hthree u hchain.1
    cases rest with
    | nil =>
      obtain rfl : 2 = last := by simpa using hlast
      exact htwo 3 hback
    | cons v rest => exact htwo v (isChain_cons_cons.mp hchain.2).1

end BallotBox.SimpleDb