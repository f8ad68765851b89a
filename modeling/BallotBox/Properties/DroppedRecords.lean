import BallotBox.Construction.LogSender
import BallotBox.Framework.Runs

/-!
# Dropped records are reported once

Every call ends as a delivered record or as a drop, and every drop is reported or still to be
reported.  In between, a drop may be counted but not yet unreported, and a report delivered but not
yet subtracted; with those the accounts balance after every step.
-/

namespace BallotBox

open Option Function Finset

variable {τ : Type} [DecidableEq τ] {s s' : LogSender τ} {t : τ} {p :
    LogPoint} {ulongMax maxAttempts : ℕ}

namespace LogPoint

/-- A call that is neither delivered nor counted as a drop. -/
def uncounted : LogPoint → ℕ
  | trying | locked | connecting _ | sending _ _ | reconnecting _ _ | failing | dropping => 1
  | _ => 0

/-- A drop that is counted and not yet unreported. -/
def owed : LogPoint → ℕ
  | counted | raising _ => 1
  | _ => 0

/-- The drops that were reported and not yet subtracted. -/
def reported : LogPoint → ℕ
  | sent m => m
  | _ => 0

/-- The number of drops that a thread is about to report. -/
def snapshot : LogPoint → ℕ
  | connecting m | sending m _ | reconnecting m _ | sent m => m
  | _ => 0

/-- The thread holds the lock. -/
def holding : LogPoint → Bool
  | locked | connecting _ | sending _ _ | reconnecting _ _ | sent _ | leaving | failing => true
  | _ => false

lemma snapshot_eq_zero (h : p.holding = false) : p.snapshot = 0 := by
  cases p <;> simp_all [holding, snapshot]

end LogPoint

namespace LogSender

/-- Every call and every drop is accounted for. -/
structure Balanced [Fintype τ] (ulongMax : ℕ) (s : LogSender τ) : Prop where
  raising : ∀ t old, s.point t = .raising old → old < ulongMax
  holder : ∀ t, (s.point t).holding = true → s.lock = some t
  snapshot : ∀ t, (s.point t).snapshot ≤ s.unreported
  calls : s.calls = s.delivered.length + s.dropped + ∑ t, (s.point t).uncounted
  drops : s.dropped + ∑ t, (s.point t).reported =
    s.delivered.sum + s.unreported + ∑ t, (s.point t).owed

lemma sum_update [Fintype τ] (f : LogPoint → ℕ) (points : τ → LogPoint) (t : τ) (p : LogPoint) :
    ∑ u, f (Function.update points t p u) + f (points t) = ∑ u, f (points u) + f p := by
  have hsum (points : τ → LogPoint) : ∑ u, f (points u) =
      f (points t) + ∑ u ∈ univ.erase t, f (points u) := (add_sum_erase _ _ (mem_univ t)).symm
  have hrest : ∑ u ∈ univ.erase t, f (Function.update points t p u) =
      ∑ u ∈ univ.erase t, f (points u) :=
    sum_congr rfl fun u hu => by rw [update_of_ne (ne_of_mem_erase hu)]
  rw [hsum, hsum points, hrest, update_self]
  omega

/-- What a step of thread `t` to `p` has to keep in balance. -/
structure Moves (ulongMax : ℕ) (s : LogSender τ) (t : τ) (p : LogPoint) (s' : LogSender τ) :
    Prop where
  point : s'.point = Function.update s.point t p
  raising : ∀ old, p = .raising old → old < ulongMax
  holder : p.holding = true → s'.lock = some t
  others : ∀ u ≠ t, s.lock = some u → s'.lock = some u
  snapshot : p.snapshot ≤ s'.unreported
  unreported : s.unreported ≤ s'.unreported ∨ s.lock = some t
  calls : s'.calls + s.delivered.length + s.dropped + (s.point t).uncounted =
    s.calls + s'.delivered.length + s'.dropped + p.uncounted
  drops : s'.dropped + p.reported + s.delivered.sum + s.unreported + (s.point t).owed =
    s.dropped + (s.point t).reported + s'.delivered.sum + s'.unreported + p.owed

lemma Balanced.moves [Fintype τ] (h : s.Balanced ulongMax) (hm : s.Moves ulongMax t p s') :
    s'.Balanced ulongMax := by
  obtain ⟨hpoint, hraising, hholder, hothers, hsnap, hunrep, hcalls, hdrops⟩ := hm
  refine ⟨fun u old hu => ?_, fun u hu => ?_, fun u => ?_, ?_, ?_⟩
  · rw [hpoint] at hu
    by_cases hut : u = t
    · subst hut
      exact hraising old (by simpa using hu)
    · rw [update_of_ne hut] at hu
      exact h.raising u old hu
  · rw [hpoint] at hu
    by_cases hut : u = t
    · subst hut
      exact hholder (by simpa using hu)
    · rw [update_of_ne hut] at hu
      exact hothers u hut (h.holder u hu)
  · rw [hpoint]
    by_cases hut : u = t
    · subst hut
      simpa using hsnap
    · rw [update_of_ne hut]
      obtain hle | hlock := hunrep
      · exact (h.snapshot u).trans hle
      · have hfree : (s.point u).holding = false := by
          by_contra hhold
          have := h.holder u (by simpa using hhold)
          rw [hlock] at this
          exact hut (some.inj this).symm
        simp [LogPoint.snapshot_eq_zero hfree]
  · have hsum := sum_update LogPoint.uncounted s.point t p
    have hold := h.calls
    rw [hpoint]
    omega
  · have hrep := sum_update LogPoint.reported s.point t p
    have howed := sum_update LogPoint.owed s.point t p
    have hold := h.drops
    rw [hpoint]
    omega

/-- A step that only moves its thread, or opens and closes the socket. -/
lemma moves_goto {q : LogPoint} {fd : Bool} (hq : s.point t = q)
    (hraising : ∀ old, p = .raising old → old < ulongMax)
    (hholder : p.holding = true → s.lock = some t) (hsnap : p.snapshot ≤ s.unreported)
    (hsame : p.uncounted = q.uncounted ∧ p.reported = q.reported ∧ p.owed = q.owed) :
    s.Moves ulongMax t p { s.goto t p with fd := fd } where
  point := rfl
  raising := hraising
  holder := hholder
  others _ _ h := h
  snapshot := hsnap
  unreported := .inl le_rfl
  calls := by
    rw [hq, hsame.1]
    rfl
  drops := by
    rw [hq, hsame.2.1, hsame.2.2]
    rfl

open LogPoint in
/-- **One step.** -/
lemma exists_moves [Fintype τ] (h : s.Balanced ulongMax) (hdropped : s.dropped < ulongMax)
    (hunrep : s.unreported < ulongMax) {act : LogAction}
    (hstep : s.logVsend ulongMax maxAttempts t act = some s') : ∃ p, s.Moves ulongMax t p s' := by
  have hlock := h.holder t
  have hsnap := h.snapshot t
  unfold logVsend at hstep
  split at hstep
  · next hp =>
    obtain rfl := some.inj hstep
    refine ⟨_, rfl, ?_, ?_, fun _ _ hl => hl, ?_, .inl le_rfl, ?_, ?_⟩ <;> split_ifs <;>
      simp [holding, snapshot, uncounted, reported, owed, hp, goto, add_right_comm]
  · next hp =>
    split_ifs at hstep with hbusy hfree <;> obtain rfl := some.inj hstep
    · exact ⟨_, moves_goto hp (by simp) (by simp [holding]) (Nat.zero_le _) ⟨rfl, rfl, rfl⟩⟩
    · refine ⟨.locked, rfl, by simp, fun _ => rfl, by simp [hfree], Nat.zero_le _, .inl le_rfl,
        ?_, ?_⟩ <;>
        simp [uncounted, reported, owed, hp, goto]
  · next hp =>
    obtain rfl := some.inj hstep
    rw [hp] at hlock
    exact ⟨_, moves_goto hp (by simp) hlock le_rfl ⟨rfl, rfl, rfl⟩⟩
  · next m ok hp =>
    rw [hp] at hlock hsnap
    split_ifs at hstep <;> obtain rfl := some.inj hstep
    · exact ⟨_, moves_goto hp (by simp) hlock hsnap ⟨rfl, rfl, rfl⟩⟩
    · exact ⟨_, moves_goto hp (by simp) hlock (Nat.zero_le _) ⟨rfl, rfl, rfl⟩⟩
  · next m attempt result hp =>
    rw [hp] at hlock hsnap
    split_ifs at hstep
    · cases result <;> obtain rfl := some.inj hstep
      · refine ⟨.sent m, rfl, by simp, hlock, fun _ _ hl => hl, hsnap, .inl le_rfl, ?_, ?_⟩ <;>
          simp only [uncounted, reported, owed, hp, goto, List.length_append, List.sum_append,
            List.length_singleton, List.sum_singleton] <;> omega
      · exact ⟨_, moves_goto hp (by simp) hlock hsnap ⟨rfl, rfl, rfl⟩⟩
      · exact ⟨_, moves_goto hp (by simp) hlock (Nat.zero_le _) ⟨rfl, rfl, rfl⟩⟩
    · obtain rfl := some.inj hstep
      exact ⟨_, moves_goto hp (by simp) hlock (Nat.zero_le _) ⟨rfl, rfl, rfl⟩⟩
  · next m attempt ok hp =>
    rw [hp] at hlock hsnap
    split_ifs at hstep <;> obtain rfl := some.inj hstep
    · exact ⟨_, moves_goto hp (by simp) hlock hsnap ⟨rfl, rfl, rfl⟩⟩
    · exact ⟨_, moves_goto hp (by simp) hlock (Nat.zero_le _) ⟨rfl, rfl, rfl⟩⟩
  · next m hp =>
    obtain rfl := some.inj hstep
    rw [hp] at hlock hsnap
    have hle : m ≤ s.unreported := hsnap
    -- nobody else subtracts, so the difference does not wrap
    have hmod : (s.unreported + (ulongMax + 1) - m) % (ulongMax + 1) = s.unreported - m := by
      rw [Nat.sub_add_comm hle, Nat.add_mod_right, Nat.mod_eq_of_lt (by omega)]
    refine ⟨.leaving, rfl, by simp, hlock, fun _ _ hl => hl, Nat.zero_le _, .inr (hlock rfl),
      by simp [uncounted, hp, goto], ?_⟩
    simp only [reported, owed, hp, goto, hmod]
    omega
  · next hp =>
    obtain rfl := some.inj hstep
    refine ⟨.idle, rfl, by simp, by simp [holding], fun u hu hl => ?_, Nat.zero_le _,
      .inl le_rfl, ?_, ?_⟩
    · exact absurd (some.inj (hl.symm.trans (hlock (by rw [hp]; rfl)))) hu
    all_goals simp [uncounted, reported, owed, hp, goto]
  · next hp =>
    obtain rfl := some.inj hstep
    refine ⟨.dropping, rfl, by simp, by simp [holding], fun u hu hl => ?_, Nat.zero_le _,
      .inl le_rfl,
      ?_, ?_⟩
    · exact absurd (some.inj (hl.symm.trans (hlock (by rw [hp]; rfl)))) hu
    all_goals simp [uncounted, reported, owed, hp, goto]
  · next hp =>
    obtain rfl := some.inj hstep
    have hmod : (s.dropped + 1) % (ulongMax + 1) = s.dropped + 1 := Nat.mod_eq_of_lt (by omega)
    refine ⟨.counted, rfl, by simp, by simp [holding], fun _ _ hl => hl, Nat.zero_le _, .inl le_rfl,
      ?_, ?_⟩ <;> simp only [uncounted, reported, owed, hp, goto, hmod] <;> omega
  · next hp =>
    obtain rfl := some.inj hstep
    exact ⟨_,
      moves_goto hp (by simpa using hunrep) (by simp [holding]) (Nat.zero_le _) ⟨rfl, rfl, rfl⟩⟩
  · next old spurious hp =>
    have hold := h.raising t old hp
    rw [if_pos hold] at hstep
    split_ifs at hstep with hswap <;> obtain rfl := some.inj hstep
    · refine ⟨.idle, rfl, by simp, by simp [holding], fun _ _ hl => hl, Nat.zero_le _, .inl ?_,
        ?_, ?_⟩ <;>
        simp only [uncounted, reported, owed, hp, goto] <;> omega
    · exact ⟨_,
        moves_goto hp (by simpa using hunrep) (by simp [holding]) (Nat.zero_le _) ⟨rfl, rfl, rfl⟩⟩
  · cases hstep

/-! ## Runs -/

/-- The counters do not wrap. -/
def Below (ulongMax : ℕ) (s : LogSender τ) : Prop := s.dropped < ulongMax ∧ s.unreported < ulongMax

instance : Decidable (s.Below ulongMax) := inferInstanceAs (Decidable (_ ∧ _))

lemma balanced_run [Fintype τ] {fd : Bool} {evs : List (τ × LogAction)}
    (hbelow : EveryStep (step ulongMax maxAttempts) (fun _ s _ => s.Below ulongMax) { fd } evs)
    (hrun : execAll (step ulongMax maxAttempts) { fd } evs = some s) : s.Balanced ulongMax := by
  refine execAll_invariant (J := fun _ s => s.Balanced ulongMax) ?_
    (fun _ s e s' h hbelow hstep => ?_) hbelow hrun
  · refine ⟨by simp, by simp [LogPoint.holding], by simp [LogPoint.snapshot], ?_, ?_⟩ <;>
      simp [LogPoint.uncounted, LogPoint.reported, LogPoint.owed]
  · obtain ⟨p, hp⟩ := exists_moves h hbelow.1 hbelow.2 hstep
    exact h.moves hp

/-- **Dropped records.**  Whatever the threads do and the system calls return, when no call is in
progress every call was delivered or dropped, and every drop was reported by one delivered record or
is still unreported; and what is subtracted from `glb_unreported` is never more than it holds. -/
theorem drops_reported_once (τ : Type) [Fintype τ] [DecidableEq τ] (ulongMax maxAttempts : ℕ)
    (fd : Bool) (evs : List (τ × LogAction)) (s : LogSender τ)
    (hbelow : EveryStep (step ulongMax maxAttempts) (fun _ s _ => s.Below ulongMax) { fd } evs)
    (hrun : execAll (step ulongMax maxAttempts) { fd } evs = some s) :
    ((∀ t, s.point t = .idle) → s.calls = s.delivered.length + s.dropped ∧
      s.dropped = s.delivered.sum + s.unreported) ∧
    ∀ t m, s.point t = .sent m → m ≤ s.unreported := by
  have h := balanced_run hbelow hrun
  refine ⟨fun hidle => ⟨?_, ?_⟩, fun t m ht => ?_⟩
  · simpa [hidle, LogPoint.uncounted] using h.calls
  · simpa [hidle, LogPoint.reported, LogPoint.owed] using h.drops
  · simpa [ht, LogPoint.snapshot] using h.snapshot t

/-- One thread drops its record while the other sends; the next record reports it. -/
def contendedSends : List (Bool × LogAction) :=
  [(true, .call true), (true, .trylock false), (true, .load), (false, .call true),
    (true, .connect true), (false, .trylock true), (false, .count), (true, .send .whole),
    (true, .subtract), (false, .load), (true, .unlock), (false, .swap false), (true, .call true),
    (true, .trylock false), (true, .load), (true, .connect true), (true, .send .whole),
    (true, .subtract), (true, .unlock)]

theorem contended_sends_balance :
    ∃ s, execAll (step (2 ^ 64 - 1) 2) { fd := false } contendedSends = some s ∧
      s.delivered = [0, 1] ∧ s.calls = s.delivered.length + s.dropped ∧
        s.dropped = s.delivered.sum + s.unreported := by
  have hend : (execAll (step (2 ^ 64 - 1) 2) { fd := false } contendedSends).map
      (fun s => (s.delivered, s.point true, s.point false)) = some ([0, 1], .idle, .idle) := by
    decide +kernel
  have hcheck : checkSteps (step (2 ^ 64 - 1) 2) (fun s _ => decide (s.Below (2 ^ 64 - 1)))
      { fd := false } contendedSends = true := by decide +kernel
  obtain ⟨s, hrun, heq⟩ := Option.map_eq_some_iff.mp hend
  obtain ⟨hdelivered, htrue, hfalse⟩ : s.delivered = [0, 1] ∧ s.point true = .idle ∧
      s.point false = .idle := by simpa using heq
  refine ⟨s, hrun, hdelivered, (drops_reported_once Bool _ _ _ _ s (fun before e after h mid hmid =>
    of_decide_eq_true
      (everyStep_of_checkSteps hcheck before e after h mid hmid)) hrun).1 fun t => ?_⟩
  cases t
  · exact hfalse
  · exact htrue

end LogSender

end BallotBox
