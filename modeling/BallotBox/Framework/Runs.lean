import Mathlib

/-!
# Runs of a transition system

A system with a partial step function, where `none` says that an event cannot happen in the state.
`execAll_after` is the rule for what holds from some moment on, `execAll_invariant` the one for what
holds in every state of a run.
-/

namespace BallotBox

open List Option

variable {σ ε : Type*} {step : σ → ε → Option σ}
variable {s s' mid s₀ : σ} {evs evs' pre post : List ε} {e : ε} {C : List ε → σ → ε → Prop}
  {J : List ε → σ → Prop}

/-- The state after a list of events, if all of them can happen. -/
def execAll (step : σ → ε → Option σ) (s : σ) (evs : List ε) : Option σ := evs.foldlM step s

@[simp] lemma execAll_nil (s : σ) : execAll step s [] = some s := rfl

lemma execAll_append (s : σ) (evs evs' : List ε) :
    execAll step s (evs ++ evs') = (execAll step s evs).bind fun s' => execAll step s' evs' := by
  simp [execAll]

lemma execAll_concat (s : σ) (evs : List ε) (e : ε) :
    execAll step s (evs ++ [e]) = (execAll step s evs).bind fun s' => step s' e := by
  simp [execAll]

lemma execAll_append_eq_some (h : execAll step s (evs ++ evs') = some s') :
    ∃ mid, execAll step s evs = some mid ∧ execAll step mid evs' = some s' := by
  rw [execAll_append] at h
  exact bind_eq_some_iff.mp h

lemma execAll_concat_eq_some (h : execAll step s (evs ++ [e]) = some s') :
    ∃ mid, execAll step s evs = some mid ∧ step mid e = some s' := by
  rw [execAll_concat] at h
  exact bind_eq_some_iff.mp h

lemma execAll_cons_eq_some (h : execAll step s (pre ++ e :: post) = some s') :
    ∃ mid next, execAll step s pre = some mid ∧ step mid e = some next := by
  obtain ⟨mid, hmid, hrest⟩ := execAll_append_eq_some h
  rw [execAll, foldlM_cons] at hrest
  obtain ⟨next, hnext, -⟩ := bind_eq_some_iff.mp hrest
  exact ⟨mid, next, hmid, hnext⟩

/-- Every step of a run satisfies a condition on the events and the state before it and the event.
-/
def EveryStep (step : σ → ε → Option σ) (C : List ε → σ → ε → Prop) (s : σ) (evs : List ε) :
    Prop :=
  ∀ before e after, evs = before ++ e :: after →
    ∀ mid, execAll step s before = some mid → C before mid e

lemma EveryStep.of_append (h : EveryStep step C s (evs ++ evs')) : EveryStep step C s evs := by
  intro before e after heq mid hmid
  exact h before e (after ++ evs') (by simp [heq]) mid hmid

lemma EveryStep.last
    (h : EveryStep step C s (evs ++ [e])) (hmid : execAll step s evs = some mid) : C evs mid e :=
  h evs e [] rfl mid hmid

lemma EveryStep.and {D : List ε → σ → ε → Prop}
    (hC : EveryStep step C s evs) (hD : EveryStep step D s evs) :
    EveryStep step (fun before mid e => C before mid e ∧ D before mid e) s evs :=
  fun before e after heq mid hmid =>
    ⟨hC before e after heq mid hmid, hD before e after heq mid hmid⟩

lemma everyStep_of_getElem
    (h : ∀ i e, evs[i]? = some e → ∀ mid, execAll step s (evs.take i) = some mid →
      C (evs.take i) mid e) : EveryStep step C s evs := by
  intro before e after heq mid hmid
  have htake : evs.take before.length = before := by simp [heq]
  have hone := h before.length e (by simp [heq]) mid (by rwa [htake])
  rwa [htake] at hone

/-- Runs the events, looking at every step. -/
def checkSteps (step : σ → ε → Option σ) (ok : σ → ε → Bool) : σ → List ε → Bool
  | _, [] => true
  | s, e :: evs => ok s e && (step s e).all fun s' => checkSteps step ok s' evs

lemma everyStep_of_checkSteps {ok : σ → ε → Bool}
    (h : checkSteps step ok s evs = true) : EveryStep step (fun _ s e => ok s e = true) s evs := by
  intro before e after heq mid hmid
  induction before generalizing s evs with
  | nil =>
    subst heq
    obtain rfl := some.inj hmid
    rw [nil_append, checkSteps, Bool.and_eq_true] at h
    exact h.1
  | cons e' before ih =>
    subst heq
    rw [cons_append, checkSteps, Bool.and_eq_true] at h
    obtain ⟨s', hs', hrest⟩ := bind_eq_some_iff.mp hmid
    have hall := h.2
    rw [hs', all_some] at hall
    exact ih hall rfl hrest

lemma eq_of_execAll_map {β : Type*} (f : σ → β) {b : β}
    (hrun : execAll step s evs = some s') (hf : (execAll step s evs).map f = some b) :
    f s' = b := by
  rw [hrun] at hf
  exact some.inj hf

lemma everyStep_true (s : σ) (evs : List ε) : EveryStep step (fun _ _ _ => True) s evs :=
  fun _ _ _ _ _ _ => trivial

/-- **From some moment on.**  What holds in a state of a run and is kept by every step after it
holds at the end. -/
theorem execAll_after (hpre : execAll step s₀ pre = some mid) (hstart : J pre mid)
    (hstep : ∀ before e after, post = before ++ e :: after → ∀ s s',
      execAll step s₀ (pre ++ before) = some s → J (pre ++ before) s → step s e = some s' →
      J (pre ++ before ++ [e]) s')
    (hrun : execAll step s₀ (pre ++ post) = some s) : J (pre ++ post) s := by
  induction post using List.reverseRecOn generalizing s with
  | nil =>
    rw [append_nil] at hrun ⊢
    obtain rfl := some.inj (hpre.symm.trans hrun)
    exact hstart
  | append_singleton post e ih =>
    rw [← append_assoc] at hrun
    obtain ⟨last, hlast, hone⟩ := execAll_concat_eq_some hrun
    have hbefore :=
      ih (fun before e' after heq => hstep before e' (after ++ [e]) (by simp [heq])) hlast
    rw [← append_assoc]
    exact hstep post e [] rfl last s hlast hbefore hone

/-- **Invariants.**  What holds at the start and is kept by every step holds at the end of every
run. -/
theorem execAll_invariant (hstart : J [] s₀)
    (hstep : ∀ evs s e s', J evs s → C evs s e → step s e = some s' → J (evs ++ [e]) s')
    (hC : EveryStep step C s₀ evs) (hrun : execAll step s₀ evs = some s) :
    J evs s :=
  execAll_after (execAll_nil s₀) hstart (fun before e after heq mid s' hmid hJ hone =>
      hstep before mid e s' hJ (hC before e after heq mid hmid) hone) hrun

end BallotBox
