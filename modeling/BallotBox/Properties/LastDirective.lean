import BallotBox.Construction.RcFile

/-!
# The directive in force

The last line that assigns the key decides, unless it is too long to be read.  A value is written to
`out` when it is met, so an earlier one stays there if the last one is not accepted and there is no
fallback to replace it (`last_directive_iff`).
-/

namespace BallotBox

open List

variable {key text v : Bytes} {cap : ℕ} {r : RcLookup} {vs : List Bytes}

/-- The values that the lines give to the key. -/
def assigned (key text : Bytes) : List Bytes := (text.splitOn lf).filterMap (rcValue key)

/-- Those of the lines that fit the buffer. -/
def readValues (key text : Bytes) : List Bytes :=
  ((text.splitOn lf).filter (·.length < rcLineLen)).filterMap (rcValue key)

/-- A value that is not empty and fits. -/
def Accepted (cap : ℕ) (v : Bytes) : Prop := v ≠ [] ∧ v.length < cap

instance : DecidablePred (Accepted cap) := fun _ => inferInstanceAs (Decidable (_ ∧ _))

/-- The last of the values, if there is one; and that value, if it is accepted. -/
def inForce (cap : ℕ) (vs : List Bytes) : Option (Option Bytes) :=
  vs.getLast?.map fun v => if Accepted cap v then some v else none

/-- The status for what was found. -/
def rcStatus : Option (Option Bytes) → RcStatus
  | none => .absent
  | some none => .invalid
  | some (some _) => .found

/-- What `rc.h` says of a call, if this is in force. -/
def rcPromised (cap : ℕ) (force : Option (Option Bytes)) (fallback : Option Bytes) (out : Bytes) :
    RcLookup :=
  ⟨rcStatus force, force.join.getD ((fallback.map (·.take (cap - 1))).getD out)⟩

/-! ## What is read -/

lemma foldl_readLine (lines : List Bytes) (r : RcLookup) : lines.foldl (.readLine key cap) r =
    ((lines.filter (·.length < rcLineLen)).filterMap (rcValue key)).foldl (.assign cap) r := by
  induction lines generalizing r with
  | nil => rfl
  | cons line lines ih =>
    rw [foldl_cons, ih, RcLookup.readLine]
    by_cases hlen : line.length < rcLineLen
    · cases hvalue : rcValue key line <;> simp [hlen, hvalue]
    · simp [hlen]

lemma lookup_eq (r : RcLookup) (text : Bytes) :
    r.lookup key cap text = (readValues key text).foldl (.assign cap) r := by
  rw [readValues, ← foldl_readLine]
  fun_induction RcLookup.lookup key cap r text with
  | case1 r => simp [RcLookup.readLine, rcValue]
  | case2 r rest hne r₁ hlf ih =>
    obtain ⟨line, after, rfl, hline⟩ := eq_append_cons_of_mem hlf
    have hne (c : UInt8) (hc : c ∈ line) : decide (c ≠ lf) = true := by
      simpa using fun h : c = lf => hline (h ▸ hc)
    rw [ih, splitOn_append_cons hline]
    simp only [r₁, dropWhile_append_of_pos hne, takeWhile_append_of_pos hne]
    simp
  | case3 r rest hne r₁ hlf =>
    have hall : rest.takeWhile (· ≠ lf) = rest :=
      takeWhile_eq_self_iff.mpr fun c hc => by simpa using fun h : c = lf => hlf (h ▸ hc)
    rw [splitOn_eq_singleton hlf, foldl_cons, foldl_nil]
    exact congrArg (r.readLine key cap) hall

/-! ## What is written -/

/-- The last value that fits. -/
def lastAccepted (cap : ℕ) (vs : List Bytes) : Option Bytes :=
  (vs.filter fun v => Accepted cap v).getLast?

lemma inForce_concat (vs : List Bytes) (v : Bytes) :
    inForce cap (vs ++ [v]) = some (if Accepted cap v then some v else none) := by
  simp [inForce]

lemma lastAccepted_concat (vs : List Bytes) (v : Bytes) :
    lastAccepted cap (vs ++ [v]) = if Accepted cap v then some v else lastAccepted cap vs := by
  by_cases hv : Accepted cap v <;> simp [lastAccepted, hv]

lemma lastAccepted_eq_none : lastAccepted cap vs = none ↔ ∀ v ∈ vs, ¬ Accepted cap v := by
  simp [lastAccepted]

lemma ne_nil_of_lastAccepted (h : lastAccepted cap vs = some v) : v ≠ [] := by
  have hv := of_mem_filter (mem_of_getLast? h)
  exact (of_decide_eq_true hv).1

lemma lastAccepted_of_inForce (h : inForce cap vs = some (some v)) :
    lastAccepted cap vs = some v := by
  obtain rfl | ⟨ws, w, rfl⟩ := vs.eq_nil_or_concat
  · cases h
  · rw [concat_eq_append, inForce_concat] at h
    rw [concat_eq_append, lastAccepted_concat]
    split_ifs at h ⊢ with hw
    · exact Option.some.inj h
    · cases h

lemma foldl_assign (vs : List Bytes) (out : Bytes) : vs.foldl (RcLookup.assign cap) ⟨.absent, out⟩ =
      ⟨rcStatus (inForce cap vs), (lastAccepted cap vs).getD out⟩ := by
  induction vs using List.reverseRecOn with
  | nil => rfl
  | append_singleton vs v ih =>
    rw [foldl_concat, ih, inForce_concat, lastAccepted_concat, RcLookup.assign]
    by_cases hv : Accepted cap v
    · rw [if_neg (not_or.mpr ⟨hv.1, not_le.mpr hv.2⟩), if_pos hv, if_pos hv]
      rfl
    · rw [if_pos (by simpa [Accepted, or_iff_not_imp_left] using hv), if_neg hv, if_neg hv]
      rfl

/-! ## The call -/

lemma rcGet_eq (text key : Bytes) (fallback : Option Bytes) (out : Bytes) (hcap : 0 < cap) :
    rcGet (some text) key fallback out cap = rcPromised cap (inForce cap (readValues key text))
      fallback ((lastAccepted cap (readValues key text)).getD out) := by
  unfold rcGet
  simp only [lookup_eq, foldl_assign]
  rcases hforce : inForce cap (readValues key text) with _ | _ | v <;> cases fallback <;>
    simp [rcStatus, rcPromised, hcap.ne', lastAccepted_of_inForce, *]

/-- **The last directive is the one in force**, whatever `out` held, just if the lines that are too
long to be read make no difference and, without a fallback, no value was accepted before a last one
that is not. -/
theorem last_directive_iff (text key : Bytes) (cap : ℕ) (fallback : Option Bytes) (hcap : 0 < cap) :
    (∀ out, rcGet (some text) key fallback out cap =
      rcPromised cap (inForce cap (assigned key text)) fallback out) ↔
    inForce cap (readValues key text) = inForce cap (assigned key text) ∧
      (fallback = none → inForce cap (readValues key text) = some none →
        ∀ v ∈ readValues key text, ¬ Accepted cap v) := by
  constructor
  · intro h
    -- an empty string in `out` is told from every accepted value
    have hcall := (rcGet_eq text key fallback [] hcap).symm.trans (h [])
    obtain ⟨hfound, hout⟩ := RcLookup.mk.inj hcall
    rcases hread : inForce cap (readValues key text) with _ | _ | w <;>
      rcases hall : inForce cap (assigned key text) with _ | _ | v <;>
      simp only [hread, hall, rcStatus, reduceCtorEq] at hfound hout
    · exact ⟨rfl, nofun⟩
    · refine ⟨rfl, fun hnone _ => lastAccepted_eq_none.mp ?_⟩
      rw [hnone] at hout
      cases hlast : lastAccepted cap (readValues key text) with
      | none => rfl
      | some v =>
        rw [hlast] at hout
        exact absurd hout (ne_nil_of_lastAccepted hlast)
    · obtain rfl : w = v := hout
      exact ⟨rfl, nofun⟩
  · rintro ⟨hforce, hnone⟩ out
    rw [rcGet_eq text key fallback out hcap, ← hforce]
    cases fallback with
    | some default => rfl
    | none =>
      rcases hread : inForce cap (readValues key text) with _ | _ | v
      · have hnil : readValues key text = [] := by simpa [inForce] using hread
        rw [hnil]
        rfl
      · rw [lastAccepted_eq_none.mpr (hnone rfl hread)]
        rfl
      · rfl

/-- The value before an empty one stays in `out`, and one that is too long for the buffer is not
seen. -/
theorem earlier_value_stays :
    rcGet (some (ascii "k=a\nk=")) (ascii "k") none [] 2 = ⟨.invalid, ascii "a"⟩ ∧
    (rcGet (some (ascii "k=a\nk=" ++ List.replicate 4160 98))
      (ascii "k") none [] 2).found = .found ∧
    inForce 2 (assigned (ascii "k") (ascii "k=a\nk=" ++ List.replicate 4160 98)) = some none := by
  rw [rcGet_eq _ _ _ _ (by decide), rcGet_eq _ _ _ _ (by decide)]
  decide +kernel

theorem directive_obeyed : rcGet (some (ascii "k=\n#k=b\n k = a b \r\n")) (ascii "k") none [] 4 =
    ⟨.found, ascii "a b"⟩ :=
  ((last_directive_iff _ (ascii "k") 4 none (by decide)).mpr
    ⟨by decide +kernel, fun _ h => absurd h (by decide +kernel)⟩ []).trans (by decide +kernel)

end BallotBox
