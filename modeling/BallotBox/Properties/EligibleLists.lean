import BallotBox.Construction.Admin
import BallotBox.Construction.Handlers

/-!
# Folding the list of voters

`bc_fold_eligible` folds in place while it checks, so a rejected list comes back with the entries
before the illegal one already folded: it is as it was exactly if they had no upper-case letter
(`rejected_untouched_iff`).
-/

namespace BallotBox

open CStr List

variable {α : Type} {c : UInt8} {entry : CStr bbCertLen}

/-! ## One entry -/

lemma map_eq_self_iff {f : α → α} {l : List α} : l.map f = l ↔ ∀ a ∈ l, f a = a := by
  induction l with
  | nil => simp
  | cons a l ih => simp [ih]

/-- The entries that the count covers. -/
def FoldArgs.entries {badCap : ℕ} (a : FoldArgs badCap) : List (CStr bbCertLen) :=
  a.out.take a.count.toNat

/-- The entry in lower case. -/
def lowerEntry (entry : CStr bbCertLen) : CStr bbCertLen := .ofBytes (entry.bytes.map lowerByte)

def isUpper (c : UInt8) : Bool := 65 ≤ c && c ≤ 90

lemma lowerByte_eq_zero (h : lowerByte c = 0) : c = 0 := by
  revert c
  decide +kernel

lemma lowerByte_lowerByte (c : UInt8) : lowerByte (lowerByte c) = lowerByte c := by
  revert c
  decide +kernel

lemma lowerByte_eq_self_iff : lowerByte c = c ↔ isUpper c = false := by
  revert c
  decide +kernel

lemma lowerEntry_bytes (entry : CStr bbCertLen) :
    (lowerEntry entry).bytes = entry.bytes.map lowerByte := by
  refine ofBytes_bytes ?_ ?_
  · rw [length_map]
    exact entry.fits
  · intro hzero
    obtain ⟨c, hc, hlower⟩ := mem_map.mp hzero
    exact entry.noNul (lowerByte_eq_zero hlower ▸ hc)

lemma lowerEntry_eq_self_iff : lowerEntry entry = entry ↔ ∀ c ∈ entry.bytes, isUpper c = false := by
  have hbytes : lowerEntry entry = entry ↔ entry.bytes.map lowerByte = entry.bytes := by
    rw [← lowerEntry_bytes]
    exact ⟨congrArg bytes, ext⟩
  rw [hbytes, map_eq_self_iff]
  simp only [lowerByte_eq_self_iff]

/-- A legal user name. -/
abbrev LegalName (entry : CStr bbCertLen) : Bool := userNameOk entry.bytes

lemma foldEntry_legal (h : LegalName entry = true) : foldEntry entry = some (lowerEntry entry) := by
  have hlen : (entry.bytes.map lowerByte).length ≤ maxUserName - 1 := by
    simp only [LegalName, userNameOk, Bool.and_eq_true, decide_eq_true_eq] at h
    rw [length_map]
    exact h.1.2
  have hnul : (0 : UInt8) ∉ entry.bytes.map lowerByte := by
    rw [← lowerEntry_bytes]
    exact (lowerEntry entry).noNul
  have hfolded : (ofBytes (entry.bytes.map lowerByte) : CStr maxUserName).bytes =
      entry.bytes.map lowerByte := ofBytes_bytes hlen hnul
  simp [foldEntry, userNameFold, h, hfolded, lowerEntry]

lemma foldEntry_illegal (h : LegalName entry = false) : foldEntry entry = none := by
  simp [foldEntry, h]

/-! ## The first loop -/

lemma foldLoop_eq (n : ℕ) (done todo : List (CStr bbCertLen)) :
    foldLoop n done.length (done ++ todo) = ((todo.take n).find? (! LegalName ·),
        done ++ ((todo.take n).takeWhile LegalName).map lowerEntry ++
          todo.drop ((todo.take n).takeWhile LegalName).length) := by
  induction n generalizing done todo with
  | zero => simp [foldLoop]
  | succ n ih =>
    cases todo with
    | nil => simp [foldLoop]
    | cons entry todo =>
      have hget : (done ++ entry :: todo)[done.length]? = some entry := by simp
      rw [foldLoop, hget]
      dsimp only
      cases hlegal : LegalName entry with
      | false => simp [foldEntry_illegal hlegal, hlegal]
      | true =>
        have hset : (done ++ entry :: todo).set done.length (lowerEntry entry) =
            (done ++ [lowerEntry entry]) ++ todo := by simp
        have hstep := ih (done ++ [lowerEntry entry]) todo
        rw [length_append, length_singleton] at hstep
        rw [foldEntry_legal hlegal]
        dsimp only
        rw [hset, hstep]
        simp [hlegal]

variable {badCap : ℕ}

lemma bcFoldEligible_rejected {a : FoldArgs badCap} {bad : CStr bbCertLen}
    (hbad : a.entries.find? (! LegalName ·) = some bad) :
    bcFoldEligible a = (-1, ⟨(a.entries.takeWhile LegalName).map lowerEntry ++
      a.out.drop (a.entries.takeWhile LegalName).length, a.count,
      a.badEntry.map fun _ => .ofBytes bad.bytes⟩) := by
  have hloop := foldLoop_eq a.count.toNat [] a.out
  rw [length_nil, nil_append, nil_append] at hloop
  rw [FoldArgs.entries] at hbad
  rw [bcFoldEligible, hloop, hbad]
  rfl

lemma bcFoldEligible_accepted {a : FoldArgs badCap} (hlegal : ∀ e ∈ a.entries, LegalName e = true) :
    bcFoldEligible a =
      let (kept, out) := dedupLoop a.count.toNat 0 0
        (a.entries.map lowerEntry ++ a.out.drop a.entries.length)
      (0, ⟨out, kept, a.badEntry⟩) := by
  have hloop := foldLoop_eq a.count.toNat [] a.out
  rw [length_nil, nil_append, nil_append] at hloop
  have hfind : (a.out.take a.count.toNat).find? (! LegalName ·) = none := by
    rw [find?_eq_none]
    intro e he
    simp [hlegal e he]
  have hall : (a.out.take a.count.toNat).takeWhile LegalName = a.out.take a.count.toNat :=
    takeWhile_eq_self_iff.mpr hlegal
  rw [bcFoldEligible, hloop, hfind, hall]
  rfl

/-! ## Rejected lists -/

/-- What is promised of a rejected list: it is as it was, and `bad_entry` has the first illegal
entry. -/
def RejectedUntouched (a : FoldArgs badCap) : Prop :=
  (bcFoldEligible a).1 = -1 →
    (bcFoldEligible a).2.out = a.out ∧ (bcFoldEligible a).2.count = a.count ∧
      ∃ bad, a.entries.find? (! LegalName ·) = some bad ∧
        (bcFoldEligible a).2.badEntry = a.badEntry.map fun _ => .ofBytes bad.bytes

/-- The entries before the first illegal one. -/
def legalStart (a : FoldArgs badCap) : List (CStr bbCertLen) := a.entries.takeWhile LegalName

lemma out_eq_legalStart_append (a : FoldArgs badCap) :
    a.out = legalStart a ++ a.out.drop (legalStart a).length := by
  have hstart : legalStart a <+: a.out :=
    (List.takeWhile_prefix _).trans (List.take_prefix _ _)
  obtain ⟨rest, hrest⟩ := hstart
  rw [← hrest, drop_left]

/-- **A rejected list is as it was exactly if nothing before the illegal entry had to be
folded.** -/
theorem rejected_untouched_iff (a : FoldArgs badCap) :
    RejectedUntouched a ↔
      ((∃ e ∈ a.entries, LegalName e = false) →
        ∀ e ∈ legalStart a, ∀ c ∈ e.bytes, isUpper c = false) := by
  by_cases hlegal : ∀ e ∈ a.entries, LegalName e = true
  · -- nothing is rejected
    have hrc : (bcFoldEligible a).1 = 0 := by rw [bcFoldEligible_accepted hlegal]
    constructor
    · rintro - ⟨e, he, hillegal⟩
      rw [hlegal e he] at hillegal
      cases hillegal
    · intro _ hrejected
      rw [hrc] at hrejected
      cases hrejected
  · have hillegal : ∃ e ∈ a.entries, LegalName e = false := by simpa using hlegal
    obtain ⟨bad, hbad⟩ : ∃ bad, a.entries.find? (! LegalName ·) = some bad := by
      rw [← Option.isSome_iff_exists, find?_isSome]
      simpa using hillegal
    have hout : (bcFoldEligible a).2.out = a.out ↔
        ∀ e ∈ legalStart a, ∀ c ∈ e.bytes, isUpper c = false := by
      rw [bcFoldEligible_rejected hbad]
      nth_rewrite 2 [out_eq_legalStart_append a]
      rw [legalStart, append_cancel_right_eq, map_eq_self_iff]
      simp only [lowerEntry_eq_self_iff]
    rw [← hout]
    constructor
    · intro huntouched _
      have hrc : (bcFoldEligible a).1 = -1 := by rw [bcFoldEligible_rejected hbad]
      exact (huntouched hrc).1
    · intro hsame _
      refine ⟨hsame hillegal, ?_, bad, hbad, ?_⟩
      · rw [bcFoldEligible_rejected hbad]
      · rw [bcFoldEligible_rejected hbad]

def mixedList : FoldArgs 32 :=
  ⟨[.ofBytes (ascii "Alice"), .ofBytes (ascii "b b")], 2, none⟩

/-- The list is rejected, and its first entry has been folded. -/
theorem mixedList_touched :
    (bcFoldEligible mixedList).1 = -1 ∧ (bcFoldEligible mixedList).2.out ≠ mixedList.out ∧
      (bcFoldEligible mixedList).2.out.map CStr.bytes = [ascii "alice", ascii "b b"] ∧
      ¬ RejectedUntouched mixedList := by
  have hrun : (bcFoldEligible mixedList).1 = -1 ∧
      (bcFoldEligible mixedList).2.out ≠ mixedList.out ∧
      (bcFoldEligible mixedList).2.out.map CStr.bytes = [ascii "alice", ascii "b b"] := by
    decide +kernel
  exact ⟨hrun.1, hrun.2.1, hrun.2.2, fun huntouched => hrun.2.1 (huntouched hrun.1).1⟩

/-! ## The second loop -/

lemma eraseDups_concat [DecidableEq α] (l : List α) (a : α) :
    (l ++ [a]).eraseDups = if a ∈ l then l.eraseDups else l.eraseDups ++ [a] := by
  rw [eraseDups_append]
  by_cases ha : a ∈ l
  · simp [List.removeAll, ha]
  · simp [List.removeAll, ha, eraseDups_cons]

lemma length_eraseDups_le_append [DecidableEq α] (l m : List α) :
    l.eraseDups.length ≤ (l ++ m).eraseDups.length := by
  rw [eraseDups_append, length_append]
  omega

lemma length_eraseDups_of_take {seen out : List (CStr bbCertLen)} {kept : ℕ}
    (hkept : out.take kept = seen.eraseDups) (hlen : kept ≤ out.length) :
    seen.eraseDups.length = kept := by
  rw [← hkept, length_take, min_eq_left hlen]

lemma dedupLoop_eq (n : ℕ) {seen out : List (CStr bbCertLen)} {kept : ℕ}
    (hkept : out.take kept = seen.eraseDups) (hle : kept ≤ seen.length) (hlen : kept ≤ out.length) :
    dedupLoop n seen.length kept out =
      let all := (seen ++ (out.drop seen.length).take n).eraseDups
      (all.length, all ++ out.drop all.length) := by
  induction n generalizing seen kept out with
  | zero =>
    simp only [dedupLoop, take_zero, append_nil, length_eraseDups_of_take hkept hlen]
    rw [← hkept, take_append_drop]
  | succ n ih =>
    rw [dedupLoop]
    cases hget : out[seen.length]? with
    | none =>
      have hend : out.drop seen.length = [] :=
        drop_eq_nil_of_le (List.getElem?_eq_none_iff.mp hget)
      simp only [hend, take_nil, append_nil, length_eraseDups_of_take hkept hlen]
      rw [← hkept, take_append_drop]
    | some entry =>
      obtain ⟨hi, hentry⟩ := List.getElem?_eq_some_iff.mp hget
      have htodo : out.drop seen.length = entry :: out.drop (seen.length + 1) := by
        rw [← hentry, drop_eq_getElem_cons hi]
      have hany : (out.take kept).any (·.bytes = entry.bytes) = true ↔ entry ∈ seen := by
        rw [hkept, any_eq_true, ← mem_eraseDups]
        constructor
        · intro ⟨e, he, hbytes⟩
          exact ext (decide_eq_true_eq.mp hbytes) ▸ he
        · intro he
          exact ⟨entry, he, by simp⟩
      dsimp only
      rw [htodo, take_succ_cons, append_cons]
      by_cases hdup : entry ∈ seen
      · -- the entry is dropped
        have hkept' : out.take kept = (seen ++ [entry]).eraseDups := by
          rw [eraseDups_concat, if_pos hdup, hkept]
        have hstep := ih hkept' (by rw [length_append]; omega) hlen
        rw [length_append, length_singleton] at hstep
        rw [if_pos (hany.mpr hdup), hstep]
      · -- the entry is kept; if it is in its place already, writing it there changes nothing
        have hwrite : (if kept ≠ seen.length then out.set kept entry else out) =
            out.set kept entry := by
          by_cases heq : kept = seen.length
          · subst heq
            rw [if_neg (by simp), ← hentry, set_getElem_self]
          · rw [if_pos heq]
        have hkept' : (out.set kept entry).take (kept + 1) = (seen ++ [entry]).eraseDups := by
          rw [eraseDups_concat, if_neg hdup, ← hkept, take_add_one, take_set_of_le le_rfl,
            getElem?_set_self (by omega), Option.toList_some]
        have hstep := ih hkept' (by rw [length_append, length_singleton]; omega)
          (by rw [length_set]; omega)
        rw [length_append, length_singleton] at hstep
        rw [if_neg fun h => hdup (hany.mp h), hwrite, hstep, drop_set_of_lt (by omega)]
        have hmore :
            kept < ((seen ++ [entry]) ++ (out.drop (seen.length + 1)).take n).eraseDups.length := by
          have hlong :=
            length_eraseDups_le_append (seen ++ [entry]) ((out.drop (seen.length + 1)).take n)
          rw [eraseDups_concat, if_neg hdup, length_append, length_eraseDups_of_take hkept hlen,
            length_singleton] at hlong
          omega
        dsimp only
        rw [drop_set_of_lt hmore]

/-! ## Accepted lists -/

/-- The names in lower case, without repetitions. -/
def foldedNames (names : List (CStr bbCertLen)) : List (CStr bbCertLen) :=
  (names.map lowerEntry).eraseDups

lemma take_lowered (a : FoldArgs badCap) :
    (a.entries.map lowerEntry ++ a.out.drop a.entries.length).take a.count.toNat =
      a.entries.map lowerEntry := by
  have hcount : a.entries.length = min a.count.toNat a.out.length := length_take
  rcases le_total a.count.toNat a.out.length with hle | hle
  · exact take_left' (by rw [length_map]; omega)
  · rw [drop_eq_nil_of_le (by omega), append_nil, take_of_length_le]
    rw [length_map]
    omega

lemma bcFoldEligible_legal {a : FoldArgs badCap} (hlegal : ∀ e ∈ a.entries, LegalName e = true) :
    bcFoldEligible a = (0, ⟨foldedNames a.entries ++
      (a.entries.map lowerEntry ++ a.out.drop a.entries.length).drop (foldedNames a.entries).length,
      (foldedNames a.entries).length, a.badEntry⟩) := by
  have hloop : dedupLoop a.count.toNat 0 0
      (a.entries.map lowerEntry ++ a.out.drop a.entries.length) = _ :=
    @dedupLoop_eq a.count.toNat [] _ 0 rfl le_rfl (Nat.zero_le _)
  rw [nil_append, length_nil, drop_zero, take_lowered] at hloop
  rw [bcFoldEligible_accepted hlegal, hloop]
  rfl

lemma entries_bcFoldEligible {a : FoldArgs badCap} (hlegal : ∀ e ∈ a.entries, LegalName e = true) :
    (bcFoldEligible a).2.entries = foldedNames a.entries := by
  rw [bcFoldEligible_legal hlegal]
  exact take_left

lemma eraseDups_eraseDups [DecidableEq α] (l : List α) : l.eraseDups.eraseDups = l.eraseDups := by
  induction l using List.reverseRecOn with
  | nil => rfl
  | append_singleton l a ih =>
    rw [eraseDups_concat]
    split_ifs with ha
    · exact ih
    · rw [eraseDups_concat, if_neg fun hmem => ha (mem_eraseDups.mp hmem), ih]

lemma lowerEntry_lowerEntry (e : CStr bbCertLen) : lowerEntry (lowerEntry e) = lowerEntry e := by
  apply ext
  rw [lowerEntry_bytes, lowerEntry_bytes, map_map]
  exact map_congr_left fun c _ => lowerByte_lowerByte c

lemma userNameCharOk_lowerByte (h : userNameCharOk c = true) :
    userNameCharOk (lowerByte c) = true := by
  revert c
  decide +kernel

lemma legalName_lowerEntry {e : CStr bbCertLen} (h : LegalName e = true) :
    LegalName (lowerEntry e) = true := by
  simp only [LegalName, userNameOk, Bool.and_eq_true, decide_eq_true_eq, all_eq_true] at h ⊢
  obtain ⟨⟨hne, hlen⟩, hchars⟩ := h
  rw [lowerEntry_bytes]
  refine ⟨⟨by simpa using hne, by simpa using hlen⟩, ?_⟩
  intro c hc
  obtain ⟨d, hd, rfl⟩ := mem_map.mp hc
  exact userNameCharOk_lowerByte (hchars d hd)

lemma exists_of_mem_foldedNames {names : List (CStr bbCertLen)} {e : CStr bbCertLen} :
    e ∈ foldedNames names ↔ ∃ name ∈ names, lowerEntry name = e := by
  rw [foldedNames, mem_eraseDups, mem_map]

lemma userNameFold_bytes {u : Bytes} {name : CStr maxUserName} (h : userNameFold u = some name) :
    name.bytes = u.map lowerByte := by
  unfold userNameFold at h
  split_ifs at h with hok
  obtain rfl := Option.some.inj h
  simp only [userNameOk, Bool.and_eq_true, decide_eq_true_eq, all_eq_true] at hok
  obtain ⟨⟨-, hlen⟩, hchars⟩ := hok
  refine ofBytes_bytes (by rwa [length_map]) fun hzero => ?_
  obtain ⟨c, hc, hlower⟩ := mem_map.mp hzero
  have hchar := hchars c hc
  rw [lowerByte_eq_zero hlower] at hchar
  revert hchar
  decide

lemma map_lowerEntry_foldedNames (names : List (CStr bbCertLen)) :
    (foldedNames names).map lowerEntry = foldedNames names := by
  rw [map_eq_self_iff]
  intro e he
  obtain ⟨name, -, rfl⟩ := exists_of_mem_foldedNames.mp he
  exact lowerEntry_lowerEntry name

lemma foldedNames_foldedNames (names : List (CStr bbCertLen)) :
    foldedNames (foldedNames names) = foldedNames names := by
  rw [foldedNames, map_lowerEntry_foldedNames, foldedNames, eraseDups_eraseDups]

lemma bcFoldEligible_idempotent {a : FoldArgs badCap}
    (hlegal : ∀ e ∈ a.entries, LegalName e = true) :
    bcFoldEligible (bcFoldEligible a).2 = (0, (bcFoldEligible a).2) := by
  have hentries := entries_bcFoldEligible hlegal
  have hlegal' : ∀ e ∈ (bcFoldEligible a).2.entries, LegalName e = true := by
    intro e he
    rw [hentries] at he
    obtain ⟨name, hname, rfl⟩ := exists_of_mem_foldedNames.mp he
    exact legalName_lowerEntry (hlegal name hname)
  rw [bcFoldEligible_legal hlegal', hentries, foldedNames_foldedNames, map_lowerEntry_foldedNames,
    drop_left, bcFoldEligible_legal hlegal, drop_left]

/-- **The folded list admits exactly the intended accounts.** -/
theorem folded_list_admits (a : FoldArgs badCap) (hlegal : ∀ e ∈ a.entries, LegalName e = true) :
    (bcFoldEligible a).1 = 0 ∧
    (bcFoldEligible a).2.entries = (a.entries.map lowerEntry).eraseDups ∧
    (bcFoldEligible a).2.count = (a.entries.map lowerEntry).eraseDups.length ∧
    bcFoldEligible (bcFoldEligible a).2 = (0, (bcFoldEligible a).2) ∧
    ∀ (election : BbElection) (u : Bytes) (name : CStr maxUserName),
      election.eligible = (bcFoldEligible a).2.entries → userNameFold u = some name →
      (bbCheckEligibility election (.ofBytes name.bytes) = true ↔
        ∃ e ∈ a.entries, ciEq e.bytes u = true) := by
  have hentries := entries_bcFoldEligible hlegal
  refine ⟨?_, hentries, ?_, bcFoldEligible_idempotent hlegal, ?_⟩
  · rw [bcFoldEligible_legal hlegal]
  · rw [bcFoldEligible_legal hlegal]
    rfl
  · intro election u name heligible hfold
    have hname := userNameFold_bytes hfold
    have hcert : (CStr.ofBytes name.bytes : CStr bbCertLen).bytes = u.map lowerByte := by
      rw [CStr.ofBytes_bytes (name.fits.trans (by norm_num)) name.noNul, hname]
    simp only [bbCheckEligibility, any_eq_true, decide_eq_true_eq, heligible, hentries, hcert,
      ciEq]
    constructor
    · intro ⟨e, he, hbytes⟩
      obtain ⟨orig, horig, rfl⟩ := exists_of_mem_foldedNames.mp he
      exact ⟨orig, horig, by rw [← lowerEntry_bytes, hbytes]⟩
    · intro ⟨orig, horig, hci⟩
      refine ⟨lowerEntry orig, exists_of_mem_foldedNames.mpr ⟨orig, horig, rfl⟩, ?_⟩
      rw [lowerEntry_bytes, hci]

def threeSpellings : FoldArgs 32 :=
  ⟨[.ofBytes (ascii "Alice"), .ofBytes (ascii "alice"), .ofBytes (ascii "Bob"),
    .ofBytes (ascii "ALICE")], 4, none⟩

theorem threeSpellings_folded :
    (bcFoldEligible threeSpellings).1 = 0 ∧
      (bcFoldEligible threeSpellings).2.entries.map CStr.bytes = [ascii "alice", ascii "bob"] := by
  have hlegal : ∀ e ∈ threeSpellings.entries, LegalName e = true := by decide +kernel
  obtain ⟨hrc, hentries, -⟩ := folded_list_admits threeSpellings hlegal
  refine ⟨hrc, ?_⟩
  rw [hentries]
  decide +kernel

end BallotBox
