import Synopsis.Proofs.Text.Lower
import Synopsis.Proofs.Text.Ranges

/-!
# Texts in another letter case

Texts that differ in nothing but the case of their letters have one lower case. Two capitals are
left out, since what they become is not one small letter: the dotted capital I, and the capital
sigma, which becomes another letter at the end of a word. Texts that differ in these may differ in
lower case as well.
-/

namespace Synopsis.Text

variable {c d : Char} {cs ds before before' : List Char} {s t : String}

/-- Whether a character has one lower case, wherever it stands. -/
def lowersAlone (c : Char) : Bool := c != '\u0130' && c != '\u03A3'

/-- Characters that are one, or letters with the same small letter. -/
def SameLetter (c d : Char) : Prop :=
  c = d ∨ lowersAlone c = true ∧ lowersAlone d = true ∧ lowerChar c = lowerChar d

instance : DecidableRel SameLetter := fun c d =>
  inferInstanceAs (Decidable (c = d ∨ lowersAlone c = true ∧ lowersAlone d = true ∧
    lowerChar c = lowerChar d))

/-- Texts that differ in the case of their letters only. -/
def SameButCase (s t : String) : Prop := List.Forall₂ SameLetter s.toList t.toList

instance : DecidableRel SameButCase := fun s t =>
  inferInstanceAs (Decidable (List.Forall₂ SameLetter s.toList t.toList))

/-! ## Letters that are made small have a case -/

theorem increasing_casedRanges : casedRanges.Increasing :=
  Ranges.increasing_of_risesFrom (by decide +kernel)

theorem isValidChar_of_cased {n : Nat} (cased : casedRanges.contains n = true) : n.isValidChar := by
  have valid : ∀ range ∈ casedRanges.toList,
      range.2 < 0xD800 ∨ 0xDFFF < range.1 ∧ range.2 < 0x110000 := by
    decide +kernel
  obtain ⟨range, listed, holds⟩ := (Ranges.contains_iff increasing_casedRanges).mp cased
  have := valid range listed
  unfold Nat.isValidChar
  omega

/-- Whether the capitals of a run have a case, and their small letters as well. Between capitals two
apart there may be places without a letter. -/
def isCasedRun (run : Nat × Nat × Nat × Int) : Bool :=
  let (first, last, step, distance) := run
  (casedRanges.spans first last ||
      (List.range' first ((last - first) / step + 1) step).all fun code =>
        casedRanges.spans code code) &&
    casedRanges.spans (first + distance).toNat (last + distance).toNat

theorem isCasedRun_of_mem {run : Nat × Nat × Nat × Int} (listed : run ∈ capitalRuns.toList) :
    isCasedRun run = true := by
  have all : capitalRuns.toList.all isCasedRun = true := by decide +kernel
  exact List.all_eq_true.mp all run listed

theorem cased_of_run {first last step n : Nat} {distance : Int}
    (listed : (first, last, step, distance) ∈ capitalRuns.toList) (inside : first ≤ n ∧ n ≤ last)
    (stepped : (n - first) % step = 0) :
    casedRanges.contains n = true ∧ casedRanges.contains (n + distance).toNat = true := by
  have run := isCasedRun_of_mem listed
  simp only [isCasedRun, Bool.and_eq_true, Bool.or_eq_true, List.all_eq_true] at run
  obtain ⟨capitals, small⟩ := run
  constructor
  · rcases capitals with spanned | each
    · exact Ranges.contains_of_spans increasing_casedRanges spanned inside
    · have member : n ∈ List.range' first ((last - first) / step + 1) step := by
        refine List.mem_range'.mpr ⟨(n - first) / step, ?_, ?_⟩
        · exact Nat.lt_succ_of_le (Nat.div_le_div_right (by omega))
        · have := Nat.div_add_mod (n - first) step
          omega
      exact Ranges.contains_of_spans increasing_casedRanges (each n member)
        ⟨Nat.le_refl n, Nat.le_refl n⟩
  · exact Ranges.contains_of_spans increasing_casedRanges small (by omega)

/-- A character that is not its own small letter is in a run of capitals. -/
theorem run_of_lowerChar_ne (changed : lowerChar c ≠ c) :
    ∃ first last step distance, (first, last, step, distance) ∈ capitalRuns.toList ∧
      (first ≤ c.toNat ∧ c.toNat ≤ last) ∧ (c.toNat - first) % step = 0 ∧
      lowerChar c = Char.ofNat (c.toNat + distance).toNat := by
  by_cases low : c.toNat < 128
  · have capitals : ∀ n < 128, (Char.ofNat n).toLower ≠ Char.ofNat n →
        (65 ≤ n ∧ n ≤ 90) ∧ (Char.ofNat n).toLower = Char.ofNat ((n : Int) + 32).toNat := by
      decide +kernel
    have here := capitals c.toNat low
    rw [Char.ofNat_toNat] at here
    rw [lowerChar, if_pos low] at changed ⊢
    obtain ⟨inside, small⟩ := here changed
    exact ⟨65, 90, 1, 32, by decide, inside, Nat.mod_one _, small⟩
  · rw [lowerChar, if_neg low] at changed ⊢
    split at changed
    · rename_i first last step distance found
      have inside := Array.find?_some found
      simp only [Bool.and_eq_true, decide_eq_true_eq, beq_iff_eq] at inside
      exact ⟨first, last, step, distance, Array.mem_toList_iff.mpr
        (Array.mem_of_find?_eq_some found),
        inside.1, inside.2, rfl⟩
    · exact absurd rfl changed

theorem isCased_of_lowerChar_ne (changed : lowerChar c ≠ c) :
    isCased c = true ∧ isCased (lowerChar c) = true := by
  obtain ⟨first, last, step, distance, listed, inside, stepped, small⟩ :=
    run_of_lowerChar_ne changed
  obtain ⟨capital, lowered⟩ := cased_of_run listed inside stepped
  refine ⟨capital, ?_⟩
  rw [small, isCased, toNat_ofNat (isValidChar_of_cased lowered)]
  exact lowered

/-! ## Lower case -/

/-- Of two letters with one small letter, one may be that letter, but the
other one is then made small. -/
theorem isCased_of_lowerChar_eq (different : c ≠ d) (small : lowerChar c = lowerChar d) :
    isCased c = true := by
  by_cases own : lowerChar c = c
  · have changed : lowerChar d ≠ d := fun h => different (own.symm.trans (small.trans h))
    have cased := (isCased_of_lowerChar_ne changed).2
    rwa [← small, own] at cased
  · exact (isCased_of_lowerChar_ne own).1

theorem SameLetter.eq_or_isCased (same : SameLetter c d) :
    c = d ∨ isCased c = true ∧ isCased d = true := by
  by_cases equal : c = d
  · exact Or.inl equal
  · have small : lowerChar c = lowerChar d := (same.resolve_left equal).2.2
    exact Or.inr
      ⟨isCased_of_lowerChar_eq equal small, isCased_of_lowerChar_eq (Ne.symm equal) small.symm⟩

theorem meetsCased_eq (same : List.Forall₂ SameLetter cs ds) : meetsCased cs = meetsCased ds := by
  induction same with
  | nil => rfl
  | cons letter _ ih =>
    rcases letter.eq_or_isCased with rfl | ⟨first, second⟩
    · rw [meetsCased, meetsCased, ih]
    · rw [meetsCased, meetsCased, first, second, Bool.true_or, Bool.true_or]

theorem lowerFrom_cons_of_lowersAlone (alone : lowersAlone c = true) (before cs : List Char) :
    lowerFrom before (c :: cs) = lowerChar c :: lowerFrom (c :: before) cs := by
  simp only [lowersAlone, Bool.and_eq_true, bne_iff_ne] at alone
  simp [lowerFrom, alone.1, alone.2]

theorem lowerFrom_eq (left : List.Forall₂ SameLetter before before')
    (same : List.Forall₂ SameLetter cs ds) : lowerFrom before cs = lowerFrom before' ds := by
  induction same generalizing before before' with
  | nil => rfl
  | @cons c d cs ds letter same ih =>
    have next := ih (.cons letter left)
    rcases letter with rfl | ⟨first, second, small⟩
    · rw [lowerFrom, lowerFrom, meetsCased_eq left, meetsCased_eq same, next]
    · rw [lowerFrom_cons_of_lowersAlone first, lowerFrom_cons_of_lowersAlone second, small, next]

/-- Texts that differ in the case of their letters only have one lower case. -/
theorem lower_eq_of_sameButCase (same : SameButCase s t) : lower s = lower t :=
  congrArg String.ofList (lowerFrom_eq .nil same)

example : lower "ΟΔΟΣ" ≠ lower "οδοσ" := by decide +kernel

end Synopsis.Text
