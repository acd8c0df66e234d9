import Mathlib.Data.List.Forall2
import Synopsis.Text.Lower

/-!
# Words in any letter case

A text whose lower case is a given word spells that word with small and capital letters. This holds
of words of the plain letters `a` to `z` without two of them: `k` is the small letter of the kelvin
sign as well, and the dotted capital I becomes an `i` with a dot after it.
-/

namespace Synopsis.Text

/-- Letters that are the small letters of one capital, which is plain too. -/
def isPlainSmall (c : Char) : Bool := c.isLower && c != 'i' && c != 'k'

/-- A text spells a word with letters of either case. -/
def Spells (cs word : List Char) : Prop := List.Forall₂ (fun c d => c = d ∨ c = d.toUpper) cs word

variable {c d : Char}

theorem toNat_of_isPlainSmall (small : isPlainSmall d = true) :
    97 ≤ d.toNat ∧ d.toNat ≤ 122 ∧ d.toNat ≠ 105 ∧ d.toNat ≠ 107 := by
  simp only [isPlainSmall, Bool.and_eq_true, bne_iff_ne] at small
  obtain ⟨⟨lower, noI⟩, noK⟩ := small
  obtain ⟨low, high⟩ := (Bool.and_eq_true _ _).mp lower
  refine ⟨of_decide_eq_true low, of_decide_eq_true high, fun code => noI ?_, fun code => noK ?_⟩
  all_goals rw [← Char.ofNat_toNat d, code]

/-- Among the first characters the letters of both cases are paired one by one. -/
theorem lowerChar_ascii (low : c.toNat < 128) (small : isPlainSmall d = true) :
    lowerChar c = d ↔ c = d ∨ c = d.toUpper := by
  have cases : ∀ n < 128, isPlainSmall (Char.ofNat n).toLower = true →
      Char.ofNat n = (Char.ofNat n).toLower ∨ Char.ofNat n = (Char.ofNat n).toLower.toUpper := by
    decide +kernel
  have back : ∀ m < 128, isPlainSmall (Char.ofNat m) = true →
      (Char.ofNat m).toLower = Char.ofNat m ∧ (Char.ofNat m).toUpper.toLower = Char.ofNat m := by
    decide +kernel
  have bounds := toNat_of_isPlainSmall small
  have forth := cases c.toNat low
  have back := back d.toNat (by omega)
  rw [Char.ofNat_toNat] at forth back
  rw [lowerChar, if_pos low]
  constructor
  · rintro rfl
    exact forth small
  · rintro (rfl | rfl)
    · exact (back small).1
    · exact (back small).2

theorem toNat_ofNat {n : Nat} (valid : n.isValidChar) : (Char.ofNat n).toNat = n := by
  have same : Char.ofNat n = Char.ofNatAux n valid := dif_pos valid
  exact same ▸ rfl

theorem toNat_ofNat_le (n : Nat) : (Char.ofNat n).toNat = n ∨ (Char.ofNat n).toNat = 0 := by
  by_cases valid : n.isValidChar
  · exact Or.inl (toNat_ofNat valid)
  · have same : Char.ofNat n = '\x00' := dif_neg valid
    exact Or.inr (same ▸ rfl)

/-- No other capital has a plain small letter but the kelvin sign. -/
theorem lowerChar_ne_of_high (high : 128 ≤ c.toNat) (small : isPlainSmall d = true) :
    lowerChar c ≠ d := by
  have runs : ∀ run ∈ capitalRuns.toList, 128 ≤ run.2.1 →
      122 < run.1 + run.2.2.2 ∨ run.1 + run.2.2.2 = 107 ∧ run.1 = run.2.1 := by
    decide +kernel
  have bounds := toNat_of_isPlainSmall small
  intro same
  rw [lowerChar, if_neg (by omega)] at same
  split at same
  · rename_i first last step distance found
    have inside := Array.find?_some found
    have listed := Array.mem_of_find?_eq_some found
    simp only [Bool.and_eq_true, decide_eq_true_eq] at inside
    have far := runs _ (Array.mem_toList_iff.mpr listed) (by simp; omega)
    have code : d.toNat = (Int.ofNat c.toNat + distance).toNat ∨ d.toNat = 0 := by
      rw [← same]
      exact toNat_ofNat_le _
    simp only [Int.ofNat_eq_natCast] at far code
    omega
  · rw [same] at high
    omega

theorem lowerChar_eq_iff (small : isPlainSmall d = true) :
    lowerChar c = d ↔ c = d ∨ c = d.toUpper := by
  by_cases low : c.toNat < 128
  · exact lowerChar_ascii low small
  · have high : 128 ≤ c.toNat := Nat.le_of_not_lt low
    refine iff_of_false (lowerChar_ne_of_high high small) ?_
    have upper : ∀ m < 128, (Char.ofNat m).toUpper.toNat < 128 := by decide +kernel
    have bounds := toNat_of_isPlainSmall small
    have here := upper d.toNat (by omega)
    rw [Char.ofNat_toNat] at here
    rintro (rfl | rfl) <;> omega

theorem lowerFrom_ne_nil (before cs : List Char) : lowerFrom before (c :: cs) ≠ [] := by
  rw [lowerFrom]
  split
  · exact List.cons_ne_nil _ _
  · split
    · split <;> exact List.cons_ne_nil _ _
    · exact List.cons_ne_nil _ _

/-- The capitals that are not made small one by one give no plain letter at all. -/
theorem lowerFrom_cons_eq_iff (small : isPlainSmall d = true) (before cs word : List Char) :
    lowerFrom before (c :: cs) = d :: word ↔
      lowerChar c = d ∧ lowerFrom (c :: before) cs = word := by
  rw [lowerFrom]
  by_cases dotted : c = '\u0130'
  · subst dotted
    refine iff_of_false (fun h => ?_) fun h => lowerChar_ne_of_high (by decide) small h.1
    obtain ⟨rfl, -⟩ := List.cons.inj h
    cases small
  · by_cases sigma : c = '\u03A3'
    · subst sigma
      refine iff_of_false (fun h => ?_) fun h => lowerChar_ne_of_high (by decide) small h.1
      cases last : meetsCased before && !meetsCased cs with
      | true =>
        simp only [last] at h
        obtain ⟨rfl, -⟩ := List.cons.inj h
        cases small
      | false =>
        simp only [last] at h
        obtain ⟨rfl, -⟩ := List.cons.inj h
        cases small
    · simp [dotted, sigma]

theorem lowerFrom_eq_iff {cs word : List Char} (small : ∀ d ∈ word, isPlainSmall d = true)
    (before : List Char) : lowerFrom before cs = word ↔ Spells cs word := by
  induction cs generalizing word before with
  | nil => cases word <;> simp [lowerFrom, Spells]
  | cons c cs ih =>
    cases word with
    | nil => exact iff_of_false (lowerFrom_ne_nil before cs) (by simp [Spells])
    | cons d word =>
      obtain ⟨plain, small⟩ := List.forall_mem_cons.mp small
      rw [lowerFrom_cons_eq_iff plain, lowerChar_eq_iff plain, ih small, Spells, Spells,
        List.forall₂_cons]

/-- The lower case of a text is a word of plain letters exactly if the text spells that word. -/
theorem lower_eq_iff {s word : String} (small : ∀ d ∈ word.toList, isPlainSmall d = true) :
    lower s = word ↔ Spells s.toList word.toList := by
  rw [← lowerFrom_eq_iff small [], lower, ← String.toList_inj, String.toList_ofList]

end Synopsis.Text
