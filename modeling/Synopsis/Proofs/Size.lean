import Mathlib.Algebra.Group.Int.Defs
import Mathlib.Algebra.Group.Nat.Defs
import Synopsis.Size

/-!
# Sizes that have a text

A size has a text unless it is out of the range of floating point numbers. Rounding to fewer digits
makes a number at most one binary digit longer, so sizes with one digit less than the range allows
are never out of it.
-/

namespace Synopsis

namespace Decimal

theorem bitLength_le_iff {n k : Nat} : bitLength n ≤ k ↔ n < 2 ^ k := by
  unfold bitLength
  by_cases h : n = 0
  · exact iff_of_true (by simp [h]) (h ▸ Nat.two_pow_pos k)
  · rw [if_neg (by simpa using h), Nat.add_one_le_iff, Nat.log2_lt h]

theorem roundHalfEven_le (num den : Nat) : roundHalfEven num den ≤ num / den + 1 := by
  unfold roundHalfEven
  grind

/-- Digits that are rounded away count again by at most one. -/
theorem bitLength_roundHalfEven {n k : Nat} (h : k ≤ bitLength n) :
    bitLength (roundHalfEven n (2 ^ k)) + k ≤ bitLength n + 1 := by
  have below : n < 2 ^ (bitLength n - k) * 2 ^ k := by
    rw [← Nat.pow_add, Nat.sub_add_cancel h]
    exact bitLength_le_iff.mp (Nat.le_refl _)
  have quotient : n / 2 ^ k < 2 ^ (bitLength n - k) :=
    (Nat.div_lt_iff_lt_mul (Nat.two_pow_pos k)).mpr below
  have rounded : roundHalfEven n (2 ^ k) < 2 ^ (bitLength n - k + 1) := by
    have := roundHalfEven_le n (2 ^ k)
    rw [Nat.pow_succ]
    have := Nat.two_pow_pos (bitLength n - k)
    omega
  have := bitLength_le_iff.mpr rounded
  omega

namespace Binary

theorem bitLength_ofRatio {n : Nat} (h : precision < bitLength n) :
    (bitLength (ofRatio n 1).mantissa : Int) + (ofRatio n 1).exponent ≤ bitLength n + 1 := by
  have positive : ¬ (n == 0) = true := by
    intro heq
    rw [beq_iff_eq.mp heq] at h
    cases h
  -- Both tries round away a number of digits that is not negative.
  have rounded (e : Nat) (he : e ≤ bitLength n) :
      (bitLength (roundHalfEven n (1 * 2 ^ e)) : Int) + e ≤ bitLength n + 1 := by
    have := bitLength_roundHalfEven he
    rw [Nat.one_mul]
    omega
  obtain ⟨e, he⟩ : ∃ e : Nat, bitLength n = e + 1 + precision :=
    ⟨bitLength n - 1 - precision, by omega⟩
  have guess : (bitLength n : Int) - bitLength 1 - precision = e := by
    have : bitLength 1 = 1 := by decide
    omega
  have up : (0 : Int) ≤ (e : Int) + 1 := by omega
  simp only [ofRatio, if_neg positive, guess, if_pos (Int.natCast_nonneg e), if_pos up]
  split
  · exact rounded e (by omega)
  · exact rounded (e + 1) (by omega)

theorem exists_ofNat? {n : Nat} (h : n < 2 ^ 1023) : ∃ value, ofNat? n = some value := by
  have short := bitLength_le_iff.mpr h
  refine ⟨_, if_neg ?_⟩
  split
  · simp only
    omega
  · have := bitLength_ofRatio (n := n) (by omega)
    omega

end Binary

end Decimal

/-- Sizes below half the range of floating point numbers have a text. -/
theorem exists_sizeText {size : Int} (h : size < 2 ^ 1023) : ∃ text, sizeText size = .ok text := by
  unfold sizeText
  split
  · exact ⟨_, rfl⟩
  · obtain ⟨value, hvalue⟩ := Decimal.Binary.exists_ofNat? (n := size.toNat) (by omega)
    rw [hvalue]
    exact ⟨_, rfl⟩

end Synopsis
