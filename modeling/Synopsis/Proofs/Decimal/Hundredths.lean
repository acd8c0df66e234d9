import Synopsis.Proofs.Decimal.Numeral
import Synopsis.Proofs.Decimal.Rounding
import Synopsis.Proofs.Size

/-!
# Hundredths as they are shown

The floating point number nearest to some hundredths holds far more digits than the six that are
written of it. So hundredths that have no more than six digits are shown exactly, as their numeral.
-/

namespace Synopsis.Decimal

variable {n j : ℕ}

/-! ## Hundredths as floating point numbers -/

/-- The floating point number nearest to some hundredths is a rounded quotient, the error of which
is less than half a unit of a denominator that is large. -/
theorem exists_ofRatio_hundredths (positive : 0 < n) (small : n < 2 ^ 20) :
    ∃ j : ℕ, 39 ≤ j ∧ Binary.ofRatio n 100 = ⟨roundHalfEven (n * 2 ^ j) 100, -j⟩ := by
  have short : bitLength n ≤ 20 := bitLength_le_iff.mpr small
  have nonzero : ¬ (n == 0) = true := by simpa using positive.ne'
  obtain ⟨j, whole⟩ : ∃ j : ℕ, bitLength n + j = 59 := ⟨59 - bitLength n, by omega⟩
  have guess : (bitLength n : ℤ) - bitLength 100 - Binary.precision = -(j + 1 : ℕ) := by
    have hundred : bitLength 100 = 7 := by decide +kernel
    have precision : Binary.precision = 53 := rfl
    omega
  have negative (i : ℕ) : ¬ (0 : ℤ) ≤ -(i + 1 : ℕ) := by omega
  have next : -(j + 1 : ℕ) + 1 = -(j : ℤ) := by omega
  obtain ⟨i, rfl⟩ : ∃ i, j = i + 1 := ⟨j - 1, by omega⟩
  simp only [Binary.ofRatio, if_neg nonzero, guess, next, if_neg (negative _), neg_neg,
    Int.toNat_natCast]
  split
  · exact ⟨i + 1 + 1, by omega, rfl⟩
  · exact ⟨i + 1, by omega, rfl⟩

theorem ratio_negative (m : ℕ) (positive : 0 < j) : (Binary.mk m (-j)).ratio = (m, 2 ^ j) := by
  have negative : ¬ (0 : ℤ) ≤ -j := by omega
  rw [Binary.ratio, if_neg negative]
  simp

/-- The error is too small to reach another whole number. -/
theorem roundHalfEven_div (large : 39 ≤ j) :
    roundHalfEven (n * 2 ^ j) 100 / 2 ^ j = n / 100 := by
  have wide : 2 ^ 39 ≤ 2 ^ j := Nat.pow_le_pow_right (by decide) large
  obtain ⟨low, high⟩ := roundHalfEven_near (n * 2 ^ j) (show 0 < 100 by decide)
  generalize 2 ^ j = den at *
  have parts : n / 100 * 100 + n % 100 = n := Nat.div_add_mod' n 100
  have last : n % 100 < 100 := Nat.mod_lt n (by decide)
  generalize n / 100 = whole at *
  by_cases exact : n % 100 = 0
  · have same : n * den = whole * den * 100 := by grind
    rw [same, roundHalfEven_mul (by decide), Nat.mul_div_cancel whole (by omega)]
  · have product : n * den = 100 * (whole * den) + n % 100 * den := by grind
    have least : 1 * den ≤ n % 100 * den := Nat.mul_le_mul_right den (by omega)
    have most : n % 100 * den ≤ 99 * den := Nat.mul_le_mul_right den (by omega)
    refine Nat.div_eq_of_lt_le (by omega) ?_
    rw [Nat.add_mul]
    omega

/-- Nor does the error reach another multiple of a decimal place that is not too small. -/
theorem roundHalfEven_scaled {t scale : ℕ} (large : 39 ≤ j) (small : scale ≤ 10 ^ 5)
    (exact : 100 * t = n * scale) :
    roundHalfEven (roundHalfEven (n * 2 ^ j) 100 * scale) (2 ^ j) = t := by
  have wide : 2 ^ 39 ≤ 2 ^ j := Nat.pow_le_pow_right (by decide) large
  obtain ⟨low, high⟩ := roundHalfEven_near (n * 2 ^ j) (show 0 < 100 by decide)
  generalize 2 ^ j = den at *
  generalize roundHalfEven (n * den) 100 = m at *
  have product : n * den * scale = 100 * (t * den) := by grind
  have low' := Nat.mul_le_mul_right scale low
  have high' := Nat.mul_le_mul_right scale high
  refine roundHalfEven_eq (by omega) ?_ ?_ <;> grind

/-! ## Six significant digits -/

/-- The weight of the first digit of a quotient that is at least one. -/
theorem decimalExponent_eq {num den p : ℕ} (least : den ≤ num)
    (length : (digits (num / den)).length = p + 1) : decimalExponent num den = p := by
  rw [decimalExponent, if_pos least, length]
  omega

/-- A quotient whose six digits are exact is laid out in these digits. -/
theorem general_eq {num den p t : ℕ} (positive : 0 < num) (least : den ≤ num) (first : p ≤ 5)
    (length : (digits (num / den)).length = p + 1)
    (scaled : roundHalfEven (num * 10 ^ (5 - p)) den = t) (six : t < 10 ^ 6) :
    general num den = sixDigits.text (dropZeros (digits t)) p := by
  have nonzero : ¬ (num == 0) = true := by simpa using positive.ne'
  have shift : ((5 : ℤ) - p).toNat = 5 - p := by omega
  have few : (p : ℤ) ≤ 5 := by omega
  have six' : t < 1000000 := six
  simp only [general, if_neg nonzero, decimalExponent_eq least length, if_pos few, shift,
    Nat.pow_eq, scaled, if_pos six']

/-- Hundredths between one and ten thousand are shown as their numeral. -/
theorem exists_numeral_hundredths (least : 100 ≤ n) (most : n ≤ 10 ^ 6) :
    ∃ numeral : Numeral, numeral.value = n / 100 ∧
      general (Binary.ofRatio n 100).ratio.1 (Binary.ofRatio n 100).ratio.2 = numeral.chars := by
  obtain ⟨j, large, nearest⟩ := exists_ofRatio_hundredths (n := n) (by omega) (by omega)
  rw [nearest, ratio_negative _ (by omega)]
  dsimp only
  have whole := roundHalfEven_div (n := n) large
  obtain ⟨p, length⟩ : ∃ p, (digits (n / 100)).length = p + 1 := by
    refine ⟨(digits (n / 100)).length - 1, (Nat.sub_add_cancel ?_).symm⟩
    rw [digits_eq]
    exact Nat.length_toDigits_pos
  obtain ⟨low, high⟩ := (length_digits_eq_iff (n := n / 100) (by omega)).mp length
  have first : p ≤ 4 := by
    have bound : 10 ^ p < 10 ^ 5 := by omega
    have := (Nat.pow_lt_pow_iff_right (by decide)).mp bound
    omega
  -- With the first digit at its place, six digits hold all of the hundredths.
  have shift : 10 ^ p * 10 ^ (5 - p) = 10 ^ 5 := by rw [← Nat.pow_add]; congr 1; omega
  have shift' : 10 ^ (p + 1) * 10 ^ (5 - p) = 10 ^ 6 := by rw [← Nat.pow_add]; congr 1; omega
  have scale : 10 ^ (5 - p) ≤ 10 ^ 5 := Nat.pow_le_pow_right (by decide) (by omega)
  obtain ⟨t, exact⟩ : 100 ∣ n * 10 ^ (5 - p) := by
    rcases first.lt_or_eq with below | rfl
    · have places : 10 ^ 2 ∣ 10 ^ (5 - p) := pow_dvd_pow 10 (by omega)
      exact places.mul_left n
    · obtain rfl : n = 10 ^ 6 := by omega
      decide
  have lower := Nat.mul_le_mul_right (10 ^ (5 - p)) (show 100 * 10 ^ p ≤ n by omega)
  have upper : n * 10 ^ (5 - p) < 100 * 10 ^ (p + 1) * 10 ^ (5 - p) :=
    Nat.mul_lt_mul_of_pos_right (by omega) (by positivity)
  rw [Nat.mul_assoc, shift] at lower
  rw [Nat.mul_assoc, shift'] at upper
  have six : (digits t).length = 5 + 1 := (length_digits_eq_iff (by omega)).mpr (by omega)
  have reached : 2 ^ j ≤ roundHalfEven (n * 2 ^ j) 100 :=
    (Nat.div_pos_iff.mp (whole ▸ Nat.div_pos least (by decide))).2
  have text := general_eq ((Nat.two_pow_pos j).trans_le reached) reached (by omega) (whole ▸ length)
    (roundHalfEven_scaled large scale exact.symm) (by omega)
  obtain ⟨numeral, chars, value⟩ :=
    exists_numeral (n := t) (p := p) (by omega) (by omega) (by omega)
  refine ⟨numeral, ?_, text.trans chars⟩
  have exact' : (n * 10 ^ (5 - p) : ℚ) = 100 * t := by exact_mod_cast exact
  rw [value, six, Nat.add_sub_add_right]
  field_simp
  linarith

end Synopsis.Decimal
