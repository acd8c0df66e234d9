import Mathlib.Algebra.Order.Field.Rat
import Mathlib.Algebra.Ring.Parity
import Mathlib.Tactic.LinearCombination
import Mathlib.Tactic.Linarith
import Mathlib.Tactic.NormNum
import Synopsis.Decimal.Binary

/-!
# Rounding of quotients

A quotient is rounded to the nearest whole number, a half to the even neighbour. So a quotient that
is less than a half away from a whole number is rounded to that number, and a quotient between two
whole numbers to one between them.
-/

namespace Synopsis.Decimal

/-- A whole number nearest to a rational one; of two that are equally near the even one. -/
def NearestEven (q : ℚ) (n : ℕ) : Prop := |q - n| ≤ 1 / 2 ∧ (|q - n| = 1 / 2 → Even n)

variable {num den n : ℕ}

/-- The quotient is rounded down, up, or, from a half, to the even neighbour. -/
theorem roundHalfEven_cases (num den : ℕ) :
    (2 * (num % den) < den ∧ roundHalfEven num den = num / den) ∨
    (den < 2 * (num % den) ∧ roundHalfEven num den = num / den + 1) ∨
    (2 * (num % den) = den ∧ Even (roundHalfEven num den) ∧
      (roundHalfEven num den = num / den ∨ roundHalfEven num den = num / den + 1)) := by
  rcases Nat.lt_trichotomy (2 * (num % den)) den with down | half | up
  · exact Or.inl ⟨down, if_pos down⟩
  · refine Or.inr (Or.inr ⟨half, ?_⟩)
    by_cases even : num / den % 2 = 0
    · have same : roundHalfEven num den = num / den := by simp [roundHalfEven, half, even]
      exact ⟨same ▸ Nat.even_iff.mpr even, Or.inl same⟩
    · have same : roundHalfEven num den = num / den + 1 := by simp [roundHalfEven, half, even]
      exact ⟨same ▸ Nat.even_add_one.mpr (mt Nat.even_iff.mp even), Or.inr same⟩
  · refine Or.inr (Or.inl ⟨up, ?_⟩)
    simp [roundHalfEven, Nat.lt_asymm up, up]

/-- Twice the quotient is at most one away from twice the number it is rounded to. -/
theorem roundHalfEven_near (num : ℕ) (positive : 0 < den) :
    2 * num ≤ 2 * (roundHalfEven num den * den) + den ∧
      2 * (roundHalfEven num den * den) ≤ 2 * num + den := by
  have parts : num / den * den + num % den = num := Nat.div_add_mod' num den
  have small : num % den < den := Nat.mod_lt num positive
  rcases roundHalfEven_cases num den with ⟨_, same⟩ | ⟨_, same⟩ | ⟨_, -, same | same⟩ <;>
    rw [same] <;> constructor <;> grind

/-- It is exactly one away only if the number is even. -/
theorem even_roundHalfEven (half : 2 * num = 2 * (roundHalfEven num den * den) + den ∨
    2 * (roundHalfEven num den * den) = 2 * num + den) (positive : 0 < den) :
    Even (roundHalfEven num den) := by
  have parts : num / den * den + num % den = num := Nat.div_add_mod' num den
  have small : num % den < den := Nat.mod_lt num positive
  rcases roundHalfEven_cases num den with ⟨_, same⟩ | ⟨_, same⟩ | ⟨_, even, -⟩
  · rw [same] at half
    exfalso
    grind
  · rw [same] at half
    exfalso
    grind
  · exact even

/-- What is rounded is the quotient itself. -/
theorem nearestEven_roundHalfEven (num : ℕ) (positive : 0 < den) :
    NearestEven (num / den) (roundHalfEven num den) := by
  have cleared : (0 : ℚ) < den := Nat.cast_pos.mpr positive
  obtain ⟨low, high⟩ := roundHalfEven_near num positive
  have low' : (2 * num : ℚ) ≤ 2 * (roundHalfEven num den * den) + den := by exact_mod_cast low
  have high' : (2 * (roundHalfEven num den * den) : ℚ) ≤ 2 * num + den := by exact_mod_cast high
  have quotient : (num / den : ℚ) * den = num := div_mul_cancel₀ _ cleared.ne'
  constructor
  · rw [abs_le]
    constructor
    · refine le_of_mul_le_mul_right ?_ cleared
      linarith
    · refine le_of_mul_le_mul_right ?_ cleared
      linarith
  · intro tie
    refine @even_roundHalfEven num den ?_ positive
    rcases (abs_eq (by norm_num)).mp tie with up | down
    · left
      have cross : (2 * num : ℚ) = 2 * (roundHalfEven num den * den) + den := by
        linear_combination 2 * (den : ℚ) * up - 2 * quotient
      exact_mod_cast cross
    · right
      have cross : (2 * (roundHalfEven num den * den) : ℚ) = 2 * num + den := by
        linear_combination 2 * quotient - 2 * (den : ℚ) * down
      exact_mod_cast cross

/-- A quotient nearer than a half to a whole number is rounded to it. -/
theorem roundHalfEven_eq (positive : 0 < den) (below : 2 * num < 2 * (n * den) + den)
    (above : 2 * (n * den) < 2 * num + den) : roundHalfEven num den = n := by
  obtain ⟨low, high⟩ := roundHalfEven_near num positive
  have first : roundHalfEven num den * den < (n + 1) * den := by grind
  have second : n * den < (roundHalfEven num den + 1) * den := by grind
  have := Nat.lt_of_mul_lt_mul_right first
  have := Nat.lt_of_mul_lt_mul_right second
  omega

theorem roundHalfEven_mul (positive : 0 < den) (n : ℕ) : roundHalfEven (n * den) den = n :=
  roundHalfEven_eq positive (by omega) (by omega)

theorem roundHalfEven_le_of_le (positive : 0 < den) (most : num ≤ n * den) :
    roundHalfEven num den ≤ n := by
  obtain ⟨-, high⟩ := roundHalfEven_near num positive
  have product : roundHalfEven num den * den < (n + 1) * den := by
    rw [Nat.add_mul, Nat.one_mul]
    omega
  exact Nat.lt_succ_iff.mp (Nat.lt_of_mul_lt_mul_right product)

theorem le_roundHalfEven_of_le (positive : 0 < den) (least : n * den ≤ num) :
    n ≤ roundHalfEven num den := by
  obtain ⟨low, -⟩ := roundHalfEven_near num positive
  have product : n * den < (roundHalfEven num den + 1) * den := by
    rw [Nat.add_mul, Nat.one_mul]
    omega
  exact Nat.lt_succ_iff.mp (Nat.lt_of_mul_lt_mul_right product)

/-- Whether a quotient is rounded to an even number at least, a half counting as enough. -/
theorem le_roundHalfEven_iff (even : Even n) (positive : 0 < den) :
    n ≤ roundHalfEven num den ↔ 2 * (n * den) ≤ 2 * num + den := by
  obtain ⟨low, high⟩ := roundHalfEven_near num positive
  constructor
  · intro reached
    have := Nat.mul_le_mul_right den reached
    omega
  · intro enough
    by_contra short
    have below : roundHalfEven num den + 1 ≤ n := by omega
    have product : (roundHalfEven num den + 1) * den ≤ n * den := Nat.mul_le_mul_right den below
    rw [Nat.add_mul, Nat.one_mul] at product
    -- Between the two numbers there is nothing but a half, which goes to the even one.
    have half : Even (roundHalfEven num den) := even_roundHalfEven (Or.inl (by omega)) positive
    have next : n * den = (roundHalfEven num den + 1) * den := by
      rw [Nat.add_mul, Nat.one_mul]
      omega
    rw [Nat.eq_of_mul_eq_mul_right positive next] at even
    exact Nat.even_add_one.mp even half

end Synopsis.Decimal
