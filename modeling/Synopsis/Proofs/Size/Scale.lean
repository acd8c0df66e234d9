import Mathlib.Tactic.Ring
import Synopsis.Proofs.Decimal.Hundredths

/-!
# Sizes as they are shown

A size is shown in the largest unit that it reaches. Up to ten thousand gigabytes the floating point
numbers on the way lose nothing: division by 1024 is exact, hundredths are held with far more digits
than the six that are written, and no number there has more than six. So what is shown is the
quotient rounded to hundredths, a half going to the even one. As the unit is chosen before rounding,
1023.995 units and more are shown as 1024 of them, not as 1 of the next unit. Larger sizes, which
are written in powers of ten or lose digits, are not meant here.
-/

namespace Synopsis

open Synopsis.Decimal

/-! ## The unit of a size -/

/-- The units, each of them 1024 of the one before. -/
def units : List String := ["Bytes", "KB", "MB", "GB"]

/-- The largest of the four units that a size reaches. -/
structure IsScale (size k : ℕ) : Prop where
  known : k ≤ 3
  reached : 1024 ^ k ≤ size
  largest : ∀ j ≤ 3, 1024 ^ j ≤ size → j ≤ k

/-- A numeral before a unit is what is shown of a size. -/
def Shown (size : ℤ) (numeral : Numeral) (unit : String) : Prop :=
  sizeText size = .ok (numeral.text ++ " " ++ unit)

instance (size : ℤ) (numeral : Numeral) (unit : String) : Decidable (Shown size numeral unit) :=
  inferInstanceAs (Decidable (_ = _))

variable {n k : ℕ} {size : ℤ}

/-- A whole number after so many divisions by 1024. -/
def divided (n k : ℕ) : Binary := ⟨n, -(10 * k : ℕ)⟩

theorem ratio_divided (n k : ℕ) : (divided n k).ratio = (n, 1024 ^ k) := by
  cases k with
  | zero => simp [divided, Binary.ratio]
  | succ k =>
    rw [divided, ratio_negative n (by omega), Nat.pow_mul]

theorem shiftRight_divided (n k : ℕ) : (divided n k).shiftRight 10 = divided n (k + 1) := by
  simp only [divided, Binary.shiftRight]
  congr 1
  omega

theorem atLeast_divided_iff : (divided n k).atLeast 1024 = true ↔ 1024 ^ (k + 1) ≤ n := by
  rw [Binary.atLeast, ratio_divided, decide_eq_true_iff, Nat.pow_succ']

/-- Division goes on while the next unit is reached and there is one. -/
theorem exists_scaleSize (unit : String) (larger : List String) (reached : 1024 ^ k ≤ n) :
    ∃ more ≤ larger.length, ∃ unit', (unit :: larger)[more]? = some unit' ∧
      scaleSize (divided n k) unit larger = (divided n (k + more), unit') ∧
      1024 ^ (k + more) ≤ n ∧ (more < larger.length → n < 1024 ^ (k + more + 1)) := by
  induction larger generalizing k unit with
  | nil => exact ⟨0, Nat.le_refl 0, unit, rfl, rfl, reached, nofun⟩
  | cons next larger ih =>
    by_cases on : 1024 ^ (k + 1) ≤ n
    · obtain ⟨more, few, unit', listed, scaled, reached, short⟩ := ih next on
      have places : k + 1 + more = k + (more + 1) := by omega
      rw [places] at scaled reached short
      refine ⟨more + 1, Nat.succ_le_succ few, unit', listed, ?_, reached,
        fun left => short (Nat.lt_of_succ_lt_succ left)⟩
      rw [scaleSize, if_pos (atLeast_divided_iff.mpr on), shiftRight_divided, scaled]
    · refine ⟨0, Nat.zero_le _, unit, rfl, ?_, reached, fun _ => Nat.lt_of_not_le on⟩
      rw [scaleSize, if_neg (mt atLeast_divided_iff.mp on)]
      rfl

theorem ofNat?_small (small : n < 2 ^ 53) : Binary.ofNat? n = some (divided n 0) := by
  have short : bitLength n ≤ Binary.precision := bitLength_le_iff.mpr small
  have precision : Binary.precision = 53 := rfl
  simp only [Binary.ofNat?, if_pos short]
  exact if_neg (by omega)

/-- A size stays below the next unit if there is one. -/
theorem IsScale.lt_next (scale : IsScale n k) (more : k < 3) : n < 1024 ^ (k + 1) := by
  refine Nat.lt_of_not_le fun next => ?_
  have := scale.largest (k + 1) more next
  omega

/-- The number of hundredths is among those that are shown exactly. -/
theorem IsScale.hundredths_bounds (scale : IsScale n k) (below : n < 10000 * 1024 ^ 3) :
    100 ≤ roundHalfEven (n * 100) (1024 ^ k) ∧ roundHalfEven (n * 100) (1024 ^ k) ≤ 10 ^ 6 := by
  have positive : 0 < 1024 ^ k := Nat.pow_pos (by decide)
  have least : n < 10000 * 1024 ^ k := by
    rcases scale.known.lt_or_eq with more | rfl
    · have := scale.lt_next more
      rw [Nat.pow_succ] at this
      omega
    · exact below
  have reached := scale.reached
  exact ⟨le_roundHalfEven_of_le positive (by omega), roundHalfEven_le_of_le positive (by omega)⟩

/-- What is shown of a size is the numeral of its hundredths in the largest unit that it reaches. -/
theorem exists_shown (positive : 0 < size) (below : size < 10000 * 1024 ^ 3) :
    ∃ k unit numeral, IsScale size.toNat k ∧ units[k]? = some unit ∧ Shown size numeral unit ∧
      numeral.value = roundHalfEven (size.toNat * 100) (1024 ^ k) / 100 := by
  obtain ⟨n, rfl⟩ := Int.eq_ofNat_of_zero_le positive.le
  rw [Int.toNat_natCast]
  have small : n < 10000 * 1024 ^ 3 := by exact_mod_cast below
  obtain ⟨k, few, unit, listed, scaled, reached, short⟩ :=
    exists_scaleSize (n := n) (k := 0) "Bytes" largerUnits (by omega)
  rw [Nat.zero_add] at scaled reached short
  have scale : IsScale n k := by
    refine ⟨few, reached, fun j known reached' => Nat.le_of_not_lt fun more => ?_⟩
    have next := short (Nat.lt_of_lt_of_le more known)
    have steps : 1024 ^ (k + 1) ≤ 1024 ^ j := Nat.pow_le_pow_right (by decide) more
    omega
  obtain ⟨least, most⟩ := scale.hundredths_bounds small
  obtain ⟨numeral, value, chars⟩ := exists_numeral_hundredths least most
  refine ⟨k, unit, numeral, scale, listed, ?_, value⟩
  have rounded : (divided n k).roundPlaces 2 =
      Binary.ofRatio (roundHalfEven (n * 100) (1024 ^ k)) 100 := by
    rw [Binary.roundPlaces, ratio_divided]
  rw [Shown, sizeText, if_neg (by omega), Int.toNat_natCast, ofNat?_small (by omega)]
  simp only [scaled, rounded, chars]
  rfl

/-- Below ten thousand gigabytes a size is shown as the numeral of the exact quotient, rounded to
hundredths with a half going to the even one, in the largest unit that it reaches. -/
theorem sizes_shown_exactly (positive : 0 < size) (below : size < 10000 * 1024 ^ 3) :
    ∃ (k hundredths : ℕ) (unit : String) (numeral : Numeral),
      IsScale size.toNat k ∧ units[k]? = some unit ∧
      NearestEven (100 * (size / 1024 ^ k)) hundredths ∧ numeral.value = hundredths / 100 ∧
      sizeText size = .ok (numeral.text ++ " " ++ unit) := by
  obtain ⟨k, unit, numeral, scale, listed, shown, value⟩ := exists_shown positive below
  refine ⟨k, _, unit, numeral, scale, listed, ?_, value, shown⟩
  have nearest := nearestEven_roundHalfEven (size.toNat * 100)
    (show 0 < 1024 ^ k from Nat.pow_pos (by decide))
  have whole : (size : ℚ) = size.toNat := by
    exact_mod_cast (Int.toNat_of_nonneg positive.le).symm
  rw [whole]
  convert nearest using 1
  push_cast
  ring

/-- A size half a hundredth above 1.12 of a unit goes to the even side. -/
theorem sizes_shown_exactly_half :
    (0 : ℤ) < 1152 ∧ (1152 : ℤ) < 10000 * 1024 ^ 3 ∧ sizeText 1152 = .ok "1.12 KB" ∧
      ∃ numeral : Numeral, NearestEven (100 * ((1152 : ℤ) / 1024 ^ 1)) 112 ∧
        numeral.value = (112 : ℕ) / 100 ∧ sizeText 1152 = .ok (numeral.text ++ " " ++ "KB") := by
  obtain ⟨k, hundredths, unit, numeral, scale, listed, nearest, value, shown⟩ :=
    @sizes_shown_exactly 1152 (by decide) (by decide)
  obtain rfl : k = 1 := by
    have least := scale.largest 1 (by decide) (by decide)
    have reached := scale.reached
    have known := scale.known
    rcases (by omega : k = 1 ∨ k = 2 ∨ k = 3) with rfl | rfl | rfl
    · rfl
    · exact absurd reached (by decide)
    · exact absurd reached (by decide)
  obtain rfl : unit = "KB" := Option.some.inj listed.symm
  obtain rfl : hundredths = 112 := by
    obtain ⟨near, even⟩ := nearest
    have quotient : (100 * ((1152 : ℤ) / 1024 ^ 1) : ℚ) = 225 / 2 := by norm_num
    rw [quotient] at near even
    obtain ⟨low, high⟩ := abs_le.mp near
    have least : 112 ≤ hundredths := by exact_mod_cast (by linarith : (112 : ℚ) ≤ hundredths)
    have most : hundredths ≤ 113 := by exact_mod_cast (by linarith : (hundredths : ℚ) ≤ 113)
    rcases (by omega : hundredths = 112 ∨ hundredths = 113) with rfl | rfl
    · rfl
    · exact absurd (even (by norm_num)) (by decide)
  exact ⟨by decide, by decide, by decide +kernel, numeral, nearest, value, shown⟩

/-! ## The next unit -/

/-- A size is shown in one way. -/
theorem Shown.unique {numeral numeral' : Numeral} {unit unit' : String}
    (first : Shown size numeral unit) (second : Shown size numeral' unit') :
    numeral = numeral' ∧ unit = unit' :=
  Numeral.text_append_inj (Except.ok.inj (first.symm.trans second))

/-- The number that is shown of a size is below that of units that make the next one. -/
def ShownBelowNext (size : ℤ) : Prop :=
  ∃ numeral unit, Shown size numeral unit ∧ numeral.value < 1024

theorem Shown.belowNext_iff {numeral : Numeral} {unit : String} (shown : Shown size numeral unit) :
    ShownBelowNext size ↔ numeral.value < 1024 := by
  refine ⟨?_, fun small => ⟨numeral, unit, shown, small⟩⟩
  rintro ⟨other, unit', shown', small⟩
  obtain ⟨rfl, -⟩ := shown.unique shown'
  exact small

/-- A size is at least 1023.995 of a unit, but less than the next unit. -/
def NearlyNext (n k : ℕ) : Prop := 204799 * 1024 ^ k ≤ 200 * n ∧ n < 1024 ^ (k + 1)

theorem IsScale.lt_next_of_lt (scale : IsScale n k) (below : n < 1024 ^ 4) :
    n < 1024 ^ (k + 1) := by
  rcases scale.known.lt_or_eq with more | rfl
  · exact scale.lt_next more
  · exact below

/-- A size that is nearly the next unit is so in the largest unit that it reaches. -/
theorem IsScale.eq_of_nearlyNext {j : ℕ} (scale : IsScale n k) (known : j ≤ 3)
    (nearly : NearlyNext n j) : j = k := by
  obtain ⟨most, below⟩ := nearly
  have upper := scale.largest j known (by omega)
  by_contra different
  have steps : 1024 ^ (j + 1) ≤ 1024 ^ k := Nat.pow_le_pow_right (by decide) (by omega)
  have reached := scale.reached
  omega

theorem IsScale.nearlyNext_iff (scale : IsScale n k) (below : n < 1024 ^ 4) :
    (1 ≤ k ∧ NearlyNext n k) ↔ 102400 ≤ roundHalfEven (n * 100) (1024 ^ k) := by
  rw [le_roundHalfEven_iff (by decide) (Nat.pow_pos (by decide))]
  have next := scale.lt_next_of_lt below
  constructor
  · rintro ⟨-, most, -⟩
    omega
  · intro most
    refine ⟨Nat.one_le_iff_ne_zero.mpr ?_, by omega, next⟩
    rintro rfl
    omega

theorem IsScale.hundredths_le (scale : IsScale n k) (below : n < 1024 ^ 4) :
    roundHalfEven (n * 100) (1024 ^ k) ≤ 102400 := by
  have next := scale.lt_next_of_lt below
  rw [Nat.pow_succ] at next
  exact roundHalfEven_le_of_le (Nat.pow_pos (by decide)) (by omega)

/-- For sizes below 1024 gigabytes the number that is shown is below 1024, unless the
size is at least 1023.995 kilobytes, megabytes or gigabytes and less than 1024 of them:
then 1024 of them are shown. -/
theorem shown_below_next_iff (positive : 0 < size) (below : size < 1024 ^ 4) :
    (ShownBelowNext size ↔ ∀ k, 1 ≤ k → k ≤ 3 → ¬ NearlyNext size.toNat k) ∧
      ∀ k, 1 ≤ k → k ≤ 3 → NearlyNext size.toNat k →
        ∃ unit numeral, units[k]? = some unit ∧ Shown size numeral unit ∧ numeral.value = 1024 := by
  obtain ⟨k, unit, numeral, scale, listed, shown, value⟩ := exists_shown positive (by omega)
  have small : size.toNat < 1024 ^ 4 := by omega
  have nearly := scale.nearlyNext_iff small
  have most := scale.hundredths_le small
  rw [shown.belowNext_iff, value]
  generalize roundHalfEven (size.toNat * 100) (1024 ^ k) = hundredths at *
  have number : (hundredths / 100 : ℚ) < 1024 ↔ ¬ 102400 ≤ hundredths := by
    rw [div_lt_iff₀ (by norm_num), Nat.not_le]
    norm_cast
  rw [number, ← nearly]
  refine ⟨⟨fun far j least known near => ?_, fun far near => far k near.1 scale.known near.2⟩,
    fun j least known near => ?_⟩
  · obtain rfl := scale.eq_of_nearlyNext known near
    exact far ⟨least, near⟩
  · obtain rfl := scale.eq_of_nearlyNext known near
    have exact : hundredths = 102400 := Nat.le_antisymm most (nearly.mp ⟨least, near⟩)
    refine ⟨unit, numeral, listed, shown, ?_⟩
    rw [value, exact]
    norm_num

/-- The last size that is shown in megabytes, a byte less than a
gigabyte, is shown as 1024 of them. -/
theorem shown_below_next_gigabyteShort :
    (0 : ℤ) < 1073741823 ∧ (1073741823 : ℤ) < 1024 ^ 4 ∧ ¬ ShownBelowNext 1073741823 ∧
      ∃ numeral, Shown 1073741823 numeral "MB" ∧ numeral.value = 1024 := by
  obtain ⟨belowNext, nearlyNext⟩ := @shown_below_next_iff 1073741823 (by decide) (by decide)
  have nearly : NearlyNext (1073741823 : ℤ).toNat 2 := ⟨by decide, by decide⟩
  obtain ⟨unit, numeral, listed, shown, value⟩ := nearlyNext 2 (by decide) (by decide) nearly
  obtain rfl : unit = "MB" := Option.some.inj listed.symm
  exact ⟨by decide, by decide, fun small => belowNext.mp small 2 (by decide) (by decide) nearly,
    numeral, shown, value⟩

/-- One byte less than a megabyte is shown as 1024 kilobytes. -/
theorem megabyteShort_not_below_next : ¬ ShownBelowNext 1048575 := by
  have shown : Shown 1048575
      ⟨['1', '0', '2', '4'], [], List.all_eq_true.mp rfl, nofun, nofun, nofun⟩ "KB" := by
    decide +kernel
  have number : Nat.ofDigitChars 10 ['1', '0', '2', '4'] 0 = 1024 := by decide
  rw [shown.belowNext_iff, Numeral.value, number]
  norm_num

end Synopsis
