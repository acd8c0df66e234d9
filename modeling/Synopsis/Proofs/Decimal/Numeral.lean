import Mathlib.Algebra.Order.Field.Rat
import Mathlib.Tactic.FieldSimp
import Mathlib.Tactic.Linarith
import Synopsis.Decimal.Layout
import Synopsis.Proofs.Text.Blank

/-!
# Decimal numerals

A numeral is written without needless zeros: none before the whole part, none after the fraction,
and no point without a fraction. Significant digits that are laid out in positions are the numeral
of the number that they write, the last of them being of whatever weight below one. A text is a
numeral in one way at most.
-/

namespace Synopsis.Decimal

/-- A decimal numeral: digits before the point, not starting with a zero but for zero itself, and
digits after it, not ending with a zero. -/
@[ext]
structure Numeral where
  whole : List Char
  fraction : List Char
  digits : ∀ c ∈ whole ++ fraction, c.isDigit = true
  nonempty : whole ≠ []
  leading : whole.head? = some '0' → whole = ['0']
  trailing : fraction.getLast? ≠ some '0'

namespace Numeral

/-- The characters of a numeral; there is a point only before digits. -/
def chars (numeral : Numeral) : List Char :=
  match numeral.fraction with
  | [] => numeral.whole
  | fraction => numeral.whole ++ '.' :: fraction

/-- The numeral as a text. -/
def text (numeral : Numeral) : String := String.ofList numeral.chars

/-- The number that is written. -/
def value (numeral : Numeral) : ℚ :=
  Nat.ofDigitChars 10 numeral.whole 0 +
    Nat.ofDigitChars 10 numeral.fraction 0 / 10 ^ numeral.fraction.length

end Numeral

/-! ## Digits -/

variable {n : ℕ} {ds : List Char}

theorem digits_eq (n : ℕ) : digits n = Nat.toDigits 10 n := by
  rw [digits, Nat.toString_eq_repr, Nat.toList_repr]

theorem digits_ne_nil (n : ℕ) : digits n ≠ [] := by
  rw [digits_eq]
  exact Nat.toDigits_ne_nil

theorem isDigit_of_mem_digits {c : Char} (h : c ∈ digits n) : c.isDigit = true :=
  Nat.isDigit_of_mem_toDigits (by decide) (by decide) (digits_eq n ▸ h)

theorem length_digits_le_iff {k : ℕ} (positive : 0 < k) : (digits n).length ≤ k ↔ n < 10 ^ k := by
  rw [digits_eq, Nat.length_toDigits_le_iff (by decide) positive]

/-- A number of so many digits is between two powers of ten. -/
theorem length_digits_eq_iff {p : ℕ} (positive : 0 < n) :
    (digits n).length = p + 1 ↔ 10 ^ p ≤ n ∧ n < 10 ^ (p + 1) := by
  have least : ¬ (digits n).length ≤ p ↔ 10 ^ p ≤ n := by
    cases p with
    | zero =>
      refine iff_of_true ?_ positive
      rw [Nat.le_zero, List.length_eq_zero_iff]
      exact digits_ne_nil n
    | succ p => rw [length_digits_le_iff (Nat.succ_pos p), Nat.not_lt]
  rw [← least, ← length_digits_le_iff (Nat.succ_pos p)]
  omega

theorem head?_digits (positive : 0 < n) : (digits n).head? ≠ some '0' := by
  rw [digits_eq]
  induction n using Nat.base_induction 10 (by decide) with
  | single m small =>
    have nonzero : ∀ m < 10, 0 < m → m.digitChar ≠ '0' := by decide
    rw [Nat.toDigits_of_lt_base small]
    exact fun h => nonzero m small positive (Option.some.inj h)
  | digit m k small above ih =>
    rw [← Nat.toDigits_append_toDigits (by decide) above small,
      List.head?_append_of_ne_nil _ Nat.toDigits_ne_nil]
    exact ih above

/-- Digits are what is left of them without the zeros at the end, and those zeros. -/
theorem exists_dropZeros_append (ds : List Char) :
    ∃ zeros, ds = dropZeros ds ++ List.replicate zeros '0' :=
  Text.exists_dropTrailing_append '0' ds

theorem getLast?_dropZeros (ds : List Char) : (dropZeros ds).getLast? ≠ some '0' :=
  Text.getLast?_dropTrailing '0' ds

/-! ## Digits laid out in positions -/

/-- The number that digits write is that of the first ones, moved on, and that of the others. -/
theorem ofDigitChars_take_drop (count : ℕ) (ds : List Char) :
    Nat.ofDigitChars 10 ds 0 =
      10 ^ (ds.length - count) * Nat.ofDigitChars 10 (ds.take count) 0 +
        Nat.ofDigitChars 10 (ds.drop count) 0 := by
  rw [← List.length_drop, ← Nat.ofDigitChars_eq_ofDigitChars_zero, ← Nat.ofDigitChars_append,
    List.take_append_drop]

theorem sixDigits_text {numeral : Numeral} {p : ℕ} (small : p < 6)
    (whole : numeral.whole = ds.take (p + 1) ++ List.replicate (p + 1 - ds.length) '0')
    (fraction : numeral.fraction = ds.drop (p + 1)) : sixDigits.text ds p = numeral.chars := by
  have range : (sixDigits.low ≤ (p : Int) && (p : Int) < sixDigits.high) = true := by
    simp [sixDigits]
    omega
  unfold Layout.text
  rw [if_pos range, if_neg (by omega), Numeral.chars, whole, fraction]
  rfl

/-- Significant digits of a number, with those up to the weight of one before the point. -/
theorem exists_numeral {p : ℕ} (positive : 0 < n) (small : p < 6) (long : p < (digits n).length) :
    ∃ numeral : Numeral, sixDigits.text (dropZeros (digits n)) p = numeral.chars ∧
      numeral.value = n / 10 ^ ((digits n).length - (p + 1)) := by
  have head := head?_digits positive
  have isDigit (c : Char) (h : c ∈ digits n) : c.isDigit = true := isDigit_of_mem_digits h
  have number : Nat.ofDigitChars 10 (digits n) 0 = n := by
    rw [digits_eq, Nat.ofDigitChars_ten_toDigits]
  have last := getLast?_dropZeros (digits n)
  obtain ⟨zeros, parts⟩ := exists_dropZeros_append (digits n)
  generalize dropZeros (digits n) = kept at last parts
  generalize digits n = ds at *
  have whole : ds.take (p + 1) =
      kept.take (p + 1) ++ List.replicate (p + 1 - kept.length) '0' := by
    rw [parts, List.length_append, List.length_replicate] at long
    rw [parts, List.take_append, List.take_replicate, Nat.min_eq_left (by omega)]
  have fraction : ds.drop (p + 1) =
      kept.drop (p + 1) ++ List.replicate (zeros - (p + 1 - kept.length)) '0' := by
    rw [parts, List.drop_append, List.drop_replicate]
  refine ⟨{
    whole := ds.take (p + 1)
    fraction := kept.drop (p + 1)
    digits := ?digits
    nonempty := ?nonempty
    leading := ?leading
    trailing := ?trailing }, sixDigits_text small whole rfl, ?value⟩
  case digits =>
    intro c h
    refine isDigit c ?_
    rcases List.mem_append.mp h with h | h
    · exact List.mem_of_mem_take h
    · exact parts ▸ List.mem_append_left _ (List.mem_of_mem_drop h)
  case nonempty =>
    rw [ne_eq, List.take_eq_nil_iff, not_or]
    exact ⟨Nat.succ_ne_zero p, List.length_pos_iff.mp (by omega)⟩
  case leading =>
    rw [List.head?_take, if_neg (Nat.succ_ne_zero p)]
    exact fun zero => absurd zero head
  case trailing =>
    rw [List.getLast?_drop]
    split
    · nofun
    · exact last
  case value =>
    have shift : ds.length - (p + 1) =
        (kept.drop (p + 1)).length + (zeros - (p + 1 - kept.length)) := by
      rw [← List.length_drop, fraction, List.length_append, List.length_replicate]
    have sum := ofDigitChars_take_drop (p + 1) ds
    rw [number, fraction, Nat.ofDigitChars_append, Nat.ofDigitChars_replicate_zero, shift] at sum
    rw [Numeral.value, sum, shift]
    push_cast
    rw [pow_add]
    field_simp

/-! ## Numerals in a text -/

namespace Numeral

variable {numeral other : Numeral}

theorem chars_cases (numeral : Numeral) :
    (numeral.fraction = [] ∧ numeral.chars = numeral.whole) ∨
      numeral.chars = numeral.whole ++ '.' :: numeral.fraction := by
  rw [chars]
  split
  · rename_i none
    exact Or.inl ⟨none, rfl⟩
  · exact Or.inr rfl

theorem ne_of_mem {c mark : Char} (h : c ∈ numeral.whole ++ numeral.fraction)
    (noDigit : mark.isDigit = false) : c ≠ mark := by
  rintro rfl
  rw [numeral.digits c h] at noDigit
  cases noDigit

theorem blank_notMem_chars (numeral : Numeral) : ' ' ∉ numeral.chars := by
  intro h
  rcases numeral.chars_cases with ⟨-, same⟩ | same
  · exact ne_of_mem (List.mem_append_left _ (same ▸ h)) rfl rfl
  · rw [same] at h
    rcases List.mem_append.mp h with h | h
    · exact ne_of_mem (List.mem_append_left _ h) rfl rfl
    · exact ne_of_mem (List.mem_append_right _ (List.mem_of_ne_of_mem (by decide) h)) rfl rfl

/-- The whole part and the fraction are what is before and after the point. -/
theorem span_chars (numeral : Numeral) : numeral.chars.takeWhile (· != '.') = numeral.whole ∧
    (numeral.chars.dropWhile (· != '.')).tail = numeral.fraction := by
  have before : ∀ c ∈ numeral.whole, (c != '.') = true := fun c h =>
    bne_iff_ne.mpr (ne_of_mem (List.mem_append_left _ h) rfl)
  rcases numeral.chars_cases with ⟨none, same⟩ | same
  · rw [same, none, List.takeWhile_eq_self_iff.mpr before, List.dropWhile_eq_nil_iff.mpr before]
    exact ⟨rfl, rfl⟩
  · rw [same, List.takeWhile_append_of_pos before, List.dropWhile_append_of_pos before]
    exact ⟨List.append_nil _, rfl⟩

theorem eq_of_chars_eq (same : numeral.chars = other.chars) : numeral = other := by
  obtain ⟨whole, fraction⟩ := numeral.span_chars
  obtain ⟨whole', fraction'⟩ := other.span_chars
  exact Numeral.ext (by rw [← whole, same, whole']) (by rw [← fraction, same, fraction'])

theorem takeWhile_chars_append (numeral : Numeral) (rest : List Char) :
    (numeral.chars ++ ' ' :: rest).takeWhile (· != ' ') = numeral.chars := by
  have visible : ∀ c ∈ numeral.chars, (c != ' ') = true := by
    intro c h
    refine bne_iff_ne.mpr ?_
    rintro rfl
    exact numeral.blank_notMem_chars h
  rw [List.takeWhile_append_of_pos visible]
  exact List.append_nil _

/-- A numeral before a blank is told from what follows. -/
theorem text_append_inj {unit unit' : String}
    (same : numeral.text ++ " " ++ unit = other.text ++ " " ++ unit') :
    numeral = other ∧ unit = unit' := by
  have chars : numeral.chars ++ ' ' :: unit.toList = other.chars ++ ' ' :: unit'.toList := by
    simpa [text] using congrArg String.toList same
  have first := congrArg (List.takeWhile (· != ' ')) chars
  rw [takeWhile_chars_append, takeWhile_chars_append] at first
  rw [first, List.append_cancel_left_eq, List.cons_inj_right] at chars
  exact ⟨eq_of_chars_eq first, String.toList_inj.mp chars⟩

end Numeral

end Synopsis.Decimal
