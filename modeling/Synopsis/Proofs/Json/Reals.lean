import Synopsis.Decimal.Shortest
import Synopsis.Proofs.Json.Numerals

/-!
# Floating point numbers in a JSON document

A floating point number is written by its shortest digits, with a fraction or an exponent, or by a
word if it is not finite, and so it is read as a floating point number again. That it is read as the
same one is left open.
-/

namespace Synopsis

namespace Decimal

open Float.Model

/-! ## The bits of a number -/

theorem toNat_unpackExponent (b : BitVec Format.binary64.numBits) :
    (UnpackedFloat.unpackExponent b).toNat = b.toNat / 2 ^ 52 % 2 ^ 11 := by
  simp [UnpackedFloat.unpackExponent, BitVec.extractLsb_toNat, Nat.shiftRight_eq_div_pow]

theorem toNat_unpackMantissa (b : BitVec Format.binary64.numBits) :
    (UnpackedFloat.unpackMantissa b).toNat = b.toNat % 2 ^ 52 := by
  simp [UnpackedFloat.unpackMantissa, BitVec.extractLsb_toNat]

/-- Bits whose exponent is full stand for no finite number. -/
theorem unpack_of_full {b : BitVec Format.binary64.numBits}
    (full : 0x7FF * 2 ^ 52 ≤ b.toNat % 2 ^ 63) :
    UnpackedFloat.unpack Format.binary64 b =
      if b.toNat % 2 ^ 63 = 0x7FF * 2 ^ 52 then
        .infinity (UnpackedFloat.Sign.ofBitVec (UnpackedFloat.unpackSign b))
      else .notANumber := by
  have exponent : UnpackedFloat.unpackExponent b = -1#_ := by
    apply BitVec.eq_of_toNat_eq
    rw [toNat_unpackExponent]
    change _ = 2047
    omega
  have mantissa : UnpackedFloat.unpackMantissa b = 0#_ ↔ b.toNat % 2 ^ 63 = 0x7FF * 2 ^ 52 := by
    rw [← BitVec.toNat_inj, toNat_unpackMantissa]
    change _ = 0 ↔ _
    omega
  change (if UnpackedFloat.unpackExponent b = -1#_ then
    if UnpackedFloat.unpackMantissa b = 0#_ then _ else _ else _) = _
  rw [if_pos exponent]
  by_cases none : b.toNat % 2 ^ 63 = 0x7FF * 2 ^ 52
  · rw [if_pos none, if_pos (mantissa.mpr none)]
  · rw [if_neg none, if_neg (mt mantissa.mp none)]

/-- A number that is finite has no full exponent. -/
theorem magnitude_lt {x : Float} (number : x.isNaN = false) (finite : x.isInf = false) :
    x.toBits.toNat % 2 ^ 63 < 0x7FF * 2 ^ 52 := by
  by_contra full
  have parts := unpack_of_full (b := x.toModel.toBits.toBitVec) (Nat.not_lt.mp full)
  change x.toModel.unpack.isNaN = false at number
  change x.toModel.unpack.isInf = false at finite
  rw [Float.Model.unpack, parts] at number finite
  split at number
  · rw [if_pos ‹_›] at finite
    cases finite
  · cases number

/-! ## The shortest digits -/

/-- The digits that are found are those of a neighbour of the number, and not of zero. -/
theorem search_pos {d : Double} {p : Int} {fuel count n : Nat} {k : Int}
    (found : d.search p fuel count = some (n, k)) : 0 < n := by
  induction fuel generalizing count with
  | zero => cases found
  | succ fuel ih =>
    rw [Double.search] at found
    split at found
    extract_lets weight at found
    split at found
    extract_lets below inside distance above at found
    have first (hit : (inside below && below != 0) = true) : 0 < below := by
      simp only [Bool.and_eq_true, bne_iff_ne] at hit
      exact Nat.pos_of_ne_zero hit.2
    have second : 0 < above := Nat.succ_pos below
    clear_value weight below above
    split at found
    · rename_i hit _
      split at found
      · cases found
        exact first hit
      split at found
      · cases found
        exact second
      split at found
      · cases found
        exact first hit
      · cases found
        exact second
    · rename_i hit _
      cases found
      exact first hit
    · cases found
      exact second
    · exact ih found

/-- Significant digits do not start with a zero, but for zero itself. -/
structure Significant (ds : List Char) (p : Int) : Prop where
  nonempty : ds ≠ []
  digits : ∀ c ∈ ds, c.isDigit = true
  leading : ds.head? = some '0' → ds = ['0'] ∧ p = 0

theorem significant_dropZeros {n : Nat} (positive : 0 < n) (p : Int) :
    Significant (dropZeros (digits n)) p := by
  have head := head?_digits positive
  have isDigit (c : Char) (h : c ∈ digits n) : c.isDigit = true := isDigit_of_mem_digits h
  have nonempty := digits_ne_nil n
  obtain ⟨zeros, parts⟩ := exists_dropZeros_append (digits n)
  generalize dropZeros (digits n) = kept at parts
  generalize digits n = ds at *
  subst parts
  have some : kept ≠ [] := by
    rintro rfl
    cases zeros with
    | zero => exact nonempty rfl
    | succ zeros => exact head rfl
  rw [List.head?_append_of_ne_nil _ some] at head
  exact ⟨some, fun c h => isDigit c (List.mem_append_left _ h), fun zero => absurd zero head⟩

theorem significant_shortest (d : Double) : Significant d.shortest.1 d.shortest.2 := by
  unfold Double.shortest
  split
  split
  · rename_i found
    exact significant_dropZeros (search_pos found) _
  · exact ⟨List.cons_ne_nil _ _, List.forall_mem_singleton.mpr rfl, fun _ => ⟨rfl, rfl⟩⟩

end Decimal

namespace Json

open Decimal

/-! ## Digits with a fraction or an exponent -/

variable {whole ds : List Char} {p : Int}

theorem digits_zero : Digits ['0'] := ⟨List.cons_ne_nil _ _, List.forall_mem_singleton.mpr rfl⟩

theorem digits_zeros_append (count : Nat) (digits : Digits ds) :
    Digits (List.replicate count '0' ++ ds) := by
  refine ⟨List.append_ne_nil_of_right_ne_nil _ digits.1, fun c h => ?_⟩
  rcases List.mem_append.mp h with h | h
  · rw [List.eq_of_mem_replicate h]
    rfl
  · exact digits.2 c h

theorem power_exponentText (p : Int) :
    ∃ sign ds, Digits ds ∧ sign ∈ ['+', '-'] ∧ exponentText p = 'e' :: sign :: ds := by
  refine ⟨_, _, digits_zeros_append _ (digits_digits p.natAbs), ?_, rfl⟩
  split <;> decide

/-- A floating point number as it is written: not only by a whole part. -/
def Written.IsReal (n : Written) : Prop := n.fraction ≠ [] ∨ n.exponent ≠ []

/-- Digits, a point and digits. -/
theorem exists_written_point (first : Digits whole)
    (leading : whole.head? = some '0' → whole = ['0'])
    (places : Digits ds) (negative : Bool) :
    ∃ n : Written, n.IsReal ∧ n.negative = negative ∧ n.body = whole ++ '.' :: ds :=
  ⟨{  negative := negative
      whole := whole
      fraction := '.' :: ds
      exponent := []
      wholeDigits := first
      leading := leading
      places := Or.inr ⟨ds, places, rfl⟩
      power := Or.inl rfl },
    Or.inl (List.cons_ne_nil _ _), rfl, by rw [Written.body, List.append_nil]⟩

/-- One digit, places or none, and an exponent. -/
theorem exists_written_power {d : Char} {fraction : List Char} (isDigit : d.isDigit = true)
    (places : fraction = [] ∨ ∃ ds, Digits ds ∧ fraction = '.' :: ds) (p : Int) (negative : Bool) :
    ∃ n : Written, n.IsReal ∧ n.negative = negative ∧
      n.body = d :: (fraction ++ exponentText p) := by
  have power := power_exponentText p
  refine ⟨{
    negative := negative
    whole := [d]
    fraction := fraction
    exponent := exponentText p
    wholeDigits := ⟨List.cons_ne_nil _ _, List.forall_mem_singleton.mpr isDigit⟩
    leading := fun zero => by rw [Option.some.inj zero]
    places := places
    power := Or.inr power }, Or.inr (List.cons_ne_nil _ _), rfl, rfl⟩

/-- The digits before the point, up to the weight of one. -/
theorem digits_take (significant : Significant ds p) :
    Digits (ds.take (p.toNat + 1) ++ List.replicate (p.toNat + 1 - ds.length) '0') ∧
      ((ds.take (p.toNat + 1) ++ List.replicate (p.toNat + 1 - ds.length) '0').head? = some '0' →
        ds.take (p.toNat + 1) ++ List.replicate (p.toNat + 1 - ds.length) '0' = ['0']) := by
  obtain ⟨nonempty, digits, leading⟩ := significant
  have some : ds.take (p.toNat + 1) ≠ [] := by
    simpa [List.take_eq_nil_iff] using nonempty
  refine ⟨⟨List.append_ne_nil_of_left_ne_nil some _, fun c h => ?_⟩, fun zero => ?_⟩
  · rcases List.mem_append.mp h with h | h
    · exact digits c (List.mem_of_mem_take h)
    · rw [List.eq_of_mem_replicate h]
      rfl
  · rw [List.head?_append_of_ne_nil _ some, List.head?_take, if_neg (Nat.succ_ne_zero _)] at zero
    obtain ⟨rfl, rfl⟩ := leading zero
    rfl

theorem exists_written_text (significant : Significant ds p) (negative : Bool) :
    ∃ n : Written, n.IsReal ∧ n.negative = negative ∧ n.body = shortestLayout.text ds p := by
  have digits : Digits ds := ⟨significant.nonempty, significant.digits⟩
  unfold Layout.text
  split
  · split
    · exact exists_written_point digits_zero (fun _ => rfl) (digits_zeros_append _ digits) negative
    · obtain ⟨first, leading⟩ := digits_take significant
      have others : ∀ c ∈ ds.drop (p.toNat + 1), c.isDigit = true :=
        fun c h => digits.2 c (List.mem_of_mem_drop h)
      extract_lets whole left
      split
      · exact exists_written_point first leading digits_zero negative
      · rename_i nonempty
        exact exists_written_point first leading ⟨nonempty, others⟩ negative
  · rcases ds with _ | ⟨d, _ | ⟨e, more⟩⟩
    · exact absurd rfl digits.1
    · exact exists_written_power (digits.2 d List.mem_cons_self) (Or.inl rfl) p negative
    · have places : Digits (e :: more) :=
        ⟨List.cons_ne_nil _ _, fun c h => digits.2 c (List.mem_cons_of_mem d h)⟩
      exact exists_written_power (digits.2 d List.mem_cons_self) (Or.inr ⟨e :: more, places, rfl⟩) p
        negative

/-- A finite floating point number is written as one. -/
theorem exists_written_float {x : Float} (number : x.isNaN = false) (finite : x.isInf = false) :
    ∃ n : Written, n.IsReal ∧ (Decimal.floatText x).toList = n.chars := by
  have below : x.toBits.toNat % Nat.pow 2 63 < 0x7FF * Nat.pow 2 52 := magnitude_lt number finite
  have signed (n : Written) (negative : n.negative = decide (Nat.pow 2 63 ≤ x.toBits.toNat)) :
      (if Nat.pow 2 63 ≤ x.toBits.toNat then "-" else "").toList ++ n.body = n.chars := by
    rw [Written.chars, negative]
    by_cases minus : Nat.pow 2 63 ≤ x.toBits.toNat
    · rw [if_pos minus, if_pos (decide_eq_true minus)]
      rfl
    · rw [if_neg minus, if_neg (by simpa using minus)]
      rfl
  unfold Decimal.floatText
  extract_lets bits sign magnitude
  rw [if_neg (Nat.not_lt.mpr below.le), if_neg (by simpa using below.ne)]
  split
  · obtain ⟨n, real, negative, body⟩ := exists_written_point digits_zero (fun _ => rfl) digits_zero
      (decide (Nat.pow 2 63 ≤ x.toBits.toNat))
    refine ⟨n, real, ?_⟩
    rw [String.toList_append, ← signed n negative, body]
    rfl
  · rename_i d _
    obtain ⟨n, real, negative, body⟩ := exists_written_text (significant_shortest d)
      (decide (Nat.pow 2 63 ≤ x.toBits.toNat))
    refine ⟨n, real, ?_⟩
    dsimp only
    rw [String.toList_append, String.toList_ofList, ← signed n negative, body]

theorem floatText_cases (x : Float) : floatText x ∈ ["NaN", "Infinity", "-Infinity"] ∨
    ∃ n : Written, n.IsReal ∧ (floatText x).toList = n.chars := by
  rw [floatText]
  split
  · exact Or.inl (by decide)
  · rename_i number
    split
    · split <;> exact Or.inl (by decide)
    · rename_i finite
      exact Or.inr
        (exists_written_float (Bool.not_eq_true _ ▸ number) (Bool.not_eq_true _ ▸ finite))

theorem exists_reads_written {n : Written} (real : n.IsReal) :
    ∃ y, ∀ fuel depth, Reads (value fuel depth) n.chars (.float y) := by
  have parts : ¬ (n.fraction.isEmpty && n.exponent.isEmpty) = true := by
    simpa [Written.IsReal, not_and_or, imp_iff_not_or] using real
  let x := (numeral? (n.whole ++ n.fraction ++ n.exponent)).getD 0.0
  refine ⟨if n.negative then -x else x, fun fuel depth rest position ends =>
    ⟨position + n.chars.length, ?_⟩⟩
  rw [value_chars, n.number_chars ends, if_neg parts]

/-- A floating point number is read as one. -/
theorem exists_reads_float (x : Float) :
    ∃ y, ∀ fuel depth, Reads (value fuel depth) (print (.float x)).toList (.float y) := by
  rw [print]
  rcases floatText_cases x with word | ⟨n, real, chars⟩
  · simp only [List.mem_cons, List.not_mem_nil, or_false] at word
    rcases word with word | word | word <;> rw [word]
    · exact ⟨0.0 / 0.0, fun fuel depth rest position _ =>
        ⟨position + 3, value_plain (by decide) fuel depth ("aN".toList ++ rest) position⟩⟩
    · exact ⟨1.0 / 0.0, fun fuel depth rest position _ =>
        ⟨position + 8, value_plain (by decide) fuel depth ("nfinity".toList ++ rest) position⟩⟩
    · exact ⟨-1.0 / 0.0, fun fuel depth rest position _ =>
        ⟨position + 9, value_plain (by decide) fuel depth ("Infinity".toList ++ rest) position⟩⟩
  · rw [chars]
    exact exists_reads_written real

end Json

end Synopsis
