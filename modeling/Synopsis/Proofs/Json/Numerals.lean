import Synopsis.Json.Printer
import Synopsis.Json.Reader
import Synopsis.Proofs.Decimal.Numeral

/-!
# Numbers in a JSON document

A number is a sign, a whole part without needless zeros, a fraction and an exponent, and any of them
but the whole part may be left away. It is read up to its end, as an integer or as a floating point
number, wherever nothing follows that could go on with it. Which floating point number it is is left
open.
-/

namespace Synopsis.Json

open Decimal

/-- A run of digits, at least one. -/
def Digits (ds : List Char) : Prop := ds ≠ [] ∧ ∀ c ∈ ds, c.isDigit = true

theorem digits_digits (n : Nat) : Digits (digits n) :=
  ⟨digits_ne_nil n, fun _ => isDigit_of_mem_digits⟩

/-- A digit is none of some marks that are no digits. -/
theorem notMem_of_isDigit {d : Char} {marks : List Char} (isDigit : d.isDigit = true)
    (others : ∀ c ∈ marks, c.isDigit = false) : d ∉ marks := by
  intro listed
  rw [others d listed] at isDigit
  cases isDigit

/-- A number as it is written. -/
structure Written where
  negative : Bool
  whole : List Char
  /-- Empty, or with the point. -/
  fraction : List Char
  /-- Empty, or with the letter and the sign. -/
  exponent : List Char
  wholeDigits : Digits whole
  leading : whole.head? = some '0' → whole = ['0']
  places : fraction = [] ∨ ∃ ds, Digits ds ∧ fraction = '.' :: ds
  power : exponent = [] ∨ ∃ sign ds, Digits ds ∧ sign ∈ ['+', '-'] ∧ exponent = 'e' :: sign :: ds

/-- What can follow a value: nothing, or what parts it from others or ends them. -/
def Ends (rest : List Char) : Prop := ∀ c ∈ rest.head?, c ∈ [',', ']', '\x7d']

/-- What is written is read, wherever a value can end, and nothing of what follows. -/
def Reads {α : Type} (reader : Reader α) (written : List Char) (a : α) : Prop :=
  ∀ rest position, Ends rest →
    ∃ after, reader ⟨written ++ rest, position⟩ = .ok (a, ⟨rest, after⟩)

namespace Written

variable {rest ds : List Char}

/-! ## Parts of a number -/

/-- The characters without the sign. -/
def body (n : Written) : List Char := n.whole ++ (n.fraction ++ n.exponent)

/-- The characters of the number. -/
def chars (n : Written) : List Char := (if n.negative then ['-'] else []) ++ n.body

theorem digitsOf_append (digits : ∀ c ∈ ds, c.isDigit = true)
    (stop : ∀ c ∈ rest.head?, c.isDigit = false) : digitsOf (ds ++ rest) = ds := by
  rw [digitsOf, List.takeWhile_append_of_pos digits]
  cases rest with
  | nil => exact List.append_nil ds
  | cons c rest => rw [List.takeWhile_cons_of_neg (by simp [stop c rfl]), List.append_nil]

/-- Where a value can end, none of its numbers goes on. -/
theorem stops_of_ends (ends : Ends rest) :
    ∀ c ∈ rest.head?, c.isDigit = false ∧ c ≠ '.' ∧ c ≠ 'e' ∧ c ≠ 'E' := by
  have marks : ∀ c ∈ [',', ']', '\x7d'], c.isDigit = false ∧ c ≠ '.' ∧ c ≠ 'e' ∧ c ≠ 'E' := by
    simp
  exact fun c first => marks c (ends c first)

theorem exponentOf_append (n : Written) (ends : Ends rest) :
    exponentOf (n.exponent ++ rest) = n.exponent := by
  have stops := stops_of_ends ends
  rcases n.power with none | ⟨sign, ds, ⟨nonempty, digits⟩, signed, parts⟩
  · rw [none, List.nil_append]
    cases rest with
    | nil => rfl
    | cons c rest =>
      obtain ⟨-, -, small, capital⟩ := stops c rfl
      simp [exponentOf, small, capital]
  · have run : digitsOf (ds ++ rest) = ds := digitsOf_append digits fun c first => (stops c first).1
    rw [parts]
    simp only [List.mem_cons, List.not_mem_nil, or_false] at signed
    rcases signed with rfl | rfl <;> simp [exponentOf, run, nonempty]

/-- Neither the exponent nor what follows the number goes on with its fraction. -/
theorem stops_exponent (n : Written) (ends : Ends rest) :
    ∀ c ∈ (n.exponent ++ rest).head?, c.isDigit = false ∧ c ≠ '.' := by
  rcases n.power with none | ⟨sign, ds, -, -, parts⟩
  · rw [none, List.nil_append]
    intro c first
    exact ⟨(stops_of_ends ends c first).1, (stops_of_ends ends c first).2.1⟩
  · rw [parts]
    rintro c ⟨⟩
    decide

theorem fractionOf_append (n : Written) (ends : Ends rest) :
    fractionOf (n.fraction ++ (n.exponent ++ rest)) = n.fraction := by
  have stops := n.stops_exponent ends
  rcases n.places with none | ⟨ds, ⟨nonempty, digits⟩, parts⟩
  · rw [none, List.nil_append]
    generalize n.exponent ++ rest = left at stops
    cases left with
    | nil => rfl
    | cons c left => simp [fractionOf, (stops c rfl).2]
  · have run : digitsOf (ds ++ (n.exponent ++ rest)) = ds :=
      digitsOf_append digits fun c first => (stops c first).1
    rw [parts, List.cons_append, fractionOf, run, if_neg (by simpa using nonempty)]

/-- No digit goes on with the whole part. -/
theorem stops_fraction (n : Written) (ends : Ends rest) :
    ∀ c ∈ (n.fraction ++ (n.exponent ++ rest)).head?, c.isDigit = false := by
  rcases n.places with none | ⟨ds, -, parts⟩
  · rw [none, List.nil_append]
    exact fun c first => (n.stops_exponent ends c first).1
  · rw [parts]
    rintro c ⟨⟩
    decide

/-- The whole part as a number is read: a zero goes on with nothing,
and other digits with digits. -/
theorem whole_append (n : Written) (ends : Ends rest) :
    (match n.body ++ rest with
      | '0' :: _ => ['0']
      | body => digitsOf body) = n.whole := by
  have run : digitsOf (n.body ++ rest) = n.whole := by
    rw [body, List.append_assoc, List.append_assoc]
    exact digitsOf_append n.wholeDigits.2 (n.stops_fraction ends)
  obtain ⟨first, others, parts⟩ := List.exists_cons_of_ne_nil n.wholeDigits.1
  split
  · rename_i same
    rw [body, parts] at same
    cases same
    exact (n.leading (by rw [parts]; rfl)).symm
  · exact run

/-- The sign as a number is read. -/
theorem sign_append (n : Written) (rest : List Char) :
    (match n.chars ++ rest with
      | '-' :: body => (true, body)
      | body => (false, body)) = (n.negative, n.body ++ rest) := by
  rw [chars]
  cases n.negative with
  | true => rfl
  | false =>
    obtain ⟨first, others, parts⟩ := List.exists_cons_of_ne_nil n.wholeDigits.1
    have isDigit := n.wholeDigits.2 first (by rw [parts]; exact List.mem_cons_self)
    simp only [Bool.false_eq_true, if_false, List.nil_append]
    split
    · rename_i same
      rw [body, parts] at same
      cases same
      cases isDigit
    · rfl

/-! ## Reading -/

/-- The number is read up to its end: as an integer if it is nothing but a whole part. -/
theorem number_chars (n : Written) (ends : Ends rest) (position : Nat) :
    number ⟨n.chars ++ rest, position⟩ =
      if n.fraction.isEmpty && n.exponent.isEmpty then
        if longestNumeral < n.whole.length then .error (.longInteger n.whole.length)
        else
          let m : Int := ofDigits 10 (n.whole.filterMap digit?)
          .ok (.int (if n.negative then -m else m), ⟨rest, position + n.chars.length⟩)
      else
        let x := (numeral? (n.whole ++ n.fraction ++ n.exponent)).getD 0.0
        .ok (.float (if n.negative then -x else x), ⟨rest, position + n.chars.length⟩) := by
  have afterWhole : (n.body ++ rest).drop n.whole.length = n.fraction ++ (n.exponent ++ rest) := by
    rw [body, List.append_assoc, List.drop_left, List.append_assoc]
  have afterFraction : (n.body ++ rest).drop (n.whole.length + n.fraction.length) =
      n.exponent ++ rest := by
    rw [← List.drop_drop, afterWhole, List.drop_left]
  have count : (if n.negative then 1 else 0) + n.whole.length + n.fraction.length +
      n.exponent.length = n.chars.length := by
    rw [chars, body]
    cases n.negative <;> simp <;> omega
  have left : Cursor.skip ⟨n.chars ++ rest, position⟩ n.chars.length =
      ⟨rest, position + n.chars.length⟩ := by
    rw [Cursor.skip, List.drop_left]
  unfold number
  split
  rename_i negative body signed
  obtain ⟨rfl, rfl⟩ := Prod.mk.inj (signed.symm.trans (n.sign_append rest))
  extract_lets whole fraction exponent length
  have sameWhole : whole = n.whole := n.whole_append ends
  have sameFraction : fraction = n.fraction := by
    rw [← n.fractionOf_append ends, ← afterWhole, ← sameWhole]
  have sameExponent : exponent = n.exponent := by
    rw [← n.exponentOf_append ends, ← afterFraction, ← sameFraction, ← sameWhole]
  have sameLength : length = n.chars.length := by
    rw [← count, ← sameFraction, ← sameExponent, ← sameWhole]
  clear_value length exponent fraction whole
  subst sameWhole sameFraction sameExponent sameLength
  rw [if_neg (by simpa using n.wholeDigits.1), left]

/-- A number starts with a digit or with a sign before one. -/
theorem chars_cases (n : Written) : ∃ d ds, d.isDigit = true ∧
    (n.chars = d :: ds ∨ n.chars = '-' :: d :: ds) := by
  obtain ⟨d, ds, parts⟩ := List.exists_cons_of_ne_nil n.wholeDigits.1
  refine ⟨d, ds ++ (n.fraction ++ n.exponent), n.wholeDigits.2 d (by simp [parts]), ?_⟩
  rw [chars, body, parts]
  cases n.negative with
  | false => exact Or.inl rfl
  | true => exact Or.inr rfl

end Written

/-! ## Words -/

variable {rest : List Char} {position : Nat}

theorem plain_chars (n : Written) (rest : List Char) (position : Nat) :
    plain ⟨n.chars ++ rest, position⟩ = number ⟨n.chars ++ rest, position⟩ := by
  obtain ⟨d, ds, isDigit, parts⟩ := n.chars_cases
  have other {c : Char} (letter : c.isDigit = false) : (c == d) = false := by
    rw [beq_eq_false_iff_ne]
    rintro rfl
    rw [letter] at isDigit
    cases isDigit
  have noWord (entry : String × Datum) (listed : entry ∈ words) :
      ¬ (Text.dropPrefix? entry.1.toList (n.chars ++ rest)).isSome = true := by
    simp only [words, List.mem_cons, List.not_mem_nil, or_false] at listed
    rcases parts with parts | parts <;> rw [parts] <;>
      rcases listed with rfl | rfl | rfl | rfl | rfl | rfl <;> simp [Text.dropPrefix?, other]
  rw [plain, List.find?_eq_none.mpr noWord]

theorem value_plain {c : Char} (other : c ∉ ['"', '[', '\x7b']) (fuel depth : Nat) (cs : List Char)
    (position : Nat) : value fuel depth ⟨c :: cs, position⟩ = plain ⟨c :: cs, position⟩ := by
  simp only [List.mem_cons, List.not_mem_nil, or_false, not_or] at other
  rw [value.eq_def]
  dsimp only
  split
  · rename_i same
    exact absurd (List.cons.inj same).1 other.1
  · rename_i same
    exact absurd (List.cons.inj same).1 other.2.1
  · rename_i same
    exact absurd (List.cons.inj same).1 other.2.2
  · rfl

theorem value_chars (n : Written) (fuel depth : Nat) (rest : List Char) (position : Nat) :
    value fuel depth ⟨n.chars ++ rest, position⟩ = number ⟨n.chars ++ rest, position⟩ := by
  rw [← plain_chars]
  obtain ⟨d, ds, isDigit, parts | parts⟩ := n.chars_cases <;> rw [parts]
  · exact value_plain (notMem_of_isDigit isDigit (by simp)) fuel depth (ds ++ rest) position
  · exact value_plain (by decide) fuel depth (d :: ds ++ rest) position

/-! ## Integers -/

theorem foldl_filterMap_digit? {ds : List Char} (digits : ∀ c ∈ ds, c.isDigit = true) (n : Nat) :
    (ds.filterMap digit?).foldl (fun n d => n * 10 + d) n = Nat.ofDigitChars 10 ds n := by
  induction ds generalizing n with
  | nil => rfl
  | cons c ds ih =>
    have first : digit? c = some (c.toNat - 48) := if_pos (digits c List.mem_cons_self)
    rw [List.filterMap_cons_some first, List.foldl_cons,
      ih fun d inside => digits d (List.mem_cons_of_mem c inside), Nat.ofDigitChars_cons]
    congr 1
    rw [Nat.mul_comm]
    rfl

theorem ofDigits_digits (n : Nat) : ofDigits 10 ((digits n).filterMap digit?) = n := by
  rw [ofDigits, foldl_filterMap_digit? fun c => isDigit_of_mem_digits, digits_eq,
    Nat.ofDigitChars_ten_toDigits]

/-- A number that is not too long to be written has no more digits than are read. -/
theorem length_digits_le_of_isLong {k : Int} (short : isLong k = false) :
    (digits k.natAbs).length ≤ longestNumeral := by
  have positive : 0 < longestNumeral := by decide
  rw [isLong, decide_eq_false_iff_not, Nat.not_le] at short
  -- the power is not to be computed
  unfold leastLong at short
  generalize longestNumeral = most at *
  exact (length_digits_le_iff positive).mpr short

/-- An integer as it is written. -/
def Written.ofInt (k : Int) : Written where
  negative := decide (k < 0)
  whole := digits k.natAbs
  fraction := []
  exponent := []
  wholeDigits := digits_digits k.natAbs
  leading zero := by
    rcases Nat.eq_zero_or_pos k.natAbs with none | positive
    · rw [none]
      rfl
    · exact absurd zero (head?_digits positive)
  places := Or.inl rfl
  power := Or.inl rfl

theorem toList_print_int (k : Int) : (print (.int k)).toList = (Written.ofInt k).chars := by
  rw [print, Written.chars, Written.body, Written.ofInt]
  cases k with
  | ofNat n =>
    have signless : ¬ decide (Int.ofNat n < 0) = true := by simp
    rw [if_neg signless, List.nil_append, List.nil_append, List.append_nil]
    rfl
  | negSucc n =>
    have signed : decide (Int.negSucc n < 0) = true := by simp
    have parts : toString (Int.negSucc n) = "-" ++ toString (n + 1) := rfl
    rw [if_pos signed, parts, String.toList_append, List.nil_append, List.append_nil]
    rfl

theorem reads_int {k : Int} (short : isLong k = false) (fuel depth : Nat) :
    Reads (value fuel depth) (print (.int k)).toList (.int k) := by
  intro rest position ends
  have bare :
      ((Written.ofInt k).fraction.isEmpty && (Written.ofInt k).exponent.isEmpty) = true := rfl
  have fits : ¬ longestNumeral < (Written.ofInt k).whole.length :=
    Nat.not_lt.mpr (length_digits_le_of_isLong short)
  have size : ofDigits 10 ((Written.ofInt k).whole.filterMap digit?) = k.natAbs :=
    ofDigits_digits k.natAbs
  have sign : (if (Written.ofInt k).negative then -((k.natAbs : Nat) : Int) else k.natAbs) = k := by
    rw [Written.ofInt]
    by_cases below : k < 0
    · simp only [below, decide_true, if_true]
      omega
    · simp only [below, decide_false, Bool.false_eq_true, if_false]
      omega
  refine ⟨position + (Written.ofInt k).chars.length, ?_⟩
  rw [toList_print_int, value_chars, Written.number_chars _ ends, if_pos bare, if_neg fits]
  dsimp only
  rw [size, sign]

end Synopsis.Json
