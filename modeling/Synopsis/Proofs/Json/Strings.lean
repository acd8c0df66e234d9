import Synopsis.Json.Printer
import Synopsis.Json.Reader

/-!
# Texts between double quotes

A text that is written between double quotes is read back character for character: what has an
escape of its own, control characters, and characters of one and of two code units. Nothing but
characters below U+0080 is written. Texts that are written in another way, with other escapes, are
not spoken of.
-/

namespace Synopsis

namespace Text

/-- The last digit is that of the remainder. -/
theorem hexDigits_succ (width n : Nat) :
    hexDigits (width + 2) n = hexDigits (width + 1) (n / 16) ++ [Nat.digitChar (n % 16)] := by
  by_cases small : n < 16
  · have none : n / 16 = 0 := Nat.div_eq_of_lt small
    rw [none, Nat.mod_eq_of_lt small, hexDigits, hexDigits, Nat.toDigits_of_lt_base small,
      Nat.toDigits_of_lt_base (by decide)]
    simp [List.replicate_succ']
  · have parts : Nat.toDigits 16 n = Nat.toDigits 16 (n / 16) ++ [Nat.digitChar (n % 16)] := by
      have joined := Nat.toDigits_append_toDigits (b := 16) (n := n / 16) (d := n % 16) (by decide)
        (Nat.div_pos (Nat.not_lt.mp small) (by decide)) (Nat.mod_lt n (by decide))
      rw [Nat.div_add_mod, Nat.toDigits_of_lt_base (Nat.mod_lt n (by decide))] at joined
      exact joined.symm
    rw [hexDigits, hexDigits, parts]
    simp

theorem hexDigits_four {n : Nat} (small : n < 0x10000) :
    hexDigits 4 n = [Nat.digitChar (n / 16 / 16 / 16), Nat.digitChar (n / 16 / 16 % 16),
      Nat.digitChar (n / 16 % 16), Nat.digitChar (n % 16)] := by
  have single : hexDigits 1 (n / 16 / 16 / 16) = [Nat.digitChar (n / 16 / 16 / 16)] := by
    rw [hexDigits, Nat.toDigits_of_lt_base (by omega)]
    rfl
  rw [hexDigits_succ, hexDigits_succ, hexDigits_succ, single]
  rfl

theorem length_hexDigits_four {n : Nat} (small : n < 0x10000) : (hexDigits 4 n).length = 4 := by
  rw [hexDigits_four small]
  rfl

end Text

namespace Json

open Text Decimal

theorem hexDigit?_digitChar {d : Nat} (small : d < 16) : hexDigit? (Nat.digitChar d) = some d := by
  revert d
  decide

theorem hexFour?_hexDigits {n : Nat} (small : n < 0x10000) (rest : List Char) :
    hexFour? (hexDigits 4 n ++ rest) = some n := by
  have digit (d : Nat) : hexDigit? (Nat.digitChar (d % 16)) = some (d % 16) :=
    hexDigit?_digitChar (Nat.mod_lt d (by decide))
  have first : hexDigit? (Nat.digitChar (n / 16 / 16 / 16)) = some (n / 16 / 16 / 16) :=
    hexDigit?_digitChar (by omega)
  rw [hexDigits_four small]
  simp only [List.cons_append, hexFour?, first, digit, Option.bind_eq_bind, Option.bind_some,
    Option.pure_def, Option.some.injEq]
  omega

/-! ## One character -/

variable {position : Nat} {rest : List Char}

/-- A code unit that is no half of a pair is a character by itself. -/
theorem unicodeEscape_unit {n : Nat} (small : n < 0x10000) (whole : n < 0xD800 ∨ 0xDFFF < n)
    (later : rest ≠ []) :
    unicodeEscape position (hexDigits 4 n ++ rest) = .ok (Char.ofNat n, 4) := by
  have notHigh : isHigh n = false := by simp [isHigh]; omega
  have notLow : isLow n = false := by simp [isLow]; omega
  have char : unitChar n = Char.ofNat n := by simp [unitChar, notHigh, notLow]
  have after : (hexDigits 4 n ++ rest).drop 4 = rest :=
    List.drop_left' (length_hexDigits_four small)
  rw [unicodeEscape, hexFour?_hexDigits small, after]
  split
  · contradiction
  · contradiction
  · rename_i unit low same
    cases same
    simp [notHigh, char]
  · rename_i same _ _
    cases same
    rw [char]

/-- Two code units that are the halves of a pair are one character. -/
theorem unicodeEscape_pair {high low : Nat} (first : 0xD800 ≤ high ∧ high ≤ 0xDBFF)
    (second : 0xDC00 ≤ low ∧ low ≤ 0xDFFF) (later : rest ≠ []) :
    unicodeEscape position (hexDigits 4 high ++ '\\' :: 'u' :: (hexDigits 4 low ++ rest)) =
      .ok (pairChar high low, 10) := by
  have isHigh : isHigh high = true := by simpa [isHigh] using first
  have isLow : isLow low = true := by simpa [isLow] using second
  have after : (hexDigits 4 high ++ '\\' :: 'u' :: (hexDigits 4 low ++ rest)).drop 4 =
      '\\' :: 'u' :: (hexDigits 4 low ++ rest) :=
    List.drop_left' (length_hexDigits_four (by omega))
  have long : 4 < (hexDigits 4 low).length + rest.length := by
    have some := List.length_pos_iff.mpr later
    rw [length_hexDigits_four (by omega)]
    omega
  rw [unicodeEscape, hexFour?_hexDigits (by omega), after]
  simp [isHigh, isLow, long, hexFour?_hexDigits (n := low) (by omega) rest]

/-- A letter after a backslash that stands for a character. -/
theorem stringBody_escaped {letter c : Char} (stands : escaped? letter = some c) (start : Nat)
    (taken rest : List Char) (n : Nat) :
    stringBody start taken ('\\' :: letter :: rest) n =
      stringBody start (c :: taken) rest (n + 2) := by
  have named : letter ≠ 'u' := by
    rintro rfl
    cases stands
  rw [stringBody]
  · simp [stands]
  · simp [named]

theorem stringBody_plain {c : Char} (quote : c ≠ '"') (backslash : c ≠ '\\')
    (visible : 0x1F < c.toNat)
    (start : Nat) (taken rest : List Char) (n : Nat) :
    stringBody start taken (c :: rest) n = stringBody start (c :: taken) rest (n + 1) := by
  rw [stringBody]
  · rw [if_neg (by omega)]
  all_goals simp [quote, backslash]

theorem stringBody_unicode {escape : List Char} {c : Char}
    (reads : ∀ position, unicodeEscape position (escape ++ rest) = .ok (c, escape.length))
    (start : Nat) (taken : List Char) (n : Nat) :
    stringBody start taken ('\\' :: 'u' :: (escape ++ rest)) n =
      stringBody start (c :: taken) rest (n + 2 + escape.length) := by
  rw [stringBody, reads]
  simp

/-- A code unit that is no half of a pair, written by an escape. -/
theorem stringBody_unit {n : Nat} (small : n < 0x10000) (whole : n < 0xD800 ∨ 0xDFFF < n)
    (later : rest ≠ []) (start : Nat) (taken : List Char) (position : Nat) :
    ∃ position', stringBody start taken (unitEscape n ++ rest) position =
      stringBody start (Char.ofNat n :: taken) rest position' := by
  refine ⟨_, stringBody_unicode (fun position => ?_) start taken position⟩
  rw [unicodeEscape_unit small whole later, length_hexDigits_four small]

/-- A pair of code units, each written by an escape. -/
theorem stringBody_pair {high low : Nat} (first : 0xD800 ≤ high ∧ high ≤ 0xDBFF)
    (second : 0xDC00 ≤ low ∧ low ≤ 0xDFFF) (later : rest ≠ []) (start : Nat) (taken : List Char)
    (position : Nat) :
    ∃ position', stringBody start taken (unitEscape high ++ unitEscape low ++ rest) position =
      stringBody start (pairChar high low :: taken) rest position' := by
  have length : (hexDigits 4 high ++ unitEscape low).length = 10 := by
    simp [unitEscape, length_hexDigits_four (n := high) (by omega),
      length_hexDigits_four (n := low) (by omega)]
  have reads (position : Nat) :
      unicodeEscape position (hexDigits 4 high ++ unitEscape low ++ rest) =
      .ok (pairChar high low, (hexDigits 4 high ++ unitEscape low).length) := by
    have parts : hexDigits 4 high ++ unitEscape low ++ rest =
        hexDigits 4 high ++ '\\' :: 'u' :: (hexDigits 4 low ++ rest) := by
      simp [unitEscape]
    rw [length, parts, unicodeEscape_pair first second later]
  exact ⟨_, stringBody_unicode reads start taken position⟩

/-- The two code units of a character beyond U+FFFF are the halves of a
pair, which is the character. -/
theorem pairChar_halves {c : Char} (beyond : 0x10000 ≤ c.toNat) :
    pairChar (0xD800 + (c.toNat - 0x10000) / 0x400) (0xDC00 + (c.toNat - 0x10000) % 0x400) = c := by
  have parts : 0x10000 + (0xD800 + (c.toNat - 0x10000) / 0x400 - 0xD800) * 0x400 +
      (0xDC00 + (c.toNat - 0x10000) % 0x400 - 0xDC00) = c.toNat := by
    omega
  rw [pairChar, parts, Char.ofNat_toNat]

/-- A character that is written is read, and what follows it comes next. -/
theorem stringBody_stringChar (start : Nat) (taken : List Char) (c : Char) (later : rest ≠ [])
    (n : Nat) : ∃ n', stringBody start taken (stringChar c ++ rest) n =
      stringBody start (c :: taken) rest n' := by
  have named {letter : Char} (stands : escaped? letter = some c) :
      ∃ n', stringBody start taken ('\\' :: letter :: rest) n =
        stringBody start (c :: taken) rest n' :=
    ⟨_, stringBody_escaped stands start taken rest n⟩
  rw [stringChar]
  by_cases quote : c = '"'
  · subst quote
    exact named rfl
  by_cases backslash : c = '\\'
  · subst backslash
    exact named rfl
  by_cases newline : c = '\n'
  · subst newline
    exact named rfl
  by_cases carriage : c = '\r'
  · subst carriage
    exact named rfl
  by_cases tab : c = '\t'
  · subst tab
    exact named rfl
  by_cases feed : c = '\x0c'
  · subst feed
    exact named rfl
  by_cases back : c = '\x08'
  · subst back
    exact named rfl
  simp only [beq_iff_eq, quote, backslash, newline, carriage, tab, feed, back, if_false]
  split
  case isTrue printable =>
    simp only [Bool.and_eq_true, decide_eq_true_eq] at printable
    exact ⟨_, stringBody_plain quote backslash (by omega) start taken rest n⟩
  case isFalse =>
    have scalar : c.toNat < 0xD800 ∨ 0xDFFF < c.toNat ∧ c.toNat < 0x110000 := c.valid
    split
    case isTrue small =>
      have unit := stringBody_unit small (by omega) later start taken n
      rwa [Char.ofNat_toNat] at unit
    case isFalse beyond =>
      have first : 0xD800 ≤ 0xD800 + (c.toNat - 0x10000) / 0x400 ∧
          0xD800 + (c.toNat - 0x10000) / 0x400 ≤ 0xDBFF := by omega
      have second : 0xDC00 ≤ 0xDC00 + (c.toNat - 0x10000) % 0x400 ∧
          0xDC00 + (c.toNat - 0x10000) % 0x400 ≤ 0xDFFF := by omega
      have pair := stringBody_pair first second later start taken n
      rwa [pairChar_halves (by omega)] at pair

/-! ## A whole text -/

/-- The characters of a text up to the closing quote. -/
theorem stringBody_flatMap (start : Nat) (s taken rest : List Char) (n : Nat) :
    ∃ n', stringBody start taken (s.flatMap stringChar ++ '"' :: rest) n =
      .ok (String.ofList (taken.reverse ++ s), ⟨rest, n'⟩) := by
  induction s generalizing taken n with
  | nil => exact ⟨n + 1, by rw [List.flatMap_nil, List.nil_append, stringBody, List.append_nil]⟩
  | cons c s ih =>
    have later : s.flatMap stringChar ++ '"' :: rest ≠ [] := by simp
    obtain ⟨next, one⟩ := stringBody_stringChar start taken c later n
    obtain ⟨after, others⟩ := ih (c :: taken) next
    refine ⟨after, ?_⟩
    rw [List.flatMap_cons, List.append_assoc, one, others]
    simp

theorem toList_stringText (s : String) :
    (stringText s).toList = '"' :: (s.toList.flatMap stringChar ++ ['"']) := by
  simp [stringText]

end Json

end Synopsis
