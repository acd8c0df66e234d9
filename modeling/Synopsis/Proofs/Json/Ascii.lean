import Synopsis.Proofs.Json.Reals
import Synopsis.Proofs.Json.Strings

/-!
# The characters of a printed document

Whatever value is printed, all characters of the document are below U+0080.
-/

namespace Synopsis

namespace Text

/-- All characters are below U+0080. -/
def Ascii (cs : List Char) : Prop := ∀ c ∈ cs, c.toNat < 0x80

instance (cs : List Char) : Decidable (Ascii cs) :=
  List.decidableBAll (fun c : Char => c.toNat < 0x80) cs

variable {cs rest : List Char} {c : Char}

theorem Ascii.cons (low : c.toNat < 0x80) (others : Ascii cs) : Ascii (c :: cs) :=
  List.forall_mem_cons.mpr ⟨low, others⟩

theorem Ascii.append (first : Ascii cs) (second : Ascii rest) : Ascii (cs ++ rest) :=
  List.forall_mem_append.mpr ⟨first, second⟩

theorem ascii_digits (digits : ∀ c ∈ cs, c.isDigit = true) : Ascii cs := by
  intro c inside
  have isDigit := digits c inside
  simp only [Char.isDigit, Bool.and_eq_true, decide_eq_true_eq, UInt32.le_iff_toNat_le] at isDigit
  have most : c.toNat ≤ 57 := isDigit.2
  omega

theorem ascii_hexDigits {n : Nat} (small : n < 0x10000) : Ascii (hexDigits 4 n) := by
  have digit : ∀ d < 16, (Nat.digitChar d).toNat < 0x80 := by decide
  rw [hexDigits_four small]
  intro c inside
  simp only [List.mem_cons, List.not_mem_nil, or_false] at inside
  rcases inside with rfl | rfl | rfl | rfl <;> exact digit _ (by omega)

theorem ascii_intercalate {separator : List Char} {texts : List (List Char)}
    (between : Ascii separator) (each : ∀ text ∈ texts, Ascii text) :
    Ascii (separator.intercalate texts) := by
  induction texts with
  | nil => exact nofun
  | cons text texts ih =>
    obtain ⟨first, others⟩ := List.forall_mem_cons.mp each
    cases texts with
    | nil => rwa [List.intercalate_singleton]
    | cons next texts =>
      rw [List.intercalate_cons_cons]
      exact (first.append between).append (ih others)

end Text

namespace Json

open Text

theorem ascii_unitEscape {n : Nat} (small : n < 0x10000) : Ascii (unitEscape n) :=
  .cons (by decide) (.cons (by decide) (ascii_hexDigits small))

theorem ascii_stringChar (c : Char) : Ascii (stringChar c) := by
  have below : c.toNat < 0x110000 := by
    have scalar : c.toNat < 0xD800 ∨ 0xDFFF < c.toNat ∧ c.toNat < 0x110000 := c.valid
    omega
  unfold stringChar
  iterate 7
    split
    · decide
  split
  · rename_i printable
    simp only [Bool.and_eq_true, decide_eq_true_eq] at printable
    exact .cons (by omega) nofun
  split
  · rename_i small
    exact ascii_unitEscape small
  · exact (ascii_unitEscape (by omega)).append (ascii_unitEscape (by omega))

theorem ascii_stringText (s : String) : Ascii (stringText s).toList := by
  rw [toList_stringText]
  refine .cons (by decide) (.append (fun c inside => ?_) (by decide))
  obtain ⟨d, -, inside⟩ := List.mem_flatMap.mp inside
  exact ascii_stringChar d c inside

theorem ascii_chars (n : Written) : Ascii n.chars := by
  have sign : Ascii (if n.negative then ['-'] else []) := by split <;> decide
  have fraction : Ascii n.fraction := by
    rcases n.places with none | ⟨ds, digits, parts⟩
    · exact none ▸ nofun
    · exact parts ▸ .cons (by decide) (ascii_digits digits.2)
  have exponent : Ascii n.exponent := by
    rcases n.power with none | ⟨sign, ds, digits, signed, parts⟩
    · exact none ▸ nofun
    · have low : Ascii ['+', '-'] := by decide
      exact parts ▸ .cons (by decide) (.cons (low sign signed) (ascii_digits digits.2))
  exact sign.append ((ascii_digits n.wholeDigits.2).append (fraction.append exponent))

theorem ascii_floatText (x : Float) : Ascii (floatText x).toList := by
  rcases floatText_cases x with word | ⟨n, -, chars⟩
  · have low : ∀ word ∈ ["NaN", "Infinity", "-Infinity"], Ascii word.toList := by decide
    exact low _ word
  · exact chars ▸ ascii_chars n

mutual

/-- Every document that is printed is in characters below U+0080. -/
theorem ascii_print : ∀ d : Datum, Ascii (print d).toList
  | .null => by decide
  | .bool true => by decide
  | .bool false => by decide
  | .int n => toList_print_int n ▸ ascii_chars _
  | .float x => ascii_floatText x
  | .text s => ascii_stringText s
  | .moment m => ascii_stringText _
  | .list items => by
    have inside : Ascii (", ".intercalate (printAll items)).toList := by
      rw [String.toList_intercalate]
      exact ascii_intercalate (by decide) (List.forall_mem_map.mpr (ascii_printAll items))
    rw [print, String.toList_append, String.toList_append]
    exact .append (.append (by decide) inside) (by decide)
  | .table fields => by
    have inside : Ascii (", ".intercalate (printFields fields)).toList := by
      rw [String.toList_intercalate]
      exact ascii_intercalate (by decide) (List.forall_mem_map.mpr (ascii_printFields fields))
    rw [print, String.toList_append, String.toList_append]
    exact .append (.append (by decide) inside) (by decide)

theorem ascii_printAll : ∀ items : List Datum, ∀ text ∈ printAll items, Ascii text.toList
  | [] => nofun
  | item :: items => by
    rw [printAll]
    exact List.forall_mem_cons.mpr ⟨ascii_print item, ascii_printAll items⟩

theorem ascii_printFields :
    ∀ fields : List (String × Datum), ∀ text ∈ printFields fields, Ascii text.toList
  | [] => nofun
  | (name, value) :: fields => by
    rw [printFields]
    refine List.forall_mem_cons.mpr ⟨?_, ascii_printFields fields⟩
    rw [String.toList_append, String.toList_append]
    exact .append (.append (ascii_stringText name) (by decide)) (ascii_print value)

end

end Json

end Synopsis
