import Synopsis.Text.Lines
import Synopsis.Text.Word
/-!
# Reading numbers

A decimal numeral as a floating point number, and the lenient forms in which a text may hold a
whole number or a floating point number: blanks around it, a sign, digits of any script, single
underscores between digits.
-/

namespace Synopsis.Decimal

open Synopsis.Text

/-- The number that a list of digit values writes. -/
def ofDigits (base : Nat) (ds : List Nat) : Nat := ds.foldl (fun n d => n * base + d) 0

/-- The value of a decimal digit character `0` to `9`. -/
def digit? (c : Char) : Option Nat := if c.isDigit then some (c.toNat - 48) else none

def hexDigit? (c : Char) : Option Nat :=
  if '0' ≤ c && c ≤ '9' then some (c.toNat - 48)
  else if 'a' ≤ c && c ≤ 'f' then some (c.toNat - 87)
  else if 'A' ≤ c && c ≤ 'F' then some (c.toNat - 55)
  else none

/-- Whole numbers of more decimal digits are refused. -/
def longestNumeral : Nat := 4300

def longNumeralMessage (digits : Nat) : String :=
  s!"Exceeds the limit (4300 digits) for integer string conversion: value has {digits} digits; " ++
    "use sys.set_int_max_str_digits() to increase the limit"

def leastLong : Nat := Nat.pow 10 longestNumeral

def isLong (n : Int) : Bool := leastLong ≤ n.natAbs

/-- The refusal of a whole number that has too many digits to be written. -/
def longWriteMessage : String :=
  "Exceeds the limit (4300 digits) for integer string conversion; " ++
    "use sys.set_int_max_str_digits() to increase the limit"

/-- The floating point number nearest to `mantissa * 10 ^ exponent`. Exponents far out of range
are answered without computing the power. -/
def scientific (mantissa : Nat) (exponent : Int) : Float :=
  if mantissa == 0 then 0.0
  else
    let bits := Nat.log2 mantissa
    if 400 < (bits / 4 : Nat) + exponent then 1.0 / 0.0
    else if (bits / 3 : Nat) + 1 + exponent < -400 then 0.0
    else Float.ofScientific mantissa (exponent < 0) exponent.natAbs

def takeSign : List Char → Bool × List Char
  | '-' :: rest => (true, rest)
  | '+' :: rest => (false, rest)
  | rest => (false, rest)

/-- Digits of any script to digits `0` to `9`, and blanks to spaces. -/
def plainDigits (cs : List Char) : List Char :=
  cs.map fun c =>
    if c.toNat < 128 then c
    else match digitValue? c with
      | some d => Char.ofNat (48 + d)
      | none => if isBlank c then ' ' else c

/-- Digits with single underscores between them: their values. -/
def groupedDigits : List Char → Option (List Nat)
  | [] => none
  | [c] => (digit? c).map ([·])
  | c :: '_' :: rest => do return (← digit? c) :: (← groupedDigits rest)
  | c :: rest => do return (← digit? c) :: (← groupedDigits rest)

/-- The whole number that a text holds, in the lenient form. -/
def lenientInt? (s : String) : Option Int := do
  let (negative, body) := takeSign (trim (plainDigits s.toList))
  let n := ofDigits 10 (← groupedDigits body)
  return if negative then -n else n

def lenientDigits (s : String) : Nat :=
  ((takeSign (trim (plainDigits s.toList))).2.filter Char.isDigit).length

/-- Splits at the first character that satisfies `p`: before it and after it. -/
def cutAt (p : Char → Bool) : List Char → List Char × Option (List Char)
  | [] => ([], none)
  | c :: rest =>
    if p c then ([], some rest)
    else let (left, right) := cutAt p rest; (c :: left, right)

/-- A decimal numeral without sign: whole part, fraction and exponent. -/
def numeral? (cs : List Char) : Option Float := do
  let (main, exponentPart) := cutAt (fun c => c == 'e' || c == 'E') cs
  let (whole, fractionPart) := cutAt (· == '.') main
  let part (ds : List Char) : Option (List Nat) := if ds.isEmpty then some [] else groupedDigits ds
  let left ← part whole
  let right ← part (fractionPart.getD [])
  if left.isEmpty && right.isEmpty then none
  let exponent ← match exponentPart with
    | none => some (0 : Int)
    | some e =>
      let (negative, ds) := takeSign e
      (groupedDigits ds).map fun values =>
        let n : Int := ofDigits 10 values
        if negative then -n else n
  return scientific (ofDigits 10 (left ++ right)) (exponent - right.length)

/-- The floating point number that a text holds, in the lenient form. -/
def lenientFloat? (s : String) : Option Float := do
  let (negative, body) := takeSign (trim (plainDigits s.toList))
  let word := body.map Char.toLower
  let x ←
    if word == "inf".toList || word == "infinity".toList then some (1.0 / 0.0)
    else if word == "nan".toList then some (0.0 / 0.0)
    else numeral? body
  return if negative then -x else x

/-- The floating point number nearest to a whole number; none when it is out of range. -/
def floatOfInt? (n : Int) : Option Float :=
  let x := scientific n.natAbs 0
  if x.isInf then none else some (if n < 0 then -x else x)

end Synopsis.Decimal
