import Synopsis.Decimal.Binary
/-!
# Decimal texts of numbers

From significant digits and a decimal exponent to text: positional within a range of exponents
and scientific outside it. `general` writes a quotient with a number of significant digits,
trailing zeros dropped.
-/

namespace Synopsis.Decimal

def digits (n : Nat) : List Char := (toString n).toList

/-- The exponent `p` with `10 ^ p ≤ num / den < 10 ^ (p + 1)`, for a positive quotient. -/
def decimalExponent (num den : Nat) : Int :=
  if den ≤ num then ((digits (num / den)).length : Int) - 1
  else
    let quotient := (den + num - 1) / num
    Int.negOfNat (digits (quotient - 1)).length

structure Layout where
  /-- Smallest exponent that is written positionally. -/
  low : Int
  /-- Smallest exponent above the positional ones. -/
  high : Int
  /-- Whether a whole number keeps a point and a zero. -/
  keepPoint : Bool

/-- An exponent with its sign and at least two digits. -/
def exponentText (p : Int) : List Char :=
  let ds := digits p.natAbs
  'e' :: (if p < 0 then '-' else '+') :: (List.replicate (2 - ds.length) '0' ++ ds)

/-- Text of the number whose significant digits are `ds`, the first one of weight `10 ^ p`. -/
def Layout.text (layout : Layout) (ds : List Char) (p : Int) : List Char :=
  if layout.low ≤ p && p < layout.high then
    if p < 0 then '0' :: '.' :: (List.replicate (-p - 1).toNat '0' ++ ds)
    else
      let whole := p.toNat + 1
      let left := ds.take whole ++ List.replicate (whole - ds.length) '0'
      match ds.drop whole with
      | [] => if layout.keepPoint then left ++ ['.', '0'] else left
      | fraction => left ++ '.' :: fraction
  else
    match ds with
    | [] => []
    | [d] => d :: exponentText p
    | d :: more => d :: '.' :: more ++ exponentText p

def dropZeros (ds : List Char) : List Char := (ds.reverse.dropWhile (· == '0')).reverse

/-- Quotients with six significant digits are positional from `0.0001` up to a million. -/
def sixDigits : Layout := ⟨-4, 6, false⟩

/-- The quotient with six significant digits. -/
def general (num den : Nat) : List Char :=
  if num == 0 then ['0']
  else
    let p := decimalExponent num den
    let scaled (p : Int) : Nat :=
      if p ≤ 5 then roundHalfEven (num * Nat.pow 10 (5 - p).toNat) den
      else roundHalfEven num (den * Nat.pow 10 (p - 5).toNat)
    let n := scaled p
    let (n, p) := if n < 1000000 then (n, p) else (n / 10, p + 1)
    sixDigits.text (dropZeros (digits n)) p

end Synopsis.Decimal
