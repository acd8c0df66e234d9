/-!
# Binary floating point numbers as exact values

A finite number of at most 53 binary digits is `mantissa * 2 ^ exponent`. Here are the rounding
of a quotient to the nearest whole number, a half going to the even neighbour, and the nearest
53-digit number of a whole number and of a quotient. Only numbers that are not negative and far
from the smallest ones are meant; gradual underflow is not modelled.
-/

namespace Synopsis.Decimal

/-- The whole number nearest to `num / den`; a half goes to the even neighbour. -/
def roundHalfEven (num den : Nat) : Nat :=
  let floor := num / den
  let twice := 2 * (num % den)
  if twice < den then floor
  else if den < twice then floor + 1
  else if floor % 2 == 0 then floor else floor + 1

/-- Number of binary digits of a number; none for zero. -/
def bitLength (n : Nat) : Nat := if n == 0 then 0 else Nat.log2 n + 1

/-- The value `mantissa * 2 ^ exponent`. -/
structure Binary where
  mantissa : Nat
  exponent : Int
  deriving DecidableEq, Repr

namespace Binary

/-- Binary digits of the mantissa. -/
def precision : Nat := 53

def ratio (b : Binary) : Nat × Nat :=
  if 0 ≤ b.exponent then (b.mantissa * Nat.pow 2 b.exponent.toNat, 1)
  else (b.mantissa, Nat.pow 2 (-b.exponent).toNat)

/-- The number nearest to `num / den`, with 53 binary digits. -/
def ofRatio (num den : Nat) : Binary :=
  if num == 0 then ⟨0, 0⟩
  else
    let guess : Int := (bitLength num : Int) - bitLength den - precision
    let scaled (e : Int) : Nat :=
      if 0 ≤ e then roundHalfEven num (den * Nat.pow 2 e.toNat)
      else roundHalfEven (num * Nat.pow 2 (-e).toNat) den
    let mantissa := scaled guess
    if bitLength mantissa ≤ precision then ⟨mantissa, guess⟩
    else ⟨scaled (guess + 1), guess + 1⟩

/-- The number nearest to a whole number; none when it is out of range. -/
def ofNat? (n : Nat) : Option Binary :=
  let b := if bitLength n ≤ precision then ⟨n, 0⟩ else ofRatio n 1
  if 1024 < (bitLength b.mantissa : Int) + b.exponent then none else some b

/-- Division by a power of two, which is exact. -/
def shiftRight (b : Binary) (bits : Nat) : Binary := { b with exponent := b.exponent - bits }

/-- Whether the value is at least `n`. -/
def atLeast (b : Binary) (n : Nat) : Bool := n * b.ratio.2 ≤ b.ratio.1

/-- The number nearest to the value rounded to `places` decimal places. -/
def roundPlaces (b : Binary) (places : Nat) : Binary :=
  ofRatio (roundHalfEven (b.ratio.1 * Nat.pow 10 places) b.ratio.2) (Nat.pow 10 places)

end Binary

end Synopsis.Decimal
