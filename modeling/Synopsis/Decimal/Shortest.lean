import Synopsis.Decimal.Layout
/-!
# Shortest decimal texts of floating point numbers

The fewest significant digits that read back as the same number, and of those the nearest to it.
For one digit, two digits and so on the two neighbours of the value on that decimal grid are
tried; the first grid with a hit inside the interval that rounds to the number wins.
-/

namespace Synopsis.Decimal

/-- A finite positive double is `mantissa * 2 ^ exponent`; `lowest` marks the mantissa of a power of
two, below which the neighbours are twice as dense. -/
structure Double where
  mantissa : Nat
  exponent : Int
  lowest : Bool

/-- The double of the given bits without sign; none for zero. -/
def Double.ofBits? (bits : Nat) : Option Double :=
  let fraction : Nat := bits % Nat.pow 2 52
  let biased : Nat := bits / Nat.pow 2 52 % Nat.pow 2 11
  if biased == 0 then
    if fraction == 0 then none else some ⟨fraction, -1074, false⟩
  else some ⟨fraction + Nat.pow 2 52, (biased : Int) - 1075, fraction == 0 && biased != 1⟩

/-- The interval that rounds to a double, and the double, over a common denominator:
lower end, value, upper end, denominator. -/
def Double.interval (d : Double) : Nat × Nat × Nat × Nat :=
  let low := 4 * d.mantissa - (if d.lowest then 1 else 2)
  let value := 4 * d.mantissa
  let high := 4 * d.mantissa + 2
  let e := d.exponent - 2
  if 0 ≤ e then
    let f := Nat.pow 2 e.toNat
    (low * f, value * f, high * f, 1)
  else (low, value, high, Nat.pow 2 (-e).toNat)

/-- The significant digits and exponent with the fewest digits, from `count` digits on. -/
def Double.search (d : Double) (p : Int) : Nat → Nat → Option (Nat × Int)
  | 0, _ => none
  | fuel + 1, count =>
    let (low, value, high, den) := d.interval
    let k : Int := p - ((count : Int) - 1)
    let (up, down) := if 0 ≤ k then (1, Nat.pow 10 k.toNat) else (Nat.pow 10 (-k).toNat, 1)
    let below := value * up / (den * down)
    let inside (n : Nat) : Bool :=
      let scaled := n * down * den
      if d.mantissa % 2 == 0 then low * up ≤ scaled && scaled ≤ high * up
      else low * up < scaled && scaled < high * up
    let distance (n : Nat) : Nat :=
      let scaled := n * down * den
      (scaled - value * up) + (value * up - scaled)
    let above := below + 1
    match inside below && below != 0, inside above with
    | true, true =>
      let (a, b) := (distance below, distance above)
      if a < b then some (below, k) else if b < a then some (above, k)
      else if below % 2 == 0 then some (below, k) else some (above, k)
    | true, false => some (below, k)
    | false, true => some (above, k)
    | false, false => d.search p fuel (count + 1)

/-- The shortest digits of a double and the weight of the first digit. -/
def Double.shortest (d : Double) : List Char × Int :=
  let (_, value, _, den) := d.interval
  match d.search (decimalExponent value den) 20 1 with
  | some (n, k) =>
    let ds := digits n
    (dropZeros ds, k + ds.length - 1)
  | none => (['0'], 0)

/-- Doubles are positional from `0.0001` up to `10 ^ 16`, and whole ones keep a point. -/
def shortestLayout : Layout := ⟨-4, 16, true⟩

def floatText (x : Float) : String :=
  let bits := x.toBits.toNat
  let sign := if Nat.pow 2 63 ≤ bits then "-" else ""
  let magnitude := bits % Nat.pow 2 63
  if 0x7FF * Nat.pow 2 52 < magnitude then "nan"
  else if magnitude == 0x7FF * Nat.pow 2 52 then sign ++ "inf"
  else match Double.ofBits? magnitude with
    | none => sign ++ "0.0"
    | some d =>
      let (ds, p) := d.shortest
      sign ++ String.ofList (shortestLayout.text ds p)

end Synopsis.Decimal
