import Synopsis.Decimal.Layout
/-!
# Sizes in bytes, kilobytes, megabytes and gigabytes

A size is divided by 1024 while it is at least 1024 and a larger unit is left, rounded to two
places and written with six significant digits. The unit is chosen before rounding. Sizes that
are out of the range of floating point numbers have no text.
-/

namespace Synopsis

open Synopsis.Decimal

def largerUnits : List String := ["KB", "MB", "GB"]

/-- Divides while the value is at least 1024 and units are left. -/
def scaleSize (value : Binary) (unit : String) : List String → Binary × String
  | [] => (value, unit)
  | larger :: units =>
    if value.atLeast 1024 then scaleSize (value.shiftRight 10) larger units else (value, unit)

structure SizeOverflow where
  deriving DecidableEq, Repr

def SizeOverflow.message (_ : SizeOverflow) : String := "int too large to convert to float"

def sizeText (size : Int) : Except SizeOverflow String :=
  if size ≤ 0 then .ok "0 Bytes"
  else match Binary.ofNat? size.toNat with
    | none => .error ⟨⟩
    | some value =>
      -- Only now is it rounded: what is rounded up to 1024 keeps its unit.
      let (scaled, unit) := scaleSize value "Bytes" largerUnits
      let (num, den) := (scaled.roundPlaces 2).ratio
      .ok (String.ofList (general num den) ++ " " ++ unit)

end Synopsis
