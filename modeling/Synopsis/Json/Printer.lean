import Synopsis.Datum
/-!
# Writing JSON

Values in plain characters below U+0080: every other character is written by its code units,
characters beyond U+FFFF by two. Items are separated by a comma and a space, names and values by
a colon and a space.
-/

namespace Synopsis.Json

def unitEscape (n : Nat) : List Char := '\\' :: 'u' :: Text.hexDigits 4 n

def stringChar (c : Char) : List Char :=
  if c == '"' then ['\\', '"']
  else if c == '\\' then ['\\', '\\']
  else if c == '\n' then ['\\', 'n']
  else if c == '\r' then ['\\', 'r']
  else if c == '\t' then ['\\', 't']
  else if c == '\x0c' then ['\\', 'f']
  else if c == '\x08' then ['\\', 'b']
  else if 0x20 ≤ c.toNat && c.toNat < 0x7F then [c]
  else if c.toNat < 0x10000 then unitEscape c.toNat
  else
    let n := c.toNat - 0x10000
    unitEscape (0xD800 + n / 0x400) ++ unitEscape (0xDC00 + n % 0x400)

def stringText (s : String) : String :=
  String.ofList ('"' :: s.toList.flatMap stringChar ++ ['"'])

/-- A floating point number; the ones that are not finite have names. -/
def floatText (x : Float) : String :=
  if x.isNaN then "NaN"
  else if x.isInf then (if 0.0 < x then "Infinity" else "-Infinity")
  else Decimal.floatText x

mutual
def print : Datum → String
  | .null => "null"
  | .bool b => if b then "true" else "false"
  | .int n => toString n
  | .float x => floatText x
  | .text s => stringText s
  | .moment m => stringText (m.textWith "T")
  | .list items => "[" ++ ", ".intercalate (printAll items) ++ "]"
  | .table fields => "\x7b" ++ ", ".intercalate (printFields fields) ++ "\x7d"

def printAll : List Datum → List String
  | [] => []
  | item :: items => print item :: printAll items

def printFields : List (String × Datum) → List String
  | [] => []
  | (name, value) :: fields => (stringText name ++ ": " ++ print value) :: printFields fields
end

end Synopsis.Json
