import Synopsis.Text.Lines
/-!
# UTF-8

Decoding of bytes. A sequence of bytes that is not well formed has a *flaw*: its kind and the
number of bytes of the longest part that could still have become a character. The strict
reading stops at the first flaw; the lenient readings put a replacement in its place. The text of a
file has a newline for every line end besides.
-/

namespace Synopsis.Text.Utf8

/-- The ways in which bytes fail to be a character. -/
inductive Flaw where
  /-- The first byte begins no character. -/
  | start
  /-- A byte that should go on with the character does not. -/
  | continuation
  /-- The bytes end inside the character. -/
  | truncated
  deriving DecidableEq, Repr

def Flaw.reason : Flaw → String
  | .start => "invalid start byte"
  | .continuation => "invalid continuation byte"
  | .truncated => "unexpected end of data"

/-- What the bytes at some place are: a character or a flaw, and the number of bytes after the
first one that belong to it. -/
inductive Piece where
  | char (c : Char) (more : Nat)
  | flaw (f : Flaw) (more : Nat)
  deriving Repr

/-- Number of continuation bytes after a first byte, the bounds of the first of them, and the
bits that the first byte gives. -/
def lead? (b : Nat) : Option (Nat × Nat × Nat × Nat) :=
  if 0xC2 ≤ b && b ≤ 0xDF then some (1, 0x80, 0xBF, b - 0xC0)
  else if b == 0xE0 then some (2, 0xA0, 0xBF, 0)
  else if b == 0xED then some (2, 0x80, 0x9F, 0xD)
  else if 0xE1 ≤ b && b ≤ 0xEF then some (2, 0x80, 0xBF, b - 0xE0)
  else if b == 0xF0 then some (3, 0x90, 0xBF, 0)
  else if 0xF1 ≤ b && b ≤ 0xF3 then some (3, 0x80, 0xBF, b - 0xF0)
  else if b == 0xF4 then some (3, 0x80, 0x8F, 4)
  else none

/-- Reads `need` continuation bytes, the first between `low` and `high`; `taken` bytes are read. -/
def continued (need low high value taken : Nat) : List UInt8 → Piece
  | [] => if need = 0 then .char (Char.ofNat value) taken else .flaw .truncated taken
  | b :: rest =>
    match need with
    | 0 => .char (Char.ofNat value) taken
    | need + 1 =>
      if low ≤ b.toNat && b.toNat ≤ high then
        continued need 0x80 0xBF (value * 64 + (b.toNat - 0x80)) (taken + 1) rest
      else .flaw .continuation taken

/-- What the bytes that start with `b` are. -/
def piece (b : UInt8) (rest : List UInt8) : Piece :=
  if b.toNat < 0x80 then .char (Char.ofNat b.toNat) 0
  else match lead? b.toNat with
    | none => .flaw .start 0
    | some (need, low, high, value) => continued need low high value 0 rest

/-- Reads all bytes; a flaw gives the characters that `onFlaw` says. -/
def decodeWith (onFlaw : List Char) : List UInt8 → List Char
  | [] => []
  | b :: rest =>
    match piece b rest with
    | .char c more => c :: decodeWith onFlaw (rest.drop more)
    | .flaw _ more => onFlaw ++ decodeWith onFlaw (rest.drop more)
termination_by bytes => bytes.length
decreasing_by all_goals (simp only [List.length_drop, List.length_cons]; omega)

/-- Reads all bytes, with U+FFFD for every flaw. -/
def decodeReplacing (bytes : List UInt8) : String :=
  String.ofList (decodeWith ['\uFFFD'] bytes)

/-- Reads all bytes, without the flaws. -/
def decodeSkipping (bytes : List UInt8) : String :=
  String.ofList (decodeWith [] bytes)

/-- A flaw at its place: the bytes from `first` on, `count` of them. -/
structure Fault where
  flaw : Flaw
  first : Nat
  count : Nat
  byte : UInt8
  deriving DecidableEq, Repr

/-- Reads all bytes counted from `start`, or finds the first flaw. -/
def decodeFrom (start : Nat) : List UInt8 → Except Fault (List Char)
  | [] => .ok []
  | b :: rest =>
    match piece b rest with
    | .flaw f more => .error ⟨f, start, more + 1, b⟩
    | .char c more =>
      match decodeFrom (start + more + 1) (rest.drop more) with
      | .ok cs => .ok (c :: cs)
      | .error e => .error e
termination_by bytes => bytes.length
decreasing_by all_goals (simp only [List.length_drop, List.length_cons]; omega)

/-- Reads bytes that must all be well formed. -/
def decode (bytes : List UInt8) : Except Fault String :=
  (decodeFrom 0 bytes).map String.ofList

def hexByte (b : UInt8) : String :=
  String.ofList [Nat.digitChar (b.toNat / 16), Nat.digitChar (b.toNat % 16)]

def Fault.message (e : Fault) : String :=
  let place :=
    if e.count = 1 then s!"byte 0x{hexByte e.byte} in position {e.first}"
    else s!"bytes in position {e.first}-{e.first + e.count - 1}"
  s!"'utf-8' codec can't decode {place}: {e.flaw.reason}"

end Synopsis.Text.Utf8

namespace Synopsis.Text

/-- A text with a newline for every carriage return, alone or before a newline. -/
def withNewlines (s : String) : String := String.ofList (unifyNewlines s.toList)

/-- The text of a file whose bytes must all be well formed. -/
def ofFile (bytes : ByteArray) : Except Utf8.Fault String :=
  (Utf8.decode bytes.toList).map withNewlines

/-- The text of a file, with U+FFFD in place of every flaw. -/
def ofFileReplacing (bytes : ByteArray) : String :=
  withNewlines (Utf8.decodeReplacing bytes.toList)

end Synopsis.Text
