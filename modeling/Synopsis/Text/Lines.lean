/-!
# Lines, pieces and blanks of a text

Three ways of cutting: at one given character (`splitOn`), at every line boundary
(`splitLines`, which knows ten line ends and drops an empty last line), and the
reading of text files, where every line end becomes a newline (`unifyNewlines`).
Trimming removes blanks from the ends: the Unicode white space characters and the
four information separators.
-/

namespace Synopsis.Text

/-- The pieces between the occurrences of `sep`; always at least one. -/
def splitOn (sep : Char) : List Char → List (List Char)
  | [] => [[]]
  | c :: rest =>
    if c == sep then [] :: splitOn sep rest
    else match splitOn sep rest with
      | [] => [[c]]
      | piece :: pieces => (c :: piece) :: pieces

/-- The pieces joined with `sep` between them. -/
def joinWith (sep : List Char) : List (List Char) → List Char
  | [] => []
  | [piece] => piece
  | piece :: pieces => piece ++ sep ++ joinWith sep pieces

def newlinePieces (s : String) : List String :=
  (splitOn '\n' s.toList).map String.ofList

def join (sep : String) (parts : List String) : String := sep.intercalate parts

/-- The characters that end a line. -/
def isLineEnd (c : Char) : Bool :=
  let n := c.toNat
  (10 ≤ n && n ≤ 13) || (28 ≤ n && n ≤ 30) || n == 0x85 || n == 0x2028 || n == 0x2029

/-- The lines of a text at every line end, a carriage return and newline being one;
the line end of the last line adds no empty line. -/
def splitLines : List Char → List (List Char)
  | [] => []
  | '\r' :: '\n' :: rest => [] :: splitLines rest
  | c :: rest =>
    if isLineEnd c then [] :: splitLines rest
    else match splitLines rest, rest with
      | _, [] => [[c]]
      | [], _ => [[c]]
      | line :: lines, _ => (c :: line) :: lines

/-- Text as a file read line by line gives it: a carriage return, alone or before a
newline, is a newline. -/
def unifyNewlines : List Char → List Char
  | [] => []
  | '\r' :: '\n' :: rest => '\n' :: unifyNewlines rest
  | c :: rest => (if c == '\r' then '\n' else c) :: unifyNewlines rest

/-- `needle` as the start of `cs`: what follows it. -/
def dropPrefix? : List Char → List Char → Option (List Char)
  | [], cs => some cs
  | _ :: _, [] => none
  | x :: xs, c :: cs => if x == c then dropPrefix? xs cs else none

/-- Whether `needle` occurs in `cs`. -/
def occursIn (needle : List Char) : List Char → Bool
  | [] => needle.isEmpty
  | c :: cs => (dropPrefix? needle (c :: cs)).isSome || occursIn needle cs

/-- The text before the first occurrence of `mark`, or all of it. -/
def before (mark : List Char) : List Char → List Char
  | [] => []
  | c :: cs => if (dropPrefix? mark (c :: cs)).isSome then [] else c :: before mark cs

/-- Blank characters: Unicode white space and the separators U+001C to U+001F. -/
def isBlank (c : Char) : Bool :=
  let n := c.toNat
  (9 ≤ n && n ≤ 13) || (28 ≤ n && n ≤ 32) || n == 0x85 || n == 0xA0 || n == 0x1680 ||
    (0x2000 ≤ n && n ≤ 0x200A) || n == 0x2028 || n == 0x2029 || n == 0x202F ||
    n == 0x205F || n == 0x3000

/-- The characters without the blank ones at the start. -/
def trimStart (cs : List Char) : List Char := cs.dropWhile isBlank

/-- The characters without the blank ones at the end. -/
def trimEnd (cs : List Char) : List Char := (cs.reverse.dropWhile isBlank).reverse

def trim (cs : List Char) : List Char := trimEnd (trimStart cs)

/-- A text without the blanks at its ends. -/
def strip (s : String) : String := String.ofList (trim s.toList)

def dropTrailing (c : Char) (cs : List Char) : List Char :=
  (cs.reverse.dropWhile (· == c)).reverse

end Synopsis.Text
