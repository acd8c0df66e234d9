import Synopsis.Datum
import Synopsis.Decimal.Read
import Synopsis.Text.Lines
/-!
# Reading JSON

A document is one value with blanks around it. Besides the standard, the words `NaN`, `Infinity` and
`-Infinity` are numbers, and a name that a table holds twice keeps its first place and its last
value. Integers of more than 4300 digits and values nested deeper than `depthLimit` are refused.
A fault names the first character at which the text fails.
-/

namespace Synopsis.Json

open Synopsis.Decimal

/-- What was expected or found at the place where a document fails. -/
inductive Cause where
  | value | propertyName | colon | comma | unterminated | escape | unicodeEscape | control
  | extra | byteOrderMark
  deriving DecidableEq, Repr

def Cause.message : Cause → String
  | .value => "Expecting value"
  | .propertyName => "Expecting property name enclosed in double quotes"
  | .colon => "Expecting ':' delimiter"
  | .comma => "Expecting ',' delimiter"
  | .unterminated => "Unterminated string starting at"
  | .escape => "Invalid \\escape"
  | .unicodeEscape => "Invalid \\uXXXX escape"
  | .control => "Invalid control character at"
  | .extra => "Extra data"
  | .byteOrderMark => "Unexpected UTF-8 BOM (decode using utf-8-sig)"

/-- The reasons for which a document is refused. -/
inductive Fault where
  /-- The text fails after `position` characters. -/
  | syntaxAt (cause : Cause) (position : Nat)
  /-- An integer of too many digits. -/
  | longInteger (digits : Nat)
  /-- A list nested too deeply. -/
  | deepList
  /-- A table nested too deeply. -/
  | deepTable
  deriving DecidableEq, Repr

/-- The line and the column after `position` characters, both from one on. -/
def place (text : List Char) (position : Nat) : Nat × Nat :=
  let before := text.take position
  (before.count '\n' + 1, (before.reverse.takeWhile (· != '\n')).length + 1)

def Fault.message (text : String) : Fault → String
  | .syntaxAt cause position =>
    let (line, column) := place text.toList position
    s!"{cause.message}: line {line} column {column} (char {position})"
  | .longInteger digits => longNumeralMessage digits
  | .deepList =>
      "maximum recursion depth exceeded while decoding a JSON array from a unicode string"
  | .deepTable =>
      "maximum recursion depth exceeded while decoding a JSON object from a unicode string"

def Fault.isDeep : Fault → Bool
  | .deepList | .deepTable => true
  | _ => false

/-- The rest of a document and the number of characters before it. -/
structure Cursor where
  rest : List Char
  position : Nat

def Cursor.skip (c : Cursor) (n : Nat) : Cursor := ⟨c.rest.drop n, c.position + n⟩

/-- A reader: a value and what is left, or a fault. -/
abbrev Reader (α : Type) := Cursor → Except Fault (α × Cursor)

def isSpace (c : Char) : Bool := c == ' ' || c == '\t' || c == '\n' || c == '\r'

def skipSpaces : List Char → Nat → Cursor
  | [], n => ⟨[], n⟩
  | c :: rest, n => if isSpace c then skipSpaces rest (n + 1) else ⟨c :: rest, n⟩

def Cursor.trim (c : Cursor) : Cursor := skipSpaces c.rest c.position

def fail {α : Type} (cause : Cause) (position : Nat) : Except Fault α :=
  .error (.syntaxAt cause position)

def hexFour? : List Char → Option Nat
  | a :: b :: c :: d :: _ => do
    return (((← hexDigit? a) * 16 + (← hexDigit? b)) * 16 + (← hexDigit? c)) * 16 + (← hexDigit? d)
  | _ => none

def escaped? : Char → Option Char
  | '"' => some '"'
  | '\\' => some '\\'
  | '/' => some '/'
  | 'b' => some '\x08'
  | 'f' => some '\x0c'
  | 'n' => some '\n'
  | 'r' => some '\r'
  | 't' => some '\t'
  | _ => none

/-- Whether a code unit is the first of a surrogate pair. -/
def isHigh (n : Nat) : Bool := 0xD800 ≤ n && n ≤ 0xDBFF

/-- Whether a code unit is the second of a surrogate pair. -/
def isLow (n : Nat) : Bool := 0xDC00 ≤ n && n ≤ 0xDFFF

/-- The character of one code unit; half of a pair alone is no character. -/
def unitChar (n : Nat) : Char := if isHigh n || isLow n then '\uFFFD' else Char.ofNat n

def pairChar (high low : Nat) : Char :=
  Char.ofNat (0x10000 + (high - 0xD800) * 0x400 + (low - 0xDC00))

/-- The character that the text after a backslash and `u` writes, the backslash being at `position`,
and the number of characters it takes. -/
def unicodeEscape (position : Nat) (rest : List Char) : Except Fault (Char × Nat) :=
  match hexFour? rest, rest.drop 4 with
  | none, _ => fail .unicodeEscape (position + 1)
  | some _, [] => fail .unicodeEscape (position + 1)
  | some unit, '\\' :: 'u' :: low =>
    if isHigh unit && 4 < low.length then
      match hexFour? low with
      | none => fail .unicodeEscape (position + 7)
      | some second =>
        if isLow second then .ok (pairChar unit second, 10) else .ok (unitChar unit, 4)
    else .ok (unitChar unit, 4)
  | some unit, _ => .ok (unitChar unit, 4)

/-- Reads a string whose opening quote is at `start`, from the character at `position` on. -/
def stringBody (start : Nat) (taken : List Char) : List Char → Nat → Except Fault (String × Cursor)
  | [], _ => fail .unterminated start
  | '"' :: rest, n => .ok (String.ofList taken.reverse, ⟨rest, n + 1⟩)
  | '\\' :: [], _ => fail .unterminated start
  | '\\' :: 'u' :: rest, n =>
    match unicodeEscape n rest with
    | .error e => .error e
    | .ok (c, length) => stringBody start (c :: taken) (rest.drop length) (n + 2 + length)
  | '\\' :: c :: rest, n =>
    match escaped? c with
    | none => fail .escape n
    | some e => stringBody start (e :: taken) rest (n + 2)
  | c :: rest, n =>
    if c.toNat ≤ 0x1F then fail .control n else stringBody start (c :: taken) rest (n + 1)
termination_by cs => cs.length
decreasing_by all_goals (simp_wf; try omega)

def digitsOf (cs : List Char) : List Char := cs.takeWhile Char.isDigit

def fractionOf : List Char → List Char
  | '.' :: rest => if (digitsOf rest).isEmpty then [] else '.' :: digitsOf rest
  | _ => []

def exponentOf : List Char → List Char
  | e :: rest =>
    if e == 'e' || e == 'E' then
      let (sign, after) := match rest with
        | '+' :: after => (['+'], after)
        | '-' :: after => (['-'], after)
        | after => ([], after)
      if (digitsOf after).isEmpty then [] else e :: sign ++ digitsOf after
    else []
  | [] => []

/-- Reads a number; `position` is that of its first character. -/
def number (c : Cursor) : Except Fault (Datum × Cursor) :=
  let (negative, body) := match c.rest with
    | '-' :: body => (true, body)
    | body => (false, body)
  let whole := match body with
    | '0' :: _ => ['0']
    | body => digitsOf body
  if whole.isEmpty then fail .value c.position
  else
    let fraction := fractionOf (body.drop whole.length)
    let exponent := exponentOf (body.drop (whole.length + fraction.length))
    let length := (if negative then 1 else 0) + whole.length + fraction.length + exponent.length
    if fraction.isEmpty && exponent.isEmpty then
      if longestNumeral < whole.length then .error (.longInteger whole.length)
      else
        let n : Int := ofDigits 10 (whole.filterMap digit?)
        .ok (.int (if negative then -n else n), c.skip length)
    else
      let x := (numeral? (whole ++ fraction ++ exponent)).getD 0.0
      .ok (.float (if negative then -x else x), c.skip length)

/-- The words that stand for values. -/
def words : List (String × Datum) :=
  [("null", .null), ("true", .bool true), ("false", .bool false), ("NaN", .float (0.0 / 0.0)),
    ("Infinity", .float (1.0 / 0.0)), ("-Infinity", .float (-1.0 / 0.0))]

/-- Reads a word or a number. -/
def plain (c : Cursor) : Except Fault (Datum × Cursor) :=
  match words.find? fun (word, _) => (Text.dropPrefix? word.toList c.rest).isSome with
  | some (word, value) => .ok (value, c.skip word.length)
  | none => number c

/-- Reads the items of a list up to its closing bracket, at most `fuel` of them. -/
def items (item : Reader Datum) : Nat → Reader (List Datum)
  | 0, c => fail .value c.position
  | fuel + 1, c =>
    match item c with
    | .error e => .error e
    | .ok (value, c) =>
      let c := c.trim
      match c.rest with
      | ']' :: _ => .ok ([value], c.skip 1)
      | ',' :: _ =>
        match items item fuel (c.skip 1).trim with
        | .error e => .error e
        | .ok (values, c) => .ok (value :: values, c)
      | _ => fail .comma c.position

def field (item : Reader Datum) (c : Cursor) : Except Fault ((String × Datum) × Cursor) :=
  match c.rest with
  | '"' :: rest =>
    match stringBody c.position [] rest (c.position + 1) with
    | .error e => .error e
    | .ok (name, c) =>
      let c := c.trim
      match c.rest with
      | ':' :: _ =>
        match item (c.skip 1).trim with
        | .error e => .error e
        | .ok (value, c) => .ok ((name, value), c)
      | _ => fail .colon c.position
  | _ => fail .propertyName c.position

/-- Reads the fields of a table up to its closing brace, at most `fuel` of them. -/
def tableFields (item : Reader Datum) : Nat → Reader (List (String × Datum))
  | 0, c => fail .propertyName c.position
  | fuel + 1, c =>
    match field item c with
    | .error e => .error e
    | .ok (pair, c) =>
      let c := c.trim
      match c.rest with
      | '\x7d' :: _ => .ok ([pair], c.skip 1)
      | ',' :: _ =>
        match tableFields item fuel (c.skip 1).trim with
        | .error e => .error e
        | .ok (pairs, c) => .ok (pair :: pairs, c)
      | _ => fail .comma c.position

/-- Reads a value that nests at most `depth` lists and tables of at most `fuel` entries. -/
def value (fuel : Nat) : Nat → Reader Datum
  | depth, c =>
    match c.rest with
    | '"' :: rest =>
      match stringBody c.position [] rest (c.position + 1) with
      | .error e => .error e
      | .ok (s, c) => .ok (.text s, c)
    | '[' :: _ =>
      match depth with
      | 0 => .error .deepList
      | depth + 1 =>
        let c := (c.skip 1).trim
        match c.rest with
        | ']' :: _ => .ok (.list [], c.skip 1)
        | _ =>
          match items (value fuel depth) fuel c with
          | .error e => .error e
          | .ok (values, c) => .ok (.list values, c)
    | '\x7b' :: _ =>
      match depth with
      | 0 => .error .deepTable
      | depth + 1 =>
        let c := (c.skip 1).trim
        match c.rest with
        | '\x7d' :: _ => .ok (.table [], c.skip 1)
        | _ =>
          match tableFields (value fuel depth) fuel c with
          | .error e => .error e
          | .ok (pairs, c) => .ok (.table (Table.ofPairs pairs), c)
    | _ => plain c

/-- Values may nest this deep. -/
def depthLimit : Nat := 990

def parse (text : String) : Except Fault Datum :=
  match text.toList with
  | '\uFEFF' :: _ => fail .byteOrderMark 0
  | cs =>
    match value (cs.length + 1) depthLimit (skipSpaces cs 0) with
    | .error e => .error e
    | .ok (result, c) =>
      let c := c.trim
      if c.rest.isEmpty then .ok result else fail .extra c.position

end Synopsis.Json
