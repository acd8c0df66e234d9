import Synopsis.Ecma.Reader
/-!
# Literals

Numbers, strings and regular expressions. A string and a template are made of fragments of plain
text and of escapes; an escape that is not well formed is an error.
-/

namespace Synopsis.Ecma

open Synopsis.Ecma.Parser

namespace Literal

/-- Whether a character is a digit of a base up to sixteen. -/
def isDigitOf (base : Nat) (c : Char) : Bool :=
  let n :=
    if c.isDigit then c.toNat - 48
    else if 'a' ≤ c.toLower && c.toLower ≤ 'f' then c.toLower.toNat - 87
    else 16
  n < base

/-- Number of characters of digits with single underscores between them. -/
def digitsLength (base : Nat) : List Char → Nat
  | c :: '_' :: d :: rest =>
    if isDigitOf base c then
      if isDigitOf base d then 2 + digitsLength base (d :: rest) else 1
    else 0
  | c :: rest => if isDigitOf base c then 1 + digitsLength base rest else 0
  | [] => 0

def exponentLength : List Char → Nat
  | e :: rest =>
    if e == 'e' || e == 'E' then
      let sign := match rest with
        | s :: _ => if s == '+' || s == '-' then 1 else 0
        | [] => 0
      let n := digitsLength 10 (rest.drop sign)
      if n == 0 then 0 else 1 + sign + n
    else 0
  | [] => 0

/-- Number of characters with the mark of a large integer, if it follows. -/
def withBigMark (n : Nat) (cs : List Char) : Nat :=
  if n != 0 && (cs.drop n).head? == some 'n' then n + 1 else n

def decimalLength (cs : List Char) : Nat :=
  let whole := digitsLength 10 cs
  match cs.drop whole with
  | '.' :: rest =>
    let fraction := digitsLength 10 rest
    if whole == 0 && fraction == 0 then 0
    else whole + 1 + fraction + exponentLength (rest.drop fraction)
  | rest =>
    if whole == 0 then 0
    else
      let exponent := exponentLength rest
      if exponent == 0 then withBigMark whole cs else whole + exponent

/-- Number of characters of the number that starts here; none if no number does. -/
def numberLength (cs : List Char) : Nat :=
  let based (base : Nat) (rest : List Char) : Nat :=
    let n := digitsLength base rest
    if n == 0 then 1 else withBigMark (2 + n) cs
  match cs with
  | '0' :: b :: rest =>
    if b == 'x' || b == 'X' then based 16 rest
    else if b == 'o' || b == 'O' then based 8 rest
    else if b == 'b' || b == 'B' then based 2 rest
    else decimalLength cs
  | cs => decimalLength cs

/-- Number of characters of the escape that starts with the backslash here. -/
def escapeLength? : List Char → Option Nat
  | '\\' :: 'x' :: rest =>
    if ((rest.take 2).filter (isDigitOf 16)).length == 2 then some 4 else none
  | '\\' :: 'u' :: '\x7b' :: rest =>
    let n := (rest.takeWhile (isDigitOf 16)).length
    if n != 0 && (rest.drop n).head? == some '\x7d' then some (n + 4) else none
  | '\\' :: 'u' :: rest =>
    if ((rest.take 4).filter (isDigitOf 16)).length == 4 then some 6 else none
  | '\\' :: '\r' :: '\n' :: _ => some 3
  | '\\' :: c :: rest =>
    if isDigitOf 8 c then some (1 + ((c :: rest).take 3 |>.takeWhile (isDigitOf 8)).length)
    else some 2
  | _ => none

def escape : Items := fun c =>
  match escapeLength? c.rest with
  | some n => one (rawToken "escape_sequence" true n) c
  | none => fail c

/-- A fragment of plain text up to the first character that satisfies `stop`. -/
def fragment (stop : Char → Bool) : Items := fun c =>
  let n := (c.rest.takeWhile (!stop ·)).length
  if n == 0 then fail c else one (rawToken "string_fragment" true n) c

def stringBetween (quote : Char) : Parser Tree :=
  let text := String.ofList [quote]
  let stop (c : Char) : Bool := c == quote || c == '\\' || c == '\n' || c == '\r'
  node "string" (seq
    [one (rawToken text false 1),
      untilThat (·.startsWith text) fun c =>
        if c.startsWith "\\" then escape c else fragment stop c,
      one (rawToken text false 1)])

/-- A node that was read without the blanks after it. -/
def thenBlanks (p : Parser Tree) : Parser Tree := fun c =>
  match p c with
  | .done t next => .done t { next.toNextToken with stop := next.stop }
  | .fail o r k => .fail o r k

def string : Parser Tree := fun c =>
  match c.head? with
  | some '"' => thenBlanks (stringBetween '"') c
  | some '\'' => thenBlanks (stringBetween '\'') c
  | _ => fail c

def number : Parser Tree := fun c =>
  let n := numberLength c.rest
  if n == 0 then fail c else token "number" true n c

/-- Number of characters of a regular expression up to its closing slash; `inSet` tells whether the
place is inside brackets, in which a slash does not close. -/
def patternLength? (inSet : Bool) : List Char → Option Nat
  | [] => none
  | '\n' :: _ => none
  | '\\' :: '\n' :: _ => none
  | '\\' :: _ :: rest => (patternLength? inSet rest).map (· + 2)
  | c :: rest =>
    if c == '/' && !inSet then some 0
    else
      let inside := if c == '[' then true else if c == ']' then false else inSet
      (patternLength? inside rest).map (· + 1)

def regex : Parser Tree := fun c =>
  match c.rest with
  | '/' :: rest =>
    match patternLength? false rest with
    | none => fail c
    | some 0 => fail c
    | some n =>
      let flags (c : Cursor) : Nat := (c.rest.takeWhile fun ch => 'a' ≤ ch && ch ≤ 'z').length
      thenBlanks (node "regex" (seq
        [one (rawToken "/" false 1), fld "pattern" (rawToken "regex_pattern" true n),
          one (rawToken "/" false 1),
          fun c => if flags c == 0 then .done [] c
            else fld "flags" (rawToken "regex_flags" true (flags c)) c])) c
  | _ => fail c

/-- A template; `value` reads what stands between the braces of a substitution. Without the blanks
after it. -/
def templateRaw (kind substitution : String) (value : Items) : Parser Tree :=
  let stop (cs : List Char) : Bool := match cs with
    | '$' :: '\x7b' :: _ => true
    | '\x60' :: _ => true
    | '\\' :: _ => true
    | _ => false
  let rec plainLength : List Char → Nat
    | [] => 0
    | c :: rest => if stop (c :: rest) then 0 else 1 + plainLength rest
  node kind (seq
    [one (rawToken "`" false 1),
      untilThat (·.startsWith "`") fun c =>
        if c.startsWith "\\" then escape c
        else if c.startsWith "$\x7b" then
          one (node substitution (seq
            [one (token "$\x7b" false 2), value,
              fun c => if c.startsWith "\x7d" then one (rawToken "\x7d" false 1) c else fail c])) c
        else
          let n := plainLength c.rest
          if n == 0 then fail c else one (rawToken "string_fragment" true n) c,
      one (rawToken "`" false 1)])

/-- A template with values between the braces of its substitutions. -/
def template (kind substitution : String) (value : Items) : Parser Tree := fun c =>
  if c.startsWith "`" then thenBlanks (templateRaw kind substitution value) c else fail c

end Literal

end Synopsis.Ecma
