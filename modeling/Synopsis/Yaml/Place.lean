import Synopsis.Datum
import Synopsis.Decimal.Read
/-!
# Places in a document

A settings document in the YAML format is read from place to place. A place knows what follows it,
its line and its column; the text ends in a null character, which no document may hold.
-/

namespace Synopsis.Yaml

inductive Fault where
  /-- The text is no document, or holds what has no meaning. -/
  | malformed
  /-- An escape names a number that is no character. -/
  | noCharacter (code : Nat)
  /-- A text in place of a whole number. -/
  | noWhole (base : Nat) (text : String)
  /-- A whole number of too many digits. -/
  | longWhole (digits : Nat)
  /-- A text in place of a number. -/
  | noNumber (text : String)
  /-- A number without any characters. -/
  | emptyNumber
  /-- A text in place of a truth value. -/
  | noTruth (text : String)
  /-- A text in place of a moment. -/
  | noMoment
  /-- A moment that no calendar has; the reason in words. -/
  | calendar (reason : String)
  /-- Lists and tables are nested too deeply. -/
  | nesting
  deriving DecidableEq, Repr

def Fault.message : Fault → String
  | .malformed => "malformed document"
  | .noCharacter code =>
    if code < 0x80000000 then "chr() arg not in range(0x110000)"
    else "Python int too large to convert to C int"
  | .noWhole base text =>
    let shown := String.ofList ((Text.quoted text).toList.take 200)
    s!"invalid literal for int() with base {base}: {shown}"
  | .longWhole digits => Decimal.longNumeralMessage digits
  | .noNumber text => "could not convert string to float: " ++ Text.quoted text
  | .emptyNumber => "string index out of range"
  | .noTruth text => Text.quoted text
  | .noMoment => "'NoneType' object has no attribute 'groupdict'"
  | .calendar reason => reason
  | .nesting => "maximum recursion depth exceeded"

structure Place where
  rest : List Char
  /-- Number of characters in `rest`. -/
  left : Nat
  index : Nat
  line : Nat
  column : Nat

/-- The character that stands for the end of a document. -/
def endMark : Char := '\x00'

def isBreak (c : Char) : Bool :=
  c == '\r' || c == '\n' || c == '\u0085' || c == '\u2028' || c == '\u2029'

/-- The end, or characters that end a line. -/
def isStop (c : Char) : Bool := c == endMark || isBreak c

def isSpaceStop (c : Char) : Bool := c == ' ' || isStop c

def isBlankStop (c : Char) : Bool := c == ' ' || c == '\t' || isStop c

namespace Place

def ofText (cs : List Char) : Place := ⟨cs, cs.length, 0, 0, 0⟩

def at' (p : Place) (n : Nat) : Char := (p.rest.drop n).headD endMark

def peek (p : Place) : Char := p.rest.headD endMark

def step (p : Place) : Place :=
  match p.rest with
  | [] => p
  | c :: rest =>
    let isLine := isBreak c && !(c == '\r' && rest.head? == some '\n')
    { rest := rest, left := p.left - 1, index := p.index + 1
      line := if isLine then p.line + 1 else p.line
      column := if isLine then 0 else if c == '\uFEFF' then p.column else p.column + 1 }

/-- The place after `n` more characters. -/
def steps : Nat → Place → Place
  | 0, p => p
  | n + 1, p => steps n p.step

/-- The characters that satisfy a condition from here on, and the place after them. -/
def takeWhile (p : Place) (condition : Char → Bool) : List Char × Place :=
  let taken := p.rest.takeWhile condition
  (taken, p.steps taken.length)

def skipWhile (p : Place) (condition : Char → Bool) : Place := (p.takeWhile condition).2

/-- A line break as it counts in a text, and the place after it; none if no line ends here. -/
def lineBreak? (p : Place) : Option (Char × Place) :=
  match p.rest with
  | '\r' :: '\n' :: _ => some ('\n', p.steps 2)
  | c :: _ =>
    if c == '\u2028' || c == '\u2029' then some (c, p.step)
    else if isBreak c then some ('\n', p.step)
    else none
  | [] => none

/-- The line breaks from here on with the characters that `skip` passes over before each, at most
`fuel` of them, and the place after these. -/
def lineBreaks (skip : Place → Place) : Nat → Place → List Char × Place
  | 0, p => ([], p)
  | fuel + 1, p =>
    let p := skip p
    match p.lineBreak? with
    | none => ([], p)
    | some (c, next) =>
      let (cs, last) := lineBreaks skip fuel next
      (c :: cs, last)

def skipComment (p : Place) : Place :=
  if p.peek == '#' then p.skipWhile (!isStop ·) else p

def atMark (p : Place) (mark : String) : Bool :=
  mark.toList.isPrefixOf p.rest && isBlankStop (p.at' mark.length)

def atSeparator (p : Place) : Bool := p.atMark "---" || p.atMark "..."

end Place

end Synopsis.Yaml
