import Synopsis.Yaml.Text
/-!
# Tokens

The tokens of a document in order. Indentation opens and closes lists and tables of its own, and a
name before a colon turns out to be one only when the colon comes: it has to be on the same line and
not too far away.
-/

namespace Synopsis.Yaml

inductive Token where
  | directive (d : Directive)
  | documentStart
  | documentEnd
  /-- A list that is opened by indentation. -/
  | listStart
  /-- A table that is opened by indentation. -/
  | tableStart
  /-- The end of a list or table that indentation opened. -/
  | blockEnd
  /-- An opening bracket. -/
  | openList
  /-- A closing bracket. -/
  | closeList
  /-- An opening brace. -/
  | openTable
  /-- A closing brace. -/
  | closeTable
  /-- A hyphen before an item. -/
  | item
  | comma
  /-- What comes next is a name in a table. -/
  | key
  /-- What comes next is a value in a table. -/
  | value
  | alias (name : String)
  | anchor (name : String)
  | tag (handle : Option String) (suffix : String)
  /-- A text; a plain one stands for what it looks like. -/
  | text (isPlain : Bool) (content : String)
  | finish
  deriving DecidableEq, Repr

/-- A name may be at most this many characters away from its colon. -/
def longestKey : Nat := 1024

/-- A token that is a name if a colon follows: its number, where it starts, and whether a colon has
to follow. -/
structure PossibleKey where
  number : Nat
  required : Bool
  index : Nat
  line : Nat
  column : Nat

structure Lexer where
  place : Place
  /-- Number of open brackets and braces. -/
  flow : Nat := 0
  /-- The column of the innermost list or table that indentation opened. -/
  indent : Int := -1
  /-- The columns of those around it. -/
  outer : List Int := []
  /-- Whether a name may start here. -/
  keyAllowed : Bool := true
  /-- Possible names by the number of open brackets. -/
  keys : List (Nat × PossibleKey) := []
  /-- The tokens so far, the last one first. -/
  tokens : List Token := []
  /-- Number of tokens so far. -/
  count : Nat := 0

namespace Lexer

def emit (t : Token) (x : Lexer) : Lexer := { x with tokens := t :: x.tokens, count := x.count + 1 }

/-- One more token in front of the one with a number. -/
def insert (number : Nat) (t : Token) (x : Lexer) : Lexer :=
  { x with tokens := x.tokens.insertIdx (x.count - number) t, count := x.count + 1 }

def column (x : Lexer) : Int := x.place.column

def goTo (p : Place) (x : Lexer) : Lexer := { x with place := p }

/-- Forgets the possible names that cannot be names any more. -/
def dropStale (x : Lexer) : Except Fault Lexer :=
  let isStale (k : PossibleKey) : Bool :=
    k.line != x.place.line || longestKey < x.place.index - k.index
  if x.keys.any fun (_, k) => isStale k && k.required then .error .malformed
  else .ok { x with keys := x.keys.filter fun (_, k) => !isStale k }

def dropKey (x : Lexer) : Except Fault Lexer :=
  match x.keys.lookup x.flow with
  | none => .ok x
  | some k =>
    if k.required then .error .malformed
    else .ok { x with keys := x.keys.filter (·.1 != x.flow) }

/-- Notes that the next token may be a name. -/
def saveKey (x : Lexer) : Except Fault Lexer :=
  if !x.keyAllowed then .ok x
  else do
    let required := x.flow == 0 && x.indent == x.column
    let x ← x.dropKey
    let k : PossibleKey := ⟨x.count, required, x.place.index, x.place.line, x.place.column⟩
    return { x with keys := (x.flow, k) :: x.keys }

/-- Closes what indentation opened further to the right than a column. -/
def unwind (column : Int) (x : Lexer) : Lexer :=
  if x.flow != 0 then x
  else close x.outer x
where
  /-- Closes lists and tables as long as they start further to the right. -/
  close : List Int → Lexer → Lexer
    | [], x => x
    | indent :: outer, x =>
      if column < x.indent then close outer
        { x.emit .blockEnd with indent := indent, outer := outer }
      else x

/-- Opens a list or table at a column if it is further to the right than the innermost one. -/
def openBlock (column : Int) (x : Lexer) : Option Lexer :=
  if x.indent < column then some { x with indent := column, outer := x.indent :: x.outer } else none

/-- Passes over blanks, comments and line ends, `fuel` lines of them at most. -/
def toNext : Nat → Lexer → Lexer
  | 0, x => x
  | fuel + 1, x =>
    let p := (x.place.skipWhile (· == ' ')).skipComment
    match p.lineBreak? with
    | none => x.goTo p
    | some (_, next) =>
      toNext fuel { x with place := next, keyAllowed := x.keyAllowed || x.flow == 0 }

/-- A token of `n` characters. -/
def mark (t : Token) (n : Nat) (x : Lexer) : Lexer := (x.goTo (x.place.steps n)).emit t

def separator (t : Token) (x : Lexer) : Except Fault Lexer := do
  let x ← (x.unwind (-1)).dropKey
  return { x.mark t 3 with keyAllowed := false }

def directiveLine (x : Lexer) : Except Fault Lexer := do
  let x ← (x.unwind (-1)).dropKey
  let (d, p) ← directive x.place.step
  return { (x.goTo p).emit (.directive d) with keyAllowed := false }

def opening (t : Token) (x : Lexer) : Except Fault Lexer := do
  let x ← x.saveKey
  return { x.mark t 1 with flow := x.flow + 1, keyAllowed := true }

def closing (t : Token) (x : Lexer) : Except Fault Lexer := do
  let x ← x.dropKey
  return { x.mark t 1 with flow := x.flow - 1, keyAllowed := false }

def commaMark (x : Lexer) : Except Fault Lexer := do
  let x ← x.dropKey
  return { x.mark .comma 1 with keyAllowed := true }

def itemMark (x : Lexer) : Except Fault Lexer := do
  if x.flow == 0 && !x.keyAllowed then throw .malformed
  let x := if x.flow != 0 then x else
    match x.openBlock x.column with
    | some x => x.emit .listStart
    | none => x
  let x ← x.dropKey
  return { x.mark .item 1 with keyAllowed := true }

def keyMark (x : Lexer) : Except Fault Lexer := do
  if x.flow == 0 && !x.keyAllowed then throw .malformed
  let x := if x.flow != 0 then x else
    match x.openBlock x.column with
    | some x => x.emit .tableStart
    | none => x
  let x ← x.dropKey
  return { x.mark .key 1 with keyAllowed := x.flow == 0 }

/-- A colon before a value. What stands before it on the line is a name; this may open a table. -/
def valueMark (x : Lexer) : Except Fault Lexer :=
  match x.keys.lookup x.flow with
  | some k =>
    let x := { x with keys := x.keys.filter (·.1 != x.flow) }.insert k.number .key
    let x := if x.flow != 0 then x else
      match x.openBlock k.column with
      | some x => x.insert k.number .tableStart
      | none => x
    .ok { x.mark .value 1 with keyAllowed := false }
  | none => do
    if x.flow == 0 && !x.keyAllowed then throw .malformed
    let x := if x.flow != 0 then x else
      match x.openBlock x.column with
      | some x => x.emit .tableStart
      | none => x
    let x ← x.dropKey
    return { x.mark .value 1 with keyAllowed := x.flow == 0 }

/-- A token that may be a name, read by `read` from the next place on. -/
def keyLike (read : Place → Except Fault (Token × Place)) (x : Lexer) : Except Fault Lexer := do
  let x ← x.saveKey
  let (t, p) ← read x.place
  return { (x.goTo p).emit t with keyAllowed := false }

/-- A plain text. A name may start after it if a line ended. -/
def plainText (x : Lexer) : Except Fault Lexer := do
  let x ← x.saveKey
  let (s, lines, p) := plain (x.flow != 0) x.indent x.place
  return { (x.goTo p).emit (.text true s) with keyAllowed := lines }

def blockText (folds : Bool) (x : Lexer) : Except Fault Lexer := do
  let x ← x.dropKey
  let (s, p) ← block folds x.indent x.place.step
  return { (x.goTo p).emit (.text false s) with keyAllowed := true }

def startsPlain (x : Lexer) : Bool :=
  let c := x.place.peek
  !(isBlankStop c || "-?:,[]\x7b\x7d#&*!|>'\"%@\x60".toList.contains c) ||
    (!isBlankStop (x.place.at' 1) && (c == '-' || (x.flow == 0 && (c == '?' || c == ':'))))

def next (x : Lexer) : Except Fault Lexer :=
  let p := x.place
  let spaced := isBlankStop (p.at' 1)
  match p.peek with
  | '%' => if p.column == 0 then x.directiveLine else .error .malformed
  | '[' => x.opening .openList
  | '\x7b' => x.opening .openTable
  | ']' => x.closing .closeList
  | '\x7d' => x.closing .closeTable
  | ',' => x.commaMark
  | '*' => x.keyLike fun p => (anchorName p.step).map fun (s, p) => (.alias s, p)
  | '&' => x.keyLike fun p => (anchorName p.step).map fun (s, p) => (.anchor s, p)
  | '!' => x.keyLike fun p => (tag p).map fun ((handle, suffix), p) => (.tag handle suffix, p)
  | '\'' => x.keyLike fun p => (quoted p).map fun (s, p) => (.text false s, p)
  | '"' => x.keyLike fun p => (quoted p).map fun (s, p) => (.text false s, p)
  | c =>
    if c == '-' && p.column == 0 && p.atMark "---" then x.separator .documentStart
    else if c == '.' && p.column == 0 && p.atMark "..." then x.separator .documentEnd
    else if c == '-' && spaced then x.itemMark
    else if c == '?' && (x.flow != 0 || spaced) then x.keyMark
    else if c == ':' && (x.flow != 0 || spaced) then x.valueMark
    else if c == '|' && x.flow == 0 then x.blockText false
    else if c == '>' && x.flow == 0 then x.blockText true
    else if x.startsPlain then x.plainText
    else .error .malformed

/-- All tokens of the rest, the last one first, and the fault that ends them, if there is one;
`fuel` bounds their number. -/
def run : Nat → Lexer → List Token × Option Fault
  | 0, x => (x.tokens, some .malformed)
  | fuel + 1, x =>
    let x := x.toNext (x.place.left + 1)
    match x.dropStale with
    | .error e => (x.tokens, some e)
    | .ok x =>
      let x := x.unwind x.column
      if x.place.rest.isEmpty then
        match (x.unwind (-1)).dropKey with
        | .error e => (x.tokens, some e)
        | .ok x => ((x.emit .finish).tokens, none)
      else match x.next with
        | .error e => (x.tokens, some e)
        | .ok x => run fuel x

end Lexer

def isPrintable (c : Char) : Bool :=
  let n := c.toNat
  n == 9 || n == 10 || n == 13 || (0x20 ≤ n && n ≤ 0x7E) || n == 0x85 || (0xA0 ≤ n && n ≤ 0xFFFD) ||
    0x10000 ≤ n

/-- The tokens of a document, and the fault that ends them, if there is one. -/
def tokens (text : String) : List Token × Option Fault :=
  let cs := text.toList
  if !cs.all isPrintable then ([], some .malformed)
  else
    let start := Place.ofText cs
    let start := if start.peek == '\uFEFF' then start.step else start
    let (ts, fault) := Lexer.run (cs.length + 2) { place := start }
    (ts.reverse, fault)

end Synopsis.Yaml
