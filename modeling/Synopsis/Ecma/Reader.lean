import Synopsis.Ecma.Tree
/-!
# Reading tokens

A parser starts at the first character of a token, blanks and comments before it being passed
over, and ends at the first character of the token after what it has read. Comments are kept
aside, in the order in which they stand, and are put into the tree at the end.

A parser that fails says how far the text could be read; of two alternatives that fail, the one
that came further counts. Loops take as many steps as characters are left.
-/

namespace Synopsis.Ecma

structure Cursor where
  rest : List Char
  /-- Number of characters in `rest`. -/
  left : Nat
  /-- Bytes before the place. -/
  offset : Nat
  row : Nat
  /-- Bytes before the place in its row. -/
  column : Nat
  /-- The byte after the last token that was read. -/
  stop : Nat
  /-- Whether a line ended since then. -/
  newline : Bool
  /-- The comments passed so far, the last one first. -/
  comments : List Tree

inductive Outcome (α : Type) where
  | done (value : α) (next : Cursor)
  | fail (offset row column : Nat)

abbrev Parser (α : Type) := Cursor → Outcome α

/-- A parser of consecutive children of a node. -/
abbrev Items := Parser (List Tree)

namespace Cursor

def ofText (cs : List Char) : Cursor := ⟨cs, cs.length, 0, 0, 0, 0, false, []⟩

def step (c : Cursor) : Cursor :=
  match c.rest with
  | [] => c
  | ch :: rest =>
    let size := ch.utf8Size
    if ch == '\n' then
      { c with rest := rest, left := c.left - 1, offset := c.offset + size, row := c.row + 1,
               column := 0 }
    else
      { c with rest := rest, left := c.left - 1, offset := c.offset + size,
               column := c.column + size }

/-- The place after `n` more characters. -/
def steps : Nat → Cursor → Cursor
  | 0, c => c
  | n + 1, c => steps n c.step

def spanTo (c : Cursor) (stop : Nat) : Span := ⟨c.offset, stop, c.row, c.column⟩

def startsWith (c : Cursor) (text : String) : Bool := text.toList.isPrefixOf c.rest

def head? (c : Cursor) : Option Char := c.rest.head?

end Cursor

def isSpace (c : Char) : Bool :=
  let n := c.toNat
  (9 ≤ n && n ≤ 13) || n == 32 || n == 0xA0 || n == 0x1680 || (0x2000 ≤ n && n ≤ 0x200B) ||
    n == 0x2028 || n == 0x2029 || n == 0x202F || n == 0x205F || n == 0x2060 || n == 0x3000 ||
    n == 0xFEFF

/-- Characters that end a line for the rule of missing semicolons. -/
def isLineBreak (c : Char) : Bool := c == '\n' || c == '\u2028' || c == '\u2029'

def lineCommentLength (cs : List Char) : Nat :=
  (cs.takeWhile fun c => !(isLineBreak c || c == '\r')).length

/-- Number of characters of a block comment after its opening mark, if it is closed. -/
def blockCommentLength? : List Char → Option Nat
  | '*' :: '/' :: _ => some 2
  | _ :: rest => (blockCommentLength? rest).map (· + 1)
  | [] => none

namespace Cursor

/-- Passes over a comment of some kind and of `n` characters and keeps it. -/
def passComment (kind : String) (n : Nat) (c : Cursor) : Cursor :=
  let next := c.steps n
  let tree := Tree.node { kind := kind, span := c.spanTo next.offset } []
  { next with comments := tree :: c.comments
              newline := c.newline || (c.rest.take n).any isLineBreak }

/-- Passes over blanks and comments, at most `fuel` of them. -/
def passBlanks : Nat → Cursor → Cursor
  | 0, c => c
  | fuel + 1, c =>
    match c.rest with
    | '/' :: '/' :: rest => passBlanks fuel (c.passComment "comment" (2 + lineCommentLength rest))
    | '/' :: '*' :: rest =>
      match blockCommentLength? rest with
      | some n => passBlanks fuel (c.passComment "comment" (2 + n))
      | none => c
    | ch :: _ =>
      if isSpace ch then
        let next := c.step
        passBlanks fuel { next with newline := c.newline || isLineBreak ch }
      else c
    | [] => c

/-- The first place of the next token, after a token that ended here. -/
def toNextToken (c : Cursor) : Cursor :=
  passBlanks (c.left + 1) { c with stop := c.offset, newline := false }

/-- Passes over page comments, which hold the rest of a line, at most `fuel` of them. -/
def passPageComments : Nat → Cursor → Cursor
  | 0, c => c
  | fuel + 1, c =>
    if c.startsWith "<!--" || c.startsWith "-->" then
      let next := c.passComment "html_comment" (c.rest.takeWhile (!isLineBreak ·)).length
      passPageComments fuel (passBlanks (next.left + 1) next)
    else c

/-- Passes over page comments. They are known only where a value or a statement could start. -/
def pastPageComments (c : Cursor) : Cursor := passPageComments (c.left + 1) c

end Cursor

namespace Parser

def succeed {α : Type} (value : α) : Parser α := fun c => .done value c

def fail {α : Type} : Parser α := fun c => .fail c.offset c.row c.column

/-- Reads one thing and then another, which may depend on the first. -/
def andThen {α β : Type} (p : Parser α) (f : α → Parser β) : Parser β := fun c =>
  match p c with
  | .done value next => f value next
  | .fail o r k => .fail o r k

instance : Monad Parser where
  pure := succeed
  bind := andThen

/-- Reads the first alternative, or else the second. -/
def orElse {α : Type} (p q : Parser α) : Parser α := fun c =>
  match p c with
  | .done value next => .done value next
  | .fail o r k =>
    match q c with
    | .done value next => .done value next
    | .fail o' r' k' => if o < o' then .fail o' r' k' else .fail o r k

def seq : List Items → Items
  | [] => succeed []
  | p :: ps => fun c =>
    match p c with
    | .fail o r k => .fail o r k
    | .done xs next =>
      match seq ps next with
      | .fail o r k => .fail o r k
      | .done ys next => .done (xs ++ ys) next

/-- Reads something only if the place satisfies a condition. -/
def given (condition : Cursor → Bool) (p : Items) : Items := fun c =>
  if condition c then p c else .done [] c

def maybe (p : Items) : Items := orElse p (succeed [])

def untilLoop (stop : Cursor → Bool) (item : Items) : Nat → List Tree → Items
  | 0, _ => fail
  | fuel + 1, taken => fun c =>
    if stop c then .done taken.reverse c
    else match item c with
      | .fail o r k => .fail o r k
      | .done xs next => untilLoop stop item fuel (xs.reverse ++ taken) next

def untilThat (stop : Cursor → Bool) (item : Items) : Items := fun c =>
  untilLoop stop item (c.left + 1) [] c

/-- Reads items until a condition holds; page comments may stand around each. -/
def linesUntil (stop : Cursor → Bool) (item : Items) : Items := fun c =>
  match untilThat (fun c => stop c.pastPageComments) item c with
  | .fail o r k => .fail o r k
  | .done ts next => .done ts next.pastPageComments

/-- Lets a value grow as long as there is something to add to it, at most `fuel` times. -/
def growLoop {α : Type} (grow : α → Parser (Option α)) : Nat → α → Parser α
  | 0, value => succeed value
  | fuel + 1, value => fun c =>
    match grow value c with
    | .fail o r k => .fail o r k
    | .done none _ => .done value c
    | .done (some value) next => growLoop grow fuel value next

/-- Lets a value grow as long as there is something to add to it. -/
def growing {α : Type} (grow : α → Parser (Option α)) (value : α) : Parser α := fun c =>
  growLoop grow (c.left + 1) value c

/-- Whether a parser would succeed here. -/
def fits {α : Type} (p : Parser α) (c : Cursor) : Bool :=
  match p c with
  | .done _ _ => true
  | .fail _ _ _ => false

end Parser

open Synopsis.Ecma.Parser

/-- A token of `n` characters of some kind, without the blanks after it. -/
def rawToken (kind : String) (named : Bool) (n : Nat) : Parser Tree := fun c =>
  let next := c.steps n
  .done (.node { kind := kind, span := c.spanTo next.offset, named := named } [])
    { next with stop := next.offset, newline := false }

def token (kind : String) (named : Bool) (n : Nat) : Parser Tree := fun c =>
  let next := c.steps n
  .done (.node { kind := kind, span := c.spanTo next.offset, named := named } []) next.toNextToken

def isNameStop (c : Char) : Bool :=
  c.toNat < 0x20 || isSpace c || ":;`\"'@#.,|^&<=>+-*/\\%?!~()[]\x7b\x7d".toList.contains c

/-- Number of characters of a character escape in a name. -/
def nameEscapeLength? (cs : List Char) : Option Nat :=
  let isHex (c : Char) : Bool := c.isDigit || ('a' ≤ c.toLower && c.toLower ≤ 'f')
  match cs with
  | '\\' :: 'u' :: '\x7b' :: rest =>
    let n := (rest.takeWhile isHex).length
    if n != 0 && (rest.drop n).head? == some '\x7d' then some (n + 4) else none
  | '\\' :: 'u' :: rest => if 4 ≤ ((rest.take 4).filter isHex).length then some 6 else none
  | _ => none

/-- Number of characters of the part of a name that starts here; `fuel` bounds the steps. -/
def nameTailLength : Nat → List Char → Nat
  | 0, _ => 0
  | _, [] => 0
  | fuel + 1, c :: rest =>
    if c == '\\' then
      match nameEscapeLength? (c :: rest) with
      | some n => n + nameTailLength fuel ((c :: rest).drop n)
      | none => 0
    else if isNameStop c then 0
    else 1 + nameTailLength fuel rest

/-- Number of characters of the name that starts here; none if no name does. -/
def nameLength (c : Cursor) : Nat :=
  match c.rest with
  | ch :: _ => if ch.isDigit then 0 else nameTailLength (c.left + 1) c.rest
  | [] => 0

namespace Cursor

/-- The name that starts here; empty if none does. -/
def word (c : Cursor) : String := String.ofList (c.rest.take (nameLength c))

def afterWord (c : Cursor) : Cursor := (c.steps (nameLength c)).toNextToken

end Cursor

/-- Marks of more than one character, longer ones first. -/
def longMarks : List String :=
  [">>>=", "...", "===", "!==", "**=", "<<=", ">>=", ">>>", "&&=", "||=", "??=", "=>", "==", "!=",
    "<=", ">=", "++", "--", "**", "<<", ">>", "&&", "||", "??", "?.", "+=", "-=", "*=", "/=", "%=",
    "&=", "|=", "^="]

namespace Cursor

/-- The longest mark that starts here. A question mark before a point and a digit stands alone. -/
def mark (c : Cursor) : String :=
  match c.rest with
  | '?' :: '.' :: d :: _ => if d.isDigit then "?" else "?."
  | _ =>
    match longMarks.find? c.startsWith with
    | some m => m
    | none => match c.rest with
      | ch :: _ => String.ofList [ch]
      | [] => ""

def atEnd (c : Cursor) : Bool := c.rest.isEmpty

end Cursor

/-- A mark that comes next, whatever follows it. -/
def sym (text : String) : Items := fun c =>
  if c.startsWith text then (do return [← token text false text.length]) c
  else fail c

/-- A mark that comes next and is no part of a longer one. -/
def op (text : String) : Items := fun c =>
  if c.mark == text then (do return [← token text false text.length]) c
  else fail c

def kw (text : String) : Items := fun c =>
  if c.word == text then (do return [← token text false text.length]) c
  else fail c

/-- One tree as the only child. -/
def one (p : Parser Tree) : Items := fun c =>
  match p c with
  | .done t next => .done [t] next
  | .fail o r k => .fail o r k

def fld (name : String) (p : Parser Tree) : Items := fun c =>
  match p c with
  | .done t next => .done [t.inField name] next
  | .fail o r k => .fail o r k

def fldAll (name : String) (p : Items) : Items := fun c =>
  match p c with
  | .done ts next => .done (ts.map (Tree.inField name)) next
  | .fail o r k => .fail o r k

def node (kind : String) (children : Items) : Parser Tree := fun c =>
  match children c with
  | .done ts next => .done (.node { kind := kind, span := c.spanTo next.stop } ts) next
  | .fail o r k => .fail o r k

/-- A node of some kind that starts with a tree that was read before. -/
def nodeFrom (kind : String) (first : Tree) (children : Items) : Parser Tree := fun c =>
  match children c with
  | .done ts next =>
    .done (.node { kind := kind, span := { first.span with stop := next.stop } } (first :: ts)) next
  | .fail o r k => .fail o r k

def atAny (marks : List String) (c : Cursor) : Bool := marks.any c.startsWith

/-- Items with commas between them up to a closing mark. With `holes`, items may be left away; a
comma may stand before the closing mark in any case. -/
def commaList (close : String) (holes : Bool) (item : Items) : Items :=
  untilThat (·.startsWith close) fun c =>
    if holes && c.startsWith "," then sym "," c
    else seq [item, fun c => if c.startsWith close then .done [] c else sym "," c] c

def commaSome (item : Items) : Items := fun c =>
  match item c with
  | .fail o r k => .fail o r k
  | .done first next =>
    growing (fun taken c =>
      if c.startsWith "," then
        (do let more ← seq [sym ",", item]; return some (taken ++ more)) c
      else .done none c) first next

end Synopsis.Ecma
