import Synopsis.Datum
import Synopsis.Decimal.Read
import Synopsis.Text.Lines
/-!
# Reading project files

A document in the TOML format holds tables of values. Tables are opened by headers, by names with
points in them, and by inline tables. A table may be opened by a header only once, and an inline
table or list cannot be added to: the names of both are kept while the document is read.
-/

namespace Synopsis.Toml

inductive Fault where
  | malformed
  /-- A whole number has more digits than can be read. -/
  | longInteger (digits : Nat)
  /-- Lists and tables are nested too deeply. -/
  | nesting
  deriving DecidableEq, Repr

/-- A name of a table or a value: its parts. -/
abbrev Key := List String

/-- Blanks within a line. -/
def isGap (c : Char) : Bool := c == ' ' || c == '\t'

def skipGap (cs : List Char) : List Char := cs.dropWhile isGap

def isControl (c : Char) : Bool := (c.toNat < 32 && c != '\t') || c.toNat == 127

def skipComment (cs : List Char) : Except Fault (List Char) :=
  match cs with
  | '#' :: rest =>
    if (rest.takeWhile (· != '\n')).any isControl then .error .malformed
    else .ok (rest.dropWhile (· != '\n'))
  | _ => .ok cs

/-- The rest after blanks, line ends and comments, at most `fuel` of these. -/
def skipSpace : Nat → List Char → Except Fault (List Char)
  | 0, cs => .ok cs
  | fuel + 1, cs =>
    let rest := cs.dropWhile fun c => isGap c || c == '\n'
    match rest with
    | '#' :: _ => do skipSpace fuel (← skipComment rest)
    | _ => .ok rest

def isBare (c : Char) : Bool := c.isAlphanum || c == '-' || c == '_'

/-! ## Texts -/

/-- The character with the number that hexadecimal digits write, and the rest. -/
def hexChar (width : Nat) (cs : List Char) : Except Fault (Char × List Char) :=
  let ds := (cs.take width).filterMap Decimal.hexDigit?
  let n := Decimal.ofDigits 16 ds
  if ds.length == width && n.isValidChar then .ok (Char.ofNat n, cs.drop width)
  else .error .malformed

/-- The text that an escape stands for, after its backslash. In texts of more than one line a
backslash at a line end takes away the blanks up to the next text. -/
def escape (multiline : Bool) (cs : List Char) : Except Fault (List Char × List Char) :=
  let joined (rest : List Char) : Except Fault (List Char × List Char) :=
    .ok ([], rest.dropWhile fun c => isGap c || c == '\n')
  match cs with
  | [] => .error .malformed
  | c :: rest =>
    if multiline && c == '\n' then joined rest
    else if multiline && isGap c then
      match skipGap rest with
      | [] => .ok ([], [])
      | '\n' :: rest => joined rest
      | _ => .error .malformed
    else match c with
      | 'u' => (hexChar 4 rest).map fun (c, rest) => ([c], rest)
      | 'U' => (hexChar 8 rest).map fun (c, rest) => ([c], rest)
      | 'b' => .ok (['\x08'], rest)
      | 't' => .ok (['\t'], rest)
      | 'n' => .ok (['\n'], rest)
      | 'f' => .ok (['\x0c'], rest)
      | 'r' => .ok (['\r'], rest)
      | '"' => .ok (['"'], rest)
      | '\\' => .ok (['\\'], rest)
      | _ => .error .malformed

/-- A text up to its closing quotes, with escapes; `fuel` bounds the steps. -/
def basicText (multiline : Bool) : Nat → List Char → List Char → Except Fault (String × List Char)
  | 0, _, _ => .error .malformed
  | fuel + 1, taken, cs =>
    match cs with
    | [] => .error .malformed
    | '"' :: rest =>
      if !multiline then .ok (String.ofList taken.reverse, rest)
      else match rest with
        | '"' :: '"' :: rest => .ok (String.ofList taken.reverse, rest)
        | _ => basicText multiline fuel ('"' :: taken) rest
    | '\\' :: rest => do
      let (text, rest) ← escape multiline rest
      basicText multiline fuel (text.reverse ++ taken) rest
    | c :: rest =>
      if isControl c && !(multiline && c == '\n') then .error .malformed
      else basicText multiline fuel (c :: taken) rest

def literalText (cs : List Char) : Except Fault (String × List Char) :=
  let text := cs.takeWhile (· != '\'')
  match cs.dropWhile (· != '\'') with
  | [] => .error .malformed
  | _ :: rest => if text.any isControl then .error .malformed else .ok (String.ofList text, rest)

def literalLines (taken : List Char) : List Char → Except Fault (String × List Char)
  | '\'' :: '\'' :: '\'' :: rest => .ok (String.ofList taken.reverse, rest)
  | [] => .error .malformed
  | c :: rest =>
    if isControl c && c != '\n' then .error .malformed else literalLines (c :: taken) rest

/-- A text of more than one line takes up to two more quotes after its closing ones. -/
def withQuotes (quote : Char) : String × List Char → String × List Char
  | (text, c :: d :: rest) =>
    if c == quote then
      if d == quote then (text ++ String.ofList [c, d], rest) else (text.push c, d :: rest)
    else (text, c :: d :: rest)
  | (text, [c]) => if c == quote then (text.push c, []) else (text, [c])
  | other => other

/-- The rest without a newline at its start. -/
def dropNewline : List Char → List Char
  | '\n' :: rest => rest
  | cs => cs

def textValue (cs : List Char) : Except Fault (String × List Char) :=
  match cs with
  | '"' :: '"' :: '"' :: rest =>
    (basicText true (rest.length + 1) [] (dropNewline rest)).map (withQuotes '"')
  | '"' :: rest => basicText false (rest.length + 1) [] rest
  | '\'' :: '\'' :: '\'' :: rest => (literalLines [] (dropNewline rest)).map (withQuotes '\'')
  | '\'' :: rest => literalText rest
  | _ => .error .malformed

/-! ## Names -/

/-- One part of a name. -/
def keyPart (cs : List Char) : Except Fault (String × List Char) :=
  match cs with
  | '"' :: rest => basicText false (rest.length + 1) [] rest
  | '\'' :: rest => literalText rest
  | _ =>
    let bare := cs.takeWhile isBare
    if bare.isEmpty then .error .malformed else .ok (String.ofList bare, cs.dropWhile isBare)

/-- The further parts of a name after points; `fuel` bounds their number. -/
def keyRest : Nat → List Char → Except Fault (Key × List Char)
  | 0, cs => .ok ([], cs)
  | fuel + 1, cs =>
    match skipGap cs with
    | '.' :: rest => do
      let (part, rest) ← keyPart (skipGap rest)
      let (parts, rest) ← keyRest fuel rest
      return (part :: parts, rest)
    | rest => .ok ([], rest)

def key (cs : List Char) : Except Fault (Key × List Char) := do
  let (part, rest) ← keyPart cs
  let (parts, rest) ← keyRest (rest.length + 1) rest
  return (part :: parts, rest)

/-! ## Numbers, dates and times -/

/-- A number of a fixed count of digits within bounds, and the rest. -/
def fixed? (width least most : Nat) (cs : List Char) : Option (Nat × List Char) :=
  let ds := (cs.take width).filterMap Decimal.digit?
  let n := Decimal.ofDigits 10 ds
  if ds.length == width && least ≤ n && n ≤ most then some (n, cs.drop width) else none

/-- The rest after a certain character. -/
def expect? (c : Char) : List Char → Option (List Char)
  | d :: rest => if c == d then some rest else none
  | [] => none

def expectChar (c : Char) (cs : List Char) : Except Fault (List Char) :=
  match expect? c cs with
  | some rest => .ok rest
  | none => .error .malformed

def clock? (cs : List Char) : Option (Clock × List Char) := do
  let (hour, cs) ← fixed? 2 0 23 cs
  let (minute, cs) ← fixed? 2 0 59 (← expect? ':' cs)
  let (second, cs) ← fixed? 2 0 59 (← expect? ':' cs)
  match cs with
  | '.' :: rest =>
    let ds := rest.takeWhile Char.isDigit
    if ds.isEmpty then return (⟨hour, minute, second, 0⟩, cs)
    let six := (ds ++ List.replicate 6 '0').take 6
    return (⟨hour, minute, second, Decimal.ofDigits 10 (six.filterMap Decimal.digit?)⟩,
      rest.drop ds.length)
  | _ => return (⟨hour, minute, second, 0⟩, cs)

/-- The distance from universal time that is written after a time, and the rest. -/
def offset (cs : List Char) : Option Int × List Char :=
  let signed (sign : Int) (rest : List Char) : Option (Int × List Char) := do
    let (hours, rest) ← fixed? 2 0 23 rest
    let (minutes, rest) ← fixed? 2 0 59 (← expect? ':' rest)
    return (sign * (hours * 3600 + minutes * 60), rest)
  match cs with
  | 'Z' :: rest => (some 0, rest)
  | 'z' :: rest => (some 0, rest)
  | '+' :: rest =>
    match signed 1 rest with
    | some (n, rest) => (some n, rest)
    | none => (none, cs)
  | '-' :: rest =>
    match signed (-1) rest with
    | some (n, rest) => (some n, rest)
    | none => (none, cs)
  | _ => (none, cs)

/-- A day, perhaps with a time, as it is written; days that no month has are not refused. -/
def day? (cs : List Char) : Option (Day × List Char) := do
  let (year, cs) ← fixed? 4 0 9999 cs
  let (month, cs) ← fixed? 2 1 12 (← expect? '-' cs)
  let (day, cs) ← fixed? 2 1 31 (← expect? '-' cs)
  return (⟨year, month, day⟩, cs)

/-- A day or a time that starts here; none if none does. -/
def moment? (cs : List Char) : Option (Except Fault (Moment × List Char)) :=
  match day? cs with
  | some (d, rest) =>
    if d.year == 0 || monthLength d.year d.month < d.day then some (.error .malformed)
    else
      let timed := match rest with
        | c :: more => if c == 'T' || c == 't' || c == ' ' then clock? more else none
        | [] => none
      match timed with
      | some (c, rest) =>
        let (zone, rest) := offset rest
        some (.ok (.instant d c zone, rest))
      | none => some (.ok (.day d, rest))
  | none => (clock? cs).map fun (c, rest) => .ok (.clock c, rest)

/-- The characters of digits that satisfy `p` with single underscores between them, and the rest. -/
def grouped (p : Char → Bool) : List Char → List Char × List Char
  | c :: '_' :: d :: rest =>
    if p c then
      if p d then
        let (ds, rest) := grouped p (d :: rest)
        (c :: ds, rest)
      else ([c], '_' :: d :: rest)
    else ([], c :: '_' :: d :: rest)
  | c :: rest =>
    if p c then
      let (ds, rest) := grouped p rest
      (c :: ds, rest)
    else ([], c :: rest)
  | [] => ([], [])

/-- A whole number in a base other than ten, without its mark; none if there are no digits. -/
def basedInt? (base : Nat) (cs : List Char) : Option (Int × List Char) :=
  let isDigit (c : Char) : Bool := match Decimal.hexDigit? c with
    | some d => d < base
    | none => false
  let (ds, rest) := grouped isDigit cs
  if ds.isEmpty then none else some (Decimal.ofDigits base (ds.filterMap Decimal.hexDigit?), rest)

/-- The digits after a mark that at least one digit follows; none without such. -/
def afterMark (cs : List Char) : List Char × List Char := grouped Char.isDigit cs

/-- A decimal number without its sign. -/
def decimal (negative : Bool) (cs : List Char) : Option (Except Fault (Datum × List Char)) :=
  let (whole, rest) := match cs with
    | '0' :: rest => (['0'], rest)
    | _ => grouped Char.isDigit cs
  if whole.isEmpty then none
  else
    let (fraction, rest) := match rest with
      | '.' :: more =>
        let (ds, after) := afterMark more
        if ds.isEmpty then ([], rest) else (ds, after)
      | _ => ([], rest)
    let (exponent, rest) : Option Int × List Char := match rest with
      | e :: more =>
        if e == 'e' || e == 'E' then
          let (minus, digits) := Decimal.takeSign more
          let (ds, after) := afterMark digits
          let n : Int := Decimal.ofDigits 10 (ds.filterMap Decimal.digit?)
          if ds.isEmpty then (none, rest) else (some (if minus then -n else n), after)
        else (none, rest)
      | [] => (none, rest)
    let mantissa := Decimal.ofDigits 10 ((whole ++ fraction).filterMap Decimal.digit?)
    if fraction.isEmpty && exponent.isNone then
      if Decimal.longestNumeral < whole.length then some (.error (.longInteger whole.length))
      else some (.ok (.int (if negative then -mantissa else mantissa), rest))
    else
      let x := Decimal.scientific mantissa (exponent.getD 0 - fraction.length)
      some (.ok (.float (if negative then -x else x), rest))

/-- A number that starts here; none if none does. -/
def number? (cs : List Char) : Option (Except Fault (Datum × List Char)) :=
  let based (base : Nat) (rest : List Char) : Option (Except Fault (Datum × List Char)) :=
    match basedInt? base rest with
    | some (n, rest) => some (.ok (.int n, rest))
    | none => decimal false cs
  let special (negative : Bool) (rest : List Char) : Option (Except Fault (Datum × List Char)) :=
    let signed (x : Float) : Float := if negative then -x else x
    match rest with
    | 'i' :: 'n' :: 'f' :: rest => some (.ok (.float (signed (1.0 / 0.0)), rest))
    | 'n' :: 'a' :: 'n' :: rest => some (.ok (.float (0.0 / 0.0), rest))
    | _ => none
  match cs with
  | '0' :: 'x' :: rest => based 16 rest
  | '0' :: 'o' :: rest => based 8 rest
  | '0' :: 'b' :: rest => based 2 rest
  | _ =>
    let (negative, rest) := Decimal.takeSign cs
    (decimal negative rest).or (special negative rest)

/-! ## Values and tables -/

mutual
/-- The value under a name whose first part is in the table `fields`, with a change made to the
table it leads to. A table that is not there is made; of a list of tables the last one is taken, if
`lists` allows it. -/
def alter (lists : Bool) (change : Table Datum → Option (Table Datum)) :
    Key → Table Datum → Option (Table Datum)
  | [], fields => change fields
  | part :: parts, fields => do
    let old := (fields.get? part).getD (.table [])
    let new ← alterValue lists change parts old
    return fields.put part new

/-- A table, or a list whose last item is one, with a change made below it. -/
def alterValue (lists : Bool) (change : Table Datum → Option (Table Datum)) (parts : Key) :
    Datum → Option Datum
  | .table fields => (alter lists change parts fields).map .table
  | .list items =>
    if lists then
      match items.getLast? with
      | some (.table fields) =>
        (alter lists change parts fields).map fun new => .list (items.dropLast ++ [.table new])
      | _ => none
    else none
  | _ => none
end

/-- A table with a value under a name that is not in it yet. -/
def insertNew (name : String) (value : Datum) (fields : Table Datum) : Option (Table Datum) :=
  match fields.get? name with
  | some _ => none
  | none => some (fields.put name value)

def splitLast : Key → Key × String
  | [] => ([], "")
  | [part] => ([], part)
  | part :: parts => let (front, last) := splitLast parts; (part :: front, last)

def isNested : Datum → Bool
  | .list _ => true
  | .table _ => true
  | _ => false

/-- Whether one of some names is a beginning of a name. -/
def covers (names : List Key) (name : Key) : Bool := names.any (·.isPrefixOf name)

/-- How deeply values may be nested: a list counts two, and an inline table three. -/
def depthLimit : Nat := 975

/-- The items of a list up to its closing bracket, at most `fuel` of them; some were taken. -/
def items (item : List Char → Except Fault (Datum × List Char)) : Nat → List Datum → List Char →
    Except Fault (Datum × List Char)
  | 0, _, _ => .error .malformed
  | fuel + 1, taken, cs => do
    let (found, rest) ← item cs
    let taken := found :: taken
    match ← skipSpace (rest.length + 1) rest with
    | ']' :: rest => return (.list taken.reverse, rest)
    | ',' :: rest =>
      match ← skipSpace (rest.length + 1) rest with
      | ']' :: rest => return (.list taken.reverse, rest)
      | rest => items item fuel taken rest
    | _ => .error .malformed

/-- The fields of an inline table up to its closing brace, at most `fuel` of them; some were taken,
and the names in `frozen` cannot be added to. -/
def fields (item : List Char → Except Fault (Datum × List Char)) :
    Nat → List Key → Table Datum → List Char → Except Fault (Datum × List Char)
  | 0, _, _, _ => .error .malformed
  | fuel + 1, frozen, taken, cs => do
    let (name, rest) ← key cs
    let (found, rest) ← item (skipGap (← expectChar '=' rest))
    if covers frozen name then .error .malformed
    else
      let (front, last) := splitLast name
      match alter false (insertNew last found) front taken with
      | none => .error .malformed
      | some taken =>
        match skipGap rest with
        | '\x7d' :: rest => return (.table taken, rest)
        | ',' :: rest =>
          fields item fuel (if isNested found then name :: frozen else frozen) taken (skipGap rest)
        | _ => .error .malformed

def scalar (cs : List Char) : Except Fault (Datum × List Char) :=
  match cs with
  | '"' :: _ => (textValue cs).map fun (s, rest) => (.text s, rest)
  | '\'' :: _ => (textValue cs).map fun (s, rest) => (.text s, rest)
  | 't' :: 'r' :: 'u' :: 'e' :: rest => .ok (.bool true, rest)
  | 'f' :: 'a' :: 'l' :: 's' :: 'e' :: rest => .ok (.bool false, rest)
  | _ =>
    match moment? cs with
    | some step => step.map fun (m, rest) => (.moment m, rest)
    | none => (number? cs).getD (.error .malformed)

/-- The value that starts here, nested at most `depth` times. -/
def value : Nat → List Char → Except Fault (Datum × List Char)
  | depth, cs =>
    match cs with
    | '[' :: rest =>
      match depth with
      | depth + 2 => do
        match ← skipSpace (rest.length + 1) rest with
        | ']' :: rest => return (.list [], rest)
        | rest => items (value depth) (rest.length + 1) [] rest
      | _ => .error .nesting
    | '\x7b' :: rest =>
      match depth with
      | depth + 3 =>
        match skipGap rest with
        | '\x7d' :: rest => .ok (.table [], rest)
        | rest => fields (value depth) (rest.length + 1) [] [] rest
      | _ => .error .nesting
    | _ => scalar cs

/-! ## Documents -/

/-- A document that is being read: the values so far, the table that is open, the names
that no header may open again, those that the names of the open table add to them, and
those that cannot be added to. -/
structure Draft where
  data : Table Datum := []
  header : Key := []
  opened : List Key := []
  pending : List Key := []
  frozen : List Key := []

namespace Draft

/-- The names of the open table are closed. -/
def settle (d : Draft) : Draft := { d with opened := d.pending ++ d.opened, pending := [] }

def openTable (name : Key) (d : Draft) : Except Fault Draft :=
  if d.opened.contains name || covers d.frozen name then .error .malformed
  else match alter true some name d.data with
    | none => .error .malformed
    | some data => .ok { d with data := data, header := name, opened := name :: d.opened }

/-- A list of tables with one more, or a new one. -/
def withTable (last : String) (fields : Table Datum) : Option (Table Datum) :=
  match fields.get? last with
  | none => some (fields.put last (.list [.table []]))
  | some (.list items) => some (fields.put last (.list (items ++ [.table []])))
  | some _ => none

def openItem (name : Key) (d : Draft) : Except Fault Draft :=
  if covers d.frozen name then .error .malformed
  else
    let (front, last) := splitLast name
    match alter true (withTable last) front d.data with
    | none => .error .malformed
    | some data =>
      .ok { d with data := data, header := name
                   opened := name :: d.opened.filter (!name.isPrefixOf ·)
                   frozen := d.frozen.filter (!name.isPrefixOf ·) }

/-- The proper beginnings of a name, except the empty one. -/
def beginnings (name : Key) : List Key :=
  (List.range (name.length - 1)).map fun n => name.take (n + 1)

def assign (name : Key) (item : Datum) (d : Draft) : Except Fault Draft :=
  let (front, last) := splitLast name
  let between := (beginnings name).map (d.header ++ ·)
  if between.any d.opened.contains || covers d.frozen (d.header ++ front) then .error .malformed
  else match alter true (insertNew last item) (d.header ++ front) d.data with
    | none => .error .malformed
    | some data =>
      let full := d.header ++ name
      .ok { d with data := data, pending := between ++ d.pending
                   frozen := if isNested item then full :: d.frozen else d.frozen }

end Draft

def statement (d : Draft) (cs : List Char) : Except Fault (Draft × List Char) :=
  match cs with
  | '[' :: '[' :: rest => do
    let (name, rest) ← key (skipGap rest)
    let d ← d.settle.openItem name
    match rest with
    | ']' :: ']' :: rest => return (d, rest)
    | _ => .error .malformed
  | '[' :: rest => do
    let (name, rest) ← key (skipGap rest)
    let d ← d.settle.openTable name
    match rest with
    | ']' :: rest => return (d, rest)
    | _ => .error .malformed
  | '#' :: _ => .ok (d, cs)
  | _ => do
    let (name, rest) ← key cs
    let (item, rest) ← value depthLimit (skipGap (← expectChar '=' rest))
    return (← d.assign name item, rest)

/-- The statements of a document, one a line; `fuel` bounds their number. -/
def statements : Nat → Draft → List Char → Except Fault Draft
  | 0, d, _ => .ok d
  | fuel + 1, d, cs =>
    match skipGap cs with
    | [] => .ok d
    | '\n' :: rest => statements fuel d rest
    | cs => do
      let (d, rest) ← statement d cs
      match ← skipComment (skipGap rest) with
      | [] => return d
      | '\n' :: rest => statements fuel d rest
      | _ => .error .malformed

def parse (text : String) : Except Fault Datum := do
  let cs := text.toList
  let d ← statements (cs.length + 1) {} cs
  return .table d.data

end Synopsis.Toml
