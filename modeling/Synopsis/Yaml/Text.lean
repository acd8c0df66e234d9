import Synopsis.Text.Utf8
import Synopsis.Yaml.Place
/-!
# Texts in a document

A text is written plainly, between quotes, or as a block of lines. Line breaks inside a text are
folded: a single one is a space, and of several all but the first are kept.
-/

namespace Synopsis.Yaml

/-- Characters of names: letters and digits, hyphens and low lines. -/
def isNameChar (c : Char) : Bool := c.isAlphanum || c == '-' || c == '_'

/-- A folded line break: what is in its place, given the line breaks after it. -/
def folded (first : Char) (more : List Char) : List Char :=
  if first != '\n' then first :: more else if more.isEmpty then [' '] else more

/-! ## Quoted texts -/

def escaped? (c : Char) : Option Char :=
  [('0', '\x00'), ('a', '\x07'), ('b', '\x08'), ('t', '\t'), ('\t', '\t'), ('n', '\n'),
    ('v', '\x0b'), ('f', '\x0c'), ('r', '\r'), ('e', '\x1b'), (' ', ' '), ('"', '"'), ('\\', '\\'),
    ('/', '/'), ('N', '\u0085'), ('_', '\u00a0'), ('L', '\u2028'), ('P', '\u2029')].lookup c

def codeWidth? (c : Char) : Option Nat :=
  if c == 'x' then some 2 else if c == 'u' then some 4 else if c == 'U' then some 8 else none

def code? (width : Nat) (p : Place) : Option Nat :=
  let ds := (p.rest.take width).filterMap Decimal.hexDigit?
  if ds.length == width then some (Decimal.ofDigits 16 ds) else none

/-- The second half of a pair that is written as an escape here, and the place after it. -/
def secondHalf? (p : Place) : Option (Nat × Place) :=
  if p.peek == '\\' then do
    let width ← codeWidth? (p.at' 1)
    let n ← code? width (p.steps 2)
    if 0xDC00 ≤ n && n ≤ 0xDFFF then some (n, p.steps (2 + width)) else none
  else none

/-- The character with a number, `p` being the place after its escape. Two halves of a pair are one
character; half of one alone is none. -/
def character (n : Nat) (p : Place) : Except Fault (Char × Place) :=
  if 0x110000 ≤ n then .error (.noCharacter n)
  else if 0xD800 ≤ n && n ≤ 0xDBFF then
    match secondHalf? p with
    | some (low, p) => .ok (Char.ofNat (0x10000 + (n - 0xD800) * 0x400 + (low - 0xDC00)), p)
    | none => .ok ('\uFFFD', p)
  else if 0xDC00 ≤ n && n ≤ 0xDFFF then .ok ('\uFFFD', p)
  else .ok (Char.ofNat n, p)

/-- The line breaks inside a quoted text, `fuel` of them at most. -/
def quotedBreaks : Nat → Place → Except Fault (List Char × Place)
  | 0, p => .ok ([], p)
  | fuel + 1, p =>
    if p.atSeparator then .error .malformed
    else
      let p := p.skipWhile fun c => c == ' ' || c == '\t'
      match p.lineBreak? with
      | none => .ok ([], p)
      | some (c, next) => (quotedBreaks fuel next).map fun (cs, last) => (c :: cs, last)

/-- What a backslash stands for with what follows it, `p` being the place after the backslash. -/
def escape (p : Place) : Except Fault (List Char × Place) :=
  match escaped? p.peek with
  | some c => .ok ([c], p.step)
  | none =>
    match codeWidth? p.peek with
    | some width =>
      match code? width p.step with
      | some n => (character n (p.steps (1 + width))).map fun (c, p) => ([c], p)
      | none => .error .malformed
    | none =>
      match p.lineBreak? with
      | some (_, p) => quotedBreaks (p.left + 1) p
      | none => .error .malformed

/-- A quoted text up to its closing quote, `fuel` parts of it at most; `taken` is what was read, the
last character first. -/
def quotedRest (quote : Char) : Nat → List Char → Place → Except Fault (String × Place)
  | 0, _, _ => .error .malformed
  | fuel + 1, taken, p =>
    let c := p.peek
    if p.rest.isEmpty then .error .malformed
    else if c == quote then
      if quote == '\'' && p.at' 1 == '\'' then quotedRest quote fuel ('\'' :: taken) (p.steps 2)
      else .ok (String.ofList taken.reverse, p.step)
    else if quote == '"' && c == '\\' then
      match escape p.step with
      | .error e => .error e
      | .ok (cs, p) => quotedRest quote fuel (cs.reverse ++ taken) p
    else if isBlankStop c then
      let (blanks, next) := p.takeWhile fun c => c == ' ' || c == '\t'
      match next.lineBreak? with
      | none => quotedRest quote fuel (blanks.reverse ++ taken) next
      | some (first, next) =>
        match quotedBreaks (next.left + 1) next with
        | .error e => .error e
        | .ok (more, next) => quotedRest quote fuel ((folded first more).reverse ++ taken) next
    else quotedRest quote fuel (c :: taken) p.step

def quoted (p : Place) : Except Fault (String × Place) := quotedRest p.peek (p.left + 1) [] p.step

/-! ## Plain texts -/

def isFlowMark (c : Char) : Bool := [',', '[', ']', '\x7b', '\x7d'].contains c

/-- Whether a plain text ends before the next character. -/
def plainStops (inFlow : Bool) (p : Place) : Bool :=
  let c := p.peek
  isBlankStop c ||
    (c == ':' && (isBlankStop (p.at' 1) || (inFlow && isFlowMark (p.at' 1)))) ||
    (inFlow && (isFlowMark c || c == '?'))

/-- The characters of a plain text up to a blank, `fuel` of them at most. -/
def plainWord (inFlow : Bool) : Nat → Place → List Char × Place
  | 0, p => ([], p)
  | fuel + 1, p =>
    if plainStops inFlow p then ([], p)
    else
      let (cs, last) := plainWord inFlow fuel p.step
      (p.peek :: cs, last)

/-- The line breaks after a line of a plain text, `fuel` of them at most; none if a mark that
separates documents follows one. -/
def plainBreaks : Nat → Place → Option (List Char) × Place
  | 0, p => (some [], p)
  | fuel + 1, p =>
    let p := p.skipWhile (· == ' ')
    match p.lineBreak? with
    | none => (some [], p)
    | some (c, next) =>
      if next.atSeparator then (none, next)
      else
        let (cs, last) := plainBreaks fuel next
        (cs.map (c :: ·), last)

/-- What stands between two words of a plain text, whether a line ended, and the place after it.
Nothing stands there if the text is over. -/
def plainGap (p : Place) : List Char × Bool × Place :=
  let (spaces, p) := p.takeWhile (· == ' ')
  match p.lineBreak? with
  | none => (spaces, false, p)
  | some (first, next) =>
    if next.atSeparator then ([], true, next)
    else
      match plainBreaks (next.left + 1) next with
      | (some more, last) => (folded first more, true, last)
      | (none, last) => ([], true, last)

/-- The words of a plain text, `fuel` of them at most. `gap` is what stands before the next word and
`lines` tells whether a line ended there. -/
def plainWords (inFlow : Bool) (indent : Int) :
    Nat → List Char → List Char → Bool → Place → List Char × Bool × Place
  | 0, taken, _, lines, p => (taken, lines, p)
  | fuel + 1, taken, gap, lines, p =>
    if p.peek == '#' then (taken, lines, p)
    else
      let (word, p) := plainWord inFlow (p.left + 1) p
      if word.isEmpty then (taken, lines, p)
      else
        let taken := taken ++ gap ++ word
        let (gap, lines, p) := plainGap p
        if gap.isEmpty || p.peek == '#' || (!inFlow && (p.column : Int) < indent) then
          (taken, lines, p)
        else plainWords inFlow indent fuel taken gap lines p

/-- A plain text in a block that is indented by more than `indent`, and whether a
line ended after its last word. -/
def plain (inFlow : Bool) (indent : Int) (p : Place) : String × Bool × Place :=
  let (cs, lines, p) := plainWords inFlow (indent + 1) (p.left + 1) [] [] false p
  (String.ofList cs, lines, p)

/-! ## Blocks -/

/-- What is kept of the line breaks at the end of a block. -/
inductive Chomping where
  | strip | clip | keep
  deriving DecidableEq, Repr

/-- The marks after the sign of a block: what is kept at its end, and its indentation. -/
def blockMarks (p : Place) : Except Fault ((Chomping × Option Nat) × Place) :=
  let sign (p : Place) : Option Chomping :=
    if p.peek == '+' then some .keep else if p.peek == '-' then some .strip else none
  let digit (p : Place) : Option Nat := Decimal.digit? p.peek
  let (chomping, increment, p) : Chomping × Option Nat × Place :=
    match sign p with
    | some chomping =>
      match digit p.step with
      | some n => (chomping, some n, p.steps 2)
      | none => (chomping, none, p.step)
    | none =>
      match digit p with
      | some n =>
        match sign p.step with
        | some chomping => (chomping, some n, p.steps 2)
        | none => (.clip, some n, p.step)
      | none => (.clip, none, p)
  if increment == some 0 || !isSpaceStop p.peek then .error .malformed
  else .ok ((chomping, increment), p)

/-- The rest of a line that may hold a comment only. -/
def emptyLine (p : Place) : Except Fault Place :=
  let p := (p.skipWhile (· == ' ')).skipComment
  if isStop p.peek then .ok (((p.lineBreak?).map Prod.snd).getD p) else .error .malformed

/-- The line breaks before a block whose indentation is not given, the widest indentation among
them, and the place after them; `fuel` bounds the steps. -/
def leadingBreaks : Nat → Nat → Place → List Char × Nat × Place
  | 0, widest, p => ([], widest, p)
  | fuel + 1, widest, p =>
    if p.peek == ' ' then
      let next := p.step
      leadingBreaks fuel (max widest next.column) next
    else match p.lineBreak? with
      | none => ([], widest, p)
      | some (c, next) =>
        let (cs, widest, last) := leadingBreaks fuel widest next
        (c :: cs, widest, last)

def skipIndent (indent : Nat) : Nat → Place → Place
  | 0, p => p
  | fuel + 1, p => if p.column < indent && p.peek == ' ' then skipIndent indent fuel p.step else p

/-- The line breaks before the next line of a block. -/
def blockBreaks (indent : Nat) (p : Place) : List Char × Place :=
  Place.lineBreaks (fun p => skipIndent indent (p.left + 1) p) (p.left + 1) p

/-- The lines of a block, `fuel` of them at most: what was read, the last line break, the line
breaks after it, and the place after these. -/
def blockLines (folds : Bool) (indent : Nat) :
    Nat → List Char → List Char → Place → List Char × Option Char × List Char × Place
  | 0, taken, breaks, p => (taken, none, breaks, p)
  | fuel + 1, taken, breaks, p =>
    if p.column == indent && !p.rest.isEmpty then
      let leads (p : Place) : Bool := !(p.peek == ' ' || p.peek == '\t')
      let (line, next) := p.takeWhile (!isStop ·)
      let taken := taken ++ breaks ++ line
      let lineEnd := next.lineBreak?
      let (more, last) := blockBreaks indent ((lineEnd.map Prod.snd).getD next)
      let first := lineEnd.map Prod.fst
      if last.column == indent && !last.rest.isEmpty then
        let between :=
          if folds && first == some '\n' && leads p && leads last then
            if more.isEmpty then [' '] else []
          else first.toList
        blockLines folds indent fuel (taken ++ between) more last
      else (taken, first, more, last)
    else (taken, none, breaks, p)

/-- A block of lines after its sign, in a block that is indented by `outer`. -/
def block (folds : Bool) (outer : Int) (p : Place) : Except Fault (String × Place) :=
  match blockMarks p with
  | .error e => .error e
  | .ok ((chomping, increment), p) =>
    match emptyLine p with
    | .error e => .error e
    | .ok p =>
      let least := (max (outer + 1) 1).toNat
      let (breaks, indent, p) : List Char × Nat × Place :=
        match increment with
        | none =>
          let (breaks, widest, p) := leadingBreaks (p.left + 1) 0 p
          (breaks, max least widest, p)
        | some n =>
          let indent := least + n - 1
          let (breaks, p) := blockBreaks indent p
          (breaks, indent, p)
      let (taken, last, more, p) := blockLines folds indent (p.left + 1) [] breaks p
      let kept := match chomping with
        | .strip => []
        | .clip => last.toList
        | .keep => last.toList ++ more
      .ok (String.ofList (taken ++ kept), p)

/-! ## Names, tags and directives -/

def anchorName (p : Place) : Except Fault (String × Place) :=
  let (name, p) := p.takeWhile isNameChar
  let c := p.peek
  if name.isEmpty ||
    !(isBlankStop c || ['?', ':', ',', ']', '\x7d', '%', '@', '\x60'].contains c) then
    .error .malformed
  else .ok (String.ofList name, p)

def isUriChar (c : Char) : Bool :=
  c.isAlphanum || "-;/?:@&=+$,_.!~*'()[]%".toList.contains c

/-- The bytes that are written with percent signs here, `fuel` of them at most. -/
def uriBytes : Nat → Place → Except Fault (List UInt8 × Place)
  | 0, p => .ok ([], p)
  | fuel + 1, p =>
    if p.peek == '%' then
      match code? 2 p.step with
      | none => .error .malformed
      | some n => (uriBytes fuel (p.steps 3)).map fun (bs, last) => (n.toUInt8 :: bs, last)
    else .ok ([], p)

/-- The address in a tag, `fuel` parts of it at most. -/
def uriRest : Nat → List Char → Place → Except Fault (List Char × Place)
  | 0, taken, p => .ok (taken, p)
  | fuel + 1, taken, p =>
    if p.peek == '%' then
      match uriBytes (p.left + 1) p with
      | .error e => .error e
      | .ok (bytes, p) =>
        match Text.Utf8.decode bytes with
        | .error _ => .error .malformed
        | .ok text => uriRest fuel (taken ++ text.toList) p
    else if isUriChar p.peek then uriRest fuel (taken ++ [p.peek]) p.step
    else .ok (taken, p)

def uri (p : Place) : Except Fault (String × Place) :=
  match uriRest (p.left + 1) [] p with
  | .error e => .error e
  | .ok (cs, next) =>
      if next.index == p.index then .error .malformed else .ok (String.ofList cs, next)

/-- The handle of a tag: an exclamation mark, or a name between two. -/
def tagHandle (p : Place) : Except Fault (String × Place) :=
  if p.peek != '!' then .error .malformed
  else if p.at' 1 == ' ' then .ok ("!", p.step)
  else
    let (name, next) := p.step.takeWhile isNameChar
    if next.peek == '!' then .ok ("!" ++ String.ofList name ++ "!", next.step)
      else .error .malformed

/-- A tag: its handle, if it has one, and the rest of it. -/
def tag (p : Place) : Except Fault ((Option String × String) × Place) := do
  let (found, p) ← do
    if p.at' 1 == '<' then
      let (suffix, p) ← uri (p.steps 2)
      if p.peek == '>' then pure ((none, suffix), p.step) else throw Fault.malformed
    else if isBlankStop (p.at' 1) then pure ((none, "!"), p.step)
    else
      let word := p.step.rest.takeWhile (!isSpaceStop ·)
      if word.contains '!' then
        let (handle, p) ← tagHandle p
        let (suffix, p) ← uri p
        pure ((some handle, suffix), p)
      else
        let (suffix, p) ← uri p.step
        pure ((some "!", suffix), p)
  if isSpaceStop p.peek then return (found, p) else throw Fault.malformed

inductive Directive where
  | version (major : Nat)
  | handle (name address : String)
  | other
  deriving DecidableEq, Repr

def directiveNumber (p : Place) : Except Fault (Nat × Place) :=
  let (ds, p) := p.takeWhile Char.isDigit
  if ds.isEmpty then .error .malformed
  else if Decimal.longestNumeral < ds.length then .error (.longWhole ds.length)
  else .ok (Decimal.ofDigits 10 (ds.filterMap Decimal.digit?), p)

def directive (p : Place) : Except Fault (Directive × Place) := do
  let (name, p) := p.takeWhile isNameChar
  if name.isEmpty || !isSpaceStop p.peek then throw Fault.malformed
  let spaced (p : Place) : Place := p.skipWhile (· == ' ')
  let (found, p) ← match String.ofList name with
    | "YAML" => do
      let (major, p) ← directiveNumber (spaced p)
      if p.peek != '.' then throw Fault.malformed
      let (_, p) ← directiveNumber p.step
      if isSpaceStop p.peek then pure (Directive.version major, p) else throw Fault.malformed
    | "TAG" => do
      let (name, p) ← tagHandle (spaced p)
      if p.peek != ' ' then throw Fault.malformed
      let (address, p) ← uri (spaced p)
      if isSpaceStop p.peek then pure (Directive.handle name address, p) else throw Fault.malformed
    | _ => pure (Directive.other, p.skipWhile (!isStop ·))
  return (found, ← emptyLine p)

end Synopsis.Yaml
