import Synopsis.Record
import Synopsis.Text.Lines
import Synopsis.Text.Word
/-!
# Outlines of Python texts

Every line is looked at by itself. It may be an import, the head of a function, the head of a
class or the definition of a constant, and the first of these that it is counts. Heads that go
over several lines, decorators and scopes are not followed.
-/

namespace Synopsis.Python

open Synopsis.Text

inductive Statement where
  | imports (source : String)
  | function (indented : Bool) (name : String) (params : List String)
  | class (name : String) (superclass : Option String)
  | constant (name : String)
  deriving DecidableEq, Repr

/-- Splits off the longest start whose characters satisfy `p`. -/
def takeRun (p : Char → Bool) (cs : List Char) : List Char × List Char :=
  (cs.takeWhile p, cs.dropWhile p)

def takeSome? (p : Char → Bool) (cs : List Char) : Option (List Char × List Char) :=
  let (run, rest) := takeRun p cs
  if run.isEmpty then none else some (run, rest)

/-- The text up to the first closing parenthesis, and what follows it. -/
def takeParens? (cs : List Char) : Option (List Char × List Char) :=
  let (inside, rest) := takeRun (· != ')') cs
  match rest with
  | _ :: after => some (inside, after)
  | [] => none

/-- What is imported, after the word itself: a blank and at least one more character. -/
def importTail? (cs : List Char) : Option (List Char) :=
  match dropPrefix? "import".toList cs with
  | some (c :: d :: rest) => if isBlank c then some (trim (d :: rest)) else none
  | _ => none

def importLine? (cs : List Char) : Option Statement :=
  match dropPrefix? "from".toList cs with
  | some rest => do
    let (_, rest) ← takeSome? isBlank rest
    let (source, rest) ← takeSome? (!isBlank ·) rest
    let (_, rest) ← takeSome? isBlank rest
    let _ ← importTail? rest
    return .imports (String.ofList source)
  | none => (importTail? cs).map fun tail => .imports (String.ofList tail)

/-- The pieces between commas, without blanks around them and without empty ones. -/
def listed (cs : List Char) : List String :=
  (((splitOn ',' cs).map trim).filter (!·.isEmpty)).map String.ofList

def functionLine? (cs : List Char) : Option Statement := do
  let (indent, rest) := takeRun isBlank cs
  let rest ← dropPrefix? "def".toList rest
  let (_, rest) ← takeSome? isBlank rest
  let (name, rest) ← takeSome? isWord rest
  let rest ← dropPrefix? ['('] (trimStart rest)
  let (params, _) ← takeParens? rest
  return .function (!indent.isEmpty) (String.ofList name) (listed params)

/-- The first of the classes in parentheses, if it is named. -/
def firstBase (cs : List Char) : Option String :=
  let first := trim ((splitOn ',' cs).headD [])
  if first.isEmpty then none else some (String.ofList first)

def classLine? (cs : List Char) : Option Statement := do
  let rest ← dropPrefix? "class".toList cs
  let (_, rest) ← takeSome? isBlank rest
  let (name, rest) ← takeSome? isWord rest
  match rest with
  | ':' :: _ => return .class (String.ofList name) none
  | '(' :: rest =>
    let (bases, rest) ← takeParens? rest
    let _ ← dropPrefix? [':'] rest
    return .class (String.ofList name) (firstBase bases)
  | _ => none

/-- Capital letters of the Latin alphabet and the underscore. -/
def isCapital (c : Char) : Bool := c.isUpper || c == '_'

/-- The definition of a constant, whose name is in capitals. -/
def constantLine? (cs : List Char) : Option Statement := do
  let (name, rest) := takeRun (fun c => isCapital c || c.isDigit) cs
  let first ← name.head?
  if !isCapital first then none
  let _ ← dropPrefix? ['='] (trimStart rest)
  return .constant (String.ofList name)

def statement? (line : List Char) : Option Statement :=
  (importLine? line).or ((functionLine? line).or ((classLine? line).or (constantLine? line)))

/-- Adds to the facts what line `number` says. -/
def record (number : Nat) (facts : Facts) : Option Statement → Facts
  | none => facts
  | some (.imports source) => { facts with imports := facts.imports ++ [⟨source, number, []⟩] }
  | some (.function indented name params) =>
    let f : FunctionRecord :=
      { name := name, params := params, line := number, isMethod := indented }
    { facts with functions := facts.functions ++ [f] }
  | some (.class name superclass) =>
    let c : ClassRecord := { name := name, line := number, superclass := superclass }
    { facts with classes := facts.classes ++ [c] }
  | some (.constant name) =>
    { facts with «variables» := facts.«variables» ++ [⟨name, number, some "constant"⟩] }

/-- The facts of lines, the first of which has the number `number`. -/
def factsFrom (number : Nat) (facts : Facts) : List (List Char) → Facts
  | [] => facts
  | line :: lines =>
    factsFrom (number + 1) (record number facts (statement? (dropTrailing '\r' line))) lines

def facts (text : String) : Facts := factsFrom 1 {} (splitOn '\n' text.toList)

end Synopsis.Python
