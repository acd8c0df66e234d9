import Synopsis.Ecma.Grammar.Types
/-!
# Functions and methods

Function declarations and values, arrow functions, and the methods of table literals and classes.
A word such as `get` or `static` stands before the name of a member if a name follows it; otherwise
it is the name.
-/

namespace Synopsis.Ecma

open Synopsis.Ecma.Parser

/-- Whether the word that comes next stands before the name of a member, which follows it. -/
def leadsName (word : String) (c : Cursor) : Bool :=
  c.word == word &&
    let next := c.afterWord
    atPropertyName next && !mayEnd next

/-- Whether the word that comes next stands before the name of a member or the mark of a
generator. -/
def leadsMember (word : String) (c : Cursor) : Bool :=
  leadsName word c || (c.word == word && c.afterWord.startsWith "*")

def atFunction (c : Cursor) : Bool :=
  c.word == "function" ||
    (c.word == "async" && !c.afterWord.newline && c.afterWord.word == "function")

def afterFunction (c : Cursor) : Cursor :=
  let c := if c.word == "async" then c.afterWord.afterWord else c.afterWord
  if c.startsWith "*" then c.step.toNextToken else c

def functionWords : Items :=
  seq [given (·.word == "async") (kw "async"), kw "function", given (·.startsWith "*") (sym "*")]

/-- Whether some trees hold the mark of a generator. -/
def hasStar (ts : List Tree) : Bool := ts.any (·.kind == "*")

namespace Grammar

variable (g : Grammar)

def body : Items := fld "body" (g.read .block)

/-- A function declaration. Where types are written, one without a body is a signature. -/
def functionDeclaration : Parser Tree := fun c =>
  match seq [functionWords, fld "name" identifier, g.callSignature] c with
  | .fail o r k => .fail o r k
  | .done first next =>
    let signature := g.dialect.types && !next.startsWith "\x7b"
    let kind :=
      if signature then "function_signature"
      else if hasStar first then "generator_function_declaration"
      else "function_declaration"
    match (if signature then typeSemicolon else g.body) next with
    | .fail o r k => .fail o r k
    | .done more next =>
        .done (.node { kind := kind, span := c.spanTo next.stop } (first ++ more)) next

def functionValue : Parser Tree := fun c =>
  let children := seq
    [functionWords, given (fun c => isName c.word) (fld "name" identifier), g.callSignature, g.body]
  match children c with
  | .fail o r k => .fail o r k
  | .done ts next =>
    let kind := if hasStar ts then "generator_function" else "function_expression"
    .done (.node { kind := kind, span := c.spanTo next.stop } ts) next

/-- What stands before the body of an arrow function; `typed` tells whether the type of the result
may be given. -/
def arrowHead (typed : Bool) : Items := fun c =>
  let isAsync := c.word == "async" && !c.afterWord.newline && c.afterWord.mark != "=>"
  let start := if isAsync then c.afterWord else c
  if isName start.word then
    if start.afterWord.mark == "=>" then
      seq [given (fun _ => isAsync) (kw "async"), fld "parameter" identifier, op "=>"] c
    else fail c
  else if start.startsWith "(" || (g.dialect.types && start.startsWith "<") then
    seq [given (fun _ => isAsync) (kw "async"),
      if typed then g.callSignature
      else seq [g.maybeTypeParameters, fld "parameters" g.parameters], op "=>"] c
  else fail c

def arrowBody (within : Bool) : Items :=
  fld "body" fun c => if c.startsWith "\x7b" then g.read .block c else g.read (.value within) c

def methodWords : Items :=
  seq
    [given (leadsMember "static" ·) (kw "static"), given (leadsMember "async" ·) (kw "async"),
      given (leadsName "get" ·) (kw "get"), given (leadsName "set" ·) (kw "set"),
      given (·.startsWith "*") (sym "*")]

def atParameters (c : Cursor) : Bool :=
  c.startsWith "(" || (g.dialect.types && c.startsWith "<")

end Grammar

end Synopsis.Ecma
