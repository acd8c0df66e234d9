import Synopsis.Ecma.Literal
/-!
# The grammar: its rules and common parts

A dialect says whether types are written and whether markup is. The rules of the grammar refer to
each other through a `Grammar`, which reads any rule; the knot is tied elsewhere. Here are names,
property names, and the rule of missing semicolons: a statement may end without one at the end
of the text, before a closing brace, or at a line end unless the next line goes on with it.
-/

namespace Synopsis.Ecma

open Synopsis.Ecma.Parser

/-- What a file may hold besides the common language. -/
structure Dialect where
  types : Bool
  markup : Bool
  deriving DecidableEq, Repr

/-- The rules that refer to each other. -/
inductive Rule where
  | statement
  /-- A block of statements between braces. -/
  | block
  /-- One or more values with commas between them; `within` tells whether `in` is an operator. -/
  | values (within : Bool)
  /-- One value, without a comma. -/
  | value (within : Bool)
  /-- A value whose outermost arrow has no type for its result. -/
  | branch (within : Bool)
  /-- An operand of an operator. -/
  | operand (within : Bool)
  /-- A value that can be called or have members, without the operators around it. -/
  | callee (calls : Bool)
  /-- What a declaration binds: a name or a pattern. -/
  | target
  /-- A type. -/
  | type
  /-- An operand of a type operator. -/
  | typeOperand
  /-- A markup element, without the blanks after it. -/
  | element
  deriving DecidableEq, Repr

/-- A dialect, and how its rules are read. -/
structure Grammar where
  dialect : Dialect
  read : Rule → Parser Tree

def reservedWords : List String :=
  ["break", "case", "catch", "class", "const", "continue", "debugger", "default", "delete", "do",
    "else", "enum", "export", "extends", "false", "finally", "for", "function", "if", "import",
    "in", "instanceof", "new", "null", "return", "super", "switch", "this", "throw", "true", "try",
    "typeof", "var", "void", "while", "with"]

def isName (word : String) : Bool := word != "" && !reservedWords.contains word

/-- A word as a node of some kind. -/
def wordAs (kind : String) : Parser Tree := fun c =>
  let n := nameLength c
  if n == 0 then fail c else token kind true n c

def nameAs (kind : String) : Parser Tree := fun c =>
  if isName c.word then wordAs kind c else fail c

def identifier : Parser Tree := nameAs "identifier"

def privateName : Parser Tree := fun c =>
  match c.rest with
  | '#' :: _ =>
    let n := nameLength c.step
    if n == 0 then fail c else token "private_property_identifier" true (n + 1) c
  | _ => fail c

/-- Whether the statement may end here without a semicolon. -/
def mayEnd (c : Cursor) : Bool :=
  match c.rest with
  | [] => true
  | '\x7d' :: _ => true
  | ch :: rest =>
    c.newline &&
      if ch == '+' || ch == '-' then rest.head? == some ch
      else if ch == '!' then rest.head? != some '='
      else if ch == '.' then (rest.head?.map Char.isDigit).getD false
      else if ch == 'i' then !(["in", "instanceof"].contains c.word)
      else
        !(['\x60', ',', ';', '*', '%', '>', '<', '=', '[', '(', '?', '^', '|', '&', '/',
          ':'].contains ch)

def semicolon : Items := fun c =>
  if c.startsWith ";" then sym ";" c
  else if mayEnd c then .done [] c
  else fail c

def atPropertyName (c : Cursor) : Bool :=
  match c.head? with
  | none => false
  | some ch => ch == '"' || ch == '\'' || ch == '[' || ch == '#' || ch.isDigit ||
      nameLength c != 0 || (ch == '.' && Literal.numberLength c.rest != 0)

namespace Grammar

variable (g : Grammar)

def values : Parser Tree := g.read (.values true)

def value : Parser Tree := g.read (.value true)

def parenthesized : Parser Tree :=
  node "parenthesized_expression" (seq [sym "(", one g.values, sym ")"])

/-- A property name between brackets. -/
def computedName : Parser Tree :=
  node "computed_property_name" (seq [sym "[", one g.value, sym "]"])

/-- The name of a property; one that is a word is a node of kind `kind`. -/
def propertyName (kind : String) : Parser Tree := fun c =>
  match c.head? with
  | some '"' => Literal.string c
  | some '\'' => Literal.string c
  | some '[' => g.computedName c
  | some '#' => privateName c
  | _ => orElse (wordAs kind) Literal.number c

def initializer (within : Bool) : Items :=
  seq [op "=", fld "value" (g.read (.value within))]

def typeAnnotation : Parser Tree :=
  node "type_annotation" (seq [sym ":", one (g.read .type)])

/-- A type after a colon, where types are written and a colon comes next. -/
def maybeAnnotation : Items :=
  given (fun c => g.dialect.types && c.startsWith ":") (fld "type" g.typeAnnotation)

def typeArguments : Parser Tree :=
  node "type_arguments" (seq [sym "<",
    fun c => if c.startsWith ">" then fail c else commaList ">" false (one (g.read .type)) c,
    sym ">"])

def typeParameter : Parser Tree :=
  node "type_parameter" (seq
    [untilThat (fun c =>
        !(["const", "in", "out"].contains c.word && nameLength c.afterWord != 0 &&
          c.afterWord.word != "extends"))
        (fun c => kw c.word c),
      fld "name" (nameAs "type_identifier"),
      given (·.word == "extends")
        (fld "constraint" (node "constraint" (seq [kw "extends", one (g.read .type)]))),
      given (·.mark == "=")
        (fld "value" (node "default_type" (seq [op "=", one (g.read .type)])))])

def typeParameters : Parser Tree :=
  node "type_parameters" (seq [sym "<",
    fun c => if c.startsWith ">" then fail c else commaList ">" false (one g.typeParameter) c,
    sym ">"])

/-- The parameters of a generic declaration, where types are written and an angle bracket comes
next. -/
def maybeTypeParameters : Items :=
  given (fun c => g.dialect.types && c.startsWith "<") (fld "type_parameters" g.typeParameters)

end Grammar

end Synopsis.Ecma
