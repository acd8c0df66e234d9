import Synopsis.Ecma.Grammar.Class
import Synopsis.Ecma.Grammar.Markup
/-!
# Values

Literals, members and calls, operators, assignments and arrow functions. A chain of operands and
operators is read from left to right and folded by the strength of the operators; equal ones bind
to the left, apart from the power operator.

A table literal may hold `name = value`, since it may turn out to be a pattern; a text in which one
is left is refused in the end.
-/

namespace Synopsis.Ecma

open Synopsis.Ecma.Parser

/-- How strongly the operators between two operands bind. -/
def operatorLevels : List (String × Nat) :=
  [("??", 1), ("||", 2), ("&&", 3), ("|", 4), ("^", 5), ("&", 6), ("==", 7), ("!=", 7), ("===", 7),
    ("!==", 7), ("<", 8), (">", 8), ("<=", 8), (">=", 8), ("instanceof", 8), ("in", 8), ("<<", 9),
    (">>", 9), (">>>", 9), ("+", 10), ("-", 10), ("*", 11), ("/", 11), ("%", 11), ("**", 12)]

/-- The level of the power operator, which binds to the right. -/
def powerLevel : Nat := 12

/-- The operator between operands that comes next; `within` tells whether `in` is one. -/
def operatorAt (within : Bool) (c : Cursor) : Option (String × Nat) :=
  let text := if nameLength c != 0 then c.word else c.mark
  if text == "in" && !within then none else operatorLevels.find? (·.1 == text)

/-- Marks of assignments that also compute. -/
def assignmentMarks : List String :=
  ["+=", "-=", "*=", "/=", "%=", "^=", "&=", "|=", ">>=", ">>>=", "<<=", "**=", "&&=", "||=", "??="]

/-- A left operand that waits for its right one, with the operator and its level. -/
structure Pending where
  left : Tree
  operator : Tree
  level : Nat

namespace Pending

def close (p : Pending) (right : Tree) : Tree :=
  .node { kind := "binary_expression", span := { p.left.span with stop := right.span.stop } }
    [p.left.inField "left", p.operator, right.inField "right"]

/-- Closes the operators that bind more strongly than the next one. -/
def reduce (level : Nat) : List Pending → Tree → List Pending × Tree
  | [], right => ([], right)
  | p :: ps, right =>
    if level < p.level || (level == p.level && level != powerLevel) then
      reduce level ps (p.close right)
    else (p :: ps, right)

def closeAll (ps : List Pending) (right : Tree) : Tree := (reduce 0 ps right).2

end Pending

def atValue (c : Cursor) : Bool :=
  match c.head? with
  | none => false
  | some ch =>
    if nameLength c != 0 then c.word != "in" && c.word != "instanceof"
    else ch.isDigit || ['(', '[', '\x7b', '"', '\'', '\x60', '/', '<', '+', '-', '!', '~', '@', '#',
      '.', '\\'].contains ch

namespace Grammar

variable (g : Grammar)

def item : Parser Tree := fun c =>
  if c.startsWith "..." then node "spread_element" (seq [sym "...", one g.value]) c else g.value c

def array : Parser Tree := node "array" (seq [sym "[", commaList "]" true (one g.item), sym "]"])

def arguments : Parser Tree :=
  node "arguments" (seq [sym "(", commaList ")" true (one g.item), sym ")"])

def template : Parser Tree :=
  Literal.template "template_string" "template_substitution" (one g.values)

def property : Parser Tree := fun c =>
  if c.startsWith "..." then g.item c
  else match methodWords c with
    | .fail o r k => .fail o r k
    | .done words next =>
      match g.propertyName "property_identifier" next with
      | .fail o r k => .fail o r k
      | .done name after =>
        if g.atParameters after then
          match seq [g.callSignature, g.body] after with
          | .fail o r k => .fail o r k
          | .done more after =>
            .done (.node { kind := "method_definition", span := c.spanTo after.stop }
              (words ++ name.inField "name" :: more)) after
        else if after.startsWith ":" then
          nodeFrom "pair" (name.inField "key") (seq [sym ":", fld "value" g.value]) after
        else match nameAs "shorthand_property_identifier" next with
          | .fail o r k => .fail o r k
          | .done short after =>
            if after.mark == "=" then
              nodeFrom "cover_initializer"
                ((short.ofKind "shorthand_property_identifier_pattern").inField "left")
                (seq [op "=", fld "right" g.value]) after
            else .done short after

def object : Parser Tree :=
  node "object" (seq [sym "\x7b", commaList "\x7d" true (one g.property), sym "\x7d"])

/-- A call of an import, or what is known of the module. -/
def importValue : Parser Tree := fun c =>
  let next := c.afterWord
  if next.mark == "." then
    node "meta_property" (seq [kw "import", sym ".", kw "meta"]) c
  else
    node "call_expression" (seq
      [fld "function" (node "import" (fun c => .done [] c.afterWord)),
        fld "arguments" g.arguments]) c

/-- A new object, or the target of `new`. -/
def newValue : Parser Tree := fun c =>
  if c.afterWord.mark == "." then
    node "meta_property" (seq [kw "new", sym ".", kw "target"]) c
  else
    node "new_expression" (seq
      [kw "new", fld "constructor" (g.read (.callee false)),
        given (fun _ => g.dialect.types) (fun c =>
          if c.startsWith "<" then maybe (fld "type_arguments" g.typeArguments) c
          else .done [] c),
        given (·.startsWith "(") (fld "arguments" g.arguments)]) c

def primary : Parser Tree := fun c =>
  match c.head? with
  | none => fail c
  | some '(' => g.parenthesized c
  | some '[' => g.array c
  | some '\x7b' => g.object c
  | some '"' => Literal.string c
  | some '\'' => Literal.string c
  | some '\x60' => g.template c
  | some '/' => Literal.regex c
  | some '@' => g.classValue c
  | some '<' => if g.dialect.markup then Literal.thenBlanks (g.read .element) c else fail c
  | some ch =>
    if ch.isDigit || ch == '.' then Literal.number c
    else match c.word with
      | "this" => wordAs "this" c
      | "super" => wordAs "super" c
      | "true" => wordAs "true" c
      | "false" => wordAs "false" c
      | "null" => wordAs "null" c
      | "undefined" => wordAs "undefined" c
      | "class" => g.classValue c
      | "import" => g.importValue c
      | "new" => g.newValue c
      | _ => if atFunction c then g.functionValue c else identifier c

def memberProperty : Items := fun c =>
  if c.startsWith "#" then fld "property" privateName c
  else fld "property" (wordAs "property_identifier") c

/-- What follows the mark of an optional member, index or call. -/
def optionalStep (t : Tree) : Parser Tree := fun c =>
  let mark : Items := fld "optional_chain" (node "optional_chain" (sym "?."))
  let next := (c.steps 2).toNextToken
  if next.startsWith "[" then
    nodeFrom "subscript_expression" (t.inField "object")
      (seq [mark, sym "[", fld "index" g.values, sym "]"]) c
  else if next.startsWith "(" || (g.dialect.types && next.startsWith "<") then
    nodeFrom "call_expression" (t.inField "function")
      (seq [mark, g.maybeTypeArguments, fld "arguments" g.arguments]) c
  else nodeFrom "member_expression" (t.inField "object") (seq [mark, memberProperty]) c

/-- Type arguments after a value, with the call that they belong to, if they are such. -/
def typedStep (t : Tree) : Parser (Option Tree) := fun c =>
  match fld "type_arguments" g.typeArguments c with
  | .fail _ _ _ => .done none c
  | .done types next =>
    let some' (p : Parser Tree) : Parser (Option Tree) := do return some (← p)
    if next.startsWith "(" then
      some' (nodeFrom "call_expression" (t.inField "function")
        (seq [fun _ => .done types next, fld "arguments" g.arguments])) c
    else if next.startsWith "\x60" then
      some' (nodeFrom "call_expression" (t.inField "function")
        (seq [fun _ => .done types next, fld "arguments" g.template])) c
    else if atValue next && !next.newline && next.word != "as" && next.word != "satisfies" then
      .done none c
    else some' (nodeFrom "instantiation_expression" t (fun _ => .done types next)) c

/-- One member, index, call or template after a value, if there is one. -/
def postfixStep (calls : Bool) (t : Tree) : Parser (Option Tree) := fun c =>
  let some' (p : Parser Tree) : Parser (Option Tree) := do return some (← p)
  match c.head? with
  | some '.' =>
    if c.mark == "." && !mayEnd c then
      some' (nodeFrom "member_expression" (t.inField "object") (seq [sym ".", memberProperty])) c
    else .done none c
  | some '?' => if c.mark == "?." then some' (g.optionalStep t) c else .done none c
  | some '[' =>
    some' (nodeFrom "subscript_expression" (t.inField "object")
      (seq [sym "[", fld "index" g.values, sym "]"])) c
  | some '(' =>
    if calls then
      some' (nodeFrom "call_expression" (t.inField "function") (fld "arguments" g.arguments)) c
    else .done none c
  | some '\x60' =>
    some' (nodeFrom "call_expression" (t.inField "function") (fld "arguments" g.template)) c
  | some '!' =>
    if g.dialect.types && c.mark == "!" && !c.newline then
      some' (nodeFrom "non_null_expression" t (sym "!")) c
    else .done none c
  | some '<' =>
    if g.dialect.types && calls && c.mark != "<=" then g.typedStep t c else .done none c
  | _ => .done none c

def postfixes (calls : Bool) (t : Tree) : Parser Tree := growing (g.postfixStep calls) t

def callee (calls : Bool) : Parser Tree := fun c =>
  match g.primary c with
  | .fail o r k => .fail o r k
  | .done t next => g.postfixes calls t next

/-- An operand with the assignment or the step up or down that it is the target of. -/
def assigned (within : Bool) : Parser Tree := fun c =>
  match g.read (.callee true) c with
  | .fail o r k => .fail o r k
  | .done t next =>
    let mark := next.mark
    if (mark == "++" || mark == "--") && !next.newline then
      nodeFrom "update_expression" (t.inField "argument") (fldAll "operator" (sym mark)) next
    else if mark == "=" then
      match t.toTarget? with
      | none => .done t next
      | some left =>
        nodeFrom "assignment_expression" (left.inField "left")
          (seq [op "=", fld "right" (g.read (.value within))]) next
    else if assignmentMarks.contains mark then
      nodeFrom "augmented_assignment_expression" (t.inField "left")
        (seq [fldAll "operator" (op mark), fld "right" (g.read (.value within))]) next
    else .done t next

/-- An arrow function from the place `start`, after its head. One whose body is a block may have
members and be called. -/
def arrow (start : Cursor) (head : List Tree) (within : Bool) : Parser Tree := fun c =>
  match g.arrowBody within c with
  | .fail o r k => .fail o r k
  | .done body next =>
    let t := Tree.node { kind := "arrow_function", span := start.spanTo next.stop } (head ++ body)
    if c.startsWith "\x7b" then g.postfixes true t next else .done t next

def yieldValue (within : Bool) : Parser Tree :=
  node "yield_expression" (seq
    [kw "yield", fun c =>
      if c.startsWith "*" then seq [sym "*", one (g.read (.value within))] c
      else if mayEnd c || !atValue c then .done [] c
      else one (g.read (.value within)) c])

def prefixed (kind : String) (mark : Items) (within : Bool) : Parser Tree :=
  node kind (seq [fldAll "operator" mark, fld "argument" (g.read (.operand within))])

def typeAssertion (within : Bool) : Parser Tree :=
  node "type_assertion" (seq [one g.typeArguments, one (g.read (.operand within))])

/-- An operand that is no arrow function. -/
def plainOperand (within : Bool) : Parser Tree := fun c =>
  if c.word != "" then
    match c.word with
    | "yield" => g.yieldValue within c
    | "await" =>
      orElse (node "await_expression" (seq [kw "await", one (g.read (.operand within))]))
        (g.assigned within) c
    | "typeof" => g.prefixed "unary_expression" (kw "typeof") within c
    | "void" => g.prefixed "unary_expression" (kw "void") within c
    | "delete" => g.prefixed "unary_expression" (kw "delete") within c
    | _ => g.assigned within c
  else if c.startsWith "#" then
    match privateName c with
    | .fail o r k => .fail o r k
    | .done t next => if next.word == "in" then .done t next else fail c
  else if c.startsWith "<" && g.dialect.types && !g.dialect.markup then g.typeAssertion within c
  else
    let mark := c.mark
    if ["!", "~", "-", "+"].contains mark then g.prefixed "unary_expression" (sym mark) within c
    else if mark == "++" || mark == "--" then
      g.prefixed "update_expression" (sym mark) within c
    else g.assigned within c

/-- An operand of an operator; `typed` tells whether an arrow function may give the type of its
result. -/
def operandForm (typed within : Bool) : Parser Tree := fun c =>
  let c := c.pastPageComments
  match g.arrowHead typed c with
  | .done head next => g.arrow c head within next
  | .fail _ _ _ => g.plainOperand within c

/-- One more operator with its right operand, or a type that the value is taken as. -/
def chainStep (within : Bool) (chain : List Pending × Tree) :
    Parser (Option (List Pending × Tree)) := fun c =>
  let isCast := g.dialect.types && (c.word == "as" || c.word == "satisfies") && !c.newline
  if isCast then
    let kind := if c.word == "as" then "as_expression" else "satisfies_expression"
    let target : Items := fun c =>
      if c.word == "const" then kw "const" c else one (g.read .type) c
    match nodeFrom kind (Pending.closeAll chain.1 chain.2) (seq [kw c.word, target]) c with
    | .fail o r k => .fail o r k
    | .done t next => .done (some ([], t)) next
  else match operatorAt within c with
    | none => .done none c
    | some (text, level) =>
      match token text false text.length c with
      | .fail o r k => .fail o r k
      | .done mark next =>
        match g.read (.operand within) next with
        | .fail o r k => .fail o r k
        | .done right next =>
          let (pending, left) := Pending.reduce level chain.1 chain.2
          .done (some (⟨left, mark.inField "operator", level⟩ :: pending, right)) next

def chained (typed within : Bool) : Parser Tree := fun c =>
  match g.operandForm typed within c with
  | .fail o r k => .fail o r k
  | .done t next =>
    match growing (g.chainStep within) ([], t) next with
    | .fail o r k => .fail o r k
    | .done (pending, right) next => .done (Pending.closeAll pending right) next

/-- The first branch of a choice and the colon after it. Where the colon could belong to an arrow
function, both readings are tried. -/
def firstBranch : Items :=
  let whole : Items := seq [fld "consequence" g.value, sym ":"]
  if g.dialect.types then
    orElse whole (seq [fld "consequence" (g.read (.branch true)), sym ":"])
  else whole

def valueForm (typed within : Bool) : Parser Tree := fun c =>
  match g.chained typed within c with
  | .fail o r k => .fail o r k
  | .done t next =>
    if next.mark == "?" then
      nodeFrom "ternary_expression" (t.inField "condition")
        (seq [sym "?", g.firstBranch, fld "alternative" (g.read (.value within))]) next
    else .done t next

def valuesForm (within : Bool) : Parser Tree := fun c =>
  match g.read (.value within) c with
  | .fail o r k => .fail o r k
  | .done t next =>
    if next.startsWith "," then
      nodeFrom "sequence_expression" t
        (seq [sym ",", commaSome (one (g.read (.value within)))]) next
    else .done t next

end Grammar

end Synopsis.Ecma
