import Synopsis.Ecma.Grammar.Expression
/-!
# Statements and declarations

A word that is a name elsewhere, such as `let`, `type` or `namespace`, begins a declaration only if
what it declares follows on the line.
-/

namespace Synopsis.Ecma

open Synopsis.Ecma.Parser

/-- Whether the declaration that a word begins would follow it: a name on the line. -/
def declaresName (word : String) (c : Cursor) : Bool :=
  c.word == word && !c.afterWord.newline && isName c.afterWord.word &&
    !(["instanceof", "in"].contains c.afterWord.word)

/-- Whether `let` begins a declaration. -/
def atLet (c : Cursor) : Bool :=
  c.word == "let" &&
    let next := c.afterWord
    !mayEnd next && (isName next.word || next.startsWith "[" || next.startsWith "\x7b")

def atUsing (c : Cursor) : Bool :=
  let c := if c.word == "await" then c.afterWord else c
  declaresName "using" c && c.afterWord.word != "of" && c.afterWord.afterWord.mark == "="

def atLabel (c : Cursor) : Bool := isName c.word && c.afterWord.mark == ":"

/-- Whether a brace opens what could be a table literal. -/
def atTable (c : Cursor) : Bool :=
  c.startsWith "\x7b" &&
    let inside := c.step.toNextToken
    inside.startsWith "..." || inside.startsWith "[" || inside.startsWith "," ||
      (inside.startsWith "\"" || inside.startsWith "'" ||
        (atPropertyName inside && !(["if", "for", "while", "switch", "with", "catch", "return",
          "new", "function", "class", "throw", "super", "import"].contains inside.word)))

namespace Grammar

variable (g : Grammar)

def statement : Parser Tree := g.read .statement

/-- The statement that another one governs. -/
def governed (field : String) : Items := fld field g.statement

def condition (field : String) : Items := fld field g.parenthesized

/-- A name or a pattern that a declaration binds, perhaps with a type. -/
def declared : Items :=
  seq [fld "name" g.target,
    given (fun c => g.dialect.types && c.mark == "!") (sym "!"), g.maybeAnnotation]

def declarator (within : Bool) : Parser Tree :=
  node "variable_declarator" (seq [g.declared, given (·.mark == "=") (g.initializer within)])

def declarators (kind : String) (words : Items) (within : Bool) : Parser Tree :=
  node kind (seq [words, commaSome (one (g.declarator within)), semicolon])

def atVariables (c : Cursor) : Bool :=
  c.word == "var" || (c.word == "const" && !(g.dialect.types && c.afterWord.word == "enum")) ||
    atLet c || atUsing c

def variableDeclaration (within : Bool) : Parser Tree := fun c =>
  match c.word with
  | "var" => g.declarators "variable_declaration" (kw "var") within c
  | "await" =>
    g.declarators "using_declaration" (fldAll "kind" (seq [kw "await", kw "using"])) within c
  | "using" => g.declarators "using_declaration" (fldAll "kind" (kw "using")) within c
  | w => g.declarators "lexical_declaration" (fldAll "kind" (kw w)) within c

/-- The names of a module in a declaration: a text, or names with points between them. -/
def moduleName : Parser Tree := fun c =>
  match c.head? with
  | some '"' => Literal.string c
  | some '\'' => Literal.string c
  | _ =>
    match identifier c with
    | .fail o r k => .fail o r k
    | .done t next =>
      growing (fun (t : Tree) c =>
        if c.mark == "." then
          (do
            let t ← nodeFrom "nested_identifier" (t.inField "object")
              (seq [sym ".", fld "property" (wordAs "property_identifier")])
            return some t) c
        else .done none c) t next

def moduleDeclaration : Parser Tree := fun c =>
  let kind := if c.word == "namespace" then "internal_module" else "module"
  node kind (seq
    [kw c.word, fld "name" moduleName,
      given (·.startsWith "\x7b") (fld "body" (g.read .block))]) c

def atModule (c : Cursor) : Bool :=
  declaresName "namespace" c || declaresName "module" c ||
    ((c.word == "module" || c.word == "namespace") && !c.afterWord.newline &&
      (c.afterWord.startsWith "\"" || c.afterWord.startsWith "'"))

def typeAlias : Parser Tree :=
  node "type_alias_declaration" (seq
    [kw "type", fld "name" (nameAs "type_identifier"), g.maybeTypeParameters, op "=",
      fld "value" g.type, typeSemicolon])

def atTypeAlias (c : Cursor) : Bool :=
  declaresName "type" c &&
    let next := c.afterWord.afterWord
    next.mark == "=" || next.startsWith "<"

def interfaceDeclaration : Parser Tree :=
  node "interface_declaration" (seq
    [kw "interface", fld "name" (nameAs "type_identifier"), g.maybeTypeParameters,
      given (·.word == "extends")
        (one (node "extends_type_clause" (seq [kw "extends", commaSome (fld "type" g.type)]))),
      fld "body" (g.objectType "interface_body")])

def enumMember : Items := fun c =>
  match g.propertyName "property_identifier" c with
  | .fail o r k => .fail o r k
  | .done t next =>
    let named := t.inField "name"
    if next.mark == "=" then one (nodeFrom "enum_assignment" named (g.initializer true)) next
    else .done [named] next

def enumDeclaration : Parser Tree :=
  node "enum_declaration" (seq
    [given (·.word == "const") (kw "const"), kw "enum", fld "name" identifier,
      fld "body" (node "enum_body" (seq
        [sym "\x7b", commaList "\x7d" false g.enumMember, sym "\x7d"]))])

def atEnum (c : Cursor) : Bool :=
  c.word == "enum" || (c.word == "const" && c.afterWord.word == "enum")

/-- Whether a declaration comes next that is not of variables. -/
def atTypedDeclaration (c : Cursor) : Bool :=
  g.dialect.types &&
    (atModule c || atTypeAlias c || declaresName "interface" c || atEnum c || g.atAbstractClass c)

def typedDeclaration : Parser Tree := fun c =>
  if atModule c then g.moduleDeclaration c
  else if atTypeAlias c then g.typeAlias c
  else if c.word == "interface" then g.interfaceDeclaration c
  else if atEnum c then g.enumDeclaration c
  else g.classDeclaration [] c c

def atNamedFunction (c : Cursor) : Bool := atFunction c && isName (afterFunction c).word

def atNamedClass (c : Cursor) : Bool :=
  g.atAbstractClass c || (c.word == "class" && isName c.afterWord.word)

def atImportAlias (c : Cursor) : Bool :=
  g.dialect.types && c.word == "import" && isName c.afterWord.word &&
    c.afterWord.afterWord.mark == "="

def importAlias : Parser Tree :=
  node "import_alias" (seq [kw "import", one identifier, op "=", one moduleName, typeSemicolon])

/-- Whether a declaration comes next that may be exported. -/
def atDeclaration (c : Cursor) : Bool :=
  g.atVariables c || atNamedFunction c || g.atNamedClass c || g.atTypedDeclaration c ||
    g.atImportAlias c || (g.dialect.types && declaresAmbient c)
where
  /-- Whether a declaration without a body comes next. -/
  declaresAmbient (c : Cursor) : Bool :=
    c.word == "declare" && !c.afterWord.newline &&
      ["var", "let", "const", "function", "async", "class", "abstract", "enum", "interface", "type",
        "namespace", "module", "global", "import"].contains c.afterWord.word

def ownDeclaration : Parser Tree := fun c =>
  if g.atVariables c then g.variableDeclaration true c
  else if atFunction c then g.functionDeclaration c
  else if c.word == "class" then g.classDeclaration [] c c
  else if g.atTypedDeclaration c then g.typedDeclaration c
  else if g.atImportAlias c then importAlias c
  else fail c

def ambientDeclaration : Parser Tree :=
  node "ambient_declaration" (seq
    [kw "declare", fun c =>
      if c.word == "global" then seq [kw "global", one (g.read .block)] c
      else one g.ownDeclaration c])

def declaration : Parser Tree := fun c =>
  if c.word == "declare" then g.ambientDeclaration c else g.ownDeclaration c

def valueStatement : Parser Tree :=
  node "expression_statement" (seq [one g.values, semicolon])

/-- A block, or a table literal as a statement. -/
def blockStatement : Parser Tree := fun c =>
  if atTable c then orElse (g.read .block) g.valueStatement c else g.read .block c

def ifStatement : Parser Tree :=
  node "if_statement" (seq
    [kw "if", g.condition "condition", g.governed "consequence",
      given (·.word == "else")
        (fld "alternative" (node "else_clause" (seq [kw "else", one g.statement])))])

/-- What runs over the members of a value: the target, and the value. -/
def memberLoopHead : Items :=
  let bound (words : Items) : Items :=
    seq [words, fld "left" g.target, g.maybeAnnotation]
  let left : Items := fun c =>
    if c.word == "var" then
      seq [bound (fldAll "kind" (kw "var")), given (·.mark == "=") (g.initializer false)] c
    else if c.word == "const" || atLet c || (c.word == "using" && declaresName "using" c) then
      bound (fldAll "kind" (kw c.word)) c
    else
      match g.read (.callee true) c with
      | .fail o r k => .fail o r k
      | .done t next =>
        match t.toTarget? with
        | some t => .done [t.inField "left"] next
        | none => fail next
  seq
    [given (·.word == "await") (kw "await"), sym "(", left,
      fldAll "operator" (fun c => if c.word == "in" then kw "in" c else kw "of" c),
      fld "right" g.values, sym ")"]

def loopStart : Items := fun c =>
  if c.startsWith ";" then fld "initializer" (node "empty_statement" (sym ";")) c
  else if g.atVariables c then fld "initializer" (g.variableDeclaration false) c
  else seq [fld "initializer" (g.read (.values false)), sym ";"] c

/-- What counts and bounds a loop. -/
def countLoopHead : Items :=
  seq
    [sym "(", g.loopStart,
      fun c =>
        if c.startsWith ";" then fld "condition" (node "empty_statement" (sym ";")) c
        else seq [fld "condition" g.values, sym ";"] c,
      given (!·.startsWith ")") (fld "increment" g.values), sym ")"]

def forStatement : Parser Tree := fun c =>
  match seq [kw "for", orElse g.memberLoopHead g.countLoopHead] c with
  | .fail o r k => .fail o r k
  | .done head next =>
    let kind :=
      if head.any (·.head.field == some "operator") then "for_in_statement" else "for_statement"
    match g.governed "body" next with
    | .fail o r k => .fail o r k
    | .done body next =>
        .done (.node { kind := kind, span := c.spanTo next.stop } (head ++ body)) next

def doStatement : Parser Tree :=
  node "do_statement" (seq
    [kw "do", g.governed "body", kw "while", g.condition "condition",
      given (·.startsWith ";") (sym ";")])

def switchCase : Parser Tree := fun c =>
  let stop (c : Cursor) : Bool :=
    c.startsWith "\x7d" || c.word == "case" || c.word == "default"
  let statements : Items := linesUntil stop (g.governed "body")
  if c.word == "default" then
    node "switch_default" (seq [kw "default", sym ":", statements]) c
  else node "switch_case" (seq [kw "case", fld "value" g.values, sym ":", statements]) c

def switchStatement : Parser Tree :=
  node "switch_statement" (seq
    [kw "switch", g.condition "value",
      fld "body" (node "switch_body" (seq
        [sym "\x7b", untilThat (·.startsWith "\x7d") (one g.switchCase), sym "\x7d"]))])

def catchClause : Parser Tree :=
  node "catch_clause" (seq
    [kw "catch",
      given (·.startsWith "(")
        (seq [sym "(", fld "parameter" g.target, g.maybeAnnotation, sym ")"]),
      fld "body" (g.read .block)])

def tryStatement : Parser Tree :=
  node "try_statement" (seq
    [kw "try", fld "body" (g.read .block), given (·.word == "catch") (fld "handler" g.catchClause),
      given (·.word == "finally")
        (fld "finalizer" (node "finally_clause" (seq [kw "finally", fld "body" (g.read .block)])))])

def jump (kind word : String) : Parser Tree :=
  node kind (seq
    [kw word, given (fun c => isName c.word && !mayEnd c)
      (fld "label" (nameAs "statement_identifier")),
      semicolon])

def returnStatement : Parser Tree :=
  node "return_statement" (seq
    [kw "return", given (fun c => !(c.startsWith ";" || mayEnd c)) (one g.values), semicolon])

def labelled : Parser Tree :=
  node "labeled_statement" (seq
    [fld "label" (nameAs "statement_identifier"), sym ":", g.governed "body"])

/-- A statement that begins with a word of its own; none if the word begins no such statement. -/
def wordStatement? (word : String) : Option (Parser Tree) :=
  match word with
  | "if" => some g.ifStatement
  | "for" => some g.forStatement
  | "while" =>
    some (node "while_statement" (seq [kw "while", g.condition "condition", g.governed "body"]))
  | "do" => some g.doStatement
  | "switch" => some g.switchStatement
  | "try" => some g.tryStatement
  | "with" => some
      (node "with_statement" (seq [kw "with", g.condition "object", g.governed "body"]))
  | "return" => some g.returnStatement
  | "throw" => some (node "throw_statement" (seq [kw "throw", one g.values, semicolon]))
  | "break" => some (jump "break_statement" "break")
  | "continue" => some (jump "continue_statement" "continue")
  | "debugger" => some (node "debugger_statement" (seq [kw "debugger", semicolon]))
  | _ => none

end Grammar

end Synopsis.Ecma
