import Synopsis.Ecma.Grammar.Pattern
/-!
# Types

The types of the typed dialects: unions and intersections of operands, function and constructor
types, conditional types, and the members of object types and interfaces.
-/

namespace Synopsis.Ecma

open Synopsis.Ecma.Parser

def predefinedTypes : List String :=
  ["any", "number", "boolean", "string", "symbol", "void", "unknown", "never", "object"]

/-- Whether a statement that ends in a type, a name or a signature may end here. A line that goes on
with a parenthesis or a bracket does not continue it. -/
def mayEndType (c : Cursor) : Bool :=
  mayEnd c || (c.newline && (c.startsWith "(" || c.startsWith "["))

def typeSemicolon : Items := fun c =>
  if c.startsWith ";" then sym ";" c
  else if mayEndType c then .done [] c
  else fail c

namespace Grammar

variable (g : Grammar)

def type : Parser Tree := g.read .type

def maybeTypeArguments : Items := given (·.startsWith "<") (fld "type_arguments" g.typeArguments)

def memberName (kind : String) : Items := fld "property" (wordAs kind)

def importedModule : Parser Tree :=
  node "call_expression" (seq
    [fld "function" (node "import" (kw "import")),
      fld "arguments"
        (node "arguments" (seq [sym "(", commaList ")" false (one g.value), sym ")"]))])

/-- What the type of a value is asked of: a name or an imported module, and its members. -/
def queried : Parser Tree := fun c =>
  let start : Parser Tree :=
    if c.word == "import" then g.importedModule
    else if c.word == "this" then wordAs "this"
    else identifier
  match start c with
  | .fail o r k => .fail o r k
  | .done t next =>
    growing (fun t c =>
      if c.mark == "." then
        (do
          let t ← nodeFrom "member_expression" (t.inField "object") (seq [sym ".", fun c =>
            if c.startsWith "#" then fld "property" privateName c
            else memberName "property_identifier" c])
          return some t) c
      else .done none c) t next

def typeQuery : Parser Tree :=
  node "type_query" (seq [kw "typeof", one g.queried, g.maybeTypeArguments])

def importedType : Parser Tree := fun c =>
  match g.queried c with
  | .fail o r k => .fail o r k
  | .done t next =>
    if next.startsWith "<" then
      nodeFrom "generic_type" (t.inField "name") (fld "type_arguments" g.typeArguments) next
    else .done t next

def namedType : Parser Tree := fun c =>
  let start := if c.afterWord.mark == "." then identifier else nameAs "type_identifier"
  match start c with
  | .fail o r k => .fail o r k
  | .done t next =>
    let path := growing (fun (t : Tree) c =>
      if c.mark == "." then
        (do
          let last := c.step.toNextToken.afterWord.mark != "."
          let t ← if last then
              nodeFrom "nested_type_identifier" (t.inField "module")
                (seq [sym ".", fld "name" (wordAs "type_identifier")])
            else
              nodeFrom "nested_identifier" (t.inField "object")
                (seq [sym ".", memberName "property_identifier"])
          return some t) c
      else .done none c) t next
    match path with
    | .fail o r k => .fail o r k
    | .done t next =>
      if next.startsWith "<" then
        nodeFrom "generic_type" (t.inField "name") (fld "type_arguments" g.typeArguments) next
      else .done t next

/-- One element of a tuple type: a type, with a name or without, left away or for the rest. -/
def tupleElement : Parser Tree := fun c =>
  let named (c : Cursor) : Bool :=
    let next := c.afterWord
    c.word != "" &&
      (next.mark == ":" || (next.startsWith "?" && next.step.toNextToken.startsWith ":"))
  let labelled : Parser Tree := fun c =>
    let kind := if c.afterWord.startsWith "?" then "optional_parameter" else "required_parameter"
    node kind (seq [fld "name" (wordAs "identifier"), given (·.startsWith "?") (sym "?"),
      fld "type" g.typeAnnotation]) c
  if c.startsWith "..." then
    node "rest_type" (seq [sym "...", fun c => if named c then one labelled c else one g.type c]) c
  else if named c then labelled c
  else match g.type c with
    | .fail o r k => .fail o r k
    | .done t next =>
      if next.startsWith "?" then nodeFrom "optional_type" t (sym "?") next else .done t next

def tupleType : Parser Tree :=
  node "tuple_type" (seq [sym "[", commaList "]" false (one g.tupleElement), sym "]"])

/-- The parameters of a function type, if an arrow follows them. -/
def arrowParameters : Items :=
  seq [given (·.startsWith "<") (fld "type_parameters" g.typeParameters),
    fld "parameters" g.parameters, op "=>"]

def functionType : Parser Tree :=
  node "function_type" (seq [g.arrowParameters, fldAll "return_type" g.resultType])

def constructorType : Parser Tree :=
  node "constructor_type" (seq
    [given (·.word == "abstract") (kw "abstract"), kw "new", g.arrowParameters, fld "type" g.type])

/-- A type for each key of another: what stands between the brackets. -/
def mappedClause : Parser Tree :=
  node "mapped_type_clause" (seq
    [fld "name" (nameAs "type_identifier"), kw "in", fld "type" g.type,
      given (·.word == "as") (seq [kw "as", fld "alias" g.type])])

/-- The type of a mapped member, with the sign and the question mark before the colon. -/
def mappedAnnotation : Items :=
  seq
    [given (fun c => atAny ["-?", "+?"] c) (fun c => sym (if c.startsWith "-" then "-" else "+") c),
      given (·.startsWith "?") (sym "?"), given (·.startsWith ":") (fld "type" g.typeAnnotation)]

def atIndex (c : Cursor) : Bool :=
  c.startsWith "[" &&
    let inside := c.step.toNextToken
    inside.word != "" && (inside.afterWord.mark == ":" || inside.afterWord.word == "in")

def indexBody : Items :=
  seq
    [sym "[", fun c =>
      if c.afterWord.word == "in" then one g.mappedClause c
      else seq [fld "name" identifier, sym ":", fld "index_type" g.type] c,
      sym "]", g.mappedAnnotation]

/-- The sign and the word that make members constant or not. -/
def readonlyMark : Items :=
  seq
    [given (fun c => atAny ["-", "+"] c) (fun c => sym (if c.startsWith "-" then "-" else "+") c),
      given (modifier ["readonly"] ·) (kw "readonly")]

def atIndexSignature (c : Cursor) : Bool :=
  atIndex c ||
    match readonlyMark c with
    | .done _ next => atIndex next
    | .fail _ _ _ => false

def indexSignature : Parser Tree :=
  node "index_signature" (seq [readonlyMark, g.indexBody])

/-- The words that may stand before the name of a member of an object type. -/
def memberWords : List String :=
  ["readonly", "get", "set", "static", "async", "public", "private", "protected"]

def typeMember : Parser Tree := fun c =>
  if atIndexSignature c then g.indexSignature c
  else if c.startsWith "(" || c.startsWith "<" then node "call_signature" g.callSignature c
  else if c.word == "new" && (c.afterWord.startsWith "(" || c.afterWord.startsWith "<") then
    node "construct_signature" (seq
      [kw "new", g.maybeTypeParameters, fld "parameters" g.parameters,
        given (·.startsWith ":") (fld "type" g.typeAnnotation)]) c
  else
    let start := seq
      [untilThat (!modifier memberWords ·) (fun c => kw c.word c),
        fld "name" (g.propertyName "property_identifier"), given (·.startsWith "?") (sym "?")]
    match start c with
    | .fail o r k => .fail o r k
    | .done first next =>
      let (kind, rest) :=
        if next.startsWith "(" || next.startsWith "<" then ("method_signature", g.callSignature)
        else ("property_signature", g.maybeAnnotation)
      match rest next with
      | .fail o r k => .fail o r k
      | .done more next =>
        .done (.node { kind := kind, span := c.spanTo next.stop } (first ++ more)) next

/-- What separates the members of an object type. -/
def memberEnd : Items := fun c =>
  if c.startsWith "," then sym "," c
  else if c.startsWith "\x7d" then .done [] c
  else typeSemicolon c

def objectType (kind : String) : Parser Tree :=
  node kind (seq
    [sym "\x7b",
      untilThat (·.startsWith "\x7d") (fun c =>
        if c.startsWith "," || c.startsWith ";" then memberEnd c
        else seq [one g.typeMember, memberEnd] c),
      sym "\x7d"])

def literalType (p : Parser Tree) : Parser Tree := node "literal_type" (one p)

def parenthesizedType : Parser Tree :=
  node "parenthesized_type" (seq [sym "(", one g.type, sym ")"])

/-- A type without operators around it. -/
def primaryType : Parser Tree := fun c =>
  match c.head? with
  | some '(' => g.parenthesizedType c
  | some '[' => g.tupleType c
  | some '\x7b' => g.objectType "object_type" c
  | some '"' => literalType Literal.string c
  | some '\'' => literalType Literal.string c
  | some '\x60' => Literal.template "template_literal_type" "template_type" (one g.type) c
  | some '-' =>
    literalType
      (node "unary_expression" (seq [fldAll "operator" (sym "-"), fld "argument" Literal.number])) c
  | some ch =>
    if ch.isDigit then literalType Literal.number c
    else match c.word with
      | "true" => literalType (wordAs "true") c
      | "false" => literalType (wordAs "false") c
      | "null" => literalType (wordAs "null") c
      | "undefined" => literalType (wordAs "undefined") c
      | "void" => node "predefined_type" (kw "void") c
      | "this" => wordAs "this_type" c
      | "typeof" => g.typeQuery c
      | "import" => g.importedType c
      | w =>
        if predefinedTypes.contains w && c.afterWord.mark != "." then
          node "predefined_type" (kw w) c
        else g.namedType c
  | none => fail c

/-- A type with brackets after it. -/
def postfixType : Parser Tree := fun c =>
  match g.primaryType c with
  | .fail o r k => .fail o r k
  | .done t next =>
    growing (fun (t : Tree) c =>
      if c.startsWith "[" && !c.newline then
        if c.step.toNextToken.startsWith "]" then
          (do let t ← nodeFrom "array_type" t (seq [sym "[", sym "]"]); return some t) c
        else
          (do let t ← nodeFrom "lookup_type" t (seq [sym "[", one g.type, sym "]"])
              return some t) c
      else .done none c) t next

/-- Whether a type can follow a word that is a type operator. -/
def typeFollows (c : Cursor) : Bool :=
  match c.head? with
  | none => false
  | some ch => nameLength c != 0 && c.word != "extends" || ch.isDigit ||
      ['(', '[', '\x7b', '"', '\'', '\x60'].contains ch

def typeOperand : Parser Tree := fun c =>
  match c.word with
  | "keyof" =>
    if typeFollows c.afterWord then
      node "index_type_query" (seq [kw "keyof", one (g.read .typeOperand)]) c
    else g.postfixType c
  | "readonly" =>
    if typeFollows c.afterWord then
      node "readonly_type" (seq [kw "readonly", one (g.read .typeOperand)]) c
    else g.postfixType c
  | "unique" =>
    if c.afterWord.word == "symbol" then node "predefined_type" (seq [kw "unique", kw "symbol"]) c
    else g.postfixType c
  | "infer" =>
    if isName c.afterWord.word then
      let plain := seq [kw "infer", one (nameAs "type_identifier")]
      let bounded := seq [plain, kw "extends", one (g.read .typeOperand)]
      orElse (fun c => match node "infer_type" bounded c with
          | .done t next => if next.startsWith "?" then fail next else .done t next
          | .fail o r k => .fail o r k)
        (node "infer_type" plain) c
    else g.postfixType c
  | "new" => g.constructorType c
  | "abstract" =>
    if c.afterWord.word == "new" then g.constructorType c else g.postfixType c
  | _ =>
    if c.startsWith "<" || (c.startsWith "(" && fits g.arrowParameters c) then g.functionType c
    else g.postfixType c

/-- Types joined by a mark, which may also stand before the first. -/
def joinedTypes (kind mark : String) (item : Parser Tree) : Parser Tree := fun c =>
  let start : Parser Tree := fun c =>
    if c.mark == mark then node kind (seq [op mark, one item]) c else item c
  match start c with
  | .fail o r k => .fail o r k
  | .done t next =>
    growing (fun (t : Tree) c =>
      if c.mark == mark then
        (do let t ← nodeFrom kind t (seq [op mark, one item]); return some t) c
      else .done none c) t next

def unionType : Parser Tree :=
  joinedTypes "union_type" "|" (joinedTypes "intersection_type" "&" g.typeOperand)

/-- A type, which may depend on whether it extends another. -/
def fullType : Parser Tree := fun c =>
  match g.unionType c with
  | .fail o r k => .fail o r k
  | .done t next =>
    if next.word == "extends" && !next.newline ||
      (next.word == "extends" && fits (seq [kw "extends", one g.unionType, sym "?"]) next) then
      orElse
        (nodeFrom "conditional_type" (t.inField "left")
          (seq [kw "extends", fld "right" g.unionType, sym "?", fld "consequence" g.type, sym ":",
            fld "alternative" g.type]))
        (succeed t) next
    else .done t next

end Grammar

end Synopsis.Ecma
