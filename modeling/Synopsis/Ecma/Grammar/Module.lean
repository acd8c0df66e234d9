import Synopsis.Ecma.Grammar.Statement
/-!
# Imports, exports and whole texts

The statements that bind the names of modules, the choice among all statements, and the rules of the
grammar tied to one another.
-/

namespace Synopsis.Ecma

open Synopsis.Ecma.Parser

/-- A name between the braces of an import or an export; it may be a text. -/
def moduleBinding (kind : String) : Parser Tree := fun c =>
  match c.head? with
  | some '"' => Literal.string c
  | some '\'' => Literal.string c
  | _ => if c.word == "default" then wordAs kind c else nameAs kind c

/-- Whether a word comes before a binding and is no binding itself. -/
def leadsBinding (words : List String) (c : Cursor) : Bool :=
  words.contains c.word &&
    let next := c.afterWord
    let bare :=
      next.word != "as" && (next.word != "" || next.startsWith "\"" || next.startsWith "'")
    let aliased := next.word == "as" &&
      (let after := next.afterWord
       after.word == "as" || after.startsWith "," || after.startsWith "\x7d")
    bare || aliased

/-- The module that names come from. -/
def origin : Items := seq [kw "from", fld "source" Literal.string]

namespace Grammar

variable (g : Grammar)

def specifier (kind : String) : Parser Tree :=
  node kind (seq
    [given (fun c => g.dialect.types && leadsBinding ["type", "typeof"] c) (fun c => kw c.word c),
      fld "name" (moduleBinding "identifier"),
      given (·.word == "as") (seq [kw "as", fld "alias" (moduleBinding "identifier")])])

def specifiers (kind item : String) : Parser Tree :=
  node kind (seq [sym "\x7b", commaList "\x7d" false (one (g.specifier item)), sym "\x7d"])

def namespaceImport : Parser Tree :=
  node "namespace_import" (seq [sym "*", kw "as", one identifier])

/-- What an import binds apart from the default. -/
def importedNames : Parser Tree := fun c =>
  if c.startsWith "*" then namespaceImport c
  else g.specifiers "named_imports" "import_specifier" c

def importClause : Parser Tree :=
  node "import_clause" fun c =>
    if c.startsWith "*" || c.startsWith "\x7b" then one g.importedNames c
    else seq [one identifier, given (·.startsWith ",") (seq [sym ",", one g.importedNames])] c

def importAttribute : Items :=
  given (fun c => c.word == "with" || (g.dialect.types && c.word == "assert" && !c.newline))
    (one (node "import_attribute" (seq [fun c => kw c.word c, one g.object])))

def requireClause : Parser Tree :=
  node "import_require_clause" (seq
    [one identifier, op "=", kw "require", sym "(", fld "source" Literal.string, sym ")"])

def atTypeImport (c : Cursor) : Bool :=
  g.dialect.types && (c.word == "type" || c.word == "typeof") &&
    let next := c.afterWord
    next.startsWith "\x7b" || next.startsWith "*" ||
      (isName next.word && (next.word != "from" || next.afterWord.word == "from" ||
        next.afterWord.mark == "="))

def importStatement : Parser Tree :=
  node "import_statement" (seq
    [kw "import", given g.atTypeImport (fun c => kw c.word c),
      fun c =>
        if c.startsWith "\"" || c.startsWith "'" then fld "source" Literal.string c
        else if g.dialect.types && c.afterWord.mark == "=" then one requireClause c
        else seq [one g.importClause, origin] c,
      g.importAttribute, semicolon])

/-- An import statement, or a name for a member of a module. -/
def importForm : Parser Tree := fun c =>
  if g.atImportAlias c && c.afterWord.afterWord.step.toNextToken.word != "require" then
    importAlias c
  else if g.atImportAlias c then orElse g.importStatement importAlias c
  else g.importStatement c

/-- Whether an exported default is a declaration. -/
def atDefaultDeclaration (c : Cursor) : Bool :=
  g.atDeclaration c ||
    (g.dialect.types && atFunction c && isName (afterFunction c).word)

def exported : Items := fun c =>
  if c.startsWith "*" then
    seq
      [fun c =>
        if c.step.toNextToken.word == "as" then
          one (node "namespace_export"
            (seq [sym "*", kw "as", one (moduleBinding "identifier")])) c
        else sym "*" c,
        origin, g.importAttribute, semicolon] c
  else if c.startsWith "\x7b" then
    seq [one (g.specifiers "export_clause" "export_specifier"),
      given (·.word == "from") (seq [origin, g.importAttribute]), semicolon] c
  else if c.word == "default" then
    seq [kw "default", fun c =>
      if g.atDefaultDeclaration c then fld "declaration" g.declaration c
      else if c.startsWith "@" then
        match g.decorators c with
        | .fail o r k => .fail o r k
        | .done ds next =>
          if g.atNamedClass next then fld "declaration" (g.classDeclaration ds c) next
          else seq [fld "value" g.value, semicolon] c
      else seq [fld "value" g.value, semicolon] c] c
  else if c.startsWith "@" then
    match g.decorators c with
    | .fail o r k => .fail o r k
    | .done ds next => fld "declaration" (g.classDeclaration ds c) next
  else if g.dialect.types && c.word == "type" &&
      (c.afterWord.startsWith "\x7b" || c.afterWord.startsWith "*") then
    seq [kw "type",
      fun c =>
        if c.startsWith "*" then
          seq [sym "*", given (·.word == "as") (seq [kw "as", one identifier]), origin] c
        else
          seq [one (g.specifiers "export_clause" "export_specifier"),
            given (·.word == "from") origin] c,
      semicolon] c
  else if g.dialect.types && c.mark == "=" then seq [op "=", one g.value, semicolon] c
  else if g.dialect.types && c.word == "as" then
    seq [kw "as", kw "namespace", one identifier, semicolon] c
  else if g.atDeclaration c then fld "declaration" g.declaration c
  else fail c

def exportStatement (decorators : List Tree) (start : Cursor) : Parser Tree := fun c =>
  match seq [kw "export", g.exported] c with
  | .fail o r k => .fail o r k
  | .done ts next =>
    .done (.node { kind := "export_statement", span := start.spanTo next.stop }
      (decorators ++ ts)) next

/-- Whether what follows the word `export` is a definition or a default, which decorators may
precede. -/
def exportsDefinition (c : Cursor) : Bool :=
  c.word == "default" || c.startsWith "@" || g.atDeclaration c

/-- A class or an export after decorators. -/
def decorated : Parser Tree := fun c =>
  match g.decorators c with
  | .fail o r k => .fail o r k
  | .done ds next =>
    if next.word == "export" then
      if g.exportsDefinition next.afterWord then g.exportStatement ds c next
      else fail next.afterWord
    else if g.atNamedClass next then g.classDeclaration ds c next
    else g.valueStatement c

def anyStatement : Parser Tree := fun c =>
  let c := c.pastPageComments
  if c.startsWith ";" then node "empty_statement" (sym ";") c
  else if c.startsWith "\x7b" then g.blockStatement c
  else if c.startsWith "@" then g.decorated c
  else if c.word == "" then g.valueStatement c
  else if atLabel c then g.labelled c
  else match g.wordStatement? c.word with
    | some p => p c
    | none =>
      if c.word == "import" && !(c.afterWord.startsWith "(" || c.afterWord.mark == ".") then
        g.importForm c
      else if c.word == "export" then g.exportStatement [] c c
      else if g.atDeclaration c then g.declaration c
      else g.valueStatement c

def rule (g : Grammar) : Rule → Parser Tree
  | .statement => g.anyStatement
  | .block =>
    node "statement_block" (seq
      [sym "\x7b", linesUntil (·.startsWith "\x7d") (one g.statement), sym "\x7d"])
  | .values within => g.valuesForm within
  | .value within => g.valueForm true within
  | .branch within => g.valueForm false within
  | .operand within => g.operandForm true within
  | .callee calls => g.callee calls
  | .target => g.bindingTarget
  | .type => g.fullType
  | .typeOperand => g.typeOperand
  | .element => g.element

end Grammar

/-- Reads a rule of a dialect; rules may be nested `fuel` times. -/
def readRule (dialect : Dialect) : Nat → Rule → Parser Tree
  | 0, _ => fail
  | fuel + 1, r => Grammar.rule ⟨dialect, readRule dialect fuel⟩ r

end Synopsis.Ecma
