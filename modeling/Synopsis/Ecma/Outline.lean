import Synopsis.Ecma.Tree
import Synopsis.Record
import Synopsis.Text.Lines
/-!
# Outlines of syntax trees

Every node gives the events that its kind stands for: imports, exports, functions, classes,
variables and comments. The events of a tree, in document order, are gathered into facts; a
function or class is marked as exported when some export has its name.
-/

namespace Synopsis.Ecma

/-- Something that a node says about its file. -/
inductive Event where
  | imports (r : ImportRecord)
  | exports (r : ExportRecord)
  | declaresFunction (r : FunctionRecord)
  | declaresClass (r : ClassRecord)
  | declaresVariable (r : VariableRecord)
  | comments (r : CommentRecord)
  deriving DecidableEq, Repr

namespace Outline

open Synopsis.Ecma.Tree

def functionDeclarations : List String := ["function_declaration", "generator_function_declaration"]

def functionValues : List String :=
  ["arrow_function", "function_expression", "function", "generator_function"]

def generators : List String := ["generator_function_declaration", "generator_function"]

def classDeclarations : List String := ["class_declaration", "abstract_class_declaration"]

def variableDeclarations : List String := ["lexical_declaration", "variable_declaration"]

section

variable (source : Source)

/-- The text of a string literal without its quotes, and of any other node as it is. -/
def literalText (t : Tree) : String :=
  let text := source.text t
  if t.kind == "string" then
    match text.toList with
    | first :: second :: rest =>
      let last := (second :: rest).getLast?
      if last == some first && (first == '\'' || first == '"') then
        String.ofList (second :: rest).dropLast
      else text
    | _ => text
  else text

def nameOf (t : Tree) : String :=
  match t.field? "name" with
  | some name => source.text name
  | none => "anonymous"

/-- Whether a token stands among the children of a node. -/
def hasToken (t : Tree) (token : String) : Bool :=
  t.children.any fun child => !child.head.named && child.kind == token

def declarators (t : Tree) : List Tree := t.namedChildren.filter (·.kind == "variable_declarator")

/-- The name of a parameter that is an identifier, with or without a default. -/
def patternName (t : Tree) : String :=
  if t.kind == "identifier" then source.text t
  else if t.kind == "assignment_pattern" then
    match t.field? "left" with
    | some left => if left.kind == "identifier" then source.text left else "param"
    | none => "param"
  else "param"

/-- The name of a parameter; one that is no identifier has none of its own. -/
def paramName (t : Tree) : String :=
  if t.kind == "required_parameter" || t.kind == "optional_parameter" then
    match t.field? "pattern" with
    | none => "param"
    | some pattern => patternName source pattern
  else patternName source t

def paramNames (t : Tree) : List String :=
  match t.field? "parameter" with
  | some single => [paramName source single]
  | none =>
    match t.field? "parameters" with
    | none => []
    | some params => (params.namedChildren.filter (·.kind != "comment")).map (paramName source)

def extended? (t : Tree) : Option Tree :=
  match t.children.find? (·.kind == "class_heritage") with
  | none => none
  | some heritage =>
    match heritage.namedChildren.find? (·.kind == "extends_clause") with
    | some clause =>
      match clause.field? "value" with
      | some value => some value
      | none => clause.namedChildren.head?
    | none => heritage.namedChildren.head?.filter (·.kind != "implements_clause")

/-- The name of the class that a class extends, if it is an identifier. -/
def superclass? (t : Tree) : Option String :=
  ((extended? t).filter (·.kind == "identifier")).map source.text

def modifiers (t : Tree) : List String :=
  let leading : List Tree := match t.field? "name" with
    | some name => t.children.takeWhile (·.span.start < name.span.start)
    | none => t.children
  (leading.filter (!·.head.named)).map (·.kind)

def methodRecord (t : Tree) : MethodRecord :=
  let words := modifiers t
  let name := nameOf source t
  let kind :=
    if words.contains "get" then .getter
    else if words.contains "set" then .setter
    else if name == "constructor" then .constructor
    else .method
  ⟨name, kind, words.contains "static"⟩

/-- A comment without its marks and without blanks around it. -/
def commentEvents (t : Tree) : List Event :=
  let text := (source.text t).toList
  let (kind, body) := match text with
    | '/' :: '*' :: inside =>
      match text.reverse with
      | '/' :: '*' :: _ => (.block, if 4 ≤ text.length then inside.dropLast.dropLast else inside)
      | _ => (.block, inside)
    | '/' :: '/' :: inside => (.line, inside)
    | text => (.line, text)
  [.comments ⟨kind, String.ofList (Text.trim body), t.span.start, t.span.stop⟩]

/-- The binding of one item between the braces of an import. -/
def namedBinding (spec : Tree) : Option Binding :=
  if spec.kind != "import_specifier" then none
  else (spec.field? "name").map fun imported =>
    let name := literalText source imported
    ⟨.named, ((spec.field? "alias").map source.text).getD name, some name⟩

def clauseBindings (item : Tree) : List Binding :=
  if item.kind == "identifier" then [⟨.default, source.text item, none⟩]
  else if item.kind == "namespace_import" then
    match item.firstBelow? "identifier" with
    | some name => [⟨.namespace, source.text name, none⟩]
    | none => []
  else if item.kind == "named_imports" then item.namedChildren.filterMap (namedBinding source)
  else []

def importEvents (t : Tree) : List Event :=
  match (t.field? "source").or (t.firstBelow? "string") with
  | none => []
  | some origin =>
    let clauses := t.namedChildren.filter (·.kind == "import_clause")
    let bindings := clauses.flatMap fun clause =>
        clause.namedChildren.flatMap (clauseBindings source)
    [.imports ⟨literalText source origin, t.line, bindings⟩]

/-- The name under which a default export is known. -/
def defaultName (t : Tree) : String :=
  match (t.field? "declaration").or (t.field? "value") with
  | none => "anonymous"
  | some target =>
    if target.kind == "identifier" then source.text target else nameOf source target

def declarationExports (line : Nat) (declaration : Tree) : List ExportRecord :=
  if functionDeclarations.contains declaration.kind then
    [⟨.function, nameOf source declaration, line⟩]
  else if classDeclarations.contains declaration.kind then
    [⟨.class, nameOf source declaration, line⟩]
  else if variableDeclarations.contains declaration.kind then
    (declarators declaration).filterMap fun declarator =>
      ((declarator.field? "name").filter (·.kind == "identifier")).map fun name =>
        ⟨.variable, source.text name, line⟩
  else []

def listedExports (t : Tree) : List ExportRecord :=
  (t.namedChildren.filter (·.kind == "export_clause")).flatMap fun clause =>
    clause.namedChildren.filterMap fun spec =>
      if spec.kind != "export_specifier" then none
      else ((spec.field? "alias").or (spec.field? "name")).map fun exported =>
        ⟨.reexport, literalText source exported, t.line⟩

def exportEvents (t : Tree) : List Event :=
  if t.children.any (·.kind == "default") then
    [.exports ⟨.default, defaultName source t, t.line⟩]
  else
    let declared := match t.field? "declaration" with
      | some declaration => declarationExports source t.line declaration
      | none => []
    (declared ++ listedExports source t).map .exports

def functionEvents (t : Tree) : List Event :=
  [.declaresFunction
    { name := nameOf source t, params := paramNames source t, line := t.line,
      isAsync := hasToken t "async", isGenerator := generators.contains t.kind }]

def classEvents (t : Tree) : List Event :=
  let methods := match t.field? "body" with
    | none => []
    | some body =>
      (body.namedChildren.filter (·.kind == "method_definition")).map (methodRecord source)
  [.declaresClass
    { name := nameOf source t, line := t.line, superclass := superclass? source t,
      methods := methods }]

def declaringWord (t : Tree) : Option String :=
  match t.field? "kind" with
  | some word => some (source.text word)
  | none => if t.kind == "variable_declaration" then some "var" else t.children.head?.map (·.kind)

/-- The function or the variable that a declarator with an identifier declares. -/
def declaratorEvent (line : Nat) (word : Option String) (declarator : Tree) : Option Event :=
  ((declarator.field? "name").filter (·.kind == "identifier")).map fun name =>
    match (declarator.field? "value").filter fun value => functionValues.contains value.kind with
    | some value =>
      .declaresFunction
        { name := source.text name, params := paramNames source value, line := line,
          isAsync := hasToken value "async", isGenerator := generators.contains value.kind,
          isArrow := value.kind == "arrow_function" }
    | none => .declaresVariable ⟨source.text name, line, word⟩

def declarationEvents (t : Tree) : List Event :=
  (declarators t).filterMap (declaratorEvent source t.line (declaringWord source t))

def nodeEvents (t : Tree) : List Event :=
  match t.kind with
  | "comment" => commentEvents source t
  | "import_statement" => importEvents source t
  | "export_statement" => exportEvents source t
  | "function_declaration" => functionEvents source t
  | "generator_function_declaration" => functionEvents source t
  | "class_declaration" => classEvents source t
  | "abstract_class_declaration" => classEvents source t
  | "lexical_declaration" => declarationEvents source t
  | "variable_declaration" => declarationEvents source t
  | _ => []

/-- The events of a tree in document order. -/
def events (t : Tree) : List Event := t.walk.flatMap (nodeEvents source)

end

def gather (events : List Event) : Facts :=
  let exports := events.filterMap fun | .exports r => some r | _ => none
  let isExported (name : String) : Bool := exports.any (·.name == name)
  { imports := events.filterMap fun | .imports r => some r | _ => none
    exports := exports
    functions := events.filterMap fun
      | .declaresFunction r => some { r with exported := isExported r.name }
      | _ => none
    classes := events.filterMap fun
      | .declaresClass r => some { r with exported := isExported r.name }
      | _ => none
    «variables» := events.filterMap fun | .declaresVariable r => some r | _ => none
    comments := events.filterMap fun | .comments r => some r | _ => none }

def facts (source : Source) (t : Tree) : Facts := gather (events source t)

end Outline

end Synopsis.Ecma
