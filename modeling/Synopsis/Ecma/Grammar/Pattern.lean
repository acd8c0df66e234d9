import Synopsis.Ecma.Grammar.Basic
/-!
# Patterns and parameters

What a declaration binds, the parameters of functions, and the reading of a list or table literal
as the pattern that stands on the left of an assignment.
-/

namespace Synopsis.Ecma

open Synopsis.Ecma.Parser

namespace Grammar

variable (g : Grammar)

def target : Parser Tree := g.read .target

/-- A target, and a default after an equals sign. -/
def withDefault (p : Parser Tree) : Parser Tree := fun c =>
  match p c with
  | .fail o r k => .fail o r k
  | .done t next =>
    if next.mark == "=" then
      nodeFrom "assignment_pattern" (t.inField "left") (seq [op "=", fld "right" g.value]) next
    else .done t next

/-- A target for all that is left. -/
def restPattern : Parser Tree := node "rest_pattern" (seq [sym "...", one g.target])

def elementPattern : Parser Tree := fun c =>
  if c.startsWith "..." then g.restPattern c else g.withDefault g.target c

def arrayPattern : Parser Tree :=
  node "array_pattern" (seq [sym "[", commaList "]" true (one g.elementPattern), sym "]"])

/-- A name in a table pattern, perhaps with a default. -/
def shorthandPattern : Parser Tree := fun c =>
  match nameAs "shorthand_property_identifier_pattern" c with
  | .fail o r k => .fail o r k
  | .done t next =>
    if next.mark == "=" then
      nodeFrom "object_assignment_pattern" (t.inField "left")
        (seq [op "=", fld "right" g.value]) next
    else .done t next

def propertyPattern : Parser Tree := fun c =>
  if c.startsWith "..." then g.restPattern c
  else match g.propertyName "property_identifier" c with
    | .fail o r k => .fail o r k
    | .done key next =>
      if next.startsWith ":" then
        nodeFrom "pair_pattern" (key.inField "key")
          (seq [sym ":", fld "value" g.elementPattern]) next
      else g.shorthandPattern c

def objectPattern : Parser Tree :=
  node "object_pattern"
    (seq [sym "\x7b", commaList "\x7d" true (one g.propertyPattern), sym "\x7d"])

def bindingTarget : Parser Tree := fun c =>
  match c.head? with
  | some '\x7b' => g.objectPattern c
  | some '[' => g.arrayPattern c
  | _ => identifier c

/-- A decorator: an at sign, a name with members, and perhaps a call. -/
def decorator : Parser Tree :=
  node "decorator" (seq [sym "@", fun c =>
    if c.startsWith "(" then one g.parenthesized c
    else one (g.read (.callee true)) c])

def decorators : Items :=
  untilThat (!·.startsWith "@") (fld "decorator" g.decorator)

/-- Words before the name of a parameter or member that are no names themselves here: another name
or a pattern follows on the line. -/
def modifier (words : List String) (c : Cursor) : Bool :=
  words.contains c.word &&
    let next := c.afterWord
    atPropertyName next || next.startsWith "\x7b" || next.startsWith "*"

def accessibility : Parser Tree := fun c =>
  if ["public", "private", "protected"].contains c.word then
    node "accessibility_modifier" (kw c.word) c
  else fail c

def paramModifier : Items := fun c =>
  if c.word == "override" then one (node "override_modifier" (kw "override")) c
  else if c.word == "readonly" then kw "readonly" c
  else one accessibility c

def typedParameter : Parser Tree := fun c =>
  let words := ["public", "private", "protected", "override", "readonly"]
  let start : Items := seq
    [g.decorators, untilThat (!modifier words ·) paramModifier,
      fun c =>
        if c.startsWith "..." then fld "pattern" g.restPattern c
        else if c.word == "this" then fld "pattern" (wordAs "this") c
        else if c.word == "undefined" then fld "pattern" (wordAs "undefined") c
        else fld "pattern" g.target c]
  match start c with
  | .fail o r k => .fail o r k
  | .done first next =>
    let kind := if next.startsWith "?" then "optional_parameter" else "required_parameter"
    let rest := seq
      [given (·.startsWith "?") (sym "?"), g.maybeAnnotation,
        given (·.mark == "=") (g.initializer true)]
    match rest next with
    | .fail o r k => .fail o r k
    | .done more next =>
      .done (.node { kind := kind, span := c.spanTo next.stop } (first ++ more)) next

def plainParameter : Parser Tree := fun c =>
  if c.startsWith "..." then g.restPattern c
  else if c.word == "undefined" then g.withDefault (wordAs "undefined") c
  else g.withDefault g.target c

def parameters : Parser Tree :=
  node "formal_parameters" (seq
    [sym "(",
      commaList ")" false (one (if g.dialect.types then g.typedParameter else g.plainParameter)),
      sym ")"])

/-- What a predicate says of a parameter: its type. -/
def typePredicate : Parser Tree :=
  node "type_predicate" (seq
    [fld "name" (fun c => if c.word == "this" then wordAs "this" c else identifier c), kw "is",
      fld "type" (g.read .type)])

def asserts : Parser Tree :=
  node "asserts" (seq [kw "asserts", fun c =>
    if c.afterWord.word == "is" then one g.typePredicate c
    else if c.word == "this" then one (wordAs "this") c
    else one identifier c])

def resultType : Items := fun c =>
  let next := c.afterWord
  if c.word == "asserts" && !next.newline && (isName next.word || next.word == "this") &&
      next.word != "is" then one g.asserts c
  else if c.word != "" && next.word == "is" && !next.newline then one g.typePredicate c
  else one (g.read .type) c

def returnAnnotation : Parser Tree :=
  node "type_annotation" (seq [sym ":", g.resultType])

def callSignature : Items :=
  seq [g.maybeTypeParameters, fld "parameters" g.parameters,
    given (fun c => g.dialect.types && c.startsWith ":") (fld "return_type" g.returnAnnotation)]

end Grammar

mutual
/-- The pattern that a value on the left of an assignment is. -/
def Tree.toPattern? : Tree → Option Tree
  | .node head children =>
    if ["identifier", "undefined", "member_expression", "subscript_expression",
        "non_null_expression", "array_pattern", "object_pattern"].contains head.kind then
      some (.node head children)
    else if head.kind == "array" then
      (Tree.toPatterns? children).map (.node { head with kind := "array_pattern" })
    else if head.kind == "object" then
      (Tree.toPatterns? children).map (.node { head with kind := "object_pattern" })
    else if head.kind == "assignment_expression" then
      some (.node { head with kind := "assignment_pattern" } children)
    else if head.kind == "spread_element" then
      (Tree.toPatterns? children).map (.node { head with kind := "rest_pattern" })
    else if head.kind == "pair" then
      (Tree.toPairPattern? children).map (.node { head with kind := "pair_pattern" })
    else if head.kind == "shorthand_property_identifier" then
      some (.node { head with kind := "shorthand_property_identifier_pattern" } children)
    else if head.kind == "cover_initializer" then
      some (.node { head with kind := "object_assignment_pattern" } children)
    else none

/-- The patterns of the elements of a literal; marks stay as they are. -/
def Tree.toPatterns? : List Tree → Option (List Tree)
  | [] => some []
  | t :: ts =>
    match (if t.head.named then Tree.toPattern? t else some t), Tree.toPatterns? ts with
    | some p, some ps => some (p :: ps)
    | _, _ => none

def Tree.toPairPattern? : List Tree → Option (List Tree)
  | [] => some []
  | t :: ts =>
    match (if t.head.field == some "value" then Tree.toPattern? t else some t),
        Tree.toPairPattern? ts with
    | some p, some ps => some (p :: ps)
    | _, _ => none
end

/-- What a value is on the left of an assignment, if it may stand there. -/
def Tree.toTarget? (t : Tree) : Option Tree :=
  if t.kind == "parenthesized_expression" then some t
  else if ["assignment_expression", "spread_element", "pair"].contains t.kind then none
  else t.toPattern?

end Synopsis.Ecma
