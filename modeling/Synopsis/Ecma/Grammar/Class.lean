import Synopsis.Ecma.Grammar.Function
import Synopsis.Text.Lines
/-!
# Classes

The members of a class are methods, fields, static blocks and, where types are written, signatures.
-/

namespace Synopsis.Ecma

open Synopsis.Ecma.Parser

/-- Number of characters of the words `static get` with a line end right after them; where these
stand, they are one token. -/
def staticGetLength? (cs : List Char) : Option Nat :=
  match Text.dropPrefix? "static".toList cs with
  | none => none
  | some rest =>
    let gap := (rest.takeWhile isSpace).length
    match Text.dropPrefix? "get".toList (rest.drop gap) with
    | none => none
    | some tail =>
      let line := (tail.takeWhile isSpace).reverse.dropWhile (· != '\n')
      if gap == 0 || line.isEmpty then none else some (9 + gap + line.length)

/-- The words `static get` at the end of a line. -/
def staticGet : Items := fun c =>
  match staticGetLength? c.rest with
  | some n => one (token "static get" false n) c
  | none => fail c

/-- Words that may stand before a member where types are written. -/
def typedMemberWords : List String :=
  ["public", "private", "protected", "declare", "static", "override", "readonly", "abstract",
    "async", "get", "set", "accessor"]

def leadsTypedMember (c : Cursor) : Bool :=
  typedMemberWords.contains c.word &&
    if c.word == "static" || c.word == "async" then leadsMember c.word c
    else leadsName c.word c || (c.word != "get" && c.word != "set" && leadsMember c.word c)

def typedMemberWord : Items := fun c =>
  if ["public", "private", "protected"].contains c.word then
    one (node "accessibility_modifier" (kw c.word)) c
  else if c.word == "override" then one (node "override_modifier" (kw "override")) c
  else kw c.word c

def fieldEnd (typed : Bool) : Items := fun c =>
  if typed && c.startsWith "," then sym "," c
  else if typed then typeSemicolon c
  else semicolon c

namespace Grammar

variable (g : Grammar)

def staticBlock : Parser Tree := node "class_static_block" (seq [kw "static", g.body])

def atStaticBlock (c : Cursor) : Bool := c.word == "static" && c.afterWord.startsWith "\x7b"

/-- A method or a field, where types are not written, and what ends it. -/
def plainMember : Items := fun c =>
  let words := fun (c : Cursor) =>
    if (staticGetLength? c.rest).isSome then seq [staticGet, methodWords] c else methodWords c
  match seq [g.decorators, words] c with
  | .fail o r k => .fail o r k
  | .done first next =>
    match g.propertyName "property_identifier" next with
    | .fail o r k => .fail o r k
    | .done name next =>
      let isMethod := next.startsWith "("
      let (kind, field, rest, finish) : String × String × Items × Items :=
        if isMethod then
          ("method_definition", "name", seq [fld "parameters" g.parameters, g.body],
            given (·.startsWith ";") (sym ";"))
        else
          ("field_definition", "property", given (·.mark == "=") (g.initializer true),
            fieldEnd false)
      match rest next with
      | .fail o r k => .fail o r k
      | .done more next =>
        let member := Tree.node { kind := kind, field := some "member", span := c.spanTo next.stop }
          (first ++ name.inField field :: more)
        match finish next with
        | .fail o r k => .fail o r k
        | .done mark next => .done (member :: mark) next

/-- A method, a signature or a field, where types are written, and what ends it. -/
def typedMember : Items := fun c =>
  match g.decorators c with
  | .fail o r k => .fail o r k
  | .done decorators start =>
    if atIndexSignature start then
      seq [one g.indexSignature, fieldEnd true] start
    else
      let head := seq
        [untilThat (!leadsTypedMember ·) typedMemberWord, given (·.startsWith "*") (sym "*"),
          fld "name" (g.propertyName "property_identifier"),
          given (fun c => c.startsWith "?" || c.mark == "!") fun c =>
            sym (if c.startsWith "?" then "?" else "!") c]
      match head start with
      | .fail o r k => .fail o r k
      | .done first next =>
        if g.atParameters next then
          match g.callSignature next with
          | .fail o r k => .fail o r k
          | .done signature next =>
            if next.startsWith "\x7b" then
              match g.body next with
              | .fail o r k => .fail o r k
              | .done body next =>
                let method := Tree.node
                  { kind := "method_definition", span := start.spanTo next.stop }
                  (first ++ signature ++ body)
                match given (·.startsWith ";") (sym ";") next with
                | .fail o r k => .fail o r k
                | .done mark next => .done (decorators ++ method :: mark) next
            else
              let kind :=
                if first.any (·.kind == "abstract") then "abstract_method_signature"
                else "method_signature"
              let method := Tree.node { kind := kind, span := start.spanTo next.stop }
                (first ++ signature)
              match fieldEnd true next with
              | .fail o r k => .fail o r k
              | .done mark next => .done (decorators ++ method :: mark) next
        else
          match seq [g.maybeAnnotation, given (·.mark == "=") (g.initializer true)] next with
          | .fail o r k => .fail o r k
          | .done more next =>
            let field := Tree.node { kind := "public_field_definition", span := c.spanTo next.stop }
              (decorators ++ first ++ more)
            let assigned := more.any (·.head.field == some "value")
            match (if assigned && !next.startsWith "," then semicolon else fieldEnd true) next with
            | .fail o r k => .fail o r k
            | .done mark next => .done (field :: mark) next

def classMember : Items := fun c =>
  if c.startsWith ";" then sym ";" c
  else if atStaticBlock c then
    if g.dialect.types then one g.staticBlock c else fld "member" g.staticBlock c
  else if g.dialect.types then g.typedMember c
  else g.plainMember c

def classBody : Parser Tree :=
  node "class_body" (seq [sym "\x7b", untilThat (·.startsWith "\x7d") g.classMember, sym "\x7d"])

/-- The value that a class extends, with type arguments. -/
def extendedValue : Items :=
  seq [fld "value" (g.read (.callee true)), g.maybeTypeArguments]

/-- What a class extends and, where types are written, implements. -/
def heritage : Items :=
  if g.dialect.types then
    given (fun c => c.word == "extends" || c.word == "implements")
      (one (node "class_heritage" (seq
        [given (·.word == "extends")
          (one (node "extends_clause" (seq [kw "extends", commaSome g.extendedValue]))),
          given (·.word == "implements")
            (one (node "implements_clause"
              (seq [kw "implements", commaSome (one (g.read .type))])))])))
  else
    given (·.word == "extends")
      (one (node "class_heritage" (seq [kw "extends", one (g.read (.callee true))])))

def className : Items :=
  fld "name" (nameAs (if g.dialect.types then "type_identifier" else "identifier"))

def classRest : Items := seq [g.maybeTypeParameters, g.heritage, fld "body" g.classBody]

def atAbstractClass (c : Cursor) : Bool :=
  g.dialect.types && c.word == "abstract" && !c.afterWord.newline && c.afterWord.word == "class"

def classDeclaration (decorators : List Tree) (start : Cursor) : Parser Tree := fun c =>
  let isAbstract := g.atAbstractClass c
  let children := seq
    [given (fun _ => isAbstract) (kw "abstract"), kw "class", g.className, g.classRest]
  match children c with
  | .fail o r k => .fail o r k
  | .done ts next =>
    let kind := if isAbstract then "abstract_class_declaration" else "class_declaration"
    .done (.node { kind := kind, span := start.spanTo next.stop } (decorators ++ ts)) next

def classValue : Parser Tree :=
  node "class" (seq
    [g.decorators, kw "class",
      given (fun c => isName c.word && !(g.dialect.types && c.word == "implements")) g.className,
      g.classRest])

end Grammar

end Synopsis.Ecma
