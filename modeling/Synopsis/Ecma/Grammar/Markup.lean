import Synopsis.Ecma.Grammar.Basic
/-!
# Markup

Elements with attributes and children. Between a tag and the next one there are no comments: what
stands there is text, an element, a value between braces or a character reference. Blanks
with a line end among them are no text. The name of a closing tag is not compared with the opening
one.
-/

namespace Synopsis.Ecma

open Synopsis.Ecma.Parser

namespace Markup

def isNameChar (c : Char) : Bool := c.isAlphanum || c == '_' || c == '$' || c == '-'

def name (kind : String) : Parser Tree := fun c =>
  let plain := nameLength c
  let hyphened := match c.rest with
    | ch :: _ => if ch.isDigit || ch == '-' then 0 else (c.rest.takeWhile isNameChar).length
    | [] => 0
  let n := if plain < hyphened then hyphened else plain
  if n == 0 then fail c else token kind true n c

def qualifiedName (kind : String) : Parser Tree := fun c =>
  match name kind c with
  | .fail o r k => .fail o r k
  | .done t next =>
    if next.startsWith ":" then
      nodeFrom "jsx_namespace_name" (t.ofKind "identifier")
        (seq [sym ":", one (name "identifier")]) next
    else .done t next

def elementName : Parser Tree := fun c =>
  match qualifiedName "identifier" c with
  | .fail o r k => .fail o r k
  | .done t next =>
    growing (fun (t : Tree) c =>
      if c.startsWith "." then
        (do
          let t ← nodeFrom "member_expression" (t.inField "object")
            (seq [sym ".", fld "property" (wordAs "property_identifier")])
          return some t) c
      else .done none c) t next

def referenceLength? (cs : List Char) : Option Nat :=
  let isHex (c : Char) : Bool := Literal.isDigitOf 16 c
  let closed (start n least most : Nat) : Option Nat :=
    if least ≤ n && n ≤ most && (cs.drop (start + n)).head? == some ';' then some (start + n + 1)
    else none
  match cs with
  | '&' :: '#' :: x :: rest =>
    if x == 'x' || x == 'X' then closed 3 (rest.takeWhile isHex).length 1 6
    else closed 2 ((x :: rest).takeWhile Char.isDigit).length 1 5
  | '&' :: rest => closed 1 (rest.takeWhile Char.isAlpha).length 1 30
  | _ => none

/-- A character reference, without the blanks after it. -/
def reference : Items := fun c =>
  match referenceLength? c.rest with
  | some n => one (rawToken "html_character_reference" true n) c
  | none => fail c

def fragmentLength (quote : Char) : List Char → Nat
  | '&' :: d :: rest =>
    if d == '#' || d.isAlpha then 0
    else if d == '&' || d == quote then 1 + fragmentLength quote (d :: rest)
    else 2 + fragmentLength quote rest
  | c :: rest => if c == quote then 0 else 1 + fragmentLength quote rest
  | [] => 0

/-- A text between quotes as the value of an attribute. -/
def attributeText (quote : Char) : Parser Tree :=
  let text := String.ofList [quote]
  Literal.thenBlanks (node "string" (seq
    [one (rawToken text false 1),
      untilThat (·.startsWith text) (fun c =>
        let n := fragmentLength quote c.rest
        if n == 0 then reference c else one (rawToken "string_fragment" true n) c),
      one (rawToken text false 1)]))

/-- Whether a stretch of text is more than blanks around line ends. -/
def isText : Bool → List Char → Bool
  | _, [] => false
  | afterLine, c :: rest =>
    if c == '\n' then isText true rest
    else if afterLine && isSpace c then isText true rest
    else true

end Markup

namespace Grammar

open Markup

variable (g : Grammar)

/-- What stands between braces in markup, without the blanks after it. -/
def markupValue : Parser Tree :=
  node "jsx_expression" (seq
    [sym "\x7b", fun c =>
      if c.startsWith "\x7d" then .done [] c
      else if c.startsWith "..." then
        one (node "spread_element" (seq [sym "...", one g.value])) c
      else one g.values c,
      fun c => if c.startsWith "\x7d" then one (rawToken "\x7d" false 1) c else fail c])

def attributeValue : Parser Tree := fun c =>
  match c.head? with
  | some '"' => attributeText '"' c
  | some '\'' => attributeText '\'' c
  | some '\x7b' => Literal.thenBlanks g.markupValue c
  | some '<' => Literal.thenBlanks (g.read .element) c
  | _ => fail c

def elementAttribute : Parser Tree := fun c =>
  if c.startsWith "\x7b" then Literal.thenBlanks g.markupValue c
  else
    node "jsx_attribute" (seq
      [one (qualifiedName "property_identifier"),
        given (·.startsWith "=") (seq [sym "=", one g.attributeValue])]) c

/-- The name and the attributes in a tag. -/
def tagContent : Items :=
  seq
    [fld "name" elementName,
      given (fun c => g.dialect.types && c.startsWith "<") (fld "type_arguments" g.typeArguments),
      untilThat (fun c => c.startsWith ">" || c.startsWith "/")
        (fld "attribute" g.elementAttribute)]

def closingTag : Parser Tree :=
  node "jsx_closing_element" (seq
    [sym "</", given (!·.startsWith ">") (fld "name" elementName),
      fun c => if c.startsWith ">" then one (rawToken ">" false 1) c else fail c])

def markupChild : Items := fun c =>
  match c.head? with
  | some '<' => one (g.read .element) c
  | some '\x7b' => one g.markupValue c
  | some '&' => reference c
  | some '>' => fail c
  | some '\x7d' => fail c
  | none => fail c
  | some _ =>
    let text := c.rest.takeWhile fun ch => !(['<', '>', '\x7b', '\x7d', '&'].contains ch)
    if isText false text then one (rawToken "jsx_text" true text.length) c
    else .done [] (c.steps text.length)

/-- A markup element, without the blanks after it. -/
def element : Parser Tree := fun c =>
  match seq [sym "<", given (!·.startsWith ">") g.tagContent] c with
  | .fail o r k => .fail o r k
  | .done ts next =>
    if next.startsWith "/>" then
      match rawToken "/>" false 2 next with
      | .fail o r k => .fail o r k
      | .done mark next =>
        .done (.node { kind := "jsx_self_closing_element", span := c.spanTo next.stop }
          (ts ++ [mark])) next
    else if next.startsWith ">" then
      match rawToken ">" false 1 next with
      | .fail o r k => .fail o r k
      | .done mark next =>
        let opening := Tree.node
          { kind := "jsx_opening_element", field := some "open_tag", span := c.spanTo next.stop }
          (ts ++ [mark])
        nodeFrom "jsx_element" opening
          (seq [untilThat (·.startsWith "</") g.markupChild, fld "close_tag" closingTag]) next
    else fail next

end Grammar

end Synopsis.Ecma
