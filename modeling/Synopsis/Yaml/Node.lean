import Synopsis.Yaml.Token
/-!
# Nodes

The tokens of a document make one node: a text, a list or a table, perhaps with a tag. An anchor
gives a node a name and an alias repeats it; an alias that stands inside the node it repeats
stays one.
-/

namespace Synopsis.Yaml

inductive Node where
  /-- A text; a plain one without a tag stands for what it looks like. -/
  | text (tag : Option String) (isPlain : Bool) (content : String)
  | list (tag : Option String) (items : List Node)
  | table (tag : Option String) (fields : List (Node × Node))
  /-- A node around this one. -/
  | alias (name : String)
  deriving Inhabited

/-- Where nothing is written. -/
def Node.empty : Node := .text none true ""

/-- Tokens that are still to be read, with the names that are known so far. -/
structure Feed where
  tokens : List Token
  /-- The fault after the last token, if there is one. -/
  ending : Option Fault
  /-- Handles of tags with the addresses they stand for. -/
  handles : List (String × String)
  /-- Finished nodes by their anchors. -/
  anchors : List (String × Node) := []
  /-- Anchors of nodes that are being read. -/
  opened : List String := []

abbrev Reading (α : Type) := StateT Feed (Except Fault) α

namespace Reading

def refuse {α : Type} : Reading α := throw .malformed

def peek : Reading Token := do
  let f ← get
  match f.tokens with
  | t :: _ => return t
  | [] => throw (f.ending.getD .malformed)

def skip : Reading Unit := modify fun f => { f with tokens := f.tokens.tail }

def sees (t : Token) : Reading Bool := do return (← peek) == t

def seesAny (ts : List Token) : Reading Bool := do return ts.contains (← peek)

/-- A node, or an empty one before some tokens. -/
def orEmpty (stops : List Token) (child : Reading Node) : Reading Node := do
  if ← seesAny stops then return .empty else child

/-- The anchor and the tag before a node, in either order. -/
def properties : Reading (Option String × Option (Option String × String)) := do
  match ← peek with
  | .anchor name =>
    skip
    match ← peek with
    | .tag handle suffix => skip; return (some name, some (handle, suffix))
    | _ => return (some name, none)
  | .tag handle suffix =>
    skip
    match ← peek with
    | .anchor name => skip; return (some name, some (handle, suffix))
    | _ => return (none, some (handle, suffix))
  | _ => return (none, none)

def fullTag : Option String × String → Reading String
  | (none, suffix) => return suffix
  | (some handle, suffix) => do
    match (← get).handles.lookup handle with
    | some address => return address ++ suffix
    | none => refuse

/-- The items of a list that indentation opened, at most `fuel`. -/
def blockItems (child : Reading Node) : Nat → List Node → Reading (List Node)
  | 0, _ => refuse
  | fuel + 1, taken => do
    match ← peek with
    | .item =>
      skip
      let t ← orEmpty [.item, .blockEnd] child
      blockItems child fuel (t :: taken)
    | .blockEnd => skip; return taken.reverse
    | _ => refuse

/-- The items of a list in a table, which may stand below their name, at most `fuel`. -/
def looseItems (child : Reading Node) : Nat → List Node → Reading (List Node)
  | 0, _ => refuse
  | fuel + 1, taken => do
    if ← sees .item then
      skip
      let t ← orEmpty [.item, .key, .value, .blockEnd] child
      looseItems child fuel (t :: taken)
    else return taken.reverse

/-- The value after a name in a table, before some tokens. -/
def fieldValue (stops : List Token) (child : Reading Node) : Reading Node := do
  if ← sees .value then
    skip
    orEmpty stops child
  else return .empty

/-- The fields of a table that indentation opened, at most `fuel`. -/
def blockFields (child : Reading Node) :
    Nat → List (Node × Node) → Reading (List (Node × Node))
  | 0, _ => refuse
  | fuel + 1, taken => do
    match ← peek with
    | .key =>
      skip
      let name ← orEmpty [.key, .value, .blockEnd] child
      let value ← fieldValue [.key, .value, .blockEnd] child
      blockFields child fuel ((name, value) :: taken)
    | .blockEnd => skip; return taken.reverse
    | _ => refuse

def separator (isFirst : Bool) : Reading Unit := do
  if !isFirst then
    if ← sees .comma then skip else refuse

/-- The items of a list in brackets, at most `fuel`. -/
def flowItems (child : Reading Node) : Nat → List Node → Reading (List Node)
  | 0, _ => refuse
  | fuel + 1, taken => do
    if ← sees .closeList then skip; return taken.reverse
    separator taken.isEmpty
    match ← peek with
    | .closeList => skip; return taken.reverse
    | .key =>
      skip
      let name ← orEmpty [.value, .comma, .closeList] child
      let value ← fieldValue [.comma, .closeList] child
      flowItems child fuel (.table none [(name, value)] :: taken)
    | _ =>
      let t ← child
      flowItems child fuel (t :: taken)

/-- The fields of a table in braces, at most `fuel`. -/
def flowFields (child : Reading Node) :
    Nat → List (Node × Node) → Reading (List (Node × Node))
  | 0, _ => refuse
  | fuel + 1, taken => do
    if ← sees .closeTable then skip; return taken.reverse
    separator taken.isEmpty
    match ← peek with
    | .closeTable => skip; return taken.reverse
    | .key =>
      skip
      let name ← orEmpty [.value, .comma, .closeTable] child
      let value ← fieldValue [.comma, .closeTable] child
      flowFields child fuel ((name, value) :: taken)
    | _ =>
      let name ← child
      flowFields child fuel ((name, .empty) :: taken)

/-- Notes the anchor of a node that is about to be read. -/
def openAnchor : Option String → Reading Unit
  | none => return ()
  | some name => do
    let f ← get
    if f.opened.contains name || (f.anchors.lookup name).isSome then refuse
    set { f with opened := name :: f.opened }

/-- Gives a node that was read to its anchor. -/
def closeAnchor (anchor : Option String) (t : Node) : Reading Node := do
  match anchor with
  | none => return t
  | some name =>
    modify fun f =>
      { f with anchors := (name, t) :: f.anchors, opened := f.opened.filter (· != name) }
    return t

def repeated (name : String) : Reading Node := do
  let f ← get
  match f.anchors.lookup name with
  | some t => return t
  | none => if f.opened.contains name then return .alias name else refuse

/-- The node after its anchor and its tag. In a block, `child` reads the nodes inside it. -/
def content (child : Bool → Bool → Reading Node) (block loose named : Bool) (tag : Option String) :
    Reading Node := do
  let own := tag.filter (· != "!")
  let fuel := (← get).tokens.length + 1
  match ← peek with
  | .text isPlain s => skip; return .text own ((isPlain && tag.isNone) || tag == some "!") s
  | .openList => skip; return .list own (← flowItems (child false false) fuel [])
  | .openTable => skip; return .table own (← flowFields (child false false) fuel [])
  | t =>
    if loose && t == .item then return .list own (← looseItems (child true false) fuel [])
    else if block && t == .listStart then
      skip
      return .list own (← blockItems (child true false) fuel [])
    else if block && t == .tableStart then
      skip
      return .table own (← blockFields (child true true) fuel [])
    else if named then return .text own own.isNone ""
    else refuse

/-- A node with at most `depth` others around those in it. `block` tells whether indentation may
open it, and `loose` whether the items of a list may follow without that. -/
def node : Nat → Bool → Bool → Reading Node
  | 0, _, _ => throw .nesting
  | depth + 1, block, loose => do
    match ← peek with
    | .alias name => skip; repeated name
    | _ =>
      let (anchor, tag) ← properties
      let tag ← match tag with
        | none => pure none
        | some t => some <$> fullTag t
      openAnchor anchor
      let t ← content (node depth) block loose (anchor.isSome || tag.isSome) tag
      closeAnchor anchor t

def depthLimit : Nat := 480

def knownHandles : List (String × String) := [("!", "!"), ("!!", "tag:yaml.org,2002:")]

/-- The directives before a document, at most `fuel`, with what was said by earlier ones. -/
def directives : Nat → Bool → List (String × String) → Reading (List (String × String))
  | 0, _, _ => refuse
  | fuel + 1, versioned, handles => do
    match ← peek with
    | .directive d =>
      skip
      match d with
      | .version major => if versioned || major != 1 then refuse else directives fuel true handles
      | .handle name address =>
        if (handles.lookup name).isSome then refuse
        else directives fuel versioned ((name, address) :: handles)
      | .other => directives fuel versioned handles
    | _ => return handles

/-- The node of a document after its start, or an empty one. -/
def documentBody : Reading Node := do
  match ← peek with
  | .directive _ => return .empty
  | t =>
    if [Token.documentStart, .documentEnd, .finish].contains t then return .empty
    else node depthLimit true false

/-- Passes over the marks that end a document, at most `fuel`. -/
def skipEnds : Nat → Reading Unit
  | 0 => refuse
  | fuel + 1 => do
    if ← sees .documentEnd then
      skip
      skipEnds fuel

/-- The only document of a text; none if it holds none. -/
def document : Reading (Option Node) := do
  let fuel := (← get).tokens.length + 1
  if ← sees .finish then return none
  let explicit ← match ← peek with
    | .directive _ => pure true
    | t => pure (t == .documentStart)
  let t ←
    if explicit then do
      let handles ← directives fuel false []
      modify fun f => { f with handles := handles ++ knownHandles }
      if ← sees .documentStart then
        skip
        documentBody
      else refuse
    else node depthLimit true false
  skipEnds fuel
  if ← sees .finish then return some t else refuse

end Reading

/-- The node of a text; none if it holds nothing. Nodes with their anchors are given along, for the
aliases that stand inside them. -/
def read (text : String) : Except Fault (Option Node × List (String × Node)) :=
  let (ts, fault) := tokens text
  match (Reading.document.run
    { tokens := ts, ending := fault, handles := Reading.knownHandles }) with
  | .ok (t, f) => .ok (t, f.anchors)
  | .error e => .error e

end Synopsis.Yaml
