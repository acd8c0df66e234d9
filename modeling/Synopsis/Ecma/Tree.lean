import Synopsis.Text.Printable
import Synopsis.Text.Utf8
/-!
# Syntax trees

A node has a kind, perhaps a field name in its parent, a place in the source, and children. Tokens
such as keywords and punctuation are nodes that are not named. The nodes are listed in
document order by `Tree.nodes`; a tree has an error if some node of it is an error node, is
missing from the source, or is flagged.
-/

namespace Synopsis.Ecma

/-- Where a node stands: its bytes, and the row and column (in bytes) of its start, from zero on. -/
structure Span where
  start : Nat
  stop : Nat
  row : Nat
  column : Nat
  deriving DecidableEq, Repr, Inhabited

/-- What a node is, apart from its children. -/
structure Head where
  kind : String
  field : Option String := none
  span : Span
  named : Bool := true
  missing : Bool := false
  flagged : Bool := false
  deriving DecidableEq, Repr, Inhabited

inductive Tree where
  | node (head : Head) (children : List Tree)
  deriving Repr, Inhabited

namespace Tree

def head : Tree → Head
  | .node head _ => head

def children : Tree → List Tree
  | .node _ children => children

def kind (t : Tree) : String := t.head.kind

def span (t : Tree) : Span := t.head.span

def namedChildren (t : Tree) : List Tree := t.children.filter (·.head.named)

def field? (name : String) (t : Tree) : Option Tree :=
  t.children.find? (·.head.field == some name)

def line (t : Tree) : Nat := t.span.row + 1

mutual
/-- All nodes of a tree, each before its children, and children from left to right. -/
def nodes : Tree → List Tree
  | .node head children => .node head children :: nodesOf children

def nodesOf : List Tree → List Tree
  | [] => []
  | t :: ts => nodes t ++ nodesOf ts
end

theorem nodes_eq (t : Tree) : t.nodes = t :: nodesOf t.children := by
  cases t with
  | node head children => rw [nodes, Tree.children]

theorem nodesOf_eq_flatMap (ts : List Tree) : nodesOf ts = ts.flatMap nodes := by
  induction ts with
  | nil => rfl
  | cons t ts ih => rw [nodesOf, ih, List.flatMap_cons]

/-- One turn of a walk: what is on top of the stack is taken, and its children are put there, the
first of them on top. -/
def walkTurn (stack : Array Tree) : Option (Tree × Array Tree) :=
  stack.back?.map fun t => (t, stack.pop ++ t.children.reverse)

/-- What is left to walk, from the top of the stack on. -/
def ahead (stack : Array Tree) : List Tree := nodesOf stack.toList.reverse

/-- Every turn takes the next node of what is left. -/
theorem ahead_of_walkTurn {stack rest : Array Tree} {t : Tree}
    (turn : walkTurn stack = some (t, rest)) : ahead stack = t :: ahead rest := by
  obtain ⟨top, found, same⟩ := Option.map_eq_some_iff.mp turn
  obtain ⟨below, rfl⟩ := Array.back?_eq_some_iff.mp found
  cases same
  simp [ahead, nodesOf_eq_flatMap, nodes_eq]

theorem length_ahead_lt {stack rest : Array Tree} {t : Tree}
    (turn : walkTurn stack = some (t, rest)) : (ahead rest).length < (ahead stack).length := by
  rw [ahead_of_walkTurn turn, List.length_cons]
  exact Nat.lt_succ_self _

/-- Walks on until the stack is empty, after the nodes that were visited already. -/
def walkFrom (stack visited : Array Tree) : Array Tree :=
  match h : walkTurn stack with
  | none => visited
  | some (t, rest) =>
    have := length_ahead_lt h
    walkFrom rest (visited.push t)
termination_by (ahead stack).length

/-- The nodes of a tree in the order of a walk with a stack. -/
def walk (t : Tree) : List Tree := (walkFrom #[t] #[]).toList

def firstBelow? (kind : String) (t : Tree) : Option Tree :=
  (t.walk.drop 1).find? (·.kind == kind)

/-- Whether the root node itself is an error, missing or flagged. -/
def isFlawed (t : Tree) : Bool := t.head.flagged || t.kind == "ERROR" || t.head.missing

mutual
def hasError : Tree → Bool
  | .node head children => isFlawed (.node head children) || anyError children

def anyError : List Tree → Bool
  | [] => false
  | t :: ts => hasError t || anyError ts
end

mutual
/-- From a node with an error, the way down through the first children that have one, to the
first error node, missing node, or node whose children have none. -/
def blame : Tree → Tree
  | .node head children =>
    if head.kind == "ERROR" || head.missing then .node head children
    else (blameAmong children).getD (.node head children)

/-- The node to blame in the first of some trees that has an error. -/
def blameAmong : List Tree → Option Tree
  | [] => none
  | t :: ts => if hasError t then some (blame t) else blameAmong ts
end

/-- The node that is reported for a tree with an error. -/
def firstError? (t : Tree) : Option Tree := if hasError t then some (blame t) else none

def describeError (t : Tree) : String :=
  let place := s!"at line {t.span.row + 1}, column {t.span.column + 1}"
  if t.head.missing then s!"Missing {Text.quoted t.kind} {place}" else s!"Unexpected token {place}"

def inField (name : String) : Tree → Tree
  | .node head children => .node { head with field := some name } children

def ofKind (kind : String) : Tree → Tree
  | .node head children => .node { head with kind := kind } children

end Tree

structure Source where
  bytes : ByteArray

namespace Source

def ofText (s : String) : Source := ⟨s.toUTF8⟩

/-- The text between two bytes; what is not well formed there is replaced. -/
def slice (source : Source) (start stop : Nat) : String :=
  Text.Utf8.decodeReplacing (source.bytes.extract start stop).toList

def text (source : Source) (t : Tree) : String := source.slice t.span.start t.span.stop

def pointAt (source : Source) (offset : Nat) : Nat × Nat :=
  (source.bytes.extract 0 offset).toList.foldl
    (fun (row, column) (b : UInt8) => if b == 10 then (row + 1, 0) else (row, column + 1)) (0, 0)

end Source

end Synopsis.Ecma
