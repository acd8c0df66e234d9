import Synopsis.Ecma.Grammar.Module
/-!
# Reading a text

A text is read as a program. Comments are put into the innermost node around them. What cannot be
read to its end is a program with an error node where the reading stopped.
-/

namespace Synopsis.Ecma

open Synopsis.Ecma.Parser

namespace Tree

mutual
/-- A tree with comments put where they stand in it. -/
def withComments (comments : List Tree) : Tree → Tree
  | .node head children => .node head (weave comments children)

/-- Consecutive children with the comments among and inside them. -/
def weave (comments : List Tree) : List Tree → List Tree
  | [] => comments
  | t :: ts =>
    let (earlier, rest) := comments.span (·.span.start < t.span.start)
    let (inside, later) := rest.span (·.span.start < t.span.stop)
    earlier ++ withComments inside t :: weave later ts
end

end Tree

/-- The line at the top of a text that names what runs it. -/
def runnerLine : Items := fun c =>
  if c.startsWith "#!" then
    one (token "hash_bang_line" true (c.rest.takeWhile (· != '\n')).length) c
  else .done [] c

def program (dialect : Dialect) (fuel : Nat) : Parser Tree :=
  node "program"
    (seq [runnerLine, linesUntil Cursor.atEnd (one (readRule dialect fuel .statement))])

/-- A program with an error node at one place. -/
def failedProgram (stop offset row column : Nat) : Tree :=
  .node { kind := "program", span := ⟨0, stop, 0, 0⟩ }
    [.node { kind := "ERROR", span := ⟨offset, stop, row, column⟩ } []]

def parse (dialect : Dialect) (text : String) : Tree :=
  let cs := text.toList
  let size := text.utf8ByteSize
  match program dialect (16 * (cs.length + 8)) (Cursor.ofText cs).toNextToken with
  | .fail offset row column => failedProgram size offset row column
  | .done t last =>
    match t.nodes.find? (·.kind == "cover_initializer") with
    | some wrong => failedProgram size wrong.span.start wrong.span.row wrong.span.column
    | none => t.withComments last.comments.reverse

namespace Tree

mutual
/-- The named nodes of a tree in brackets, each child after the name of its field. -/
def bracketed : Tree → String
  | .node head children => "(" ++ head.kind ++ bracketedAll children ++ ")"

def bracketedAll : List Tree → String
  | [] => ""
  | t :: ts =>
    let field := match t.head.field with
      | some name => name ++ ": "
      | none => ""
    (if t.head.named then " " ++ field ++ bracketed t else "") ++ bracketedAll ts
end

end Tree

end Synopsis.Ecma
