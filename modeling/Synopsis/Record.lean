import Synopsis.Json.Shape
import Synopsis.Text.Lines
/-!
# What is recorded of a file

The facts found in one source file, and the record of a file with its path, its size and either
facts, the shape of a document or a parse error. Reports name a function with its parameters and
marks, and a class with the class that it extends.
-/

namespace Synopsis

inductive BindingKind where
  | default | named | namespace
  deriving DecidableEq, Repr

def BindingKind.label : BindingKind → String
  | .default => "default"
  | .named => "named"
  | .namespace => "namespace"

/-- A name that an import binds; a named binding also has the name it has in its module. -/
structure Binding where
  kind : BindingKind
  name : String
  imported : Option String := none
  deriving DecidableEq, Repr

structure ImportRecord where
  source : String
  line : Nat
  bindings : List Binding := []
  deriving DecidableEq, Repr

inductive ExportKind where
  | default | function | «class» | variable | reexport
  /-- A kind of another name, from a record made elsewhere. -/
  | other (label : String)
  deriving DecidableEq, Repr

def ExportKind.label : ExportKind → String
  | .default => "default"
  | .function => "function"
  | .class => "class"
  | .variable => "variable"
  | .reexport => "reexport"
  | .other label => label

def ExportKind.ofLabel (label : String) : ExportKind :=
  match label with
  | "default" => .default
  | "function" => .function
  | "class" => .class
  | "variable" => .variable
  | "reexport" => .reexport
  | label => .other label

structure ExportRecord where
  kind : ExportKind
  name : String
  line : Nat
  deriving DecidableEq, Repr

structure FunctionRecord where
  name : String
  params : List String
  line : Nat
  isAsync : Bool := false
  isGenerator : Bool := false
  isArrow : Bool := false
  isMethod : Bool := false
  exported : Bool := false
  deriving DecidableEq, Repr

inductive MethodKind where
  | constructor | method | getter | setter
  deriving DecidableEq, Repr

def MethodKind.label : MethodKind → String
  | .constructor => "constructor"
  | .method => "method"
  | .getter => "getter"
  | .setter => "setter"

/-- The kind of a word; a word of no kind is a plain method. -/
def MethodKind.ofLabel (label : String) : MethodKind :=
  match label with
  | "constructor" => .constructor
  | "getter" => .getter
  | "setter" => .setter
  | _ => .method

structure MethodRecord where
  name : String
  kind : MethodKind
  isStatic : Bool := false
  deriving DecidableEq, Repr

structure ClassRecord where
  name : String
  line : Nat
  superclass : Option String := none
  methods : List MethodRecord := []
  exported : Bool := false
  deriving DecidableEq, Repr

/-- A variable that holds no function; `kind` is the word that declares it. -/
structure VariableRecord where
  name : String
  line : Nat
  kind : Option String := none
  deriving DecidableEq, Repr

inductive CommentKind where
  | line | block
  deriving DecidableEq, Repr

def CommentKind.label : CommentKind → String
  | .line => "line"
  | .block => "block"

/-- A comment with the bytes it spans. -/
structure CommentRecord where
  kind : CommentKind
  text : String
  start : Nat
  stop : Nat
  deriving DecidableEq, Repr

structure Facts where
  imports : List ImportRecord := []
  exports : List ExportRecord := []
  functions : List FunctionRecord := []
  classes : List ClassRecord := []
  «variables» : List VariableRecord := []
  comments : List CommentRecord := []
  deriving DecidableEq, Repr

/-- The record of a file. `tree` is the syntax tree as text, if it was asked for. -/
structure FileRecord where
  path : String
  name : String
  extension : String
  lines : Int
  size : Int
  facts : Facts := {}
  structure? : Option Json.Shape := none
  parseError : Option String := none
  tree : Option String := none

/-! ## Signatures -/

def FunctionRecord.call (f : FunctionRecord) : String :=
  f.name ++ "(" ++ Text.join ", " f.params ++ ")"

def FunctionRecord.marks (f : FunctionRecord) : List String :=
  (if f.isAsync then ["async"] else []) ++ (if f.exported then ["exported"] else [])

/-- The marks of a function, with the one of arrow functions. -/
def FunctionRecord.allMarks (f : FunctionRecord) : List String :=
  f.marks ++ if f.isArrow then ["arrow"] else []

/-- Marks between an opening and a closing text, after a blank; nothing if there are none. -/
def enclosedMarks (opening closing : String) (marks : List String) : String :=
  if marks.isEmpty then "" else " " ++ opening ++ Text.join ", " marks ++ closing

def FunctionRecord.signature (f : FunctionRecord) : String :=
  f.call ++ enclosedMarks "[" "]" f.allMarks

def ClassRecord.signature (c : ClassRecord) : String :=
  match c.superclass with
  | none => c.name
  | some parent => if parent == "" then c.name else c.name ++ " extends " ++ parent

end Synopsis
