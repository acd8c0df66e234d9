import Synopsis.Ecma.Outline
import Synopsis.Ecma.Parse
import Synopsis.Json.Reader
import Synopsis.Path
import Synopsis.Python.Outline
import Synopsis.Record
/-!
# Extraction

The extension of a file decides how its facts are found. A file of no known kind has none. Every
text gives a record: what cannot be read has a parse error in place of facts.
-/

namespace Synopsis

inductive SourceKind where
  | ecmascript | python | json | unsupported
  deriving DecidableEq, Repr

namespace SourceKind

def label : SourceKind → String
  | .ecmascript => "ecmascript"
  | .python => "python"
  | .json => "json"
  | .unsupported => "unsupported"

def ecmaExtensions : List String := [".js", ".mjs", ".cjs", ".jsx", ".ts", ".tsx"]

def ofExtension (extension : String) : SourceKind :=
  if ecmaExtensions.contains extension then .ecmascript
  else if extension == ".py" then .python
  else if extension == ".json" then .json
  else .unsupported

def ofPath (path : String) : SourceKind := ofExtension (Path.extension path)

end SourceKind

structure Extraction where
  facts : Facts := {}
  structure? : Option Json.Shape := none
  parseError : Option String := none
  tree : Option String := none

def extractJson (text : String) : Extraction :=
  match Json.parse text with
  | .ok value => { structure? := some (Json.Shape.ofDatum 0 value) }
  | .error fault => { parseError := some (fault.message text) }

/-- What a file may hold by its extension: types in the typed languages, and
markup in all but one of them. -/
def Ecma.Dialect.ofExtension (extension : String) : Ecma.Dialect :=
  { types := extension == ".ts" || extension == ".tsx", markup := extension != ".ts" }

/-- Why a parser gives no tree of a text: it broke down, in some way and perhaps with a reason. -/
structure Ecma.Breakdown where
  kind : String
  reason : String
  deriving DecidableEq, Repr

/-- The breakdown in words: its reason, or else its kind. -/
def Ecma.Breakdown.message (breakdown : Ecma.Breakdown) : String :=
  if breakdown.reason == "" then breakdown.kind else breakdown.reason

/-- What makes trees of texts. A parser may break down over a text. -/
abbrev Ecma.TreeParser := Ecma.Dialect → String → Except Ecma.Breakdown Ecma.Tree

/-- The parser of this library, which never breaks down. -/
def Ecma.treeParser : Ecma.TreeParser := fun dialect text => .ok (Ecma.parse dialect text)

/-- What is found in a text of an ECMAScript dialect; `withTree` asks for the syntax tree. -/
def extractEcma (parser : Ecma.TreeParser) (dialect : Ecma.Dialect) (withTree : Bool)
    (text : String) : Extraction :=
  match parser dialect text with
  | .error breakdown => { parseError := some breakdown.message }
  | .ok tree =>
    let shown := if withTree then some tree.bracketed else none
    match tree.firstError? with
    | some wrong => { parseError := some wrong.describeError, tree := shown }
    | none => { facts := Ecma.Outline.facts (.ofText text) tree, tree := shown }

def extractKind (parser : Ecma.TreeParser) (kind : SourceKind) (extension : String)
    (withTree : Bool) (text : String) : Extraction :=
  match kind with
  | .ecmascript => extractEcma parser (.ofExtension extension) withTree text
  | .python => { facts := Python.facts text }
  | .json => extractJson text
  | .unsupported => {}

/-- The record of a file from its path and its text, by some parser; `withTree` asks for its syntax
tree. -/
def extractFileBy (parser : Ecma.TreeParser) (path text : String) (withTree : Bool) : FileRecord :=
  let extension := Path.extension path
  let found := extractKind parser (SourceKind.ofPath path) extension withTree text
  { path := path, name := Path.baseName path, extension := extension,
    lines := (text.toList.count '\n' : Int) + 1, size := text.utf8ByteSize,
    facts := found.facts, structure? := found.structure?, parseError := found.parseError,
    tree := found.tree }

def extractFile (path text : String) (withTree : Bool) : FileRecord :=
  extractFileBy Ecma.treeParser path text withTree

end Synopsis
