import Synopsis.Path
import Synopsis.Text.Lines
/-!
# Categories of files

A file belongs to one of six categories, told from its path alone. Test files come first: by a
mark in the name, or by a directory of tests *below the root*; then the suffix and the name
decide. Reading the contents is not part of it.
-/

namespace Synopsis

/-- The categories, in the order in which they are listed. -/
inductive Category where
  | code | config | docs | tests | assets | other
  deriving DecidableEq, Repr

namespace Category

def all : List Category := [.code, .config, .docs, .tests, .assets, .other]

def label : Category → String
  | .code => "code"
  | .config => "config"
  | .docs => "docs"
  | .tests => "tests"
  | .assets => "assets"
  | .other => "other"

def codeSuffixes : List String :=
  [".js", ".mjs", ".cjs", ".ts", ".jsx", ".tsx", ".py", ".rb", ".go", ".java", ".c", ".cpp", ".rs"]

/-- Names of configuration files; a file whose name holds one is configuration. -/
def configNames : List String :=
  ["package.json", "tsconfig.json", ".eslintrc", ".prettierrc", "webpack.config.js",
    "vite.config.js", "pyproject.toml", "setup.cfg", "tox.ini", ".babelrc"]

def configSuffixes : List String := [".json", ".yaml", ".yml"]

def docSuffixes : List String := [".md", ".txt", ".rst", ".adoc"]

def assetSuffixes : List String :=
  [".png", ".jpg", ".jpeg", ".gif", ".svg", ".ico", ".woff", ".woff2", ".ttf"]

def testMarks : List String := [".test.", ".spec."]

def testDirectories : List String := ["test", "tests", "__tests__"]

def holdsAny (name : String) (texts : List String) : Bool :=
  texts.any fun t => Text.occursIn t.toList name.toList

/-- The path below the root, when there is a root. -/
def belowRoot (working : String) (root : Option String) (path : String) : String :=
  match root with
  | none => path
  | some root => (Path.relative? working (Path.pure path) root).getD path

def isTest (working : String) (root : Option String) (path : String) : Bool :=
  holdsAny (Path.fileName path) testMarks ||
    let below := belowRoot working root path
    let parts := (if Path.anchor below == "" then [] else [Path.anchor below]) ++ Path.parts below
    parts.dropLast.any (testDirectories.contains ·)

def ofPath (working : String) (root : Option String) (path : String) : Category :=
  let suffix := Path.suffix path
  if isTest working root path then .tests
  else if codeSuffixes.contains suffix then .code
  else if holdsAny (Path.fileName path) configNames || configSuffixes.contains suffix then .config
  else if docSuffixes.contains suffix then .docs
  else if assetSuffixes.contains suffix then .assets
  else .other

/-- The paths of each category, in their order. -/
def group (working : String) (root : Option String) (paths : List String) :
    List (Category × List String) :=
  all.map fun category => (category, paths.filter fun p => ofPath working root p == category)

end Category

end Synopsis
