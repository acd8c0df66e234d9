import Synopsis.Category
import Synopsis.Manifest
import Synopsis.Scan
/-!
# Facts about a project

What is known of a project without reading its source files: how many files of which extension are
in which directory, what they weigh together, the directories, what the manifests declare, where the
project is entered and the tech stack. The list of files is given; paths that lead through links are
described by the places they lead to.
-/

namespace Synopsis

structure ProjectFacts where
  name : String
  root : String
  files : List String
  total : Int
  byExtension : Table Int
  byDirectory : Table Int
  totalSize : Int
  categories : Table (List String)
  directories : List String
  /-- The number of names in the longest path. -/
  depth : Int
  dependencies : Dependencies
  entryPoints : List String
  techStack : List String

namespace Project

inductive Fault where
  | disk (fault : Disk.Fault)
  | manifest (fault : Manifest.Fault)
  deriving DecidableEq, Repr

def Fault.message : Fault → String
  | .disk fault => fault.message
  | .manifest fault => fault.message

/-- Under what files without an extension are counted. -/
def noExtension : String := "(no extension)"

/-- Under what the files of the root itself are counted. -/
def rootDirectory : String := "."

/-- Paths at which projects are usually entered. -/
def usualEntryPoints : List String :=
  ["index.js", "index.ts", "main.js", "main.ts", "app.js", "app.ts", "server.js", "server.ts",
    "src/index.js", "src/index.ts", "src/main.js", "src/main.ts", "src/app.js", "src/app.ts",
    "main.py", "app.py", "__main__.py", "cmd/main.go", "main.go"]

/-! ## Paths below the root -/

/-- What is left of a place below a root. -/
def below? : Location → Location → Option Location
  | [], place => some place
  | x :: root, y :: place => if x = y then below? root place else none
  | _ :: _, [] => none

/-- A path by text alone, as the way from the root to it. -/
def textualWay (w : Workspace) (root : Location) (path : String) : Except Disk.Fault String :=
  match Path.relative? w.workingText path (Location.text root) with
  | some way => .ok (Path.pure way)
  | none => .error .emptyPath

/-- The way from the root to the place that a path names. Outside the root, and for what names no
place, the way is found by text alone. -/
def wayFrom (w : Workspace) (root : Location) (path : String) : Except Disk.Fault String :=
  match Disk.resolve w.disk w.working (Path.pure path) with
  | .ok place =>
    match below? root place with
    | some [] => .ok "."
    | some rest => .ok (Text.join "/" rest)
    | none => textualWay w root path
  | .error .nullCharacter => textualWay w root path
  | .error e => .error e

/-! ## Counts -/

/-- The extension under which a file is counted. -/
def extensionOf (path : String) : String :=
  let extension := Path.extension path
  if extension == "" then noExtension else extension

/-- The directory under which a file is counted: the first name of its way, if there is another. -/
def directoryOf (way : String) : String :=
  match Path.segments way with
  | first :: _ :: _ => first
  | _ => rootDirectory

def tallies (names : List String) : Table Int :=
  names.foldl (fun table name => Table.tally name table) []

/-- The bytes of a file; a file that cannot be looked up has none. -/
def sizeOf (w : Workspace) (path : String) : Except Disk.Fault Nat :=
  match w.entryOf path with
  | .ok entry => .ok entry.size
  | .error .nullCharacter => .error .nullCharacter
  | .error _ => .ok 0

def directoriesOf (way : String) : List String :=
  let names := Path.segments way
  (List.range (names.length - 1)).map fun n => Text.join "/" (names.take (n + 1))

def allDirectories (ways : List String) : List String :=
  Scan.sorted (ways.flatMap directoriesOf).eraseDups

/-- The number of names in the longest way. -/
def depthOf (ways : List String) : Nat :=
  ways.foldl (fun depth way => max depth (Path.segments way).length) 0

/-! ## Entry points -/

/-- A declared target in normal form, with slashes alone; none if that is the root itself. -/
def normalTarget? (target : String) : Option String :=
  let slashed := String.ofList (target.toList.map fun c => if c == '\\' then '/' else c)
  let normal := Path.normal slashed
  if normal == "." then none else some normal

/-- The usual entry points among the ways, then the declared targets, each once. -/
def entryPoints (ways targets : List String) : List String :=
  (usualEntryPoints.filter (ways.contains ·) ++ targets.filterMap normalTarget?).eraseDups

def manifestsIn (w : Workspace) (root : Location) : Manifests :=
  let bytes (name : String) := (w.contentOf (Location.text (root ++ [name]))).toOption
  { package := bytes Manifest.packageName
    requirements := bytes Manifest.requirementsName
    project := bytes Manifest.projectName }

def lift {ε α : Type} (wrap : ε → Fault) (result : Except ε α) : Except Fault α :=
  result.mapError wrap

/-- The facts about the project at a root with the given files. -/
def facts (w : Workspace) (root : Location) (files : List String) : Except Fault ProjectFacts := do
  let ways ← lift .disk (files.mapM (wayFrom w root))
  let sizes ← lift .disk (files.mapM (sizeOf w))
  let manifests := manifestsIn w root
  let dependencies ← lift .manifest (Manifest.dependencies manifests)
  let package ← lift .manifest (Manifest.packageFields manifests)
  let byExtension := tallies (files.map extensionOf)
  return {
    name := root.getLast?.getD ""
    root := Location.text root
    files := files
    total := files.length
    byExtension := byExtension
    byDirectory := tallies (ways.map directoryOf)
    totalSize := (sizes.foldl Nat.add 0 : Nat)
    categories := (Category.group w.workingText (some (Location.text root)) files).map
      fun (category, paths) => (category.label, paths)
    directories := allDirectories ways
    depth := depthOf ways
    dependencies := dependencies
    entryPoints := entryPoints ways (Manifest.targets package)
    techStack := Stack.detect Stack.rules byExtension.names dependencies }

end Project

end Synopsis
