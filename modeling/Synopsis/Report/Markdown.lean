import Synopsis.Project
import Synopsis.Record
import Synopsis.Size
import Synopsis.Table
/-!
# Reports in Markdown

A report about a project and some of its files, as a list of lines that each end in a newline. Parts
without items are left away as a whole. A list that is longer than its limit ends with a line that
says how many items are left. Texts from the project stand in the report as they are.
-/

namespace Synopsis.Markdown

/-- A file of the report: its record, its content and a summary if there is one. -/
structure FileDoc where
  record : FileRecord
  content : String := ""
  summary : Option String := none

inductive Fault where
  | size (fault : SizeOverflow)
  /-- A file has no path. -/
  | emptyPath
  deriving DecidableEq, Repr

def Fault.message : Fault → String
  | .size fault => fault.message
  | .emptyPath => "no path specified"

/-- The language of the code in a file by its extension, as code blocks name it. -/
def language (extension : String) : String :=
  match extension with
  | ".js" => "javascript"
  | ".jsx" => "jsx"
  | ".ts" => "typescript"
  | ".tsx" => "tsx"
  | ".py" => "python"
  | ".rb" => "ruby"
  | ".go" => "go"
  | ".rs" => "rust"
  | ".java" => "java"
  | ".c" => "c"
  | ".cpp" => "cpp"
  | ".json" => "json"
  | ".yaml" => "yaml"
  | ".yml" => "yaml"
  | ".md" => "markdown"
  | _ => ""

/-- Lines that are left away when a condition does not hold. -/
def linesIf (condition : Bool) (lines : List String) : List String :=
  if condition then lines else []

/-- The first items up to a limit, one a line, and a line for how many are left. -/
def limited {α : Type} (limit : Nat) (line : α → String) (more : Nat → String) (items : List α) :
    List String :=
  (items.take limit).map line ++
    linesIf (decide (limit < items.length)) [more (items.length - limit)]

/-- A heading with lines under it; nothing if there are none. -/
def block (heading : String) (lines : List String) : List String :=
  linesIf (!lines.isEmpty) ([heading, ""] ++ lines ++ [""])

/-! ## The project -/

def opening (name generatedAt : String) : List String :=
  ["# " ++ name, "", "> Auto-generated documentation by **briefly**",
    "> Generated: " ++ generatedAt, "", "## Table of Contents", "", "- [Overview](#overview)",
    "- [Tech Stack](#tech-stack)", "- [Project Structure](#project-structure)",
    "- [Dependencies](#dependencies)", "- [File Documentation](#file-documentation)", ""]

def countOf (facts : ProjectFacts) (category : Category) : Nat :=
  ((Table.get? category.label facts.categories).getD []).length

def overview (facts : ProjectFacts) (summary : Option String) (size : String) : List String :=
  let sentence := s!"{facts.name} is a project containing {facts.total} files."
  let text := summary.getD ""
  ["## Overview", "", if text == "" then sentence else text, "", "### Quick Stats", "",
    "| Metric | Value |", "|--------|-------|", s!"| Total Files | {facts.total} |",
    s!"| Total Size | {size} |", s!"| Directory Depth | {facts.depth} |",
    s!"| Source Files | {countOf facts .code} |", s!"| Test Files | {countOf facts .tests} |", ""]

/-- A directory at its depth in the tree. -/
def treeLine (directory : String) : String :=
  let names := Path.segments directory
  String.ofList (List.replicate (2 * names.length) ' ') ++ "├── " ++ names.getLast?.getD "" ++ "/"

def structureLines (facts : ProjectFacts) : List String :=
  ["## Project Structure", "", "```", facts.name ++ "/"] ++
    limited 20 treeLine (fun left => s!"  ... and {left} more directories") facts.directories ++
    ["```", ""]

/-- A table of packages under a heading, of at most `limit` rows. -/
def packageTable (heading : String) (limit : Nat) (packages : Table String) : List String :=
  linesIf (!packages.isEmpty)
    (["### " ++ heading, "", "| Package | Version |", "|---------|---------|"] ++
      limited limit (fun (name, version) => s!"| {name} | {version} |")
        (fun left => s!"| ... | {left} more |") packages ++ [""])

def dependencyLines (dependencies : Dependencies) : List String :=
  let tables := packageTable "Production Dependencies" 30 dependencies.production ++
    packageTable "Dev Dependencies" 20 dependencies.development
  linesIf (!tables.isEmpty) (["## Dependencies", ""] ++ tables)

def closing (facts : ProjectFacts) : List String :=
  ["## File Types", "", "| Extension | Count |", "|-----------|-------|"] ++
    (mostCommon facts.byExtension 15).map (fun (extension, count) =>
      s!"| {extension} | {count} |") ++
    ["", "---", "",
      "*Generated with [briefly](https://github.com/Skanda-Nagaraja/briefly)*"]

/-! ## Files -/

def functionLine (f : FunctionRecord) : String :=
  "- `" ++ f.call ++ "`" ++ enclosedMarks "*(" ")*" f.marks

/-- The text of a file in a code block, without the newlines at its end. -/
def codeLines (doc : FileDoc) : List String :=
  let content := String.ofList (Text.dropTrailing '\n' doc.content.toList)
  ["#### Source", "", "```" ++ language doc.record.extension, content, "```", ""]

/-- The section of a file that has the path `path` in the report. -/
def fileLines (path : String) (includeCode : Bool) (doc : FileDoc) : List String :=
  let facts := doc.record.facts
  let summary := doc.summary.getD ""
  ["### `" ++ path ++ "`", "", s!"- **Lines:** {doc.record.lines}",
      s!"- **Functions:** {facts.functions.length}",
      s!"- **Classes:** {facts.classes.length}", ""] ++
    linesIf (summary != "") ["#### Summary", "", summary, ""] ++
    block "#### Exports" (facts.exports.map fun e => "- `" ++ e.name ++ s!"` ({e.kind.label})") ++
    block "#### Functions"
      (limited 10 functionLine (fun left => s!"- *... and {left} more functions*")
        facts.functions) ++
    linesIf includeCode (codeLines doc) ++ ["---", ""]

/-- The path of a file as the report shows it: the way from the root of the project. -/
def shownPath (working root : String) (doc : FileDoc) : Except Fault String :=
  match Path.relative? working doc.record.path root with
  | some way => .ok (Path.pure way)
  | none => .error .emptyPath

def documentation (working : String) (facts : ProjectFacts) (docs : List FileDoc)
    (includeCode : Bool) : Except Fault (List String) := do
  let paths ← docs.mapM (shownPath working facts.root)
  let sections := (paths.zip docs).flatMap fun (path, doc) => fileLines path includeCode doc
  return linesIf (!docs.isEmpty) (["## File Documentation", ""] ++ sections)

/-! ## The report -/

def lines (working : String) (facts : ProjectFacts) (summary : Option String) (docs : List FileDoc)
    (includeCode : Bool) (generatedAt : String) : Except Fault (List String) := do
  let size ← (sizeText facts.totalSize).mapError Fault.size
  let files ← documentation working facts docs includeCode
  return opening facts.name generatedAt ++ overview facts summary size ++
    block "## Tech Stack" (facts.techStack.map ("- " ++ ·)) ++ structureLines facts ++
    block "### Entry Points" (facts.entryPoints.map fun entry => "- `" ++ entry ++ "`") ++
    dependencyLines facts.dependencies ++ files ++ closing facts

/-- The report. Paths are read from the working place. -/
def report (working : String) (facts : ProjectFacts) (summary : Option String)
    (docs : List FileDoc) (includeCode : Bool) (generatedAt : String) : Except Fault String := do
  let all ← lines working facts summary docs includeCode generatedAt
  return String.join (all.map (· ++ "\n"))

end Synopsis.Markdown
