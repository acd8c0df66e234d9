import Synopsis.Project
import Synopsis.Record
import Synopsis.Size
import Synopsis.Table
/-!
# Reports for the console

A report is a title between rules, sections, and a rule at the end. A section is a heading, a
divider, lines that start with two blanks, and an empty line. What has more items than a limit shows
the first ones and says how many are left. The lines of a summary are indented one by one, so no
summary can look like a heading.
-/

namespace Synopsis.Report

def rule : String := String.ofList (List.replicate 60 '=')

/-- The line under the heading of a section. -/
def divider : String := String.ofList (List.replicate 40 '-')

structure Section where
  heading : String
  body : List String
  deriving DecidableEq, Repr

def Section.lines (s : Section) : List String := [s.heading, divider] ++ s.body ++ [""]

/-- A section that is left away when a condition does not hold. -/
def sectionIf (condition : Bool) (heading : String) (body : List String) : List Section :=
  if condition then [⟨heading, body⟩] else []

def layout (title : String) (sections : List Section) : List String :=
  [rule, "  " ++ title, rule, ""] ++ sections.flatMap Section.lines ++ [rule]

/-- The lines of a text, each after two blanks. -/
def indented (text : String) : List String :=
  (Text.splitLines text.toList).map fun line => "  " ++ String.ofList line

/-- The line that says how many items are left after a limit. -/
def moreLine (count limit : Nat) (noun indent : String) : List String :=
  if limit < count then [s!"{indent}... and {count - limit} {noun}"] else []

/-- The first items up to a limit, one a line, and how many are left. -/
def limited {α : Type} (limit : Nat) (line : α → String) (items : List α) : List String :=
  (items.take limit).map line ++ moreLine items.length limit "more" "  "

/-- The section of a summary, if there is one with any text. -/
def summarySection (summary : Option String) : List Section :=
  match summary with
  | some text => sectionIf (text != "") "AI Summary" (indented text)
  | none => []

/-! ## Projects -/

/-- An extension, a bar of at most twenty marks, and the count. -/
def extensionLine (entry : String × Int) : String :=
  let (extension, count) := entry
  let gap := List.replicate (15 - extension.length) ' '
  let bar := List.replicate (min count 20).toNat '#'
  "  " ++ extension ++ String.ofList (gap ++ ' ' :: bar ++ [' ']) ++ toString count

def statistics (facts : ProjectFacts) : Except SizeOverflow Section := do
  let size ← sizeText facts.totalSize
  return ⟨"Statistics",
    [s!"  Files: {facts.total}", s!"  Size: {size}", s!"  Depth: {facts.depth} levels"]⟩

def projectSections (facts : ProjectFacts) (summary : Option String) :
    Except SizeOverflow (List Section) := do
  let counts ← statistics facts
  let extensions := mostCommon facts.byExtension 8
  let packages := facts.dependencies.production.names
  return summarySection summary ++
    sectionIf (!facts.techStack.isEmpty) "Tech Stack" ["  " ++ Text.join ", " facts.techStack] ++
    [counts] ++
    sectionIf (!extensions.isEmpty) "File Types" (extensions.map extensionLine) ++
    sectionIf (!facts.entryPoints.isEmpty) "Entry Points"
      (facts.entryPoints.map fun entry => "  -> " ++ entry) ++
    sectionIf (!packages.isEmpty) "Key Dependencies"
      (("  " ++ Text.join ", " (packages.take 12)) :: moreLine packages.length 12 "more" "  ") ++
    sectionIf (!facts.directories.isEmpty) "Key Directories"
      (limited 10 (fun directory => "  - " ++ directory) facts.directories)

def ofProject (facts : ProjectFacts) (summary : Option String) : Except SizeOverflow String := do
  return Text.join "\n" (layout ("Project: " ++ facts.name) (← projectSections facts summary))

/-! ## Files -/

/-- A syntax tree as far as it is shown. -/
def treePreview (tree : String) (limit : Int) : String :=
  String.ofList (leading limit tree.toList)

/-- The number of characters that are shown of a syntax tree. -/
def treeLimit : Int := 2000

/-- An exported name; a default export has a mark of its own. -/
def exportLine (e : ExportRecord) : String :=
  let mark := if e.kind.label == "default" then "*" else "->"
  s!"  {mark} {e.name} ({e.kind.label})"

def classLines (c : ClassRecord) : List String :=
  ("  class " ++ c.signature) ::
    ((c.methods.take 5).map fun m =>
      let mark := if m.kind.label == "constructor" then "+" else "."
      s!"    {mark} {m.name}()") ++
    moreLine c.methods.length 5 "more methods" "    "

def variableLine (v : VariableRecord) : String :=
  let kind := match v.kind with
    | none => "var"
    | some kind => if kind == "" then "var" else kind
  s!"  {kind} {v.name}"

def counted (heading : String) (count : Nat) : String := s!"{heading} ({count})"

def fileInfo (record : FileRecord) : Except SizeOverflow Section := do
  let size ← sizeText record.size
  return ⟨"Info", [s!"  Path: {record.path}", s!"  Lines: {record.lines}", s!"  Size: {size}"]⟩

def factSections (facts : Facts) : List Section :=
  sectionIf (!facts.imports.isEmpty) (counted "Imports" facts.imports.length)
    (limited 10 (fun i => "  <- " ++ i.source) facts.imports) ++
  sectionIf (!facts.exports.isEmpty) (counted "Exports" facts.exports.length)
    (facts.exports.map exportLine) ++
  sectionIf (!facts.functions.isEmpty) (counted "Functions" facts.functions.length)
    (limited 15 (fun f => "  f " ++ f.signature) facts.functions) ++
  sectionIf (!facts.classes.isEmpty) (counted "Classes" facts.classes.length)
    (facts.classes.flatMap classLines) ++
  sectionIf (!facts.«variables».isEmpty && facts.«variables».length ≤ 20)
    (counted "Variables" facts.«variables».length) (limited 10 variableLine facts.«variables»)

def errorSection (parseError : Option String) : List Section :=
  match parseError with
  | some text => sectionIf (text != "") "Parse Warning" ["  " ++ text]
  | none => []

def treeSection (showTree : Bool) (tree : Option String) : List Section :=
  match tree with
  | some text => sectionIf showTree "Syntax Tree" [treePreview text treeLimit]
  | none => []

/-- The report about a file, with a summary if there is one, and with
its syntax tree if asked for. -/
def ofFile (record : FileRecord) (summary : Option String) (showTree : Bool) :
    Except SizeOverflow String := do
  let info ← fileInfo record
  return Text.join "\n" (layout ("File: " ++ record.name)
    (info :: summarySection summary ++ factSections record.facts ++
      errorSection record.parseError ++ treeSection showTree record.tree))

end Synopsis.Report
