import Synopsis.Command.Basic
/-!
# The three commands

A project is summarized, a file is described, or a project is documented in a report. Summaries by a
model are asked for when the facts are known, and everything is written at the end.
-/

namespace Synopsis.Command

/-- The depth of a scan for a summary when none is given. -/
def summaryDepth : Int := 3

def exportDepth : Int := 5

/-- Where a report is written when no path is given. -/
def exportOutput : String := "SUMMARY.md"

/-- The ends of the paths of files that a report documents. -/
def exportExtensions : List String := [".js", ".ts", ".jsx", ".tsx", ".py", ".rb", ".go"]

/-- A text, and where it was written if it was. -/
structure Outcome where
  text : String
  place : Option Location

/-- Gives a text, and writes it if a path for it is given. -/
def conclude (output : Option String) (text : Except SizeOverflow String) : Command Outcome := do
  let text ← lift .size text
  return ⟨text, ← writeIf output text⟩

/-- Where a report was written, and the numbers of files that it documents and summarizes. -/
structure ExportOutcome where
  place : Location
  documented : Nat
  summarized : Nat

structure SummaryOptions where
  path : String
  depth : Option Int := none
  output : Option String := none
  useModel : Bool := true

def summary (options : SummaryOptions) : Command Outcome := do
  let w ← workspace
  let root ← lift .disk (w.locate options.path)
  let (_, settings) ← lift id (w.settings (Location.text root))
  let depth := (options.depth.or settings.scan.maxDepth).getD summaryDepth
  let facts ← analyze root settings depth
  let runner ← runner settings options.useModel
  let summary ← summarize runner (.project facts)
  conclude options.output (Report.ofProject facts summary)

structure FileOptions where
  path : String
  output : Option String := none
  showTree : Bool := false
  useModel : Bool := true

def describe (options : FileOptions) : Command Outcome := do
  let w ← workspace
  let place ← lift .disk (w.locate options.path)
  let content := Text.ofFileReplacing (← lift .disk (w.contentOf (Location.text place)))
  let (_, settings) ← lift id (w.settings (Location.text place.dropLast))
  let record ← extract (Location.text place) content options.showTree
  let runner ← runner settings options.useModel
  let summary ← summarize runner (.file record content)
  conclude options.output (Report.ofFile record summary options.showTree)

structure ExportOptions where
  path : String := "."
  output : String := exportOutput
  includeCode : Bool := false
  useModel : Bool := true

def isDocumented (path : String) : Bool :=
  exportExtensions.any fun extension =>
    (Text.dropPrefix? extension.toList.reverse path.toList.reverse).isSome

/-- The record and the content of a file; none if it cannot be read. -/
def parseFile (path : String) : Command (Option (FileRecord × String)) := do
  match (← workspace).contentOf path with
  | .error fault =>
    tell (.skipped path fault.message)
    return none
  | .ok bytes =>
    let content := Text.ofFileReplacing bytes
    return some (← extract path content false, content)

/-- The records and the contents of the files that a report documents, out of the first ones up to a
limit. -/
def parseFiles (files : List String) (limit : Int) : Command (List (FileRecord × String)) := do
  let found ← (leading limit (files.filter isDocumented)).mapM parseFile
  return found.filterMap id

/-- Summaries of the first files up to a limit, and none for the others. -/
def summarizeFiles (runner : Option Runner) (limit : Int) (parsed : List (FileRecord × String)) :
    Command (List (Option String)) := do
  let first := leading limit parsed
  let summaries ← first.mapM fun (record, content) => summarize runner (.file record content)
  return summaries ++ List.replicate (parsed.length - first.length) none

/-- Summaries of a project and of its files. When there is none of the project, no file is asked
about. -/
def summarizeAll (runner : Option Runner) (facts : ProjectFacts) (limit : Int)
    (parsed : List (FileRecord × String)) : Command (Option String × List (Option String)) := do
  match ← summarize runner (.project facts) with
  | none => return (none, List.replicate parsed.length none)
  | some summary => return (some summary, ← summarizeFiles runner limit parsed)

def docsOf (parsed : List (FileRecord × String)) (summaries : List (Option String)) :
    List Markdown.FileDoc :=
  (parsed.zip summaries).map fun ((record, content), summary) =>
    { record := record, content := content, summary := summary }

/-- Writes the report about a project and some of its files with their summaries. -/
def publish (output : String) (includeCode : Bool) (facts : ProjectFacts) (summary : Option String)
    (parsed : List (FileRecord × String)) (summaries : List (Option String)) :
    Command ExportOutcome := do
  let world ← get
  let docs := docsOf parsed summaries
  let text ← lift .report
      (Markdown.report world.workspace.workingText facts summary docs includeCode
    world.now.timestamp)
  let place ← write output text
  tell (.exported (Location.text place))
  return ⟨place, docs.length, summaries.countP fun summary => summary.getD "" != ""⟩

def report (options : ExportOptions) : Command ExportOutcome := do
  let w ← workspace
  let root ← lift .disk (w.locate options.path)
  let (_, settings) ← lift id (w.settings (Location.text root))
  let facts ← analyze root settings exportDepth
  let parsed ← parseFiles facts.files settings.report.maxFiles
  tell (.parsed parsed.length)
  let runner ← runner settings options.useModel
  let (summary, summaries) ← summarizeAll runner facts settings.report.maxSummaries parsed
  publish options.output options.includeCode facts summary parsed summaries

end Synopsis.Command
