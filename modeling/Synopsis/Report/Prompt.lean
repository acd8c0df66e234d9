import Synopsis.Project
import Synopsis.Record
import Synopsis.Size
import Synopsis.Table
/-!
# Prompts

What a model is told when it is asked for a summary of a project or of a file: facts, and the first
hundred lines of the file. Each list is cut at a limit of its own, and nothing else of the file is
told.
-/

namespace Synopsis.Prompt

def projectInstructions : String :=
  "You are a technical documentation expert. Your task is to analyze project information and " ++
  "generate a clear, concise summary. Focus on:\n" ++
  "- What the project does (purpose)\n" ++
  "- Key technologies used\n" ++
  "- Architecture overview\n" ++
  "- Main components and their relationships\n" ++
  "- Notable patterns or design decisions\n\n" ++
  "Be concise but comprehensive. Use bullet points for clarity. Avoid obvious statements."

def fileInstructions : String :=
  "You are a technical documentation expert. Your task is to analyze a source file and " ++
  "generate a clear, concise summary. Focus on:\n" ++
  "- What this file/module does\n" ++
  "- Key functions and their purposes\n" ++
  "- Important exports\n" ++
  "- Dependencies and how they're used\n" ++
  "- Edge cases or important considerations\n" ++
  "- How this module fits into a larger system\n\n" ++
  "Be concise but comprehensive. Highlight anything unusual or important for developers to know."

def previewLines : Nat := 100

/-- Lines under a heading; nothing if there are none. -/
def part (heading : String) (lines : List String) : List String :=
  if lines.isEmpty then [] else ("\n## " ++ heading) :: lines

/-- One line under a heading with all texts; nothing if there are none. -/
def listPart (heading : String) (texts : List String) : List String :=
  if texts.isEmpty then [] else ["\n## " ++ heading, Text.join ", " texts]

def filesOf (facts : ProjectFacts) (category : Category) : List String :=
  (Table.get? category.label facts.categories).getD []

def ofProject (facts : ProjectFacts) : Except SizeOverflow String := do
  let size ← sizeText facts.totalSize
  return Text.join "\n"
    (["# Project: " ++ facts.name, "\n## File Statistics", s!"- Total files: {facts.total}",
        "- Total size: " ++ size] ++
      part "File Types" ((facts.byExtension.take 10).map fun (extension, count) =>
        s!"- {extension}: {count} files") ++
      listPart "Detected Technologies" facts.techStack ++
      listPart "Entry Points" facts.entryPoints ++
      listPart "Key Dependencies" (facts.dependencies.production.names.take 15) ++
      ["\n## Directory Structure", s!"- Depth: {facts.depth} levels",
        "- Directories: " ++ Text.join ", " (facts.directories.take 10)] ++
      part "Key Source Files" (((filesOf facts .code).take 10).map ("- " ++ ·)))

def classLines (c : ClassRecord) : List String :=
  ("- " ++ c.signature) :: (c.methods.take 5).map fun m => "  - " ++ m.name ++ "()"

def counted (heading : String) (count : Nat) : String := s!"{heading} ({count})"

def preview (content : String) : String :=
  Text.join "\n" ((Text.newlinePieces content).take previewLines)

def ofFacts (facts : Facts) : List String :=
  part (counted "Imports" facts.imports.length)
    ((facts.imports.take 10).map fun i => "- " ++ i.source) ++
  part (counted "Exports" facts.exports.length)
    (facts.exports.map fun e => "- " ++ e.kind.label ++ ": " ++ e.name) ++
  part (counted "Functions" facts.functions.length)
    ((facts.functions.take 15).map fun f => "- " ++ f.signature) ++
  part (counted "Classes" facts.classes.length) (facts.classes.flatMap classLines)

def ofFile (record : FileRecord) (content : String) : Except SizeOverflow String := do
  let size ← sizeText record.size
  return Text.join "\n"
    (["# File: " ++ record.name, "- Path: " ++ record.path, s!"- Lines: {record.lines}",
        "- Size: " ++ size] ++
      ofFacts record.facts ++
      ["\n## Code Preview\n```\n" ++ preview content ++ "\n```"])

end Synopsis.Prompt
