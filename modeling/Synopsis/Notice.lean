import Synopsis.Text.Lines
/-!
# Notices

What is told about the work while it is done. A notice has a level, the part of the work that it
comes from, and a text.
-/

namespace Synopsis

inductive Level where
  | debug | info | warning
  deriving DecidableEq, Repr

namespace Level

def label : Level → String
  | .debug => "DEBUG"
  | .info => "INFO"
  | .warning => "WARNING"

def rank : Level → Nat
  | .debug => 0
  | .info => 1
  | .warning => 2

end Level

inductive Notice where
  /-- So many files were found below a root, down to a depth. -/
  | scanned (root : String) (count : Nat) (depth : Int)
  /-- So many files of a project are known. -/
  | discovered (count : Nat) (root : String)
  /-- The project file cannot be read. -/
  | unreadableManifest (path reason : String)
  /-- A manifest of some manager declares the dependencies. -/
  | manifestFound (manager root : String)
  /-- The facts about a project are known. -/
  | aggregated (name : String) (count : Int) (techStack : List String)
  /-- A file cannot be parsed. -/
  | parseError (path reason : String)
  /-- A file cannot be read and is left out. -/
  | skipped (path reason : String)
  /-- So many files were parsed. -/
  | parsed (count : Nat)
  /-- There is no summary. -/
  | unsummarized (reason : String)
  /-- A report was written. -/
  | exported (path : String)
  deriving DecidableEq, Repr

namespace Notice

def level : Notice → Level
  | .unsummarized _ => .warning
  | .exported _ => .info
  | _ => .debug

def source : Notice → String
  | .scanned _ _ _ => "scanner"
  | .discovered _ _ => "orchestrator"
  | .unreadableManifest _ _ => "manifests"
  | .manifestFound _ _ => "manifests"
  | .aggregated _ _ _ => "aggregator"
  | .parseError _ _ => "extractors"
  | .skipped _ _ => "orchestrator"
  | .parsed _ => "orchestrator"
  | .unsummarized _ => "summarizer"
  | .exported _ => "orchestrator"

def logger (n : Notice) : String := "briefly." ++ n.source

def message : Notice → String
  | .scanned root count depth => s!"Scanned {root}: {count} files (max depth {depth})"
  | .discovered count root => s!"Scanner discovered {count} files under {root}"
  | .unreadableManifest path reason => s!"Unable to parse {path}: {reason}"
  | .manifestFound manager root => s!"Dependency manifest detected ({manager}) in {root}"
  | .aggregated name count techStack =>
    s!"Aggregated {name}: {count} files, stack=" ++ Text.join ", " techStack
  | .parseError path reason => s!"Parse error in {path}: {reason}"
  | .skipped path reason => s!"Skipping unreadable file {path}: {reason}"
  | .parsed count => s!"Parsed {count} code files for export"
  | .unsummarized reason => "AI summarization unavailable: " ++ reason
  | .exported path => "Documentation exported to " ++ path

/-- Whether a notice matters at least as much as a level. -/
def reaches (n : Notice) (least : Level) : Bool := least.rank ≤ n.level.rank

end Notice

end Synopsis
