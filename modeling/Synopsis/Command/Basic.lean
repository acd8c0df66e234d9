import Synopsis.Datum
import Synopsis.Extract
import Synopsis.Output
import Synopsis.Report.Console
import Synopsis.Report.Markdown
import Synopsis.Settings
import Synopsis.Summary
/-!
# The work of a command

A command works in a workspace and a session and gives a value or a failure. Both are kept when it
fails. Here are the steps that the commands share: the settings of a place, the facts about a
project, a summary, and the writing of a report, which is the only step that changes the disk.
-/

namespace Synopsis

inductive Failure where
  | disk (fault : Disk.Fault)
  | settings (fault : Settings.Fault)
  | scan (fault : Scan.Fault)
  | project (fault : Project.Fault)
  | summary (fault : Summary.Fault)
  | size (fault : SizeOverflow)
  | report (fault : Markdown.Fault)
  deriving DecidableEq, Repr

namespace Failure

def message : Failure → String
  | .disk fault => fault.message
  | .settings fault => fault.message
  | .scan fault => fault.message
  | .project fault => fault.message
  | .summary fault => fault.message
  | .size fault => fault.message
  | .report fault => fault.message

/-- Whether a user is told of the failure in one line: what the system refuses, settings that cannot
be read, and roots that cannot be scanned. -/
def isReported : Failure → Bool
  | .disk fault => fault.isSystem
  | .scan (.disk fault) => fault.isSystem
  | .scan _ => true
  | .settings .malformed => true
  | .settings .noTable => true
  | .project (.disk fault) => fault.isSystem
  | _ => false

end Failure

/-- A file into which notices are written when they are told, from a level on. -/
structure Journal where
  place : Location
  least : Level

structure World where
  workspace : Workspace
  now : Moment
  session : Session := {}
  journal : Option Journal := none

def Journal.line (now : Moment) (notice : Notice) : String :=
  s!"{now.journalText} {notice.level.label} {notice.logger}: {notice.message}\n"

/-- The disk after some notices were written into a journal. A journal that cannot be written any
more is left as it is. -/
def Journal.write (journal : Journal) (now : Moment) (notices : List Notice) (disk : Entry) :
    Entry :=
  let lines := (notices.filter (·.reaches journal.least)).map (Journal.line now)
  if lines.isEmpty then disk else (Disk.extendFile disk journal.place (String.join lines).toUTF8).1

/-- The world with another session; what was told in the meantime is written into the journal. -/
def World.withSession (world : World) (session : Session) : World :=
  let told := session.notices.drop world.session.notices.length
  let disk := match world.journal with
    | some journal => journal.write world.now told world.workspace.disk
    | none => world.workspace.disk
  { world with session, workspace := { world.workspace with disk } }

abbrev Command (α : Type) := ExceptT Failure (StateM World) α

namespace Command

/-- The disk at a user's disposal. -/
def workspace : Command Workspace := do return (← get).workspace

def lift {ε α : Type} (wrap : ε → Failure) (result : Except ε α) : Command α :=
  match result with
  | .ok a => return a
  | .error e => throw (wrap e)

/-- A part of the work that concerns the session alone. -/
def talk {α : Type} (part : StateM Session α) : Command α :=
  modifyGet fun world =>
    let (a, session) := part.run world.session
    (a, world.withSession session)

def tell (notice : Notice) : Command Unit := talk (Session.tell notice)

end Command

/-! ## Settings -/

namespace Workspace

def isFolder (w : Workspace) (path : String) : Except Disk.Fault Bool :=
  (w.present? path).map fun found => (found.map Entry.isFolder).getD false

/-- The directory part of a path. -/
def parentOf (path : String) : String :=
  Path.pure (Path.anchor path ++ Text.join "/" (Path.parts path).dropLast)

/-- The place of the settings for a path: in the folder that it names, or beside the file. -/
def settingsPlace (w : Workspace) (path : String) : Except Disk.Fault Location := do
  let path ← w.withHome path
  let file ←
    if ← w.isFolder path then pure (Path.below path Settings.fileName)
    else if Path.fileName path == Settings.fileName then pure path
    else pure (Path.below (parentOf path) Settings.fileName)
  Disk.resolve w.disk w.working file

/-- The settings for a path and the place of the folder that they are for. -/
def settings (w : Workspace) (path : String) : Except Failure (Location × Settings) := do
  let place ← (w.settingsPlace path).mapError .disk
  let root ← (Disk.resolve w.disk [] (Location.text place.dropLast)).mapError .disk
  match ← (w.present? (Location.text place)).mapError .disk with
  | none => return (root, {})
  | some _ =>
    let bytes ← (w.contentOf (Location.text place)).mapError .disk
    return (root, ← (Settings.ofFile bytes).mapError .settings)

end Workspace

/-! ## Projects -/

namespace Project

/-- The notices about the facts of a project. -/
def notices (w : Workspace) (root : Location) (facts : ProjectFacts) : List Notice :=
  let found := facts.dependencies.manager.map fun manager =>
    Notice.manifestFound manager (Location.text root)
  let unreadable := do
    let bytes ← (manifestsIn w root).project
    if facts.dependencies.manager != some "poetry/pip" then none
    else match Manifest.readProject bytes with
      | .ok (.error reason) =>
        some (Notice.unreadableManifest (Location.text (root ++ [Manifest.projectName])) reason)
      | _ => none
  unreadable.toList ++ found.toList ++ [.aggregated facts.name facts.total facts.techStack]

end Project

namespace Command

def aggregate (root : Location) (files : List String) : Command ProjectFacts := do
  let w ← workspace
  let facts ← lift .project (Project.facts w root files)
  (Project.notices w root facts).forM tell
  return facts

def analyze (root : Location) (settings : Settings) (depth : Int) : Command ProjectFacts := do
  let w ← workspace
  let files ← lift .scan (w.scan (Location.text root) depth settings.scan.excludePaths)
  tell (.scanned (Location.text root) files.length depth)
  tell (.discovered files.length (Location.text root))
  aggregate root files

/-! ## Summaries -/

/-- Who answers questions, unless summaries are not wanted. -/
def runner (settings : Settings) (useModel : Bool) : Command (Option Runner) := do
  if useModel && settings.summarizer.enabled then
    return some (← talk (Session.settleRunner settings.summarizer))
  else return none

/-- A summary of a subject, if somebody answers questions. -/
def summarize (runner : Option Runner) (subject : Subject) : Command (Option String) := do
  match runner with
  | none => return none
  | some runner => lift .summary (← talk (Summary.of runner subject).run)

/-! ## Reports -/

def write (path text : String) : Command Location := do
  let world ← get
  let written := world.workspace.writeOutput path text
  set { world with workspace := written.1 }
  lift .disk written.2

def writeIf (path : Option String) (text : String) : Command (Option Location) := do
  match path.bind Endpoint.nonempty? with
  | none => return none
  | some path => return some (← write path text)

/-- The record of a file with the given text, told of if it cannot be parsed. -/
def extract (path text : String) (withTree : Bool) : Command FileRecord := do
  let record := extractFile path text withTree
  if let some reason := record.parseError then
    if reason != "" then tell (.parseError path reason)
  return record

end Command

end Synopsis
