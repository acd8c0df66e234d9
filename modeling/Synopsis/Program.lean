import Synopsis.Options.Invocation
/-!
# The program

The arguments are read, a journal is opened if one is wanted, and the command does its work. What is
printed is the report or the places that were written to, and what is told is the notices, on the
other channel. A failure that users cause is told in one line and ends the program with status one;
any other failure is passed on.
-/

namespace Synopsis

/-- How the program ends: its status and what it prints on either channel. -/
structure Ending where
  status : Nat
  out : String
  err : String
  deriving DecidableEq, Repr

namespace Program

/-- The end of a program that does nothing. -/
def stopped : Stop → Ending
  | .help usage => ⟨0, usage, ""⟩
  | .version => ⟨0, Invocation.program ++ " " ++ Invocation.version ++ "\n", ""⟩
  | .refused program usage reason => ⟨2, "", usage ++ program ++ ": error: " ++ reason ++ "\n"⟩

/-- A place as it is shown: from the working place on if it is below that. -/
def shown (working place : Location) : String :=
  match Project.below? working place with
  | some [] => "."
  | some rest => Text.join "/" rest
  | none => Location.text place

def outcomeText (working : Location) (outcome : Command.Outcome) : String :=
  outcome.text ++ "\n" ++
    match outcome.place with
    | some place => s!"\nSummary saved to {shown working place}\n"
    | none => ""

def exportText (working : Location) (outcome : Command.ExportOutcome) : String :=
  s!"Documentation exported to {shown working outcome.place}\n" ++
    s!"Documented {outcome.documented} files with {outcome.summarized} AI summaries\n"

def perform (job : Job) : Command String := do
  let working := (← Command.workspace).working
  match job with
  | .summary options => return outcomeText working (← Command.summary options)
  | .describe options => return outcomeText working (← Command.describe options)
  | .report options => return exportText working (← Command.report options)

def leastLevel (verbose : Bool) : Level := if verbose then .debug else .info

/-- Where the journal of a path is kept: the working place and the path make up a path that is
normal by text alone, and the links on it are followed as the system follows them. -/
def journalSlot (w : Workspace) (path : String) : Except Disk.Fault Location :=
  let text := Path.absolute w.workingText (Path.pure path)
  if '\x00' ∈ text.toList then .error .nullCharacter
  else match Disk.fileSlot w.disk (Path.parts text) with
    | .error cause => .error (.system cause text)
    | .ok slot => .ok slot

/-- Opens the journal at a path: its file is made if it is missing. -/
def openJournal (path : String) (least : Level) : Command Unit := do
  let w ← Command.workspace
  let slot ← Command.lift .disk (journalSlot w path)
  modify fun world => { world with
    workspace := { w with disk := (Disk.extendFile w.disk slot .empty).1 }
    journal := some ⟨slot, least⟩ }

def noticeLine (notice : Notice) : String :=
  s!"[{Invocation.program}] {notice.level.label} {notice.message}\n"

def noticeText (least : Level) (notices : List Notice) : String :=
  String.join ((notices.filter (·.reaches least)).map noticeLine)

/-- What is made of the end of the work: a failure that users are told of is told in one line, below
the notices. -/
def concluded (least : Level) : Except Failure String × World → Except Failure Ending × World
  | (.ok text, world) => (.ok ⟨0, text, noticeText least world.session.notices⟩, world)
  | (.error failure, world) =>
    let told := noticeText least world.session.notices
    if failure.isReported then (.ok ⟨1, "", told ++ "Error: " ++ failure.message ++ "\n"⟩, world)
    else (.error failure, world)

/-- Does what an invocation says, in a world where nothing has been told yet. Opening the journal is
not part of the work, so its failure is passed on whatever it is. -/
def carryOut (invocation : Invocation) (world : World) : Except Failure Ending × World :=
  let least := leastLevel invocation.verbose
  let opened := match invocation.logFile with
    | some path => (openJournal path least).run.run world
    | none => (.ok (), world)
  match opened with
  | (.error failure, world) => (.error failure, world)
  | (.ok (), world) => concluded least ((perform invocation.job).run.run world)

def run (arguments : List String) (world : World) : Except Failure Ending × World :=
  match Invocation.read arguments with
  | .error stop => (.ok (stopped stop), world)
  | .ok invocation => carryOut invocation world

end Program

end Synopsis
