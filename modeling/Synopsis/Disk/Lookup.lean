import Synopsis.Disk.Entry
import Synopsis.Path
import Synopsis.Text.Printable
/-!
# Finding places on a disk

There are two ways from a path to a place. Opening a path walks from name to name and needs every
name on the way; it gives up after forty links. Settling a path follows the links that it meets and
keeps the names of what is missing, so that a place can be named before anything is there. It fails
only when links lead back to themselves.
-/

namespace Synopsis.Disk

/-- Why the system refuses a path. -/
inductive Cause where
  | missing | exists | notFolder | isFolder | longName | loop
  deriving DecidableEq, Repr

def Cause.number : Cause → Nat
  | .missing => 2
  | .exists => 17
  | .notFolder => 20
  | .isFolder => 21
  | .longName => 36
  | .loop => 40

def Cause.message : Cause → String
  | .missing => "No such file or directory"
  | .exists => "File exists"
  | .notFolder => "Not a directory"
  | .isFolder => "Is a directory"
  | .longName => "File name too long"
  | .loop => "Too many levels of symbolic links"

inductive Fault where
  /-- The system refuses the path. -/
  | system (cause : Cause) (path : String)
  /-- A path that is to be settled leads back to itself. -/
  | endless (path : String)
  /-- The path holds a null character. -/
  | nullCharacter
  /-- A path begins at the home of a user who has none. -/
  | noHome
  /-- The empty path names nothing. -/
  | emptyPath
  deriving DecidableEq, Repr

def Fault.message : Fault → String
  | .system cause path => s!"[Errno {cause.number}] {cause.message}: {Text.quoted path}"
  | .endless path => "Symlink loop from " ++ Text.quoted path
  | .nullCharacter => "embedded null byte"
  | .noHome => "Could not determine home directory."
  | .emptyPath => "no path specified"

/-- Whether the system is the one who refuses. -/
def Fault.isSystem : Fault → Bool
  | .system _ _ => true
  | _ => false

def longestName : Nat := 255

def mostLinks : Nat := 40

/-- Where a path starts: at the root, or here. -/
def startOf (here : Location) (path : String) : Location :=
  if Path.isAbsolute path then [] else here

inductive Step where
  | stop (cause : Cause)
  | on (place : Location)
  | link (target : String)

def step (disk : Entry) (here : Location) (name : String) : Step :=
  if !((disk.at? here).map Entry.isFolder).getD false then .stop .notFolder
  else if name == "" || name == "." then .on here
  else if name == ".." then .on here.dropLast
  else if longestName < name.utf8ByteSize then .stop .longName
  else match disk.at? (here ++ [name]) with
    | none => .stop .missing
    | some (.link target) => .link target
    | some _ => .on (here ++ [name])

/-- Walks on from a place to the first link, from where `follow` goes on with the names that are
left. -/
def walkWith (disk : Entry) (follow : String → Location → List String → Except Cause Location)
    (here : Location) : List String → Except Cause Location
  | [] => .ok here
  | name :: rest =>
    match step disk here name with
    | .stop cause => .error cause
    | .on place => walkWith disk follow place rest
    | .link target => follow target here rest

/-- Walks on from a place, following at most so many links. -/
def walk (disk : Entry) : Nat → Location → List String → Except Cause Location
  | 0 => walkWith disk fun _ _ _ => .error .loop
  | links + 1 => walkWith disk fun target here rest =>
    if target == "" then .error .missing
    else walk disk links (startOf here target) (Path.segments target ++ rest)

/-- What a place leads to, with the links on the way and at its end followed. -/
def opened? (disk : Entry) (place : Location) : Option Entry :=
  match walk disk mostLinks [] place with
  | .ok found => disk.at? found
  | .error _ => none

/-- The place that a path opens, from a working place. -/
def openPath (disk : Entry) (working : Location) (path : String) : Except Fault Location :=
  if '\x00' ∈ path.toList then .error .nullCharacter
  else if path == "" then .error (.system .missing path)
  else match walk disk mostLinks (startOf working path) (Path.segments path) with
    | .ok place => .ok place
    | .error cause => .error (.system cause path)

def entryOf (disk : Entry) (working : Location) (path : String) : Except Fault Entry :=
  match openPath disk working path with
  | .error e => .error e
  | .ok place =>
    match disk.at? place with
    | some entry => .ok entry
    | none => .error (.system .missing path)

/-- A place that is settled, or one from which links lead back, with the names that were left. -/
inductive Settled where
  | place (place : Location)
  | endless (place : Location) (rest : List String)
  deriving DecidableEq, Repr

/-- The place of a name, and where a link there leads. Nothing needs to be there. -/
def settleStep (disk : Entry) (here : Location) (name : String) : Location × Option String :=
  if name == "" || name == "." then (here, none)
  else if name == ".." then (here.dropLast, none)
  else match disk.at? (here ++ [name]) with
    | some (.link target) => (here ++ [name], some target)
    | _ => (here ++ [name], none)

/-- Settles names from a place on. The links in `active` are being followed; `follow` settles where
another one leads. -/
def settleWith (disk : Entry) (follow : Location → Location → List String → Settled)
    (active : List Location) (here : Location) : List String → Settled
  | [] => .place here
  | name :: rest =>
    match settleStep disk here name with
    | (next, none) => settleWith disk follow active next rest
    | (next, some target) =>
      if active.contains next then .endless next rest
      else match follow next (startOf here target) (Path.segments target) with
        | .endless place left => .endless place (left ++ rest)
        | .place place => settleWith disk follow active place rest

/-- Settles names from a place on. The first number is more than the number of links that can still
be met. -/
def settle (disk : Entry) : Nat → List Location → Location → List String → Settled
  | 0, active => settleWith disk (fun next _ _ => .endless next []) active
  | fuel + 1, active =>
    settleWith disk (fun next start names => settle disk fuel (next :: active) start names) active

/-- The place that a path names, from a working place. -/
def resolve (disk : Entry) (working : Location) (path : String) : Except Fault Location :=
  if '\x00' ∈ path.toList then .error .nullCharacter
  else match settle disk (disk.linkCount + 1) [] (startOf working path) (Path.segments path) with
    | .place place => .ok place
    | .endless place rest =>
      let place := Path.collapse true [] (place ++ rest)
      match walk disk mostLinks [] place with
      | .error .loop => .error (.endless (Location.text place))
      | _ => .ok place

end Synopsis.Disk
