import Synopsis.IgnoreRule
import Synopsis.Table
import Synopsis.Workspace
/-!
# Scans

A scan lists the files below a root, down to a depth, in the order of their paths. Hidden names and
what the rules exclude are passed over, and so are links to folders; any other link counts as a
file, wherever it leads. A depth below one counts as one.
-/

namespace Synopsis

namespace Scan

def defaultDepth : Int := 10

/-- Why a root cannot be scanned. The root is given as the user wrote it. -/
inductive Fault where
  | missing (root : String)
  | notFolder (root : String)
  | disk (fault : Disk.Fault)
  deriving DecidableEq, Repr

def Fault.message : Fault → String
  | .missing root => "Directory not found: " ++ root
  | .notFolder root => root ++ " is not a directory"
  | .disk fault => fault.message

/-- Whether a name is hidden: it starts with a point. -/
def isHidden (name : String) : Bool := name.toList.head? == some '.'

def excluded (rules : List IgnoreRule) (path : Location) (isFolder : Bool) : Bool :=
  rules.any fun rule => rule.excludes (Text.join "/" path) isFolder

def leadsToFolder (disk : Entry) (place : Location) : Bool :=
  ((Disk.opened? disk place).map Entry.isFolder).getD false

mutual
/-- The paths of the files in an entry below the root that has the path `path`. Paths of at most
`depth` more names are listed. -/
def filesIn (disk : Entry) (root : Location) (rules : List IgnoreRule) (depth : Nat)
    (path : Location) : Entry → List Location
  | .folder entries =>
    if depth == 0 || excluded rules path true then []
    else filesOf disk root rules depth path entries
  | .file _ => if excluded rules path false then [] else [path]
  | .link _ =>
    if leadsToFolder disk (root ++ path) || excluded rules path false then [] else [path]

/-- The paths of the files in some entries of the folder that has the path `path` below the root,
of at most `depth` more names. -/
def filesOf (disk : Entry) (root : Location) (rules : List IgnoreRule) (depth : Nat)
    (path : Location) : List (String × Entry) → List Location
  | [] => []
  | (name, entry) :: rest =>
    (if isHidden name || depth == 0 then []
      else filesIn disk root rules (depth - 1) (path ++ [name]) entry) ++
      filesOf disk root rules depth path rest
end

/-- The paths of the files below the root, relative to it, in the order of the folders. A link may
lead to the root. -/
def paths (disk : Entry) (root : Location) (rules : List IgnoreRule) (depth : Int) :
    List Location :=
  match Disk.opened? disk root with
  | some (.folder entries) => filesOf disk root rules (max depth 1).toNat [] entries
  | _ => []

def sorted (texts : List String) : List String := sortBy (fun a b => decide (a ≤ b)) texts

def files (disk : Entry) (root : Location) (rules : List IgnoreRule) (depth : Int) :
    List String :=
  sorted ((paths disk root rules depth).map fun path => Location.text (root ++ path))

end Scan

namespace Workspace

def scanRoot (w : Workspace) (root : String) : Except Scan.Fault Location :=
  match w.locate root with
  | .error e => .error (.disk e)
  | .ok place =>
    match w.present? (Location.text place) with
    | .error e => .error (.disk e)
    | .ok none => .error (.missing root)
    | .ok (some entry) => if entry.isFolder then .ok place else .error (.notFolder root)

/-- The files below a root, down to a depth, without what the default patterns and the given ones
exclude. -/
def scan (w : Workspace) (root : String) (depth : Int) (ignored : List String) :
    Except Scan.Fault (List String) :=
  (w.scanRoot root).map fun place =>
    Scan.files w.disk place (IgnoreRule.withDefaults ignored) depth

end Workspace

end Synopsis
