import Synopsis.Disk.Change
import Synopsis.Text.Utf8
/-!
# Workspaces

A disk seen from a working place, by users with homes. Paths that a user writes are read here: a
tilde stands for a home, links are followed, and the place that is meant may still be empty.
-/

namespace Synopsis

/-- A disk, the place from which paths are read, and the homes of users. The nameless
user is the one who works here. -/
structure Workspace where
  disk : Entry
  working : Location := []
  homes : List (String × String) := []

namespace Workspace

def workingText (w : Workspace) : String := Location.text w.working

/-- The path with the home of a user in place of a tilde at its start. -/
def withHome (w : Workspace) (path : String) : Except Disk.Fault String :=
  let path := Path.pure path
  match path.toList with
  | '~' :: _ =>
    let named := Path.parts path
    match w.homes.lookup ((named.headD "").drop 1).toString with
    | none => .error .noHome
    | some home => .ok (named.drop 1 |>.foldl Path.below home)
  | _ => .ok path

/-- The place that a user means by a path. -/
def locate (w : Workspace) (path : String) : Except Disk.Fault Location := do
  Disk.resolve w.disk w.working (← w.withHome path)

def entryOf (w : Workspace) (path : String) : Except Disk.Fault Entry :=
  Disk.entryOf w.disk w.working path

def contentOf (w : Workspace) (path : String) : Except Disk.Fault ByteArray :=
  match w.entryOf path with
  | .error e => .error e
  | .ok (.file bytes) => .ok bytes
  | .ok _ => .error (.system .isFolder path)

/-- What is at a path, if something is: a path that leads nowhere has nothing, one that the system
cannot look up at all is a fault. -/
def present? (w : Workspace) (path : String) : Except Disk.Fault (Option Entry) :=
  match w.entryOf path with
  | .ok entry => .ok (some entry)
  | .error (.system .longName path) => .error (.system .longName path)
  | .error _ => .ok none

end Workspace

end Synopsis
