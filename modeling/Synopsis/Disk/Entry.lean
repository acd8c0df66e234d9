import Synopsis.Table
import Synopsis.Text.Lines
/-!
# Entries of a disk

A disk is a folder: names with files, folders and links to other places. A place is named by the
names on the way to it from the root. Looking an entry up and putting one in its place follow no
links; what a link leads to is found elsewhere.
-/

namespace Synopsis

/-- The names on the way to a place from the root. -/
abbrev Location := List String

def Location.text (place : Location) : String := "/" ++ Text.join "/" place

inductive Entry where
  | file (bytes : ByteArray)
  | folder (entries : List (String × Entry))
  | link (target : String)

namespace Entry

/-- What is in an entry under a name; only a folder holds something. -/
def child? (name : String) : Entry → Option Entry
  | .folder entries => Table.get? name entries
  | _ => none

def at? (entry : Entry) : Location → Option Entry
  | [] => some entry
  | name :: rest => (entry.child? name).bind fun inside => at? inside rest

/-- Puts an entry at a place. Folders on the way that are missing are made; nothing is
put below what is no folder. -/
def put (entry : Entry) (place : Location) (new : Entry) : Entry :=
  match place, entry with
  | [], _ => new
  | name :: rest, .folder entries =>
    let inside := (Table.get? name entries).getD (.folder [])
    .folder (Table.put name (put inside rest new) entries)
  | _ :: _, entry => entry

/-- Takes away what is at a place. The root stays. -/
def erase (entry : Entry) (place : Location) : Entry :=
  match place, entry with
  | [name], .folder entries => .folder (entries.filter (·.1 != name))
  | name :: rest, .folder entries =>
    match Table.get? name entries with
    | some inside => .folder (Table.put name (erase inside rest) entries)
    | none => .folder entries
  | _, entry => entry

def isFolder : Entry → Bool
  | .folder _ => true
  | _ => false

/-- Number of bytes that an entry is said to have. -/
def size : Entry → Nat
  | .file bytes => bytes.size
  | .folder _ => 4096
  | .link target => target.utf8ByteSize

mutual
def linkCount : Entry → Nat
  | .file _ => 0
  | .folder entries => linkCounts entries
  | .link _ => 1

def linkCounts : List (String × Entry) → Nat
  | [] => 0
  | (_, entry) :: rest => linkCount entry + linkCounts rest
end

mutual
def leaves (here : Location) : Entry → List Location
  | .folder entries => leavesOf here entries
  | _ => [here]

def leavesOf (here : Location) : List (String × Entry) → List Location
  | [] => []
  | (name, entry) :: rest => leaves (here ++ [name]) entry ++ leavesOf here rest
end

end Entry

end Synopsis
