import Synopsis.Disk.Lookup
/-!
# Changing a disk

Writing a file and making the folders above it. A settled place may still hold links, if it was
settled past one that leads back to itself, so links on the way are followed here as well. A change
that fails part of the way leaves what was made before, so every change gives the new disk besides
the fault.
-/

namespace Synopsis.Disk

/-! ## Folders -/

/-- Where a new entry for a place is made, or what hinders it: the way to it, its name, or what is
there already. -/
def slot (disk : Entry) (place : Location) : Except Cause Location :=
  match walk disk mostLinks [] place.dropLast with
  | .error cause => .error cause
  | .ok above =>
    let slot := above ++ place.getLast?.toList
    if !((disk.at? above).map Entry.isFolder).getD false then .error .notFolder
    else if longestName < (place.getLast?.getD "").utf8ByteSize then .error .longName
    else if (disk.at? slot).isSome then .error .exists
    else .ok slot

def isFolderAt (disk : Entry) (place : Location) : Bool :=
  match entryOf disk [] (Location.text place) with
  | .ok entry => entry.isFolder
  | .error _ => false

/-- Makes a folder for a place in its slot. If there is none, a folder that is there is left as it
is. -/
def makeFolder (disk : Entry) (place : Location) : Except Cause Location → Entry × Option Fault
  | .ok slot => (disk.put slot (.folder []), none)
  | .error cause =>
    if isFolderAt disk place then (disk, none)
    else (disk, some (.system cause (Location.text place)))

/-- Makes a folder at a place that is given by its names from the last to the first, and what is
missing above it. -/
def makeFolders (disk : Entry) : List String → Entry × Option Fault
  | [] => (disk, none)
  | name :: above =>
    let place := (name :: above).reverse
    match slot disk place with
    | .error .missing =>
      match makeFolders disk above with
      | (disk, none) => makeFolder disk place (slot disk place)
      | failed => failed
    | found => makeFolder disk place found

/-! ## Files -/

/-- Walks on from a place to where a file is opened or made, so that the last name may be missing. A
missing name with a slash after it would have to be a folder. -/
def landWith (disk : Entry) (follow : String → Location → List String → Except Cause Location)
    (here : Location) : List String → Except Cause Location
  | [] => .ok here
  | name :: rest =>
    match step disk here name with
    | .stop cause =>
      if cause == .missing && rest.isEmpty then .ok (here ++ [name])
      else if cause == .missing && rest.all (· == "") then .error .isFolder
      else .error cause
    | .on place => landWith disk follow place rest
    | .link target => follow target here rest

/-- Walks on to where a file is opened or made, following at most so many links. -/
def land (disk : Entry) : Nat → Location → List String → Except Cause Location
  | 0 => landWith disk fun _ _ _ => .error .loop
  | links + 1 => landWith disk fun target here rest =>
    if target == "" then .error .missing
    else land disk links (startOf here target) (Path.segments target ++ rest)

/-- Where the file for a place is: at the place itself, or where the links on the way lead, even if
it is missing there. A folder is no file. -/
def fileSlot (disk : Entry) (place : Location) : Except Cause Location :=
  match disk.at? place with
  | some (.file _) => .ok place
  | _ =>
    match land disk mostLinks [] place with
    | .error cause => .error cause
    | .ok slot =>
      if ((disk.at? slot).map Entry.isFolder).getD false then .error .isFolder else .ok slot

/-- Changes the bytes of the file for a place. A missing file has none and is made. -/
def changeFile (disk : Entry) (place : Location) (change : ByteArray → ByteArray) :
    Entry × Option Fault :=
  match fileSlot disk place with
  | .error cause => (disk, some (.system cause (Location.text place)))
  | .ok slot =>
    let present := match disk.at? slot with
      | some (.file present) => present
      | _ => .empty
    (disk.put slot (.file (change present)), none)

/-- Writes a file at a place. -/
def placeFile (disk : Entry) (place : Location) (bytes : ByteArray) : Entry × Option Fault :=
  changeFile disk place fun _ => bytes

/-- Writes a file at a place and makes the folders above it. -/
def writeBelowFolders (disk : Entry) (place : Location) (bytes : ByteArray) :
    Entry × Option Fault :=
  match makeFolders disk place.dropLast.reverse with
  | (disk, none) => placeFile disk place bytes
  | failed => failed

/-- Adds bytes at the end of a file, which is made if it is missing. -/
def extendFile (disk : Entry) (place : Location) (bytes : ByteArray) : Entry × Option Fault :=
  changeFile disk place (· ++ bytes)

end Synopsis.Disk
