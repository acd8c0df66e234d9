import Synopsis.Text.Lines
/-!
# Paths

Paths are texts with `/` between segments. Reading one in *pure* form drops empty segments and
single dots; the *normal* form also resolves double dots by text alone, without looking at any
directory. Two slashes at the start are kept as two, three or more count as one.
-/

namespace Synopsis.Path

open Synopsis.Text

def segments (path : String) : List String := (splitOn '/' path.toList).map String.ofList

/-- The slashes that a path starts with: none, one or exactly two. -/
def anchor (path : String) : String :=
  match path.toList with
  | '/' :: '/' :: '/' :: _ => "/"
  | '/' :: '/' :: _ => "//"
  | '/' :: _ => "/"
  | _ => ""

def isAbsolute (path : String) : Bool := path.toList.head? == some '/'

/-- The segments that name something: neither empty nor a single dot. -/
def parts (path : String) : List String :=
  (segments path).filter fun s => s != "" && s != "."

def pure (path : String) : String :=
  let text := anchor path ++ join "/" (parts path)
  if text == "" then "." else text

def fileName (path : String) : String := (parts path).getLast?.getD ""

/-- From the last dot of a segment on, unless that dot is its first or last character. -/
def suffixOf (name : String) : String :=
  match cut name.toList.reverse with
  | some (tail, head) =>
    if tail.isEmpty || head.isEmpty then "" else String.ofList ('.' :: tail.reverse)
  | none => ""
where
  /-- Splits a reversed segment at its last dot. -/
  cut : List Char → Option (List Char × List Char)
    | [] => none
    | '.' :: rest => some ([], rest)
    | c :: rest => (cut rest).map fun (tail, head) => (c :: tail, head)

def suffix (path : String) : String := suffixOf (fileName path)

def baseName (path : String) : String := (segments path).getLast?.getD ""

/-- From the last dot of the base name on, unless only dots stand before it. -/
def extension (path : String) : String :=
  match suffixOf.cut (baseName path).toList.reverse with
  | some (tail, head) => if head.all (· == '.') then "" else String.ofList ('.' :: tail.reverse)
  | none => ""

/-- Resolves double dots, from the segments read so far (last first). -/
def collapse (rooted : Bool) : List String → List String → List String
  | done, [] => done.reverse
  | done, s :: rest =>
    if s == "" || s == "." then collapse rooted done rest
    else if s != ".." then collapse rooted (s :: done) rest
    else match done with
      | [] => if rooted then collapse rooted [] rest else collapse rooted [s] rest
      | ".." :: _ => collapse rooted (s :: done) rest
      | _ :: above => collapse rooted above rest

/-- The normal form of a path; the empty path is a single dot. -/
def normal (path : String) : String :=
  let text := anchor path ++ join "/" (collapse (isAbsolute path) [] (segments path))
  if text == "" then "." else text

/-- A path below a directory. An absolute path stays as it is. -/
def below (directory path : String) : String :=
  if isAbsolute path then path
  else if directory == "" || directory.toList.getLast? == some '/' then directory ++ path
  else directory ++ "/" ++ path

def absolute (working path : String) : String := normal (below working path)

/-- Drops the common start of two lists. -/
def dropCommon : List String → List String → List String × List String
  | x :: xs, y :: ys => if x == y then dropCommon xs ys else (x :: xs, y :: ys)
  | xs, ys => (xs, ys)

/-- The way from one absolute directory to a path, by text alone. -/
def wayTo (start path : String) : String :=
  let named (p : String) := (segments p).filter (· != "")
  let (up, down) := dropCommon (named start) (named path)
  let way := up.map (fun _ => "..") ++ down
  if way.isEmpty then "." else join "/" way

/-- The way from a directory to a path, both in the working directory. The empty path has none. -/
def relative? (working path start : String) : Option String :=
  if path == "" then none
  else some (wayTo (absolute working start) (absolute working path))

end Synopsis.Path
