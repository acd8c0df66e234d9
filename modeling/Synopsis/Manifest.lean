import Synopsis.Json.Reader
import Synopsis.Requirement
import Synopsis.Stack
import Synopsis.Text.Utf8
import Synopsis.Toml.Reader
/-!
# Manifests

A project declares what it depends on in one of three files: a package description, a list of
requirements or a project file. The first of them that can be read decides alone. Entries of the
wrong kind declare nothing, and a file of the first two kinds that cannot be read counts as
missing. Only nesting without measure and numbers of thousands of digits are refused.
-/

namespace Synopsis

/-- The bytes of the files that may declare dependencies; a missing file has none. -/
structure Manifests where
  /-- The package description, in the JSON format. -/
  package : Option ByteArray := none
  /-- The list of requirements. -/
  requirements : Option ByteArray := none
  /-- The project file, in the TOML format. -/
  project : Option ByteArray := none

namespace Manifest

def packageName : String := "package.json"

def requirementsName : String := "requirements.txt"

def projectName : String := "pyproject.toml"

inductive Fault where
  /-- The package description is nested too deeply; the refusal in words. -/
  | deepPackage (reason : String)
  /-- The project file is nested too deeply. -/
  | deepProject
  /-- The project file has a number of too many digits to be read. -/
  | longNumeral (digits : Nat)
  /-- The project file has a number of too many digits to be written. -/
  | longValue
  deriving DecidableEq, Repr

def Fault.message : Fault → String
  | .deepPackage reason => reason
  | .deepProject => "maximum recursion depth exceeded"
  | .longNumeral digits => Decimal.longNumeralMessage digits
  | .longValue => Decimal.longWriteMessage

/-! ## The package description -/

/-- The fields of the package description; none if it is missing, cannot be read or is no table. -/
def packageFields? (manifests : Manifests) : Except Fault (Option (Table Datum)) :=
  match manifests.package.map Text.ofFile with
  | some (.ok text) =>
    match Json.parse text with
    | .ok (.table fields) => .ok (some fields)
    | .ok _ => .ok none
    | .error e => if e.isDeep then .error (.deepPackage (e.message text)) else .ok none
  | _ => .ok none

/-- The fields of the package description, none of them when there is no description. -/
def packageFields (manifests : Manifests) : Except Fault (Table Datum) :=
  (packageFields? manifests).map fun fields => fields.getD []

/-- Names with versions as texts, from a table; anything else has none. -/
def versions (value : Option Datum) : Table String :=
  match value with
  | some (.table fields) => fields.map fun (name, version) => (name, version.asText)
  | _ => []

def ofPackage (fields : Table Datum) : Dependencies :=
  { manager := some "npm"
    production := versions (Table.get? "dependencies" fields)
    development := versions (Table.get? "devDependencies" fields) }

def targets (fields : Table Datum) : List String :=
  let main := match Table.get? "main" fields with
    | some (.text s) => if s == "" then [] else [s]
    | _ => []
  let commands := match Table.get? "bin" fields with
    | some (.text s) => if s == "" then [] else [s]
    | some (.table entries) => (entries.map Prod.snd).filter Datum.isSet |>.map Datum.asText
    | _ => []
  main ++ commands

/-! ## The list of requirements -/

/-- What the list of requirements declares; none if it is missing or its bytes are no text. -/
def ofRequirements? (manifests : Manifests) : Option Dependencies :=
  match manifests.requirements.map Text.ofFile with
  | some (.ok content) => some { manager := some "pip", production := requirements content }
  | _ => none

/-! ## The project file -/

/-- What a value holds under a name; only a table holds something. -/
def within (name : String) (value : Option Datum) : Option Datum := value.bind (Datum.get? name)

def developmentGroups : List String := ["dev", "test", "tests"]

/-- The requirements in a list of entries; an entry that is no text or no requirement has none. -/
def entries (value : Option Datum) : Table String :=
  match value with
  | some (.list items) =>
    Table.ofPairs ((items.filterMap Datum.text?).filterMap fun s => Requirement.ofItem? s.toList)
  | _ => []

/-- The version that a value asks for: that of a table is under `version`. -/
def versionOf : Datum → Datum
  | .table fields => (Table.get? "version" fields).getD (.text anyVersion)
  | value => value

/-- The names of a table with their versions, without the language itself. -/
def constraints (value : Option Datum) : Except Fault (Table String) :=
  match value with
  | some (.table fields) =>
    let wanted := (fields.filter fun (name, _) => Text.lower name != "python").map
      fun (name, value) => (name, versionOf value)
    if wanted.any (·.2.holdsLong) then .error .longValue
    else .ok (wanted.map fun (name, version) => (name, version.asText))
  | _ => .ok []

def ofProjectTable (project : Option Datum) : Dependencies :=
  let optional := within "optional-dependencies" project
  { production := entries (within "dependencies" project)
    development := developmentGroups.foldl
      (fun table group => table.merge (entries (within group optional))) [] }

/-- The tables of development dependencies of the packaging tool, in order. -/
def toolGroups (tool : Option Datum) : List (Option Datum) :=
  within "dev-dependencies" tool ::
    developmentGroups.map fun group => within "dependencies" (within group (within "group" tool))

/-- What the packaging tool declares besides, put over what is declared already. -/
def withTool (tool : Option Datum) (declared : Dependencies) : Except Fault Dependencies := do
  let production ← constraints (within "dependencies" tool)
  let development ← (toolGroups tool).mapM constraints
  return { declared with
    production := declared.production.merge production
    development := development.foldl Table.merge declared.development }

/-- What a project file declares. -/
def ofProjectValue (value : Datum) : Except Fault Dependencies :=
  withTool (within "poetry" (value.get? "tool"))
    { ofProjectTable (value.get? "project") with manager := some "poetry/pip" }

/-- Reads a project file; one that is no document has the reason in place of a value. -/
def readProject (bytes : ByteArray) : Except Fault (Except String Datum) :=
  match Text.ofFile bytes with
  | .error e => .ok (.error e.message)
  | .ok text =>
    match Toml.parse text with
    | .ok value => .ok (.ok value)
    | .error .malformed => .ok (.error "malformed document")
    | .error (.longInteger digits) => .error (.longNumeral digits)
    | .error .nesting => .error .deepProject

/-- What the project file declares: nothing if it is no document. -/
def ofProject (bytes : ByteArray) : Except Fault Dependencies :=
  match readProject bytes with
  | .error e => .error e
  | .ok (.error _) => .ok { manager := some "poetry/pip" }
  | .ok (.ok value) => ofProjectValue value

/-- What the first manifest that can be read declares. -/
def dependencies (manifests : Manifests) : Except Fault Dependencies :=
  match packageFields? manifests with
  | .error e => .error e
  | .ok (some fields) => .ok (ofPackage fields)
  | .ok none =>
    match ofRequirements? manifests with
    | some declared => .ok declared
    | none => match manifests.project with
      | some bytes => ofProject bytes
      | none => .ok {}

end Manifest

end Synopsis
