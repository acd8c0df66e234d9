import Synopsis.Text.Utf8
import Synopsis.Yaml.Value
/-!
# Settings

What a settings file says about summaries by a model, about the scan and about the report. A value
of the wrong kind counts as not given, and so does everything in a section that is no table. The
file as a whole has to be a document with a table at its root, or to be empty.
-/

namespace Synopsis

structure SummarySettings where
  enabled : Bool := true
  model : Option String := none
  baseUrl : Option String := none
  apiKey : Option String := none
  temperature : Option Float := none
  maxTokens : Option Int := none
  requestTimeout : Option Float := none

/-- The depth of a scan and the patterns it leaves out besides the default ones. -/
structure ScanSettings where
  maxDepth : Option Int := none
  excludePaths : List String := []

/-- How many files a report shows, and how many of them are summarized. -/
structure ExportSettings where
  maxFiles : Int := 20
  maxSummaries : Int := 10

structure Settings where
  summarizer : SummarySettings := {}
  scan : ScanSettings := {}
  report : ExportSettings := {}

namespace Settings

def fileName : String := ".briefly.yml"

inductive Fault where
  /-- The bytes of the file are no text. -/
  | undecodable (fault : Text.Utf8.Fault)
  /-- The file is no document. -/
  | malformed
  /-- The root of the document is no table. -/
  | noTable
  /-- A value of the document has no meaning. -/
  | meaningless (fault : Yaml.Fault)
  /-- A whole number is too large for a floating point number. -/
  | tooLarge
  /-- A whole number has too many digits to be written. -/
  | longValue
  deriving DecidableEq, Repr

def Fault.message : Fault → String
  | .undecodable fault => fault.message
  | .malformed => "Failed to parse " ++ fileName
  | .noTable => fileName ++ " must contain a mapping at the root"
  | .meaningless fault => fault.message
  | .tooLarge => "int too large to convert to float"
  | .longValue => Decimal.longWriteMessage

/-! ## Reading one value -/

/-- A value as a text: a text, a number or a truth value. -/
def textOf : Option Datum → Except Fault (Option String)
  | some (.int n) => if Decimal.isLong n then .error .longValue else .ok (some (toString n))
  | some (.text s) => .ok (some s)
  | some (.bool b) => .ok (some (Datum.bool b).asText)
  | some (.float x) => .ok (some (Datum.float x).asText)
  | _ => .ok none

/-- A value as a number: a number, or a text that holds one. -/
def numberOf : Option Datum → Except Fault (Option Float)
  | some (.int n) => match Decimal.floatOfInt? n with
    | some x => .ok (some x)
    | none => .error .tooLarge
  | some (.float x) => .ok (some x)
  | some (.text s) => .ok (Decimal.lenientFloat? s)
  | _ => .ok none

/-- A value as a whole number: a whole number, or a text that holds one. -/
def wholeOf : Option Datum → Option Int
  | some (.int n) => some n
  | some (.text s) =>
    if Decimal.longestNumeral < Decimal.lenientDigits s then none else Decimal.lenientInt? s
  | _ => none

/-- A value as a truth value: a truth value, or a word for one. -/
def truthOf : Option Datum → Option Bool
  | some (.bool b) => some b
  | some (.text s) =>
    let word := Text.lower (Text.strip s)
    if ["true", "yes", "1"].contains word then some true
    else if ["false", "no", "0"].contains word then some false
    else none
  | _ => none

/-- A value as a list of texts: one text, or the texts, numbers and truth values of a list. -/
def textsOf : Option Datum → Except Fault (List String)
  | some (.text s) => .ok [s]
  | some (.list items) => do
    let texts ← items.mapM fun item => textOf (some item)
    return texts.filterMap id
  | _ => .ok []

/-! ## Reading the document -/

def sectionOf (name : String) (document : Datum) : Table Datum :=
  ((document.get? name).map Datum.fields).getD []

def summarizerOf (fields : Table Datum) : Except Fault SummarySettings := do
  let value (name : String) := Table.get? name fields
  return {
    enabled := (truthOf (value "enabled")).getD true
    model := ← textOf (value "model")
    baseUrl := ← textOf (value "base_url")
    apiKey := ← textOf (value "api_key")
    temperature := ← numberOf (value "temperature")
    maxTokens := wholeOf (value "max_tokens")
    requestTimeout := ← numberOf (value "request_timeout") }

def scanOf (fields : Table Datum) : Except Fault ScanSettings := do
  return {
    maxDepth := wholeOf (Table.get? "max_depth" fields)
    excludePaths := ← textsOf (Table.get? "exclude_paths" fields) }

def reportOf (fields : Table Datum) : ExportSettings :=
  let default : ExportSettings := {}
  { maxFiles := (wholeOf (Table.get? "max_files" fields)).getD default.maxFiles
    maxSummaries := (wholeOf (Table.get? "max_summaries" fields)).getD default.maxSummaries }

def ofDatum (document : Datum) : Except Fault Settings := do
  return {
    summarizer := ← summarizerOf (sectionOf "summarizer" document)
    scan := ← scanOf (sectionOf "scan" document)
    report := reportOf (sectionOf "export" document) }

/-- The settings that a text gives. A blank text, or one whose value counts as not there, leaves all
settings as they are by default. -/
def ofText (text : String) : Except Fault Settings :=
  if Text.strip text == "" then .ok {}
  else match Yaml.parse text with
    | .error .malformed => .error .malformed
    | .error e => .error (.meaningless e)
    | .ok document =>
      if !document.isSet then .ok {}
      else match document with
        | .table _ => ofDatum document
        | _ => .error .noTable

def ofFile (bytes : ByteArray) : Except Fault Settings :=
  match Text.ofFile bytes with
  | .error e => .error (.undecodable e)
  | .ok text => ofText text

end Settings

end Synopsis
