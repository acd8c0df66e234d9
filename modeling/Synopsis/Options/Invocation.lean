import Synopsis.Command.Reports
import Synopsis.Decimal.Read
import Synopsis.Options.Reader
/-!
# Invocations

The arguments of the program: what is to be done and how, or why nothing is. Each command has its
own switches; the switch for more notices may stand before and after the command.
-/

namespace Synopsis

inductive Job where
  | summary (options : Command.SummaryOptions)
  | describe (options : Command.FileOptions)
  | report (options : Command.ExportOptions)

structure Invocation where
  verbose : Bool
  logFile : Option String
  job : Job

inductive Stop where
  /-- The usage of a program is asked for. -/
  | help (usage : String)
  | version
  /-- The arguments of a program are refused. -/
  | refused (program usage reason : String)
  deriving DecidableEq, Repr

namespace Invocation

open Options

def program : String := "briefly"

def version : String := "0.1.0"

inductive Meaning where
  | help | version | verbose | logFile | withoutModel | depth | output | showTree | path
  | includeCode
  deriving DecidableEq, Repr

structure Draft where
  verbose : Bool := false
  logFile : Option String := none
  command : String := ""
  operand : String := ""
  useModel : Bool := true
  depth : Option Int := none
  output : Option String := none
  showTree : Bool := false
  path : String := "."
  includeCode : Bool := false

/-! ## Grammars -/

def helpSwitch : Switch Meaning := { names := ["-h", "--help"], meaning := .help }

def verboseSwitch : Switch Meaning := { names := ["-v", "--verbose"], meaning := .verbose }

def modelSwitch : Switch Meaning := { names := ["--no-ai"], meaning := .withoutModel }

def outputSwitch : Switch Meaning :=
  { names := ["-o", "--output"], meaning := .output, takesValue := true }

/-- A command of its own name, with its switches, its operand and its usage. -/
structure Part where
  name : String
  grammar : Grammar Meaning
  usage : String

/-- The program as it is called. -/
def Part.program (part : Part) : String :=
  if part.name == "" then Invocation.program else Invocation.program ++ " " ++ part.name

def whole : Part :=
  { name := ""
    grammar := {
      switches := [helpSwitch, { names := ["--version"], meaning := .version }, verboseSwitch,
        { names := ["--log-file"], meaning := .logFile, takesValue := true }]
      operand := some (.command "command") }
    usage := "usage: briefly [-h] [--version] [-v] [--log-file LOG_FILE]\n" ++
      "               \x7bsummary,module,export\x7d ...\n" }

def summaryPart : Part :=
  { name := "summary"
    grammar := {
      switches := [helpSwitch, verboseSwitch, modelSwitch,
        { names := ["-d", "--depth"], meaning := .depth, takesValue := true }, outputSwitch]
      operand := some (.single "path") }
    usage := "usage: briefly summary [-h] [-v] [--no-ai] [-d DEPTH] [-o OUTPUT] path\n" }

def describePart : Part :=
  { name := "module"
    grammar := {
      switches := [helpSwitch, verboseSwitch, modelSwitch, outputSwitch,
        { names := ["--show-ast"], meaning := .showTree }]
      operand := some (.single "file") }
    usage := "usage: briefly module [-h] [-v] [--no-ai] [-o OUTPUT] [--show-ast] file\n" }

def reportPart : Part :=
  { name := "export"
    grammar := {
      switches := [helpSwitch, verboseSwitch, modelSwitch,
        { names := ["-p", "--path"], meaning := .path, takesValue := true }, outputSwitch,
        { names := ["--include-code"], meaning := .includeCode }]
      operand := none }
    usage := "usage: briefly export [-h] [-v] [--no-ai] [-p PATH] [-o OUTPUT] [--include-code]\n" }

def parts : List Part := [summaryPart, describePart, reportPart]

/-! ## Reading -/

def Part.refuse (part : Part) (reason : String) : Stop :=
  .refused part.program part.usage reason

def wholeNumber? (text : String) : Option Int :=
  if Decimal.longestNumeral < Decimal.lenientDigits text then none else Decimal.lenientInt? text

def takeSwitch (part : Part) (taken : Taken Meaning) (draft : Draft) : Except Stop Draft :=
  let value := taken.value.getD ""
  match taken.switch.meaning with
  | .help => .error (.help part.usage)
  | .version => .error .version
  | .verbose => .ok { draft with verbose := true }
  | .logFile => .ok { draft with logFile := some value }
  | .withoutModel => .ok { draft with useModel := false }
  | .output => .ok { draft with output := some value }
  | .showTree => .ok { draft with showTree := true }
  | .path => .ok { draft with path := value }
  | .includeCode => .ok { draft with includeCode := true }
  | .depth =>
    match wholeNumber? value with
    | some depth => .ok { draft with depth := some depth }
    | none => .error (part.refuse
        (wrong taken.switch ("invalid int value: " ++ Text.quoted value)))

def Part.handler (part : Part) : Handler Meaning Stop Draft :=
  { refuse := part.refuse
    switch := takeSwitch part
    operand := fun texts draft => .ok ({ draft with operand := texts.headD "" }, []) }

/-- The refusal of a word that is no command. -/
def noCommand (word : String) : Stop :=
  let choices := Text.join ", " (parts.map fun part => Text.quoted part.name)
  whole.refuse s!"argument command: invalid choice: {Text.quoted word} (choose from {choices})"

def readCommand (texts : List String) (draft : Draft) : Except Stop (Draft × List String) :=
  let word := texts.headD ""
  match parts.find? (·.name == word) with
  | none => .error (noCommand word)
  | some part => Options.read part.grammar part.handler { draft with command := word }
      (texts.drop 1)

/-- What is to be done after everything is read. -/
def Draft.job (draft : Draft) : Job :=
  if draft.command == summaryPart.name then
    .summary ⟨draft.operand, draft.depth, draft.output, draft.useModel⟩
  else if draft.command == describePart.name then
    .describe ⟨draft.operand, draft.output, draft.showTree, draft.useModel⟩
  else
    .report ⟨draft.path, draft.output.getD Command.exportOutput, draft.includeCode, draft.useModel⟩

def read (arguments : List String) : Except Stop Invocation := do
  let handler : Handler Meaning Stop Draft := { whole.handler with operand := readCommand }
  let (draft, extra) ← Options.read whole.grammar handler {} arguments
  if extra.isEmpty then
    return ⟨draft.verbose, draft.logFile, draft.job⟩
  else throw (whole.refuse ("unrecognized arguments: " ++ Text.join " " extra))

end Invocation

end Synopsis
