import Synopsis.Report.Prompt
import Synopsis.Session
/-!
# Summaries

A project or a file is summarized by asking a question about it. When there is no answer, a notice
says so and there is no summary; only faults that no network can cause are passed on.
-/

namespace Synopsis

inductive Subject where
  | project (facts : ProjectFacts)
  | file (record : FileRecord) (content : String)

namespace Subject

def kind : Subject → String
  | .project _ => "project"
  | .file _ _ => "module"

/-- What a subject is called when it is asked about in a wrong way. -/
def label : Subject → String
  | .project _ => "ProjectFacts"
  | .file _ _ => "ModuleBundle"

def question : Subject → Except SizeOverflow Question
  | .project facts => do return ⟨← Prompt.ofProject facts, some Prompt.projectInstructions⟩
  | .file record content => do return ⟨← Prompt.ofFile record content, some Prompt.fileInstructions⟩

end Subject

namespace Summary

inductive Fault where
  /-- A subject is not of the kind that it is said to be. -/
  | wrongKind (label kind : String)
  | size (fault : SizeOverflow)
  | endpoint (fault : Endpoint.Fault)
  deriving DecidableEq, Repr

def Fault.message : Fault → String
  | .wrongKind label kind => s!"Cannot summarize {label} as {Text.quoted kind}"
  | .size fault => fault.message
  | .endpoint fault => fault.message

/-- The question about a subject that is said to be of a kind. -/
def questionAs (kind : String) (subject : Subject) : Except Fault Question :=
  if kind != subject.kind then .error (.wrongKind subject.label kind)
  else subject.question.mapError .size

/-- Takes an answer as a summary. There is none after a fault that is tolerated. -/
def accept : Except Endpoint.Fault String → ExceptT Fault (StateM Session) (Option String)
  | .ok text => return some text
  | .error fault =>
    if fault.isTolerated then do
      Session.tell (.unsummarized fault.message)
      return none
    else throw (.endpoint fault)

/-- A summary of a subject that is said to be of a kind. -/
def ofKind (runner : Runner) (kind : String) (subject : Subject) :
    ExceptT Fault (StateM Session) (Option String) := do
  let question ← questionAs kind subject
  accept (← Session.ask runner question)

def of (runner : Runner) (subject : Subject) : ExceptT Fault (StateM Session) (Option String) :=
  ofKind runner subject.kind subject

end Summary

end Synopsis
