import Synopsis.Extract
import Synopsis.Proofs.Python.Lines

/-!
# Facts and the numbers of their lines

A line of a text says one thing or nothing, and what it says is recorded under its own number. So
the facts that have a given number are told by the text alone: they are those that the line of this
number would add. From this it follows which numbers there are, and that no two facts share one.
Comments have no line and are not spoken of; the outline of a text has none.
-/

namespace Synopsis

/-- The kinds of facts that are told by a line. -/
inductive FactKind where
  | imports | exports | function | «class» | variable
  deriving DecidableEq, Repr

namespace Facts

/-- The numbers of the lines that tell the facts of a kind, fact by fact. -/
def linesOf (facts : Facts) : FactKind → List Nat
  | .imports => facts.imports.map (·.line)
  | .exports => facts.exports.map (·.line)
  | .function => facts.functions.map (·.line)
  | .class => facts.classes.map (·.line)
  | .variable => facts.variables.map (·.line)

/-- The facts that the line of one number tells. Comments have no number and are kept. -/
def onLine (number : Nat) (facts : Facts) : Facts where
  imports := facts.imports.filter (·.line == number)
  exports := facts.exports.filter (·.line == number)
  functions := facts.functions.filter (·.line == number)
  classes := facts.classes.filter (·.line == number)
  «variables» := facts.variables.filter (·.line == number)
  comments := facts.comments

theorem empty_append (facts : Facts) : append {} facts = facts := by
  simp [append]

theorem linesOf_append (first second : Facts) (kind : FactKind) :
    (first.append second).linesOf kind = first.linesOf kind ++ second.linesOf kind := by
  cases kind <;> exact List.map_append

theorem onLine_append (number : Nat) (first second : Facts) :
    (first.append second).onLine number = (first.onLine number).append (second.onLine number) := by
  simp only [append, onLine, List.filter_append]

/-- The facts with a number are those on the line of this number. -/
theorem mem_linesOf_iff {facts : Facts} {kind : FactKind} {number : Nat} :
    number ∈ facts.linesOf kind ↔ (facts.onLine number).linesOf kind ≠ [] := by
  cases kind <;> simp [linesOf, onLine]

end Facts

/-- A record in which no line tells two facts. -/
structure FileRecord.OneFactALine (record : FileRecord) : Prop where
  increasing : ∀ kind, (record.facts.linesOf kind).Pairwise (· < ·)
  /-- Facts of two kinds have no line in common. -/
  apart : ∀ kind other, kind ≠ other →
    ∀ number ∈ record.facts.linesOf kind, number ∉ record.facts.linesOf other
  /-- Every line that is named is one of the lines that are counted. -/
  within : ∀ kind, ∀ number ∈ record.facts.linesOf kind,
    1 ≤ number ∧ (number : Int) ≤ record.lines

namespace Python

open Synopsis.Text

/-! ## What one line tells -/

/-- The kind of the fact that a statement is recorded as. -/
def Statement.kind : Statement → FactKind
  | .imports _ => .imports
  | .function .. => .function
  | .class .. => .class
  | .constant _ => .variable

theorem linesOf_record (number : Nat) (said : Option Statement) (kind : FactKind) :
    (record number {} said).linesOf kind =
      if said.map Statement.kind = some kind then [number] else [] := by
  rcases said with _ | ⟨source | ⟨indented, name, params⟩ | ⟨name, superclass⟩ | name⟩ <;>
    cases kind <;> rfl

theorem onLine_record_self (number : Nat) (said : Option Statement) :
    (record number {} said).onLine number = record number {} said := by
  rcases said with _ | ⟨source | ⟨indented, name, params⟩ | ⟨name, superclass⟩ | name⟩ <;>
    simp [record, Facts.onLine]

theorem onLine_record_of_ne {number other : Nat} (different : other ≠ number)
    (said : Option Statement) : (record other {} said).onLine number = {} := by
  rcases said with _ | ⟨source | ⟨indented, name, params⟩ | ⟨name, superclass⟩ | name⟩ <;>
    simp [record, Facts.onLine, different]

/-! ## What all lines tell -/

/-- What a line says when the carriage returns at its end are left out. -/
def lineStatement? (line : List Char) : Option Statement := statement? (dropTrailing '\r' line)

/-- What the line of a number says, among lines the first of which has the number `first`. -/
def saidOn (first : Nat) (lines : List (List Char)) (number : Nat) : Option Statement :=
  if number < first then none else lines[number - first]?.bind lineStatement?

theorem factsFrom_cons (first : Nat) (line : List Char) (lines : List (List Char)) :
    factsFrom first {} (line :: lines) =
      (record first {} (lineStatement? line)).append (factsFrom (first + 1) {} lines) := by
  rw [factsFrom, factsFrom_eq, lineStatement?]

/-- The facts with a number are what the line of this number says. -/
theorem onLine_factsFrom (first : Nat) (lines : List (List Char)) (number : Nat) :
    (factsFrom first {} lines).onLine number = record number {} (saidOn first lines number) := by
  induction lines generalizing first with
  | nil =>
    have silent : saidOn first [] number = none := by simp [saidOn]
    rw [silent]
    rfl
  | cons line lines ih =>
    rw [factsFrom_cons, Facts.onLine_append, ih]
    rcases Nat.lt_trichotomy number first with above | here | below
    · have next : number < first + 1 := by omega
      rw [onLine_record_of_ne (by omega), saidOn, saidOn, if_pos above, if_pos next]
      rfl
    · subst here
      have rest : saidOn (number + 1) lines number = none := if_pos (Nat.lt_succ_self number)
      have own : saidOn number (line :: lines) number = lineStatement? line := by simp [saidOn]
      rw [onLine_record_self, rest, own]
      exact Facts.append_empty _
    · have shift : number - first = number - (first + 1) + 1 := by omega
      rw [onLine_record_of_ne (by omega), Facts.empty_append, saidOn, saidOn, if_neg (by omega),
        if_neg (by omega), shift, List.getElem?_cons_succ]

/-- The numbers of facts of one kind are numbers of lines, in their order. -/
theorem linesOf_factsFrom_sublist (first : Nat) (lines : List (List Char)) (kind : FactKind) :
    ((factsFrom first {} lines).linesOf kind).Sublist (List.range' first lines.length) := by
  induction lines generalizing first with
  | nil => cases kind <;> exact List.nil_sublist _
  | cons line lines ih =>
    rw [factsFrom_cons, Facts.linesOf_append, linesOf_record, List.length_cons, List.range'_succ]
    split
    · exact (ih (first + 1)).cons_cons first
    · exact (ih (first + 1)).cons first

/-! ## Texts -/

/-- What the line of a number says in a text. Lines are counted from one. -/
def saidIn (text : String) (number : Nat) : Option Statement :=
  saidOn 1 (splitOn '\n' text.toList) number

/-- A line that is given by its place says what it says under its number. -/
theorem saidIn_succ {text : String} {place : Nat} {line : List Char}
    (here : (splitOn '\n' text.toList)[place]? = some line) :
    saidIn text (place + 1) = lineStatement? line := by
  rw [saidIn, saidOn, if_neg (by omega), Nat.add_sub_cancel, here, Option.bind_some]

theorem exists_line_of_saidIn {text : String} {number : Nat} {said : Statement}
    (h : saidIn text number = some said) :
    ∃ line ∈ splitOn '\n' text.toList, lineStatement? line = some said := by
  rw [saidIn, saidOn] at h
  split at h
  · cases h
  · obtain ⟨line, here, tells⟩ := Option.bind_eq_some_iff.mp h
    exact ⟨line, List.mem_of_getElem? here, tells⟩

theorem onLine_facts (text : String) (number : Nat) :
    (facts text).onLine number = record number {} (saidIn text number) :=
  onLine_factsFrom 1 _ number

theorem mem_linesOf_facts {text : String} {kind : FactKind} {number : Nat} :
    number ∈ (facts text).linesOf kind ↔ (saidIn text number).map Statement.kind = some kind := by
  rw [Facts.mem_linesOf_iff, onLine_facts, linesOf_record]
  simp

/-- The record of a Python text has at most one fact for each line. -/
theorem one_fact_a_line {path : String} (python : SourceKind.ofPath path = .python)
    (content : String) (withTree : Bool) : (extractFile path content withTree).OneFactALine := by
  have told : (extractFile path content withTree).facts = facts content := by
    simp only [extractFile, extractFileBy, python, extractKind]
  have lines : (extractFile path content withTree).lines = content.toList.count '\n' + 1 := rfl
  have inside (kind : FactKind) := linesOf_factsFrom_sublist 1 (splitOn '\n' content.toList) kind
  constructor
  case increasing =>
    intro kind
    rw [told]
    exact List.Pairwise.sublist (inside kind) (List.pairwise_lt_range' 1)
  case apart =>
    intro kind other different number here there
    rw [told, mem_linesOf_facts] at here there
    exact different (Option.some.inj (here.symm.trans there))
  case within =>
    intro kind number h
    rw [told] at h
    have bounds := List.mem_range'_1.mp ((inside kind).subset h)
    rw [length_splitOn] at bounds
    omega

/-- A text with a fact of each kind that lines tell. -/
def sampleModule : String := "import os\nclass A(B):\n    def f(self):\nLIMIT = 1\n"

theorem one_fact_a_line_module :
    SourceKind.ofPath "module.py" = .python ∧
      (extractFile "module.py" sampleModule false).OneFactALine :=
  have python : SourceKind.ofPath "module.py" = .python := by decide
  ⟨python, one_fact_a_line python sampleModule false⟩

end Python

end Synopsis
