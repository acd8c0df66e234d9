import Synopsis.Proofs.Outcome
import Synopsis.Report.Markdown

/-!
# The parts of a report in Markdown

A report is a text of lines, put together from parts in a fixed order: among them the tree of
directories, the tables of dependencies and one section for each file. There is none only if the
size of the project has no text or a file has no path.
-/

namespace Synopsis.Markdown

variable {working generatedAt : String} {facts : ProjectFacts} {summary : Option String}
  {docs : List FileDoc} {includeCode : Bool}

/-- The text of lines that each end in a newline. -/
def printed (lines : List String) : String := String.join (lines.map (· ++ "\n"))

theorem printed_append (lines more : List String) :
    printed (lines ++ more) = printed lines ++ printed more := by
  rw [printed, List.map_append, String.join_append, ← printed, ← printed]

theorem printed_cons (line : String) (more : List String) :
    printed (line :: more) = line ++ "\n" ++ printed more := by
  rw [← List.singleton_append, printed_append]
  rfl

/-- The text of some lines among others is a part of the text. -/
theorem printed_of_isInfix {own all : List String} (inside : own <:+: all) :
    ∃ front back, printed all = front ++ printed own ++ back := by
  obtain ⟨before, after, rfl⟩ := inside
  exact ⟨printed before, printed after, by rw [printed_append, printed_append]⟩

/-- The sections of files under one heading; nothing if there are none. -/
def documentationPart (sections : List (List String)) : List String :=
  linesIf (!sections.isEmpty) (["## File Documentation", ""] ++ sections.flatten)

/-- The section of a file, under its path seen from the root of the project. -/
def IsSection (working root : String) (includeCode : Bool) (doc : FileDoc) (own : List String) :
    Prop :=
  ∃ way, shownPath working root doc = .ok way ∧ own = fileLines way includeCode doc

theorem exists_of_mem_forall₂ {α β : Type} {R : α → β → Prop} {items : List α} {others : List β}
    {item : α} (each : List.Forall₂ R items others) (listed : item ∈ items) :
    ∃ other ∈ others, R item other := by
  induction each with
  | nil => cases listed
  | cons related _ ih =>
    rcases List.mem_cons.mp listed with rfl | listed
    · exact ⟨_, List.mem_cons_self, related⟩
    · obtain ⟨other, inside, related⟩ := ih listed
      exact ⟨other, List.mem_cons_of_mem _ inside, related⟩

theorem isSection_fileLines {root : String} {ways : List String}
    (named : docs.mapM (shownPath working root) = .ok ways) :
    List.Forall₂ (IsSection working root includeCode) docs
      ((ways.zip docs).map fun (way, doc) => fileLines way includeCode doc) := by
  have each := forall₂_of_mapM_ok named
  clear named
  induction each with
  | nil => exact .nil
  | cons told _ ih => exact .cons ⟨_, told, rfl⟩ ih

theorem documentation_eq_ok {files : List String}
    (made : documentation working facts docs includeCode = .ok files) :
    ∃ sections, List.Forall₂ (IsSection working facts.root includeCode) docs sections ∧
      files = documentationPart sections := by
  obtain ⟨ways, named, made⟩ := bind_eq_ok.mp made
  cases made
  have each : List.Forall₂ (IsSection working facts.root includeCode) docs
      ((ways.zip docs).map fun (way, doc) => fileLines way includeCode doc) :=
    isSection_fileLines named
  have empty : docs.isEmpty = ((ways.zip docs).map fun (way, doc) =>
      fileLines way includeCode doc).isEmpty := by
    rw [Bool.eq_iff_iff, List.isEmpty_iff_length_eq_zero, List.isEmpty_iff_length_eq_zero,
      each.length_eq]
  refine ⟨_, each, ?_⟩
  rw [documentationPart, ← empty, List.flatMap_def]

/-- The lines of a report around its tree, its tables and its sections. -/
theorem lines_eq_ok {all : List String}
    (made : lines working facts summary docs includeCode generatedAt = .ok all) :
    ∃ front entries sections back,
      List.Forall₂ (IsSection working facts.root includeCode) docs sections ∧
        all = front ++ structureLines facts ++ entries ++ dependencyLines facts.dependencies ++
          documentationPart sections ++ back := by
  obtain ⟨size, -, made⟩ := bind_eq_ok.mp made
  obtain ⟨files, documented, made⟩ := bind_eq_ok.mp made
  cases made
  obtain ⟨sections, each, rfl⟩ := documentation_eq_ok documented
  exact ⟨_, _, sections, _, each, rfl⟩

theorem report_eq_ok {text : String}
    (made : report working facts summary docs includeCode generatedAt = .ok text) :
    ∃ all, lines working facts summary docs includeCode generatedAt = .ok all ∧
    text = printed all := by
  obtain ⟨all, told, made⟩ := bind_eq_ok.mp made
  cases made
  exact ⟨all, told, rfl⟩

/-- Why there can be no report. -/
def Unreportable (facts : ProjectFacts) (docs : List FileDoc) : Prop :=
  (∃ overflow, sizeText facts.totalSize = .error overflow) ∨ ∃ doc ∈ docs, doc.record.path = ""

theorem report_eq_error {fault : Fault}
    (failed : report working facts summary docs includeCode generatedAt = .error fault) :
    Unreportable facts docs := by
  rcases bind_eq_error.mp failed with failed | ⟨_, _, ⟨⟩⟩
  rcases bind_eq_error.mp failed with unsized | ⟨size, -, failed⟩
  · cases sized : sizeText facts.totalSize with
    | ok size => rw [sized] at unsized; cases unsized
    | error overflow => exact Or.inl ⟨overflow, sized⟩
  · rcases bind_eq_error.mp failed with undocumented | ⟨_, _, ⟨⟩⟩
    rcases bind_eq_error.mp undocumented with unnamed | ⟨_, _, ⟨⟩⟩
    obtain ⟨doc, listed, unnamed⟩ := mapM_eq_error unnamed
    refine Or.inr ⟨doc, listed, ?_⟩
    by_contra named
    rw [shownPath, Path.relative?, if_neg (by simpa using named)] at unnamed
    cases unnamed

/-- A project of which nothing is known. -/
def emptyFacts : ProjectFacts :=
  { name := "p", root := "/p", files := [], total := 0, byExtension := [], byDirectory := [],
    totalSize := 0, categories := [], directories := [], depth := 0, dependencies := {},
    entryPoints := [], techStack := [] }

end Synopsis.Markdown
