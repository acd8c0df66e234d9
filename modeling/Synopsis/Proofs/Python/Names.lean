import Synopsis.Proofs.Python.Numbering
import Synopsis.Proofs.Python.Patterns

/-!
# Names in outlines

A name that is recorded is a real one: it is not empty, and no blanks stand around it. There is one
exception. An import of nothing, the word `import` with only blanks after it, is recorded when there
are two of them or more, and what it imports has the empty name. Whether the names are those that a
compiler would find is not spoken of.
-/

namespace Synopsis

/-- A name that is not empty and has no blanks around it. -/
structure IsRealName (name : String) : Prop where
  nonempty : name ≠ ""
  trimmed : Text.Trimmed name.toList

/-- The names that facts declare: those of functions and their parameters, of classes and what they
extend, and of variables. -/
def Facts.declaredNames (facts : Facts) : List String :=
  facts.functions.flatMap (fun r => r.name :: r.params) ++
    facts.classes.flatMap (fun r => r.name :: r.superclass.toList) ++
    facts.variables.map (·.name)

namespace Python

open Synopsis.Text

/-! ## Names in the parts of a line -/

theorem IsWord.isRealName {cs : List Char} (word : IsWord cs) : IsRealName (String.ofList cs) where
  nonempty := by simpa using word.nonempty
  trimmed := by
    rw [String.toList_ofList]
    exact .of_forall word.visible

theorem isRealName_trim {cs : List Char} (nonempty : trim cs ≠ []) :
    IsRealName (String.ofList (trim cs)) where
  nonempty := by simpa using nonempty
  trimmed := by
    rw [String.toList_ofList]
    exact trimmed_trim cs

theorem isRealName_of_mem_listed {cs : List Char} {name : String} (h : name ∈ listed cs) :
    IsRealName name := by
  obtain ⟨piece, kept, rfl⟩ := List.mem_map.mp h
  obtain ⟨inside, nonempty⟩ := List.mem_filter.mp kept
  obtain ⟨whole, -, rfl⟩ := List.mem_map.mp inside
  exact isRealName_trim (by simpa using nonempty)

theorem isRealName_of_mem_firstBase {cs : List Char} {name : String} (h : name ∈ firstBase cs) :
    IsRealName name := by
  rw [firstBase] at h
  split at h
  · cases h
  · rename_i nonempty
    cases h
    exact isRealName_trim (by simpa using nonempty)

/-! ## Names in statements -/

/-- The names that a statement declares; an import declares none. -/
def Statement.declaredNames : Statement → List String
  | .imports _ => []
  | .function _ name params => name :: params
  | .class name superclass => name :: superclass.toList
  | .constant name => [name]

/-- The word `import` with only blanks after it, at least two of them. -/
def IsBareImport (cs : List Char) : Prop :=
  ∃ blanks, cs = "import".toList ++ blanks ∧ 2 ≤ blanks.length ∧ Blanks blanks

section Statements

variable {cs : List Char} {said : Statement}

/-- A line tells what one of the patterns tells. -/
theorem pattern_of_statement? (h : statement? cs = some said) :
    ImportPattern cs said ∨ FunctionPattern cs said ∨ ClassPattern cs said ∨
      ConstantPattern cs said := by
  rw [statement?, Option.or_eq_some_iff] at h
  rcases h with imported | ⟨-, h⟩
  · exact Or.inl (importLine?_eq_some_iff.mp imported)
  rw [Option.or_eq_some_iff] at h
  rcases h with function | ⟨-, h⟩
  · exact Or.inr (Or.inl (functionLine?_eq_some_iff.mp function))
  rw [Option.or_eq_some_iff] at h
  rcases h with derived | ⟨-, constant⟩
  · exact Or.inr (Or.inr (Or.inl (classLine?_eq_some_iff.mp derived)))
  · exact Or.inr (Or.inr (Or.inr (constantLine?_eq_some_iff.mp constant)))

theorem isRealName_of_mem_declaredNames (h : statement? cs = some said) {name : String}
    (declared : name ∈ said.declaredNames) : IsRealName name := by
  rcases pattern_of_statement? h with pattern | pattern | pattern | pattern
  · cases pattern <;> cases declared
  · obtain ⟨-, -, -, named, -, -⟩ := pattern
    rcases List.mem_cons.mp declared with rfl | inside
    · exact named.isRealName
    · exact isRealName_of_mem_listed inside
  · rcases pattern with ⟨-, -, named⟩ | ⟨-, -, named, -⟩
    · rcases List.mem_cons.mp declared with rfl | inside
      · exact named.isRealName
      · cases inside
    · rcases List.mem_cons.mp declared with rfl | inside
      · exact named.isRealName
      · exact isRealName_of_mem_firstBase (Option.mem_toList.mp inside)
  · obtain ⟨capital, inside, -⟩ := pattern
    rw [List.mem_singleton.mp declared]
    exact (isWord_constant capital inside).isRealName

/-- What is imported has no blanks around it, and is nothing in bare imports alone. -/
theorem source_of_statement? {source : String} (h : statement? cs = some (.imports source)) :
    Trimmed source.toList ∧ (source = "" ↔ IsBareImport cs) := by
  rcases pattern_of_statement? h with pattern | pattern | pattern | pattern
  · cases pattern with
    | names apart blank nonempty visible apart' blank' spaced more =>
      refine ⟨?_, fun empty => absurd ?_ nonempty, ?_⟩
      · rw [String.toList_ofList]
        exact .of_forall visible
      · simpa using empty
      · rintro ⟨blanks, bare, -⟩
        cases congrArg List.head? bare
    | @modules tail c spaced more =>
      rw [String.toList_ofList]
      refine ⟨trimmed_trim tail, ?_⟩
      rw [String.ofList_eq_empty_iff, trim_eq_nil_iff]
      constructor
      · intro blank
        refine ⟨c :: tail, rfl, ?_, List.forall_mem_cons.mpr ⟨spaced, blank⟩⟩
        exact Nat.succ_le_succ (List.length_pos_iff.mpr more)
      · rintro ⟨blanks, bare, -, blank⟩
        rw [← List.append_cancel_left bare] at blank
        exact (List.forall_mem_cons.mp blank).2
  all_goals cases pattern

theorem statement?_of_isBareImport (bare : IsBareImport cs) :
    statement? cs = some (.imports "") := by
  obtain ⟨blanks, rfl, two, blank⟩ := bare
  obtain _ | ⟨c, _ | ⟨d, rest⟩⟩ := blanks
  · cases two
  · cases two with | step two => cases two
  obtain ⟨spaced, others⟩ := List.forall_mem_cons.mp blank
  have nothing : trim (d :: rest) = [] := trim_eq_nil_iff.mpr others
  have pattern := ImportPattern.modules spaced (List.cons_ne_nil d rest)
  rw [nothing] at pattern
  rw [statement?, importLine?_eq_some_iff.mpr pattern]
  rfl

end Statements

/-! ## Names in texts -/

/-- Every fact tells what is said on its line. -/
structure Faithful (said : Nat → Option Statement) (facts : Facts) : Prop where
  imports : ∀ r ∈ facts.imports, said r.line = some (.imports r.source)
  functions : ∀ r ∈ facts.functions, said r.line = some (.function r.isMethod r.name r.params)
  classes : ∀ r ∈ facts.classes, said r.line = some (.class r.name r.superclass)
  «variables» : ∀ r ∈ facts.variables, said r.line = some (.constant r.name)

theorem faithful_record (said : Nat → Option Statement) (number : Nat) :
    Faithful said (record number {} (said number)) := by
  cases tells : said number with
  | none => constructor <;> exact fun r h => nomatch h
  | some statement => cases statement <;> constructor <;> simp [record, tells]

theorem faithful_facts (text : String) : Faithful (saidIn text) (facts text) := by
  have own (number : Nat) : Faithful (saidIn text) ((facts text).onLine number) := by
    rw [onLine_facts]
    exact faithful_record (saidIn text) number
  constructor
  case imports =>
    exact fun r h => (own r.line).imports r (List.mem_filter.mpr ⟨h, beq_self_eq_true r.line⟩)
  case functions =>
    exact fun r h => (own r.line).functions r (List.mem_filter.mpr ⟨h, beq_self_eq_true r.line⟩)
  case classes =>
    exact fun r h => (own r.line).classes r (List.mem_filter.mpr ⟨h, beq_self_eq_true r.line⟩)
  case «variables» =>
    exact fun r h => (own r.line).variables r (List.mem_filter.mpr ⟨h, beq_self_eq_true r.line⟩)

theorem isRealName_of_saidIn {text : String} {number : Nat} {said : Statement}
    (h : saidIn text number = some said) : ∀ name ∈ said.declaredNames, IsRealName name := by
  obtain ⟨line, -, tells⟩ := exists_line_of_saidIn h
  exact fun name declared => isRealName_of_mem_declaredNames tells declared

theorem isRealName_of_mem_facts {text name : String} (h : name ∈ (facts text).declaredNames) :
    IsRealName name := by
  have faithful := faithful_facts text
  rw [Facts.declaredNames, List.mem_append, List.mem_append] at h
  rcases h with (h | h) | h
  · obtain ⟨r, inside, own⟩ := List.mem_flatMap.mp h
    exact isRealName_of_saidIn (faithful.functions r inside) name own
  · obtain ⟨r, inside, own⟩ := List.mem_flatMap.mp h
    exact isRealName_of_saidIn (faithful.classes r inside) name own
  · obtain ⟨r, inside, rfl⟩ := List.mem_map.mp h
    exact isRealName_of_saidIn (faithful.variables r inside) r.name List.mem_cons_self

/-- A bare import is recorded, and it is recorded under the empty name. -/
theorem mem_imports_of_isBareImport {text : String} {line : List Char}
    (inside : line ∈ splitOn '\n' text.toList) (bare : IsBareImport (dropTrailing '\r' line)) :
    ∃ r ∈ (facts text).imports, r.source = "" := by
  obtain ⟨place, here⟩ := List.mem_iff_getElem?.mp inside
  have said : saidIn text (place + 1) = some (.imports "") :=
    (saidIn_succ here).trans (statement?_of_isBareImport bare)
  have told := onLine_facts text (place + 1)
  rw [said] at told
  have recorded : (⟨"", place + 1, []⟩ : ImportRecord) ∈
      ((facts text).onLine (place + 1)).imports := by
    rw [told]
    exact List.mem_singleton_self _
  exact ⟨_, (List.mem_filter.mp recorded).1, rfl⟩

/-- All names that are declared are real ones, and no blanks stand around what is imported. It is
never empty exactly if no line is a bare import. -/
theorem names_real_iff (text : String) :
    (∀ name ∈ (facts text).declaredNames, IsRealName name) ∧
      (∀ r ∈ (facts text).imports, Trimmed r.source.toList) ∧
      ((∀ r ∈ (facts text).imports, r.source ≠ "") ↔
        ∀ line ∈ splitOn '\n' text.toList, ¬ IsBareImport (dropTrailing '\r' line)) := by
  have imported {r : ImportRecord} (h : r ∈ (facts text).imports) :
      ∃ line ∈ splitOn '\n' text.toList, Trimmed r.source.toList ∧
        (r.source = "" ↔ IsBareImport (dropTrailing '\r' line)) := by
    obtain ⟨line, inside, tells⟩ := exists_line_of_saidIn ((faithful_facts text).imports r h)
    exact ⟨line, inside, source_of_statement? tells⟩
  refine ⟨fun name => isRealName_of_mem_facts, ?trimmed, ?named⟩
  case trimmed =>
    intro r h
    obtain ⟨line, -, trimmed, -⟩ := imported h
    exact trimmed
  case named =>
    constructor
    · intro named line inside bare
      obtain ⟨r, h, empty⟩ := mem_imports_of_isBareImport inside bare
      exact named r h empty
    · intro proper r h empty
      obtain ⟨line, inside, -, bare⟩ := imported h
      exact proper line inside (bare.mp empty)

/-- The word `import` with two blanks after it is recorded as an import of nothing. -/
theorem bareImport_nameless : ¬ ∀ r ∈ (facts "import  ").imports, IsRealName r.source := by
  have recorded : (facts "import  ").imports = [⟨"", 1, []⟩] := by decide +kernel
  intro named
  exact (named ⟨"", 1, []⟩ (recorded ▸ List.mem_singleton_self _)).nonempty rfl

end Python

end Synopsis
