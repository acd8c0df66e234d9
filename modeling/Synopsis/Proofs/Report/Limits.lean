import Synopsis.Proofs.Path
import Synopsis.Proofs.Report.Parts

/-!
# Lists that a report cuts

A report tells of the directories, of the dependencies of both kinds and of the functions of each
file up to a limit of its own. What is left away is left away in the open: the rows begin with those
of the first items, in their order, and a notice after them has the number of all others. So the
rows tell how many items there are, although not which. Texts from the project may hold newlines,
and a row is then no line; rows are spoken of here, and what a reader makes of their text is not.
-/

namespace Synopsis.Markdown

variable {α : Type} {limit : ℕ} {line : α → String} {more : ℕ → String} {items other : List α}
  {rows : List String}

/-! ## Rows up to a limit -/

/-- Rows that list items up to a limit. -/
structure ListedUpTo (limit : ℕ) (line : α → String) (more : ℕ → String) (items : List α)
    (rows : List String) : Prop where
  /-- There is a row for each of the first items, and a notice exactly if there are more items than
  the limit; its number and that of the items told make up all. -/
  listed : ∃ notice : Option ℕ,
    rows = (items.take limit).map line ++ (notice.map more).toList ∧
      (notice.isSome ↔ limit < items.length) ∧
      ∀ number ∈ notice, (items.take limit).length + number = items.length
  /-- Only lists of as many items have these rows. -/
  determined : ∀ other : List α, limited limit line more other = rows → other.length = items.length

theorem limited_of_le (few : items.length ≤ limit) :
    limited limit line more items = items.map line := by
  rw [limited, List.take_of_length_le few, linesIf, if_neg (by simpa using few), List.append_nil]

theorem limited_of_lt (many : limit < items.length) :
    limited limit line more items =
      (items.take limit).map line ++ [more (items.length - limit)] := by
  rw [limited, linesIf, if_pos (by simpa using many)]

/-- What holds of every notice holds of all rows when it holds of those of the items told. -/
theorem forall_mem_limited {p : String → Prop} (notices : ∀ left, p (more left)) :
    (∀ row ∈ limited limit line more items, p row) ↔ ∀ item ∈ items.take limit, p (line item) := by
  rcases Nat.lt_or_ge limit items.length with many | few
  · rw [limited_of_lt many, List.forall_mem_append, List.forall_mem_map]
    exact and_iff_left (List.forall_mem_singleton.mpr (notices _))
  · rw [limited_of_le few, List.forall_mem_map, List.take_of_length_le few]

theorem length_limited_of_lt (many : limit < items.length) :
    (limited limit line more items).length = limit + 1 := by
  rw [limited_of_lt many, List.length_append, List.length_map, List.length_take,
    Nat.min_eq_left (Nat.le_of_lt many)]
  rfl

/-- As many rows as the limit or fewer are one for each item; with one row more, the last one has
the number that is missing. -/
theorem length_eq_of_limited_eq (distinct : Function.Injective more)
    (same : limited limit line more other = limited limit line more items) :
    other.length = items.length := by
  have sizes := congrArg List.length same
  rcases Nat.lt_or_ge limit other.length with many | few
  · rcases Nat.lt_or_ge limit items.length with many' | few'
    · rw [limited_of_lt many, limited_of_lt many'] at same
      obtain ⟨-, last⟩ := List.append_inj' same rfl
      have left := distinct (List.singleton_inj.mp last)
      omega
    · rw [length_limited_of_lt many, limited_of_le few', List.length_map] at sizes
      omega
  · rcases Nat.lt_or_ge limit items.length with many' | few'
    · rw [length_limited_of_lt many', limited_of_le few, List.length_map] at sizes
      omega
    · rwa [limited_of_le few, limited_of_le few', List.length_map, List.length_map] at sizes

theorem listedUpTo_limited (distinct : Function.Injective more) (limit : ℕ) (line : α → String)
    (items : List α) : ListedUpTo limit line more items (limited limit line more items) where
  listed := by
    rcases Nat.lt_or_ge limit items.length with many | few
    · refine ⟨some (items.length - limit), limited_of_lt many, iff_of_true rfl many, ?_⟩
      rintro _ ⟨⟩
      rw [List.length_take]
      omega
    · refine ⟨none, ?_, iff_of_false Bool.false_ne_true (Nat.not_lt.mpr few), nofun⟩
      rw [limited_of_le few, List.take_of_length_le few]
      exact (List.append_nil _).symm
  determined _ same := length_eq_of_limited_eq distinct same

theorem ListedUpTo.eq_nil_iff (listed : ListedUpTo limit line more items rows)
    (positive : 0 < limit) :
    rows = [] ↔ items = [] := by
  obtain ⟨notice, rfl, noticed, -⟩ := listed.listed
  constructor
  · intro none
    obtain ⟨none, -⟩ := List.append_eq_nil_iff.mp none
    rcases List.take_eq_nil_iff.mp (List.map_eq_nil_iff.mp none) with zero | none
    · omega
    · exact none
  · rintro rfl
    cases notice with
    | none => rw [List.take_nil]; rfl
    | some number => exact absurd (noticed.mp rfl) (Nat.not_lt_zero limit)

/-! ## The lists of a report -/

/-- The row of a directory: two blanks for each of its names, and what
stands after its last slash. -/
def directoryRow (directory : String) : String :=
  String.ofList (List.replicate (2 * (directory.toList.count '/' + 1)) ' ') ++ "├── " ++
    String.ofList (directory.toList.rtakeWhile (· ≠ '/')) ++ "/"

/-- The notice after a tree of directories. -/
def moreDirectories (left : ℕ) : String := s!"  ... and {left} more directories"

/-- The row of a package. -/
def packageRow (package : String × String) : String := s!"| {package.1} | {package.2} |"

/-- The notice after a table of packages. -/
def morePackages (left : ℕ) : String := s!"| ... | {left} more |"

/-- What follows a function that is waited for or exported. -/
def remark (isAsync exported : Bool) : String :=
  match isAsync, exported with
  | false, false => ""
  | true, false => " *(async)*"
  | false, true => " *(exported)*"
  | true, true => " *(async, exported)*"

/-- The row of a function: its name, its parameters and a remark. -/
def functionRow (f : FunctionRecord) : String :=
  "- `" ++ f.name ++ "(" ++ ", ".intercalate f.params ++ ")" ++ "`" ++ remark f.isAsync f.exported

/-- The notice after the functions of a file. -/
def moreFunctions (left : ℕ) : String := s!"- *... and {left} more functions*"

theorem treeLine_eq : treeLine = directoryRow := by
  funext directory
  have last : (Path.segments directory).getLast?.getD "" =
      String.ofList (directory.toList.rtakeWhile (· ≠ '/')) := by
    rw [Path.segments, List.getLast?_map, Text.getLast?_splitOn]
    rfl
  have depth : (Path.segments directory).length = directory.toList.count '/' + 1 := by
    rw [Path.segments, List.length_map, Text.length_splitOn]
  rw [treeLine, directoryRow, last, depth]

theorem enclosedMarks_marks (f : FunctionRecord) :
    enclosedMarks "*(" ")*" f.marks = remark f.isAsync f.exported := by
  rw [FunctionRecord.marks]
  cases f.isAsync <;> cases f.exported <;> decide +kernel

theorem functionLine_eq : functionLine = functionRow := by
  funext f
  rw [functionLine, functionRow, enclosedMarks_marks, FunctionRecord.call, Text.join]
  simp only [String.append_assoc]

/-- Notices with a number between fixed texts differ when the numbers do. -/
theorem between_injective (before after : String) :
    Function.Injective fun left : ℕ => before ++ toString left ++ after := by
  intro left left' same
  have numerals : toString left = toString left' :=
    (String.append_right_inj before).mp ((String.append_left_inj after).mp same)
  rw [Nat.toString_eq_repr, Nat.toString_eq_repr, ← String.toList_inj, Nat.toList_repr,
    Nat.toList_repr] at numerals
  have read := congrArg (Nat.ofDigitChars 10 · 0) numerals
  rwa [Nat.ofDigitChars_ten_toDigits, Nat.ofDigitChars_ten_toDigits] at read

theorem moreDirectories_injective : Function.Injective moreDirectories :=
  between_injective "  ... and " " more directories"

theorem morePackages_injective : Function.Injective morePackages :=
  between_injective "| ... | " " more |"

theorem moreFunctions_injective : Function.Injective moreFunctions :=
  between_injective "- *... and " " more functions*"

/-- The part of a report with the tree. -/
def treePart (name : String) (rows : List String) : List String :=
  ["## Project Structure", "", "```", name ++ "/"] ++ rows ++ ["```", ""]

/-- A table of packages; nothing without rows. -/
def tablePart (heading : String) (rows : List String) : List String :=
  linesIf (!rows.isEmpty)
    (["### " ++ heading, "", "| Package | Version |", "|---------|---------|"] ++ rows ++ [""])

/-- The part of a report with both tables; nothing without any row. -/
def dependencyPart (production development : List String) : List String :=
  linesIf (!production.isEmpty || !development.isEmpty) (["## Dependencies", ""] ++
    tablePart "Production Dependencies" production ++ tablePart "Dev Dependencies" development)

theorem structureLines_eq (facts : ProjectFacts) :
    structureLines facts =
      treePart facts.name (limited 20 directoryRow moreDirectories facts.directories) := by
  rw [← treeLine_eq]
  rfl

/-- A table is there when there are packages, and it has rows then. -/
theorem packageTable_eq {heading : String} {packages : Table String} (positive : 0 < limit) :
    packageTable heading limit packages =
      tablePart heading (limited limit packageRow morePackages packages) := by
  have empty : (limited limit packageRow morePackages packages).isEmpty = packages.isEmpty := by
    rw [Bool.eq_iff_iff, List.isEmpty_iff, List.isEmpty_iff]
    exact (listedUpTo_limited morePackages_injective limit packageRow packages).eq_nil_iff positive
  rw [tablePart, empty]
  rfl

theorem dependencyLines_eq (dependencies : Dependencies) :
    dependencyLines dependencies =
      dependencyPart (limited 30 packageRow morePackages dependencies.production)
        (limited 20 packageRow morePackages dependencies.development) := by
  rw [dependencyLines, packageTable_eq (by decide), packageTable_eq (by decide)]
  generalize limited 30 _ _ _ = production
  generalize limited 20 _ _ _ = development
  cases production <;> cases development <;> rfl

/-! ## All lists together -/

/-- A part with the functions of a file; nothing without rows. -/
def functionPart (rows : List String) : List String :=
  linesIf (!rows.isEmpty) (["#### Functions", ""] ++ rows ++ [""])

/-- A section of a file under its path, with its functions. A file below the root of the project is
shown by its names from there. -/
def Documents (working root : String) (doc : FileDoc) (own : List String) : Prop :=
  ∃ way before functions after, shownPath working root doc = .ok way ∧
    (∀ place names : Location, names ≠ [] → (∀ name ∈ place ++ names, IsName name) →
      root = place.text → doc.record.path = Location.text (place ++ names) →
        way = "/".intercalate names) ∧
    ListedUpTo 10 functionRow moreFunctions doc.record.facts.functions functions ∧
    own = ["### `" ++ way ++ "`", ""] ++ before ++ functionPart functions ++ after ++ ["---", ""]

theorem shownPath_below {working : String} {place names : Location} {doc : FileDoc} {way : String}
    (nonempty : names ≠ []) (named : ∀ name ∈ place ++ names, IsName name)
    (here : doc.record.path = Location.text (place ++ names))
    (shown : shownPath working place.text doc = .ok way) : way = "/".intercalate names := by
  have inner : ∀ name ∈ names, IsName name := fun name h => named name (List.mem_append_right _ h)
  rw [shownPath, here, Path.relative?_text working nonempty named] at shown
  rw [← Except.ok.inj shown, Path.pure_join nonempty inner, Text.join]

theorem IsSection.documents {working root : String} {includeCode : Bool} {doc : FileDoc}
    {own : List String} (h : IsSection working root includeCode doc own) :
    Documents working root doc own := by
  obtain ⟨way, shown, rfl⟩ := h
  have below (place names : Location) (nonempty : names ≠ [])
      (named : ∀ name ∈ place ++ names, IsName name) (above : root = place.text)
      (here : doc.record.path = Location.text (place ++ names)) : way = "/".intercalate names :=
    shownPath_below nonempty named here (above ▸ shown)
  have rows := listedUpTo_limited moreFunctions_injective 10 functionLine doc.record.facts.functions
  exact ⟨way, _, _, linesIf includeCode (codeLines doc), shown, below, functionLine_eq ▸ rows, rfl⟩

/-- The lines of a report with all lists that have a limit, each at its place. -/
def Accounted (working : String) (facts : ProjectFacts) (docs : List FileDoc) (all : List String) :
    Prop :=
  ∃ front directories entries production development sections back,
    all = front ++ treePart facts.name directories ++ entries ++
      dependencyPart production development ++ documentationPart sections ++ back ∧
    ListedUpTo 20 directoryRow moreDirectories facts.directories directories ∧
    ListedUpTo 30 packageRow morePackages facts.dependencies.production production ∧
    ListedUpTo 20 packageRow morePackages facts.dependencies.development development ∧
    List.Forall₂ (Documents working facts.root) docs sections

/-- Whatever a project and its documented files are: there is a report, unless the size of the
project has no text or a file has no path, and it accounts for all directories, dependencies and
functions and for every file. -/
theorem items_accounted (working : String) (facts : ProjectFacts) (summary : Option String)
    (docs : List FileDoc) (includeCode : Bool) (generatedAt : String) :
    (∃ fault, report working facts summary docs includeCode generatedAt = .error fault ∧
      Unreportable facts docs) ∨
    ∃ all, report working facts summary docs includeCode generatedAt = .ok (printed all) ∧
      Accounted working facts docs all := by
  cases outcome : report working facts summary docs includeCode generatedAt with
  | error fault => exact Or.inl ⟨fault, rfl, report_eq_error outcome⟩
  | ok text =>
    obtain ⟨all, made, rfl⟩ := report_eq_ok outcome
    obtain ⟨front, entries, sections, back, each, rfl⟩ := lines_eq_ok made
    refine Or.inr ⟨_, rfl, front, _, entries, _, _, sections, back, ?_,
      listedUpTo_limited moreDirectories_injective 20 directoryRow _,
      listedUpTo_limited morePackages_injective 30 packageRow _,
      listedUpTo_limited morePackages_injective 20 packageRow _,
      each.imp fun _ _ own => own.documents⟩
    rw [structureLines_eq, dependencyLines_eq]

end Synopsis.Markdown
