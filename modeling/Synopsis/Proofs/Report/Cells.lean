import Synopsis.Proofs.Report.Limits
import Synopsis.Proofs.Text.Newlines

/-!
# Cells of the tables in a report

A row of a table is cut into cells at its bars, but for a bar that stands right after a backslash.
Names and versions of packages come into a row as they are, and a version that allows several ranges
has bars. So a row has the two cells of the heading exactly if each bar in its name and in its
version stands after a backslash. What is in the cells, and how a reader shows too many of them, is
not spoken of.
-/

namespace Synopsis.Markdown

open Text

/-! ## Bars -/

/-- The number of bars that cut a line into cells. -/
def bars : List Char → ℕ
  | [] => 0
  | '\\' :: '|' :: rest => bars rest
  | c :: rest => bars rest + if c = '|' then 1 else 0

/-- Each bar of a text stands right after a backslash. -/
def Escaped (cs : List Char) : Prop :=
  ∀ front back, cs = front ++ '|' :: back → front.getLast? = some '\\'

theorem bars_plain {c : Char} (plain : c ≠ '\\') (rest : List Char) :
    bars (c :: rest) = bars rest + if c = '|' then 1 else 0 := by
  rw [bars]
  exact fun _ same => absurd same plain

/-- A text that does not begin with a bar has its own bars after any other text. -/
theorem bars_append {rest : List Char} (apart : rest.head? ≠ some '|') (cs : List Char) :
    bars (cs ++ rest) = bars cs + bars rest := by
  fun_induction bars cs with
  | case1 => rw [List.nil_append, Nat.zero_add]
  | case2 cs ih => rw [List.cons_append, List.cons_append, bars, ih]
  | case3 c cs single ih =>
    rw [List.cons_append, bars, ih]
    · omega
    · rintro rest' rfl next
      cases cs with
      | nil => exact apart (by rw [← List.nil_append rest, next]; rfl)
      | cons d cs =>
        obtain ⟨rfl, -⟩ := List.cons.inj next
        exact single cs rfl rfl

theorem escaped_nil : Escaped [] := fun front back same => by simp at same

theorem escaped_pair_iff {cs : List Char} : Escaped ('\\' :: '|' :: cs) ↔ Escaped cs := by
  constructor
  · rintro escaped front back rfl
    have last := escaped ('\\' :: '|' :: front) back rfl
    cases front with
    | nil => simp at last
    | cons c front => simpa using last
  · intro escaped front back same
    match front with
    | [] => simp at same
    | [c] =>
      obtain ⟨rfl, -⟩ := List.cons.inj same
      rfl
    | c :: d :: front =>
      obtain ⟨-, same⟩ := List.cons.inj same
      obtain ⟨-, rfl⟩ := List.cons.inj same
      have last := escaped front back rfl
      rw [List.getLast?_cons, List.getLast?_cons, last]
      rfl

theorem escaped_cons_iff {c : Char} {cs : List Char}
    (single : ∀ rest, c = '\\' → cs = '|' :: rest → False) :
    Escaped (c :: cs) ↔ c ≠ '|' ∧ Escaped cs := by
  constructor
  · refine fun escaped => ⟨fun bar => ?_, ?_⟩
    · cases escaped [] cs (by rw [bar]; rfl)
    · rintro front back rfl
      have last := escaped (c :: front) back rfl
      cases front with
      | nil => exact (single back (by simpa using last) rfl).elim
      | cons d front => simpa using last
  · rintro ⟨plain, escaped⟩ front back same
    cases front with
    | nil => exact absurd (List.cons.inj same).1 plain
    | cons d front =>
      obtain ⟨rfl, rfl⟩ := List.cons.inj same
      have last := escaped front back rfl
      rw [List.getLast?_cons, last]
      rfl

theorem bars_eq_zero_iff (cs : List Char) : bars cs = 0 ↔ Escaped cs := by
  fun_induction bars cs with
  | case1 => exact iff_of_true rfl escaped_nil
  | case2 cs ih => rw [ih, escaped_pair_iff]
  | case3 c cs single ih =>
    rw [escaped_cons_iff single, ← ih, Nat.add_eq_zero_iff, and_comm, and_congr_left_iff]
    intro
    split <;> simp_all

instance (cs : List Char) : Decidable (Escaped cs) := decidable_of_iff _ (bars_eq_zero_iff cs)

theorem escaped_of_notMem {cs : List Char} (plain : '|' ∉ cs) : Escaped cs := by
  rintro front back rfl
  exact absurd (List.mem_append_right front List.mem_cons_self) plain

/-! ## Rows -/

/-- The heading of a table of packages. -/
def headRow : String := "| Package | Version |"

/-- The line under the heading. -/
def ruleRow : String := "|---------|---------|"

theorem toList_packageRow (package : String × String) :
    (packageRow package).toList =
      '|' :: ' ' ::
        (package.1.toList ++ ' ' :: '|' :: ' ' :: (package.2.toList ++ [' ', '|'])) := by
  simp [packageRow, toString]

theorem bars_packageRow (package : String × String) :
    bars (packageRow package).toList = bars package.1.toList + bars package.2.toList + 3 := by
  have ending : bars [' ', '|'] = 1 := rfl
  rw [toList_packageRow, bars_plain (by decide), bars_plain (by decide), bars_append (by simp),
    bars_plain (by decide), bars_plain (by decide), bars_plain (by decide), bars_append (by simp),
    ending]
  simp only [Char.reduceEq, reduceIte]
  omega

/-- A row has as many bars as the heading exactly if its name and its version add none. -/
theorem bars_packageRow_iff (package : String × String) :
    bars (packageRow package).toList = bars headRow.toList ↔
      Escaped package.1.toList ∧ Escaped package.2.toList := by
  have head : bars headRow.toList = 3 := by decide
  rw [bars_packageRow, head, ← bars_eq_zero_iff, ← bars_eq_zero_iff]
  omega

/-- A notice is a row as well. -/
theorem morePackages_eq (left : ℕ) :
    morePackages left = packageRow ("...", toString left ++ " more") := by
  rw [← String.toList_inj, toList_packageRow]
  simp [morePackages, toString]

theorem notMem_number {c : Char} (left : ℕ) (other : c.isDigit = false) :
    c ∉ (toString left).toList := by
  rw [Nat.toString_eq_repr, Nat.toList_repr]
  intro inside
  have digit : c.isDigit = true := Nat.isDigit_of_mem_toDigits (by decide) (by decide) inside
  cases other.symm.trans digit

theorem bars_morePackages (left : ℕ) :
    bars (morePackages left).toList = bars headRow.toList := by
  have dots : '|' ∉ "...".toList := by decide
  have word : '|' ∉ " more".toList := by decide
  rw [morePackages_eq, bars_packageRow_iff]
  refine ⟨escaped_of_notMem dots, escaped_of_notMem ?_⟩
  rw [String.toList_append, List.mem_append, not_or]
  exact ⟨notMem_number left (by decide), word⟩

/-! ## Tables -/

variable {working generatedAt text heading : String} {facts : ProjectFacts}
  {summary : Option String} {docs : List FileDoc} {includeCode : Bool} {limit : ℕ}
  {packages : Table String} {dependencies : Dependencies}

/-- The headings, the limits and the packages of the tables. -/
def packageTables (dependencies : Dependencies) : List (String × ℕ × Table String) :=
  [("Production Dependencies", 30, dependencies.production),
    ("Dev Dependencies", 20, dependencies.development)]

/-- The lines of a table that has these packages. -/
def tableRows (limit : ℕ) (packages : Table String) : List String :=
  headRow :: ruleRow :: limited limit packageRow morePackages packages

theorem infix_packageTable (table : (heading, limit, packages) ∈ packageTables dependencies)
    (nonempty : packages ≠ []) :
    ["### " ++ heading, ""] ++ tableRows limit packages ++
      [""] <:+: dependencyLines dependencies := by
  have filled : packages.isEmpty = false := by simpa using nonempty
  have own : ["### " ++ heading, ""] ++ tableRows limit packages ++ [""] =
      packageTable heading limit packages := by
    rw [packageTable, filled]
    rfl
  have within : packageTable heading limit packages <:+:
      packageTable "Production Dependencies" 30 dependencies.production ++
        packageTable "Dev Dependencies" 20 dependencies.development := by
    rcases List.mem_pair.mp table with ⟨⟨⟩⟩ | ⟨⟨⟩⟩
    · exact (List.prefix_append _ _).isInfix
    · exact (List.suffix_append _ _).isInfix
  have some : (packageTable "Production Dependencies" 30 dependencies.production ++
      packageTable "Dev Dependencies" 20 dependencies.development).isEmpty = false := by
    rw [← own] at within
    refine Bool.eq_false_iff.mpr fun none => ?_
    rw [List.isEmpty_iff.mp none, List.infix_nil] at within
    cases within
  rw [own, dependencyLines, some]
  exact within.trans (List.suffix_append _ _).isInfix

/-- A table in the text of a report: under its heading and before an empty line. -/
theorem exists_table (made : report working facts summary docs includeCode generatedAt = .ok text)
    (table : (heading, limit, packages) ∈ packageTables facts.dependencies)
    (nonempty : packages ≠ []) :
    ∃ front back, text = front ++ ("### " ++ heading ++ "\n\n") ++
      (printed (tableRows limit packages) ++ ("\n" ++ back)) := by
  obtain ⟨all, told, rfl⟩ := report_eq_ok made
  obtain ⟨first, entries, sections, last, -, rfl⟩ := lines_eq_ok told
  have inside : dependencyLines facts.dependencies <:+:
      first ++ structureLines facts ++ entries ++ dependencyLines facts.dependencies ++
        documentationPart sections ++ last :=
    ⟨first ++ structureLines facts ++ entries, documentationPart sections ++ last,
      (List.append_assoc _ _ _).symm⟩
  obtain ⟨front, back, whole⟩ :=
    printed_of_isInfix ((infix_packageTable table nonempty).trans inside)
  refine ⟨front, back, ?_⟩
  have above : printed ["### " ++ heading, ""] = "### " ++ heading ++ "\n\n" := by
    rw [printed_cons, String.append_assoc]
    rfl
  have below : printed [""] = "\n" := rfl
  rw [whole, printed_append, printed_append, above, below]
  simp only [String.append_assoc]

/-- The lines of a table, out of a text that begins with it: up to the first empty line. -/
def tableLines (cs : List Char) : List (List Char) := (textLines cs).takeWhile (· ≠ [])

theorem textLines_printed {rows : List String} (unbroken : ∀ row ∈ rows, Unbroken row.toList)
    (rest : List Char) :
    textLines ((printed rows).toList ++ rest) = rows.map String.toList ++ textLines rest := by
  induction rows with
  | nil => rfl
  | cons row rows ih =>
    obtain ⟨own, others⟩ := List.forall_mem_cons.mp unbroken
    have cut : (printed (row :: rows)).toList ++ rest =
        row.toList ++ '\n' :: ((printed rows).toList ++ rest) := by
      simp [printed_cons]
    rw [cut, textLines_between, closedLines_of_unbroken own, ih others]
    rfl

theorem unbroken_packageRow {package : String × String} (name : Unbroken package.1.toList)
    (version : Unbroken package.2.toList) : Unbroken (packageRow package).toList := by
  rw [toList_packageRow]
  constructor
  · simp [name.1, version.1]
  · simp [name.2, version.2]

theorem unbroken_morePackages (left : ℕ) : Unbroken (morePackages left).toList := by
  have dots : Unbroken "...".toList := by decide
  have word : Unbroken " more".toList := by decide
  have number : Unbroken (toString left).toList :=
    ⟨notMem_number left (by decide), notMem_number left (by decide)⟩
  rw [morePackages_eq]
  exact unbroken_packageRow dots (String.toList_append ▸ number.append word)

theorem unbroken_tableRows
    (unbroken : ∀ package ∈ packages, Unbroken package.1.toList ∧ Unbroken package.2.toList) :
    ∀ row ∈ tableRows limit packages, Unbroken row.toList := by
  have head : Unbroken headRow.toList := by decide
  have rule : Unbroken ruleRow.toList := by decide
  refine List.forall_mem_cons.mpr ⟨head, List.forall_mem_cons.mpr ⟨rule, ?_⟩⟩
  rw [forall_mem_limited unbroken_morePackages]
  intro package told
  obtain ⟨name, version⟩ := unbroken package (List.mem_of_mem_take told)
  exact unbroken_packageRow name version

theorem tableRows_nonempty : ∀ row ∈ tableRows limit packages, row.toList ≠ [] := by
  have head : headRow.toList ≠ [] := by decide
  have rule : ruleRow.toList ≠ [] := by decide
  have row (package : String × String) : (packageRow package).toList ≠ [] := by
    rw [toList_packageRow]
    exact List.cons_ne_nil _ _
  refine List.forall_mem_cons.mpr ⟨head, List.forall_mem_cons.mpr ⟨rule, ?_⟩⟩
  rw [forall_mem_limited fun left => morePackages_eq left ▸ row _]
  exact fun package _ => row package

/-- A reader finds the rows of a table and no others. -/
theorem tableLines_tableRows
    (unbroken : ∀ package ∈ packages, Unbroken package.1.toList ∧ Unbroken package.2.toList)
    (back : String) :
    tableLines (printed (tableRows limit packages) ++ ("\n" ++ back)).toList =
      (tableRows limit packages).map String.toList := by
  have blank : textLines ("\n" ++ back).toList = [] :: textLines back.toList := by
    have newline : ("\n" ++ back).toList = [] ++ '\n' :: back.toList := by simp
    rw [newline, textLines_between, closedLines_of_unbroken (by decide)]
    rfl
  have filled : ∀ row ∈ (tableRows limit packages).map String.toList,
      decide (row ≠ []) = true := by
    rw [List.forall_mem_map]
    exact fun row inside => decide_eq_true (tableRows_nonempty row inside)
  rw [tableLines, String.toList_append, textLines_printed (unbroken_tableRows unbroken), blank,
    List.takeWhile_append_of_pos filled, List.takeWhile_cons_of_neg (by simp), List.append_nil]

theorem tableRows_bars_iff :
    (∀ row ∈ tableRows limit packages, bars row.toList = bars headRow.toList) ↔
      ∀ package ∈ packages.take limit, Escaped package.1.toList ∧ Escaped package.2.toList := by
  have rule : bars ruleRow.toList = bars headRow.toList := by decide
  rw [tableRows, List.forall_mem_cons, List.forall_mem_cons, and_iff_right rfl, and_iff_right rule,
    forall_mem_limited bars_morePackages]
  exact forall₂_congr fun package _ => bars_packageRow_iff package

/-- Whatever the packages of a table are, if no name and no version ends a line: under the heading
of the table a reader finds the heading of two cells, the line under it, a row for each package up
to the limit and the notice, and all of them have two cells exactly if each bar in the names and the
versions of the packages told stands after a backslash. -/
theorem rows_two_cells_iff
    (made : report working facts summary docs includeCode generatedAt = .ok text)
    (table : (heading, limit, packages) ∈ packageTables facts.dependencies)
    (nonempty : packages ≠ [])
    (unbroken : ∀ package ∈ packages, Unbroken package.1.toList ∧ Unbroken package.2.toList) :
    ∃ front rest, text = front ++ ("### " ++ heading ++ "\n\n") ++ rest ∧
      tableLines rest.toList = (tableRows limit packages).map String.toList ∧
      ((∀ row ∈ tableLines rest.toList, bars row = bars headRow.toList) ↔
        ∀ package ∈ packages.take limit, Escaped package.1.toList ∧ Escaped package.2.toList) := by
  obtain ⟨front, back, whole⟩ := exists_table made table nonempty
  have found : tableLines (printed (tableRows limit packages) ++ ("\n" ++ back)).toList =
      (tableRows limit packages).map String.toList := tableLines_tableRows unbroken back
  refine ⟨front, _, whole, found, ?_⟩
  rw [found, List.forall_mem_map, tableRows_bars_iff]

/-- A project that depends on these packages, of which nothing else is known. -/
def packageFacts (packages : Table String) : ProjectFacts :=
  { emptyFacts with dependencies := { production := packages } }

theorem exists_packageReport (packages : Table String) :
    ∃ text, report "/" (packageFacts packages) none [] false "" = .ok text := ⟨_, rfl⟩

/-- Bars after a backslash leave the cells as they are, and so does a backslash at the end. -/
theorem rows_two_cells_escaped :
    let packages := [("flask", "==2.0"), ("a\\|b", "^1 \\|\\| ^2 \\")]
    ∃ text, report "/" (packageFacts packages) none [] false "" = .ok text ∧
      ("Production Dependencies", 30, packages) ∈ packageTables
        (packageFacts packages).dependencies ∧
      packages ≠ [] ∧
      (∀ package ∈ packages, Unbroken package.1.toList ∧ Unbroken package.2.toList) ∧
      ∃ front rest, text = front ++ "### Production Dependencies\n\n" ++ rest ∧
        ∀ row ∈ tableLines rest.toList, bars row = bars headRow.toList := by
  intro packages
  obtain ⟨text, made⟩ := exists_packageReport packages
  have table : ("Production Dependencies", 30, packages) ∈
      packageTables (packageFacts packages).dependencies := List.mem_cons_self
  have nonempty : packages ≠ [] := List.cons_ne_nil _ _
  have unbroken : ∀ package ∈ packages, Unbroken package.1.toList ∧ Unbroken package.2.toList := by
    decide
  obtain ⟨front, rest, whole, -, cells⟩ := rows_two_cells_iff made table nonempty unbroken
  exact ⟨text, made, table, nonempty, unbroken, front, rest, whole, cells.mpr (by decide)⟩

/-- A version that allows two ranges makes a row of four cells. -/
theorem ranges_not_two_cells :
    let packages := [("react", "^16 || ^18")]
    (∀ package ∈ packages, Unbroken package.1.toList ∧ Unbroken package.2.toList) ∧
      ∃ text front rest, report "/" (packageFacts packages) none [] false "" = .ok text ∧
        text = front ++ "### Production Dependencies\n\n" ++ rest ∧
        tableLines rest.toList =
          [headRow.toList, ruleRow.toList, "| react | ^16 || ^18 |".toList] ∧
        bars headRow.toList = 3 ∧ bars "| react | ^16 || ^18 |".toList = 5 := by
  intro packages
  have unbroken : ∀ package ∈ packages, Unbroken package.1.toList ∧ Unbroken package.2.toList := by
    decide
  obtain ⟨text, made⟩ := exists_packageReport packages
  obtain ⟨front, back, whole⟩ :=
    exists_table made (List.mem_cons_self : _ ∈ packageTables _) (List.cons_ne_nil _ _)
  refine ⟨unbroken, text, front, _, made, whole, (tableLines_tableRows unbroken back).trans ?_, ?_⟩
  · decide
  · decide

end Synopsis.Markdown
