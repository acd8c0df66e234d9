import Synopsis.Proofs.Project.Directories
import Synopsis.Report.Markdown

/-!
# The tree of directories in a report

A report shows each directory by its last name alone, indented by its depth, so that the tree is
read by the eye: an entry belongs to the nearest one before it that is indented less. The
directories stand in the order of their paths as texts. In this order all that is below a directory
comes after it, but not at once: a sibling whose name goes on with a character before the slash
comes in between. Such a sibling is the only thing that makes entries stand under a wrong one.
Newlines in the names of directories are not spoken of.
-/

namespace Synopsis

namespace Path

/-- The path of the folder above. -/
def parent (path : String) : String := Text.join "/" (segments path).dropLast

/-- A path of several names is the one above it, a slash and a name. -/
theorem parent_below {path : String} (deep : 1 < nameCount path) :
    ∃ name, path = parent path ++ "/" ++ name ∧ parent path < path ∧
      nameCount path = nameCount (parent path) + 1 := by
  have named := segments_ne_nil path
  have above : (segments path).dropLast ≠ [] := by
    rw [← length_segments] at deep
    rw [← List.length_pos_iff, List.length_dropLast]
    omega
  have cut : path = parent path ++ "/" ++ (segments path).getLast named := by
    have whole := join_segments path
    rw [← List.dropLast_append_getLast named, Text.join,
      String.intercalate_append_of_ne_nil above (List.cons_ne_nil _ _)] at whole
    simpa [parent, Text.join, String.intercalate_singleton] using whole.symm
  have single : nameCount ((segments path).getLast named) = 1 := by
    obtain ⟨chars, inside, same⟩ := List.mem_map.mp (List.getLast_mem named)
    rw [← same, nameCount, String.toList_ofList,
      List.count_eq_zero.mpr (Text.mem_of_mem_splitOn inside).2]
  refine ⟨_, cut, ?_, ?_⟩
  · conv_rhs => rw [cut]
    exact lt_below _ _
  · conv_lhs => rw [cut]
    rw [nameCount_below, single]

/-- What comes between a text and one that goes on from it with a slash goes on from it as well,
with a slash or a character before it. -/
theorem exists_tail_of_between {folder other name : List Char} (after : folder < other)
    (before : other < folder ++ '/' :: name) : ∃ c rest, other = folder ++ c :: rest ∧ c ≤ '/' := by
  induction folder generalizing other with
  | nil =>
    cases other with
    | nil => cases after
    | cons c rest =>
      refine ⟨c, rest, rfl, ?_⟩
      rcases List.cons_lt_cons_iff.mp before with less | ⟨same, -⟩
      · exact Std.le_of_lt less
      · exact Std.le_of_eq same
  | cons x folder ih =>
    cases other with
    | nil => cases after
    | cons y other =>
      rw [List.cons_lt_cons_iff] at after
      rw [List.cons_append, List.cons_lt_cons_iff] at before
      rcases after with less | ⟨rfl, after⟩
      · rcases before with more | ⟨rfl, -⟩
        · exact absurd (Std.lt_trans less more) Std.lt_irrefl
        · exact absurd less Std.lt_irrefl
      · rcases before with more | ⟨-, before⟩
        · exact absurd more Std.lt_irrefl
        · obtain ⟨c, rest, rfl, least⟩ := ih after before
          exact ⟨c, rest, rfl, least⟩

/-- A sibling of `folder` whose name goes on from the name of `folder` with a character before the
slash. -/
def Intrudes (folder other : String) : Prop :=
  ∃ c rest, other.toList = folder.toList ++ c :: rest ∧ c < '/' ∧ '/' ∉ rest

instance (folder other : String) : Decidable (Intrudes folder other) :=
  decidable_of_iff (folder.toList <+: other.toList ∧
      (other.toList.drop folder.toList.length).head?.any (· < '/') = true ∧
        '/' ∉ (other.toList.drop folder.toList.length).tail) <| by
    constructor
    · rintro ⟨⟨tail, whole⟩, less, plain⟩
      rw [← whole, List.drop_left] at less plain
      obtain ⟨c, first, less⟩ := (Option.any_eq_true _ _).mp less
      obtain ⟨rest, rfl⟩ := List.head?_eq_some_iff.mp first
      exact ⟨c, rest, whole.symm, of_decide_eq_true less, plain⟩
    · rintro ⟨c, rest, whole, less, plain⟩
      rw [whole, List.drop_left]
      exact ⟨List.prefix_append _ _, decide_eq_true less, plain⟩

variable {folder other : String}

/-- Siblings of such names, and only they, come between a folder and what is below it without being
deeper than the folder. -/
theorem intrudes_iff (name : String) :
    Intrudes folder other ↔
      folder < other ∧ other < folder ++ "/" ++ name ∧ nameCount other ≤ nameCount folder := by
  have chars : (folder ++ "/" ++ name).toList = folder.toList ++ '/' :: name.toList := by simp
  rw [String.lt_iff_toList_lt, String.lt_iff_toList_lt, chars, nameCount, nameCount]
  constructor
  · rintro ⟨c, rest, whole, less, plain⟩
    have apart : c ≠ '/' := fun same => Std.lt_irrefl (same ▸ less)
    rw [whole]
    refine ⟨?_, ?_, ?_⟩
    · simpa using (Text.append_lt_append_iff folder.toList [] (c :: rest)).mpr
        (List.nil_lt_cons c rest)
    · exact (Text.append_lt_append_iff _ _ _).mpr (List.cons_lt_cons_iff.mpr (Or.inl less))
    · simp [List.count_cons_of_ne, apart, List.count_eq_zero.mpr plain]
  · rintro ⟨after, before, few⟩
    obtain ⟨c, rest, whole, least⟩ := exists_tail_of_between after before
    rw [whole, List.count_append] at few
    have plain : '/' ∉ c :: rest := List.count_eq_zero.mp (by omega)
    obtain ⟨apart, plain⟩ := not_or.mp (mt List.mem_cons.mpr plain)
    exact ⟨c, rest, whole, Std.lt_of_le_of_ne least (Ne.symm apart), plain⟩

end Path

namespace Markdown

variable {shown : List String} {parent child : String}

/-! ## Entries of the tree -/

/-- How far a line is indented. -/
def indentation (line : String) : Nat := (line.toList.takeWhile (· == ' ')).length

theorem indentation_treeLine (directory : String) :
    indentation (treeLine directory) = 2 * Path.nameCount directory := by
  have blanks :
      ∀ c ∈ List.replicate (2 * Path.nameCount directory) ' ', (c == ' ') = true := by simp
  have mark (name : List Char) : ("├── ".toList ++ name).takeWhile (· == ' ') = [] := by
    simp
  simp only [indentation, treeLine, Path.length_segments, String.toList_append,
    String.toList_ofList, List.append_assoc, List.takeWhile_append_of_pos blanks, mark,
    List.append_nil, List.length_replicate]

/-- In a tree of these directories the entry of `child` stands under that of `parent`, the nearest
one before it that is indented less. -/
def StandsUnder (shown : List String) (child parent : String) : Prop :=
  ∃ front between back, shown = front ++ parent :: between ++ child :: back ∧
    indentation (treeLine parent) < indentation (treeLine child) ∧
    ∀ other ∈ between, indentation (treeLine child) ≤ indentation (treeLine other)

/-- Each directory of more names than one stands under the one above it. -/
def Nested (shown : List String) : Prop :=
  ∀ child ∈ shown, 1 < Path.nameCount child → StandsUnder shown child (Path.parent child)

/-- In a list in order, what stands between two items is what lies between them. -/
theorem mem_between_iff {front between back : List String} {other : String}
    (increasing : (front ++ parent :: between ++ child :: back).Pairwise (· < ·)) :
    other ∈ between ↔
      other ∈ front ++ parent :: between ++ child :: back ∧ parent < other ∧ other < child := by
  obtain ⟨above, below, across⟩ := List.pairwise_append.mp increasing
  obtain ⟨-, inner, outer⟩ := List.pairwise_append.mp above
  constructor
  · intro middle
    have within : other ∈ front ++ parent :: between := by simp [middle]
    exact ⟨List.mem_append_left _ within, (List.pairwise_cons.mp inner).1 other middle,
      across other within child List.mem_cons_self⟩
  · rintro ⟨inside, after, before⟩
    simp only [List.mem_append, List.mem_cons] at inside
    rcases inside with (first | rfl | middle) | rfl | last
    · exact absurd (Std.lt_trans after (outer other first parent List.mem_cons_self)) Std.lt_irrefl
    · exact absurd after Std.lt_irrefl
    · exact middle
    · exact absurd before Std.lt_irrefl
    · have later := (List.pairwise_cons.mp below).1 other last
      exact absurd (Std.lt_trans before later) Std.lt_irrefl

theorem exists_between (increasing : shown.Pairwise (· < ·)) (upper : parent ∈ shown)
    (lower : child ∈ shown) (earlier : parent < child) :
    ∃ front between back, shown = front ++ parent :: between ++ child :: back := by
  obtain ⟨above, back, rfl⟩ := List.append_of_mem lower
  obtain ⟨-, below, -⟩ := List.pairwise_append.mp increasing
  rcases List.mem_append.mp upper with inside | inside
  · obtain ⟨front, between, rfl⟩ := List.append_of_mem inside
    exact ⟨front, between, back, rfl⟩
  · rcases List.mem_cons.mp inside with rfl | last
    · exact absurd earlier Std.lt_irrefl
    · have later := (List.pairwise_cons.mp below).1 parent last
      exact absurd (Std.lt_trans earlier later) Std.lt_irrefl

/-- Among directories in their order, nothing between the two may be
indented less than the lower. -/
theorem standsUnder_iff (increasing : shown.Pairwise (· < ·)) (upper : parent ∈ shown)
    (lower : child ∈ shown) (earlier : parent < child)
    (fewer : Path.nameCount parent < Path.nameCount child) :
    StandsUnder shown child parent ↔ ∀ other ∈ shown, parent < other → other < child →
      Path.nameCount child ≤ Path.nameCount other := by
  simp only [StandsUnder, indentation_treeLine]
  constructor
  · rintro ⟨front, between, back, rfl, -, deep⟩ other inside after before
    have least := deep other ((mem_between_iff increasing).mpr ⟨inside, after, before⟩)
    omega
  · intro deep
    obtain ⟨front, between, back, rfl⟩ := exists_between increasing upper lower earlier
    refine ⟨front, between, back, rfl, by omega, fun other middle => ?_⟩
    obtain ⟨inside, after, before⟩ := (mem_between_iff increasing).mp middle
    have least := deep other inside after before
    omega

/-- Directories in their order, each with those above it, make a nested tree exactly if no sibling
intrudes. -/
theorem nested_iff (increasing : shown.Pairwise (· < ·))
    (closed : ∀ child ∈ shown, 1 < Path.nameCount child → Path.parent child ∈ shown) :
    Nested shown ↔ ∀ child ∈ shown, 1 < Path.nameCount child →
      ∀ other ∈ shown, ¬ Path.Intrudes (Path.parent child) other := by
  refine forall₃_congr fun child lower deep => ?_
  obtain ⟨name, cut, earlier, names⟩ := Path.parent_below deep
  rw [standsUnder_iff increasing (closed child lower deep) lower earlier (by omega)]
  refine forall₂_congr fun other _ => ?_
  rw [Path.intrudes_iff name, ← cut, names]
  constructor
  · rintro least ⟨after, before, few⟩
    have := least after before
    omega
  · intro none after before
    by_contra few
    exact none ⟨after, before, by omega⟩

/-! ## The directories of a project -/

variable {ways : List String} {limit : Nat}

/-- What stands before a directory that is shown is shown. -/
theorem mem_take_of_lt {directory other : String} (increasing : shown.Pairwise (· < ·))
    (listed : other ∈ shown) (inside : directory ∈ shown.take limit) (earlier : other < directory) :
    other ∈ shown.take limit := by
  rw [← List.take_append_drop limit shown] at increasing listed
  rcases List.mem_append.mp listed with here | later
  · exact here
  · have after := (List.pairwise_append.mp increasing).2.2 directory inside other later
    exact absurd (Std.lt_trans earlier after) Std.lt_irrefl

theorem parent_mem_take (inside : child ∈ (Project.allDirectories ways).take limit)
    (deep : 1 < Path.nameCount child) :
    Path.parent child ∈ (Project.allDirectories ways).take limit := by
  obtain ⟨name, cut, earlier, -⟩ := Path.parent_below deep
  have listed := List.mem_of_mem_take inside
  rw [cut] at listed
  have above := (Project.parent_sublist listed).subset List.mem_cons_self
  exact mem_take_of_lt (Project.allDirectories_increasing ways) above inside earlier

theorem nested_take_iff (ways : List String) (limit : Nat) :
    Nested ((Project.allDirectories ways).take limit) ↔
      ∀ child ∈ (Project.allDirectories ways).take limit, 1 < Path.nameCount child →
        ∀ other ∈ (Project.allDirectories ways).take limit,
          ¬ Path.Intrudes (Path.parent child) other :=
  nested_iff ((Project.allDirectories_increasing ways).sublist (List.take_sublist limit _))
    fun _ inside deep => parent_mem_take inside deep

/-- The lines of a report hold the name of the project and below it the tree. -/
theorem tree_infix_lines {working generatedAt : String} {facts : ProjectFacts}
    {summary : Option String} {docs : List FileDoc} {includeCode : Bool} {all : List String}
    (made : lines working facts summary docs includeCode generatedAt = .ok all) :
    (facts.name ++ "/") :: (facts.directories.take 20).map treeLine <:+: all := by
  obtain ⟨size, -, made⟩ := bind_eq_ok.mp made
  obtain ⟨files, -, made⟩ := bind_eq_ok.mp made
  cases made
  have tree : (facts.name ++ "/") :: (facts.directories.take 20).map treeLine <:+:
      structureLines facts :=
    ⟨["## Project Structure", "", "```"], _, by simp [structureLines, limited]; rfl⟩
  exact ((tree.trans (List.infix_append _ _ _)).trans (List.prefix_append _ _).isInfix).trans
    ((List.prefix_append _ _).isInfix.trans (List.prefix_append _ _).isInfix)

/-- Whatever the paths are: a report shows the directories that they give, and each of them stands
under its own parent exactly if the name of no parent among them goes on, in the name of a sibling,
with a character before the slash. -/
theorem tree_nested_iff {facts : ProjectFacts} {ways : List String}
    (derived : facts.directories = Project.allDirectories ways) :
    (∀ working summary docs includeCode generatedAt all,
      lines working facts summary docs includeCode generatedAt = .ok all →
        (facts.name ++ "/") :: (facts.directories.take 20).map treeLine <:+: all) ∧
    (Nested (facts.directories.take 20) ↔
      ∀ child ∈ facts.directories.take 20, 1 < Path.nameCount child →
        ∀ other ∈ facts.directories.take 20, ¬ Path.Intrudes (Path.parent child) other) := by
  refine ⟨fun _ _ _ _ _ _ made => tree_infix_lines made, ?_⟩
  rw [derived]
  exact nested_take_iff ways 20

/-- A project with files at these ways, of which only the directories are known. -/
def directoryFacts (ways : List String) : ProjectFacts :=
  { name := "p", root := "/p", files := [], total := ways.length, byExtension := [],
    byDirectory := [], totalSize := 0, categories := [],
    directories := Project.allDirectories ways, depth := Project.depthOf ways,
    dependencies := {}, entryPoints := [], techStack := [] }

/-- A sibling that goes on with a digit stands after all that is below. -/
theorem tree_nested_digits :
    let facts := directoryFacts ["src/lib/x.js", "src2/y.js", "src/lib-z/deep/x.js"]
    facts.directories = Project.allDirectories
      ["src/lib/x.js", "src2/y.js", "src/lib-z/deep/x.js"] ∧
      Nested (facts.directories.take 20) := by
  intro facts
  refine ⟨rfl, (tree_nested_iff rfl).2.mpr ?_⟩
  decide +kernel

/-- A sibling that goes on with a hyphen takes what is below. -/
theorem hyphen_not_nested :
    let shown := (directoryFacts ["a/c/f", "a-b/f"]).directories.take 20
    shown.map treeLine = ["  ├── a/", "  ├── a-b/", "    ├── c/"] ∧ StandsUnder shown "a/c" "a-b" ∧
      ¬ Nested shown := by
  intro shown
  have order : shown = ["a", "a-b", "a/c"] := by decide +kernel
  have deeper : indentation (treeLine "a-b") < indentation (treeLine "a/c") := by decide +kernel
  refine ⟨by decide +kernel, ⟨["a"], [], [], order, deeper, nofun⟩, fun nested => ?_⟩
  have alone := (nested_take_iff ["a/c/f", "a-b/f"] 20).mp nested "a/c" (by decide +kernel)
    (by decide +kernel) "a-b" (by decide +kernel)
  exact alone (by decide +kernel)

end Markdown

end Synopsis
