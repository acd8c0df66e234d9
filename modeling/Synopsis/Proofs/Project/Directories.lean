import Synopsis.Proofs.IgnoreRule
import Synopsis.Proofs.Project.Links

/-!
# The layout of a project

The directories of a project are found by cutting the ways to its files into names and joining the
first few of them again; the depth is a maximum kept on the side. Both are told here by the texts
alone: a directory is what stands before a slash of some way, whatever the names are, so empty names
and dots are names like others. What is listed that way depends on which ways there are, not on how
often or in which order they are given.
-/

namespace Synopsis

namespace Path

theorem join_segments (path : String) : Text.join "/" (segments path) = path := by
  have pieces : (segments path).map String.toList = path.toList.splitOn '/' := by
    simp [segments, Text.splitOn_eq, Function.comp_def]
  rw [← String.toList_inj, Text.join, String.toList_intercalate, pieces]
  exact List.intercalate_splitOn '/'

theorem segments_ne_nil (path : String) : segments path ≠ [] := by
  rw [segments, Ne, List.map_eq_nil_iff]
  exact Text.splitOn_ne_nil '/' path.toList

/-- How many names a path has: one more than it has slashes. -/
def nameCount (path : String) : Nat := path.toList.count '/' + 1

theorem length_segments (path : String) : (segments path).length = nameCount path := by
  rw [segments, List.length_map, Text.length_splitOn, nameCount]

theorem nameCount_below (folder path : String) :
    nameCount (folder ++ "/" ++ path) = nameCount folder + nameCount path := by
  rw [← length_segments, segments_below, List.length_append, length_segments, length_segments]

theorem lt_below (folder path : String) : folder < folder ++ "/" ++ path := by
  simp only [String.lt_iff_toList_lt, String.toList_append, List.append_assoc]
  simpa using (Text.append_lt_append_iff folder.toList [] ('/' :: path.toList)).mpr
    (List.nil_lt_cons '/' path.toList)

theorem isPrefix_iff {folder path : String} :
    (folder ++ "/").toList <+: path.toList ↔ ∃ rest, path = folder ++ "/" ++ rest := by
  constructor
  · rintro ⟨rest, whole⟩
    refine ⟨String.ofList rest, String.toList_inj.mp ?_⟩
    rw [String.toList_append, String.toList_ofList, whole]
  · rintro ⟨rest, rfl⟩
    exact ⟨rest.toList, (String.toList_append).symm⟩

/-- A path with a slash has a parent, which has one name less. -/
theorem exists_parent {path : String} (slash : '/' ∈ path.toList) :
    ∃ parent name, path = parent ++ "/" ++ name ∧ nameCount path = nameCount parent + 1 := by
  -- The last slash is the first one from behind.
  obtain ⟨name, parent, whole, plain⟩ :=
    List.eq_append_cons_of_mem (List.mem_reverse.mpr slash)
  have cut : path = String.ofList parent.reverse ++ "/" ++ String.ofList name.reverse := by
    rw [← String.toList_inj, ← List.reverse_reverse path.toList, whole]
    simp
  have single : nameCount (String.ofList name.reverse) = 1 := by
    rw [nameCount, String.toList_ofList, List.count_reverse, List.count_eq_zero.mpr plain]
  refine ⟨_, _, cut, ?_⟩
  rw [cut, nameCount_below, single]

end Path

namespace Project

variable {ways : List String}

/-! ## Directories -/

theorem mem_directoriesOf_iff {way directory : String} :
    directory ∈ directoriesOf way ↔ ∃ rest, way = directory ++ "/" ++ rest := by
  rw [mem_directoriesOf]
  constructor
  · rintro ⟨front, rest, frontNonempty, restNonempty, cut, rfl⟩
    refine ⟨Text.join "/" rest, ?_⟩
    rw [← Path.join_segments way, cut]
    exact String.intercalate_append_of_ne_nil frontNonempty restNonempty
  · rintro ⟨rest, rfl⟩
    exact ⟨Path.segments directory, Path.segments rest, Path.segments_ne_nil directory,
      Path.segments_ne_nil rest, Path.segments_below directory rest,
      (Path.join_segments directory).symm⟩

theorem mem_allDirectories_iff {directory : String} :
    directory ∈ allDirectories ways ↔ ∃ rest, directory ++ "/" ++ rest ∈ ways := by
  simp only [mem_allDirectories, mem_directoriesOf_iff]
  constructor
  · rintro ⟨way, inside, rest, rfl⟩
    exact ⟨rest, inside⟩
  · rintro ⟨rest, inside⟩
    exact ⟨_, inside, rest, rfl⟩

theorem allDirectories_increasing (ways : List String) :
    (allDirectories ways).Pairwise (· < ·) :=
  Scan.sorted_pairwise_lt (nodup_eraseDups _)

/-- Where a directory is listed, each one above it is listed before it. -/
theorem parent_sublist {parent child : String}
    (listed : parent ++ "/" ++ child ∈ allDirectories ways) :
    [parent, parent ++ "/" ++ child].Sublist (allDirectories ways) := by
  have earlier := Path.lt_below parent child
  have parentListed : parent ∈ allDirectories ways := by
    obtain ⟨rest, inside⟩ := mem_allDirectories_iff.mp listed
    refine mem_allDirectories_iff.mpr ⟨child ++ "/" ++ rest, ?_⟩
    simpa only [String.append_assoc] using inside
  have both : [parent, parent ++ "/" ++ child].Subperm (allDirectories ways) :=
    List.subperm_of_subset (by simpa using earlier.ne) (by simp [parentListed, listed])
  exact List.sublist_of_subperm_of_pairwise both (List.pairwise_pair.mpr earlier)
    (allDirectories_increasing ways)

/-! ## Depth -/

theorem nameCount_le_depthOf {way : String} (inside : way ∈ ways) :
    Path.nameCount way ≤ depthOf ways := by
  rw [← Path.length_segments]
  exact depthOf_le_iff.mp (Nat.le_refl _) way inside

theorem exists_nameCount_eq_depthOf (nonempty : ways ≠ []) :
    ∃ way ∈ ways, Path.nameCount way = depthOf ways := by
  by_contra none
  have fewer (way : String) (inside : way ∈ ways) : Path.nameCount way < depthOf ways :=
    Nat.lt_of_le_of_ne (nameCount_le_depthOf inside) fun same => none ⟨way, inside, same⟩
  obtain ⟨first, inside⟩ := List.exists_mem_of_ne_nil ways nonempty
  have positive := fewer first inside
  -- If every way fell short of it, one less would be a bound too.
  have bound : depthOf ways ≤ depthOf ways - 1 := by
    refine depthOf_le_iff.mpr fun way member => ?_
    rw [Path.length_segments]
    exact Nat.le_sub_one_of_lt (fewer way member)
  omega

theorem nameCount_lt_depthOf {directory : String} (listed : directory ∈ allDirectories ways) :
    Path.nameCount directory < depthOf ways := by
  obtain ⟨rest, inside⟩ := mem_allDirectories_iff.mp listed
  have below := nameCount_le_depthOf inside
  rw [Path.nameCount_below] at below
  exact Nat.lt_of_lt_of_le (Nat.lt_add_of_pos_right (Nat.succ_pos _)) below

/-- The parent of a deepest way is a deepest directory. -/
theorem exists_nameCount_add_one_eq_depthOf (nonempty : allDirectories ways ≠ []) :
    ∃ directory ∈ allDirectories ways, Path.nameCount directory + 1 = depthOf ways := by
  obtain ⟨directory, listed⟩ := List.exists_mem_of_ne_nil _ nonempty
  obtain ⟨rest, inside⟩ := mem_allDirectories_iff.mp listed
  obtain ⟨way, deepest, same⟩ := exists_nameCount_eq_depthOf (List.ne_nil_of_mem inside)
  have slash : '/' ∈ way.toList := by
    have deeper := nameCount_lt_depthOf listed
    rw [← same, Path.nameCount, Path.nameCount] at deeper
    exact List.count_pos_iff.mp (by omega)
  obtain ⟨parent, name, rfl, counted⟩ := Path.exists_parent slash
  exact ⟨parent, mem_allDirectories_iff.mpr ⟨name, deepest⟩, by rw [← same, counted]⟩

/-! ## The layout -/

/-- The directories and the depth of a project with files at these ways. -/
structure IsLayout (ways directories : List String) (depth : Nat) : Prop where
  increasing : directories.Pairwise (· < ·)
  /-- A directory is what stands before a slash of a way. -/
  listed : ∀ directory, directory ∈ directories ↔
    ∃ way ∈ ways, (directory ++ "/").toList <+: way.toList
  /-- What stands before a slash of a directory is listed before it. -/
  parents : ∀ parent child, parent ++ "/" ++ child ∈ directories →
    [parent, parent ++ "/" ++ child].Sublist directories
  empty : ways = [] → depth = 0
  deepest : ways ≠ [] → (∃ way ∈ ways, Path.nameCount way = depth) ∧
    ∀ way ∈ ways, Path.nameCount way ≤ depth
  /-- The deepest directories are one name short of the depth. -/
  above : directories ≠ [] → (∃ directory ∈ directories, Path.nameCount directory + 1 = depth) ∧
    ∀ directory ∈ directories, Path.nameCount directory + 1 ≤ depth

theorem isLayout (ways : List String) : IsLayout ways (allDirectories ways) (depthOf ways) where
  increasing := allDirectories_increasing ways
  listed directory := by
    rw [mem_allDirectories_iff]
    simp only [Path.isPrefix_iff]
    constructor
    · rintro ⟨rest, inside⟩
      exact ⟨_, inside, rest, rfl⟩
    · rintro ⟨way, inside, rest, rfl⟩
      exact ⟨rest, inside⟩
  parents _ _ := parent_sublist
  empty := by
    rintro rfl
    rfl
  deepest nonempty := ⟨exists_nameCount_eq_depthOf nonempty, fun _ => nameCount_le_depthOf⟩
  above nonempty := ⟨exists_nameCount_add_one_eq_depthOf nonempty, fun _ => nameCount_lt_depthOf⟩

/-- What is found from the ways is their layout, and the same for lists of the same ways. -/
theorem layout_of_ways (ways : List String) :
    IsLayout ways (allDirectories ways) (depthOf ways) ∧
      ∀ others : List String, (∀ way, way ∈ others ↔ way ∈ ways) →
        allDirectories others = allDirectories ways ∧ depthOf others = depthOf ways :=
  ⟨isLayout ways, fun _ same => ⟨allDirectories_congr same, depthOf_congr same⟩⟩

/-- An empty name is a name, and no folder has to be above a file. -/
example : allDirectories ["z/leaf.txt", "top.txt", "a//deep.txt", "/a.txt"] = ["", "a", "a/", "z"] ∧
    depthOf ["z/leaf.txt", "top.txt", "a//deep.txt", "/a.txt"] = 3 := by decide +kernel

end Project

end Synopsis
