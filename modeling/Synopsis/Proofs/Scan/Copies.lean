import Mathlib.Data.List.Sort
import Synopsis.Proofs.Disk.Holding
import Synopsis.Proofs.Path
import Synopsis.Proofs.Scan.Exact

/-!
# Scans of one tree at several places

What a scan finds below a place is told by the tree there, if the tree has no links: the ways to the
files, and their order. The names above the place decide nothing, whether they are hidden, excluded
or neither.
-/

namespace Synopsis

/-- A way leads to a file of the entry. -/
def Entry.HasFile (entry : Entry) (way : String) : Prop :=
  ∃ path bytes, way = Text.join "/" path ∧ path ≠ [] ∧ entry.at? path = some (.file bytes)

namespace Scan

/-- A way down a tree without links at which a scan finds a file. -/
structure Found (tree : Entry) (rules : List IgnoreRule) (depth : Int) (way : Location) : Prop where
  nonempty : way ≠ []
  file : ∃ bytes, tree.at? way = some (.file bytes)
  within : way.length ≤ (max depth 1).toNat
  visible : ∀ name ∈ way, isHidden name = false
  entered : ∀ front, front <+: way → front ≠ [] → front ≠ way → excluded rules front true = false
  kept : excluded rules way false = false

/-- The ways to the files below a place, sorted as texts. -/
def ways (disk : Entry) (root : Location) (rules : List IgnoreRule) (depth : Int) : List String :=
  sorted ((paths disk root rules depth).map (Text.join "/"))

/-- The order of texts does not depend on how they are listed. -/
theorem sorted_congr {texts others : List String} (same : texts.Perm others) :
    sorted texts = sorted others := by
  have perm : (sorted texts).Perm (sorted others) :=
    ((sortBy_perm texts).trans same).trans (sortBy_perm others).symm
  exact perm.eq_of_pairwise (fun a b _ _ => String.le_antisymm) (sorted_pairwise_le texts)
    (sorted_pairwise_le others)

/-- The files below a place are the paths of the ways to them, and in their order. -/
theorem files_eq {disk : Entry} {root : Location} {rules : List IgnoreRule} {depth : Int}
    (nonempty : ∀ path ∈ paths disk root rules depth, path ≠ []) :
    files disk root rules depth = (ways disk root rules depth).map (Location.pathTo root) := by
  have texts : (paths disk root rules depth).map (fun path => Location.text (root ++ path)) =
      ((paths disk root rules depth).map (Text.join "/")).map (Location.pathTo root) := by
    rw [List.map_map]
    exact List.map_congr_left fun path h => Location.text_append root (nonempty path h)
  have keeps (a b : String) :
      decide (Location.pathTo root a ≤ Location.pathTo root b) = decide (a ≤ b) :=
    decide_eq_decide.mpr (Location.pathTo_le_pathTo_iff root a b)
  rw [files, texts]
  exact sortBy_map keeps _

end Scan

namespace Workspace.Holds

variable {w : Workspace} {place : Location} {tree : Entry} (holds : w.Holds place tree)
  (isFolder : tree.isFolder = true)
include holds isFolder

theorem opened? : ∃ entries, Disk.opened? w.disk place = some (.folder entries) ∧
    w.disk.at? place = some (.folder entries) := by
  obtain ⟨entries, here⟩ := holds.folder isFolder
  have walked : Disk.walk w.disk Disk.mostLinks [] place = .ok place :=
    Disk.walk_to_entry holds.disk _ here nofun
  refine ⟨entries, ?_, here⟩
  rw [Disk.opened?, walked]
  exact here

theorem scanRoot {root : String} (located : w.locate root = .ok place) :
    w.scanRoot root = .ok place := by
  obtain ⟨entries, opened, -⟩ := holds.opened? isFolder
  refine scanRoot_of_folder holds.disk located ?_
  rw [Scan.leadsToFolder, opened]
  rfl

variable (noLinks : tree.linkCount = 0) {rules : List IgnoreRule} {depth : Int}
include noLinks

/-- What a scan of the place finds is told by the tree. -/
theorem mem_paths {way : Location} :
    way ∈ Scan.paths w.disk place rules depth ↔ Scan.Found tree rules depth way := by
  obtain ⟨entries, opened, here⟩ := holds.opened? isFolder
  rw [Scan.paths, opened]
  refine (Scan.mem_filesOf_root holds.disk here).trans ?_
  constructor
  · rintro ⟨nonempty, leaf, found, stops, within, visible, entered⟩
    have isFile : ∃ bytes, leaf = .file bytes := by
      cases leaf with
      | file bytes => exact ⟨bytes, rfl⟩
      | folder entries => cases stops.noFolder
      | link target => exact absurd found (holds.not_link noLinks way target)
    obtain ⟨bytes, rfl⟩ := isFile
    have file := (holds.at?_eq_some_iff rfl).mp found
    exact ⟨nonempty, ⟨bytes, file⟩, within, visible, entered, stops.kept⟩
  · rintro ⟨nonempty, ⟨bytes, file⟩, within, visible, entered, kept⟩
    have noLink : ¬ ∃ target, Entry.file bytes = .link target := by rintro ⟨target, ⟨⟩⟩
    exact ⟨nonempty, .file bytes, holds.present file, ⟨rfl, fun link => absurd link noLink, kept⟩,
      within, visible, entered⟩

/-- A scan of the place succeeds and finds the ways that lead to files, in order. -/
theorem scan {root : String} (located : w.locate root = .ok place) (depth : Int)
    (ignored : List String) :
    w.scan root depth ignored = .ok
      ((Scan.ways w.disk place (IgnoreRule.withDefaults ignored) depth).map
        (Location.pathTo place)) := by
  have nonempty (path : Location)
      (h : path ∈ Scan.paths w.disk place (IgnoreRule.withDefaults ignored) depth) : path ≠ [] :=
    ((holds.mem_paths isFolder noLinks).mp h).nonempty
  rw [Workspace.scan, holds.scanRoot isFolder located, ← Scan.files_eq nonempty]
  rfl

theorem hasFile_of_mem_ways {way : String} (h : way ∈ Scan.ways w.disk place rules depth) :
    tree.HasFile way := by
  obtain ⟨path, hpath, rfl⟩ := List.mem_map.mp ((sortBy_perm _).mem_iff.mp h)
  obtain ⟨nonempty, ⟨bytes, file⟩, -⟩ := (holds.mem_paths isFolder noLinks).mp hpath
  exact ⟨path, bytes, rfl, nonempty, file⟩

/-- At two places with one tree, a scan finds the same in the same order. -/
theorem ways_eq {w' : Workspace} {place' : Location} (holds' : w'.Holds place' tree) :
    Scan.ways w.disk place rules depth = Scan.ways w'.disk place' rules depth := by
  have sameWays (way : Location) : way ∈ Scan.paths w.disk place rules depth ↔
      way ∈ Scan.paths w'.disk place' rules depth := by
    rw [holds.mem_paths isFolder noLinks, holds'.mem_paths isFolder noLinks]
  have perm := (List.perm_ext_iff_of_nodup (Scan.nodup_paths holds.disk)
    (Scan.nodup_paths holds'.disk)).mpr sameWays
  exact Scan.sorted_congr (perm.map _)

end Workspace.Holds

end Synopsis
