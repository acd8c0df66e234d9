import Mathlib.Data.List.Nodup
import Synopsis.Proofs.Disk.Opening
import Synopsis.Proofs.Sort
import Synopsis.Proofs.Scan.Listing

/-!
# The result of a scan

A scan of a tree gives the texts of exactly the listed paths, each once and in strictly increasing
order, whatever order the folders have. A folder that is there is always scanned: the only failures
are roots that cannot be found or are no folders.
-/

namespace Synopsis

namespace Scan

theorem sorted_pairwise_le (texts : List String) : (sorted texts).Pairwise (· ≤ ·) := by
  have inOrder : (sorted texts).Pairwise fun a b => decide (a ≤ b) = true := by
    apply pairwise_sortBy
    · intro a b c hab hbc
      simp only [decide_eq_true_eq] at *
      exact String.le_trans hab hbc
    · intro a b
      simpa using String.le_total a b
  exact inOrder.imp of_decide_eq_true

/-- Sorting texts that differ makes them strictly increasing. -/
theorem sorted_pairwise_lt {texts : List String} (distinct : texts.Nodup) :
    (sorted texts).Pairwise (· < ·) := by
  have hne : (sorted texts).Nodup := (sortBy_perm texts).nodup_iff.mpr distinct
  refine ((sorted_pairwise_le texts).and hne).imp ?_
  rintro a b ⟨hab, different⟩
  by_cases h : a < b
  · exact h
  · exact absurd (String.le_antisymm hab (String.not_lt.mp h)) different

variable {disk : Entry} {root : Location} {rules : List IgnoreRule} {depth : Int}

theorem nodup_paths (tree : disk.IsTree) : (paths disk root rules depth).Nodup := by
  rw [paths]
  split
  · rename_i entries hopened
    have htop := Disk.isTree_of_opened? tree hopened
    exact nodup_filesOf disk root rules htop.2 htop.1 fun name entry hmem =>
      nodup_filesIn disk root rules (htop.2.of_mem hmem).2
  · exact List.nodup_nil

/-- The names of a listed path, and of the root above it, hold no slash. -/
theorem Listed.no_slash (tree : disk.IsTree) (hroot : leadsToFolder disk root = true)
    {path : Location} (listed : Listed disk root rules depth path) :
    ∀ name ∈ root ++ path, '/' ∉ name.toList := by
  obtain ⟨found, entries, hwalk, hfound⟩ := opened?_of_leadsToFolder hroot
  obtain ⟨leaf, hleaf⟩ := listed.at? tree hwalk hfound rfl
  intro name hname
  rcases List.mem_append.mp hname with hname | hname
  · exact (Disk.plain_of_walk tree hwalk name hname).1
  · exact ((tree.at? hleaf).1 name (List.mem_append_right _ hname)).no_slash

theorem nodup_texts (tree : disk.IsTree) (hroot : leadsToFolder disk root = true) :
    ((paths disk root rules depth).map fun path => Location.text (root ++ path)).Nodup := by
  refine (nodup_paths tree).map_on ?_
  intro path hpath other hother same
  have listed := (mem_paths tree hroot).mp hpath
  have listed' := (mem_paths tree hroot).mp hother
  have heq := Location.text_injective (by simp [listed.nonempty]) (by simp [listed'.nonempty])
    (listed.no_slash tree hroot) (listed'.no_slash tree hroot) same
  exact List.append_cancel_left heq

theorem mem_files (tree : disk.IsTree) (hroot : leadsToFolder disk root = true) {file : String} :
    file ∈ files disk root rules depth ↔
      ∃ path, file = Location.text (root ++ path) ∧ Listed disk root rules depth path := by
  rw [files, sorted, (sortBy_perm _).mem_iff, List.mem_map]
  constructor
  · rintro ⟨path, hpath, rfl⟩
    exact ⟨path, rfl, (mem_paths tree hroot).mp hpath⟩
  · rintro ⟨path, rfl, listed⟩
    exact ⟨path, (mem_paths tree hroot).mpr listed, rfl⟩

end Scan

namespace Workspace

/-- A place that leads to a folder is present when it is written as a text. -/
theorem present?_text {w : Workspace} {place : Location} (tree : w.disk.IsTree)
    (hplace : Scan.leadsToFolder w.disk place = true) :
    ∃ entries, w.present? (Location.text place) = .ok (some (.folder entries)) := by
  obtain ⟨found, entries, hwalk, hfound⟩ := Scan.opened?_of_leadsToFolder hplace
  have hroot : w.disk.isFolder = true := Entry.isFolder_of_at? hfound rfl
  have hplain := Disk.plain_of_walk tree hwalk
  refine ⟨entries, ?_⟩
  rw [present?, entryOf, Disk.entryOf, Disk.openPath_text hroot w.working hplain, hwalk]
  simp only [Except.mapError, hfound]

theorem scanRoot_of_folder {w : Workspace} {root : String} {place : Location}
    (tree : w.disk.IsTree) (hlocate : w.locate root = .ok place)
    (hfolder : Scan.leadsToFolder w.disk place = true) : w.scanRoot root = .ok place := by
  obtain ⟨entries, hpresent⟩ := present?_text tree hfolder
  -- The equation of `scanRoot` is slow to derive, since its proof looks into `locate`.
  delta scanRoot
  rw [hlocate]
  simp [hpresent, Entry.isFolder]

/-- A scan of a folder of a tree succeeds. It gives exactly the listed paths below the folder, as
absolute texts in strictly increasing order. -/
theorem scan_lists_exactly {w : Workspace} {root : String} {place : Location} (depth : Int)
    (ignored : List String) (tree : w.disk.IsTree) (hlocate : w.locate root = .ok place)
    (hfolder : Scan.leadsToFolder w.disk place = true) :
    ∃ files, w.scan root depth ignored = .ok files ∧ files.Pairwise (· < ·) ∧
      ∀ file, file ∈ files ↔ ∃ path, file = Location.text (place ++ path) ∧
        Scan.Listed w.disk place (IgnoreRule.withDefaults ignored) depth path := by
  refine ⟨Scan.files w.disk place (IgnoreRule.withDefaults ignored) depth, ?_, ?_, ?_⟩
  · rw [scan, scanRoot_of_folder tree hlocate hfolder]
    rfl
  · exact Scan.sorted_pairwise_lt (Scan.nodup_texts tree hfolder)
  · intro file
    exact Scan.mem_files tree hfolder

/-- A project with a hidden file, a folder that is excluded, and a link to a folder. -/
def sampleProject : Workspace :=
  { disk := .folder [("p", .folder [("up", .link "src"), ("src", .folder [("d.js", .file .empty)]),
      ("a.py", .file .empty), (".b", .file .empty),
      ("build", .folder [("c.js", .file .empty)])])] }

theorem scan_lists_sampleProject :
    sampleProject.disk.IsTree ∧ sampleProject.locate "/p" = .ok ["p"] ∧
      Scan.leadsToFolder sampleProject.disk ["p"] = true ∧
      ∃ files, sampleProject.scan "/p" 2 ["*.txt"] = .ok files ∧ files.Pairwise (· < ·) ∧
        ∀ file, file ∈ files ↔ ∃ path, file = Location.text (["p"] ++ path) ∧
          Scan.Listed sampleProject.disk ["p"] (IgnoreRule.withDefaults ["*.txt"]) 2 path := by
  have tree : sampleProject.disk.IsTree := by
    simp only [sampleProject, Entry.IsTree, Entry.AreTrees]
    decide
  have hlocate : sampleProject.locate "/p" = .ok ["p"] := by decide +kernel
  have hfolder : Scan.leadsToFolder sampleProject.disk ["p"] = true := by decide +kernel
  exact ⟨tree, hlocate, hfolder, scan_lists_exactly 2 ["*.txt"] tree hlocate hfolder⟩

end Workspace

end Synopsis
