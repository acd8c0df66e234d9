import Synopsis.Proofs.Disk.Opening

/-!
# Trees at a place

A workspace holds a tree at a place if every way down from the place leads to what it leads to in
the tree. What is looked up, opened or read below the place is then told by the tree, wherever the
place is and whatever else the disk holds. The order in which folders list their entries may differ.
Where the links of a tree lead is not told by the tree, and nothing is said about it.
-/

namespace Synopsis

namespace Entry

variable {entry leaf : Entry} {way : Location}

theorem node?_eq_some_iff (noFolder : leaf.isFolder = false) :
    entry.node? way = some leaf ↔ entry.at? way = some leaf := by
  have alone_iff (other : Entry) : other.alone = leaf ↔ other = leaf := by
    cases other with
    | folder entries =>
      constructor
      · rintro rfl
        cases noFolder
      · rintro rfl
        cases noFolder
    | file bytes => rfl
    | link target => rfl
  rw [node?, Option.map_eq_some_iff]
  constructor
  · rintro ⟨other, found, same⟩
    rw [found, (alone_iff other).mp same]
  · intro found
    exact ⟨leaf, found, (alone_iff leaf).mpr rfl⟩

/-- Whether a file is somewhere is told by what is there by itself. -/
theorem fileAt?_eq_bind (entry : Entry) (way : Location) :
    entry.fileAt? way = (entry.node? way).bind bytes? := by
  rw [fileAt?, node?]
  cases entry.at? way with
  | none => rfl
  | some found => cases found <;> rfl

theorem linkCount_of_mem {entries : List (String × Entry)} {name : String}
    (noLinks : linkCounts entries = 0) (h : (name, entry) ∈ entries) : entry.linkCount = 0 := by
  induction entries with
  | nil => cases h
  | cons first rest ih =>
    obtain ⟨other, inside⟩ := first
    rw [linkCounts] at noLinks
    rcases List.mem_cons.mp h with heq | h
    · cases heq
      omega
    · exact ih (by omega) h

/-- Where no links are counted, none is found. -/
theorem at?_ne_link (noLinks : entry.linkCount = 0) (way : Location) (target : String) :
    entry.at? way ≠ some (.link target) := by
  induction way generalizing entry with
  | nil =>
    rintro ⟨⟩
    cases noLinks
  | cons name rest ih =>
    intro h
    obtain ⟨inside, hinside, hrest⟩ := Option.bind_eq_some_iff.mp h
    cases entry with
    | file bytes => cases hinside
    | link target => cases hinside
    | folder entries =>
      exact ih (linkCount_of_mem noLinks (Table.mem_of_get? hinside)) hrest

end Entry

namespace Workspace

/-- There is a tree at the place. -/
structure Holds (w : Workspace) (place : Location) (tree : Entry) : Prop where
  disk : w.disk.IsTree
  same : ∀ way, w.disk.node? (place ++ way) = tree.node? way

namespace Holds

theorem of_at? {w : Workspace} {place : Location} {tree : Entry} (disk : w.disk.IsTree)
    (present : w.disk.at? place = some tree) : w.Holds place tree where
  disk := disk
  same way := by rw [Entry.node?, Entry.at?_append, present]; rfl

variable {w : Workspace} {place way : Location} {tree : Entry} (holds : w.Holds place tree)
include holds

theorem at?_eq_some_iff {leaf : Entry} (noFolder : leaf.isFolder = false) :
    w.disk.at? (place ++ way) = some leaf ↔ tree.at? way = some leaf := by
  rw [← Entry.node?_eq_some_iff noFolder, ← Entry.node?_eq_some_iff noFolder, holds.same]

theorem fileAt? (way : Location) : w.disk.fileAt? (place ++ way) = tree.fileAt? way := by
  rw [Entry.fileAt?_eq_bind, Entry.fileAt?_eq_bind, holds.same]

theorem not_link (noLinks : tree.linkCount = 0) (way : Location) (target : String) :
    w.disk.at? (place ++ way) ≠ some (.link target) := by
  intro link
  have noFolder : (Entry.link target).isFolder = false := rfl
  exact Entry.at?_ne_link noLinks way target ((holds.at?_eq_some_iff noFolder).mp link)

theorem folder (isFolder : tree.isFolder = true) :
    ∃ entries, w.disk.at? place = some (.folder entries) := by
  obtain ⟨inner, rfl⟩ := Entry.isFolder_iff.mp isFolder
  have here := holds.same []
  rw [List.append_nil] at here
  obtain ⟨entry, found, alone⟩ := Option.map_eq_some_iff.mp here
  cases entry with
  | folder entries => exact ⟨entries, found⟩
  | file bytes => cases alone
  | link target => cases alone

section File

variable {bytes : ByteArray} (file : tree.at? way = some (.file bytes))
include file

theorem present : w.disk.at? (place ++ way) = some (.file bytes) := by
  have noFolder : (Entry.file bytes).isFolder = false := rfl
  exact (holds.at?_eq_some_iff noFolder).mpr file

/-- The place and the ways to files below it are spelled by names of folders. -/
theorem names : ∀ name ∈ place ++ way, IsName name :=
  (holds.disk.at? (holds.present file)).1

theorem entryOf (isFolder : tree.isFolder = true) :
    w.entryOf (Location.text (place ++ way)) = .ok (.file bytes) := by
  obtain ⟨entries, here⟩ := holds.folder isFolder
  exact entryOf_text holds.disk (Entry.isFolder_of_at? here rfl) (holds.present file) nofun

theorem resolve :
    Disk.resolve w.disk w.working (Location.text (place ++ way)) = .ok (place ++ way) := by
  have direct := Disk.direct_of_present holds.disk (holds.present file) nofun
  have names := holds.names file
  exact Disk.resolve_text direct w.working fun name h =>
    ⟨(names name h).no_slash, (names name h).no_null⟩

end File

theorem contentOf (isFolder : tree.isFolder = true) (noLinks : tree.linkCount = 0) {name : String}
    (isName : IsName name) :
    (w.contentOf (Location.text (place ++ [name]))).toOption = tree.fileAt? [name] := by
  obtain ⟨entries, here⟩ := holds.folder isFolder
  rw [contentOf_text holds.disk here isName (holds.not_link noLinks [name]), holds.fileAt?]

end Holds

end Workspace

end Synopsis
