import Synopsis.Disk.Lookup

/-!
# Trees that a disk can hold

The entries of a disk are plain data, in which a folder could list one name twice or hold a name
with a slash. A file system keeps no such folder: the names in a folder differ, and each of them is
one that a path can spell. Below such a folder, looking a place up reaches every entry that is
listed, and nothing else. Nothing is said here about what links lead to.
-/

namespace Synopsis

/-- A name that a folder can hold. -/
structure IsName (name : String) : Prop where
  ne_empty : name ≠ ""
  ne_here : name ≠ "."
  ne_above : name ≠ ".."
  no_slash : '/' ∉ name.toList
  no_null : '\x00' ∉ name.toList
  short : name.utf8ByteSize ≤ Disk.longestName

instance (name : String) : Decidable (IsName name) :=
  decidable_of_iff
    (name ≠ "" ∧ name ≠ "." ∧ name ≠ ".." ∧ '/' ∉ name.toList ∧ '\x00' ∉ name.toList ∧
      name.utf8ByteSize ≤ Disk.longestName)
    ⟨fun ⟨empty, here, above, slash, null, short⟩ => ⟨empty, here, above, slash, null, short⟩,
      fun h => ⟨h.ne_empty, h.ne_here, h.ne_above, h.no_slash, h.no_null, h.short⟩⟩

namespace Entry

mutual
/-- Every folder in the entry holds different names, which folders can hold. -/
def IsTree : Entry → Prop
  | .folder entries => (entries.map Prod.fst).Nodup ∧ AreTrees entries
  | .file _ => True
  | .link _ => True

/-- The same of all entries of a folder, and of their names. -/
def AreTrees : List (String × Entry) → Prop
  | [] => True
  | (name, entry) :: rest => IsName name ∧ IsTree entry ∧ AreTrees rest
end

theorem AreTrees.of_mem {entries : List (String × Entry)} (trees : AreTrees entries)
    {name : String} {entry : Entry} (h : (name, entry) ∈ entries) :
    IsName name ∧ IsTree entry := by
  induction entries with
  | nil => cases h
  | cons first rest ih =>
    obtain ⟨hname, hentry, hrest⟩ := trees
    rcases List.mem_cons.mp h with rfl | h
    · exact ⟨hname, hentry⟩
    · exact ih hrest h

end Entry

namespace Table

theorem mem_of_get? {α : Type} {name : String} {value : α} {table : Table α}
    (h : get? name table = some value) : (name, value) ∈ table := by
  induction table with
  | nil => cases h
  | cons first rest ih =>
    obtain ⟨key, old⟩ := first
    by_cases same : key = name
    · have hvalue : old = value := by simpa [get?, same] using h
      simp [same, hvalue]
    · exact List.mem_cons_of_mem _ (ih (by simpa [get?, same] using h))

/-- With different names, every entry is the one that its name looks up. -/
theorem get?_eq_some_iff {α : Type} {name : String} {value : α} {table : Table α}
    (distinct : (table.map Prod.fst).Nodup) :
    get? name table = some value ↔ (name, value) ∈ table := by
  refine ⟨mem_of_get?, fun h => ?_⟩
  induction table with
  | nil => cases h
  | cons first rest ih =>
    obtain ⟨key, old⟩ := first
    rw [List.map_cons, List.nodup_cons] at distinct
    rcases List.mem_cons.mp h with heq | h
    · obtain ⟨rfl, rfl⟩ := Prod.mk.inj heq
      simp [get?]
    · have hne : key ≠ name := by
        intro heq
        exact distinct.1 (List.mem_map.mpr ⟨(name, value), h, heq.symm⟩)
      simpa [get?, hne] using ih distinct.2 h

end Table

namespace Entry

@[simp]
theorem at?_nil (entry : Entry) : entry.at? [] = some entry := rfl

theorem at?_cons (entry : Entry) (name : String) (rest : Location) :
    entry.at? (name :: rest) = (entry.child? name).bind (·.at? rest) := rfl

theorem at?_append (entry : Entry) (front rest : Location) :
    entry.at? (front ++ rest) = (entry.at? front).bind (·.at? rest) := by
  induction front generalizing entry with
  | nil => rfl
  | cons name front ih =>
    simp only [List.cons_append, at?_cons, Option.bind_assoc]
    exact Option.bind_congr fun inside _ => ih inside

theorem isFolder_iff {entry : Entry} :
    entry.isFolder = true ↔ ∃ entries, entry = .folder entries := by
  cases entry <;> simp [isFolder]

/-- Only a folder has something below it. -/
theorem isFolder_of_child? {entry inside : Entry} {name : String}
    (h : entry.child? name = some inside) : entry.isFolder = true := by
  cases entry with
  | folder entries => rfl
  | file bytes => cases h
  | link target => cases h

/-- What lies above an entry is a folder. -/
theorem at?_above {entry leaf : Entry} {front rest : Location} (hrest : rest ≠ [])
    (h : entry.at? (front ++ rest) = some leaf) :
    ∃ above, entry.at? front = some above ∧ above.isFolder = true := by
  rw [at?_append] at h
  obtain ⟨above, habove, hleaf⟩ := Option.bind_eq_some_iff.mp h
  cases rest with
  | nil => exact False.elim (hrest rfl)
  | cons name rest =>
    obtain ⟨inside, hinside, _⟩ := Option.bind_eq_some_iff.mp hleaf
    exact ⟨above, habove, isFolder_of_child? hinside⟩

theorem IsTree.child? {entry inside : Entry} {name : String} (tree : entry.IsTree)
    (h : entry.child? name = some inside) : IsName name ∧ inside.IsTree := by
  cases entry with
  | folder entries => exact tree.2.of_mem (Table.mem_of_get? h)
  | file bytes => cases h
  | link target => cases h

/-- Every entry of a tree is a tree, and its place is spelled by names of folders. -/
theorem IsTree.at? {entry leaf : Entry} {place : Location} (tree : entry.IsTree)
    (h : entry.at? place = some leaf) : (∀ name ∈ place, IsName name) ∧ leaf.IsTree := by
  induction place generalizing entry with
  | nil =>
    cases h
    exact ⟨by simp, tree⟩
  | cons name rest ih =>
    obtain ⟨inside, hinside, hleaf⟩ := Option.bind_eq_some_iff.mp h
    obtain ⟨hname, htree⟩ := tree.child? hinside
    obtain ⟨hrest, hleafTree⟩ := ih htree hleaf
    refine ⟨?_, hleafTree⟩
    intro other hother
    rcases List.mem_cons.mp hother with rfl | hother
    · exact hname
    · exact hrest other hother

end Entry

/-- What a place of a tree leads to is a tree. -/
theorem Disk.isTree_of_opened? {disk found : Entry} {place : Location} (tree : disk.IsTree)
    (opened : Disk.opened? disk place = some found) : found.IsTree := by
  rw [Disk.opened?] at opened
  split at opened
  · exact (tree.at? opened).2
  · cases opened

end Synopsis
