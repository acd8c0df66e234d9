import Synopsis.Proofs.Disk.Agreement

/-!
# Disks that grow

What making folders and writing a file leave of a disk, place by place. Both put one entry where its
folder was already, so that every other place keeps what it holds by itself, and no entry changes
its kind: a way that could be walked before can be walked afterwards. The names of a place are
assumed to be names of their own, neither empty nor dots, as they are where a path was settled.
-/

namespace Synopsis

namespace Entry

/-- An entry by itself: a folder without what is in it. -/
def alone : Entry → Entry
  | .folder _ => .folder []
  | entry => entry

/-- What is at a place by itself. -/
def node? (entry : Entry) (place : Location) : Option Entry := (entry.at? place).map alone

/-- There is a folder in which an entry for the place can be, and no folder is at the place yet. -/
structure HasRoom (entry : Entry) (place : Location) : Prop where
  above : ∀ front name, place = front ++ [name] →
    ∃ entries, entry.at? front = some (.folder entries)
  noFolder : ∀ present, entry.at? place = some present → present.isFolder = false

/-- There is room where nothing is, in a folder. -/
theorem hasRoom_of_vacant {entry : Entry} {above : Location} {name : String}
    {entries : List (String × Entry)} (folder : entry.at? above = some (.folder entries))
    (vacant : entry.at? (above ++ [name]) = none) : entry.HasRoom (above ++ [name]) where
  above front last split := by
    obtain ⟨rfl, -⟩ := List.append_inj' split rfl
    exact ⟨entries, folder⟩
  noFolder present h := by rw [vacant] at h; cases h

/-- There is room where something is that is no folder. -/
theorem hasRoom_of_present {entry present : Entry} {place : Location}
    (h : entry.at? place = some present) (noFolder : present.isFolder = false) :
    entry.HasRoom place where
  above front last split := by
    subst split
    obtain ⟨folder, hfolder, isFolder⟩ := at?_above (by simp) h
    obtain ⟨entries, rfl⟩ := isFolder_iff.mp isFolder
    exact ⟨entries, hfolder⟩
  noFolder other hother := by
    rw [h] at hother
    cases hother
    exact noFolder

/-- An entry that holds nothing. -/
def IsLeaf (entry : Entry) : Prop := ∀ name, entry.child? name = none

theorem isLeaf_file (bytes : ByteArray) : (file bytes).IsLeaf := fun _ => rfl

theorem isLeaf_folder : (folder []).IsLeaf := fun _ => rfl

theorem IsLeaf.at?_cons {entry : Entry} (leaf : entry.IsLeaf) (name : String) (rest : Location) :
    entry.at? (name :: rest) = none := by
  rw [Entry.at?_cons, leaf name]
  rfl

theorem isLeaf_of_not_folder {entry : Entry} (noFolder : entry.isFolder = false) :
    entry.IsLeaf := by
  cases entry with
  | folder entries => cases noFolder
  | file bytes => exact isLeaf_file bytes
  | link target => exact fun _ => rfl

namespace HasRoom

variable {entry : Entry} {name : String} {rest : Location}

/-- Where there is room some way down, there is a folder to go into, and room below it. -/
theorem inside {next : String} (room : entry.HasRoom (name :: next :: rest)) :
    ∃ entries below, entry = .folder entries ∧ Table.get? name entries = some below ∧
      below.HasRoom (next :: rest) := by
  obtain ⟨front, last, split⟩ := List.eq_nil_or_concat (next :: rest) |>.resolve_left (by simp)
  rw [List.concat_eq_append] at split
  obtain ⟨inner, hinner⟩ := room.above (name :: front) last (by rw [split]; rfl)
  obtain ⟨below, hbelow, hfront⟩ := Option.bind_eq_some_iff.mp (at?_cons entry name front ▸ hinner)
  cases entry with
  | file bytes => cases hbelow
  | link target => cases hbelow
  | folder entries =>
    refine ⟨entries, below, rfl, hbelow, fun front' last' split' => ?_, fun present hpresent => ?_⟩
    · obtain ⟨entries', hentries'⟩ := room.above (name :: front') last' (by rw [split']; rfl)
      rw [at?_cons, hbelow] at hentries'
      exact ⟨entries', hentries'⟩
    · refine room.noFolder present ?_
      rw [at?_cons, hbelow]
      exact hpresent

theorem folder (room : entry.HasRoom [name]) : ∃ entries, entry = .folder entries := by
  obtain ⟨entries, h⟩ := room.above [] name rfl
  exact ⟨entries, Option.some.inj h⟩

end HasRoom

/-- What is put where there is room is there. -/
theorem at?_put_of_room {entry : Entry} {place : Location} (new : Entry)
    (room : entry.HasRoom place) : (entry.put place new).at? place = some new := by
  induction place generalizing entry with
  | nil => rw [put_nil]; rfl
  | cons name rest ih =>
    cases rest with
    | nil =>
      obtain ⟨entries, rfl⟩ := room.folder
      rw [put, at?_cons, child?, Table.get?_put_self, put_nil]
      rfl
    | cons next rest =>
      obtain ⟨entries, below, rfl, hbelow, inside⟩ := room.inside
      rw [put, at?_cons, child?, Table.get?_put_self, hbelow]
      exact ih inside

/-- What is put where there is room leaves every other place as it was. -/
theorem node?_put_of_room {entry new : Entry} {place other : Location}
    (room : entry.HasRoom place) (leaf : new.IsLeaf) (different : other ≠ place) :
    (entry.put place new).node? other = entry.node? other := by
  induction place generalizing entry other with
  | nil =>
    obtain ⟨first, other, rfl⟩ := List.exists_cons_of_ne_nil different
    have empty : entry.IsLeaf := isLeaf_of_not_folder (room.noFolder entry rfl)
    rw [put_nil, node?, node?, leaf.at?_cons, empty.at?_cons]
  | cons name rest ih =>
    obtain ⟨entries, rfl⟩ : ∃ entries, entry = .folder entries := by
      cases rest with
      | nil => exact room.folder
      | cons next rest =>
        obtain ⟨entries, below, rfl, -⟩ := room.inside
        exact ⟨entries, rfl⟩
    cases other with
    | nil => rfl
    | cons first other =>
      rw [put, node?, node?, at?_cons, at?_cons, child?, child?]
      by_cases same : first = name
      · subst same
        rw [Table.get?_put_self]
        have deeper : other ≠ rest := fun heq => different (by rw [heq])
        cases rest with
        | nil =>
          obtain ⟨second, other, rfl⟩ := List.exists_cons_of_ne_nil deeper
          rw [put_nil, Option.bind_some, leaf.at?_cons]
          cases found : Table.get? first entries with
          | none => rfl
          | some present =>
            have present? : (Entry.folder entries).at? [first] = some present := by
              rw [at?_cons, child?, found]
              rfl
            have empty := isLeaf_of_not_folder (room.noFolder present present?)
            rw [Option.bind_some, empty.at?_cons]
        | cons next rest =>
          obtain ⟨_, below, heq, hbelow, inside⟩ := room.inside
          cases heq
          rw [hbelow]
          exact ih inside deeper
      · rw [Table.get?_put_of_ne same]

/-! ## Kinds -/

/-- What kind of entry it is, and where a link leads. -/
def kind : Entry → Entry
  | .file _ => .file .empty
  | .folder _ => .folder []
  | .link target => .link target

theorem kind_alone (entry : Entry) : entry.alone.kind = entry.kind := by
  cases entry <;> rfl

theorem isFolder_of_kind {entry other : Entry} (h : other.kind = entry.kind) :
    other.isFolder = entry.isFolder := by
  cases entry <;> cases other <;> first | rfl | cases h

end Entry

namespace Disk

variable {disk before after : Entry}

/-- Every entry of the first disk is still there, and of its kind. -/
def Extends (before after : Entry) : Prop :=
  ∀ place entry, before.at? place = some entry →
    ∃ later, after.at? place = some later ∧ later.kind = entry.kind

namespace Extends

theorem refl (disk : Entry) : Extends disk disk := fun _ entry h => ⟨entry, h, rfl⟩

theorem trans {mid : Entry} (h : Extends before mid) (h' : Extends mid after) :
    Extends before after := by
  intro place entry present
  obtain ⟨between, hbetween, hkind⟩ := h place entry present
  obtain ⟨later, hlater, hkind'⟩ := h' place between hbetween
  exact ⟨later, hlater, hkind'.trans hkind⟩

/-- A step that leads on leads on as before. -/
theorem step (h : Extends before after) {here : Location} {name : String}
    (onward : ∀ cause, step before here name ≠ .stop cause) :
    Disk.step after here name = Disk.step before here name := by
  have folder : ((before.at? here).map Entry.isFolder).getD false = true := by
    refine Classical.byContradiction fun noFolder => onward .notFolder ?_
    rw [Disk.step, if_pos (by simpa using noFolder)]
  have folder' : ((after.at? here).map Entry.isFolder).getD false = true := by
    cases present : before.at? here with
    | none => rw [present] at folder; cases folder
    | some entry =>
      obtain ⟨later, hlater, hkind⟩ := h here entry present
      rw [present] at folder
      rw [hlater]
      exact (Entry.isFolder_of_kind hkind).trans folder
  unfold Disk.step at onward ⊢
  simp only [folder, folder', Bool.not_true, Bool.false_eq_true, if_false] at onward ⊢
  split
  · rfl
  split
  · rfl
  split
  · rfl
  rename_i named up short
  rw [if_neg named, if_neg up, if_neg short] at onward
  cases present : before.at? (here ++ [name]) with
  | none =>
    rw [present] at onward
    exact absurd rfl (onward .missing)
  | some entry =>
    obtain ⟨later, hlater, hkind⟩ := h _ entry present
    rw [hlater]
    cases entry <;> cases later <;> cases hkind <;> rfl

/-- A way that could be walked is walked as before. -/
theorem walk (h : Extends before after) {links : Nat} {here place : Location} {names : List String}
    (walked : walk before links here names = .ok place) :
    Disk.walk after links here names = .ok place := by
  induction links, here, names using walk_induction with
  | nil => rw [walk_nil] at walked ⊢; exact walked
  | cons links here name rest next onward =>
    rw [walk_cons] at walked ⊢
    rw [h.step fun cause stopped => by rw [stopped] at walked; cases walked]
    cases hstep : Disk.step before here name with
    | stop cause => rw [hstep] at walked; cases walked
    | on mid =>
      rw [hstep] at walked
      exact next mid walked
    | link target =>
      rw [hstep] at walked
      cases links with
      | zero => cases walked
      | succ links =>
        simp only at walked ⊢
        split at walked
        · cases walked
        · rename_i named
          rw [if_neg named]
          exact onward links _ _ rfl walked

end Extends

/-- An entry of the same kind, or one where nothing was, extends the disk. -/
theorem extends_put {place : Location} {new : Entry} (room : disk.HasRoom place) (leaf : new.IsLeaf)
    (same : ∀ present, disk.at? place = some present → new.kind = present.kind) :
    Extends disk (disk.put place new) := by
  intro other entry present
  by_cases here : other = place
  · subst here
    exact ⟨new, Entry.at?_put_of_room new room, same entry present⟩
  · have node := Entry.node?_put_of_room room leaf here
    rw [Entry.node?, Entry.node?, present] at node
    obtain ⟨later, hlater, halone⟩ := Option.map_eq_some_iff.mp node
    exact ⟨later, hlater, by rw [← Entry.kind_alone later, halone, Entry.kind_alone]⟩

/-! ## Folders -/

/-- The way leads to the place, from the root on. -/
def Leads (disk : Entry) (way place : Location) : Prop := walk disk mostLinks [] way = .ok place

/-- There is a new folder at the place, and a part of the way to the target leads to it. -/
structure NewFolder (target : Location) (before after : Entry) (place : Location) : Prop where
  vacant : before.at? place = none
  made : after.node? place = some (.folder [])
  onWay : ∃ way, way <+: target ∧ Leads after way place

/-- The second disk came of the first one by making folders on the way to a target. -/
structure FoldersMade (target : Location) (before after : Entry) : Prop where
  grows : Extends before after
  changed : ∀ place, after.node? place ≠ before.node? place → NewFolder target before after place

theorem NewFolder.later {target further place : Location} {mid : Entry}
    (h : NewFolder target before mid place) (sub : target <+: further) (grows : Extends mid after)
    (kept : after.node? place = mid.node? place) : NewFolder further before after place := by
  obtain ⟨way, hway, leads⟩ := h.onWay
  exact ⟨h.vacant, kept.trans h.made, way, hway.trans sub, grows.walk leads⟩

namespace FoldersMade

variable {target : Location}

theorem refl (target : Location) (disk : Entry) : FoldersMade target disk disk :=
  ⟨.refl disk, fun _ h => absurd rfl h⟩

theorem mono {further : Location} (h : FoldersMade target before after) (sub : target <+: further) :
    FoldersMade further before after :=
  ⟨h.grows, fun place differs => (h.changed place differs).later sub (.refl after) rfl⟩

theorem trans {mid : Entry} (h : FoldersMade target before mid)
    (h' : FoldersMade target mid after) :
    FoldersMade target before after := by
  refine ⟨h.grows.trans h'.grows, fun place differs => ?_⟩
  by_cases first : mid.node? place = before.node? place
  · obtain ⟨vacant, made, onWay⟩ := h'.changed place (first ▸ differs)
    refine ⟨?_, made, onWay⟩
    rw [Entry.node?, Entry.node?, vacant, Option.map_none, eq_comm, Option.map_eq_none_iff] at first
    exact first
  · have new := h.changed place first
    refine new.later (List.prefix_refl target) h'.grows
      (Classical.byContradiction fun changed => ?_)
    have made := new.made
    rw [Entry.node?, (h'.changed place changed).vacant] at made
    cases made

/-- A file that is there was there before. -/
theorem file (h : FoldersMade target before after) {place : Location} {bytes : ByteArray}
    (present : after.at? place = some (.file bytes)) : before.at? place = some (.file bytes) := by
  have node : after.node? place = some (.file bytes) := by
    rw [Entry.node?, present]
    rfl
  have same : before.node? place = some (.file bytes) := by
    refine node ▸ Classical.byContradiction fun changed => ?_
    have made := (h.changed place fun same => changed same.symm).made
    rw [node] at made
    cases made
  obtain ⟨entry, hentry, halone⟩ := Option.map_eq_some_iff.mp same
  cases entry <;> cases halone
  exact hentry

end FoldersMade

/-- A slot is a vacant place in the folder to which the way leads. -/
theorem slot_eq_ok {place found : Location} (h : slot disk place = .ok found) :
    ∃ front name above entries, place = front ++ [name] ∧
      walk disk mostLinks [] front = .ok above ∧ disk.at? above = some (.folder entries) ∧
      name.utf8ByteSize ≤ longestName ∧ found = above ++ [name] ∧ disk.at? found = none := by
  rw [slot] at h
  split at h
  · cases h
  rename_i above walked
  simp only at h
  split at h
  · cases h
  rename_i folder
  split at h
  · cases h
  rename_i short
  split at h
  · cases h
  rename_i vacant
  cases h
  rcases List.eq_nil_or_concat place with rfl | ⟨front, name, rfl⟩
  · rw [List.dropLast_nil, walk_nil] at walked
    cases walked
    exact absurd rfl vacant
  · rw [List.concat_eq_append] at *
    rw [List.dropLast_concat] at walked
    obtain ⟨entries, hentries⟩ : ∃ entries, disk.at? above = some (.folder entries) := by
      cases hentry : disk.at? above with
      | none => simp [hentry] at folder
      | some entry =>
        obtain ⟨entries, rfl⟩ := Entry.isFolder_iff.mp (by simpa [hentry] using folder)
        exact ⟨entries, rfl⟩
    refine ⟨front, name, above, entries, rfl, walked, hentries, ?_, by simp, ?_⟩
    · simpa using short
    · simpa using vacant

/-- Making a folder in the slot of a place makes one folder, to which the place then leads. -/
theorem foldersMade_makeFolder (disk : Entry) {place : Location}
    (named : ∀ name ∈ place, LeadsOn name) :
    FoldersMade place disk (makeFolder disk place (slot disk place)).1 := by
  cases found : slot disk place with
  | error cause =>
    rw [makeFolder]
    split
    · exact .refl place disk
    · exact .refl place disk
  | ok found' =>
    obtain ⟨front, name, above, entries, rfl, walked, folder, short, rfl, vacant⟩ :=
      slot_eq_ok found
    have room := Entry.hasRoom_of_vacant folder vacant
    have grows : Extends disk (disk.put (above ++ [name]) (.folder [])) :=
      extends_put room Entry.isLeaf_folder fun present h => by rw [vacant] at h; cases h
    have made := Entry.at?_put_of_room (.folder []) room
    refine ⟨grows, fun place differs => ?_⟩
    by_cases here : place = above ++ [name]
    · subst here
      refine ⟨vacant, by rw [makeFolder, Entry.node?, made]; rfl, front ++ [name],
        List.prefix_refl _, ?_⟩
      exact walk_concat (grows.walk walked) (named name (by simp)) short made (by simp)
    · exact absurd (Entry.node?_put_of_room room Entry.isLeaf_folder here) differs

/-- Making the folders of a way makes folders on the way, whether all of them can be made or not. -/
theorem foldersMade_makeFolders (disk : Entry) {names : List String}
    (named : ∀ name ∈ names, LeadsOn name) :
    FoldersMade names.reverse disk (makeFolders disk names).1 := by
  induction names with
  | nil => exact .refl [] disk
  | cons name above ih =>
    have made := ih fun other hother => named other (List.mem_cons_of_mem name hother)
    have placed (disk : Entry) : FoldersMade (name :: above).reverse disk
        (makeFolder disk (name :: above).reverse (slot disk (name :: above).reverse)).1 :=
      foldersMade_makeFolder disk fun other hother => named other (List.mem_reverse.mp hother)
    have onWay : FoldersMade (name :: above).reverse disk (makeFolders disk above).1 :=
      made.mono (by rw [List.reverse_cons]; exact List.prefix_append _ _)
    rw [makeFolders]
    split
    · split
      · rename_i mid hmid
        rw [hmid] at onWay
        exact onWay.trans (placed mid)
      · exact onWay
    · exact placed disk

end Disk

end Synopsis
