import Synopsis.Proofs.Disk.Put

/-!
# Disks that agree

Two disks agree on some places if they have one shape and the files at these places hold the same
bytes. A change that is made on both of them meets the same hindrances, leaves them in agreement,
and makes them agree on the place where it wrote. Nothing is claimed about files at other places.
-/

namespace Synopsis

namespace Disk

/-- The disks have one shape, and their files at the places that are `known` hold the same. -/
structure Agree (known : Location → Prop) (disk other : Entry) : Prop where
  shape : disk.bare = other.bare
  files : ∀ place, known place → disk.fileAt? place = other.fileAt? place

namespace Agree

variable {known : Location → Prop} {disk other third : Entry}

theorem refl (disk : Entry) : Agree known disk disk := ⟨rfl, fun _ _ => rfl⟩

theorem trans (h : Agree known disk other) (h' : Agree known other third) :
    Agree known disk third :=
  ⟨h.shape.trans h'.shape, fun place hplace => (h.files place hplace).trans (h'.files place hplace)⟩

theorem mono {fewer : Location → Prop} (h : Agree known disk other)
    (sub : ∀ place, fewer place → known place) : Agree fewer disk other :=
  ⟨h.shape, fun place hplace => h.files place (sub place hplace)⟩

end Agree

/-! ## Slots -/

@[simp]
theorem slot_bare (disk : Entry) (place : Location) : slot disk.bare place = slot disk place := by
  rw [slot, slot, walk_bare]
  cases walk disk mostLinks [] place.dropLast with
  | error cause => rfl
  | ok above =>
    simp only [disk.map_isFolder_bare]
    rw [Entry.at?_bare, Option.isSome_map]

@[simp]
theorem isFolderAt_bare (disk : Entry) (place : Location) :
    isFolderAt disk.bare place = isFolderAt disk place := by
  rw [isFolderAt, isFolderAt, entryOf_bare]
  cases entryOf disk [] (Location.text place) with
  | error fault => rfl
  | ok entry => exact Entry.isFolder_bare entry

@[simp]
theorem fileSlot_bare (disk : Entry) (place : Location) :
    fileSlot disk.bare place = fileSlot disk place := by
  rw [fileSlot, fileSlot, Entry.at?_bare, land_bare]
  simp only [disk.map_isFolder_bare]
  rcases disk.at? place with _ | ⟨bytes | entries | target⟩ <;> rfl

/-- The file for a place is there itself, unless there is no file at the place. -/
theorem fileSlot_cases {disk : Entry} {place slot : Location} (h : fileSlot disk place = .ok slot) :
    slot = place ∨ disk.fileAt? place = none := by
  rw [fileSlot] at h
  rw [Entry.fileAt?]
  split at h
  · cases h
    exact Or.inl rfl
  · rename_i noFile
    rcases hentry : disk.at? place with _ | ⟨bytes | entries | target⟩
    · exact Or.inr rfl
    · exact absurd hentry (noFile bytes)
    · exact Or.inr rfl
    · exact Or.inr rfl

theorem fileSlot_of_file {disk : Entry} {place : Location} {present : ByteArray}
    (h : disk.at? place = some (.file present)) : fileSlot disk place = .ok place := by
  rw [fileSlot, h]

theorem changeFile_of_slot {disk : Entry} {place slot : Location}
    (h : fileSlot disk place = .ok slot)
    (change : ByteArray → ByteArray) : changeFile disk place change =
      (disk.put slot (.file (change ((disk.fileAt? slot).getD .empty))), none) := by
  simp only [changeFile, h, Entry.fileAt?]
  rcases disk.at? slot with _ | ⟨bytes | entries | target⟩ <;> rfl

theorem changeFile_of_error {disk : Entry} {place : Location} {cause : Cause}
    (h : fileSlot disk place = .error cause) (change : ByteArray → ByteArray) :
    changeFile disk place change = (disk, some (.system cause (Location.text place))) := by
  rw [changeFile, h]

namespace Agree

variable {known : Location → Prop} {disk other : Entry}

theorem slot (h : Agree known disk other) (place : Location) :
    Disk.slot disk place = Disk.slot other place := by
  rw [← slot_bare disk, h.shape, slot_bare]

theorem isFolderAt (h : Agree known disk other) (place : Location) :
    Disk.isFolderAt disk place = Disk.isFolderAt other place := by
  rw [← isFolderAt_bare disk, h.shape, isFolderAt_bare]

theorem fileSlot (h : Agree known disk other) (place : Location) :
    Disk.fileSlot disk place = Disk.fileSlot other place := by
  rw [← fileSlot_bare disk, h.shape, fileSlot_bare]

/-- The disks agree on a place where neither of them has a file. -/
theorem of_noFile (h : Agree known disk other) {place : Location}
    (noFile : disk.fileAt? place = none) :
    Agree (fun file => file = place ∨ known file) disk other where
  shape := h.shape
  files file hfile := by
    rcases hfile with rfl | hfile
    · rw [noFile, eq_comm, ← Option.isNone_iff_eq_none, ← Entry.isNone_fileAt?_bare, ← h.shape,
        Entry.isNone_fileAt?_bare, noFile]
      rfl
    · exact h.files file hfile

theorem resolve (h : Agree known disk other) (working : Location) (path : String) :
    Disk.resolve disk working path = Disk.resolve other working path := by
  rw [← resolve_bare disk, h.shape, resolve_bare]

theorem openPath (h : Agree known disk other) (working : Location) (path : String) :
    Disk.openPath disk working path = Disk.openPath other working path := by
  rw [← openPath_bare disk, h.shape, openPath_bare]

/-! ## Changes -/

/-- The same is put on both disks. -/
theorem put (h : Agree known disk other) (place : Location) (new : Entry) :
    Agree (fun file => file = place ∨ known file) (disk.put place new) (other.put place new) where
  shape := by rw [Entry.bare_put, Entry.bare_put, h.shape]
  files file hfile := by
    refine Entry.fileAt?_put_congr h.shape (fun outside => ?_) fun _ _ => rfl
    rcases hfile with rfl | hfile
    · exact absurd (List.prefix_refl file) outside
    · exact h.files file hfile

/-- Files are put on both disks at a place, with the same bytes if the place is a known one. -/
theorem putFile (h : Agree known disk other) {place : Location} {bytes bytes' : ByteArray}
    (same : known place → bytes = bytes') :
    Agree known (disk.put place (.file bytes)) (other.put place (.file bytes')) where
  shape := by rw [Entry.bare_put, Entry.bare_put, h.shape]; rfl
  files file hfile := by
    refine Entry.fileAt?_put_congr h.shape (fun _ => h.files file hfile) fun rest hrest => ?_
    cases rest with
    | nil =>
      rw [List.append_nil] at hrest
      rw [same (hrest ▸ hfile)]
    | cons name rest => rfl

/-- Making a folder fails on both disks or on none. -/
theorem makeFolder (h : Agree known disk other) (place : Location)
    (found : Except Cause Location) :
    (Disk.makeFolder disk place found).2 = (Disk.makeFolder other place found).2 ∧
      Agree known (Disk.makeFolder disk place found).1 (Disk.makeFolder other place found).1 := by
  cases found with
  | ok slot => exact ⟨rfl, (h.put slot _).mono fun _ => Or.inr⟩
  | error cause =>
    rw [Disk.makeFolder, Disk.makeFolder, ← h.isFolderAt place]
    split
    · exact ⟨rfl, h⟩
    · exact ⟨rfl, h⟩

/-- Making folders fails on both disks or on none. -/
theorem makeFolders (h : Agree known disk other) (names : List String) :
    (Disk.makeFolders disk names).2 = (Disk.makeFolders other names).2 ∧
      Agree known (Disk.makeFolders disk names).1 (Disk.makeFolders other names).1 := by
  induction names with
  | nil => exact ⟨rfl, h⟩
  | cons name above ih =>
    obtain ⟨faults, made⟩ := ih
    rw [Disk.makeFolders, Disk.makeFolders, ← h.slot (name :: above).reverse]
    split
    · generalize Disk.makeFolders disk above = left at faults made
      generalize Disk.makeFolders other above = right at faults made
      obtain ⟨left, fault⟩ := left
      obtain ⟨right, fault'⟩ := right
      cases faults
      cases fault with
      | some fault => exact ⟨rfl, made⟩
      | none =>
        simp only [← Agree.slot made (name :: above).reverse]
        exact made.makeFolder _ _
    · exact h.makeFolder _ _

/-- A file is written on both disks or on none. -/
theorem placeFile (h : Agree known disk other) (place : Location) (bytes : ByteArray) :
    (Disk.placeFile disk place bytes).2 = (Disk.placeFile other place bytes).2 ∧
      Agree known (Disk.placeFile disk place bytes).1 (Disk.placeFile other place bytes).1 ∧
      ((Disk.placeFile disk place bytes).2 = none →
        Agree (fun file => file = place ∨ known file) (Disk.placeFile disk place bytes).1
          (Disk.placeFile other place bytes).1) := by
  unfold Disk.placeFile
  cases found : Disk.fileSlot disk place with
  | error cause =>
    rw [changeFile_of_error found, changeFile_of_error ((h.fileSlot place).symm.trans found)]
    exact ⟨rfl, h, fun written => by cases written⟩
  | ok slot =>
    rw [changeFile_of_slot found, changeFile_of_slot ((h.fileSlot place).symm.trans found)]
    have written := h.put slot (.file bytes)
    refine ⟨rfl, written.mono fun _ => Or.inr, fun _ => ?_⟩
    rcases fileSlot_cases found with rfl | noFile
    · exact written
    · exact ((h.of_noFile noFile).put slot (.file bytes)).mono fun _ => Or.inr

/-- A file below folders that may be missing is written on both disks or on none. -/
theorem writeBelowFolders (h : Agree known disk other) (place : Location) (bytes : ByteArray) :
    (Disk.writeBelowFolders disk place bytes).2 = (Disk.writeBelowFolders other place bytes).2 ∧
      Agree known (Disk.writeBelowFolders disk place bytes).1
        (Disk.writeBelowFolders other place bytes).1 ∧
      ((Disk.writeBelowFolders disk place bytes).2 = none →
        Agree (fun file => file = place ∨ known file) (Disk.writeBelowFolders disk place bytes).1
          (Disk.writeBelowFolders other place bytes).1) := by
  obtain ⟨faults, made⟩ := h.makeFolders place.dropLast.reverse
  unfold Disk.writeBelowFolders
  generalize Disk.makeFolders disk place.dropLast.reverse = left at faults made
  generalize Disk.makeFolders other place.dropLast.reverse = right at faults made
  obtain ⟨left, fault⟩ := left
  obtain ⟨right, fault'⟩ := right
  cases faults
  cases fault with
  | some fault => exact ⟨rfl, made, fun written => by cases written⟩
  | none => exact made.placeFile place bytes

/-- A file is extended on both disks or on none. -/
theorem extendFile (h : Agree known disk other) (place : Location) (bytes : ByteArray) :
    (Disk.extendFile disk place bytes).2 = (Disk.extendFile other place bytes).2 ∧
      Agree known (Disk.extendFile disk place bytes).1 (Disk.extendFile other place bytes).1 := by
  unfold Disk.extendFile
  cases found : Disk.fileSlot disk place with
  | error cause =>
    rw [changeFile_of_error found, changeFile_of_error ((h.fileSlot place).symm.trans found)]
    exact ⟨rfl, h⟩
  | ok slot =>
    rw [changeFile_of_slot found, changeFile_of_slot ((h.fileSlot place).symm.trans found)]
    exact ⟨rfl, h.putFile fun hslot => by rw [h.files slot hslot]⟩

end Agree

/-! ## Files that are extended -/

/-- Other bytes in a file leave the shape and all other files. -/
theorem agree_put_file {disk : Entry} {place : Location} {present : ByteArray}
    (h : disk.at? place = some (.file present)) (bytes : ByteArray) :
    Agree (· ≠ place) disk (disk.put place (.file bytes)) where
  shape := by
    rw [Entry.bare_put, Entry.put_at?]
    rw [Entry.at?_bare, h]
    rfl
  files _ other := (Entry.fileAt?_put_file h bytes other).symm

/-- Extending a file that is there leaves it a file, and leaves all others. -/
theorem extendFile_of_present {disk : Entry} {place : Location} {present : ByteArray}
    (h : disk.at? place = some (.file present)) (bytes : ByteArray) :
    Agree (· ≠ place) disk (extendFile disk place bytes).1 ∧
      ∃ extended, (extendFile disk place bytes).1.at? place = some (.file extended) := by
  rw [extendFile, changeFile_of_slot (fileSlot_of_file h)]
  exact ⟨agree_put_file h _, _, Entry.at?_put_of_present _ (by rw [h]; rfl)⟩

end Disk

end Synopsis
