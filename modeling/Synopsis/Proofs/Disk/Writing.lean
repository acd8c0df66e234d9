import Synopsis.Proofs.Disk.Growth

/-!
# Writing below folders

A file that is written at a settled place is where the place leads: its bytes are the ones that were
written, and everything else that changed is a folder that was missing on the way. If writing fails,
only such folders were made. That a settled place may still lead elsewhere, past a link that leads
back to itself, is allowed for.
-/

namespace Synopsis.Disk

variable {disk before after : Entry} {here place spot : Location}
  {names : List String} {links : Nat}

/-! ## Where a file lands -/

/-- A step goes on to an entry that is no link. -/
theorem exists_of_step_on {name : String} (h : step disk here name = .on place) :
    ∃ entry, disk.at? place = some entry ∧ ∀ target, entry ≠ .link target := by
  obtain ⟨⟨folder, hfolder, isFolder⟩, onward⟩ := step_on h
  obtain ⟨entries, rfl⟩ := Entry.isFolder_iff.mp isFolder
  rcases onward with ⟨-, rfl⟩ | ⟨-, rfl⟩ | ⟨entry, present, noLink, rfl⟩
  · exact ⟨_, hfolder, by simp⟩
  · rcases List.eq_nil_or_concat here with rfl | ⟨front, last, rfl⟩
    · exact ⟨_, hfolder, by simp⟩
    · rw [List.concat_eq_append] at *
      obtain ⟨above, habove, isFolder⟩ := Entry.at?_above (by simp) hfolder
      obtain ⟨entries, rfl⟩ := Entry.isFolder_iff.mp isFolder
      exact ⟨_, by rw [List.dropLast_concat]; exact habove, by simp⟩
  · exact ⟨entry, present, noLink⟩

/-- A walk from the root, or from another folder, ends at an entry that is no link. -/
theorem exists_of_walk (root : disk.isFolder = true)
    (start : ∃ entry, disk.at? here = some entry ∧ ∀ target, entry ≠ .link target)
    (h : walk disk links here names = .ok place) :
    ∃ entry, disk.at? place = some entry ∧ ∀ target, entry ≠ .link target := by
  induction links, here, names using walk_induction with
  | nil =>
    rw [walk_nil] at h
    cases h
    exact start
  | cons links here name rest next onward =>
    rw [walk_cons] at h
    cases hstep : step disk here name with
    | stop cause => rw [hstep] at h; cases h
    | on mid =>
      rw [hstep] at h
      exact next mid (exists_of_step_on hstep) h
    | link target =>
      rw [hstep] at h
      cases links with
      | zero => cases h
      | succ links =>
        simp only at h
        split at h
        · cases h
        · refine onward links _ _ rfl ?_ h
          rw [startOf]
          split
          · obtain ⟨entries, hentries⟩ := Entry.isFolder_iff.mp root
            exact ⟨disk, rfl, by simp [hentries]⟩
          · exact start

/-- Where a file lands, there is an entry to which the names lead, or there is nothing yet, in a
folder. Once something is there that is no link, the names lead to it. -/
theorem land_cases (h : land disk links here names = .ok spot) :
    walk disk links here names = .ok spot ∨
      (∃ above name entries, spot = above ++ [name] ∧ disk.at? above = some (.folder entries)) ∧
        disk.at? spot = none ∧
        ∀ after entry, Extends disk after → after.at? spot = some entry →
          (∀ target, entry ≠ .link target) → walk after links here names = .ok spot := by
  induction links, here, names using walk_induction with
  | nil =>
    rw [land_nil] at h
    exact Or.inl (by rw [walk_nil]; exact h)
  | cons links here name rest next onward =>
    rw [land_cons] at h
    cases hstep : step disk here name with
    | stop cause =>
      simp only [hstep] at h
      split at h
      · rename_i last
        obtain ⟨rfl, rfl⟩ : cause = .missing ∧ rest = [] := by simpa using last
        obtain ⟨entries, folder, named, short, vacant⟩ := step_missing hstep
        cases h
        refine Or.inr ⟨⟨here, name, entries, rfl, folder⟩, vacant, ?_⟩
        intro after entry _ present noLink
        rw [walk_cons, step_to named short present noLink]
        exact walk_nil after links _
      · split at h
        · cases h
        · cases h
    | on mid =>
      simp only [hstep] at h
      rcases next mid h with walked | ⟨above, vacant, leads⟩
      · exact Or.inl (by rw [walk_cons, hstep]; exact walked)
      · refine Or.inr ⟨above, vacant, fun after entry grows present noLink => ?_⟩
        rw [walk_cons, grows.step (by simp [hstep]), hstep]
        exact leads after entry grows present noLink
    | link target =>
      simp only [hstep] at h
      cases links with
      | zero => cases h
      | succ links =>
        simp only at h
        split at h
        · cases h
        rename_i named
        rcases onward links _ _ rfl h with walked | ⟨above, vacant, leads⟩
        · exact Or.inl (by rw [walk_cons, hstep]; simp only [if_neg named]; exact walked)
        · refine Or.inr ⟨above, vacant, fun after entry grows present noLink => ?_⟩
          rw [walk_cons, grows.step (by simp [hstep]), hstep]
          simp only [if_neg named]
          exact leads after entry grows present noLink

/-! ## Writing -/

/-- The second disk came of the first one by putting a file at a spot to which the target leads. -/
structure FilePut (target spot : Location) (bytes : ByteArray) (before after : Entry) : Prop where
  grows : Extends before after
  leads : Leads after target spot
  written : after.at? spot = some (.file bytes)
  kept : ∀ place, place ≠ spot → after.node? place = before.node? place

theorem filePut_of_room {target : Location} (bytes : ByteArray) (room : disk.HasRoom spot)
    (file : ∀ present, disk.at? spot = some present → ∃ old, present = .file old)
    (leads : ∀ after, Extends disk after → after.at? spot = some (.file bytes) →
      Leads after target spot) :
    FilePut target spot bytes disk (disk.put spot (.file bytes)) := by
  have written := Entry.at?_put_of_room (.file bytes) room
  have grows : Extends disk (disk.put spot (.file bytes)) := by
    refine extends_put room (Entry.isLeaf_file bytes) fun present h => ?_
    obtain ⟨old, rfl⟩ := file present h
    rfl
  exact ⟨grows, leads _ grows written, written,
    fun place other => Entry.node?_put_of_room room (Entry.isLeaf_file bytes) other⟩

/-- A file in its slot is where its place leads. -/
theorem filePut_of_slot (root : disk.isFolder = true)
    (direct : ∀ old, disk.at? place = some (.file old) → Leads disk place place)
    (h : fileSlot disk place = .ok spot) (bytes : ByteArray) :
    FilePut place spot bytes disk (disk.put spot (.file bytes)) := by
  rw [fileSlot] at h
  split at h
  · rename_i old present
    cases h
    refine filePut_of_room bytes (Entry.hasRoom_of_present present rfl) ?_ ?_
    · exact fun other hother => ⟨old, Option.some.inj (hother.symm.trans present)⟩
    · exact fun after grows _ => grows.walk (direct old present)
  · split at h
    · cases h
    rename_i landed
    split at h
    · cases h
    rename_i noFolder
    cases h
    rcases land_cases landed with walked | ⟨⟨above, name, entries, rfl, folder⟩, vacant, leads⟩
    · obtain ⟨entries, hentries⟩ := Entry.isFolder_iff.mp root
      obtain ⟨entry, present, noLink⟩ := exists_of_walk root ⟨disk, rfl, by simp [hentries]⟩ walked
      rw [present] at noFolder
      have file : ∃ old, entry = .file old := by
        cases entry with
        | file old => exact ⟨old, rfl⟩
        | folder entries => exact absurd rfl noFolder
        | link target => exact absurd rfl (noLink target)
      obtain ⟨old, rfl⟩ := file
      refine filePut_of_room bytes (Entry.hasRoom_of_present present rfl) ?_ ?_
      · exact fun other hother => ⟨old, Option.some.inj (hother.symm.trans present)⟩
      · exact fun after grows _ => grows.walk walked
    · refine filePut_of_room bytes (Entry.hasRoom_of_vacant folder vacant) ?_ ?_
      · exact fun other hother => by rw [vacant] at hother; cases hother
      · exact fun after grows present => leads after _ grows present (by simp)

/-- The second disk came of the first one by writing a file below folders: it is where the target
leads, and everything else that changed is a new folder on the way. -/
structure FileWritten (target : Location) (bytes : ByteArray) (before after : Entry) : Prop where
  grows : Extends before after
  written : ∃ spot, Leads after target spot ∧ after.at? spot = some (.file bytes) ∧
    ∀ place, place ≠ spot → after.node? place ≠ before.node? place →
      NewFolder target.dropLast before after place

theorem FilePut.fileWritten {mid : Entry} {target : Location} {bytes : ByteArray}
    (h : FilePut target spot bytes mid after) (made : FoldersMade target.dropLast before mid) :
    FileWritten target bytes before after := by
  refine ⟨made.grows.trans h.grows, spot, h.leads, h.written, fun place other differs => ?_⟩
  rw [h.kept place other] at differs
  exact (made.changed place differs).later (List.prefix_refl _) h.grows (h.kept place other)

/-- A file is written below folders, or else nothing but folders is made. -/
theorem writeBelowFolders_cases (tree : disk.IsTree) (root : disk.isFolder = true)
    (named : ∀ name ∈ place, LeadsOn name) (bytes : ByteArray) :
    (∃ fault, (writeBelowFolders disk place bytes).2 = some fault ∧
      FoldersMade place.dropLast disk (writeBelowFolders disk place bytes).1) ∨
    (writeBelowFolders disk place bytes).2 = none ∧
      FileWritten place bytes disk (writeBelowFolders disk place bytes).1 := by
  have above : ∀ name ∈ place.dropLast.reverse, LeadsOn name := fun name hname =>
    named name ((List.dropLast_sublist place).subset (List.mem_reverse.mp hname))
  have made := foldersMade_makeFolders disk above
  rw [List.reverse_reverse] at made
  unfold writeBelowFolders
  rcases hmade : makeFolders disk place.dropLast.reverse with ⟨mid, _ | fault⟩
  · rw [hmade] at made
    simp only [placeFile]
    cases found : fileSlot mid place with
    | error cause =>
      rw [changeFile_of_error found]
      exact Or.inl ⟨_, rfl, made⟩
    | ok spot =>
      rw [changeFile_of_slot found]
      have root' : mid.isFolder = true := by
        obtain ⟨later, hlater, kind⟩ := made.grows [] disk rfl
        cases hlater
        exact (Entry.isFolder_of_kind kind).trans root
      refine Or.inr
        ⟨rfl, (filePut_of_slot root' (fun old present => ?_) found bytes).fileWritten made⟩
      exact made.grows.walk (walk_to_entry tree mostLinks (made.file present) (by simp))
  · rw [hmade] at made
    exact Or.inl ⟨fault, rfl, made⟩

end Synopsis.Disk
