import Synopsis.Proofs.Disk.Settling
import Synopsis.Proofs.Disk.Spelling
import Synopsis.Workspace

/-!
# Opening the text of a place

The text of a place is read from the root, wherever one is working. It opens what a walk along the
names of the place leads to, and it is settled at the place itself if no link is met. Paths with
tildes, and paths that are written in any other way, are not looked at here.
-/

namespace Synopsis

/-- Only a folder has something at a place below it. -/
theorem Entry.isFolder_of_at? {entry inside : Entry} {place : Location}
    (h : entry.at? place = some inside) (folder : inside.isFolder = true) :
    entry.isFolder = true := by
  cases place with
  | nil =>
    cases h
    exact folder
  | cons name rest =>
    obtain ⟨below, hbelow, -⟩ := Option.bind_eq_some_iff.mp h
    exact Entry.isFolder_of_child? hbelow

namespace Disk

variable {disk : Entry} {place : Location}

/-- The text of a place opens what its names lead to. -/
theorem openPath_text (root : disk.isFolder = true) (working : Location)
    (plain : ∀ name ∈ place, '/' ∉ name.toList ∧ '\x00' ∉ name.toList) :
    openPath disk working (Location.text place) =
      (walk disk mostLinks [] place).mapError fun cause => .system cause (Location.text place) := by
  have walked : walk disk mostLinks [] (Path.segments (Location.text place)) =
      walk disk mostLinks [] place := by
    have stays : step disk [] "" = .on [] := step_empty (Entry.at?_nil disk) root
    by_cases nowhere : place = []
    · rw [nowhere, Location.segments_root]
      simp only [walk_cons, stays, walk_nil]
    · rw [Location.segments_text nowhere fun name h => (plain name h).1, walk_cons, stays]
  rw [openPath, if_neg (Location.null_notMem_text fun name h => (plain name h).2),
    if_neg (by simpa using Location.text_ne_empty place), startOf, Location.isAbsolute_text,
    if_pos rfl, walked]
  cases walk disk mostLinks [] place <;> rfl

/-- A walk to a name that a folder does not hold ends there. -/
theorem walk_missing (tree : disk.IsTree) (links : Nat) {above : Location} {name : String}
    {entries : List (String × Entry)} (folder : disk.at? above = some (.folder entries))
    (isName : IsName name) (vacant : disk.at? (above ++ [name]) = none) :
    walk disk links [] (above ++ [name]) = .error .missing := by
  obtain ⟨left, onward⟩ := walk_append disk links [] above
  have reached : walk disk links [] above = .ok above := walk_to_entry tree links folder nofun
  have misses : step disk above name = .stop .missing := by
    simp [step, folder, Entry.isFolder, isName.ne_empty, isName.ne_here, isName.ne_above,
      Nat.not_lt.mpr isName.short, vacant]
  rw [onward, reached]
  change walk disk left above [name] = _
  rw [walk_cons, misses]

/-! ## Settling -/

/-- Names that lead on past no link are settled one after the other. -/
theorem settleWith_direct {follow : Location → Location → List String → Settled}
    {active : List Location} {here names : Location} (direct : Direct disk (here ++ names)) :
    settleWith disk follow active here names = .place (here ++ names) := by
  induction names generalizing here with
  | nil => rw [settleWith, List.append_nil]
  | cons name rest ih =>
    obtain ⟨empty, dot, up⟩ := direct.named name (by simp)
    have stays : settleStep disk here name = (here ++ [name], none) := by
      have noLink (target : String) := direct.straight (here ++ [name]) target (by simp)
      rw [settleStep, if_neg (by simp [empty, dot]), if_neg (by simpa using up)]
      split
      · rename_i target link
        exact absurd link (noLink target)
      · rfl
    rw [settleWith, stays]
    have onward : Direct disk ((here ++ [name]) ++ rest) := by simpa using direct
    simpa using ih onward

/-- The text of a place that leads to itself names that place. -/
theorem resolve_text (direct : Direct disk place) (working : Location)
    (plain : ∀ name ∈ place, '/' ∉ name.toList ∧ '\x00' ∉ name.toList) :
    resolve disk working (Location.text place) = .ok place := by
  have settled : settle disk (disk.linkCount + 1) [] [] (Path.segments (Location.text place)) =
      .place place := by
    by_cases nowhere : place = []
    · rw [nowhere, Location.segments_root]
      rfl
    · rw [Location.segments_text nowhere fun name h => (plain name h).1]
      have onward : Direct disk ([] ++ place) := direct
      exact settleWith_direct onward
  rw [resolve, if_neg (Location.null_notMem_text fun name h => (plain name h).2), startOf,
    Location.isAbsolute_text, if_pos rfl, settled]

/-- A path without a place has a null character, or its links lead back to themselves. -/
theorem resolve_eq_error {working : Location} {path : String} {fault : Fault}
    (h : resolve disk working path = .error fault) :
    fault = .nullCharacter ∨ ∃ place, fault = .endless place := by
  unfold resolve at h
  split at h
  · cases h
    exact Or.inl rfl
  · split at h
    · cases h
    · dsimp only at h
      split at h
      · cases h
        exact Or.inr ⟨_, rfl⟩
      · cases h

/-- The empty path stands for the place where one is working. -/
theorem resolve_here (disk : Entry) (working : Location) :
    resolve disk working (Path.pure "") = .ok working := by
  have here : Path.pure "" = "." := by decide
  have names : Path.segments "." = ["."] := by decide
  have start : startOf working "." = working := by
    rw [startOf, if_neg (by decide)]
  rw [here, resolve, if_neg (by decide), names, start]
  rfl

end Disk

namespace Workspace

variable {w : Workspace} {place : Location}

/-- The text of a place opens the entry that is there, if that is no link. -/
theorem entryOf_text {entry : Entry} (tree : w.disk.IsTree) (root : w.disk.isFolder = true)
    (present : w.disk.at? place = some entry) (noLink : ∀ target, entry ≠ .link target) :
    w.entryOf (Location.text place) = .ok entry := by
  have names := (tree.at? present).1
  have walked : Disk.walk w.disk Disk.mostLinks [] place = .ok place :=
    Disk.walk_to_entry tree _ present noLink
  have opened : Disk.openPath w.disk w.working (Location.text place) = .ok place := by
    rw [Disk.openPath_text root w.working fun name h =>
      ⟨(names name h).no_slash, (names name h).no_null⟩, walked]
    rfl
  rw [entryOf, Disk.entryOf, opened]
  dsimp only
  rw [present]

/-- Where nothing is in a folder, there is nothing to open. -/
theorem entryOf_text_missing {above : Location} {name : String} {entries : List (String × Entry)}
    (tree : w.disk.IsTree) (folder : w.disk.at? above = some (.folder entries))
    (isName : IsName name) (vacant : w.disk.at? (above ++ [name]) = none) :
    w.entryOf (Location.text (above ++ [name])) =
      .error (.system .missing (Location.text (above ++ [name]))) := by
  have root : w.disk.isFolder = true := Entry.isFolder_of_at? folder rfl
  have plain : ∀ other ∈ above ++ [name], '/' ∉ other.toList ∧ '\x00' ∉ other.toList := by
    intro other hother
    have named : IsName other := by
      rcases List.mem_append.mp hother with hother | hother
      · exact (tree.at? folder).1 other hother
      · exact List.mem_singleton.mp hother ▸ isName
    exact ⟨named.no_slash, named.no_null⟩
  rw [entryOf, Disk.entryOf, Disk.openPath_text root w.working plain,
    Disk.walk_missing tree _ folder isName vacant]
  rfl

/-- What is read under a name of a folder, links left out, are the bytes of the file there. -/
theorem contentOf_text {above : Location} {name : String} {entries : List (String × Entry)}
    (tree : w.disk.IsTree) (folder : w.disk.at? above = some (.folder entries))
    (isName : IsName name)
    (noLink : ∀ target, w.disk.at? (above ++ [name]) ≠ some (.link target)) :
    (w.contentOf (Location.text (above ++ [name]))).toOption =
      w.disk.fileAt? (above ++ [name]) := by
  have root : w.disk.isFolder = true := Entry.isFolder_of_at? folder rfl
  unfold contentOf Entry.fileAt?
  cases present : w.disk.at? (above ++ [name]) with
  | none =>
    rw [entryOf_text_missing tree folder isName present]
    rfl
  | some entry =>
    have opened := entryOf_text tree root present fun target link => noLink target (link ▸ present)
    rw [opened]
    cases entry <;> rfl

theorem entryOf_eq_nullCharacter_iff {path : String} :
    w.entryOf path = .error .nullCharacter ↔ '\x00' ∈ path.toList := by
  by_cases null : '\x00' ∈ path.toList
  · rw [Workspace.entryOf, Disk.entryOf, Disk.openPath, if_pos null]
    exact iff_of_true rfl null
  · refine iff_of_false ?_ null
    rw [Workspace.entryOf, Disk.entryOf, Disk.openPath, if_neg null]
    by_cases empty : path = ""
    · simp [empty]
    · rw [if_neg (by simpa using empty)]
      cases Disk.walk w.disk Disk.mostLinks (Disk.startOf w.working path) (Path.segments path) with
      | error cause => rintro ⟨⟩
      | ok place =>
        dsimp only
        cases w.disk.at? place <;> rintro ⟨⟩

end Workspace

end Synopsis
