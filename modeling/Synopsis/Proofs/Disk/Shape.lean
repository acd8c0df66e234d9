import Synopsis.Disk.Change
import Synopsis.Proofs.Disk.Walk

/-!
# The shape of a disk

The shape of a disk is what is left of it when the bytes of its files are forgotten. Paths are found
and hindrances are met by the shape alone. Two disks of one shape therefore differ at most in what
is read from their files.
-/

namespace Synopsis

namespace Entry

mutual
/-- An entry without the bytes of its files. -/
def bare : Entry → Entry
  | .file _ => .file .empty
  | .folder entries => .folder (bareAll entries)
  | .link target => .link target

/-- Entries without the bytes of their files. -/
def bareAll : List (String × Entry) → List (String × Entry)
  | [] => []
  | (name, entry) :: rest => (name, bare entry) :: bareAll rest
end

@[simp]
theorem isFolder_bare (entry : Entry) : entry.bare.isFolder = entry.isFolder := by
  cases entry <;> rfl

theorem get?_bareAll (name : String) (entries : List (String × Entry)) :
    Table.get? name (bareAll entries) = (Table.get? name entries).map bare := by
  induction entries with
  | nil => rfl
  | cons first rest ih =>
    obtain ⟨key, entry⟩ := first
    by_cases same : key = name
    · simp [bareAll, Table.get?, same]
    · simpa [bareAll, Table.get?, same] using ih

theorem put_bareAll (name : String) (new : Entry) (entries : List (String × Entry)) :
    bareAll (Table.put name new entries) = Table.put name new.bare (bareAll entries) := by
  induction entries with
  | nil => rfl
  | cons first rest ih =>
    obtain ⟨key, entry⟩ := first
    by_cases same : key = name
    · simp [bareAll, Table.put, same]
    · simpa [bareAll, Table.put, same] using ih

@[simp]
theorem at?_bare (entry : Entry) (place : Location) :
    entry.bare.at? place = (entry.at? place).map bare := by
  induction place generalizing entry with
  | nil => rfl
  | cons name rest ih =>
    cases entry with
    | file bytes => rfl
    | link target => rfl
    | folder entries =>
      rw [bare, at?_cons, at?_cons, child?, child?, get?_bareAll]
      cases Table.get? name entries with
      | none => rfl
      | some inside => exact ih inside

theorem map_isFolder_bare (entry : Entry) (place : Location) :
    (entry.bare.at? place).map isFolder = (entry.at? place).map isFolder := by
  cases h : entry.at? place <;> simp [h]

/-- Putting an entry and forgetting bytes can be done in either order. -/
theorem bare_put (entry : Entry) (place : Location) (new : Entry) :
    (entry.put place new).bare = entry.bare.put place new.bare := by
  induction place generalizing entry with
  | nil => cases entry <;> rfl
  | cons name rest ih =>
    cases entry with
    | file bytes => rfl
    | link target => rfl
    | folder entries =>
      simp only [put, bare, put_bareAll, get?_bareAll, ih]
      cases Table.get? name entries <;> rfl

mutual
theorem linkCount_bare (entry : Entry) : entry.bare.linkCount = entry.linkCount := by
  cases entry with
  | file bytes => rfl
  | link target => rfl
  | folder entries =>
    rw [bare, linkCount, linkCount]
    exact linkCounts_bareAll entries

theorem linkCounts_bareAll (entries : List (String × Entry)) :
    linkCounts (bareAll entries) = linkCounts entries := by
  cases entries with
  | nil => rfl
  | cons first rest =>
    obtain ⟨name, entry⟩ := first
    rw [bareAll, linkCounts, linkCounts, linkCount_bare entry, linkCounts_bareAll rest]
end

theorem map_fst_bareAll (entries : List (String × Entry)) :
    (bareAll entries).map Prod.fst = entries.map Prod.fst := by
  induction entries with
  | nil => rfl
  | cons first rest ih => rw [bareAll, List.map_cons, List.map_cons, ih]

mutual
/-- Whether a disk is a tree is a matter of its shape. -/
theorem isTree_bare (entry : Entry) : entry.bare.IsTree ↔ entry.IsTree := by
  cases entry with
  | file bytes => rfl
  | link target => rfl
  | folder entries =>
    rw [bare, IsTree, IsTree, map_fst_bareAll, areTrees_bareAll entries]

theorem areTrees_bareAll (entries : List (String × Entry)) :
    AreTrees (bareAll entries) ↔ AreTrees entries := by
  cases entries with
  | nil => rfl
  | cons first rest =>
    obtain ⟨name, entry⟩ := first
    rw [bareAll, AreTrees, AreTrees, isTree_bare entry, areTrees_bareAll rest]
end

end Entry

namespace Disk

/-! ## Finding places -/

@[simp]
theorem step_bare (disk : Entry) (here : Location) (name : String) :
    step disk.bare here name = step disk here name := by
  rw [step, step, disk.map_isFolder_bare, Entry.at?_bare]
  rcases disk.at? (here ++ [name]) with _ | ⟨bytes | entries | target⟩ <;> rfl

@[simp]
theorem walk_bare (disk : Entry) (links : Nat) (here : Location) (names : List String) :
    walk disk.bare links here names = walk disk links here names := by
  induction links, here, names using walk_induction with
  | nil => rw [walk_nil, walk_nil]
  | cons links here name rest next onward =>
    rw [walk_cons, walk_cons, step_bare]
    cases step disk here name with
    | stop cause => rfl
    | on place => exact next place
    | link target =>
      cases links with
      | zero => rfl
      | succ links => simp only [onward links _ _ rfl]

@[simp]
theorem openPath_bare (disk : Entry) (working : Location) (path : String) :
    openPath disk.bare working path = openPath disk working path := by
  simp only [openPath, walk_bare]

theorem land_nil (disk : Entry) (links : Nat) (here : Location) :
    land disk links here [] = .ok here := by
  cases links <;> rfl

/-- A file is looked for step by step; a step onto a link uses one up. -/
theorem land_cons (disk : Entry) (links : Nat) (here : Location) (name : String)
    (rest : List String) :
    land disk links here (name :: rest) = match step disk here name with
      | .stop cause =>
        if cause == .missing && rest.isEmpty then .ok (here ++ [name])
        else if cause == .missing && rest.all (· == "") then .error .isFolder
        else .error cause
      | .on place => land disk links place rest
      | .link target =>
        match links with
        | 0 => .error .loop
        | links + 1 =>
          if target == "" then .error .missing
          else land disk links (startOf here target) (Path.segments target ++ rest) := by
  cases links <;> rfl

@[simp]
theorem land_bare (disk : Entry) (links : Nat) (here : Location) (names : List String) :
    land disk.bare links here names = land disk links here names := by
  induction links, here, names using walk_induction with
  | nil => rw [land_nil, land_nil]
  | cons links here name rest next onward =>
    rw [land_cons, land_cons, step_bare]
    cases step disk here name with
    | stop cause => rfl
    | on place => exact next place
    | link target =>
      cases links with
      | zero => rfl
      | succ links => simp only [onward links _ _ rfl]

/-- What a path opens has the shape of what it opened. -/
theorem entryOf_bare (disk : Entry) (working : Location) (path : String) :
    entryOf disk.bare working path = (entryOf disk working path).map Entry.bare := by
  rw [entryOf, entryOf, openPath_bare]
  cases openPath disk working path with
  | error fault => rfl
  | ok place =>
    simp only [Entry.at?_bare]
    cases disk.at? place <;> rfl

@[simp]
theorem settleStep_bare (disk : Entry) (here : Location) (name : String) :
    settleStep disk.bare here name = settleStep disk here name := by
  rw [settleStep, settleStep, Entry.at?_bare]
  rcases disk.at? (here ++ [name]) with _ | ⟨bytes | entries | target⟩ <;> rfl

theorem settleWith_bare (disk : Entry) (follow : Location → Location → List String → Settled)
    (active : List Location) (here : Location) (names : List String) :
    settleWith disk.bare follow active here names = settleWith disk follow active here names := by
  induction names generalizing here with
  | nil => rfl
  | cons name rest ih => simp only [settleWith, settleStep_bare, ih]

@[simp]
theorem settle_bare (disk : Entry) (fuel : Nat) (active : List Location) (here : Location)
    (names : List String) :
    settle disk.bare fuel active here names = settle disk fuel active here names := by
  induction fuel generalizing active here names with
  | zero => exact settleWith_bare disk _ active here names
  | succ fuel ih => simp only [settle, settleWith_bare, ih]

@[simp]
theorem resolve_bare (disk : Entry) (working : Location) (path : String) :
    resolve disk.bare working path = resolve disk working path := by
  simp only [resolve, settle_bare, walk_bare, Entry.linkCount_bare]

end Disk

end Synopsis
