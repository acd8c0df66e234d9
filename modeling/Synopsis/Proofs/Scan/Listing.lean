import Synopsis.Proofs.Disk.Spelling
import Synopsis.Proofs.Disk.Walk
import Synopsis.Scan

/-!
# What a scan lists

The paths that a scan of a tree lists are described one by one, by what stands at a path and at the
places above it, without the recursion that finds them. A path is looked up as the system does it:
links on the way are followed, and whether a link above the end leads to a folder is part of the
description.
-/

namespace Synopsis.Scan

/-- What stands at a place itself: links on the way are followed, a link at the end is not. -/
def standing? (disk : Entry) (place : Location) : Option Entry :=
  match Disk.walk disk Disk.mostLinks [] place.dropLast with
  | .ok above => place.getLast?.bind fun name => disk.at? (above ++ [name])
  | .error _ => none

/-- A link stands at the place, and it leads to a folder. -/
def IsFolderLink (disk : Entry) (place : Location) : Prop :=
  (∃ target, standing? disk place = some (.link target)) ∧ leadsToFolder disk place = true

/-- A path below the root at which a scan finds a file. -/
structure Listed (disk : Entry) (root : Location) (rules : List IgnoreRule) (depth : Int)
    (path : Location) : Prop where
  /-- Something stands at the path. -/
  stands : (standing? disk (root ++ path)).isSome = true
  /-- It is no folder, and no link to one. -/
  noFolder : leadsToFolder disk (root ++ path) = false
  nonempty : path ≠ []
  named : ∀ name ∈ path, name ≠ ""
  within : (path.length : Int) ≤ max depth 1
  visible : ∀ name ∈ path, isHidden name = false
  /-- No place above the end is a link to a folder. -/
  direct : ∀ front, front <+: path → front ≠ [] → front ≠ path →
    ¬ IsFolderLink disk (root ++ front)
  /-- No place above the end is excluded as a folder. -/
  entered : ∀ front, front <+: path → front ≠ [] → front ≠ path →
    excluded rules front true = false
  /-- The path is not excluded as a file. -/
  kept : excluded rules path false = false

/-! ## The recursion -/

section Recursion

variable (disk : Entry) (root : Location) (rules : List IgnoreRule)

theorem mem_filesOf {depth : Nat} {path found : Location} {entries : List (String × Entry)} :
    found ∈ filesOf disk root rules depth path entries ↔
      ∃ name entry, (name, entry) ∈ entries ∧ isHidden name = false ∧ depth ≠ 0 ∧
        found ∈ filesIn disk root rules (depth - 1) (path ++ [name]) entry := by
  induction entries with
  | nil => simp [filesOf]
  | cons first rest ih =>
    obtain ⟨name, entry⟩ := first
    rw [filesOf, List.mem_append, ih]
    constructor
    · rintro (h | ⟨other, inside, hmem, h⟩)
      · split at h
        · cases h
        · rename_i hopen
          simp only [Bool.or_eq_true, beq_iff_eq, not_or, Bool.not_eq_true] at hopen
          exact ⟨name, entry, List.mem_cons_self, hopen.1, hopen.2, h⟩
      · exact ⟨other, inside, List.mem_cons_of_mem _ hmem, h⟩
    · rintro ⟨other, inside, hmem, hvisible, hdepth, h⟩
      rcases List.mem_cons.mp hmem with heq | hmem
      · cases heq
        left
        simpa [hvisible, hdepth] using h
      · exact Or.inr ⟨other, inside, hmem, hvisible, hdepth, h⟩

/-- What the recursion asks of the entry at which it stops. -/
structure Stops (path : Location) (leaf : Entry) : Prop where
  noFolder : leaf.isFolder = false
  noFolderLink : (∃ target, leaf = .link target) → leadsToFolder disk (root ++ path) = false
  kept : excluded rules path false = false

/-- What the recursion asks of the way from a path down to its end. -/
structure Passes (depth : Nat) (path way : Location) : Prop where
  within : way.length ≤ depth
  visible : ∀ name ∈ way, isHidden name = false
  entered : ∀ front, front <+: way → front ≠ way → excluded rules (path ++ front) true = false

theorem passes_nil {depth : Nat} {path : Location} : Passes rules depth path [] where
  within := Nat.zero_le _
  visible := by simp
  entered := by
    intro front hfront hne
    exact absurd (List.prefix_nil.mp hfront) hne

theorem passes_cons {depth : Nat} {path way : Location} {name : String} :
    Passes rules depth path (name :: way) ↔
      depth ≠ 0 ∧ excluded rules path true = false ∧ isHidden name = false ∧
        Passes rules (depth - 1) (path ++ [name]) way := by
  constructor
  · rintro ⟨within, visible, entered⟩
    rw [List.length_cons] at within
    refine ⟨by omega, ?_, visible name List.mem_cons_self, by omega,
      fun other hother => visible other (List.mem_cons_of_mem _ hother), ?_⟩
    · simpa using entered [] (List.nil_prefix) (by simp)
    · intro front hfront hne
      have hpassed : name :: front <+: name :: way := List.cons_prefix_cons.mpr ⟨rfl, hfront⟩
      simpa using entered (name :: front) hpassed (by simpa using hne)
  · rintro ⟨hdepth, hpath, hname, within, visible, entered⟩
    refine ⟨by rw [List.length_cons]; omega, List.forall_mem_cons.mpr ⟨hname, visible⟩, ?_⟩
    intro front hfront hne
    cases front with
    | nil => simpa using hpath
    | cons other front =>
      obtain ⟨rfl, hrest⟩ := List.cons_prefix_cons.mp hfront
      simpa using entered front hrest (by simpa using hne)

theorem mem_filesIn_end {depth : Nat} {path found : Location} {entry : Entry}
    (noFolder : entry.isFolder = false) :
    found ∈ filesIn disk root rules depth path entry ↔
      found = path ∧ Stops disk root rules found entry := by
  cases entry with
  | folder entries => cases noFolder
  | file bytes =>
    rw [filesIn]
    constructor
    · intro h
      split at h
      · cases h
      · rename_i kept
        obtain rfl := List.mem_singleton.mp h
        exact ⟨rfl, noFolder, by rintro ⟨target, ⟨⟩⟩, by simpa using kept⟩
    · rintro ⟨rfl, stops⟩
      simp [stops.kept]
  | link target =>
    rw [filesIn]
    constructor
    · intro h
      split at h
      · cases h
      · rename_i kept
        obtain rfl := List.mem_singleton.mp h
        rw [Bool.not_eq_true, Bool.or_eq_false_iff] at kept
        exact ⟨rfl, noFolder, fun _ => kept.1, kept.2⟩
    · rintro ⟨rfl, stops⟩
      simp [stops.kept, stops.noFolderLink ⟨target, rfl⟩]

theorem mem_filesIn_folder {depth : Nat} {path found : Location}
    {entries : List (String × Entry)} :
    found ∈ filesIn disk root rules depth path (.folder entries) ↔
      depth ≠ 0 ∧ excluded rules path true = false ∧
        ∃ name entry, (name, entry) ∈ entries ∧ isHidden name = false ∧
          found ∈ filesIn disk root rules (depth - 1) (path ++ [name]) entry := by
  rw [filesIn]
  constructor
  · intro h
    split at h
    · cases h
    · rename_i entered
      rw [Bool.not_eq_true, Bool.or_eq_false_iff] at entered
      obtain ⟨name, entry, hmem, hvisible, hdepth, hfound⟩ := (mem_filesOf disk root rules).mp h
      exact ⟨hdepth, entered.2, name, entry, hmem, hvisible, hfound⟩
  · rintro ⟨hdepth, hpath, name, entry, hmem, hvisible, hfound⟩
    rw [if_neg (by simp [hdepth, hpath])]
    exact (mem_filesOf disk root rules).mpr ⟨name, entry, hmem, hvisible, hdepth, hfound⟩

/-- The recursion finds the ends of all ways down from an entry that it may pass. The induction is
on the depth that is left, which every folder on a way takes one of. -/
theorem mem_filesIn {depth : Nat} {path found : Location} {entry : Entry} (tree : entry.IsTree) :
    found ∈ filesIn disk root rules depth path entry ↔
      ∃ way leaf, found = path ++ way ∧ entry.at? way = some leaf ∧
        Stops disk root rules found leaf ∧ Passes rules depth path way := by
  induction depth using Nat.strongRecOn generalizing path entry with
  | ind depth ih =>
  cases hentry : entry.isFolder with
  | false =>
    rw [mem_filesIn_end disk root rules hentry]
    constructor
    · rintro ⟨rfl, stops⟩
      exact ⟨[], entry, (List.append_nil _).symm, rfl, stops, passes_nil rules⟩
    · rintro ⟨way, leaf, rfl, hleaf, stops, -⟩
      cases way with
      | nil =>
        cases hleaf
        exact ⟨List.append_nil _, stops⟩
      | cons name way =>
        obtain ⟨inside, hinside, -⟩ := Option.bind_eq_some_iff.mp hleaf
        have hfolder := Entry.isFolder_of_child? hinside
        rw [hentry] at hfolder
        cases hfolder
  | true =>
    obtain ⟨entries, rfl⟩ : ∃ entries, entry = .folder entries := by
      cases entry with
      | folder entries => exact ⟨entries, rfl⟩
      | file bytes => cases hentry
      | link target => cases hentry
    rw [mem_filesIn_folder]
    constructor
    · rintro ⟨hdepth, hpath, name, inside, hmem, hvisible, hfound⟩
      obtain ⟨way, leaf, rfl, hleaf, stops, passes⟩ :=
        (ih (depth - 1) (by omega) (tree.2.of_mem hmem).2).mp hfound
      refine ⟨name :: way, leaf, by simp, ?_, stops, ?_⟩
      · rw [Entry.at?_cons, Entry.child?, (Table.get?_eq_some_iff tree.1).mpr hmem]
        exact hleaf
      · exact (passes_cons rules).mpr ⟨hdepth, hpath, hvisible, passes⟩
    · rintro ⟨way, leaf, rfl, hleaf, stops, passes⟩
      cases way with
      | nil =>
        cases hleaf
        cases stops.noFolder
      | cons name way =>
        obtain ⟨inside, hinside, hleaf⟩ := Option.bind_eq_some_iff.mp hleaf
        obtain ⟨hdepth, hpath, hvisible, passes⟩ := (passes_cons rules).mp passes
        have hmem := (Table.get?_eq_some_iff tree.1).mp hinside
        refine ⟨hdepth, hpath, name, inside, hmem, hvisible, ?_⟩
        refine (ih (depth - 1) (by omega) (tree.2.of_mem hmem).2).mpr ?_
        exact ⟨way, leaf, by simp, hleaf, stops, passes⟩

theorem nodup_filesOf {depth : Nat} {path : Location} {entries : List (String × Entry)}
    (trees : Entry.AreTrees entries) (distinct : (entries.map Prod.fst).Nodup)
    (inner : ∀ name entry, (name, entry) ∈ entries →
      (filesIn disk root rules (depth - 1) (path ++ [name]) entry).Nodup) :
    (filesOf disk root rules depth path entries).Nodup := by
  induction entries with
  | nil => exact List.nodup_nil
  | cons first rest ih =>
    obtain ⟨name, entry⟩ := first
    rw [List.map_cons, List.nodup_cons] at distinct
    have hrest := ih trees.2.2 distinct.2 fun other inside hmem =>
      inner other inside (List.mem_cons_of_mem _ hmem)
    rw [filesOf, List.nodup_append]
    refine ⟨?_, hrest, ?_⟩
    · split
      · exact List.nodup_nil
      · exact inner name entry List.mem_cons_self
    · rintro found hfirst _ hlater rfl
      have hfirst : found ∈ filesIn disk root rules (depth - 1) (path ++ [name]) entry := by
        split at hfirst
        · cases hfirst
        · exact hfirst
      obtain ⟨other, inside, hmem, -, -, hlater⟩ := (mem_filesOf disk root rules).mp hlater
      obtain ⟨way, -, hway, -⟩ := (mem_filesIn disk root rules trees.2.1).mp hfirst
      obtain ⟨way', -, hway', -⟩ :=
        (mem_filesIn disk root rules (trees.2.2.of_mem hmem).2).mp hlater
      have hname : name = other := by
        have h := hway.symm.trans hway'
        simp only [List.append_assoc, List.singleton_append, List.append_cancel_left_eq,
          List.cons.injEq] at h
        exact h.1
      exact distinct.1 (List.mem_map.mpr ⟨(other, inside), hmem, hname.symm⟩)

/-- No path is found twice. -/
theorem nodup_filesIn {depth : Nat} {path : Location} {entry : Entry} (tree : entry.IsTree) :
    (filesIn disk root rules depth path entry).Nodup := by
  induction depth using Nat.strongRecOn generalizing path entry with
  | ind depth ih =>
  cases entry with
  | file bytes => rw [filesIn]; split <;> simp
  | link target => rw [filesIn]; split <;> simp
  | folder entries =>
    rw [filesIn]
    split
    · exact List.nodup_nil
    · rename_i entered
      have hdepth : depth ≠ 0 := by
        rintro rfl
        exact entered rfl
      exact nodup_filesOf disk root rules tree.2 tree.1 fun name inside hmem =>
        ih (depth - 1) (by omega) (tree.2.of_mem hmem).2

end Recursion

/-! ## Looking up -/

section LookingUp

variable {disk : Entry} {root found : Location}

theorem standing?_concat (place : Location) (name : String) :
    standing? disk (place ++ [name]) =
      match Disk.walk disk Disk.mostLinks [] place with
      | .ok above => disk.at? (above ++ [name])
      | .error _ => none := by
  simp [standing?]

/-- A walk below a root goes on from where the root is found. -/
theorem walk_below (hroot : Disk.walk disk Disk.mostLinks [] root = .ok found) :
    ∃ left, ∀ rest, Disk.walk disk Disk.mostLinks [] (root ++ rest) =
      Disk.walk disk left found rest := by
  obtain ⟨left, hleft⟩ := Disk.walk_append disk Disk.mostLinks [] root
  exact ⟨left, fun rest => by rw [hleft, hroot]; rfl⟩

theorem opened?_below (tree : disk.IsTree)
    (hroot : Disk.walk disk Disk.mostLinks [] root = .ok found) {path : Location} {leaf : Entry}
    (present : disk.at? (found ++ path) = some leaf) (noLink : ∀ target, leaf ≠ .link target) :
    Disk.opened? disk (root ++ path) = some leaf := by
  obtain ⟨left, hleft⟩ := walk_below hroot
  rw [Disk.opened?, hleft, Disk.walk_to_entry tree _ present noLink]
  exact present

/-- An entry of the tree stands at its path. -/
theorem standing?_below (tree : disk.IsTree)
    (hroot : Disk.walk disk Disk.mostLinks [] root = .ok found) {path : Location} {leaf : Entry}
    (nonempty : path ≠ []) (present : disk.at? (found ++ path) = some leaf) :
    standing? disk (root ++ path) = some leaf := by
  obtain ⟨front, name, rfl⟩ : ∃ front name, path = front ++ [name] :=
    ⟨_, _, (List.dropLast_concat_getLast nonempty).symm⟩
  obtain ⟨left, hleft⟩ := walk_below hroot
  rw [← List.append_assoc] at present
  obtain ⟨above, habove, hfolder⟩ := Entry.at?_above (List.cons_ne_nil name []) present
  have noLink : ∀ target, above ≠ .link target := by
    rintro target rfl
    cases hfolder
  have hwalk := Disk.walk_to_entry tree left habove noLink
  rw [← List.append_assoc, standing?_concat, hleft, hwalk]
  exact present

/-- What is above an entry that stands somewhere, by way of links or not, is a folder. -/
theorem leadsToFolder_above {front rest : Location} (nonempty : rest ≠ [])
    (stands : (standing? disk (front ++ rest)).isSome = true) :
    leadsToFolder disk front = true := by
  obtain ⟨more, name, rfl⟩ : ∃ more name, rest = more ++ [name] :=
    ⟨_, _, (List.dropLast_concat_getLast nonempty).symm⟩
  obtain ⟨left, hleft⟩ := Disk.walk_append disk Disk.mostLinks [] front
  rw [← List.append_assoc, standing?_concat, hleft] at stands
  cases hmid : Disk.walk disk Disk.mostLinks [] front with
  | error cause => simp [hmid, Except.bind] at stands
  | ok mid =>
    simp only [hmid, Except.bind] at stands
    have hfolder : ∃ entry, disk.at? mid = some entry ∧ entry.isFolder = true := by
      cases hwalk : Disk.walk disk left mid more with
      | error cause => simp [hwalk] at stands
      | ok above =>
        cases more with
        | nil =>
          rw [Disk.walk_nil] at hwalk
          cases hwalk
          rw [Disk.walk_nil] at stands
          obtain ⟨leaf, hleaf⟩ := Option.isSome_iff_exists.mp stands
          exact Entry.at?_above (List.cons_ne_nil name []) hleaf
        | cons next more => exact Disk.isFolder_of_walk hwalk
    obtain ⟨entry, hentry, hisFolder⟩ := hfolder
    simp [leadsToFolder, Disk.opened?, hmid, hentry, hisFolder]

/-- What is listed is an entry of the tree: no link was followed on the way to it. -/
theorem Listed.at? (tree : disk.IsTree)
    (hroot : Disk.walk disk Disk.mostLinks [] root = .ok found) {top : Entry}
    (hfound : disk.at? found = some top) (hfolder : top.isFolder = true) {rules : List IgnoreRule}
    {depth : Int} {path : Location} (listed : Listed disk root rules depth path) :
    ∃ leaf, disk.at? (found ++ path) = some leaf := by
  have hstands := listed.stands
  obtain ⟨front, name, rfl⟩ : ∃ front name, path = front ++ [name] :=
    ⟨_, _, (List.dropLast_concat_getLast listed.nonempty).symm⟩
  obtain ⟨left, hleft⟩ := walk_below hroot
  rw [← List.append_assoc, standing?_concat, hleft] at hstands
  cases hwalk : Disk.walk disk left found front with
  | error cause => simp [hwalk] at hstands
  | ok above =>
    have hnamed : ∀ other ∈ front, other ≠ "" ∧ other ≠ "." ∧ other ≠ ".." := by
      intro other hother
      have hmem : other ∈ front ++ [name] := List.mem_append_left _ hother
      have hvisible := listed.visible other hmem
      refine ⟨listed.named other hmem, ?_, ?_⟩ <;> rintro rfl <;> exact absurd hvisible (by decide)
    have hdirect : ∀ sub target, sub <+: front → disk.at? (found ++ sub) ≠ some (.link target) := by
      rintro sub target ⟨rest, rfl⟩ hlink
      by_cases hsub : sub = []
      · rw [hsub, List.append_nil, hfound] at hlink
        cases hlink
        cases hfolder
      · have hstand := standing?_below tree hroot hsub hlink
        have hleads : leadsToFolder disk (root ++ sub) = true := by
          apply leadsToFolder_above (show rest ++ [name] ≠ [] by simp)
          simpa using listed.stands
        exact listed.direct sub (by simp) hsub (by simp) ⟨⟨target, hstand⟩, hleads⟩
    have habove := Disk.walk_straight hwalk hnamed hdirect
    subst habove
    rw [hwalk] at hstands
    obtain ⟨leaf, hleaf⟩ := Option.isSome_iff_exists.mp hstands
    exact ⟨leaf, by simpa using hleaf⟩

end LookingUp

/-! ## The list -/

section List

variable {disk : Entry} {root : Location}

theorem opened?_of_leadsToFolder (hroot : leadsToFolder disk root = true) :
    ∃ found entries, Disk.walk disk Disk.mostLinks [] root = .ok found ∧
      disk.at? found = some (.folder entries) := by
  rw [leadsToFolder, Disk.opened?] at hroot
  cases hwalk : Disk.walk disk Disk.mostLinks [] root with
  | error cause => simp [hwalk] at hroot
  | ok found =>
    rw [hwalk] at hroot
    cases hfound : disk.at? found with
    | none => simp [hfound] at hroot
    | some top =>
      cases top with
      | folder entries => exact ⟨found, entries, rfl, hfound⟩
      | file bytes => simp [hfound, Entry.isFolder] at hroot
      | link target => simp [hfound, Entry.isFolder] at hroot

/-- The recursion, from the entries of the root on. -/
theorem mem_filesOf_root {found : Location} {entries : List (String × Entry)}
    {rules : List IgnoreRule} {depth : Nat} {path : Location} (tree : disk.IsTree)
    (hfound : disk.at? found = some (.folder entries)) :
    path ∈ filesOf disk root rules depth [] entries ↔
      path ≠ [] ∧ ∃ leaf, disk.at? (found ++ path) = some leaf ∧ Stops disk root rules path leaf ∧
        path.length ≤ depth ∧ (∀ name ∈ path, isHidden name = false) ∧
        ∀ front, front <+: path → front ≠ [] → front ≠ path →
          excluded rules front true = false := by
  have htop : (Entry.folder entries).IsTree := (tree.at? hfound).2
  have hlook : ∀ path, disk.at? (found ++ path) = (Entry.folder entries).at? path := by
    intro path
    rw [Entry.at?_append, hfound, Option.bind_some]
  simp only [mem_filesOf, hlook]
  constructor
  · rintro ⟨name, entry, hmem, hvisible, hdepth, hpath⟩
    obtain ⟨way, leaf, rfl, hleaf, stops, passes⟩ :=
      (mem_filesIn disk root rules (htop.2.of_mem hmem).2).mp hpath
    refine ⟨by simp, leaf, ?_, stops, ?_, ?_, ?_⟩
    · change ((Table.get? name entries).bind (·.at? way)) = some leaf
      rw [(Table.get?_eq_some_iff htop.1).mpr hmem]
      exact hleaf
    · have h := passes.within
      simp only [List.nil_append, List.cons_append, List.length_cons]
      omega
    · exact List.forall_mem_cons.mpr ⟨hvisible, passes.visible⟩
    · intro front hfront hne hproper
      cases front with
      | nil => exact absurd rfl hne
      | cons other front =>
        obtain ⟨rfl, hrest⟩ := List.cons_prefix_cons.mp hfront
        exact passes.entered front hrest (by rintro rfl; exact hproper rfl)
  · rintro ⟨hne, leaf, hleaf, stops, hwithin, hvisible, hentered⟩
    cases path with
    | nil => exact absurd rfl hne
    | cons name way =>
      obtain ⟨entry, hentry, hleaf⟩ := Option.bind_eq_some_iff.mp hleaf
      have hmem := (Table.get?_eq_some_iff htop.1).mp hentry
      rw [List.length_cons] at hwithin
      refine ⟨name, entry, hmem, hvisible name List.mem_cons_self, by omega, ?_⟩
      refine (mem_filesIn disk root rules (htop.2.of_mem hmem).2).mpr
        ⟨way, leaf, rfl, hleaf, stops, by omega,
          fun other hother => hvisible other (List.mem_cons_of_mem _ hother), ?_⟩
      intro front hfront hproper
      exact hentered (name :: front) (List.cons_prefix_cons.mpr ⟨rfl, hfront⟩) (by simp)
        (by simpa using hproper)

/-- A scan finds exactly the paths of the description. -/
theorem mem_paths {rules : List IgnoreRule} {depth : Int} {path : Location} (tree : disk.IsTree)
    (hroot : leadsToFolder disk root = true) :
    path ∈ paths disk root rules depth ↔ Listed disk root rules depth path := by
  obtain ⟨found, entries, hwalk, hfound⟩ := opened?_of_leadsToFolder hroot
  have hopened : Disk.opened? disk root = some (.folder entries) := by
    rw [Disk.opened?, hwalk]
    exact hfound
  rw [paths, hopened]
  change path ∈ filesOf disk root rules (max depth 1).toNat [] entries ↔ _
  rw [mem_filesOf_root tree hfound]
  constructor
  · rintro ⟨hne, leaf, hleaf, stops, hwithin, hvisible, hentered⟩
    have hplain := (tree.at? hleaf).1
    refine ⟨?_, ?_, hne, fun name hname => ?_, by omega, hvisible, ?_, hentered, stops.kept⟩
    · rw [standing?_below tree hwalk hne hleaf]
      rfl
    · by_cases hlink : ∃ target, leaf = .link target
      · exact stops.noFolderLink hlink
      · have hopen := opened?_below tree hwalk hleaf fun target heq => hlink ⟨target, heq⟩
        rw [leadsToFolder, hopen]
        exact stops.noFolder
    · exact (hplain name (List.mem_append_right _ hname)).ne_empty
    · rintro front ⟨rest, rfl⟩ hfront hproper ⟨⟨target, hlink⟩, -⟩
      have hrest : rest ≠ [] := by
        rintro rfl
        exact hproper (List.append_nil _).symm
      rw [← List.append_assoc] at hleaf
      obtain ⟨above, habove, hfolder⟩ := Entry.at?_above hrest hleaf
      rw [standing?_below tree hwalk hfront habove] at hlink
      cases hlink
      cases hfolder
  · intro listed
    obtain ⟨leaf, hleaf⟩ := listed.at? tree hwalk hfound rfl
    have hnone : leaf.isFolder = false := by
      by_cases hlink : ∃ target, leaf = .link target
      · obtain ⟨target, rfl⟩ := hlink
        rfl
      · have hopen := opened?_below tree hwalk hleaf fun target heq => hlink ⟨target, heq⟩
        simpa [leadsToFolder, hopen] using listed.noFolder
    have hwithin := listed.within
    exact ⟨listed.nonempty, leaf, hleaf, ⟨hnone, fun _ => listed.noFolder, listed.kept⟩, by omega,
      listed.visible, listed.entered⟩

end List

end Synopsis.Scan
