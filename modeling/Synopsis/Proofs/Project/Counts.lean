import Synopsis.Proofs.Project
import Synopsis.Proofs.Tally

/-!
# Every file is counted once

Where a project is described, the groupings of its files by extension, by directory and by category
are told file by file: each of them has as many files as were given, and none depends on the order
in which they were given. Which projects are described is part of it. A file that cannot be looked
up is counted like another one, unless its links lead back to themselves; then there is no
description at all.
-/

namespace Synopsis

theorem nodup_eraseDups : (names : List String) → names.eraseDups.Nodup
  | [] => List.nodup_nil
  | name :: names => by
    rw [List.eraseDups_cons, List.nodup_cons]
    constructor
    · simp
    · exact nodup_eraseDups (names.filter fun other => !other == name)
termination_by names => names.length
decreasing_by exact Nat.lt_succ_of_le (List.length_filter_le _ _)

/-- Without repetitions, lists of the same names are one another in another order. -/
theorem eraseDups_perm {names other : List String} (same : ∀ name, name ∈ other ↔ name ∈ names) :
    other.eraseDups.Perm names.eraseDups := by
  refine (List.perm_ext_iff_of_nodup (nodup_eraseDups other) (nodup_eraseDups names)).mpr ?_
  intro name
  rw [List.mem_eraseDups, List.mem_eraseDups, same name]

namespace Category

variable {working : String} {root : Option String} {paths other : List String}

/-- Every path has one category. -/
theorem sum_lengths_group (working : String) (root : Option String) (paths : List String) :
    ((group working root paths).map fun (_, inside) => inside.length).sum = paths.length := by
  simp only [group, all, List.map_cons, List.map_nil, List.sum_cons, List.sum_nil]
  induction paths with
  | nil => rfl
  | cons path paths ih =>
    simp only [List.filter_cons, List.length_cons]
    cases ofPath working root path <;> simp <;> omega

end Category

namespace Stack

/-- The tags depend on which extensions there are, not on their order. -/
theorem detect_congr {table : List Rule} {extensions other : List String}
    (same : ∀ name, name ∈ other ↔ name ∈ extensions) (dependencies : Dependencies) :
    detect table other dependencies = detect table extensions dependencies := by
  have fires (rule : Rule) (observed : List String) :
      rule.fires other observed = rule.fires extensions observed := by
    simp only [Rule.fires, List.contains_eq_mem, same]
  simp only [detect, fires]

end Stack

namespace Project

variable {w : Workspace} {root : Location} {files other : List String} {outcome : ProjectFacts}

/-- The facts as they are put together from the ways and the sizes of the files and from what the
manifests declare. -/
def compose (w : Workspace) (root : Location) (files ways : List String) (sizes : List Nat)
    (declared : Dependencies) (package : Table Datum) : ProjectFacts where
  name := root.getLast?.getD ""
  root := Location.text root
  files := files
  total := files.length
  byExtension := tallies (files.map extensionOf)
  byDirectory := tallies (ways.map directoryOf)
  totalSize := (sizes.foldl Nat.add 0 : Nat)
  categories := (Category.group w.workingText (some (Location.text root)) files).map
    fun (category, paths) => (category.label, paths)
  directories := allDirectories ways
  depth := depthOf ways
  dependencies := declared
  entryPoints := entryPoints ways (Manifest.targets package)
  techStack := Stack.detect Stack.rules (Table.names (tallies (files.map extensionOf))) declared

theorem facts_eq_ok_iff : facts w root files = .ok outcome ↔
    ∃ ways sizes declared package, files.mapM (wayFrom w root) = .ok ways ∧
      files.mapM (sizeOf w) = .ok sizes ∧
      Manifest.dependencies (manifestsIn w root) = .ok declared ∧
      Manifest.packageFields (manifestsIn w root) = .ok package ∧
      compose w root files ways sizes declared package = outcome := by
  constructor
  · intro described
    obtain ⟨ways, found, described⟩ := bind_eq_ok.mp described
    obtain ⟨sizes, measured, described⟩ := bind_eq_ok.mp described
    obtain ⟨declared, read, described⟩ := bind_eq_ok.mp described
    obtain ⟨package, held, described⟩ := bind_eq_ok.mp described
    cases described
    exact ⟨ways, sizes, declared, package, lift_eq_ok_iff.mp found, lift_eq_ok_iff.mp measured,
      lift_eq_ok_iff.mp read, lift_eq_ok_iff.mp held, rfl⟩
  · rintro ⟨ways, sizes, declared, package, found, measured, read, held, rfl⟩
    refine bind_eq_ok.mpr ⟨ways, lift_eq_ok_iff.mpr found, ?_⟩
    refine bind_eq_ok.mpr ⟨sizes, lift_eq_ok_iff.mpr measured, ?_⟩
    refine bind_eq_ok.mpr ⟨declared, lift_eq_ok_iff.mpr read, ?_⟩
    exact bind_eq_ok.mpr ⟨package, lift_eq_ok_iff.mpr held, rfl⟩

/-! ## Which projects are described -/

/-- Whether a file can be told of: its path has no null character, its links do not lead back to
themselves, and the empty path stands for a place below the root. -/
structure Describable (w : Workspace) (root : Location) (path : String) : Prop where
  noNull : '\x00' ∉ path.toList
  ends : ∀ place, Disk.resolve w.disk w.working (Path.pure path) ≠ .error (.endless place)
  named : path = "" → root <+: w.working

theorem below?_eq_some_iff {root place rest : Location} :
    below? root place = some rest ↔ place = root ++ rest := by
  induction root generalizing place with
  | nil => simp [below?]
  | cons name root ih =>
    cases place with
    | nil => simp [below?]
    | cons other place =>
      by_cases same : name = other
      · rw [below?, if_pos same, ih]
        simp [same]
      · rw [below?, if_neg same]
        simp [Ne.symm same]

theorem below?_eq_none_iff {root place : Location} : below? root place = none ↔
    ¬ root <+: place := by
  rw [Option.eq_none_iff_forall_ne_some]
  constructor
  · rintro outside ⟨rest, rfl⟩
    exact outside rest (below?_append root rest)
  · intro outside rest inside
    exact outside ⟨rest, (below?_eq_some_iff.mp inside).symm⟩

theorem textualWay_ok_iff {path : String} :
    (∃ way, textualWay w root path = .ok way) ↔ path ≠ "" := by
  rw [textualWay, Path.relative?]
  by_cases empty : path = ""
  · simp [empty]
  · simp [empty]

/-- A way to a file is found unless its links lead back to themselves, and to the empty path if the
working place is below the root. -/
theorem wayFrom_ok_iff {path : String} : (∃ way, wayFrom w root path = .ok way) ↔
    (∀ place, Disk.resolve w.disk w.working (Path.pure path) ≠ .error (.endless place)) ∧
      (path = "" → root <+: w.working) := by
  delta wayFrom
  cases resolved : Disk.resolve w.disk w.working (Path.pure path) with
  | ok place =>
    have here : path = "" → place = w.working := by
      rintro rfl
      rw [Disk.resolve_here] at resolved
      cases resolved
      rfl
    cases below : below? root place with
    | none =>
      have outside := below?_eq_none_iff.mp below
      simp only [below, textualWay_ok_iff]
      constructor
      · exact fun named => ⟨nofun, fun empty => absurd empty named⟩
      · rintro ⟨-, inside⟩ empty
        exact outside (here empty ▸ inside empty)
    | some rest =>
      have inside : root <+: place := ⟨rest, (below?_eq_some_iff.mp below).symm⟩
      refine iff_of_true ?_ ⟨nofun, fun empty => here empty ▸ inside⟩
      cases rest with
      | nil => exact ⟨".", by simp only [below]⟩
      | cons name rest => exact ⟨Text.join "/" (name :: rest), by simp only [below]⟩
  | error fault =>
    have named : path ≠ "" := by
      rintro rfl
      rw [Disk.resolve_here] at resolved
      cases resolved
    rcases Disk.resolve_eq_error resolved with rfl | ⟨place, rfl⟩
    · simp only [textualWay_ok_iff]
      exact iff_of_true named ⟨nofun, fun empty => absurd empty named⟩
    · refine iff_of_false (by rintro ⟨way, ⟨⟩⟩) ?_
      rintro ⟨ends, -⟩
      exact ends place rfl

/-- A file has a size, if only none, unless its path has a null character. -/
theorem sizeOf_ok_iff {path : String} :
    (∃ size, sizeOf w path = .ok size) ↔ '\x00' ∉ path.toList := by
  rw [← w.entryOf_eq_nullCharacter_iff, sizeOf]
  cases w.entryOf path with
  | ok entry => simp
  | error fault => cases fault <;> simp

/-- A project is described exactly if all its files can be told of and its manifests can be dealt
with. -/
theorem facts_describable_iff : (∃ outcome, facts w root files = .ok outcome) ↔
    (∀ path ∈ files, Describable w root path) ∧ ¬ Manifest.Hindered (manifestsIn w root) := by
  constructor
  · rintro ⟨outcome, described⟩
    obtain ⟨ways, sizes, declared, package, found, measured, read, -⟩ :=
      facts_eq_ok_iff.mp described
    refine ⟨fun path inside => ?_, Manifest.dependencies_ok_iff.mp ⟨declared, read⟩⟩
    obtain ⟨ends, named⟩ := wayFrom_ok_iff.mp (exists_mapM_ok.mp ⟨ways, found⟩ path inside)
    exact ⟨sizeOf_ok_iff.mp (exists_mapM_ok.mp ⟨sizes, measured⟩ path inside), ends, named⟩
  · rintro ⟨describable, unhindered⟩
    obtain ⟨ways, found⟩ := exists_mapM_ok.mpr fun path inside =>
      wayFrom_ok_iff.mpr ⟨(describable path inside).ends, (describable path inside).named⟩
    obtain ⟨sizes, measured⟩ := exists_mapM_ok.mpr fun path inside =>
      sizeOf_ok_iff (w := w).mpr (describable path inside).noNull
    obtain ⟨declared, read⟩ := Manifest.dependencies_ok_iff.mpr unhindered
    obtain ⟨fields?, held⟩ := Manifest.packageFields?_ok_iff.mpr fun bytes present deep =>
      unhindered (.package present deep)
    have package : Manifest.packageFields (manifestsIn w root) = .ok (fields?.getD []) := by
      rw [Manifest.packageFields, held]
      rfl
    exact ⟨_, facts_eq_ok_iff.mpr ⟨ways, sizes, declared, _, found, measured, read, package, rfl⟩⟩

/-! ## What is counted -/

/-- The directory under which a file of a project is counted. -/
def directoryAt? (w : Workspace) (root : Location) (path : String) : Option String :=
  (wayFrom w root path).toOption.map directoryOf

/-- Each of the files is counted once in each grouping: the groups together are as many
as the files, a group has the files that belong to it, and a category lists them in the
order in which they were given. -/
structure Counted (w : Workspace) (root : Location) (files : List String) (outcome : ProjectFacts) :
    Prop where
  total : outcome.total = files.length
  byExtension : Table.total outcome.byExtension = files.length
  byDirectory : Table.total outcome.byDirectory = files.length
  byCategory : (outcome.categories.map fun (_, inside) => inside.length).sum = files.length
  extensions : (Table.names outcome.byExtension).Nodup
  directories : (Table.names outcome.byDirectory).Nodup
  ofExtension : ∀ name, (Table.get? name outcome.byExtension).getD 0 =
    files.countP fun path => extensionOf path == name
  ofDirectory : ∀ name, (Table.get? name outcome.byDirectory).getD 0 =
    files.countP fun path => directoryAt? w root path == some name
  ofCategory : outcome.categories = Category.all.map fun category => (category.label,
    files.filter fun path =>
      Category.ofPath w.workingText (some (Location.text root)) path == category)

/-- Two descriptions count alike and list the same files in each category, in whatever order. -/
structure SameCounts (outcome' outcome : ProjectFacts) : Prop where
  byExtension : ∀ name, Table.get? name outcome'.byExtension = Table.get? name outcome.byExtension
  byDirectory : ∀ name, Table.get? name outcome'.byDirectory = Table.get? name outcome.byDirectory
  totalSize : outcome'.totalSize = outcome.totalSize
  directories : outcome'.directories = outcome.directories
  depth : outcome'.depth = outcome.depth
  techStack : outcome'.techStack = outcome.techStack
  categories : List.Forall₂ (fun category' category =>
    category'.1 = category.1 ∧ category'.2.Perm category.2) outcome'.categories outcome.categories

theorem getD_get?_tallies (names : List String) (name : String) :
    (Table.get? name (tallies names)).getD 0 = names.count name := by
  rw [get?_tallies]
  split
  · rfl
  · rename_i absent
    rw [List.count_eq_zero_of_not_mem absent]
    rfl

theorem counted_of_facts_ok (described : facts w root files = .ok outcome) :
    Counted w root files outcome := by
  obtain ⟨ways, sizes, declared, package, found, -, -, -, rfl⟩ := facts_eq_ok_iff.mp described
  have directories : ways.map directoryOf = files.filterMap (directoryAt? w root) := by
    rw [eq_filterMap_of_mapM_ok found, List.map_filterMap]
    rfl
  constructor
  case total => rfl
  case byExtension =>
    rw [compose, total_tallies, List.length_map]
  case byDirectory =>
    rw [compose, total_tallies, List.length_map, (forall₂_of_mapM_ok found).length_eq]
  case byCategory =>
    rw [compose, List.map_map]
    exact Category.sum_lengths_group w.workingText (some (Location.text root)) files
  case extensions => exact nodup_names_tallies _
  case directories => exact nodup_names_tallies _
  case ofExtension =>
    intro name
    rw [compose, getD_get?_tallies, List.count, List.countP_map]
    rfl
  case ofDirectory =>
    intro name
    rw [compose, getD_get?_tallies, directories, List.count_filterMap]
  case ofCategory =>
    rw [compose, Category.group, List.map_map]
    rfl

theorem depthOf_le_iff {ways : List String} {bound : Nat} :
    depthOf ways ≤ bound ↔ ∀ way ∈ ways, (Path.segments way).length ≤ bound := by
  have fold (start : Nat) :
      ways.foldl (fun depth way => max depth (Path.segments way).length) start ≤ bound ↔
        start ≤ bound ∧ ∀ way ∈ ways, (Path.segments way).length ≤ bound := by
    induction ways generalizing start with
    | nil => simp
    | cons way ways ih =>
      rw [List.foldl_cons, ih, List.forall_mem_cons, Nat.max_le, and_assoc]
  rw [depthOf, fold]
  exact and_iff_right (Nat.zero_le bound)

/-- The depth depends on which ways there are, not on their order. -/
theorem depthOf_congr {ways others : List String} (same : ∀ way, way ∈ others ↔ way ∈ ways) :
    depthOf others = depthOf ways := by
  have bounds (bound : Nat) : depthOf others ≤ bound ↔ depthOf ways ≤ bound := by
    simp only [depthOf_le_iff, same]
  exact Nat.le_antisymm ((bounds _).mpr (Nat.le_refl _)) ((bounds _).mp (Nat.le_refl _))

theorem allDirectories_congr {ways others : List String} (same : ∀ way, way ∈ others ↔ way ∈ ways) :
    allDirectories others = allDirectories ways := by
  refine Scan.sorted_congr (eraseDups_perm fun directory => ?_)
  simp only [List.mem_flatMap, same]

/-- The same files in another order are described as well, and counted alike. -/
theorem sameCounts_of_perm (same : other.Perm files)
    (described : facts w root files = .ok outcome) :
    ∃ outcome', facts w root other = .ok outcome' ∧ SameCounts outcome' outcome := by
  obtain ⟨ways, sizes, declared, package, found, measured, read, held, rfl⟩ :=
    facts_eq_ok_iff.mp described
  obtain ⟨ways', found', sameWays⟩ := mapM_ok_of_perm same found
  obtain ⟨sizes', measured', sameSizes⟩ := mapM_ok_of_perm same measured
  refine ⟨compose w root other ways' sizes' declared package,
    facts_eq_ok_iff.mpr ⟨ways', sizes', declared, package, found', measured', read, held, rfl⟩, ?_⟩
  have sameExtensions : (other.map extensionOf).Perm (files.map extensionOf) := same.map _
  constructor
  case byExtension => exact get?_tallies_of_perm sameExtensions
  case byDirectory => exact get?_tallies_of_perm (sameWays.map directoryOf)
  case totalSize =>
    have sums : sizes'.foldl Nat.add 0 = sizes.foldl Nat.add 0 :=
      sameSizes.foldl_eq' (fun size _ other _ sum => Nat.add_right_comm sum size other) 0
    exact congrArg Int.ofNat sums
  case directories => exact allDirectories_congr fun _ => sameWays.mem_iff
  case depth => exact congrArg Int.ofNat (depthOf_congr fun _ => sameWays.mem_iff)
  case techStack =>
    refine Stack.detect_congr (fun name => ?_) declared
    rw [mem_names_tallies, mem_names_tallies, sameExtensions.mem_iff]
  case categories =>
    rw [compose, compose, Category.group, Category.group, List.map_map, List.map_map,
      List.forall₂_map_left_iff, List.forall₂_map_right_iff, List.forall₂_same]
    intro category _
    exact ⟨rfl, same.filter _⟩

/-- A project is described exactly if all its files can be told of and its manifests can be dealt
with. Then every file is counted once in each grouping, and the same files in another order are
counted alike. -/
theorem files_counted_once (w : Workspace) (root : Location) (files : List String) :
    ((∃ outcome, facts w root files = .ok outcome) ↔
      (∀ path ∈ files, Describable w root path) ∧ ¬ Manifest.Hindered (manifestsIn w root)) ∧
    ∀ outcome, facts w root files = .ok outcome → Counted w root files outcome ∧
      ∀ other : List String, other.Perm files →
        ∃ outcome', facts w root other = .ok outcome' ∧ SameCounts outcome' outcome := by
  refine ⟨facts_describable_iff, fun outcome described => ⟨counted_of_facts_ok described, ?_⟩⟩
  intro other same
  exact sameCounts_of_perm same described

/-- A project with a link that leads nowhere. -/
def danglingProject : Workspace :=
  { disk := .folder [("p", .folder [("src", .folder [("a.js", .file "f()".toUTF8)]),
      ("gone.md", .link "nowhere.md")])] }

theorem files_counted_once_dangling :
    ∃ outcome, facts danglingProject ["p"] ["/p/src/a.js", "/p/gone.md", "/p/src/a.js"] =
        .ok outcome ∧
      Counted danglingProject ["p"] ["/p/src/a.js", "/p/gone.md", "/p/src/a.js"] outcome ∧
      ∃ outcome', facts danglingProject ["p"] ["/p/gone.md", "/p/src/a.js", "/p/src/a.js"] =
        .ok outcome' ∧ SameCounts outcome' outcome := by
  obtain ⟨describable_iff, counted⟩ := files_counted_once danglingProject ["p"]
    ["/p/src/a.js", "/p/gone.md", "/p/src/a.js"]
  have noPackage : (manifestsIn danglingProject ["p"]).package = none := by decide +kernel
  have noProject : (manifestsIn danglingProject ["p"]).project = none := by decide +kernel
  have unhindered : ¬ Manifest.Hindered (manifestsIn danglingProject ["p"]) := by
    rintro (⟨present, -⟩ | ⟨-, present, -⟩)
    · rw [noPackage] at present
      cases present
    · rw [noProject] at present
      cases present
  have settled : ∀ path ∈ ["/p/src/a.js", "/p/gone.md", "/p/src/a.js"],
      '\x00' ∉ path.toList ∧ path ≠ "" ∧ (Disk.resolve danglingProject.disk
        danglingProject.working (Path.pure path)).isOk = true := by decide +kernel
  have describable (path : String) (inside : path ∈ ["/p/src/a.js", "/p/gone.md", "/p/src/a.js"]) :
      Describable danglingProject ["p"] path := by
    obtain ⟨noNull, nonempty, resolved⟩ := settled path inside
    refine ⟨noNull, fun place endless => ?_, fun empty => absurd empty nonempty⟩
    rw [endless] at resolved
    cases resolved
  obtain ⟨outcome, described⟩ := describable_iff.mpr ⟨describable, unhindered⟩
  obtain ⟨once, permuted⟩ := counted outcome described
  exact ⟨outcome, described, once, permuted _ (.swap _ _ _)⟩

/-- A project with a link that leads back to itself. -/
def loopingProject : Workspace :=
  { disk := .folder [("p", .folder [("a.txt", .file "x".toUTF8), ("loop", .link "loop")])] }

/-- A project with a link that leads back to itself is scanned, the link with it, and not described
at all. -/
theorem loopingProject_undescribed :
    loopingProject.scan "/p" 10 [] = .ok ["/p/a.txt", "/p/loop"] ∧
      ¬ ∃ outcome, facts loopingProject ["p"] ["/p/a.txt", "/p/loop"] = .ok outcome := by
  constructor
  · decide +kernel
  · rw [facts_describable_iff]
    rintro ⟨describable, -⟩
    have resolved : Disk.resolve loopingProject.disk loopingProject.working (Path.pure "/p/loop") =
        .error (.endless "/p/loop") := by decide +kernel
    exact (describable "/p/loop" (by simp)).ends _ resolved

end Project

end Synopsis
