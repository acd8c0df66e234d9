import Synopsis.Project
import Synopsis.Proofs.Manifest
import Synopsis.Proofs.Scan.Copies

/-!
# Facts about one tree at several places

The facts about a project are those of its tree, told with the paths at which the tree happens to
be. So two scans of one tree at different places are described alike but for the name, the root and
the start of the paths, and neither is described if the manifests of the tree cannot be dealt with.
Trees with links are left out.
-/

namespace Synopsis

namespace Category

/-- The category of a file is told by the way to it from the root. -/
theorem ofPath_text_append (working : String) {place way : Location} (nonempty : way ≠ [])
    (names : ∀ name ∈ place ++ way, IsName name) :
    ofPath working (some (Location.text place)) (Location.text (place ++ way)) =
      ofPath "" none (Text.join "/" way) := by
  have below : belowRoot working (some (Location.text place)) (Location.text (place ++ way)) =
      belowRoot "" none (Text.join "/" way) := by
    simp only [belowRoot, Path.pure_text names, Path.relative?_text working nonempty names,
      Option.getD_some]
  have tested : isTest working (some (Location.text place)) (Location.text (place ++ way)) =
      isTest "" none (Text.join "/" way) := by
    rw [isTest, isTest, below, Path.fileName_text_append nonempty names]
  rw [ofPath, ofPath, tested, Path.suffix_text_append nonempty names,
    Path.fileName_text_append nonempty names]

/-- Renamed paths of the same categories are grouped alike. -/
theorem group_map {working working' : String} {root root' : Option String} {paths : List String}
    {f : String → String}
    (same : ∀ path ∈ paths, ofPath working root (f path) = ofPath working' root' path) :
    group working root (paths.map f) =
      (group working' root' paths).map fun (category, inside) => (category, inside.map f) := by
  rw [group, group, List.map_map]
  refine List.map_congr_left fun category _ => ?_
  have kept : paths.filter (fun path => ofPath working root (f path) == category) =
      paths.filter (fun path => ofPath working' root' path == category) :=
    List.filter_congr fun path h => by rw [same path h]
  rw [List.filter_map]
  exact congrArg (fun inside => (category, inside.map f)) kept

end Category

/-- The facts about a tree that is nowhere, told of a place at which it is. -/
def ProjectFacts.rootedAt (facts : ProjectFacts) (place : Location) : ProjectFacts :=
  { facts with
    name := place.getLast?.getD ""
    root := Location.text place
    files := facts.files.map (Location.pathTo place)
    categories := facts.categories.map fun (category, ways) =>
      (category, ways.map (Location.pathTo place)) }

namespace Project

/-- The manifests of a tree. -/
def manifestsOf (tree : Entry) : Manifests where
  package := tree.fileAt? [Manifest.packageName]
  requirements := tree.fileAt? [Manifest.requirementsName]
  project := tree.fileAt? [Manifest.projectName]

/-- The bytes of the file to which a way leads. -/
def sizeIn (tree : Entry) (way : String) : Nat :=
  ((tree.fileAt? (Path.segments way)).map ByteArray.size).getD 0

/-- The facts about a tree that is nowhere: it has no name, and its files are the ways to them. -/
def outline (tree : Entry) (ways : List String) : Except Fault ProjectFacts := do
  let dependencies ← lift .manifest (Manifest.dependencies (manifestsOf tree))
  let package ← lift .manifest (Manifest.packageFields (manifestsOf tree))
  let byExtension := tallies (ways.map extensionOf)
  return {
    name := ""
    root := ""
    files := ways
    total := ways.length
    byExtension := byExtension
    byDirectory := tallies (ways.map directoryOf)
    totalSize := ((ways.map (sizeIn tree)).foldl Nat.add 0 : Nat)
    categories := (Category.group "" none ways).map
      fun (category, inside) => (category.label, inside)
    directories := allDirectories ways
    depth := depthOf ways
    dependencies := dependencies
    entryPoints := entryPoints ways (Manifest.targets package)
    techStack := Stack.detect Stack.rules byExtension.names dependencies }

theorem lift_eq_ok_iff {ε α : Type} {wrap : ε → Fault} {result : Except ε α} {a : α} :
    lift wrap result = .ok a ↔ result = .ok a := by
  cases result with
  | error fault => exact ⟨nofun, nofun⟩
  | ok b =>
    constructor
    · rintro ⟨⟩
      rfl
    · rintro ⟨⟩
      rfl

/-- A tree is described exactly if its manifests can be dealt with. -/
theorem outline_ok_iff {tree : Entry} {ways : List String} :
    (∃ facts, outline tree ways = .ok facts) ↔ ¬ Manifest.Hindered (manifestsOf tree) := by
  constructor
  · rintro ⟨facts, described⟩
    obtain ⟨declared, told, -⟩ := bind_eq_ok.mp described
    exact Manifest.dependencies_ok_iff.mp ⟨declared, lift_eq_ok_iff.mp told⟩
  · intro unhindered
    obtain ⟨declared, told⟩ := Manifest.dependencies_ok_iff.mpr unhindered
    obtain ⟨fields?, read⟩ := Manifest.packageFields?_ok_iff.mpr fun bytes present deep =>
      unhindered (.package present deep)
    rw [outline, told, Manifest.packageFields, read]
    exact ⟨_, rfl⟩

theorem below?_append (root rest : Location) : below? root (root ++ rest) = some rest := by
  induction root with
  | nil => rfl
  | cons name root ih => rw [List.cons_append, below?, if_pos rfl, ih]

section File

variable {w : Workspace} {place : Location} {tree : Entry} {way : String}
  (holds : w.Holds place tree) (file : tree.HasFile way)
include holds file

theorem wayFrom_pathTo : wayFrom w place (Location.pathTo place way) = .ok way := by
  obtain ⟨path, bytes, rfl, nonempty, found⟩ := file
  rw [← Location.text_append place nonempty]
  -- The equation of `wayFrom` is slow to derive, since its proof looks into `resolve`.
  delta wayFrom
  rw [Path.pure_text (holds.names found), holds.resolve found]
  cases path with
  | nil => exact absurd rfl nonempty
  | cons name rest => simp only [below?_append]

theorem sizeOf_pathTo (isFolder : tree.isFolder = true) :
    sizeOf w (Location.pathTo place way) = .ok (sizeIn tree way) := by
  obtain ⟨path, bytes, rfl, nonempty, found⟩ := file
  have names : ∀ name ∈ path, IsName name := fun name h =>
    holds.names found name (List.mem_append_right _ h)
  rw [← Location.text_append place nonempty, sizeOf, holds.entryOf found isFolder, sizeIn,
    Path.segments_join nonempty names, Entry.fileAt?, found]
  rfl

theorem extensionOf_pathTo : extensionOf (Location.pathTo place way) = extensionOf way := by
  obtain ⟨path, bytes, rfl, nonempty, found⟩ := file
  rw [← Location.text_append place nonempty, extensionOf, extensionOf,
    Path.extension_text_append nonempty (holds.names found)]

theorem ofPath_pathTo (working : String) :
    Category.ofPath working (some (Location.text place)) (Location.pathTo place way) =
      Category.ofPath "" none way := by
  obtain ⟨path, bytes, rfl, nonempty, found⟩ := file
  rw [← Location.text_append place nonempty]
  exact Category.ofPath_text_append working nonempty (holds.names found)

end File

variable {w : Workspace} {place : Location} {tree : Entry} 

theorem manifestsIn_eq (holds : w.Holds place tree) (isFolder : tree.isFolder = true)
    (noLinks : tree.linkCount = 0) : manifestsIn w place = manifestsOf tree := by
  have package : IsName Manifest.packageName := by decide
  have requirements : IsName Manifest.requirementsName := by decide
  have project : IsName Manifest.projectName := by decide
  simp only [manifestsIn, manifestsOf, holds.contentOf isFolder noLinks package,
    holds.contentOf isFolder noLinks requirements, holds.contentOf isFolder noLinks project]

/-- The facts about a tree at a place are those about the tree, told of the place. -/
theorem facts_eq (holds : w.Holds place tree) (isFolder : tree.isFolder = true)
    (noLinks : tree.linkCount = 0) {ways : List String} (files : ∀ way ∈ ways, tree.HasFile way) :
    facts w place (ways.map (Location.pathTo place)) =
      (outline tree ways).map (·.rootedAt place) := by
  have found : (ways.map (Location.pathTo place)).mapM (wayFrom w place) = .ok (ways.map id) :=
    mapM_map_ok fun way h => wayFrom_pathTo holds (files way h)
  have sizes : (ways.map (Location.pathTo place)).mapM (sizeOf w) =
      .ok (ways.map (sizeIn tree)) :=
    mapM_map_ok fun way h => sizeOf_pathTo holds (files way h) isFolder
  have extensions : (ways.map (Location.pathTo place)).map extensionOf = ways.map extensionOf := by
    rw [List.map_map]
    apply List.map_congr_left
    intro way h
    rw [Function.comp_apply, extensionOf_pathTo holds (files way h)]
  have grouped := Category.group_map fun way h => ofPath_pathTo holds (files way h) w.workingText
  have manifests := manifestsIn_eq holds isFolder noLinks
  rw [List.map_id] at found
  rw [facts, outline, found, sizes, extensions, manifests]
  -- Both are told by what the manifests declare, and refused with them.
  simp only [lift, Except.mapError, bind, Except.bind, pure, Except.pure, grouped]
  cases Manifest.dependencies (manifestsOf tree) with
  | error fault => rfl
  | ok dependencies =>
    cases Manifest.packageFields (manifestsOf tree) with
    | error fault => rfl
    | ok package =>
      simp only [Except.map, ProjectFacts.rootedAt, List.length_map, List.map_map,
        Function.comp_def]

/-- A tree is described at a place exactly if its manifests can be dealt with. -/
theorem facts_ok_iff (holds : w.Holds place tree) (isFolder : tree.isFolder = true)
    (noLinks : tree.linkCount = 0) {ways : List String} (files : ∀ way ∈ ways, tree.HasFile way) :
    (∃ described, facts w place (ways.map (Location.pathTo place)) = .ok described) ↔
      ¬ Manifest.Hindered (manifestsOf tree) := by
  rw [facts_eq holds isFolder noLinks files, exists_map_ok]
  exact outline_ok_iff

/-- The same tree at two places is scanned and described alike: the ways to the files and their
order are the same, and so are the facts but for the name, the root and the start of the paths. Both
are described unless the manifests of the tree cannot be dealt with. -/
theorem copies_described_alike {w w' : Workspace} {root root' : String} {place place' : Location}
    {tree : Entry} (depth : Int) (ignored : List String) (isFolder : tree.isFolder = true)
    (noLinks : tree.linkCount = 0) (located : w.locate root = .ok place)
    (located' : w'.locate root' = .ok place') (holds : w.Holds place tree)
    (holds' : w'.Holds place' tree) :
    ∃ (ways : List String) (outcome : Except Fault ProjectFacts),
      w.scan root depth ignored = .ok (ways.map (Location.pathTo place)) ∧
      w'.scan root' depth ignored = .ok (ways.map (Location.pathTo place')) ∧
      facts w place (ways.map (Location.pathTo place)) = outcome.map (·.rootedAt place) ∧
      facts w' place' (ways.map (Location.pathTo place')) = outcome.map (·.rootedAt place') ∧
      ((∃ facts, outcome = .ok facts) ↔ ¬ Manifest.Hindered (manifestsOf tree)) := by
  have scanned := holds.scan isFolder noLinks located depth ignored
  have scanned' := holds'.scan isFolder noLinks located' depth ignored
  have files (way : String) 
      (h : way ∈ Scan.ways w.disk place (IgnoreRule.withDefaults ignored) depth) :
      tree.HasFile way := holds.hasFile_of_mem_ways isFolder noLinks h
  rw [← holds.ways_eq isFolder noLinks holds'] at scanned'
  exact ⟨_, outline tree _, scanned, scanned', facts_eq holds isFolder noLinks files,
    facts_eq holds' isFolder noLinks files, outline_ok_iff⟩

/-- A project with a hidden folder and a folder of tests. -/
def sampleTree : Entry :=
  .folder [("requirements.txt", .file "flask\n".toUTF8), ("a.js", .file .empty),
    (".hidden", .folder [("b.py", .file .empty)]), ("tests", .folder [("c.py", .file .empty)])]

/-- Two copies of it, the second one below folders that a scan would pass over and below tests. -/
def sampleCopies : Workspace :=
  { disk := .folder [("p", sampleTree), ("tests", .folder [("node_modules", .folder
      [(".hidden", .folder [("build", .folder [("q", sampleTree)])])])])] }

theorem copies_described_alike_sample :
    sampleTree.isFolder = true ∧ sampleTree.linkCount = 0 ∧
      sampleCopies.locate "/p" = .ok ["p"] ∧
      sampleCopies.locate "/tests/node_modules/.hidden/build/q" =
        .ok ["tests", "node_modules", ".hidden", "build", "q"] ∧
      sampleCopies.Holds ["p"] sampleTree ∧
      sampleCopies.Holds ["tests", "node_modules", ".hidden", "build", "q"] sampleTree ∧
      ∃ (ways : List String) (outcome : Except Fault ProjectFacts),
        sampleCopies.scan "/p" 3 ["*.txt"] = .ok (ways.map (Location.pathTo ["p"])) ∧
        sampleCopies.scan "/tests/node_modules/.hidden/build/q" 3 ["*.txt"] =
          .ok (ways.map (Location.pathTo ["tests", "node_modules", ".hidden", "build", "q"])) ∧
        facts sampleCopies ["p"] (ways.map (Location.pathTo ["p"])) =
          outcome.map (·.rootedAt ["p"]) ∧
        facts sampleCopies ["tests", "node_modules", ".hidden", "build", "q"]
            (ways.map (Location.pathTo ["tests", "node_modules", ".hidden", "build", "q"])) =
          outcome.map (·.rootedAt ["tests", "node_modules", ".hidden", "build", "q"]) ∧
        ((∃ facts, outcome = .ok facts) ↔ ¬ Manifest.Hindered (manifestsOf sampleTree)) := by
  have tree : sampleCopies.disk.IsTree := by
    simp only [sampleCopies, sampleTree, Entry.IsTree, Entry.AreTrees]
    decide
  have holds : sampleCopies.Holds ["p"] sampleTree := .of_at? tree rfl
  have holds' : sampleCopies.Holds ["tests", "node_modules", ".hidden", "build", "q"] sampleTree :=
    .of_at? tree rfl
  have located : sampleCopies.locate "/p" = .ok ["p"] := by decide +kernel
  have located' : sampleCopies.locate "/tests/node_modules/.hidden/build/q" =
      .ok ["tests", "node_modules", ".hidden", "build", "q"] := by decide +kernel
  exact ⟨rfl, rfl, located, located', holds, holds',
    copies_described_alike 3 ["*.txt"] rfl rfl located located' holds holds'⟩

/-- A project of one manifest, a project file with a numeral that is too long. -/
def onesTree : Entry :=
  .folder [(Manifest.projectName, .file ⟨(Manifest.onesField 4300).toArray⟩)]

/-- Two copies of it. -/
def onesCopies : Workspace := { disk := .folder [("p", onesTree), ("q", onesTree)] }

/-- A tree whose manifest has one numeral too many digits long is not described anywhere. -/
theorem onesCopies_undescribed :
    onesTree.isFolder = true ∧ onesTree.linkCount = 0 ∧
      onesCopies.locate "/p" = .ok ["p"] ∧ onesCopies.locate "/q" = .ok ["q"] ∧
      onesCopies.Holds ["p"] onesTree ∧ onesCopies.Holds ["q"] onesTree ∧
      ¬ ∃ files described, onesCopies.scan "/p" 10 [] = .ok files ∧
        facts onesCopies ["p"] files = .ok described := by
  have tree : onesCopies.disk.IsTree := by
    simp only [onesCopies, onesTree, Entry.IsTree, Entry.AreTrees]
    decide
  have holds : onesCopies.Holds ["p"] onesTree := .of_at? tree rfl
  have located : onesCopies.locate "/p" = .ok ["p"] := by decide +kernel
  have located' : onesCopies.locate "/q" = .ok ["q"] := by decide +kernel
  refine ⟨rfl, rfl, located, located', holds, .of_at? tree rfl, ?_⟩
  rintro ⟨files, described, scanned, told⟩
  rw [holds.scan rfl rfl located 10 []] at scanned
  cases scanned
  have hindered : Manifest.Hindered (manifestsOf onesTree) :=
    .project rfl rfl (Manifest.unwieldy_onesField (by decide))
  have files (way : String)
      (h : way ∈ Scan.ways onesCopies.disk ["p"] (IgnoreRule.withDefaults []) 10) :
      onesTree.HasFile way := holds.hasFile_of_mem_ways rfl rfl h
  exact (facts_ok_iff holds rfl rfl files).mp ⟨described, told⟩ hindered

end Project

end Synopsis
