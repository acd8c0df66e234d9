import Synopsis.Proofs.Output
import Synopsis.Proofs.Project.Counts
import Synopsis.Proofs.Scan.Copies

/-!
# Scanned files and where they lead

A scan names a file by the way on which it was found; a description names it by the place to which
that way leads. The two agree on every file that is no link, and on links that lead out of the
project. A link to another place of the project is described as that place, which may be deeper than
any scan and in a folder that the scan did not enter.
-/

namespace Synopsis

namespace Project

/-- The path leads to another place below the root. -/
def Astray (w : Workspace) (root path : Location) : Prop :=
  ∃ rest, Disk.resolve w.disk w.working (Location.text (root ++ path)) = .ok (root ++ rest) ∧
    rest ≠ path

variable {w : Workspace} {root path : Location} {rules : List IgnoreRule} {depth : Int}

/-- How a file at a way from the root is described: by its own way unless it leads astray, and by
the way to where it leads if that is below the root. -/
structure Seen (w : Workspace) (root : Location) (way seen : String) : Prop where
  own : ¬ Astray w root (Path.segments way) → seen = way
  led : ∀ rest, Disk.resolve w.disk w.working (Location.pathTo root way) = .ok (root ++ rest) →
    seen = if rest = [] then "." else Text.join "/" rest

theorem seen_of_wayFrom {seen : String} (nonempty : path ≠ [])
    (names : ∀ name ∈ root ++ path, IsName name)
    (found : wayFrom w root (Location.text (root ++ path)) = .ok seen) :
    Seen w root (Text.join "/" path) seen := by
  have inner : ∀ name ∈ path, IsName name := fun name h => names name (List.mem_append_right _ h)
  have textual : textualWay w root (Location.text (root ++ path)) = .ok (Text.join "/" path) := by
    rw [textualWay, Path.relative?_text w.workingText nonempty names]
    exact congrArg Except.ok (Path.pure_join nonempty inner)
  delta wayFrom at found
  rw [Path.pure_text names] at found
  constructor
  case led =>
    intro rest resolved
    rw [← Location.text_append root nonempty] at resolved
    rw [resolved] at found
    dsimp only at found
    rw [below?_append] at found
    cases rest with
    | nil => exact (Except.ok.inj found).symm
    | cons name rest => exact (Except.ok.inj found).symm
  case own =>
    intro stays
    rw [Path.segments_join nonempty inner] at stays
    cases resolved : Disk.resolve w.disk w.working (Location.text (root ++ path)) with
    | ok place =>
      rw [resolved] at found
      dsimp only at found
      cases below : below? root place with
      | none =>
        rw [below] at found
        exact Except.ok.inj (found.symm.trans textual)
      | some rest =>
        have leads := below?_eq_some_iff.mp below
        rw [leads] at resolved
        have same : rest = path := by
          by_contra other
          exact stays ⟨rest, resolved, other⟩
        subst same
        rw [below] at found
        cases rest with
        | nil => exact absurd rfl nonempty
        | cons name rest => exact (Except.ok.inj found).symm
    | error fault =>
      rw [resolved] at found
      rcases Disk.resolve_eq_error resolved with rfl | ⟨place, rfl⟩
      · exact Except.ok.inj (found.symm.trans textual)
      · cases found

/-- Only links lead astray from a root that leads to itself. -/
theorem link_of_astray (tree : w.disk.IsTree) (direct : Disk.Direct w.disk root)
    (folder : Scan.leadsToFolder w.disk root = true)
    (listed : Scan.Listed w.disk root rules depth path) (astray : Astray w root path) :
    ∃ target, w.disk.at? (root ++ path) = some (.link target) := by
  obtain ⟨found, entries, walked, here⟩ := Scan.opened?_of_leadsToFolder folder
  obtain rfl : found = root := Disk.walk_straight walked direct.named direct.straight
  obtain ⟨leaf, present⟩ := listed.at? tree walked here rfl
  by_contra noLink
  obtain ⟨rest, resolved, other⟩ := astray
  have isOwn (target : String) : leaf ≠ .link target := fun link => noLink ⟨target, link ▸ present⟩
  have names := (tree.at? present).1
  rw [Disk.resolve_text (Disk.direct_of_present tree present isOwn) w.working fun name h =>
    ⟨(names name h).no_slash, (names name h).no_null⟩] at resolved
  exact other (List.append_cancel_left (Except.ok.inj resolved)).symm

/-- The names of a root that is a folder, found from a place that is one. -/
theorem isName_of_located {text : String} (standing : w.Standing)
    (located : w.locate text = .ok root) (folder : Scan.leadsToFolder w.disk root = true) :
    ∀ name ∈ root, IsName name := by
  obtain ⟨found, entries, walked, -⟩ := Scan.opened?_of_leadsToFolder folder
  obtain ⟨inside, here⟩ := standing.folder
  have working := Disk.direct_of_present standing.tree here nofun
  obtain ⟨path, -, resolved⟩ := bind_eq_ok.mp located
  intro name inRoot
  obtain ⟨empty, dot, dots⟩ := Disk.leadsOn_of_resolve working resolved name inRoot
  rcases Disk.names_of_walk standing.tree walked name inRoot with h | h | h | own
  · exact absurd h empty
  · exact absurd h dot
  · exact absurd h dots
  · exact own

/-- The names on the way to a listed file are those of entries. -/
theorem isName_of_listed (tree : w.disk.IsTree) (folder : Scan.leadsToFolder w.disk root = true)
    (listed : Scan.Listed w.disk root rules depth path) : ∀ name ∈ path, IsName name := by
  obtain ⟨found, entries, walked, here⟩ := Scan.opened?_of_leadsToFolder folder
  obtain ⟨leaf, present⟩ := listed.at? tree walked here rfl
  exact fun name h => (tree.at? present).1 name (List.mem_append_right _ h)

/-! ## Descriptions by ways -/

theorem mem_allDirectories {ways : List String} {directory : String} :
    directory ∈ allDirectories ways ↔ ∃ way ∈ ways, directory ∈ directoriesOf way := by
  rw [allDirectories, Scan.sorted, (sortBy_perm _).mem_iff, List.mem_eraseDups, List.mem_flatMap]

/-- The directories of a way are spelled by the names before its last one. -/
theorem mem_directoriesOf {way directory : String} : directory ∈ directoriesOf way ↔
    ∃ front rest : Location, front ≠ [] ∧ rest ≠ [] ∧ Path.segments way = front ++ rest ∧
      directory = Text.join "/" front := by
  constructor
  · intro h
    obtain ⟨n, inside, rfl⟩ := List.mem_map.mp h
    have fewer := List.mem_range.mp inside
    refine ⟨(Path.segments way).take (n + 1), (Path.segments way).drop (n + 1), ?_, ?_,
      (List.take_append_drop _ _).symm, rfl⟩
    · intro empty
      have length := congrArg List.length empty
      rw [List.length_take, List.length_nil] at length
      omega
    · rw [Ne, List.drop_eq_nil_iff]
      omega
  · rintro ⟨front, rest, frontNonempty, restNonempty, segments, rfl⟩
    have frontLength := List.length_pos_iff.mpr frontNonempty
    have restLength := List.length_pos_iff.mpr restNonempty
    refine List.mem_map.mpr ⟨front.length - 1, List.mem_range.mpr ?_, ?_⟩
    · rw [segments, List.length_append]
      omega
    · rw [segments, Nat.sub_add_cancel frontLength, List.take_left]

theorem mem_entryPoints {ways targets : List String} {name : String}
    (usual : name ∈ usualEntryPoints) (h : name ∈ ways) : name ∈ entryPoints ways targets := by
  rw [entryPoints, List.mem_eraseDups]
  refine List.mem_append_left _ (List.mem_filter.mpr ⟨usual, ?_⟩)
  exact List.contains_iff_mem.mpr h

/-- The facts describe the files by these ways: its depth is that of the longest one, its
directories are what they start with, and files are counted by their first names. -/
structure DescribedBy (seen : List String) (outcome : ProjectFacts) : Prop where
  depth : ∀ bound : Nat, outcome.depth ≤ bound ↔ ∀ way ∈ seen, (Path.segments way).length ≤ bound
  directories : ∀ directory, directory ∈ outcome.directories ↔
    ∃ way ∈ seen, ∃ front rest : Location,
      front ≠ [] ∧ rest ≠ [] ∧ Path.segments way = front ++ rest ∧ directory = Text.join "/" front
  byDirectory : ∀ name, (Table.get? name outcome.byDirectory).getD 0 =
    seen.countP fun way => directoryOf way == name
  entryPoints : ∀ name ∈ usualEntryPoints, name ∈ seen → name ∈ outcome.entryPoints

theorem describedBy_compose {files seen : List String} {sizes : List Nat} {declared : Dependencies}
    {package : Table Datum} :
      DescribedBy seen (compose w root files seen sizes declared package) where
  depth bound := Int.ofNat_le.trans depthOf_le_iff
  directories directory := by
    rw [compose, mem_allDirectories]
    simp only [mem_directoriesOf]
  byDirectory name := by
    rw [compose, getD_get?_tallies, List.count, List.countP_map]
    rfl
  entryPoints := fun _ usual h => mem_entryPoints usual h

/-- A way to a scanned file. -/
structure IsWay (w : Workspace) (root : Location) (rules : List IgnoreRule) (depth : Int)
    (way : String) : Prop where
  listed : Scan.Listed w.disk root rules depth (Path.segments way)
  names : ∀ name ∈ Path.segments way, IsName name
  spelled : way = Text.join "/" (Path.segments way)
  /-- Only a link leads astray from a root that leads to itself. -/
  link : Disk.Direct w.disk root → Astray w root (Path.segments way) →
    ∃ target, w.disk.at? (root ++ Path.segments way) = some (.link target)

theorem isWay_of_listed (tree : w.disk.IsTree) (folder : Scan.leadsToFolder w.disk root = true)
    (listed : Scan.Listed w.disk root rules depth path) :
    IsWay w root rules depth (Text.join "/" path) := by
  have names := isName_of_listed tree folder listed
  have segments := Path.segments_join listed.nonempty names
  refine ⟨?_, ?_, ?_, fun direct => ?_⟩
  · rwa [segments]
  · rwa [segments]
  · rw [segments]
  · rw [segments]
    exact link_of_astray tree direct folder listed

/-- The ways on which a scan finds files below its root. -/
theorem scanned_ways {text : String} {ignored files : List String} (standing : w.Standing)
    (located : w.locate text = .ok root) (folder : Scan.leadsToFolder w.disk root = true)
    (scanned : w.scan text depth ignored = .ok files) :
    ∃ ways : List String, files = ways.map (Location.pathTo root) ∧
      ∀ way ∈ ways, IsWay w root (IgnoreRule.withDefaults ignored) depth way := by
  rw [Workspace.scan, Workspace.scanRoot_of_folder standing.tree located folder] at scanned
  have listed (path : Location)
      (h : path ∈ Scan.paths w.disk root (IgnoreRule.withDefaults ignored) depth) :
      Scan.Listed w.disk root (IgnoreRule.withDefaults ignored) depth path :=
    (Scan.mem_paths standing.tree folder).mp h
  refine ⟨Scan.ways w.disk root (IgnoreRule.withDefaults ignored) depth, ?_, fun way h => ?_⟩
  · rw [← Scan.files_eq fun path h => (listed path h).nonempty]
    exact (Except.ok.inj scanned).symm
  · obtain ⟨path, hpath, rfl⟩ := List.mem_map.mp ((sortBy_perm _).mem_iff.mp h)
    exact isWay_of_listed standing.tree folder (listed path hpath)

/-- A description tells of scanned files by the ways on which they were found, but
for those that lead astray: these are links to other places of the project, and told
of by the ways to these places. -/
theorem scanned_described {text : String} {ignored files : List String} {outcome : ProjectFacts}
    (standing : w.Standing) (located : w.locate text = .ok root)
    (folder : Scan.leadsToFolder w.disk root = true)
    (scanned : w.scan text depth ignored = .ok files)
    (described : facts w root files = .ok outcome) :
    ∃ ways seen : List String, files = ways.map (Location.pathTo root) ∧
      (∀ way ∈ ways, IsWay w root (IgnoreRule.withDefaults ignored) depth way) ∧
      List.Forall₂ (Seen w root) ways seen ∧ DescribedBy seen outcome ∧
      ((∀ way ∈ ways, ¬ Astray w root (Path.segments way)) →
        DescribedBy ways outcome ∧ outcome.depth ≤ max depth 1) := by
  obtain ⟨ways, rfl, areWays⟩ := scanned_ways standing located folder scanned
  obtain ⟨seen, sizes, declared, package, found, -, -, -, rfl⟩ := facts_eq_ok_iff.mp described
  have rootNames := isName_of_located standing located folder
  have each := (List.forall₂_and_left ways seen).mpr
    ⟨areWays, List.forall₂_map_left_iff.mp (forall₂_of_mapM_ok found)⟩
  have agree : List.Forall₂ (Seen w root) ways seen := by
    refine each.imp fun way result both => ?_
    obtain ⟨isWay, found⟩ := both
    have names : ∀ name ∈ root ++ Path.segments way, IsName name := fun name inside =>
      (List.mem_append.mp inside).elim (rootNames name) (isWay.names name)
    rw [isWay.spelled, ← Location.text_append root isWay.listed.nonempty] at found
    exact isWay.spelled ▸ seen_of_wayFrom isWay.listed.nonempty names found
  refine ⟨ways, seen, rfl, areWays, agree, describedBy_compose, fun stay => ?_⟩
  have same : List.Forall₂ Eq ways seen :=
    ((List.forall₂_and_left ways seen).mpr ⟨stay, agree⟩).imp fun way result both =>
      (both.2.own both.1).symm
  rw [List.forall₂_eq_eq_eq] at same
  subst same
  have describedBy :
      DescribedBy ways (compose w root (ways.map (Location.pathTo root)) ways sizes declared
    package) := describedBy_compose
  refine ⟨describedBy, ?_⟩
  have bound := (describedBy.depth (max depth 1).toNat).mpr fun way h => by
    have within := (areWays way h).listed.within
    omega
  omega

/-- A project with a link beside a folder, and a file outside. -/
def linkedProject (target : String) : Workspace :=
  { disk := .folder [("p", .folder [("index.js", .link target),
      ("lib", .folder [("deep", .folder [("x.js", .file .empty)])])]), ("q.js", .file .empty)] }

theorem standing_linkedProject (target : String) : (linkedProject target).Standing := by
  refine ⟨?_, _, rfl⟩
  simp only [linkedProject, Entry.IsTree, Entry.AreTrees, List.map_cons, List.map_nil]
  decide

/-- With a link out of it the project is described by the ways to its files. -/
theorem scanned_described_linkedProject :
    let w := linkedProject "/q.js"
    w.Standing ∧ w.locate "/p" = .ok ["p"] ∧ Scan.leadsToFolder w.disk ["p"] = true ∧
      w.scan "/p" 1 [] = .ok ["/p/index.js"] ∧
      ∃ outcome, facts w ["p"] ["/p/index.js"] = .ok outcome ∧
        ∃ ways : List String, ["/p/index.js"] = ways.map (Location.pathTo ["p"]) ∧
          DescribedBy ways outcome ∧ outcome.depth ≤ max 1 1 := by
  intro w
  have standing : w.Standing := standing_linkedProject "/q.js"
  have located : w.locate "/p" = .ok ["p"] := by decide +kernel
  have folder : Scan.leadsToFolder w.disk ["p"] = true := by decide +kernel
  have scanned : w.scan "/p" 1 [] = .ok ["/p/index.js"] := by decide +kernel
  have outside : Disk.resolve w.disk w.working "/p/index.js" = .ok ["q.js"] := by decide +kernel
  have succeeds : (facts w ["p"] ["/p/index.js"]).isOk = true := by decide +kernel
  cases described : facts w ["p"] ["/p/index.js"] with
  | error fault =>
    rw [described] at succeeds
    cases succeeds
  | ok outcome =>
    obtain ⟨ways, seen, files, areWays, -, -, faithful⟩ :=
      scanned_described standing located folder scanned described
    refine ⟨standing, located, folder, scanned, outcome, rfl, ways, files, faithful ?_⟩
    rintro way h ⟨rest, resolved, -⟩
    have path : Location.pathTo ["p"] way = "/p/index.js" := by
      have inside := List.mem_map_of_mem (f := Location.pathTo ["p"]) h
      rwa [← files, List.mem_singleton] at inside
    rw [Location.text_append _ (areWays way h).listed.nonempty, ← (areWays way h).spelled, path,
      outside] at resolved
    exact absurd (Except.ok.inj resolved) (by simp)

/-- With a link to a place inside, the one file that a scan of depth one finds is described as
another one, three names deep and in a folder that was not scanned, and it is no entry point. -/
theorem linkedProject_described_elsewhere :
    let w := linkedProject "lib/deep/x.js"
    w.scan "/p" 1 [] = .ok ["/p/index.js"] ∧
      (facts w ["p"] ["/p/index.js"]).toOption.map (fun outcome =>
        (outcome.depth, outcome.directories, outcome.byDirectory, outcome.entryPoints)) =
          some (3, ["lib", "lib/deep"], [("lib", 1)], []) := by
  constructor
  · decide +kernel
  · decide +kernel

end Project

end Synopsis
