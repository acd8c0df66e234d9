import Synopsis.Proofs.Disk.Tree
import Synopsis.Proofs.IgnoreRule
import Synopsis.Scan

/-!
# Rules held against last names

A rule that is neither anchored nor has a slash is held against every segment of a path. A scan
could hold it against the last one alone: the other segments are names of folders on the way, and
each of them was the last one when the scan came to that folder and went in. On a single path the
two tests differ; only along a scan do they agree. Rules of other forms are held against paths as
before.
-/

namespace Synopsis

namespace IgnoreRule

/-- As `excludes`, but a rule that is neither anchored nor has a slash is held against the last
segment of the path alone. -/
def excludesLast (rule : IgnoreRule) (path : String) (isDirectory : Bool) : Bool :=
  if rule.anchored || rule.hasSlash then rule.excludes path isDirectory
  else if rule.pattern == "" then false
  else if rule.directoryOnly && !isDirectory then false
  else Glob.fits rule.pattern (Path.baseName path)

example : IgnoreRule.excludes ⟨"gen", false, false, false, false⟩ "gen/a.js" false = true ∧
    IgnoreRule.excludesLast ⟨"gen", false, false, false, false⟩ "gen/a.js" false = false := by
  decide +kernel

/-- A rule for single names that has passed a name does not fit it. -/
def Passes (rule : IgnoreRule) (name : String) : Prop :=
  rule.anchored = false → rule.hasSlash = false → rule.pattern ≠ "" →
    Glob.fits rule.pattern name = false

section Concat

variable {rule : IgnoreRule} {above : Location} {name : String}
  (noSlash : ∀ other ∈ above ++ [name], '/' ∉ other.toList)
include noSlash

theorem segments_concat : Path.segments (Text.join "/" (above ++ [name])) = above ++ [name] :=
  Text.splitOn_join (by simp) noSlash

theorem baseName_concat : Path.baseName (Text.join "/" (above ++ [name])) = name := by
  rw [Path.baseName, segments_concat noSlash, List.getLast?_concat, Option.getD_some]

/-- A rule that has passed all names above the last one may be held against the last one alone. -/
theorem excludesLast_concat (passed : ∀ other ∈ above, rule.Passes other) (isDirectory : Bool) :
    rule.excludesLast (Text.join "/" (above ++ [name])) isDirectory =
      rule.excludes (Text.join "/" (above ++ [name])) isDirectory := by
  unfold excludesLast
  rw [baseName_concat noSlash]
  cases anchored : rule.anchored with
  | true => rfl
  | false =>
    cases slash : rule.hasSlash with
    | true => rfl
    | false =>
      by_cases empty : rule.pattern = ""
      · simp [excludes_eq, empty]
      · have none : above.any (Glob.fits rule.pattern) = false := by
          rw [List.any_eq_false]
          intro other h
          simp [passed other h anchored slash empty]
        by_cases barred : (rule.directoryOnly && !isDirectory) = true
        · simp [excludes_eq, barred]
        · simp [excludes_eq, empty, barred, targets, anchored, slash, segments_concat noSlash, none]

/-- A rule that does not exclude a folder by its name passes the name. -/
theorem passes_of_excludesLast
    (kept : rule.excludesLast (Text.join "/" (above ++ [name])) true = false) :
    rule.Passes name := by
  intro anchored slash named
  simpa [excludesLast, anchored, slash, named, baseName_concat noSlash] using kept

end Concat

end IgnoreRule

namespace Scan

/-- As `excluded`, with rules for single names held against the last name of the path. -/
def excludedByLast (rules : List IgnoreRule) (path : Location) (isFolder : Bool) : Bool :=
  rules.any fun rule => rule.excludesLast (Text.join "/" path) isFolder

mutual
/-- What `filesIn` finds with any test in place of the rules. -/
def filesInBy (out : Location → Bool → Bool) (disk : Entry) (root : Location) (depth : Nat)
    (path : Location) : Entry → List Location
  | .folder entries =>
    if depth == 0 || out path true then [] else filesOfBy out disk root depth path entries
  | .file _ => if out path false then [] else [path]
  | .link _ => if leadsToFolder disk (root ++ path) || out path false then [] else [path]

/-- What `filesOf` finds with any test in place of the rules. -/
def filesOfBy (out : Location → Bool → Bool) (disk : Entry) (root : Location) (depth : Nat)
    (path : Location) : List (String × Entry) → List Location
  | [] => []
  | (name, entry) :: rest =>
    (if isHidden name || depth == 0 then []
      else filesInBy out disk root (depth - 1) (path ++ [name]) entry) ++
      filesOfBy out disk root depth path rest
end

/-- What `paths` finds with any test in place of the rules. -/
def pathsBy (out : Location → Bool → Bool) (disk : Entry) (root : Location) (depth : Int) :
    List Location :=
  match Disk.opened? disk root with
  | some (.folder entries) => filesOfBy out disk root (max depth 1).toNat [] entries
  | _ => []

/-- What `files` finds with any test in place of the rules. -/
def filesBy (out : Location → Bool → Bool) (disk : Entry) (root : Location) (depth : Int) :
    List String :=
  sorted ((pathsBy out disk root depth).map fun path => Location.text (root ++ path))

section Tests

variable (disk : Entry) (root : Location)

mutual
/-- With the rules for a test, the same is found. -/
theorem filesInBy_excluded (rules : List IgnoreRule) (depth : Nat) (path : Location)
    (entry : Entry) : filesInBy (excluded rules) disk root depth path entry =
      filesIn disk root rules depth path entry := by
  cases entry with
  | folder entries => rw [filesInBy, filesIn, filesOfBy_excluded rules depth path entries]
  | file bytes => rw [filesInBy, filesIn]
  | link target => rw [filesInBy, filesIn]

theorem filesOfBy_excluded (rules : List IgnoreRule) (depth : Nat) (path : Location)
    (entries : List (String × Entry)) : filesOfBy (excluded rules) disk root depth path entries =
      filesOf disk root rules depth path entries := by
  match entries with
  | [] => rw [filesOfBy, filesOf]
  | (name, entry) :: rest =>
    rw [filesOfBy, filesOf, filesInBy_excluded rules (depth - 1) (path ++ [name]) entry,
      filesOfBy_excluded rules depth path rest]
end

theorem filesBy_excluded (rules : List IgnoreRule) (depth : Int) :
    filesBy (excluded rules) disk root depth = files disk root rules depth := by
  have same : pathsBy (excluded rules) disk root depth = paths disk root rules depth := by
    unfold pathsBy paths
    cases Disk.opened? disk root with
    | none => rfl
    | some top =>
      cases top with
      | folder entries => exact filesOfBy_excluded disk root rules _ [] entries
      | file bytes => rfl
      | link target => rfl
  rw [filesBy, files, same]

end Tests

/-- Two tests agree on what is in a folder if the first one lets a scan come down to that folder. -/
structure AgreeBelow (Entered : Location → Prop) (out out' : Location → Bool → Bool) : Prop where
  agree : ∀ path name, Entered path → IsName name → ∀ isFolder,
    out (path ++ [name]) isFolder = out' (path ++ [name]) isFolder
  enter : ∀ path name, Entered path → IsName name → out (path ++ [name]) true = false →
    Entered (path ++ [name])

section Agreement

variable {disk : Entry} {root : Location} {Entered : Location → Prop}
  {out out' : Location → Bool → Bool}

mutual
theorem filesInBy_congr (tests : AgreeBelow Entered out out') {depth : Nat} {path : Location}
    {name : String} {entry : Entry} (isName : IsName name) (tree : entry.IsTree)
    (entered : Entered path) :
    filesInBy out disk root depth (path ++ [name]) entry =
      filesInBy out' disk root depth (path ++ [name]) entry := by
  have same := tests.agree path name entered isName
  cases entry with
  | folder entries =>
    rw [filesInBy, filesInBy, ← same true]
    cases inside : out (path ++ [name]) true with
    | true => simp
    | false => rw [filesOfBy_congr tests tree.2 (tests.enter path name entered isName inside)]
  | file bytes => rw [filesInBy, filesInBy, same false]
  | link target => rw [filesInBy, filesInBy, same false]

theorem filesOfBy_congr (tests : AgreeBelow Entered out out') {depth : Nat} {path : Location}
    {entries : List (String × Entry)} (trees : Entry.AreTrees entries) (entered : Entered path) :
    filesOfBy out disk root depth path entries = filesOfBy out' disk root depth path entries := by
  match entries with
  | [] => rw [filesOfBy, filesOfBy]
  | (name, entry) :: rest =>
    rw [filesOfBy, filesOfBy, filesInBy_congr tests trees.1 trees.2.1 entered,
      filesOfBy_congr tests trees.2.2 entered]
end

theorem filesBy_congr (tests : AgreeBelow Entered out out') (tree : disk.IsTree)
    (started : Entered []) (depth : Int) :
    filesBy out disk root depth = filesBy out' disk root depth := by
  have same : pathsBy out disk root depth = pathsBy out' disk root depth := by
    unfold pathsBy
    split
    · rename_i entries opened
      exact filesOfBy_congr tests (Disk.isTree_of_opened? tree opened).2 started
    · rfl
  rw [filesBy, filesBy, same]

end Agreement

/-- The rules for single names have passed all names of the path. -/
def Passed (rules : List IgnoreRule) (path : Location) : Prop :=
  (∀ name ∈ path, IsName name) ∧ ∀ rule ∈ rules, ∀ name ∈ path, rule.Passes name

/-- Where the rules have passed all names above, the last name alone decides. -/
theorem agreeBelow_passed (rules : List IgnoreRule) :
    AgreeBelow (Passed rules) (excludedByLast rules) (excluded rules) := by
  have noSlash {path : Location} {name : String} (passed : Passed rules path)
      (isName : IsName name) : ∀ other ∈ path ++ [name], '/' ∉ other.toList := by
    intro other h
    rcases List.mem_append.mp h with h | h
    · exact (passed.1 other h).no_slash
    · cases List.mem_singleton.mp h
      exact isName.no_slash
  constructor
  · intro path name passed isName isFolder
    rw [excludedByLast, excluded, Bool.eq_iff_iff, List.any_eq_true, List.any_eq_true]
    refine exists_congr fun rule => and_congr_right fun given => ?_
    rw [IgnoreRule.excludesLast_concat (noSlash passed isName) (passed.2 rule given)]
  · intro path name passed isName kept
    refine ⟨fun other h => ?_, fun rule given other h => ?_⟩
    · rcases List.mem_append.mp h with h | h
      · exact passed.1 other h
      · cases List.mem_singleton.mp h
        exact isName
    · rcases List.mem_append.mp h with h | h
      · exact passed.2 rule given other h
      · cases List.mem_singleton.mp h
        have ofRule := List.any_eq_false.mp kept rule given
        exact IgnoreRule.passes_of_excludesLast (noSlash passed isName) (by simpa using ofRule)

end Scan

namespace Workspace

/-- A scan with any test that comes from the rules. -/
def scanBy (test : List IgnoreRule → Location → Bool → Bool) (w : Workspace) (root : String)
    (depth : Int) (ignored : List String) : Except Scan.Fault (List String) :=
  (w.scanRoot root).map fun place =>
    Scan.filesBy (test (IgnoreRule.withDefaults ignored)) w.disk place depth

theorem scanBy_excluded (w : Workspace) (root : String) (depth : Int) (ignored : List String) :
    w.scanBy Scan.excluded root depth ignored = w.scan root depth ignored := by
  rw [scanBy, scan]
  refine congrArg (Except.map · (w.scanRoot root)) (funext fun place => ?_)
  exact Scan.filesBy_excluded w.disk place _ depth

/-- A scan gives the same if it holds every rule that is neither anchored nor has a slash against
the last name of a path alone. -/
theorem scan_by_last_name {w : Workspace} (tree : w.disk.IsTree) (root : String) (depth : Int)
    (ignored : List String) :
    w.scanBy Scan.excluded root depth ignored = w.scan root depth ignored ∧
      w.scanBy Scan.excludedByLast root depth ignored = w.scan root depth ignored := by
  have same := scanBy_excluded w root depth ignored
  refine ⟨same, ?_⟩
  rw [← same, scanBy, scanBy]
  refine congrArg (Except.map · (w.scanRoot root)) (funext fun place => ?_)
  have started : Scan.Passed (IgnoreRule.withDefaults ignored) [] := ⟨by simp, by simp⟩
  exact Scan.filesBy_congr (Scan.agreeBelow_passed _) tree started depth

/-- A project with an excluded folder at the top and one further down, and files beside them. -/
def generatedProject : Workspace :=
  { disk := .folder [("p", .folder [("gen", .folder [("a.js", .file .empty)]),
      ("src", .folder [("gen", .folder [("b.js", .file .empty)]), ("gen.js", .file .empty),
        ("main.js", .file .empty)])])] }

theorem scan_by_last_name_generatedProject :
    generatedProject.disk.IsTree ∧
      (generatedProject.scan "/p" 10 ["gen"]).toOption =
        some ["/p/src/gen.js", "/p/src/main.js"] ∧
      generatedProject.scanBy Scan.excludedByLast "/p" 10 ["gen"] =
        generatedProject.scan "/p" 10 ["gen"] := by
  have tree : generatedProject.disk.IsTree := by
    simp only [generatedProject, Entry.IsTree, Entry.AreTrees]
    decide
  exact ⟨tree, by decide +kernel, (scan_by_last_name tree "/p" 10 ["gen"]).2⟩

end Workspace

end Synopsis
