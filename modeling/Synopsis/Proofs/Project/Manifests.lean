import Synopsis.Project
import Synopsis.Proofs.Manifest

/-!
# Which manifest decides

A project may have several manifests. The package description decides if it holds the fields of one,
even none of them; else the list of requirements if it is a text; else the project file if there is
one, whatever it holds; else nothing is declared. What is declared is what the deciding manifest
declares alone: those after it are not looked at, and of those before it nothing counts but that
they are passed over.
-/

namespace Synopsis

namespace Manifest

variable {manifests : Manifests} {bytes : ByteArray}

/-- Bytes that hold the fields of a package description. -/
def Describing (bytes : ByteArray) : Prop :=
  ∃ text fields, Text.ofFile bytes = .ok text ∧ Json.parse text = .ok (.table fields)

theorem packageFields?_eq_some_iff {fields : Table Datum} :
    packageFields? manifests = .ok (some fields) ↔ ∃ bytes text, manifests.package = some bytes ∧
      Text.ofFile bytes = .ok text ∧ Json.parse text = .ok (.table fields) := by
  constructor
  · intro read
    unfold packageFields? at read
    split at read
    · rename_i text decoded
      obtain ⟨bytes, present, decoded⟩ := Option.map_eq_some_iff.mp decoded
      split at read
      · rename_i parsed
        cases read
        exact ⟨bytes, text, present, decoded, parsed⟩
      · cases read
      · split at read <;> cases read
    · cases read
  · rintro ⟨bytes, text, present, decoded, parsed⟩
    simp only [packageFields?, present, Option.map_some, decoded, parsed]

/-- A package description counts as missing exactly if it neither holds the fields of one nor is
nested too deeply. -/
theorem packageFields?_eq_none_iff : packageFields? manifests = .ok none ↔
    ∀ bytes, manifests.package = some bytes → ¬ Describing bytes ∧ ¬ DeepPackage bytes := by
  constructor
  · intro missing bytes present
    refine ⟨?_, packageFields?_ok_iff.mp ⟨none, missing⟩ bytes present⟩
    rintro ⟨text, fields, decoded, parsed⟩
    have read := packageFields?_eq_some_iff.mpr ⟨bytes, text, present, decoded, parsed⟩
    cases missing.symm.trans read
  · intro passed
    obtain ⟨fields?, read⟩ := packageFields?_ok_iff.mpr fun bytes present =>
      (passed bytes present).2
    cases fields? with
    | none => exact read
    | some fields =>
      obtain ⟨bytes, text, present, decoded, parsed⟩ := packageFields?_eq_some_iff.mp read
      exact absurd ⟨text, fields, decoded, parsed⟩ (passed bytes present).1

theorem ofRequirements?_eq_some_iff {declared : Dependencies} :
    ofRequirements? manifests = some declared ↔ ∃ bytes text,
      manifests.requirements = some bytes ∧ Text.ofFile bytes = .ok text ∧
      declared = { manager := some "pip", production := requirements text } := by
  constructor
  · intro listed
    unfold ofRequirements? at listed
    split at listed
    · rename_i text decoded
      obtain ⟨bytes, present, decoded⟩ := Option.map_eq_some_iff.mp decoded
      cases listed
      exact ⟨bytes, text, present, decoded, rfl⟩
    · cases listed
  · rintro ⟨bytes, text, present, decoded, rfl⟩
    simp only [ofRequirements?, present, Option.map_some, decoded]

theorem dependencies_of_described {text : String} {fields : Table Datum}
    (present : manifests.package = some bytes) (decoded : Text.ofFile bytes = .ok text)
    (parsed : Json.parse text = .ok (.table fields)) :
    dependencies manifests = .ok (ofPackage fields) := by
  have read := packageFields?_eq_some_iff.mpr ⟨bytes, text, present, decoded, parsed⟩
  rw [dependencies, read]

theorem dependencies_of_listed {text : String} (missing : packageFields? manifests = .ok none)
    (present : manifests.requirements = some bytes) (decoded : Text.ofFile bytes = .ok text) :
    dependencies manifests = .ok { manager := some "pip", production := requirements text } := by
  have listed := ofRequirements?_eq_some_iff.mpr ⟨bytes, text, present, decoded, rfl⟩
  rw [dependencies, missing, listed]

theorem ofRequirements?_eq_none_iff : ofRequirements? manifests = none ↔
    ∀ bytes text, manifests.requirements = some bytes → Text.ofFile bytes ≠ .ok text := by
  constructor
  · intro unlisted bytes text present decoded
    have listed := ofRequirements?_eq_some_iff.mpr ⟨bytes, text, present, decoded, rfl⟩
    cases unlisted.symm.trans listed
  · intro undecoded
    cases listed : ofRequirements? manifests with
    | none => rfl
    | some declared =>
      obtain ⟨bytes, text, present, decoded, -⟩ := ofRequirements?_eq_some_iff.mp listed
      exact absurd decoded (undecoded bytes text present)

/-- A project file that declares something declares it for the same manager, whatever it holds. -/
theorem manager_of_ofProject {declared : Dependencies} (h : ofProject bytes = .ok declared) :
    declared.manager = some "poetry/pip" := by
  unfold ofProject at h
  split at h
  · cases h
  · cases h
    rfl
  · obtain ⟨production, -, h⟩ := bind_eq_ok.mp h
    obtain ⟨development, -, h⟩ := bind_eq_ok.mp h
    cases h
    rfl

end Manifest

namespace Project

open Manifest (Describing DeepPackage dependencies packageFields? ofRequirements? packageName
  requirementsName projectName)

/-- The root has a file of the name that holds the bytes. -/
def Kept (w : Workspace) (root : Location) (name : String) (bytes : ByteArray) : Prop :=
  w.contentOf (Location.text (root ++ [name])) = .ok bytes

/-- The package description of the root holds the fields of one. -/
def HasPackage (w : Workspace) (root : Location) : Prop :=
  ∃ bytes, Kept w root packageName bytes ∧ Describing bytes

/-- The list of requirements of the root is a text. -/
def HasRequirements (w : Workspace) (root : Location) : Prop :=
  ∃ bytes text, Kept w root requirementsName bytes ∧ Text.ofFile bytes = .ok text

/-- The root has a project file. -/
def HasProject (w : Workspace) (root : Location) : Prop :=
  ∃ bytes, Kept w root projectName bytes

/-- The package description of the root is passed over: what is there, if something is, neither
holds the fields of one nor is nested so deeply that it is refused. -/
def PackagePassed (w : Workspace) (root : Location) : Prop :=
  ∀ bytes, Kept w root packageName bytes → ¬ Describing bytes ∧ ¬ DeepPackage bytes

/-- The manifest that decides, with its bytes. -/
inductive Winner where
  | package (bytes : ByteArray)
  | requirements (bytes : ByteArray)
  | project (bytes : ByteArray)
  | nothing

/-- The manifest that decides and no other. -/
def Winner.alone : Winner → Manifests
  | .package bytes => { package := some bytes }
  | .requirements bytes => { requirements := some bytes }
  | .project bytes => { project := some bytes }
  | .nothing => {}

/-- The manager that a manifest is written for. -/
def Winner.manager : Winner → Option String
  | .package _ => some "npm"
  | .requirements _ => some "pip"
  | .project _ => some "poetry/pip"
  | .nothing => none

/-- A manifest decides in a root. Nothing is asked of the manifests that come after it. -/
inductive Decides (w : Workspace) (root : Location) : Winner → Prop
  | package {bytes : ByteArray} : Kept w root packageName bytes → Describing bytes →
      Decides w root (.package bytes)
  | requirements {bytes : ByteArray} {text : String} : PackagePassed w root →
      Kept w root requirementsName bytes → Text.ofFile bytes = .ok text →
      Decides w root (.requirements bytes)
  | project {bytes : ByteArray} : PackagePassed w root → ¬ HasRequirements w root →
      Kept w root projectName bytes → Decides w root (.project bytes)
  | nothing : PackagePassed w root → ¬ HasRequirements w root → ¬ HasProject w root →
      Decides w root .nothing

/-- The manager of a root is that of its first manifest, and what is declared there is declared
wherever the same manifest decides. -/
structure DecidedByFirst (w : Workspace) (root : Location) (declared : Dependencies) : Prop where
  npm : declared.manager = some "npm" ↔ HasPackage w root
  pip : declared.manager = some "pip" ↔ ¬ HasPackage w root ∧ HasRequirements w root
  poetry : declared.manager = some "poetry/pip" ↔
    ¬ HasPackage w root ∧ ¬ HasRequirements w root ∧ HasProject w root
  unmanaged : declared.manager = none ↔
    ¬ HasPackage w root ∧ ¬ HasRequirements w root ∧ ¬ HasProject w root
  empty : declared.manager = none → declared = {}
  independent : ∃ winner, Decides w root winner ∧ ∀ w' root', Decides w' root' winner →
    dependencies (manifestsIn w' root') = .ok declared

variable {w : Workspace} {root : Location} {bytes : ByteArray} {winner : Winner}
  {declared : Dependencies}

/-! ## What is read of a root -/

theorem package_eq_some_iff :
    (manifestsIn w root).package = some bytes ↔ Kept w root packageName bytes :=
  toOption_eq_some_iff

theorem requirements_eq_some_iff :
    (manifestsIn w root).requirements = some bytes ↔ Kept w root requirementsName bytes :=
  toOption_eq_some_iff

theorem project_eq_some_iff :
    (manifestsIn w root).project = some bytes ↔ Kept w root projectName bytes :=
  toOption_eq_some_iff

theorem packagePassed_iff :
    PackagePassed w root ↔ packageFields? (manifestsIn w root) = .ok none := by
  simp only [Manifest.packageFields?_eq_none_iff, package_eq_some_iff, PackagePassed]

theorem not_hasRequirements_iff :
    ¬ HasRequirements w root ↔ ofRequirements? (manifestsIn w root) = none := by
  simp only [Manifest.ofRequirements?_eq_none_iff, requirements_eq_some_iff, HasRequirements,
    not_exists, not_and, ne_eq]

theorem not_hasProject_iff : ¬ HasProject w root ↔ (manifestsIn w root).project = none := by
  simp only [Option.eq_none_iff_forall_ne_some, ne_eq, project_eq_some_iff, HasProject, not_exists]

theorem PackagePassed.not_hasPackage (passed : PackagePassed w root) : ¬ HasPackage w root := by
  rintro ⟨bytes, kept, describing⟩
  exact (passed bytes kept).1 describing

/-! ## The manifest that decides -/

theorem dependencies_package_alone {text : String} {fields : Table Datum}
    (decoded : Text.ofFile bytes = .ok text) (parsed : Json.parse text = .ok (.table fields)) :
    dependencies (Winner.package bytes).alone = .ok (Manifest.ofPackage fields) :=
  Manifest.dependencies_of_described rfl decoded parsed

theorem dependencies_requirements_alone {text : String} (decoded : Text.ofFile bytes = .ok text) :
    dependencies (Winner.requirements bytes).alone =
      .ok { manager := some "pip", production := requirements text } :=
  Manifest.dependencies_of_listed rfl rfl decoded

/-- What is declared is what the deciding manifest declares alone. -/
theorem Decides.dependencies_eq (decides : Decides w root winner) :
    dependencies (manifestsIn w root) = dependencies winner.alone := by
  cases decides with
  | package kept describing =>
    obtain ⟨text, fields, decoded, parsed⟩ := describing
    rw [dependencies_package_alone decoded parsed]
    exact Manifest.dependencies_of_described (package_eq_some_iff.mpr kept) decoded parsed
  | requirements passed kept decoded =>
    rw [dependencies_requirements_alone decoded]
    exact Manifest.dependencies_of_listed (packagePassed_iff.mp passed)
      (requirements_eq_some_iff.mpr kept) decoded
  | project passed unlisted kept =>
    rw [dependencies, packagePassed_iff.mp passed, not_hasRequirements_iff.mp unlisted,
      project_eq_some_iff.mpr kept]
    rfl
  | nothing passed unlisted unkept =>
    rw [dependencies, packagePassed_iff.mp passed, not_hasRequirements_iff.mp unlisted,
      not_hasProject_iff.mp unkept]
    rfl

/-- A manifest decides in every root of which the manifests can be dealt with. -/
theorem exists_decides (read : dependencies (manifestsIn w root) = .ok declared) :
    ∃ winner, Decides w root winner := by
  rw [dependencies] at read
  cases package : packageFields? (manifestsIn w root) with
  | error fault =>
    rw [package] at read
    cases read
  | ok fields? =>
    cases fields? with
    | some fields =>
      obtain ⟨bytes, text, present, decoded, parsed⟩ :=
        Manifest.packageFields?_eq_some_iff.mp package
      exact ⟨_, .package (package_eq_some_iff.mp present) ⟨text, fields, decoded, parsed⟩⟩
    | none =>
      have passed := packagePassed_iff.mpr package
      by_cases listed : HasRequirements w root
      · obtain ⟨bytes, text, kept, decoded⟩ := listed
        exact ⟨_, .requirements passed kept decoded⟩
      · by_cases project : HasProject w root
        · obtain ⟨bytes, kept⟩ := project
          exact ⟨_, .project passed listed kept⟩
        · exact ⟨_, .nothing passed listed project⟩

/-- The manager is that of the deciding manifest; without one nothing is declared at all. -/
theorem Decides.manager_eq (decides : Decides w root winner)
    (alone : dependencies winner.alone = .ok declared) :
    declared.manager = winner.manager ∧ (winner.manager = none → declared = {}) := by
  cases decides with
  | package kept describing =>
    obtain ⟨text, fields, decoded, parsed⟩ := describing
    cases alone.symm.trans (dependencies_package_alone decoded parsed)
    exact ⟨rfl, nofun⟩
  | requirements passed kept decoded =>
    cases alone.symm.trans (dependencies_requirements_alone decoded)
    exact ⟨rfl, nofun⟩
  | project passed unlisted kept => exact ⟨Manifest.manager_of_ofProject alone, nofun⟩
  | nothing passed unlisted unkept =>
    cases alone
    exact ⟨rfl, fun _ => rfl⟩

/-- The manager tells which manifests there are down to the one that decides. -/
theorem Decides.manager_iff (decides : Decides w root winner) :
    (winner.manager = some "npm" ↔ HasPackage w root) ∧
    (winner.manager = some "pip" ↔ ¬ HasPackage w root ∧ HasRequirements w root) ∧
    (winner.manager = some "poetry/pip" ↔
      ¬ HasPackage w root ∧ ¬ HasRequirements w root ∧ HasProject w root) ∧
    (winner.manager = none ↔
      ¬ HasPackage w root ∧ ¬ HasRequirements w root ∧ ¬ HasProject w root) := by
  cases decides with
  | package kept describing =>
    have package : HasPackage w root := ⟨_, kept, describing⟩
    simp [Winner.manager, package]
  | requirements passed kept decoded =>
    have listed : HasRequirements w root := ⟨_, _, kept, decoded⟩
    simp [Winner.manager, passed.not_hasPackage, listed]
  | project passed unlisted kept =>
    have project : HasProject w root := ⟨_, kept⟩
    simp [Winner.manager, passed.not_hasPackage, unlisted, project]
  | nothing passed unlisted unkept =>
    simp [Winner.manager, passed.not_hasPackage, unlisted, unkept]

/-- Wherever the manifests can be dealt with, the first of them decides alone. -/
theorem first_manifest_decides (w : Workspace) (root : Location) (declared : Dependencies)
    (read : dependencies (manifestsIn w root) = .ok declared) : DecidedByFirst w root declared := by
  obtain ⟨winner, decides⟩ := exists_decides read
  have alone : dependencies winner.alone = .ok declared := by rw [← decides.dependencies_eq, read]
  have independent : ∀ w' root', Decides w' root' winner →
      dependencies (manifestsIn w' root') = .ok declared :=
    fun w' root' decides' => by rw [decides'.dependencies_eq, alone]
  obtain ⟨manager, empty⟩ := decides.manager_eq alone
  obtain ⟨npm, pip, poetry, unmanaged⟩ := decides.manager_iff
  rw [← manager] at npm pip poetry unmanaged empty
  exact ⟨npm, pip, poetry, unmanaged, empty, winner, decides, independent⟩

/-- A project with all three manifests, of which the package description is a list. -/
def layeredProject : Workspace :=
  { disk := .folder [("p", .folder [("package.json", .file "[1]".toUTF8),
      ("pyproject.toml", .file "[project".toUTF8),
      ("requirements.txt", .file "flask==2.0\n".toUTF8)])] }

theorem layeredProject_decided : DecidedByFirst layeredProject ["p"]
    { manager := some "pip", production := [("flask", "==2.0")] } :=
  first_manifest_decides layeredProject ["p"] _ (by decide +kernel)

end Project

end Synopsis
