import Mathlib.Data.List.TakeWhile
import Synopsis.Manifest
import Synopsis.Proofs.Json.Numbers
import Synopsis.Proofs.Outcome
import Synopsis.Proofs.Text.Utf8
import Synopsis.Proofs.Toml.Faults

/-!
# Manifests that cannot be read

Manifests are read as it is documented when what they declare is found whatever their bytes are: a
package description or a list of requirements that cannot be read counts as missing, and a project
file that cannot be read declares nothing. This is so unless the package description is nested too
deeply or the project file, if it decides, is nested too deeply or holds too long a number. Nothing
is said about what the manifests that can be read declare.
-/

namespace Synopsis

namespace Manifest

/-- Bytes of which a parser makes nothing: they are no text, or a text that it refuses. -/
inductive Unreadable {ε α : Type} (parse : String → Except ε α) (bytes : ByteArray) : Prop
  | undecodable {fault : Text.Utf8.Fault} : Text.ofFile bytes = .error fault →
      Unreadable parse bytes
  | refused {text : String} {fault : ε} : Text.ofFile bytes = .ok text → parse text = .error fault →
      Unreadable parse bytes

/-- The other manifests leave it to the project file to declare something. -/
def LeftToProject (manifests : Manifests) : Prop :=
  dependencies { manifests with project := none } = .ok {}

/-- Whatever the bytes of the manifests are, there is something that they declare and a package
description all of which can be written, its commands too, and manifests that cannot be read are
passed over. -/
structure Documented (manifests : Manifests) : Prop where
  declared : ∃ declared, dependencies manifests = .ok declared
  described : ∃ fields, packageFields manifests = .ok fields ∧
    Datum.anyFieldHoldsLong fields = false
  package : ∀ bytes, manifests.package = some bytes → Unreadable Json.parse bytes →
    packageFields manifests = .ok [] ∧
      dependencies manifests = dependencies { manifests with package := none }
  requirements : ∀ bytes fault, manifests.requirements = some bytes →
    Text.ofFile bytes = .error fault →
      dependencies manifests = dependencies { manifests with requirements := none }
  project : LeftToProject manifests → ∀ bytes, manifests.project = some bytes →
    Unreadable Toml.parse bytes → dependencies manifests = .ok { manager := some "poetry/pip" }

/-- A package description that is nested too deeply: it opens more lists and tables than there may
be levels, and is refused for that. -/
def DeepPackage (bytes : ByteArray) : Prop :=
  ∃ text fault, Text.ofFile bytes = .ok text ∧ Json.parse text = .error fault ∧
    fault.isDeep = true ∧ Json.depthLimit < Json.openings text.toList

theorem deepPackage_of_parse {bytes : ByteArray} {text : String} {fault : Json.Fault}
    (decoded : Text.ofFile bytes = .ok text) (refused : Json.parse text = .error fault)
    (deep : fault.isDeep = true) : DeepPackage bytes :=
  ⟨text, fault, decoded, refused, deep, Json.depthLimit_lt_openings refused deep⟩

/-- A version that a table asks for is too long to be written. -/
def LongVersion (value : Option Datum) : Prop :=
  ∃ fields, value = some (.table fields) ∧
    ∃ name wanted, (name, wanted) ∈ fields ∧ Text.lower name ≠ "python" ∧
      (versionOf wanted).holdsLong = true

/-- The packaging tool of a document. -/
def toolOf (document : Datum) : Option Datum := within "poetry" (document.get? "tool")

/-- A project file that is nested too deeply, or that has a number which is too long to be
read or, as a version, to be written. One that is refused opens as many lists and tables or
holds a run of as many digits. -/
inductive Unwieldy (bytes : ByteArray) : Prop
  | refused {text : String} {fault : Toml.Fault} : Text.ofFile bytes = .ok text →
      Toml.parse text = .error fault → fault ≠ .malformed →
      fault.About Toml.depthLimit text.toList → Unwieldy bytes
  | longVersion {text : String} {document : Datum} {group : Option Datum} :
      Text.ofFile bytes = .ok text → Toml.parse text = .ok document →
      group ∈ within "dependencies" (toolOf document) :: toolGroups (toolOf document) →
      LongVersion group → Unwieldy bytes

theorem unwieldy_of_parse {bytes : ByteArray} {text : String} {fault : Toml.Fault}
    (decoded : Text.ofFile bytes = .ok text) (refused : Toml.parse text = .error fault)
    (other : fault ≠ .malformed) : Unwieldy bytes :=
  .refused decoded refused other (Toml.about_parse refused)

/-- The manifest that decides cannot be dealt with. -/
inductive Hindered (manifests : Manifests) : Prop
  | package {bytes : ByteArray} : manifests.package = some bytes → DeepPackage bytes →
      Hindered manifests
  | project {bytes : ByteArray} : LeftToProject manifests → manifests.project = some bytes →
      Unwieldy bytes → Hindered manifests

/-! ## The package description -/

variable {manifests : Manifests} {bytes : ByteArray}

theorem packageFields?_of_undecodable {fault : Text.Utf8.Fault}
    (present : manifests.package = some bytes) (undecoded : Text.ofFile bytes = .error fault) :
    packageFields? manifests = .ok none := by
  rw [packageFields?, present, Option.map_some, undecoded]

theorem packageFields?_of_document {text : String} {document : Datum}
    (present : manifests.package = some bytes) (decoded : Text.ofFile bytes = .ok text)
    (parsed : Json.parse text = .ok document) :
    ∃ fields?, packageFields? manifests = .ok fields? := by
  simp only [packageFields?, present, Option.map_some, decoded, parsed]
  cases document <;> exact ⟨_, rfl⟩

theorem packageFields?_of_refused {text : String} {fault : Json.Fault}
    (present : manifests.package = some bytes) (decoded : Text.ofFile bytes = .ok text)
    (refused : Json.parse text = .error fault) :
    packageFields? manifests =
      if fault.isDeep then .error (.deepPackage (fault.message text)) else .ok none := by
  simp only [packageFields?, present, Option.map_some, decoded, refused]

/-- A package description that is not nested too deeply is read or counts as missing. -/
theorem packageFields?_ok_iff : (∃ fields?, packageFields? manifests = .ok fields?) ↔
    ∀ bytes, manifests.package = some bytes → ¬ DeepPackage bytes := by
  cases present : manifests.package with
  | none =>
    rw [packageFields?, present]
    exact iff_of_true ⟨none, rfl⟩ nofun
  | some bytes =>
    simp only [Option.some.injEq, forall_eq']
    cases decoded : Text.ofFile bytes with
    | error fault =>
      rw [packageFields?_of_undecodable present decoded]
      refine iff_of_true ⟨none, rfl⟩ fun ⟨text, _, decoded', _⟩ => ?_
      cases decoded.symm.trans decoded'
    | ok text =>
      cases parsed : Json.parse text with
      | ok document =>
        refine iff_of_true (packageFields?_of_document present decoded parsed) ?_
        rintro ⟨_, _, decoded', refused, -, -⟩
        cases decoded.symm.trans decoded'
        cases parsed.symm.trans refused
      | error fault =>
        rw [packageFields?_of_refused present decoded parsed]
        cases deep : fault.isDeep with
        | true =>
          refine iff_of_false (fun ⟨_, h⟩ => ?_) 
            (not_not_intro (deepPackage_of_parse decoded parsed deep))
          rw [if_pos rfl] at h
          cases h
        | false =>
          refine iff_of_true ⟨none, if_neg Bool.false_ne_true⟩ ?_
          rintro ⟨_, _, decoded', refused, deep', -⟩
          cases decoded.symm.trans decoded'
          cases parsed.symm.trans refused
          cases deep.symm.trans deep'

/-- A package description that cannot be read counts as missing. -/
theorem packageFields?_of_unreadable (present : manifests.package = some bytes)
    (unreadable : Unreadable Json.parse bytes) (shallow : ¬ DeepPackage bytes) :
    packageFields? manifests = .ok none := by
  cases unreadable with
  | undecodable undecoded => exact packageFields?_of_undecodable present undecoded
  | refused decoded refused =>
    rename_i text fault
    have notDeep : fault.isDeep = false :=
      Bool.eq_false_iff.mpr fun deep => shallow (deepPackage_of_parse decoded refused deep)
    rw [packageFields?_of_refused present decoded refused]
    simp [notDeep]

/-- All of a package description that is read can be written. -/
theorem anyFieldHoldsLong_of_packageFields? {fields : Table Datum}
    (h : packageFields? manifests = .ok (some fields)) :
    Datum.anyFieldHoldsLong fields = false := by
  unfold packageFields? at h
  split at h
  · split at h
    · rename_i parsed
      cases h
      exact Json.holdsLong_of_parse parsed
    · cases h
    · split at h <;> cases h
  · cases h

/-! ## The project file -/

theorem constraints_ok_iff {value : Option Datum} :
    (∃ table, constraints value = .ok table) ↔ ¬ LongVersion value := by
  have noTable (h : ∀ fields, value ≠ some (.table fields)) : ¬ LongVersion value := by
    rintro ⟨fields, table, -⟩
    exact h fields table
  unfold constraints
  split
  · rename_i fields
    dsimp only
    split
    · rename_i long
      simp only [List.any_eq_true, List.mem_map, List.mem_filter, Prod.exists] at long
      obtain ⟨name, _, ⟨_, wanted, ⟨listed, named⟩, ⟨⟩⟩, hlong⟩ := long
      refine iff_of_false ?_ (not_not_intro ⟨fields, rfl, name, wanted, listed, ?_, hlong⟩)
      · rintro ⟨_, ⟨⟩⟩
      · simpa using named
    · rename_i short
      refine iff_of_true ⟨_, rfl⟩ ?_
      rintro ⟨_, ⟨⟩, name, wanted, listed, named, long⟩
      refine short (List.any_eq_true.mpr ⟨(name, versionOf wanted), ?_, long⟩)
      exact List.mem_map.mpr
        ⟨(name, wanted), List.mem_filter.mpr ⟨listed, by simpa using named⟩, rfl⟩
  · rename_i other
    exact iff_of_true ⟨[], rfl⟩ (noTable fun fields table => other fields table)

theorem withTool_ok_iff {tool : Option Datum} {declared : Dependencies} :
    (∃ result, withTool tool declared = .ok result) ↔
      ∀ group ∈ within "dependencies" tool :: toolGroups tool, ¬ LongVersion group := by
  simp only [withTool, exists_bind_ok, exists_pure_ok, and_true, exists_and_right, exists_mapM_ok,
    constraints_ok_iff, List.forall_mem_cons]

/-- A project file declares something unless it is unwieldy. -/
theorem ofProject_ok_iff : (∃ declared, ofProject bytes = .ok declared) ↔ ¬ Unwieldy bytes := by
  unfold ofProject readProject
  cases decoded : Text.ofFile bytes with
  | error fault =>
    refine iff_of_true ⟨_, rfl⟩ ?_
    rintro (⟨decoded', -⟩ | ⟨decoded', -⟩) <;> cases decoded.symm.trans decoded'
  | ok text =>
    cases parsed : Toml.parse text with
    | error fault =>
      cases fault with
      | malformed =>
        refine iff_of_true ⟨{ manager := some "poetry/pip" }, by simp only [parsed]⟩ ?_
        rintro (⟨decoded', refused, other, -⟩ | ⟨decoded', parsed', -, -⟩) <;>
          cases decoded.symm.trans decoded'
        · exact other (Except.error.inj (refused.symm.trans parsed))
        · cases parsed.symm.trans parsed'
      | longInteger digits =>
        exact iff_of_false (fun ⟨_, h⟩ => by simp only [parsed] at h; cases h)
          (not_not_intro (unwieldy_of_parse decoded parsed (by simp)))
      | nesting =>
        exact iff_of_false (fun ⟨_, h⟩ => by simp only [parsed] at h; cases h)
          (not_not_intro (unwieldy_of_parse decoded parsed (by simp)))
    | ok document =>
      simp only [parsed, ofProjectValue, withTool_ok_iff]
      constructor
      · rintro fits (⟨decoded', refused, -, -⟩ | ⟨decoded', parsed', listed, long⟩) <;>
          cases decoded.symm.trans decoded'
        · cases parsed.symm.trans refused
        · cases parsed.symm.trans parsed'
          exact fits _ listed long
      · exact fun wieldy group listed long => wieldy (.longVersion decoded parsed listed long)

/-- A project file that cannot be read declares nothing. -/
theorem ofProject_of_unreadable (unreadable : Unreadable Toml.parse bytes)
    (wieldy : ¬ Unwieldy bytes) : ofProject bytes = .ok { manager := some "poetry/pip" } := by
  cases unreadable with
  | undecodable undecoded => simp only [ofProject, readProject, undecoded]
  | refused decoded refused =>
    rename_i text fault
    cases fault with
    | malformed => simp only [ofProject, readProject, decoded, refused]
    | longInteger digits => exact absurd (unwieldy_of_parse decoded refused (by simp)) wieldy
    | nesting => exact absurd (unwieldy_of_parse decoded refused (by simp)) wieldy

/-! ## All manifests -/

theorem leftToProject_iff : LeftToProject manifests ↔
    packageFields? manifests = .ok none ∧ ofRequirements? manifests = none := by
  have package : packageFields? { manifests with project := none } = packageFields? manifests := rfl
  have requirements : ofRequirements? { manifests with project := none } =
    ofRequirements? manifests := rfl
  rw [LeftToProject, dependencies, package, requirements]
  cases packageFields? manifests with
  | error fault => simp
  | ok fields? =>
    cases fields? with
    | some fields => simp [ofPackage]
    | none =>
      cases listed : ofRequirements? manifests with
      | none => simp
      | some declared =>
        have pip : declared.manager = some "pip" := by
          unfold ofRequirements? at listed
          split at listed <;> cases listed
          rfl
        refine iff_of_false (fun same => ?_) (by simp)
        cases same
        cases pip

theorem dependencies_of_left (left : LeftToProject manifests) :
    dependencies manifests = manifests.project.elim (.ok {}) ofProject := by
  obtain ⟨package, requirements⟩ := leftToProject_iff.mp left
  rw [dependencies, package, requirements]
  cases manifests.project <;> rfl

/-- Something is declared unless the manifest that decides cannot be dealt with. -/
theorem dependencies_ok_iff : (∃ declared, dependencies manifests = .ok declared) ↔
    ¬ Hindered manifests := by
  constructor
  · rintro ⟨declared, h⟩ (⟨present, deep⟩ | ⟨left, present, unwieldy⟩)
    · obtain ⟨fields?, read⟩ : ∃ fields?, packageFields? manifests = .ok fields? := by
        cases read : packageFields? manifests with
        | ok fields? => exact ⟨fields?, rfl⟩
        | error fault =>
          rw [dependencies, read] at h
          cases h
      exact packageFields?_ok_iff.mp ⟨fields?, read⟩ _ present deep
    · rw [dependencies_of_left left, present] at h
      exact ofProject_ok_iff.mp ⟨declared, h⟩ unwieldy
  · intro unhindered
    obtain ⟨fields?, read⟩ := packageFields?_ok_iff.mpr fun bytes present deep =>
      unhindered (.package present deep)
    by_cases left : LeftToProject manifests
    · rw [dependencies_of_left left]
      cases present : manifests.project with
      | none => exact ⟨{}, rfl⟩
      | some bytes =>
        exact ofProject_ok_iff.mpr fun unwieldy => unhindered (.project left present unwieldy)
    · rw [dependencies, read]
      rw [leftToProject_iff, read] at left
      cases fields? with
      | some fields => exact ⟨ofPackage fields, rfl⟩
      | none =>
        cases listed : ofRequirements? manifests with
        | some declared => exact ⟨declared, rfl⟩
        | none => exact absurd ⟨rfl, listed⟩ left

/-- Manifests are read as it is documented exactly if the one that decides can be dealt with. -/
theorem manifests_documented_iff (manifests : Manifests) :
    Documented manifests ↔ ¬ Hindered manifests := by
  refine ⟨fun documented => dependencies_ok_iff.mp documented.declared, fun unhindered => ?_⟩
  have shallow (bytes : ByteArray) (present : manifests.package = some bytes) :
      ¬ DeepPackage bytes := fun deep => unhindered (.package present deep)
  obtain ⟨fields?, read⟩ := packageFields?_ok_iff.mpr shallow
  refine ⟨dependencies_ok_iff.mpr unhindered, ⟨fields?.getD [], ?_, ?_⟩, ?_, ?_, ?_⟩
  · rw [packageFields, read]
    rfl
  · cases fields? with
    | none => rfl
    | some fields => exact anyFieldHoldsLong_of_packageFields? read
  · intro bytes present unreadable
    have missing := packageFields?_of_unreadable present unreadable (shallow bytes present)
    refine ⟨by rw [packageFields, missing]; rfl, ?_⟩
    rw [dependencies, dependencies, missing]
    rfl
  · intro bytes fault present undecoded
    have missing : ofRequirements? manifests = none := by
      rw [ofRequirements?, present, Option.map_some, undecoded]
    rw [dependencies, dependencies, missing]
    rfl
  · intro left bytes present unreadable
    rw [dependencies_of_left left, present]
    exact ofProject_of_unreadable unreadable fun unwieldy =>
      unhindered (.project left present unwieldy)

/-- A project file of one field, a numeral of ones, one more of them than the number says. -/
def onesField (n : Nat) : List UInt8 := 97 :: 61 :: 49 :: List.replicate n 49

theorem ofFile_onesField (n : Nat) : Text.ofFile ⟨(onesField n).toArray⟩ =
    .ok (String.ofList ('a' :: '=' :: '1' :: List.replicate n '1')) := by
  have chars : ((onesField n).map fun b => Char.ofNat b.toNat) =
      'a' :: '=' :: '1' :: List.replicate n '1' := by
    rw [onesField, List.map_cons, List.map_cons, List.map_cons, List.map_replicate]
    rfl
  rw [← chars]
  refine Text.ofFile_of_low ?_ ?_
  · intro b hb
    simp only [onesField, List.mem_cons, List.mem_replicate] at hb
    rcases hb with rfl | rfl | rfl | ⟨-, rfl⟩ <;> decide
  · rw [chars]
    simp

theorem unwieldy_onesField {n : Nat} (long : Decimal.longestNumeral < n + 1) :
    Unwieldy ⟨(onesField n).toArray⟩ := by
  have digits : ∀ c ∈ List.replicate n '1', c.isDigit = true :=
    List.forall_mem_replicate.mpr (Or.inr rfl)
  exact unwieldy_of_parse (ofFile_onesField n)
    (Toml.parse_of_digits digits (by rwa [List.length_replicate])) (by simp)

/-- A project file with one numeral too many digits long is not read as it is documented. -/
theorem manifests_onesField_undocumented :
    ¬ Documented { project := some ⟨(onesField 4300).toArray⟩ } := fun documented =>
  dependencies_ok_iff.mp documented.declared (.project rfl rfl (unwieldy_onesField (by decide)))

end Manifest

end Synopsis
