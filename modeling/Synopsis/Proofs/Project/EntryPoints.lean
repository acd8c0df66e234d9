import Mathlib.Data.List.Induction
import Synopsis.Proofs.Path.Normal
import Synopsis.Proofs.Project.Counts
import Synopsis.Proofs.Project.Manifests

/-!
# Where a project is entered

The entry points of a project are the usual ones that are there and the targets that its package
description declares, each once. Targets that are spelled alike are one entry point, which is listed
in normal form: by slashes, without empty segments, and with dots only where a path leads out of the
project. No file is looked up for it, so a target that is declared need not exist.
-/

namespace Synopsis

/-! ## Items in the order in which they are met -/

/-- The items of a list, each once, in the order in which they are first met. -/
structure FirstMet (met items : List String) : Prop where
  mem_iff : ∀ item, item ∈ met ↔ item ∈ items
  ordered : met.Pairwise fun item other => items.idxOf item < items.idxOf other

theorem eraseDups_of_nodup {names : List String} (distinct : names.Nodup) :
    names.eraseDups = names := by
  induction names with
  | nil => rfl
  | cons name names ih =>
    obtain ⟨apart, distinct⟩ := List.nodup_cons.mp distinct
    have kept : names.filter (fun other => !other == name) = names :=
      List.filter_eq_self.mpr fun other h => by
        simpa using fun same : other = name => apart (same ▸ h)
    rw [List.eraseDups_cons, kept, ih distinct]

theorem eraseDups_ordered (items : List String) :
    items.eraseDups.Pairwise fun item other => items.idxOf item < items.idxOf other := by
  induction items using List.reverseRecOn with
  | nil => exact .nil
  | append_singleton items last ih =>
    have kept : items.eraseDups.Pairwise fun item other =>
        (items ++ [last]).idxOf item < (items ++ [last]).idxOf other :=
      ih.imp_of_mem fun h h' before => by
        rwa [List.idxOf_append_of_mem (List.mem_eraseDups.mp h),
          List.idxOf_append_of_mem (List.mem_eraseDups.mp h')]
    rw [List.eraseDups_append]
    by_cases seen : last ∈ items
    · have none : [last].removeAll items = [] := by simp [List.removeAll, seen]
      rw [none, List.eraseDups_nil, List.append_nil]
      exact kept
    · have fresh : [last].removeAll items = [last] := by simp [List.removeAll, seen]
      rw [fresh, eraseDups_of_nodup (List.nodup_singleton last)]
      refine List.pairwise_append.mpr ⟨kept, List.pairwise_singleton _ _, fun item h other h' => ?_⟩
      obtain rfl := List.mem_singleton.mp h'
      have inside := List.mem_eraseDups.mp h
      rw [List.idxOf_append_of_mem inside, List.idxOf_append_of_notMem seen]
      exact Nat.lt_of_lt_of_le (List.idxOf_lt_length_of_mem inside) (Nat.le_add_right _ _)

theorem firstMet_eraseDups (items : List String) : FirstMet items.eraseDups items where
  mem_iff _ := List.mem_eraseDups
  ordered := eraseDups_ordered items

/-! ## Declared targets -/

namespace Manifest

/-- The main program and the commands that fields declare. A text names one target,
unless it is empty, and a table of commands one for each value that counts as there.
Values of other kinds name none. -/
structure DeclaredBy (fields : Table Datum) (main commands : List String) : Prop where
  main_text : ∀ s, Table.get? "main" fields = some (.text s) → s ≠ "" → main = [s]
  main_other : (∀ s, Table.get? "main" fields = some (.text s) → s = "") → main = []
  bin_text : ∀ s, Table.get? "bin" fields = some (.text s) → s ≠ "" → commands = [s]
  bin_table : ∀ entries, Table.get? "bin" fields = some (.table entries) →
    commands = ((entries.map Prod.snd).filter Datum.isSet).map Datum.asText
  bin_texts : ∀ entries : Table String,
    Table.get? "bin" fields = some (.table (entries.map fun (name, s) => (name, .text s))) →
      commands = (entries.map Prod.snd).filter (· ≠ "")
  bin_other : (∀ s, Table.get? "bin" fields = some (.text s) → s = "") →
    (∀ entries, Table.get? "bin" fields ≠ some (.table entries)) → commands = []

theorem map_asText_texts (entries : Table String) :
    (((entries.map fun (name, s) => (name, Datum.text s)).map Prod.snd).filter Datum.isSet).map
      Datum.asText = (entries.map Prod.snd).filter (· ≠ "") := by
  induction entries with
  | nil => rfl
  | cons entry entries ih =>
    obtain ⟨name, s⟩ := entry
    simp only [List.map_cons, List.filter_cons, Datum.isSet, bne_iff_ne, ne_eq, decide_not,
      Bool.not_eq_true', decide_eq_false_iff_not]
    split
    · exact congrArg (s :: ·) (by simpa using ih)
    · simpa using ih

theorem exists_targets_eq (fields : Table Datum) :
    ∃ main commands, targets fields = main ++ commands ∧ DeclaredBy fields main commands := by
  refine ⟨_, _, rfl, ?_, ?_, ?_, ?_, ?_, ?_⟩
  · intro s text nonempty
    simp [text, nonempty]
  · intro other
    split
    · exact if_pos (by simpa using other _ ‹_›)
    · rfl
  · intro s text nonempty
    simp [text, nonempty]
  · intro entries table
    simp [table]
  · intro entries table
    simp only [table]
    exact map_asText_texts entries
  · intro other none
    split
    · exact if_pos (by simpa using other _ ‹_›)
    · exact absurd ‹_› (none _)
    · rfl

end Manifest

namespace Project

open Synopsis.Path (SpelledAlike normal)

/-! ## Targets in normal form -/

/-- A text with a slash for every backslash. -/
def slashed (text : String) : String :=
  String.ofList (text.toList.map fun c => if c == '\\' then '/' else c)

theorem normalTarget?_eq (target : String) : normalTarget? target =
    if normal (slashed target) = "." then none else some (normal (slashed target)) := by
  simp only [normalTarget?, slashed, beq_iff_eq]

theorem slashed_of_plain {text : String} (plain : '\\' ∉ text.toList) : slashed text = text := by
  have same : text.toList.map (fun c => if c == '\\' then '/' else c) = text.toList.map id := by
    refine List.map_congr_left fun c h => if_neg fun backslash => ?_
    rw [beq_iff_eq] at backslash
    exact plain (backslash ▸ h)
  rw [slashed, same, List.map_id, String.ofList_toList]

theorem backslash_notMem_slashed (text : String) : '\\' ∉ (slashed text).toList := by
  rw [slashed, String.toList_ofList]
  intro h
  obtain ⟨c, -, made⟩ := List.mem_map.mp h
  split at made
  · exact absurd made (by decide)
  · rename_i other
    exact other (beq_iff_eq.mpr made)

theorem slashed_normal_slashed (text : String) :
    slashed (normal (slashed text)) = normal (slashed text) := by
  refine slashed_of_plain fun h => ?_
  rcases Path.mem_normal h with slash | dot | h
  · exact absurd slash (by decide)
  · exact absurd dot (by decide)
  · exact backslash_notMem_slashed text h

/-- A target in normal form is its own normal form. -/
theorem normalTarget?_normalTarget? {target entry : String}
    (h : normalTarget? target = some entry) : normalTarget? entry = some entry := by
  rw [normalTarget?_eq] at h
  split at h
  · cases h
  · rename_i below
    obtain rfl := Option.some.inj h
    rw [normalTarget?_eq, slashed_normal_slashed, Path.normal_normal, if_neg below]

theorem normalTarget?_usual : ∀ entry ∈ usualEntryPoints, normalTarget? entry = some entry := by
  decide +kernel

/-- Targets that are spelled alike have one normal form. -/
theorem normalTarget?_eq_of_spelledAlike {target other : String}
    (alike : SpelledAlike (slashed target) (slashed other)) :
    normalTarget? target = normalTarget? other := by
  rw [normalTarget?_eq, normalTarget?_eq, Path.normal_eq_normal_iff.mpr alike]

/-! ## Entry points -/

variable {ways targets : List String}

/-- The usual entry points among the ways, in the order of their table. -/
def usualAmong (ways : List String) : List String := usualEntryPoints.filter (· ∈ ways)

/-- Entry points as they are listed from the ways to the files and the declared targets. -/
structure AreEntryPoints (ways targets entries : List String) : Prop where
  usual_first : ∃ others, entries = usualAmong ways ++ others ∧
    FirstMet others ((targets.filterMap normalTarget?).filter (· ∉ usualAmong ways))
  distinct : entries.Nodup
  nonempty : "" ∉ entries
  below_root : "." ∉ entries
  settled : ∀ entry ∈ entries, normalTarget? entry = some entry
  spelled_once : ∀ entry ∈ entries, ∀ other ∈ entries,
    SpelledAlike (slashed entry) (slashed other) → entry = other

theorem entryPoints_eq (ways targets : List String) : entryPoints ways targets = usualAmong ways ++
    ((targets.filterMap normalTarget?).filter (· ∉ usualAmong ways)).eraseDups := by
  have once : (usualAmong ways).eraseDups = usualAmong ways :=
    eraseDups_of_nodup (List.Nodup.filter _ (by decide))
  have usual : usualEntryPoints.filter (ways.contains ·) = usualAmong ways := by
    simp [usualAmong]
  have removed : (targets.filterMap normalTarget?).removeAll (usualAmong ways) =
      (targets.filterMap normalTarget?).filter (· ∉ usualAmong ways) := by
    simp [List.removeAll]
  rw [entryPoints, usual, List.eraseDups_append, once, removed]

theorem settled_of_mem {entry : String} (listed : entry ∈ entryPoints ways targets) :
    normalTarget? entry = some entry := by
  rw [entryPoints, List.mem_eraseDups, List.mem_append] at listed
  rcases listed with usual | declared
  · exact normalTarget?_usual entry (List.mem_filter.mp usual).1
  · obtain ⟨target, -, h⟩ := List.mem_filterMap.mp declared
    exact normalTarget?_normalTarget? h

theorem areEntryPoints (ways targets : List String) :
    AreEntryPoints ways targets (entryPoints ways targets) where
  usual_first := ⟨_, entryPoints_eq ways targets, firstMet_eraseDups _⟩
  distinct := nodup_eraseDups _
  nonempty listed := by
    have empty : normalTarget? "" = none := by decide
    exact Option.some_ne_none "" ((settled_of_mem listed).symm.trans empty)
  below_root listed := by
    have root : normalTarget? "." = none := by decide
    exact Option.some_ne_none "." ((settled_of_mem listed).symm.trans root)
  settled _ listed := settled_of_mem listed
  spelled_once entry listed other listed' alike := by
    have same := normalTarget?_eq_of_spelledAlike alike
    rw [settled_of_mem listed, settled_of_mem listed'] at same
    exact Option.some.inj same

/-- The entry points of a project whose package description holds fields are the usual ones among
the ways to its files, and then the targets that the fields declare, main program first, as far as
they are not yet listed. Each is listed once, in a normal form that no other one is spelled like. -/
theorem entered_once (ways : List String) {manifests : Manifests} {bytes : ByteArray}
    {text : String}
    {fields : Table Datum} (present : manifests.package = some bytes)
    (decoded : Text.ofFile bytes = .ok text) (parsed : Json.parse text = .ok (.table fields)) :
    Manifest.packageFields manifests = .ok fields ∧
      (∃ main commands, Manifest.targets fields = main ++ commands ∧
        Manifest.DeclaredBy fields main commands) ∧
      AreEntryPoints ways (Manifest.targets fields) (entryPoints ways (Manifest.targets fields)) ∧
      ∀ (w : Workspace) (root : Location) (files : List String) (outcome : ProjectFacts),
        manifestsIn w root = manifests → facts w root files = .ok outcome →
          ∃ found, files.mapM (wayFrom w root) = .ok found ∧
            outcome.entryPoints = entryPoints found (Manifest.targets fields) := by
  have read : Manifest.packageFields manifests = .ok fields := by
    rw [Manifest.packageFields,
      Manifest.packageFields?_eq_some_iff.mpr ⟨bytes, text, present, decoded, parsed⟩]
    rfl
  refine ⟨read, Manifest.exists_targets_eq fields, areEntryPoints ways _,
    fun w root files outcome own described => ?_⟩
  obtain ⟨found, sizes, declared, package, ledTo, -, -, held, rfl⟩ := facts_eq_ok_iff.mp described
  rw [own, read] at held
  obtain rfl := Except.ok.inj held
  exact ⟨found, ledTo, rfl⟩

/-- A package description with two spellings of one target. -/
def spelledPackage : String :=
  "\x7b\"main\": \"./a\\\\b\", \"bin\": \x7b\"x\": \"c/../a//b\"\x7d\x7d"

/-- The fields of this description. -/
def spelledFields : Table Datum :=
  [("main", .text "./a\\b"), ("bin", .table [("x", .text "c/../a//b")])]

theorem entered_once_spelledPackage :
    Text.ofFile spelledPackage.toUTF8 = .ok spelledPackage ∧
      Json.parse spelledPackage = .ok (.table spelledFields) ∧
      AreEntryPoints ["a/b", "main.py"] ["./a\\b", "c/../a//b"] ["main.py", "a/b"] := by
  have decoded : Text.ofFile spelledPackage.toUTF8 = .ok spelledPackage := by decide +kernel
  have parsed : Json.parse spelledPackage = .ok (.table spelledFields) := by cbv
  have targets : Manifest.targets spelledFields = ["./a\\b", "c/../a//b"] := by decide
  have listed : entryPoints ["a/b", "main.py"] ["./a\\b", "c/../a//b"] = ["main.py", "a/b"] := by
    decide +kernel
  have present : ({ package := some spelledPackage.toUTF8 } : Manifests).package =
      some spelledPackage.toUTF8 := rfl
  obtain ⟨-, -, entered, -⟩ := entered_once ["a/b", "main.py"] present decoded parsed
  rw [targets, listed] at entered
  exact ⟨decoded, parsed, entered⟩

end Project

end Synopsis
